import CrossShader.EntryPoint.Plan
import CrossShader.Proofs.Resolution

/-!
# Resolved structures

What a request has resolved at any time, under fixed meanings of all names.

* `Settled` — lists of resolved structures, the latest first: each is what its name stands for, has a
  target name of its own, and has the structures of its fields behind it.
* `FieldClosed` — sets of names that contain the structures of their members' fields.
* `Request.Settles` — requests that keep resolved structures settled and add only names from such a set;
  with one rule for each way to put requests together.
* `resolveStructure_settles`, `planEntry_settles` — resolution and planning are such requests.
-/

set_option autoImplicit false

namespace CrossShader

/-! ## Settled lists -/

/-- Lists of resolved structures by canonical name, the latest first. -/
inductive Settled (m : Meanings) (d : Dialect) : List (String × Structure) → Prop
  | nil : Settled m d []
  | cons {name : String} {s : Structure} {earlier : List (String × Structure)} :
      Settled m d earlier → m name = .ok s →
      (∀ field ∈ s.fields, d.mapType field.type.name = none →
        field.type.name ∈ earlier.map Prod.fst) →
      claimant? d earlier (d.structureTypeName name) = none →
      Settled m d ((name, s) :: earlier)

theorem claimant?_eq_none_iff {d : Dialect} {structures : List (String × Structure)}
    {target : String} : claimant? d structures target = none ↔
      target ∉ structures.map fun entry => d.structureTypeName entry.1 := by
  simp [claimant?, List.find?_eq_none]

/-- The structure that has a target name is among the resolved ones. -/
theorem mem_of_claimant? {d : Dialect} {structures : List (String × Structure)} {target other : String}
    (h : claimant? d structures target = some other) :
    other ∈ structures.map Prod.fst ∧ d.structureTypeName other = target := by
  obtain ⟨entry, hentry, rfl⟩ := Option.map_eq_some_iff.1 h
  exact ⟨List.mem_map_of_mem (List.mem_of_find?_eq_some hentry), by simpa using List.find?_some hentry⟩

theorem mem_names_of_lookup {structures : List (String × Structure)} {name : String} {s : Structure}
    (h : structures.lookup name = some s) : name ∈ structures.map Prod.fst :=
  List.mem_map_of_mem (mem_of_lookup h)

theorem notMem_names_of_lookup {structures : List (String × Structure)} {name : String}
    (h : structures.lookup name = none) : name ∉ structures.map Prod.fst := by
  intro hmem
  obtain ⟨entry, hentry, rfl⟩ := List.mem_map.1 hmem
  have hne := List.lookup_eq_none_iff.1 h entry hentry
  simp at hne

namespace Settled

variable {m : Meanings} {d : Dialect} {structures : List (String × Structure)}

theorem meaning (h : Settled m d structures) :
    ∀ entry ∈ structures, m entry.1 = .ok entry.2 := by
  induction h with
  | nil => simp
  | cons _ hm _ _ ih => exact List.forall_mem_cons.2 ⟨hm, ih⟩

theorem targets_nodup (h : Settled m d structures) :
    (structures.map fun entry => d.structureTypeName entry.1).Nodup := by
  induction h with
  | nil => exact List.nodup_nil
  | cons _ _ _ hfree ih => exact List.nodup_cons.2 ⟨claimant?_eq_none_iff.1 hfree, ih⟩

/-- Distinct target names have distinct canonical names. -/
theorem names_nodup (h : Settled m d structures) : (structures.map Prod.fst).Nodup := by
  have htargets : ((structures.map Prod.fst).map d.structureTypeName).Nodup := by
    rw [List.map_map]
    exact h.targets_nodup
  exact List.Pairwise.of_map _ (fun _ _ hne heq => hne (congrArg _ heq)) htargets

theorem fields_behind (h : Settled m d structures) :
    ∀ later name s earlier, structures = later ++ (name, s) :: earlier →
      ∀ field ∈ s.fields, d.mapType field.type.name = none →
        field.type.name ∈ earlier.map Prod.fst := by
  induction h with
  | nil =>
    intro later name s earlier heq
    exact absurd heq (by simp)
  | cons _ _ hfields _ ih =>
    intro later name s earlier heq
    cases later with
    | nil =>
      cases heq
      exact hfields
    | cons first later =>
      rw [List.cons_append, List.cons.injEq] at heq
      exact ih later name s earlier heq.2

theorem fields_mem (h : Settled m d structures) {name : String} {s : Structure}
    (hmem : (name, s) ∈ structures) {field : Field} (hfield : field ∈ s.fields)
    (hmap : d.mapType field.type.name = none) : field.type.name ∈ structures.map Prod.fst := by
  obtain ⟨later, earlier, rfl⟩ := List.append_of_mem hmem
  rw [List.map_append, List.map_cons]
  exact List.mem_append_right _ (List.mem_cons_of_mem _
    (h.fields_behind later name s earlier rfl field hfield hmap))

end Settled

/-- Sets of names that contain the structures of their members' fields. -/
def FieldClosed (m : Meanings) (d : Dialect) (S : String → Prop) : Prop :=
  ∀ name s, S name → m name = .ok s → ∀ field ∈ s.fields, d.mapType field.type.name = none →
    S field.type.name

/-! ## Requests that settle structures -/

/-- The structures resolved between two points of a request. -/
structure Settling (m : Meanings) (d : Dialect) (S : String → Prop) (σ τ : Resolution) : Prop where
  settled : Settled m d τ.structures
  added : ∃ new, τ.structures = new ++ σ.structures ∧ ∀ entry ∈ new, S entry.1

namespace Settling

variable {m : Meanings} {d : Dialect} {S : String → Prop} {σ τ υ : Resolution}

theorem refl (h : Settled m d σ.structures) : Settling m d S σ σ :=
  ⟨h, [], by simp, by simp⟩

theorem trans (h : Settling m d S σ τ) (h' : Settling m d S τ υ) : Settling m d S σ υ := by
  obtain ⟨new, hτ, hnew⟩ := h.added
  obtain ⟨new', hυ, hnew'⟩ := h'.added
  refine ⟨h'.settled, new' ++ new, by rw [hυ, hτ, List.append_assoc], ?_⟩
  intro entry hentry
  rcases List.mem_append.1 hentry with hentry | hentry
  · exact hnew' entry hentry
  · exact hnew entry hentry

theorem names_mem (h : Settling m d S σ τ) {name : String}
    (hname : name ∈ σ.structures.map Prod.fst) : name ∈ τ.structures.map Prod.fst := by
  obtain ⟨new, hτ, -⟩ := h.added
  rw [hτ, List.map_append]
  exact List.mem_append_right _ hname

end Settling

namespace Request

variable {α β : Type}

/-- A request that keeps the resolved structures settled, adds only names of a set, and whose result and
final resolution satisfy `Q`. -/
def Settles (m : Meanings) (d : Dialect) (S : String → Prop) (r : Request α)
    (Q : α → Resolution → Prop) : Prop :=
  ∀ σ a τ, Settled m d σ.structures → r.eval m σ = (.ok a, τ) → Settling m d S σ τ ∧ Q a τ

namespace Settles

variable {m : Meanings} {d : Dialect} {S : String → Prop}

theorem mono {r : Request α} {Q Q' : α → Resolution → Prop} (h : r.Settles m d S Q)
    (hQ : ∀ a σ, Q a σ → Q' a σ) : r.Settles m d S Q' := by
  intro σ a τ hσ hr
  obtain ⟨hstep, hq⟩ := h σ a τ hσ hr
  exact ⟨hstep, hQ a τ hq⟩

theorem pure {Q : α → Resolution → Prop} (a : α) (h : ∀ σ, Q a σ) :
    (Pure.pure a : Request α).Settles m d S Q := by
  intro σ b τ hσ hr
  rw [eval_pure] at hr
  cases hr
  exact ⟨.refl hσ, h σ⟩

theorem throw {Q : α → Resolution → Prop} (e : GenerationError) :
    (MonadExcept.throw e : Request α).Settles m d S Q := by
  intro σ b τ _ hr
  rw [eval_throw] at hr
  cases hr

theorem note (record : LogRecord) : (Request.note record).Settles m d S fun _ _ => True := by
  intro σ b τ hσ hr
  rw [eval_note] at hr
  cases hr
  exact ⟨.refl hσ, trivial⟩

/-- Diagnostics may change at will. -/
theorem modifyDiagnostics (f : Resolution → Resolution)
    (hf : ∀ σ, (f σ).structures = σ.structures) :
    (modify f : Request Unit).Settles m d S fun _ _ => True := by
  intro σ b τ hσ hr
  rw [eval_modify] at hr
  cases hr
  exact ⟨⟨by rw [hf]; exact hσ, [], by simp [hf], by simp⟩, trivial⟩

theorem bind {r : Request α} {f : α → Request β} {Q : α → Prop} {Q' : β → Resolution → Prop}
    (hr : r.Settles m d S fun a _ => Q a) (hf : ∀ a, Q a → (f a).Settles m d S Q') :
    (r >>= f).Settles m d S Q' := by
  intro σ b υ hσ h
  obtain ⟨a, τ, hra, hfa⟩ := eval_bind_ok.1 h
  obtain ⟨hστ, hq⟩ := hr σ a τ hσ hra
  obtain ⟨hτυ, hq'⟩ := hf a hq τ b υ hστ.settled hfa
  exact ⟨hστ.trans hτυ, hq'⟩

/-- Nothing is run after an error. -/
theorem throwBind {Q' : β → Resolution → Prop} (e : GenerationError) (f : α → Request β) :
    ((MonadExcept.throw e : Request α) >>= f).Settles m d S Q' :=
  .bind (Q := fun _ => False) (.throw e) fun _ h => h.elim

/-- A loop whose steps each establish a fact that later steps keep establishes all of them. -/
theorem forM {ι : Type} {f : ι → Request PUnit} {Q : ι → Resolution → Prop}
    (hkeep : ∀ i σ τ, Settling m d S σ τ → Q i σ → Q i τ) :
    ∀ l : List ι, (∀ i ∈ l, (f i).Settles m d S fun _ τ => Q i τ) →
      (l.forM f).Settles m d S fun _ τ => ∀ i ∈ l, Q i τ
  | [], _ => pure _ (by simp)
  | i :: l, hf => by
    intro σ u υ hσ h
    obtain ⟨_, τ, hi, hl⟩ := eval_bind_ok.1 (show (f i >>= fun _ => l.forM f).eval m σ = _ from h)
    obtain ⟨hστ, hq⟩ := hf i (List.mem_cons_self ..) σ _ τ hσ hi
    obtain ⟨hτυ, hall⟩ := forM hkeep l (fun j hj => hf j (List.mem_cons_of_mem _ hj)) τ u υ
      hστ.settled hl
    exact ⟨hστ.trans hτυ, List.forall_mem_cons.2 ⟨hkeep i τ υ hτυ hq, hall⟩⟩

end Settles

end Request

/-! ## Resolution and planning -/

section Resolution

variable {m : Meanings} {d : Dialect} {S : String → Prop}

/-- A type reference that the dialect maps, or that is resolved. -/
def TypeRef.Resolved (d : Dialect) (type : TypeRef) (σ : Resolution) : Prop :=
  d.mapType type.name = none → type.name ∈ σ.structures.map Prod.fst

theorem TypeRef.Resolved.keep {type : TypeRef} {σ τ : Resolution} (h : Settling m d S σ τ)
    (hσ : type.Resolved d σ) : type.Resolved d τ :=
  fun hmap => h.names_mem (hσ hmap)

/-- **Resolution of a name settles its structure** and everything that its fields lead to. -/
theorem resolveStructure_settles (hS : FieldClosed m d S) (depth : Nat) (path : List String)
    (name : String) (f : DiscoveryFailure → GenerationError) (hname : S name) :
    (resolveStructure d depth path name f).Settles m d S
      fun s τ => m name = .ok s ∧ name ∈ τ.structures.map Prod.fst := by
  induction depth generalizing path name f with
  | zero =>
    intro σ s τ hσ h
    rcases resolveStructure_ok.1 h with ⟨hknown, rfl⟩ | ⟨-, -, -, n, τ, hn, -⟩
    · have hmem := mem_of_lookup hknown
      exact ⟨.refl hσ, hσ.meaning _ hmem, List.mem_map_of_mem hmem⟩
    · cases hn
  | succ depth ih =>
    intro σ s τ hσ h
    rcases resolveStructure_ok.1 h with ⟨hknown, rfl⟩ | ⟨-, -, hm, n, υ, hn, hfields, hfree, rfl⟩
    · have hmem := mem_of_lookup hknown
      exact ⟨.refl hσ, hσ.meaning _ hmem, List.mem_map_of_mem hmem⟩
    · cases hn
      have hloop : (resolveFields d depth (name :: path) s.fields).Settles m d S
          fun _ τ => ∀ field ∈ s.fields, field.type.Resolved d τ := by
        refine Request.Settles.forM (Q := fun field τ => field.type.Resolved d τ)
          (fun _ _ _ hστ hq => hq.keep hστ) s.fields ?_
        intro field hfield
        cases hmap : d.mapType field.type.name with
        | some mapped =>
          exact .pure _ fun _ hnone => by rw [hmap] at hnone; cases hnone
        | none =>
          intro σ u τ hσ h
          obtain ⟨s', τ', hs', hu⟩ := Request.eval_bind_ok.1 h
          cases hu
          obtain ⟨hstep, -, hmem⟩ := ih (name :: path) field.type.name _
            (hS name s hname hm field hfield hmap) σ s' τ hσ hs'
          exact ⟨hstep, fun _ => hmem⟩
      -- the structure is entered in front of all that its fields have added
      obtain ⟨hstep, hresolved⟩ := hloop σ () υ hσ hfields
      obtain ⟨new, hυ, hnew⟩ := hstep.added
      refine ⟨⟨.cons hstep.settled hm hresolved hfree, (name, s) :: new, ?_, ?_⟩, hm, ?_⟩
      · rw [hυ, List.cons_append]
      · exact List.forall_mem_cons.2 ⟨hname, hnew⟩
      · exact List.mem_map_of_mem (List.mem_cons_self ..)

theorem resolveType_settles (hS : FieldClosed m d S) (depth : Nat) (type : TypeRef)
    (htype : d.mapType type.name = none → S type.name) :
    (resolveType d depth type).Settles m d S fun _ τ => type.Resolved d τ := by
  unfold resolveType
  cases hmap : d.mapType type.name with
  | some mapped => exact .pure _ fun _ hnone => by rw [hmap] at hnone; cases hnone
  | none =>
    intro σ target τ hσ h
    obtain ⟨s, τ', hs, hu⟩ := Request.eval_bind_ok.1 h
    cases hu
    obtain ⟨hstep, -, hmem⟩ :=
      resolveStructure_settles hS depth [] type.name _ (htype hmap) σ s τ hσ hs
    exact ⟨hstep, fun _ => hmem⟩

/-- Resolution of several types settles all of them. -/
theorem resolveTypes_settles (hS : FieldClosed m d S) (depth : Nat) (types : List TypeRef)
    (htypes : ∀ type ∈ types, d.mapType type.name = none → S type.name) :
    (types.forM fun type => do let _ ← resolveType d depth type : Request PUnit).Settles m d S
      fun _ τ => ∀ type ∈ types, type.Resolved d τ := by
  refine Request.Settles.forM (fun _ _ _ hστ hq => hq.keep hστ) types ?_
  intro type htype σ u τ hσ h
  obtain ⟨target, τ', ht, hu⟩ := Request.eval_bind_ok.1 h
  cases hu
  exact resolveType_settles hS depth type (htypes type htype) σ target τ hσ ht

theorem requireStructure_settles (hS : FieldClosed m d S) (depth : Nat) (name : String)
    (hname : S name) :
    (requireStructure d depth name).Settles m d S fun s _ => m name = .ok s :=
  (resolveStructure_settles hS depth [] name _ hname).mono fun _ _ h => h.1

theorem interfaceVariables_settles (hS : FieldClosed m d S) (depth : Nat) (direction : Direction)
    (stage : Stage) (lead : String) :
    ∀ (slot : Nat) (fields : List Field),
      (∀ field ∈ fields, d.mapType field.type.name = none → S field.type.name) →
      (interfaceVariables d depth direction stage lead slot fields).Settles m d S fun _ _ => True
  | _, [], _ => .pure _ fun _ => trivial
  | slot, field :: rest, hfields => by
    have hrest := interfaceVariables_settles hS depth direction stage lead (slot + 1) rest
      fun other hother => hfields other (List.mem_cons_of_mem _ hother)
    refine .bind (Q := fun _ => True) ?_ fun _ _ => hrest.bind fun _ _ => .pure _ fun _ => trivial
    unfold interfaceVariable
    split
    · exact .throw _
    · have htype := resolveType_settles hS depth field.type (hfields field (List.mem_cons_self ..))
      exact .bind (Q := fun _ => True) (htype.mono fun _ _ _ => trivial)
        fun _ _ => .pure _ fun _ => trivial

theorem mem_of_clipPosition? {fields others : List Field} {position : Field}
    (h : clipPosition? fields = some (position, others)) : ∀ field ∈ others, field ∈ fields := by
  induction fields generalizing position others with
  | nil => cases h
  | cons first rest ih =>
    unfold clipPosition? at h
    split at h
    · cases h
      exact fun field hfield => List.mem_cons_of_mem _ hfield
    · obtain ⟨⟨p, o⟩, hrest, heq⟩ := Option.map_eq_some_iff.1 h
      cases heq
      intro field hfield
      rcases List.mem_cons.1 hfield with rfl | hfield
      · exact List.mem_cons_self ..
      · exact List.mem_cons_of_mem _ (ih hrest field hfield)

theorem warnPositions_settles (function : String) (output : Structure) (position : Field) :
    (warnPositions function output position).Settles m d S fun _ _ => True := by
  unfold warnPositions
  split
  · refine .bind (Q := fun _ => True) (.note _) fun _ _ => ?_
    exact .modifyDiagnostics _ fun _ => rfl
  · exact .pure _ fun _ => trivial

theorem mapType_eq_none_of_not_isSome {type : TypeRef}
    (h : ¬((d.mapType type.name).isSome || type.isArray) = true) : d.mapType type.name = none := by
  simp only [Bool.or_eq_true, not_or, Option.not_isSome_iff_eq_none] at h
  exact h.1

theorem planVertex_settles (hS : FieldClosed m d S) (depth : Nat) (f : Function)
    (layout : EntryLayout) (hresult : d.mapType f.returnType.name = none → S f.returnType.name) :
    (planVertex d depth f layout).Settles m d S fun _ _ => True := by
  unfold planVertex
  split
  · exact .throwBind _ _
  · rename_i hstructure
    have hname := hresult (mapType_eq_none_of_not_isSome hstructure)
    refine (requireStructure_settles hS depth _ hname).bind fun output houtput => ?_
    rcases hclip : clipPosition? output.fields with _ | ⟨position, others⟩
    · exact .throw _
    · refine .bind (Q := fun _ => True) (warnPositions_settles _ _ _) fun _ _ => ?_
      refine .bind (Q := fun _ => True) ?_ fun _ _ => .pure _ fun _ => trivial
      exact interfaceVariables_settles hS depth .output .vertex vertexOutputLead 0 others
        fun field hfield => hS _ _ hname houtput field (mem_of_clipPosition? hclip field hfield)

theorem planFragment_settles (f : Function) (layout : EntryLayout) :
    (planFragment d f layout).Settles m d S fun _ _ => True := by
  unfold planFragment
  split
  · split
    · exact .pure _ fun _ => trivial
    · exact .throw _
  · exact .throw _

theorem planCompute_settles (hS : FieldClosed m d S) (depth : Nat) (f : Function)
    (layout : EntryLayout) (hresult : d.mapType f.returnType.name = none → S f.returnType.name) :
    (planCompute d depth f layout).Settles m d S fun _ _ => True := by
  simp only [planCompute]
  split
  · exact .throwBind _ _
  · split
    · exact .throwBind _ _
    · exact .bind (Q := fun _ => True)
        ((resolveType_settles hS depth f.returnType hresult).mono fun _ _ _ => trivial)
        fun _ _ => .pure _ fun _ => trivial

theorem planGraphics_settles (hS : FieldClosed m d S) (depth : Nat) (f : Function) (stage : Stage)
    {result : EntryLayout → Request EntryLayout} (layout : EntryLayout)
    (hparameters : ∀ parameter ∈ f.parameters, d.mapType parameter.type.name = none →
      S parameter.type.name)
    (hresult : ∀ layout, (result layout).Settles m d S fun _ _ => True) :
    (planGraphics d depth f stage result layout).Settles m d S fun _ _ => True := by
  unfold planGraphics
  split
  · rename_i parameter hparameter
    split
    · exact .throwBind _ _
    · rename_i hstructure
      have hname := hparameters parameter (by simp [hparameter])
        (mapType_eq_none_of_not_isSome hstructure)
      refine (requireStructure_settles hS depth _ hname).bind fun input hinput => ?_
      refine .bind (Q := fun _ => True) ?_ fun _ _ => ?_
      · exact interfaceVariables_settles hS depth .input stage "" 0 input.fields
          (hS _ _ hname hinput)
      · exact .bind (Q := fun _ => True) (hresult _) fun _ _ => .pure _ fun _ => trivial
  · exact .throw _

/-- Planning an entry adds only structures that its signature leads to. -/
theorem planEntry_settles (hS : FieldClosed m d S) (depth : Nat) (f : Function) (stage : Stage)
    (hparameters : ∀ parameter ∈ f.parameters, d.mapType parameter.type.name = none →
      S parameter.type.name)
    (hresult : d.mapType f.returnType.name = none → S f.returnType.name) :
    (planEntry d depth f stage).Settles m d S fun _ _ => True := by
  cases stage with
  | compute => exact planCompute_settles hS depth f _ hresult
  | vertex =>
    exact planGraphics_settles hS depth f .vertex _ hparameters fun layout =>
      planVertex_settles hS depth f layout hresult
  | fragment =>
    exact planGraphics_settles hS depth f .fragment _ hparameters fun layout =>
      planFragment_settles f layout

end Resolution

end CrossShader

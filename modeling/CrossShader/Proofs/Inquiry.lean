import CrossShader.Proofs.EmittedStructures

/-!
# What a request asks about

A request learns about structures by asking what names stand for.  It asks about needed structures only,
on every course that it can take, so two readings of all names that agree on the needed structures cannot
be told apart by a request.

* `Query.eval_congr` — the answer of a computation depends on the names that it asks about.
* `Request.Asks` — requests that ask about names of a set only, with one rule for each way to put requests
  together.
* `resolveStructure_asks`, `planEntry_asks` — resolution and planning are such requests.
* `needed_of_asked` — what a whole request asks about.
-/

set_option autoImplicit false

namespace CrossShader

variable {α β : Type}

/-- **The answer of a computation depends on the names that it asks about**, and on no other name. -/
theorem Query.eval_congr {reply reply' : String → Except DiscoveryFailure Structure} {q : Query α}
    (h : ∀ name ∈ q.asked reply, reply' name = reply name) : q.eval reply' = q.eval reply := by
  induction q with
  | answer value => rfl
  | note record next ih => exact ih h
  | discover name next ih =>
    obtain ⟨hname, hnext⟩ := List.forall_mem_cons.1 h
    show (next (reply' name)).eval reply' = (next (reply name)).eval reply
    rw [hname]
    exact ih (reply name) hnext

/-! ## Requests that ask about a set -/

namespace Request

/-- A request that asks about names of a set only, as long as the resolved structures are settled. -/
def Asks (m : Meanings) (d : Dialect) (S : String → Prop) (r : Request α) : Prop :=
  ∀ σ, Settled m d σ.structures → ∀ name ∈ r.asked m σ, S name

/-- A request that asks nothing. -/
def Quiet (m : Meanings) (r : Request α) : Prop := ∀ σ, r.asked m σ = []

section Rules

variable {m : Meanings} {d : Dialect} {S : String → Prop}

theorem Quiet.asks {r : Request α} (h : r.Quiet m) : r.Asks m d S := by
  intro σ _ name hname
  rw [h σ] at hname
  cases hname

theorem quiet_ofExcept (x : Except GenerationError α) : (ofExcept x).Quiet m := by
  intro σ
  cases x <;> rfl

theorem Quiet.bind {r : Request α} {f : α → Request β} (hr : r.Quiet m)
    (hf : ∀ a, (f a).Quiet m) : (r >>= f).Quiet m := by
  intro σ
  rw [asked_bind, hr σ]
  rcases r.eval m σ with ⟨e | a, τ⟩
  · rfl
  · exact hf a τ

theorem Quiet.forM {ι : Type} {f : ι → Request PUnit} (hf : ∀ i, (f i).Quiet m) :
    ∀ l : List ι, (l.forM f).Quiet m
  | [] => fun _ => rfl
  | i :: l => (hf i).bind fun _ => forM hf l

namespace Asks

theorem discover {name : String} (h : S name) : (Request.discover name).Asks m d S := by
  intro σ _ other hother
  rw [List.mem_singleton.1 hother]
  exact h

/-- A sequence, whose second part may use what the first part is known to yield. -/
theorem bind {r : Request α} {f : α → Request β} {Q : α → Prop} (hr : r.Asks m d S)
    (hsettles : r.Settles m d S fun a _ => Q a) (hf : ∀ a, Q a → (f a).Asks m d S) :
    (r >>= f).Asks m d S := by
  intro σ hσ name hname
  rw [asked_bind] at hname
  rcases List.mem_append.1 hname with hname | hname
  · exact hr σ hσ name hname
  · rcases heval : r.eval m σ with ⟨e | a, τ⟩
    · rw [heval] at hname
      cases hname
    · rw [heval] at hname
      obtain ⟨hstep, hQ⟩ := hsettles σ a τ hσ heval
      exact hf a hQ τ hstep.settled name hname

/-- A sequence that ends without questions. -/
theorem bindQuiet {r : Request α} {f : α → Request β} (hr : r.Asks m d S)
    (hf : ∀ a, (f a).Quiet m) : (r >>= f).Asks m d S := by
  intro σ hσ name hname
  rw [asked_bind] at hname
  rcases List.mem_append.1 hname with hname | hname
  · exact hr σ hσ name hname
  · rcases heval : r.eval m σ with ⟨e | a, τ⟩
    · rw [heval] at hname
      cases hname
    · rw [heval] at hname
      have hnone : name ∈ (f a).asked m τ := hname
      rw [hf a τ] at hnone
      cases hnone

/-- Nothing is asked after an error. -/
theorem throwBind (e : GenerationError) (f : α → Request β) :
    ((MonadExcept.throw e : Request α) >>= f).Asks m d S :=
  .bind (Q := fun _ => False) (Quiet.asks fun _ => rfl) (.throw e) fun _ h => h.elim

theorem forM {ι : Type} {f : ι → Request PUnit} :
    ∀ l : List ι, (∀ i ∈ l, (f i).Asks m d S ∧ (f i).Settles m d S fun _ _ => True) →
      (l.forM f).Asks m d S
  | [], _ => Quiet.asks fun _ => rfl
  | i :: l, h => by
    obtain ⟨⟨hasks, hsettles⟩, hl⟩ := List.forall_mem_cons.1 h
    exact hasks.bind (Q := fun _ => True) hsettles fun _ _ => forM l hl

end Asks

end Rules

end Request

/-! ## Resolution and planning -/

section Resolution

variable {m : Meanings} {d : Dialect} {S : String → Prop}

theorem quiet_enterStructure (name : String) (definition : Structure) :
    (enterStructure d name definition).Quiet m := by
  refine Request.Quiet.bind (fun _ => rfl) fun σ => ?_
  cases claimant? d σ.structures (d.structureTypeName name) with
  | none => exact fun _ => rfl
  | some other => exact fun _ => rfl

/-- **Resolution of a name asks about the name** and about what its fields lead to. -/
theorem resolveStructure_asks (hS : FieldClosed m d S) (depth : Nat) (path : List String)
    (name : String) (f : DiscoveryFailure → GenerationError) (hname : S name) :
    (resolveStructure d depth path name f).Asks m d S := by
  induction depth generalizing path name f with
  | zero =>
    rw [resolveStructure.eq_def]
    refine Request.Quiet.asks (.bind (fun _ => rfl) fun σ => ?_)
    cases σ.structures.lookup name with
    | some known => exact fun _ => rfl
    | none =>
      by_cases hp : path.contains name = true
      · simp only [hp, if_true]
        exact fun _ => rfl
      · simp only [hp]
        exact fun _ => rfl
  | succ depth ih =>
    rw [resolveStructure.eq_def]
    refine Request.Asks.bind (Q := fun _ => True) (Request.Quiet.asks fun _ => rfl) ?_ fun σ _ => ?_
    · intro σ a τ hσ h
      rw [Request.eval_get] at h
      cases h
      exact ⟨.refl hσ, trivial⟩
    cases σ.structures.lookup name with
    | some known => exact Request.Quiet.asks fun _ => rfl
    | none =>
      by_cases hp : path.contains name = true
      · simp only [hp, if_true]
        exact Request.Quiet.asks fun _ => rfl
      simp only [hp]
      -- the fields are those of what the name stands for
      refine Request.Asks.bind (Q := fun reply => reply = m name) (.discover hname) ?_ ?_
      · intro σ a τ hσ h
        rw [Request.eval_discover] at h
        cases h
        exact ⟨.refl hσ, rfl⟩
      · intro reply hreply
        cases reply with
        | error reason => exact Request.Quiet.asks fun _ => rfl
        | ok definition =>
          refine .bindQuiet (.forM _ fun field hfield => ?_) fun _ =>
            (quiet_enterStructure name definition).bind fun _ _ => rfl
          cases hmap : d.mapType field.type.name with
          | some mapped => exact ⟨Request.Quiet.asks fun _ => rfl, .pure _ fun _ => trivial⟩
          | none =>
            have hneeded := hS name definition hname hreply.symm field hfield hmap
            refine ⟨.bindQuiet (ih (name :: path) field.type.name _ hneeded) fun _ _ => rfl, ?_⟩
            refine .bind (Q := fun _ => True) ?_ fun _ _ => .pure _ fun _ => trivial
            exact (resolveStructure_settles hS depth _ _ _ hneeded).mono fun _ _ _ => trivial

theorem resolveType_asks (hS : FieldClosed m d S) (depth : Nat) (type : TypeRef)
    (htype : d.mapType type.name = none → S type.name) : (resolveType d depth type).Asks m d S := by
  unfold resolveType
  cases hmap : d.mapType type.name with
  | some mapped => exact Request.Quiet.asks fun _ => rfl
  | none =>
    exact .bindQuiet (resolveStructure_asks hS depth [] type.name _ (htype hmap)) fun _ _ => rfl

theorem resolveTypes_asks (hS : FieldClosed m d S) (depth : Nat) (types : List TypeRef)
    (htypes : ∀ type ∈ types, d.mapType type.name = none → S type.name) :
    (types.forM fun type => do let _ ← resolveType d depth type : Request PUnit).Asks m d S := by
  refine .forM types fun type htype => ⟨?_, ?_⟩
  · exact .bindQuiet (resolveType_asks hS depth type (htypes type htype)) fun _ _ => rfl
  · refine .bind (Q := fun _ => True) ?_ fun _ _ => .pure _ fun _ => trivial
    exact (resolveType_settles hS depth type (htypes type htype)).mono fun _ _ _ => trivial

theorem interfaceVariable_asks (hS : FieldClosed m d S) (depth : Nat) (direction : Direction)
    (stage : Stage) (lead : String) (slot : Nat) {field : Field}
    (hfield : d.mapType field.type.name = none → S field.type.name) :
    (interfaceVariable d depth direction stage lead field slot).Asks m d S := by
  unfold interfaceVariable
  split
  · exact Request.Quiet.asks fun _ => rfl
  · exact .bindQuiet (resolveType_asks hS depth field.type hfield) fun _ _ => rfl

theorem interfaceVariables_asks (hS : FieldClosed m d S) (depth : Nat) (direction : Direction)
    (stage : Stage) (lead : String) :
    ∀ (slot : Nat) (fields : List Field),
      (∀ field ∈ fields, d.mapType field.type.name = none → S field.type.name) →
      (interfaceVariables d depth direction stage lead slot fields).Asks m d S
  | _, [], _ => Request.Quiet.asks fun _ => rfl
  | slot, field :: rest, hfields => by
    obtain ⟨hfield, hrest⟩ := List.forall_mem_cons.1 hfields
    have hsettles : (interfaceVariable d depth direction stage lead field slot).Settles m d S
        fun _ _ => True := by
      unfold interfaceVariable
      split
      · exact .throw _
      · exact .bind (Q := fun _ => True) ((resolveType_settles hS depth _ hfield).mono
          fun _ _ _ => trivial) fun _ _ => .pure _ fun _ => trivial
    refine (interfaceVariable_asks hS depth direction stage lead slot hfield).bind
      (Q := fun _ => True) hsettles fun _ _ => ?_
    exact .bindQuiet (interfaceVariables_asks hS depth direction stage lead (slot + 1) rest hrest)
      fun _ _ => rfl

theorem quiet_warnPositions (function : String) (output : Structure) (position : Field) :
    (warnPositions function output position).Quiet m := by
  unfold warnPositions
  split
  · exact Request.Quiet.bind (fun _ => rfl) fun _ _ => rfl
  · exact fun _ => rfl

theorem planVertex_asks (hS : FieldClosed m d S) (depth : Nat) (f : Function) (layout : EntryLayout)
    (hresult : d.mapType f.returnType.name = none → S f.returnType.name) :
    (planVertex d depth f layout).Asks m d S := by
  unfold planVertex
  split
  · exact .throwBind _ _
  · rename_i hstructure
    have hname := hresult (mapType_eq_none_of_not_isSome hstructure)
    refine (resolveStructure_asks hS depth [] _ _ hname).bind
      (requireStructure_settles hS depth _ hname) fun output houtput => ?_
    rcases hclip : clipPosition? output.fields with _ | ⟨position, others⟩
    · exact Request.Quiet.asks fun _ => rfl
    · refine (quiet_warnPositions _ _ _).asks.bind (Q := fun _ => True) (warnPositions_settles _ _ _)
        fun _ _ => ?_
      refine .bindQuiet ?_ fun _ _ => rfl
      exact interfaceVariables_asks hS depth .output .vertex vertexOutputLead 0 others
        fun field hfield => hS _ _ hname houtput field (mem_of_clipPosition? hclip field hfield)

theorem quiet_planFragment (f : Function) (layout : EntryLayout) :
    (planFragment d f layout).Quiet m := by
  unfold planFragment
  split
  · split
    · exact fun _ => rfl
    · exact fun _ => rfl
  · exact fun _ => rfl

theorem planCompute_asks (hS : FieldClosed m d S) (depth : Nat) (f : Function)
    (layout : EntryLayout) (hresult : d.mapType f.returnType.name = none → S f.returnType.name) :
    (planCompute d depth f layout).Asks m d S := by
  simp only [planCompute]
  split
  · exact .throwBind _ _
  · split
    · exact .throwBind _ _
    · exact .bindQuiet (resolveType_asks hS depth f.returnType hresult) fun _ _ => rfl

theorem planGraphics_asks (hS : FieldClosed m d S) (depth : Nat) (f : Function) (stage : Stage)
    {result : EntryLayout → Request EntryLayout} (layout : EntryLayout)
    (hparameters : ∀ parameter ∈ f.parameters, d.mapType parameter.type.name = none →
      S parameter.type.name)
    (hresult : ∀ layout, (result layout).Asks m d S) :
    (planGraphics d depth f stage result layout).Asks m d S := by
  unfold planGraphics
  split
  · rename_i parameter hparameter
    split
    · exact .throwBind _ _
    · rename_i hstructure
      have hname := hparameters parameter (by simp [hparameter])
        (mapType_eq_none_of_not_isSome hstructure)
      refine (resolveStructure_asks hS depth [] _ _ hname).bind
        (requireStructure_settles hS depth _ hname) fun input hinput => ?_
      have hfields := hS _ _ hname hinput
      refine (interfaceVariables_asks hS depth .input stage "" 0 input.fields hfields).bind
        (interfaceVariables_settles hS depth .input stage "" 0 input.fields hfields) fun _ _ => ?_
      exact .bindQuiet (hresult _) fun _ _ => rfl
  · exact Request.Quiet.asks fun _ => rfl

/-- Planning an entry asks about what its signature leads to. -/
theorem planEntry_asks (hS : FieldClosed m d S) (depth : Nat) (f : Function) (stage : Stage)
    (hparameters : ∀ parameter ∈ f.parameters, d.mapType parameter.type.name = none →
      S parameter.type.name)
    (hresult : d.mapType f.returnType.name = none → S f.returnType.name) :
    (planEntry d depth f stage).Asks m d S := by
  cases stage with
  | compute => exact planCompute_asks hS depth f _ hresult
  | vertex =>
    exact planGraphics_asks hS depth f .vertex _ hparameters fun layout =>
      planVertex_asks hS depth f layout hresult
  | fragment =>
    exact planGraphics_asks hS depth f .fragment _ hparameters fun layout =>
      (quiet_planFragment f layout).asks

end Resolution

/-! ## Whole requests -/

section Requests

variable {m : Meanings} {d : Dialect} {c : Code} {entry : Function}

theorem resolveRequest_asks (depth : Nat) (stage : Stage) {functions : List Function}
    (hreach : ∀ f ∈ functions, c.Reaches entry f) :
    (resolveRequest d c depth entry stage functions).Asks m d (Needed m d c entry) := by
  have hS := Needed.fieldClosed m d c entry
  have hparameters : ∀ p ∈ entry.parameters, d.mapType p.type.name = none →
      Needed m d c entry p.type.name := fun p hp hmap => .named .refl (.parameter hp) hmap
  have hresult : d.mapType entry.returnType.name = none →
      Needed m d c entry entry.returnType.name := .named .refl .result
  have hfunction : ∀ f ∈ functions, ∀ type ∈ f.typeUses d, d.mapType type.name = none →
      Needed m d c entry type.name := fun f hf type htype hmap =>
    .named (hreach f hf) (Function.mem_typeUses.1 htype) hmap
  have hsettles : ∀ f ∈ functions,
      (resolveFunction d depth f).Settles m d (Needed m d c entry) fun _ _ => True := fun f hf =>
    (resolveTypes_settles hS depth _ (hfunction f hf)).mono fun _ _ _ => trivial
  refine (planEntry_asks hS depth entry stage hparameters hresult).bind (Q := fun _ => True)
    (planEntry_settles hS depth entry stage hparameters hresult) fun layout _ => ?_
  refine Request.Asks.bind (Q := fun _ => True) ?_ ?_ fun _ _ => ?_
  · exact .forM functions fun f hf => ⟨resolveTypes_asks hS depth _ (hfunction f hf), hsettles f hf⟩
  · exact (Request.Settles.forM (Q := fun _ _ => True) (fun _ _ _ _ _ => trivial) functions
      hsettles).mono fun _ _ _ => trivial
  · refine .bindQuiet (resolveTypes_asks hS depth _ fun type htype hmap => ?_) fun _ _ => rfl
    obtain ⟨r, hr, hvalue⟩ := List.mem_filterMap.1 htype
    exact .resource hr hvalue hmap

theorem quiet_resourceLines (c : Context) : ∀ rs : List Resource, (resourceLines c rs).Quiet m
  | [] => fun _ => rfl
  | _ :: rest =>
    (Request.quiet_ofExcept _).bind fun declared =>
      (Request.Quiet.forM (fun _ _ => rfl) declared.log).bind fun _ =>
        (quiet_resourceLines c rest).bind fun _ _ => rfl

/-- The second phase of a request asks nothing. -/
theorem quiet_documentLines (c : Context) (stage : Stage) (precision : FloatPrecision)
    (functions : List Function) (layout : EntryLayout) :
    (documentLines c stage precision functions layout).Quiet m :=
  (Request.quiet_ofExcept _).bind fun _ => (quiet_resourceLines c _).bind fun _ =>
    (Request.quiet_ofExcept _).bind fun _ _ => rfl

/-- **A request asks about needed structures only**, whether it succeeds or fails. -/
theorem needed_of_asked {name : String} (hentry : c.function? name = some entry) (depth : Nat)
    (options : Options) :
    ∀ asked ∈ (documentRequest d c depth name options).asked m {}, Needed m d c entry asked := by
  have hfind : ∀ f stage, findEntry d c name = .ok (f, stage) → f = entry := by
    intro f stage h
    have hf := function?_of_findEntry h
    rw [hentry] at hf
    cases hf
    rfl
  have hasks : (documentRequest d c depth name options).Asks m d (Needed m d c entry) := by
    refine Request.Asks.bind (Q := fun found => findEntry d c name = .ok found)
      (Request.quiet_ofExcept _).asks ?_ ?_
    · intro σ a τ hσ h
      rw [Request.eval_ofExcept] at h
      obtain ⟨hfound, rfl⟩ := Prod.mk.inj h
      exact ⟨.refl hσ, hfound⟩
    rintro ⟨f, stage⟩ hfound
    cases hfind f stage hfound
    refine Request.Asks.bind (Q := fun _ => True) (Request.Quiet.asks fun _ => rfl) (.note _)
      fun _ _ => ?_
    refine Request.Asks.bind (Q := fun functions => c.reachable entry = .ok functions)
      (Request.quiet_ofExcept _).asks ?_ fun functions hfunctions => ?_
    · intro σ a τ hσ h
      rw [Request.eval_ofExcept] at h
      obtain ⟨hfunctions, rfl⟩ := Prod.mk.inj h
      exact ⟨.refl hσ, hfunctions⟩
    -- the first phase asks about needed structures, and the second does not ask
    refine .bindQuiet (resolveRequest_asks depth stage fun f hf => ?_) fun layout => ?_
    · exact (Code.mem_reachable_iff hentry hfunctions).1 hf
    · refine Request.Quiet.bind (fun _ => rfl) fun σ => Request.Quiet.bind (fun _ => rfl) fun _ => ?_
      exact quiet_documentLines _ _ _ _ _
  exact hasks {} .nil

end Requests

end CrossShader

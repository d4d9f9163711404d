import CrossShader.Proofs.Dependencies
import CrossShader.Proofs.Nesting
import CrossShader.Proofs.Registration
import Mathlib.Logic.Relation

/-!
# When a type can be resolved

Resolution of a type visits the structures that its fields lead to, wherever their definitions come from.

* `FieldRef` — one structure names another in a field; `LeadsTo` — the names that a type leads to.
* `resolveNames` — the loop of resolution, over the names of types.
* `Resolves` — resolution by rules, without any bound on the nesting; a derivation is a run that ends.
* `resolves_iff` — with more room than there are names that stand for structures, the loop computes what
  the rules say.
* `Resolvable` — names that all stand for structures, with no cycle of fields and with target names of
  their own.  `Resolves.succeeds` — the resolution of such names succeeds.
* `type_resolution_exact` — the outcome for every dialect, program, table of declarations and type.
-/

set_option autoImplicit false

namespace CrossShader

/-- A structure names another one in a field. -/
def FieldRef (m : Meanings) (d : Dialect) (a b : String) : Prop :=
  ∃ s, m a = .ok s ∧ ∃ field ∈ s.fields, field.type.name = b ∧ d.mapType b = none

/-- The names that the name of a type leads to: itself, unless the dialect maps it, and those that fields
name. -/
def LeadsTo (m : Meanings) (d : Dialect) (root name : String) : Prop :=
  d.mapType root = none ∧ Relation.ReflTransGen (FieldRef m d) root name

/-- Resolve the name of a type; `path` holds the structures around it. -/
def resolveName (d : Dialect) (depth : Nat) (path : List String) (name : String) : Request Unit :=
  match d.mapType name with
  | some _ => pure ()
  | none => do
    let _ ← resolveStructure d depth path name fun _ => .unknownType name

/-- Resolve names one after the other. -/
def resolveNames (d : Dialect) (depth : Nat) (path names : List String) : Request Unit :=
  names.forM (resolveName d depth path)

theorem resolveNames_cons (d : Dialect) (depth : Nat) (path rest : List String) (name : String) :
    resolveNames d depth path (name :: rest) =
      resolveName d depth path name >>= fun _ => resolveNames d depth path rest := rfl

/-- The names of the fields' types. -/
def Structure.fieldTypes (s : Structure) : List String := s.fields.map (·.type.name)

theorem resolveFields_eq (d : Dialect) (depth : Nat) (path : List String) (s : Structure) :
    resolveFields d depth path s.fields = resolveNames d depth path s.fieldTypes := by
  unfold Structure.fieldTypes
  induction s.fields with
  | nil => rfl
  | cons field rest ih =>
    exact congrArg (fun tail => resolveName d depth path field.type.name >>= fun _ => tail) ih

/-! ## The loop under fixed meanings -/

section Loop

variable {m : Meanings} {d : Dialect} {depth : Nat} {path rest : List String} {name : String}
  {σ τ : Resolution} {s : Structure}

theorem eval_resolveNames_mapped {mapped : String} (h : d.mapType name = some mapped) :
    (resolveNames d depth path (name :: rest)).eval m σ = (resolveNames d depth path rest).eval m σ := by
  rw [resolveNames_cons, Request.eval_bind, resolveName, h]
  rfl

theorem eval_resolveNames_ok (h : d.mapType name = none)
    (hs : (resolveStructure d depth path name fun _ => .unknownType name).eval m σ = (.ok s, τ)) :
    (resolveNames d depth path (name :: rest)).eval m σ = (resolveNames d depth path rest).eval m τ := by
  rw [resolveNames_cons, Request.eval_bind, resolveName, h]
  dsimp only
  rw [Request.eval_bind, hs]
  rfl

theorem eval_resolveNames_error {e : GenerationError} (h : d.mapType name = none)
    (hs : (resolveStructure d depth path name fun _ => .unknownType name).eval m σ = (.error e, τ)) :
    (resolveNames d depth path (name :: rest)).eval m σ = (.error e, τ) := by
  rw [resolveNames_cons, Request.eval_bind, resolveName, h]
  dsimp only
  rw [Request.eval_bind, hs]

end Loop

/-! ## Resolution by rules -/

/-- A name that has to be looked into: it is not mapped, not resolved yet, and not around itself. -/
structure Pending (d : Dialect) (path : List String) (name : String) (σ : Resolution) : Prop where
  unmapped : d.mapType name = none
  unresolved : σ.structures.lookup name = none
  outside : name ∉ path

/-- The outcome of resolving names one after the other, with the structures around them on `path`. -/
inductive Resolves (m : Meanings) (d : Dialect) : (path names : List String) → Resolution →
    Except GenerationError Unit × Resolution → Prop
  | nil {path : List String} {σ : Resolution} : Resolves m d path [] σ (.ok (), σ)
  | mapped {path rest : List String} {name target : String} {σ : Resolution}
      {out : Except GenerationError Unit × Resolution} : d.mapType name = some target →
      Resolves m d path rest σ out → Resolves m d path (name :: rest) σ out
  | known {path rest : List String} {name : String} {s : Structure} {σ : Resolution}
      {out : Except GenerationError Unit × Resolution} : d.mapType name = none →
      σ.structures.lookup name = some s → Resolves m d path rest σ out →
      Resolves m d path (name :: rest) σ out
  | cycle {path rest : List String} {name : String} {σ : Resolution} : d.mapType name = none →
      σ.structures.lookup name = none → name ∈ path →
      Resolves m d path (name :: rest) σ (.error (.unsupported (.selfContaining name) .unknown), σ)
  | missing {path rest : List String} {name : String} {reason : DiscoveryFailure} {σ : Resolution} :
      Pending d path name σ → m name = .error reason →
      Resolves m d path (name :: rest) σ (.error (.unknownType name), σ)
  | inside {path rest : List String} {name : String} {s : Structure} {e : GenerationError}
      {σ τ : Resolution} : Pending d path name σ → m name = .ok s →
      Resolves m d (name :: path) s.fieldTypes σ (.error e, τ) →
      Resolves m d path (name :: rest) σ (.error e, τ)
  | clash {path rest : List String} {name other : String} {s : Structure} {σ τ : Resolution} :
      Pending d path name σ → m name = .ok s →
      Resolves m d (name :: path) s.fieldTypes σ (.ok (), τ) →
      claimant? d τ.structures (d.structureTypeName name) = some other →
      Resolves m d path (name :: rest) σ
        (.error (.unsupported (.sharedTypeName other name (d.structureTypeName name)) .unknown), τ)
  | entered {path rest : List String} {name : String} {s : Structure} {σ τ : Resolution}
      {out : Except GenerationError Unit × Resolution} : Pending d path name σ → m name = .ok s →
      Resolves m d (name :: path) s.fieldTypes σ (.ok (), τ) →
      claimant? d τ.structures (d.structureTypeName name) = none →
      Resolves m d path rest { τ with structures := (name, s) :: τ.structures } out →
      Resolves m d path (name :: rest) σ out

section Rules

variable {m : Meanings} {d : Dialect} {depth : Nat} {path rest : List String} {name : String}
  {σ τ : Resolution} {s : Structure} {f : DiscoveryFailure → GenerationError}

/-- A structure whose fields cannot be resolved. -/
theorem Pending.eval_inside {e : GenerationError} (h : Pending d path name σ) (hm : m name = .ok s)
    (hs : (resolveNames d depth (name :: path) s.fieldTypes).eval m σ = (.error e, τ)) :
    (resolveStructure d (depth + 1) path name f).eval m σ = (.error e, τ) := by
  rw [eval_resolveStructure_found h.unresolved h.outside hm, resolveFields_eq, Request.eval_bind, hs]

/-- A structure whose target name is taken. -/
theorem Pending.eval_clash {other : String} (h : Pending d path name σ) (hm : m name = .ok s)
    (hs : (resolveNames d depth (name :: path) s.fieldTypes).eval m σ = (.ok (), τ))
    (hc : claimant? d τ.structures (d.structureTypeName name) = some other) :
    (resolveStructure d (depth + 1) path name f).eval m σ =
      (.error (.unsupported (.sharedTypeName other name (d.structureTypeName name)) .unknown), τ) := by
  have henter : (enterStructure d name s).eval m τ =
      (.error (.unsupported (.sharedTypeName other name (d.structureTypeName name)) .unknown), τ) := by
    unfold enterStructure
    rw [Request.eval_bind, Request.eval_get]
    simp [hc]
  rw [eval_resolveStructure_found h.unresolved h.outside hm, resolveFields_eq, Request.eval_bind, hs]
  dsimp only
  rw [Request.eval_bind, henter]

/-- A structure that is entered. -/
theorem Pending.eval_entered (h : Pending d path name σ) (hm : m name = .ok s)
    (hs : (resolveNames d depth (name :: path) s.fieldTypes).eval m σ = (.ok (), τ))
    (hc : claimant? d τ.structures (d.structureTypeName name) = none) :
    (resolveStructure d (depth + 1) path name f).eval m σ =
      (.ok s, { τ with structures := (name, s) :: τ.structures }) := by
  rw [resolveStructure_ok]
  exact .inr ⟨h.unresolved, h.outside, hm, depth, τ, rfl, by rw [resolveFields_eq]; exact hs, hc, rfl⟩

variable {names : List String}

/-- **With more room than there are names, the loop follows the rules**: it never stops for want of
room. -/
theorem resolves_resolveNames (hm : ∀ name s, m name = .ok s → name ∈ names) :
    ∀ (depth : Nat) (path list : List String) (σ : Resolution), path.Nodup → path ⊆ names →
      names.length < depth + path.length →
      Resolves m d path list σ ((resolveNames d depth path list).eval m σ) := by
  intro depth
  induction depth with
  | zero =>
    intro path list σ hnd hsub hlt
    -- no room is left only if the path has more names than there are
    have := path_length_le hnd hsub
    omega
  | succ depth ih =>
    intro path list σ hnd hsub hlt
    induction list generalizing σ with
    | nil => exact .nil
    | cons name rest ihrest =>
      cases hmap : d.mapType name with
      | some target =>
        rw [eval_resolveNames_mapped hmap]
        exact .mapped hmap (ihrest σ)
      | none =>
        cases hl : σ.structures.lookup name with
        | some s =>
          rw [eval_resolveNames_ok hmap (eval_resolveStructure_known hl)]
          exact .known hmap hl (ihrest σ)
        | none =>
          by_cases hp : name ∈ path
          · rw [eval_resolveNames_error hmap (eval_resolveStructure_cycle hl hp)]
            exact .cycle hmap hl hp
          · have hpending : Pending d path name σ := ⟨hmap, hl, hp⟩
            cases hs : m name with
            | error reason =>
              rw [eval_resolveNames_error hmap (eval_resolveStructure_failure hl hp hs)]
              exact .missing hpending hs
            | ok s =>
              -- one level down, the path has one name more, which was not on it
              have hfields := ih (name :: path) s.fieldTypes σ (List.nodup_cons.2 ⟨hp, hnd⟩)
                (List.cons_subset.2 ⟨hm name s hs, hsub⟩) (by rw [List.length_cons]; omega)
              cases hresult : (resolveNames d depth (name :: path) s.fieldTypes).eval m σ with
              | mk result τ =>
                rw [hresult] at hfields
                cases result with
                | error e =>
                  rw [eval_resolveNames_error hmap (hpending.eval_inside hs hresult)]
                  exact .inside hpending hs hfields
                | ok u =>
                  cases hc : claimant? d τ.structures (d.structureTypeName name) with
                  | some other =>
                    rw [eval_resolveNames_error hmap (hpending.eval_clash hs hresult hc)]
                    exact .clash hpending hs hfields hc
                  | none =>
                    rw [eval_resolveNames_ok hmap (hpending.eval_entered hs hresult hc)]
                    exact .entered hpending hs hfields hc (ihrest _)

/-- A structure is looked into with one more name around it, and one less of room. -/
theorem room_inside (hm : ∀ name s, m name = .ok s → name ∈ names) (hs : m name = .ok s)
    (hp : name ∉ path) (hnd : path.Nodup) (hsub : path ⊆ names)
    (hlt : names.length < depth + path.length) :
    ∃ n, depth = n + 1 ∧ (name :: path).Nodup ∧ name :: path ⊆ names ∧
      names.length < n + (name :: path).length := by
  have hle := path_length_le hnd hsub
  refine ⟨depth - 1, by omega, List.nodup_cons.2 ⟨hp, hnd⟩,
    List.cons_subset.2 ⟨hm name s hs, hsub⟩, ?_⟩
  rw [List.length_cons]
  omega

/-- What the rules say is what the loop computes, given enough room. -/
theorem Resolves.eval_eq (hm : ∀ name s, m name = .ok s → name ∈ names) {list : List String}
    {out : Except GenerationError Unit × Resolution} (h : Resolves m d path list σ out) :
    ∀ depth : Nat, path.Nodup → path ⊆ names → names.length < depth + path.length →
      (resolveNames d depth path list).eval m σ = out := by
  induction h with
  | nil => exact fun _ _ _ _ => rfl
  | mapped hmap _ ih =>
    intro depth hnd hsub hlt
    rw [eval_resolveNames_mapped hmap]
    exact ih depth hnd hsub hlt
  | known hmap hl _ ih =>
    intro depth hnd hsub hlt
    rw [eval_resolveNames_ok hmap (eval_resolveStructure_known hl)]
    exact ih depth hnd hsub hlt
  | cycle hmap hl hp =>
    intro depth _ _ _
    exact eval_resolveNames_error hmap (eval_resolveStructure_cycle hl hp)
  | missing hpending hs =>
    intro depth hnd hsub hlt
    -- a path holds each name once, so there is a level left for a name outside it
    obtain ⟨n, rfl⟩ : ∃ n, depth = n + 1 :=
      ⟨depth - 1, by have := path_length_le hnd hsub; omega⟩
    exact eval_resolveNames_error hpending.unmapped
      (eval_resolveStructure_failure hpending.unresolved hpending.outside hs)
  | inside hpending hs _ ih =>
    intro depth hnd hsub hlt
    obtain ⟨n, rfl, hnd', hsub', hlt'⟩ := room_inside hm hs hpending.outside hnd hsub hlt
    exact eval_resolveNames_error hpending.unmapped
      (hpending.eval_inside hs (ih n hnd' hsub' hlt'))
  | clash hpending hs _ hc ih =>
    intro depth hnd hsub hlt
    obtain ⟨n, rfl, hnd', hsub', hlt'⟩ := room_inside hm hs hpending.outside hnd hsub hlt
    exact eval_resolveNames_error hpending.unmapped
      (hpending.eval_clash hs (ih n hnd' hsub' hlt') hc)
  | entered hpending hs _ hc _ ih ihrest =>
    intro depth hnd hsub hlt
    obtain ⟨n, rfl, hnd', hsub', hlt'⟩ := room_inside hm hs hpending.outside hnd hsub hlt
    rw [eval_resolveNames_ok hpending.unmapped
      (hpending.eval_entered hs (ih n hnd' hsub' hlt') hc)]
    exact ihrest (n + 1) hnd hsub hlt

/-- **Resolution ends**: with enough room, the loop computes the one outcome that the rules give. -/
theorem resolves_iff (hm : ∀ name s, m name = .ok s → name ∈ names) (hlt : names.length < depth)
    {list : List String} {out : Except GenerationError Unit × Resolution} :
    Resolves m d [] list σ out ↔ (resolveNames d depth [] list).eval m σ = out := by
  refine ⟨fun h => h.eval_eq hm depth List.nodup_nil (List.nil_subset _) (by simpa using hlt), ?_⟩
  rintro rfl
  exact resolves_resolveNames hm depth [] list σ List.nodup_nil (List.nil_subset _)
    (by simpa using hlt)

/-- The resolution of a type is that of its name. -/
theorem eval_resolveNames_type (type : TypeRef) :
    (resolveNames d depth [] [type.name]).eval m σ =
      (((resolveType d depth type).eval m σ).1.map fun _ => (),
        ((resolveType d depth type).eval m σ).2) := by
  unfold resolveType
  cases hmap : d.mapType type.name with
  | some target =>
    rw [eval_resolveNames_mapped hmap]
    rfl
  | none =>
    dsimp only
    rw [Request.eval_bind]
    cases hresult : (resolveStructure d depth [] type.name fun _ => .unknownType type.name).eval m σ with
    | mk result τ =>
      cases result with
      | error e => rw [eval_resolveNames_error hmap hresult]; rfl
      | ok s => rw [eval_resolveNames_ok hmap hresult]; rfl

end Rules

/-! ## Success -/

/-- Names that all stand for structures, none of which leads to itself, with different target names. -/
structure Resolvable (m : Meanings) (d : Dialect) (S : String → Prop) : Prop where
  declared : ∀ name, S name → ∃ s, m name = .ok s
  acyclic : ∀ name, S name → ¬ Relation.TransGen (FieldRef m d) name name
  distinct : ∀ a b, S a → S b → d.structureTypeName a = d.structureTypeName b → a = b

section Success

variable {m : Meanings} {d : Dialect} {S : String → Prop} {path list : List String} {σ : Resolution}

theorem fieldRef_of_mem_fieldTypes {name b : String} {s : Structure} (hm : m name = .ok s)
    (hb : b ∈ s.fieldTypes) (hmap : d.mapType b = none) : FieldRef m d name b := by
  obtain ⟨field, hfield, hname⟩ := List.mem_map.1 hb
  exact ⟨s, hm, field, hfield, hname, hmap⟩

/-- What the fields of a structure lead to, the structure leads to. -/
theorem transGen_of_fieldTypes {name b : String} {s : Structure}
    (h : ∃ root ∈ s.fieldTypes, LeadsTo m d root b) (hm : m name = .ok s) :
    Relation.TransGen (FieldRef m d) name b := by
  obtain ⟨root, hroot, hmap, hreach⟩ := h
  exact .head' (fieldRef_of_mem_fieldTypes hm hroot hmap) hreach

namespace Settling

variable {S' : String → Prop} {τ : Resolution}

theorem mono (h : Settling m d S σ τ) (hS : ∀ name, S name → S' name) : Settling m d S' σ τ := by
  obtain ⟨new, hnew, hall⟩ := h.added
  exact ⟨h.settled, new, hnew, fun entry hentry => hS _ (hall entry hentry)⟩

theorem names_cases (h : Settling m d S σ τ) {name : String}
    (hname : name ∈ τ.structures.map Prod.fst) : name ∈ σ.structures.map Prod.fst ∨ S name := by
  obtain ⟨new, hnew, hall⟩ := h.added
  rw [hnew, List.map_append] at hname
  rcases List.mem_append.1 hname with hname | hname
  · obtain ⟨entry, hentry, rfl⟩ := List.mem_map.1 hname
    exact .inr (hall entry hentry)
  · exact .inl hname

/-- After what its fields lead to, a structure is entered itself. -/
theorem enter {name : String} {s : Structure}
    (h : Settling m d (fun n => ∃ root ∈ s.fieldTypes, LeadsTo m d root n) σ τ)
    (hmap : d.mapType name = none) (hm : m name = .ok s)
    (hfields : ∀ n ∈ s.fieldTypes, d.mapType n = none → n ∈ τ.structures.map Prod.fst)
    (hfree : claimant? d τ.structures (d.structureTypeName name) = none) :
    Settling m d (LeadsTo m d name) σ { τ with structures := (name, s) :: τ.structures } := by
  obtain ⟨new, hnew, hall⟩ := h.added
  refine ⟨.cons h.settled hm (fun field hfield => hfields _ (List.mem_map_of_mem hfield)) hfree,
    (name, s) :: new, by rw [hnew, List.cons_append], List.forall_mem_cons.2 ⟨⟨hmap, .refl⟩, ?_⟩⟩
  exact fun entry hentry =>
    ⟨hmap, (transGen_of_fieldTypes (hall entry hentry) hm).to_reflTransGen⟩

end Settling

/-- Names that may be resolved inside of `path`: they belong to a set, and whatever is around them leads
to them. -/
def Admitted (m : Meanings) (d : Dialect) (S : String → Prop) (path list : List String) : Prop :=
  ∀ name ∈ list, d.mapType name = none →
    S name ∧ ∀ outer ∈ path, Relation.TransGen (FieldRef m d) outer name

theorem Admitted.tail {name : String} {rest : List String} (h : Admitted m d S path (name :: rest)) :
    Admitted m d S path rest :=
  fun n hn => h n (List.mem_cons_of_mem _ hn)

/-- The fields of an admitted structure are admitted inside of it. -/
theorem Admitted.fields {name : String} {rest : List String} {s : Structure}
    (h : Admitted m d S path (name :: rest)) (hclosed : ∀ a b, S a → FieldRef m d a b → S b)
    (hmap : d.mapType name = none) (hm : m name = .ok s) :
    Admitted m d S (name :: path) s.fieldTypes := by
  intro n hn hnmap
  obtain ⟨hname, houter⟩ := h name List.mem_cons_self hmap
  have hstep := fieldRef_of_mem_fieldTypes hm hn hnmap
  refine ⟨hclosed _ _ hname hstep, List.forall_mem_cons.2 ⟨.single hstep, fun outer ho => ?_⟩⟩
  exact (houter outer ho).tail hstep

theorem mem_of_reflTransGen (hclosed : ∀ a b, S a → FieldRef m d a b → S b) {a b : String}
    (ha : S a) (hab : Relation.ReflTransGen (FieldRef m d) a b) : S b := by
  induction hab with
  | refl => exact ha
  | tail _ hstep ih => exact hclosed _ _ ih hstep

/-- **Resolvable names are resolved**, and with them exactly what they lead to is added. -/
theorem Resolves.succeeds (hS : Resolvable m d S)
    (hclosed : ∀ a b, S a → FieldRef m d a b → S b)
    {out : Except GenerationError Unit × Resolution} (h : Resolves m d path list σ out)
    (hσ : Settled m d σ.structures) (hknown : ∀ name ∈ σ.structures.map Prod.fst, S name)
    (hlist : Admitted m d S path list) :
    ∃ τ, out = (.ok (), τ) ∧ Settling m d (fun n => ∃ root ∈ list, LeadsTo m d root n) σ τ ∧
      ∀ name ∈ list, d.mapType name = none → name ∈ τ.structures.map Prod.fst := by
  have hlater : ∀ {name : String} {rest : List String} {n : String},
      (∃ root ∈ rest, LeadsTo m d root n) → ∃ root ∈ name :: rest, LeadsTo m d root n :=
    fun ⟨root, hroot, hleads⟩ => ⟨root, List.mem_cons_of_mem _ hroot, hleads⟩
  induction h with
  | nil => exact ⟨_, rfl, .refl hσ, nofun⟩
  | mapped hmap _ ih =>
    obtain ⟨τ, rfl, hstep, hmem⟩ := ih hσ hknown hlist.tail
    refine ⟨τ, rfl, hstep.mono fun _ => hlater, List.forall_mem_cons.2 ⟨fun hnone => ?_, hmem⟩⟩
    rw [hmap] at hnone
    cases hnone
  | known hmap hl _ ih =>
    obtain ⟨τ, rfl, hstep, hmem⟩ := ih hσ hknown hlist.tail
    refine ⟨τ, rfl, hstep.mono fun _ => hlater, List.forall_mem_cons.2 ⟨fun _ => ?_, hmem⟩⟩
    exact hstep.names_mem (mem_names_of_lookup hl)
  | cycle hmap _ hp =>
    obtain ⟨hname, houter⟩ := hlist _ List.mem_cons_self hmap
    exact absurd (houter _ hp) (hS.acyclic _ hname)
  | missing hpending hm =>
    obtain ⟨hname, -⟩ := hlist _ List.mem_cons_self hpending.unmapped
    obtain ⟨s, hs⟩ := hS.declared _ hname
    rw [hm] at hs
    cases hs
  | inside hpending hm _ ih =>
    obtain ⟨τ, heq, -⟩ := ih hσ hknown (hlist.fields hclosed hpending.unmapped hm)
    cases heq
  | @clash path rest name other s σ τ hpending hm _ hc ih =>
    obtain ⟨τ, heq, hstep, -⟩ := ih hσ hknown (hlist.fields hclosed hpending.unmapped hm)
    cases heq
    obtain ⟨hname, -⟩ := hlist _ List.mem_cons_self hpending.unmapped
    obtain ⟨hmem, htarget⟩ := mem_of_claimant? hc
    rcases hstep.names_cases hmem with hin | hleads
    · have heq := hS.distinct _ _ (hknown other hin) hname htarget
      exact absurd (heq ▸ hin) (notMem_names_of_lookup hpending.unresolved)
    · -- what the fields lead to would be the structure itself
      have hto := transGen_of_fieldTypes hleads hm
      have hother : S other := mem_of_reflTransGen hclosed hname hto.to_reflTransGen
      rw [hS.distinct _ _ hother hname htarget] at hto
      exact absurd hto (hS.acyclic _ hname)
  | @entered path rest name s σ τ out hpending hm _ hc _ ih ihrest =>
    obtain ⟨τ, heq, hstep, hmem⟩ := ih hσ hknown (hlist.fields hclosed hpending.unmapped hm)
    cases heq
    obtain ⟨hname, -⟩ := hlist _ List.mem_cons_self hpending.unmapped
    have henter := hstep.enter hpending.unmapped hm hmem hc
    have hknown' : ∀ n ∈ ((name, s) :: τ.structures).map Prod.fst, S n := by
      intro n hn
      rcases henter.names_cases hn with hin | hleads
      · exact hknown n hin
      · exact mem_of_reflTransGen hclosed hname hleads.2
    obtain ⟨υ, rfl, hstep', hmem'⟩ := ihrest henter.settled hknown' hlist.tail
    refine ⟨υ, rfl, (henter.mono fun n hn => ?_).trans (hstep'.mono fun _ => hlater),
      List.forall_mem_cons.2 ⟨fun _ => hstep'.names_mem List.mem_cons_self, hmem'⟩⟩
    exact ⟨name, List.mem_cons_self, hn⟩

/-- Settled structures lead to settled structures. -/
theorem Settled.mem_of_fieldRef {structures : List (String × Structure)}
    (h : Settled m d structures) {a b : String} (ha : a ∈ structures.map Prod.fst)
    (hab : FieldRef m d a b) : b ∈ structures.map Prod.fst := by
  obtain ⟨s, hs, field, hfield, rfl, hmap⟩ := hab
  obtain ⟨⟨_, s'⟩, hentry, rfl⟩ := List.mem_map.1 ha
  have hm := h.meaning _ hentry
  rw [hs] at hm
  cases hm
  exact h.fields_mem hentry hfield hmap

/-- **No settled structure leads to itself**, since its fields are settled before it. -/
theorem Settled.acyclic {structures : List (String × Structure)} (h : Settled m d structures) :
    ∀ name ∈ structures.map Prod.fst, ¬ Relation.TransGen (FieldRef m d) name name := by
  induction h with
  | nil => nofun
  | @cons name s earlier hearlier hm hfields hfree ih =>
    refine List.forall_mem_cons.2 ⟨fun hcycle => ?_, ih⟩
    obtain ⟨b, ⟨s', hs', field, hfield, rfl, hmap⟩, hback⟩ := Relation.TransGen.head'_iff.1 hcycle
    rw [hm] at hs'
    cases hs'
    have hmem := mem_of_reflTransGen (fun _ _ => hearlier.mem_of_fieldRef)
      (hfields field hfield hmap) hback
    have hnodup := (Settled.cons hearlier hm hfields hfree).names_nodup
    exact (List.nodup_cons.1 hnodup).1 hmem

/-- Settled names are resolvable. -/
theorem Settled.resolvable {structures : List (String × Structure)} (h : Settled m d structures)
    (hS : ∀ name, S name → name ∈ structures.map Prod.fst) : Resolvable m d S where
  declared name hname := by
    obtain ⟨entry, hentry, rfl⟩ := List.mem_map.1 (hS name hname)
    exact ⟨entry.2, h.meaning entry hentry⟩
  acyclic name hname := h.acyclic name (hS name hname)
  distinct a b ha hb heq := by
    have htargets : ((structures.map Prod.fst).map d.structureTypeName).Nodup := by
      rw [List.map_map]
      exact h.targets_nodup
    exact List.inj_on_of_nodup_map htargets (hS a ha) (hS b hb) heq

/-- **What a successful resolution leaves behind**: the names that the type leads to, and they are
resolvable. -/
theorem resolveType_leaves {depth : Nat} {type : TypeRef} {target : String} {τ : Resolution}
    (h : (resolveType d depth type).eval m {} = (.ok target, τ)) :
    Settled m d τ.structures ∧
      (∀ name, name ∈ τ.structures.map Prod.fst ↔ LeadsTo m d type.name name) ∧
      Resolvable m d (LeadsTo m d type.name) := by
  have hclosed : FieldClosed m d (LeadsTo m d type.name) := fun a s ha hm field hfield hmap =>
    ⟨ha.1, ha.2.tail ⟨s, hm, field, hfield, rfl, hmap⟩⟩
  obtain ⟨⟨hsettled, new, hnew, hled⟩, hresolved⟩ :=
    resolveType_settles hclosed depth type (fun hmap => ⟨hmap, .refl⟩) {} target τ .nil h
  have hmem : ∀ name, LeadsTo m d type.name name → name ∈ τ.structures.map Prod.fst :=
    fun name hname =>
      mem_of_reflTransGen (fun _ _ => hsettled.mem_of_fieldRef) (hresolved hname.1) hname.2
  refine ⟨hsettled, fun name => ⟨fun hname => ?_, hmem name⟩, hsettled.resolvable hmem⟩
  rw [hnew, List.append_nil] at hname
  obtain ⟨entry, hentry, rfl⟩ := List.mem_map.1 hname
  exact hled entry hentry

/-- **A type that leads to resolvable names is resolved**, given enough room. -/
theorem resolveType_succeeds {names : List String} (hm : ∀ name s, m name = .ok s → name ∈ names)
    {depth : Nat} (hlt : names.length < depth) {type : TypeRef}
    (h : Resolvable m d (LeadsTo m d type.name)) :
    ∃ target, ((resolveType d depth type).eval m {}).1 = .ok target := by
  have hrun : Resolves m d [] [type.name] {} _ := (resolves_iff hm hlt).2 rfl
  obtain ⟨τ, heq, -⟩ := hrun.succeeds h (fun a b ha hab => ⟨ha.1, ha.2.tail hab⟩) .nil
    (fun name hname => (nomatch hname))
    (List.forall_mem_singleton.2 fun hmap => ⟨⟨hmap, .refl⟩, fun outer ho => (nomatch ho)⟩)
  rw [eval_resolveNames_type] at heq
  obtain ⟨target, htarget, -⟩ := map_ok.1 (congrArg Prod.fst heq)
  exact ⟨target, htarget⟩

end Success

/-- A name stands for a structure exactly if it is registered, or else declared once, as a structure. -/
theorem StructureSet.exists_meaning_iff {s : StructureSet} {symbols : SymbolSource} {name : String} :
    (∃ definition, s.meaning symbols name = .ok definition) ↔
      (s.find? name).isSome ∨ ∃ definition, symbols.declarations name = [.struct definition] := by
  cases hfind : s.find? name with
  | some found =>
    rw [meaning_of_find?_some hfind]
    simp
  | none =>
    rw [meaning_of_find?_none hfind]
    simp [SymbolSource.lookup_eq_ok_iff]

/-- **When a type can be resolved.**  For every dialect, program, table of declarations and type,
resolution from scratch ends: the rules, which know no bound on the nesting, have exactly one outcome, and
it is the one that is computed.  It is a success exactly if every name that the type leads to through
fields is registered or declared exactly once, as a structure; no such name leads to itself; and all of
them have different target names.  Then exactly these names are resolved, each once and as what it stands
for. -/
theorem type_resolution_exact (d : Dialect) (p : Program) (symbols : Symbols) (type : TypeRef) :
    let m := p.structures.meaning symbols
    let outcome := ((resolveType d (p.nestingBound symbols) type).toQuery.run symbols p.structures).value
    (∀ out, Resolves m d [] [type.name] {} out ↔ out = (outcome.1.map fun _ => (), outcome.2)) ∧
    ((∃ target, outcome.1 = .ok target) ↔
      (∀ name, LeadsTo m d type.name name → (p.structures.find? name).isSome ∨
        ∃ definition, symbols.declarations name = [.struct definition]) ∧
      (∀ name, LeadsTo m d type.name name → ¬ Relation.TransGen (FieldRef m d) name name) ∧
      ∀ a b, LeadsTo m d type.name a → LeadsTo m d type.name b →
        d.structureTypeName a = d.structureTypeName b → a = b) ∧
    ∀ target, outcome.1 = .ok target →
      (outcome.2.structures.map Prod.fst).Nodup ∧
      (∀ name, name ∈ outcome.2.structures.map Prod.fst ↔ LeadsTo m d type.name name) ∧
      ∀ entry ∈ outcome.2.structures, m entry.1 = .ok entry.2 := by
  intro m outcome
  have hm : ∀ name s, m name = .ok s → name ∈ p.structureNames symbols :=
    fun _ _ => Program.mem_structureNames
  have hlt := p.length_structureNames_lt symbols
  have houtcome : outcome = (resolveType d (p.nestingBound symbols) type).eval m {} := by
    rw [← Request.eval_toQuery]
    exact Query.run_value symbols.source _ p.structures
  have hleaves : ∀ target, outcome.1 = .ok target →
      (resolveType d (p.nestingBound symbols) type).eval m {} = (.ok target, outcome.2) :=
    fun target h => by rw [← houtcome, ← h]
  refine ⟨fun out => ?_, ⟨fun ⟨target, h⟩ => ?_, fun ⟨hdeclared, hacyclic, hdistinct⟩ => ?_⟩,
    fun target h => ?_⟩
  · rw [resolves_iff hm hlt, eval_resolveNames_type, houtcome, eq_comm]
  · obtain ⟨-, -, hS⟩ := resolveType_leaves (hleaves target h)
    exact ⟨fun name hname => StructureSet.exists_meaning_iff.1 (hS.declared name hname), hS.acyclic,
      hS.distinct⟩
  · rw [houtcome]
    exact resolveType_succeeds hm hlt
      ⟨fun name hname => StructureSet.exists_meaning_iff.2 (hdeclared name hname), hacyclic, hdistinct⟩
  · obtain ⟨hsettled, hmem, -⟩ := resolveType_leaves (hleaves target h)
    exact ⟨hsettled.names_nodup, hmem, hsettled.meaning⟩

end CrossShader

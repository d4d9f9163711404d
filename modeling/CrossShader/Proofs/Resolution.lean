import CrossShader.Proofs.Request

/-!
# What resolution does

The steps of `resolveStructure` under fixed meanings.

* `resolveFields` — the loop over the fields of a structure.
* `eval_resolveStructure_found` and its companions — one equation for each way a name is resolved;
  `resolveStructure_ok` — all ways to succeed.
-/

set_option autoImplicit false

namespace CrossShader

/-- Resolve the types of fields; `path` holds the structures around them. -/
def resolveFields (d : Dialect) (depth : Nat) (path : List String) (fields : List Field) :
    Request Unit :=
  fields.forM fun field =>
    match d.mapType field.type.name with
    | some _ => pure ()
    | none => do
      let _ ← resolveStructure d depth path field.type.name fun _ => .unknownType field.type.name

section Equations

variable {m : Meanings} {d : Dialect} {path : List String} {name : String}
  {f : DiscoveryFailure → GenerationError} {σ : Resolution}

theorem eval_resolveStructure_known {depth : Nat} {definition : Structure}
    (h : σ.structures.lookup name = some definition) :
    (resolveStructure d depth path name f).eval m σ = (.ok definition, σ) := by
  rw [resolveStructure.eq_def, Request.eval_bind, Request.eval_get]
  simp [h]

theorem eval_resolveStructure_cycle {depth : Nat} (h : σ.structures.lookup name = none)
    (hp : name ∈ path) :
    (resolveStructure d depth path name f).eval m σ =
      (.error (.unsupported (.selfContaining name) .unknown), σ) := by
  rw [resolveStructure.eq_def, Request.eval_bind, Request.eval_get]
  simp [h, hp]

theorem eval_resolveStructure_zero (h : σ.structures.lookup name = none) (hp : name ∉ path) :
    (resolveStructure d 0 path name f).eval m σ =
      (.error (.unsupported (.selfContaining name) .unknown), σ) := by
  rw [resolveStructure.eq_def, Request.eval_bind, Request.eval_get]
  simp [h, hp]

theorem eval_resolveStructure_failure {depth : Nat} {reason : DiscoveryFailure}
    (h : σ.structures.lookup name = none) (hp : name ∉ path) (hm : m name = .error reason) :
    (resolveStructure d (depth + 1) path name f).eval m σ = (.error (f reason), σ) := by
  rw [resolveStructure.eq_def, Request.eval_bind, Request.eval_get]
  simp [h, hp, Request.eval_bind, hm]

theorem eval_resolveStructure_found {depth : Nat} {definition : Structure}
    (h : σ.structures.lookup name = none) (hp : name ∉ path) (hm : m name = .ok definition) :
    (resolveStructure d (depth + 1) path name f).eval m σ =
      (do
        resolveFields d depth (name :: path) definition.fields
        enterStructure d name definition
        pure definition : Request Structure).eval m σ := by
  rw [resolveStructure.eq_def, Request.eval_bind, Request.eval_get]
  simp only [h, List.contains_iff_mem, hp, if_false]
  rw [Request.eval_bind, Request.eval_discover, hm]
  rfl

theorem eval_enterStructure_ok {definition : Structure} {σ' : Resolution} {u : Unit} :
    (enterStructure d name definition).eval m σ = (.ok u, σ') ↔
      claimant? d σ.structures (d.structureTypeName name) = none ∧
        σ' = { σ with structures := (name, definition) :: σ.structures } := by
  unfold enterStructure
  rw [Request.eval_bind, Request.eval_get]
  cases h : claimant? d σ.structures (d.structureTypeName name) with
  | none => simp [h, eq_comm]
  | some other => simp [h]

/-- The ways to succeed: the name is known, or it stands for a structure whose fields are resolved
and whose target name is free. -/
theorem resolveStructure_ok {depth : Nat} {definition : Structure} {σ' : Resolution} :
    (resolveStructure d depth path name f).eval m σ = (.ok definition, σ') ↔
      (σ.structures.lookup name = some definition ∧ σ' = σ) ∨
      (σ.structures.lookup name = none ∧ name ∉ path ∧ m name = .ok definition ∧
        ∃ n τ, depth = n + 1 ∧
          (resolveFields d n (name :: path) definition.fields).eval m σ = (.ok (), τ) ∧
          claimant? d τ.structures (d.structureTypeName name) = none ∧
          σ' = { τ with structures := (name, definition) :: τ.structures }) := by
  cases hl : σ.structures.lookup name with
  | some known =>
    rw [eval_resolveStructure_known hl]
    simp [eq_comm]
  | none =>
    by_cases hp : name ∈ path
    · rw [eval_resolveStructure_cycle hl hp]
      simp [hp]
    · cases depth with
      | zero =>
        rw [eval_resolveStructure_zero hl hp]
        simp
      | succ n =>
        cases hm : m name with
        | error reason =>
          rw [eval_resolveStructure_failure hl hp hm]
          simp
        | ok found =>
          rw [eval_resolveStructure_found hl hp hm]
          simp only [Request.eval_bind_ok, eval_enterStructure_ok, Request.eval_pure, Prod.mk.injEq,
            Except.ok.injEq]
          constructor
          · rintro ⟨_, τ, hf, _, τ', ⟨hc, rfl⟩, rfl, rfl⟩
            exact .inr ⟨trivial, hp, rfl, n, τ, rfl, hf, hc, rfl⟩
          · rintro (⟨h, -⟩ | ⟨-, -, rfl, n', τ, hn, hf, hc, rfl⟩)
            · cases h
            · cases hn
              exact ⟨(), τ, hf, (), _, ⟨hc, rfl⟩, rfl, rfl⟩

end Equations

end CrossShader

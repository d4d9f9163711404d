import CrossShader.Proofs.EmissionErrors
import CrossShader.Proofs.Reader.Expression

/-!
# Errors of bodies

When a body is lowered, and with which error and where it fails else.

* `GenerationError.IsAt` — errors that are at a location, if they are about a construct.
* `isAt_partError` — errors about constructs are at the statement around the part.
* `outlineAll_by_parts` — when a body is lowered, and its error else.
-/

set_option autoImplicit false

namespace CrossShader

/-! ## Locations -/

/-- An error that is at a location, if it is about a construct. -/
def GenerationError.IsAt (loc : Location) (e : GenerationError) : Prop :=
  ∀ what loc', e = .unsupported what loc' → loc' = loc

theorem GenerationError.isAt_unsupported (what : Construct) (loc : Location) :
    (GenerationError.unsupported what loc).IsAt loc := by
  rintro _ _ ⟨⟩
  rfl

theorem isAt_mappedType (loc : Location) (c : Context) (type : TypeRef) :
    Raises (GenerationError.IsAt loc) (c.mappedType type) := by
  unfold Context.mappedType
  split
  · exact .ok _
  · split
    · exact .ok _
    · exact .error nofun

/-- **The error of a part is at the statement around it**, if it is about a construct. -/
theorem isAt_partError {s : Scope} {t : Stmt} {p : OwnPart} (hp : p ∈ t.ownParts)
    {e : GenerationError} (h : s.partError p = some e) : e.IsAt p.owner.location :=
  have hmapped := isAt_mappedType p.owner.location s.context
  raises_part hp (GenerationError.isAt_unsupported · p.owner.location)
    (fun _ _ field _ => hmapped field.type) (fun _ _ type _ _ _ => hmapped type)
    (fun _ _ type _ => hmapped type) e h

/-! ## Bodies -/

/-- **A body is lowered exactly if every statement in it is, with empty blocks**; a `foreach` loop never
is, and `discard` is in the fragment stage alone.  The error of a body is that of its first part which is
not lowered on its own, as the parts are written.  Every part is one of a statement of the body, the
innermost around it, and an error about a construct is at the location of that statement; a statement in a
`for` header is one of its own. -/
theorem outlineAll_by_parts (s : Scope) (body : List Stmt) :
    ((∃ outlines, s.outlineAll body = .ok outlines) ↔
      ∀ t, Block.Holds body t → ∃ outline, s.outline t.hollow = .ok outline) ∧
    (∀ loc item type collection inner outline,
      s.outline (.foreach loc item type collection inner) ≠ .ok outline) ∧
    (∀ loc, (∃ outline, s.outline (.discard loc) = .ok outline) ↔ s.stage = .fragment) ∧
    (∀ e, s.outlineAll body = .error e ↔
      ∃ before part after, Block.parts body = before ++ part :: after ∧
        (∀ p ∈ before, s.partError p = none) ∧ s.partError part = some e) ∧
    ∀ part ∈ Block.parts body,
      (∃ t, Block.Holds body t ∧ part ∈ t.ownParts) ∧ Block.Holds body part.owner ∧
      (∀ t e, part = .expr t e → Block.Innermost body t e) ∧
      ∀ what loc, s.partError part = some (.unsupported what loc) → loc = part.owner.location := by
  refine ⟨⟨?_, ?_⟩, ?_, ?_, fun e => (lowers_outlineAll body).error_iff, ?_⟩
  · rintro ⟨outlines, houtlines⟩ t ht
    have hparts := (lowers_outline t).exists_ok_iff.1 (outline_of_holds houtlines ht)
    exact (lowers_hollow t).exists_ok_iff.2 fun p hp => hparts p (Stmt.mem_parts_of_mem_ownParts hp)
  · intro hhollow
    refine (lowers_outlineAll body).exists_ok_iff.2 fun p hp => ?_
    obtain ⟨t, ht, hown⟩ := Block.exists_holds_of_mem_parts hp
    exact (lowers_hollow t).exists_ok_iff.1 (hhollow t ht) p hown
  · intro loc item type collection inner outline houtline
    rw [Scope.outline] at houtline
    cases houtline
  · intro loc
    rw [Scope.outline]
    split
    · rename_i hstage
      exact ⟨fun _ => hstage, fun _ => ⟨_, rfl⟩⟩
    · rename_i hstage
      refine ⟨?_, fun h => absurd h hstage⟩
      rintro ⟨outline, houtline⟩
      cases houtline
  · intro part hpart
    obtain ⟨t, ⟨top, htop, hin⟩, hown⟩ := Block.exists_holds_of_mem_parts hpart
    refine ⟨⟨t, ⟨top, htop, hin⟩, hown⟩, ⟨top, htop, ?_⟩, ?_, ?_⟩
    · exact (Stmt.owner_inside hown).trans hin
    · rintro u e rfl
      obtain ⟨rfl, he⟩ := Stmt.mem_exprs_of_mem_ownParts hown
      exact ⟨⟨top, htop, hin⟩, e, he, .self⟩
    · exact fun what loc herror => isAt_partError hown herror what loc rfl

/-- A `do` loop in an `else if`: its body is a `switch` with a case whose label is no integer, behind a
`for` loop with a step that calls an unknown function, and its condition is an unknown resource. -/
def Block.tangled : List Stmt :=
  [.ifElse ⟨1, 1⟩ (.literal (.bool true)) [] [.ifElse ⟨2, 1⟩ (.localVar "ready") [
    .doWhile ⟨3, 1⟩ [
      .switch ⟨4, 1⟩ (.localVar "kind") [
        .mk [.int 0, .int 1] false [.forLoop ⟨5, 1⟩ (some (.eval ⟨5, 6⟩ (.localVar "i"))) none
          [.eval ⟨5, 12⟩ (.call "Missing.Step" [])] [.discard ⟨6, 1⟩]],
        .mk [.bool true] true []]]
      (.resource "missing")] []]]

/-- The step of the inner loop is the first part that is not lowered, and the error is at the step. -/
theorem outlineAll_by_parts_tangled :
    Glsl.sampling.outlineAll Block.tangled =
      .error (.unsupported (.unknownCall "Missing.Step") ⟨5, 12⟩) := by
  refine ((outlineAll_by_parts Glsl.sampling Block.tangled).2.2.2.1 _).2
    ⟨(Block.parts Block.tangled).take 6, .simple (.eval ⟨5, 12⟩ (.call "Missing.Step" [])),
      (Block.parts Block.tangled).drop 7, rfl, ?_, ?_⟩
  · decide +kernel
  · decide +kernel

end CrossShader

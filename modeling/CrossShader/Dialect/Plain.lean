import CrossShader.Dialect.Basic

/-!
# The plain dialect

A neutral target whose tables are given by its user.  Its declarations are single lines that show
what a document holds, so it serves to look at generated programs without the detail of a real
shading language.
-/

set_option autoImplicit false

namespace CrossShader.Plain

open Text

/-- The target types for which a form exists. -/
inductive Coverage where
  | all
  | scalar
  | structured
  | nothing
  deriving DecidableEq, Repr

/-- Whether a type is covered, given whether it is a structure. -/
def Coverage.covers : Coverage → Bool → Bool
  | all, _ => true
  | scalar, isStructure => !isStructure
  | structured, isStructure => isStructure
  | nothing, _ => false

/-- The tables and choices of a plain dialect. -/
structure Setup where
  name : String := "custom"
  targets : List String := []
  types : Table String String := .empty
  identifiers : Identifiers := {}
  intrinsics : Table String Intrinsic := .empty
  /-- Whether there are compute entries. -/
  compute : Bool := true
  /-- Types whose zero has a form of its own. -/
  zero : Coverage := .scalar
  /-- Types that have constructors. -/
  construct : Coverage := .all

/-- Samples a texture that is a resource itself. -/
def sample2D : Intrinsic := .custom fun
  | [texture, coordinates] =>
    if texture.resource = some .texture2D then
      some s!"sample2d({texture.text}, {coordinates.text})"
    else none
  | _ => none

/-- A declaration and its slot. -/
def bound (heading : String) (d : ResourceDecl) : Declared :=
  ⟨[.flush s!"{heading} {d.name} : {d.resource.binding};"], []⟩

/-- A resource declaration. -/
def resource : ResourceForm → ResourceDecl → Except GenerationError Declared
  | .uniform, d => do
    let type ← d.requireValueType
    return bound s!"uniform {type}" d
  | .texture2D, d => .ok (bound "texture2d" d)
  | .textureCube, d => .ok (bound "texturecube" d)
  | .sampler, d => .ok (bound "sampler" d)
  | .buffer writable, d => do
    let type ← d.requireValueType
    return bound (if writable then s!"rwbuffer<{type}>" else s!"buffer<{type}>") d

/-- The extent of a compute workgroup. -/
def mainAttributes (layout : EntryLayout) : List Line :=
  match layout.stage with
  | .compute =>
    let w := layout.workgroup
    [.flush s!"[compute {w.x} {w.y} {w.z}]"]
  | .vertex | .fragment => []

/-- The plain dialect of a setup. -/
def dialect (setup : Setup) : Dialect where
  name := setup.name
  targets := setup.targets
  types := setup.types
  identifiers := setup.identifiers
  intrinsics := setup.intrinsics
  supports stage := stage != .compute || setup.compute
  zeroValue type isStructure := if setup.zero.covers isStructure then some s!"{type}(0)" else none
  construct type isStructure arguments :=
    if setup.construct.covers isStructure then some (callText type arguments) else none
  header stage _ := [.flush s!"// {setup.name} {stage.text}"]
  resource := resource
  stageVariable v :=
    [.flush s!"{v.direction.text} {v.type} {v.name} @{v.slot} {v.semantic.text};"]
  mainAttributes := mainAttributes
  mainSignature _ := "void main()"
  positionTarget := .whole "POSITION"

end CrossShader.Plain

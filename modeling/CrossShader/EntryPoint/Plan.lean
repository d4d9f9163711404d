import CrossShader.Resolution

/-!
# Planning of entry points

Checks that an entry function fits its stage, and lays out its stage interface.

* `freshName` — a name followed by as few underscores as make it differ from taken names.
* `interfaceVariables` — one variable for each field, with slots from zero.
* `clipPosition?` — the first field tagged as a position, apart from the others.
* `planEntry` — the layout of an entry.
-/

set_option autoImplicit false

namespace CrossShader

/-- The output variable of a fragment entry. -/
def fragmentOutput : String := "_outputColor_"

/-- What stands before the field name in the name of a vertex output. -/
def vertexOutputLead : String := "out_"

/-- Add underscores to a taken name, at most `rounds` times. -/
def freshName (taken : List String) : (rounds : Nat) → (name : String) → String
  | 0, name => name
  | rounds + 1, name => if taken.contains name then freshName taken rounds (name ++ "_") else name

/-- The names that a local of `main` must avoid. -/
def EntryLayout.takenNames (layout : EntryLayout) : List String :=
  (layout.inputs ++ layout.outputs).map (·.name) ++ [layout.inputLocal]

/-- A local of `main`, named after `base`, that no stage variable and no other local shadows.  There
are enough rounds to pass every taken name. -/
def EntryLayout.freshLocal (d : Dialect) (layout : EntryLayout) (base : String) : String :=
  freshName layout.takenNames layout.takenNames.length (d.correct base)

/-- The stage variable that carries a field.  Arrays have no form in an interface. -/
def interfaceVariable (d : Dialect) (depth : Nat) (direction : Direction) (stage : Stage)
    (lead : String) (field : Field) (slot : Nat) : Request StageVariable :=
  if field.isFixedArray then
    throw (.unsupported (.arrayStageField field.name stage direction) .unknown)
  else do
    let type ← resolveType d depth field.type
    let name := d.correct field.name
    return { direction, stage, type, name := lead ++ name, field := some name, slot,
             semantic := field.semantic }

/-- The stage variables that carry fields, in order, with slots from `slot` on. -/
def interfaceVariables (d : Dialect) (depth : Nat) (direction : Direction) (stage : Stage)
    (lead : String) : (slot : Nat) → List Field → Request (List StageVariable)
  | _, [] => pure []
  | slot, field :: rest => do
    let first ← interfaceVariable d depth direction stage lead field slot
    let others ← interfaceVariables d depth direction stage lead (slot + 1) rest
    return first :: others

/-- The first field tagged as a position, and all fields but that one. -/
def clipPosition? : List Field → Option (Field × List Field)
  | [] => none
  | field :: rest =>
    if field.semantic = .position then some (field, rest)
    else (clipPosition? rest).map fun (position, others) => (position, field :: others)

/-- The warning about several fields tagged as positions. -/
def severalPositions (output : Structure) (position : Field) : Diagnostic :=
  ⟨.warning, s!"`{output.name}` has {output.positionFields.length} position fields; " ++
    s!"`{position.name}` is the clip-space output, the rest are ordinary outputs"⟩

/-- Warn about several fields tagged as positions. -/
def warnPositions (function : String) (output : Structure) (position : Field) : Request Unit :=
  if 1 < output.positionFields.length then do
    let warning := severalPositions output position
    Request.note ⟨.warn, s!"{function}: {warning.message}"⟩
    modify fun r => { r with diagnostics := r.diagnostics ++ [warning] }
  else pure ()

/-- Lay out the result of a vertex entry: a structure whose first position is the clip-space
position, and whose other fields are outputs. -/
def planVertex (d : Dialect) (depth : Nat) (f : Function) (layout : EntryLayout) :
    Request EntryLayout := do
  if (d.mapType f.returnType.name).isSome || f.returnType.isArray then
    throw (.invalidEntry f.name (.vertexResult f.returnType))
  let output ← requireStructure d depth f.returnType.name
  match clipPosition? output.fields with
  | none => throw (.missingPosition f.name output.name)
  | some (position, others) =>
    warnPositions f.name output position
    let outputs ← interfaceVariables d depth .output .vertex vertexOutputLead 0 others
    return { layout with
      outputType := d.structureTypeName f.returnType.name
      positionField := some (d.correct position.name)
      outputs }

/-- Lay out the result of a fragment entry: a vector of four components. -/
def planFragment (d : Dialect) (f : Function) (layout : EntryLayout) : Request EntryLayout :=
  match d.mapType f.returnType.name with
  | some type =>
    if d.mapType Host.vector4 = some type ∧ f.returnType.isArray = false then
      pure { layout with
        outputType := type
        outputs := [{ direction := .output, stage := .fragment, type, name := fragmentOutput,
                      field := none, slot := 0, semantic := .color }] }
    else throw (.invalidReturnType f.name f.returnType)
  | none => throw (.invalidReturnType f.name f.returnType)

/-- Lay out a compute entry: no parameters, and a workgroup without a zero extent. -/
def planCompute (d : Dialect) (depth : Nat) (f : Function) (layout : EntryLayout) :
    Request EntryLayout := do
  if !f.parameters.isEmpty then throw (.invalidEntry f.name .computeParameters)
  if f.workgroup.extents.contains 0 then throw (.invalidEntry f.name (.emptyWorkgroup f.workgroup))
  let outputType ← resolveType d depth f.returnType
  return { layout with outputType }

/-- Lay out a vertex or fragment entry: its one parameter is a structure, whose fields are the stage
inputs. -/
def planGraphics (d : Dialect) (depth : Nat) (f : Function) (stage : Stage)
    (result : EntryLayout → Request EntryLayout) (layout : EntryLayout) : Request EntryLayout :=
  match f.parameters with
  | [parameter] => do
    if (d.mapType parameter.type.name).isSome || parameter.type.isArray then
      throw (.invalidEntry f.name (.parameterType parameter))
    let input ← requireStructure d depth parameter.type.name
    let inputs ← interfaceVariables d depth .input stage "" 0 input.fields
    let layout ← result
      { layout with inputType := some (d.structureTypeName parameter.type.name), inputs }
    let layout := { layout with inputLocal := layout.freshLocal d "input" }
    return { layout with outputLocal := layout.freshLocal d "output" }
  | parameters => throw (.invalidEntry f.name (.parameterCount stage parameters.length))

/-- Check an entry function and lay out its stage interface. -/
def planEntry (d : Dialect) (depth : Nat) (f : Function) (stage : Stage) : Request EntryLayout :=
  let layout : EntryLayout := { stage, entry := d.correct f.name, workgroup := f.workgroup }
  match stage with
  | .compute => planCompute d depth f layout
  | .vertex => planGraphics d depth f .vertex (planVertex d depth f) layout
  | .fragment => planGraphics d depth f .fragment (planFragment d f) layout

end CrossShader

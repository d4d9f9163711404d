import CrossShader.Dialect.Basic

/-!
# The synthesized `main`

`main` gathers the stage inputs in a structure, calls the entry, and distributes its result over the
stage outputs.

* `mainSteps` — the program of `main`.
* `interfaceLines` — the declarations of the stage variables.
* `mainLines` — stage interface and `main` as lines.
-/

set_option autoImplicit false

namespace CrossShader

open Text

/-- Copy a stage input to its field. -/
def gatherStep? (d : Dialect) (owner : String) (v : StageVariable) : Option Step :=
  v.field.map fun field => .store (.member owner field) (d.access v)

/-- Copy a field of the result, or the whole result, to a stage output. -/
def scatterStep (d : Dialect) (owner : String) (v : StageVariable) : Step :=
  match v.field with
  | some field => .store (d.access v) (.member owner field)
  | none => .store (d.access v) (.whole owner)

/-- The call of the entry with everything that surrounds it. -/
def callSteps (d : Dialect) (layout : EntryLayout) : List Step :=
  match layout.inputType with
  | none => [.call layout.entry]
  | some inputType =>
    .declare inputType layout.inputLocal ::
      layout.inputs.filterMap (gatherStep? d layout.inputLocal) ++
      [.callInto layout.outputType layout.outputLocal layout.entry layout.inputLocal] ++
      layout.outputs.map (scatterStep d layout.outputLocal) ++
      layout.positionField.toList.map fun field =>
        .store d.positionTarget (.member layout.outputLocal field)

/-- The program of `main`. -/
def mainSteps (d : Dialect) (layout : EntryLayout) : List Step :=
  d.prologue layout ++ callSteps d layout ++ d.epilogue layout

/-- The declarations of the stage variables, and an empty line; compute entries have none. -/
def interfaceLines (d : Dialect) (layout : EntryLayout) : List Line :=
  match layout.stage with
  | .compute => []
  | .vertex | .fragment =>
    d.interfaceBegin .input layout ++ layout.inputs.flatMap d.stageVariable ++
      d.interfaceEnd .input layout ++
      d.interfaceBegin .output layout ++ layout.outputs.flatMap d.stageVariable ++
      (if layout.stage = .vertex then d.positionOutput layout else []) ++
      d.interfaceEnd .output layout ++ [.blank]

/-- The stage interface and `main`. -/
def mainLines (d : Dialect) (layout : EntryLayout) : List Line :=
  interfaceLines d layout ++ d.mainAttributes layout ++
    .flush (d.mainSignature layout) ::
      braced 0 ((mainSteps d layout).map fun step => .inner step.text)

end CrossShader

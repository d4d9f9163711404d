import CrossShader.Function
import CrossShader.Structure

/-!
# Stage interfaces

The data that connect an entry function to its pipeline stage.

* `StageVariable` — an input or output variable of a stage.
* `EntryLayout` — the stage variables of an entry and the shape of its call.
* `Place`, `Step` — the straight-line program that the synthesized `main` runs.
-/

set_option autoImplicit false

namespace CrossShader

/-- Which way a stage variable flows. -/
inductive Direction where
  | input
  | output
  deriving DecidableEq, Repr

/-- The direction's keyword. -/
def Direction.text : Direction → String
  | .input => "in"
  | .output => "out"

/-- An input or output variable of a stage. -/
structure StageVariable where
  direction : Direction
  /-- Stage of the entry that the variable belongs to. -/
  stage : Stage
  /-- Target type. -/
  type : String
  name : String
  /-- Target name of the structure field that the variable carries; none for the colour of a
  fragment, which is the whole result. -/
  field : Option String
  /-- Location, counted from zero in each direction. -/
  slot : Nat
  semantic : Semantic
  deriving DecidableEq, Repr

/-- The stage interface of an entry function and the shape of its call. -/
structure EntryLayout where
  stage : Stage
  /-- Target name of the entry function. -/
  entry : String
  /-- Target type of the input structure; compute entries have none. -/
  inputType : Option String := none
  /-- Target type of the entry's result. -/
  outputType : String := ""
  /-- Input variables in field order. -/
  inputs : List StageVariable := []
  /-- Output variables in field order, without the clip-space position. -/
  outputs : List StageVariable := []
  /-- Target name of the field that holds the clip-space position. -/
  positionField : Option String := none
  /-- Local of `main` that holds the assembled input. -/
  inputLocal : String := ""
  /-- Local of `main` that holds the entry's result. -/
  outputLocal : String := ""
  workgroup : Workgroup
  deriving DecidableEq, Repr

/-- A place that `main` reads or writes: a whole variable, or a member of one. -/
inductive Place where
  | whole (name : String)
  | member (owner field : String)
  deriving DecidableEq, Repr

/-- The text of a place. -/
def Place.text : Place → String
  | .whole name => name
  | .member owner field => s!"{owner}.{field}"

/-- A step of `main`. -/
inductive Step where
  /-- Declare a local. -/
  | declare (type name : String)
  /-- Copy one place to another. -/
  | store (target source : Place)
  /-- Call the entry on a local and declare a local with its result. -/
  | callInto (type result entry argument : String)
  /-- Call an entry without parameters. -/
  | call (entry : String)
  /-- Return a local. -/
  | ret (name : String)
  deriving DecidableEq, Repr

/-- The text of a step. -/
def Step.text : Step → String
  | .declare type name => s!"{type} {name};"
  | .store target source => s!"{target.text} = {source.text};"
  | .callInto type result entry argument => s!"{type} {result} = {entry}({argument});"
  | .call entry => s!"{entry}();"
  | .ret name => s!"return {name};"

end CrossShader

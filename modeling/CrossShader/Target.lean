import CrossShader.Dialect.Glsl
import CrossShader.Dialect.Hlsl
import CrossShader.Generation

/-!
# Targets

The built-in targets, registries of dialects, and batches of requests.

* `Target` — a built-in target; `Target.ofName?` knows its identifiers.
* `Registry` — dialects by target identifier; of several, the first one registered counts.
* `Program.generateBatch` — several requests on one program.
-/

set_option autoImplicit false

namespace CrossShader

/-- A built-in target. -/
inductive Target where
  | glslEs300
  | glsl330
  | glsl450
  | hlsl
  deriving DecidableEq, Repr

namespace Target

/-- All targets, in the order of their indices. -/
def all : List Target := [glslEs300, glsl330, glsl450, hlsl]

/-- The position of a target among all targets. -/
def index : Target → Nat
  | glslEs300 => 0
  | glsl330 => 1
  | glsl450 => 2
  | hlsl => 3

/-- The dialect of a target. -/
def dialect : Target → Dialect
  | glslEs300 => Glsl.dialect .es300
  | glsl330 => Glsl.dialect .core330
  | glsl450 => Glsl.dialect .core450
  | hlsl => Hlsl.dialect

/-- The primary identifier. -/
def text : Target → String
  | glslEs300 => "glsl-es300"
  | glsl330 => "glsl330"
  | glsl450 => "glsl450"
  | hlsl => "hlsl"

/-- The target of an identifier, primary or not. -/
def ofName? (name : String) : Option Target :=
  all.find? fun target => target.dialect.targets.contains name

end Target

/-- Dialects in the order of their registration. -/
structure Registry where
  dialects : List Dialect

namespace Registry

/-- The registry without dialects. -/
def empty : Registry := ⟨[]⟩

/-- The registry of the built-in targets. -/
def builtin : Registry := ⟨Target.all.map Target.dialect⟩

/-- One more dialect. -/
def register (r : Registry) (d : Dialect) : Registry := ⟨r.dialects ++ [d]⟩

/-- The first dialect that has a target identifier. -/
def find? (r : Registry) (target : String) : Option Dialect :=
  r.dialects.find? fun d => d.targets.contains target

/-- All target identifiers, in the order of registration. -/
def targets (r : Registry) : List String := r.dialects.flatMap (·.targets)

end Registry

/-- An entry function on a built-in target. -/
structure BatchItem where
  entry : String
  target : Target
  deriving DecidableEq, Repr

/-- The results of several requests, in order, and the program after them. -/
structure Batch where
  results : List (Except GenerationError Shader)
  program : Program

/-- Run requests on one program.  A request that fails does not affect the others, and no result
depends on the order of the requests. -/
def Program.generateBatch (p : Program) (symbols : Symbols) (options : Options) :
    List BatchItem → Batch
  | [] => ⟨[], p⟩
  | item :: rest =>
    let first := p.generate symbols item.target.dialect item.entry options
    let others := first.program.generateBatch symbols options rest
    ⟨first.result :: others.results, others.program⟩

end CrossShader

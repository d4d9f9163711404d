import CrossShader.Lowering.Stmt

/-!
# Lowering of functions

A function as target lines: signature, body, and an empty line.
-/

set_option autoImplicit false

namespace CrossShader

open Text

namespace Context

/-- A parameter of a target signature. -/
def parameter (c : Context) (function : String) (p : Parameter) : Except GenerationError String :=
  if p.type.isArray then .error (.unsupported (.arrayParameter p.name function) .unknown)
  else do
    let type ← c.mappedType p.type
    return s!"{type} {c.dialect.correct p.name}"

/-- The signature of a function. -/
def signature (c : Context) (f : Function) : Except GenerationError String :=
  if f.returnType.isArray then .error (.unsupported (.arrayReturn f.name) .unknown)
  else do
    let parameters ← f.parameters.mapM (c.parameter f.name)
    let type ← c.mappedType f.returnType
    return s!"{type} {callText (c.dialect.correct f.name) parameters}"

/-- The lines of a function in a shader of a stage. -/
def functionLines (c : Context) (stage : Stage) (f : Function) :
    Except GenerationError (List Line) := do
  let signature ← c.signature f
  let body ← (Scope.ofFunction c stage f).outlineAll f.body
  return .flush signature :: (braced 0 (Outline.linesAll 1 body) ++ [.blank])

end Context

end CrossShader

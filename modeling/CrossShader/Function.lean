import CrossShader.Roster
import CrossShader.Stmt

/-!
# Functions

Shader functions: signature, role and body.  Entry points belong to a pipeline stage; plain
functions are called from them.
-/

set_option autoImplicit false

namespace CrossShader

/-- A programmable pipeline stage. -/
inductive Stage where
  | vertex
  | fragment
  | compute
  deriving DecidableEq, Repr

/-- The stage in listings, messages and headers. -/
def Stage.text : Stage → String
  | .vertex => "vertex"
  | .fragment => "fragment"
  | .compute => "compute"

/-- The role of a function: a plain function, or the entry point of a stage. -/
inductive Role where
  | plain
  | entry (stage : Stage)
  deriving DecidableEq, Repr

namespace Role

/-- The role in listings. -/
def text : Role → String
  | plain => "function"
  | entry stage => stage.text

/-- The stage of an entry point. -/
def stage? : Role → Option Stage
  | plain => none
  | entry stage => some stage

/-- Whether the function is an entry point. -/
def isEntry (r : Role) : Bool := r.stage?.isSome

end Role

/-- A function parameter. -/
structure Parameter where
  name : String
  type : TypeRef
  deriving DecidableEq, Repr

/-- The extent of a compute workgroup along its three axes. -/
structure Workgroup where
  x : Nat := 1
  y : Nat := 1
  z : Nat := 1
  deriving DecidableEq, Repr

namespace Workgroup

/-- The extents in axis order. -/
def extents (w : Workgroup) : List Nat := [w.x, w.y, w.z]

/-- The extents in parentheses. -/
def text (w : Workgroup) : String := s!"({w.x}, {w.y}, {w.z})"

end Workgroup

/-- A shader function. -/
structure Function where
  name : String
  returnType : TypeRef
  role : Role
  parameters : List Parameter
  workgroup : Workgroup
  body : List Stmt

instance : Named Function := ⟨Function.name⟩

end CrossShader

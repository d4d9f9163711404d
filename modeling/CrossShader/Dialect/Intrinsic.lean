import CrossShader.Dialect.Table
import CrossShader.Host
import CrossShader.Resource
import CrossShader.Text.Phrase

/-!
# Intrinsics

Host library calls that a target has a form for.
-/

set_option autoImplicit false

namespace CrossShader

open Text

/-- A lowered argument of a library call. -/
structure Argument where
  text : String
  /-- Whether the text needs parentheses as an operand. -/
  compound : Bool := false
  /-- The kind of the resource, if the argument is a resource itself. -/
  resource : Option ResourceKind := none
  deriving DecidableEq, Repr

/-- The argument as an operand. -/
def Argument.operand (a : Argument) : String := parenthesize a.compound a.text

/-- The target's form of a library call. -/
inductive Intrinsic where
  /-- A function of the target with the same arguments in the same order. -/
  | rename (target : String)
  /-- Any other form; none if the arguments have none. -/
  | custom (form : List Argument → Option String)

/-- The form of a call with given arguments. -/
def Intrinsic.apply : Intrinsic → List Argument → Option String
  | .rename target, arguments => some (callText target (arguments.map (·.text)))
  | .custom form, arguments => form arguments

namespace Intrinsic

/-- The product of two arguments, in parentheses. -/
def product : Intrinsic := .custom fun
  | [a, b] => some s!"({a.operand} * {b.operand})"
  | _ => none

/-- Entries for a method of every vector type. -/
def onVectors (method : String) (i : Intrinsic) : List (String × Intrinsic) :=
  Host.vectors.map fun type => (s!"{type}.{method}", i)

/-- The entry of a method of the math library. -/
def onMath (method : String) (i : Intrinsic) : String × Intrinsic := (s!"{Host.math}.{method}", i)

/-- The entry of a shader builtin. -/
def onBuiltins (method : String) (i : Intrinsic) : String × Intrinsic :=
  (s!"{Host.builtins}.{method}", i)

end Intrinsic

end CrossShader

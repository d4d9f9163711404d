import CrossShader.Lowering.Context
import CrossShader.Traversal

/-!
# Scopes and host types

The body of one function and the host types of the expressions in it, as far as declarations alone
tell them.

* `Scope` — context, stage, and the declared types of parameters and locals.
* `Scope.hostType` — the host type of an expression.
* `Scope.isFloat` — whether an expression is known to be floating point.
-/

set_option autoImplicit false

namespace CrossShader

/-- The surroundings of a function body.  Of several declarations of a local, the latest in lexical
order counts for the whole body; `locals` has the latest first. -/
structure Scope where
  context : Context
  stage : Stage
  locals : List (String × TypeRef)

namespace Scope

/-- The scope of a function. -/
def ofFunction (c : Context) (stage : Stage) (f : Function) : Scope :=
  { context := c
    stage := stage
    locals := (f.parameters.map (fun p => (p.name, p.type)) ++ Block.declarations f.body).reverse }

/-- The dialect of the context. -/
def dialect (s : Scope) : Dialect := s.context.dialect

/-- The code of the context. -/
def code (s : Scope) : Code := s.context.code

/-- The host type of a literal. -/
def literalType : Literal → String
  | .bool _ => Host.bool
  | .int _ => Host.int
  | .uint _ => Host.uint
  | .float _ => Host.float

/-- The host type of a member: of a field, of a matrix component, or of a swizzle by its length. -/
def memberType (s : Scope) (declaringType name : String) : Option String :=
  match s.context.structure? declaringType with
  | some definition => (definition.field? name).map (·.type.name)
  | none =>
    if declaringType = Host.matrix4x4 then some Host.float
    else
      match name.utf8ByteSize with
      | 1 => some Host.float
      | 2 => some Host.vector2
      | 3 => some Host.vector3
      | 4 => some Host.vector4
      | _ => none

/-- The host type of an expression, where declarations tell it.  An operator has the type of its
first operand whose type is known. -/
def hostType (s : Scope) : Expr → Option String
  | .literal value => some (literalType value)
  | .localVar name => (s.locals.lookup name).map (·.name)
  | .resource name => (s.code.resource? name).bind fun r => r.valueType.map (·.name)
  | .member _ declaringType name => s.memberType declaringType.name name
  | .staticMember type _ => if type.name = Host.math then some Host.float else some type.name
  | .index base _ => s.hostType base
  | .unary _ operand => s.hostType operand
  | .binary _ left right => (s.hostType left).or (s.hostType right)
  | .conditional _ accept reject => (s.hostType accept).or (s.hostType reject)
  | .call function _ => (s.code.function? function).map (·.returnType.name)
  | .construct type _ => some type.name
  | .cast type _ => some type.name
termination_by structural e => e

/-- Whether an expression is known to be a floating-point scalar, vector or matrix. -/
def isFloat (s : Scope) (e : Expr) : Bool := (s.hostType e).any Host.isFloating

end Scope

end CrossShader

import CrossShader.Lowering.Scope

/-!
# Lowering of expressions

Expressions as target text.  Operands that are compound in the source stand in parentheses; spellings
come from the dialect.

* `Literal.lower` — literals; infinities and NaN have no form.
* `Scope.lower`, `Scope.lowerAll` — an expression, or the expressions of an argument list.
* `Scope.operand` — an expression as an operand.
-/

set_option autoImplicit false

namespace CrossShader

open Text

/-- The target text of a literal. -/
def Literal.lower (loc : Location) : Literal → Except GenerationError String
  | .bool value => .ok (toString value)
  | .int value => .ok (toString value)
  | .uint value => .ok s!"{value}u"
  | .float value =>
    if value.isFinite then .ok value.text
    else .error (.unsupported (.nonFinite value.text) loc)

namespace Scope

/-- How a body refers to a resource. -/
def lowerResource (s : Scope) (loc : Location) (name : String) : Except GenerationError String :=
  match s.code.resource? name with
  | some r => .ok (s.dialect.resourceReference r)
  | none => .error (.unsupported (.unknownResource name) loc)

/-- The target name of a member. -/
def lowerMember (s : Scope) (loc : Location) (declaringType name : String) :
    Except GenerationError String :=
  match s.context.structure? declaringType with
  | some definition =>
    match definition.field? name with
    | some field => .ok (s.dialect.correct field.name)
    | none => .error (.unsupported (.missingField definition.name name) loc)
  | none =>
    match s.dialect.mapMember declaringType name with
    | some target => .ok target
    | none => .error (.unsupported (.unknownMember declaringType name) loc)

/-- The target expression of a member of a type. -/
def lowerStatic (s : Scope) (loc : Location) (type name : String) :
    Except GenerationError String :=
  match s.dialect.identifiers.static? type name with
  | some target => .ok target
  | none => .error (.unsupported (.staticMember type name) loc)

/-- An argument expression with its lowered text, as a library call sees it. -/
def argument (s : Scope) (e : Expr) (text : String) : Argument :=
  { text := text
    compound := e.isCompound
    resource :=
      match e with
      | .resource name => (s.code.resource? name).map (·.kind)
      | _ => none }

/-- The text of a remainder; floating-point operands take the dialect's form. -/
def remainder (s : Scope) (left right : Expr) (leftText rightText : String) : String :=
  if s.isFloat left || s.isFloat right then s.dialect.floatRemainder leftText rightText
  else BinaryOp.modulo.apply leftText rightText

/-- A library call with lowered arguments. -/
def intrinsicCall (s : Scope) (loc : Location) (function : String) (form : Intrinsic)
    (arguments : List Argument) : Except GenerationError String :=
  Context.expect (form.apply arguments)
    (.callArguments function arguments.length s.dialect.name) loc

mutual
/-- The target text of an expression in a statement at `loc`. -/
def lower (s : Scope) (loc : Location) : Expr → Except GenerationError String
  | .literal value => value.lower loc
  | .localVar name => .ok (s.dialect.correct name)
  | .resource name => s.lowerResource loc name
  | .member base declaringType name => do
    let owner ← s.lower loc base
    let field ← s.lowerMember loc declaringType.name name
    return s!"{parenthesize base.isCompound owner}.{field}"
  | .staticMember type name => s.lowerStatic loc type.name name
  | .index base index => do
    let owner ← s.lower loc base
    let position ← s.lower loc index
    return s!"{parenthesize base.isCompound owner}[{position}]"
  | .unary op operand => do
    let text ← s.lower loc operand
    return op.apply (parenthesize operand.isCompound text)
  | .binary op left right => do
    let leftText := parenthesize left.isCompound (← s.lower loc left)
    let rightText := parenthesize right.isCompound (← s.lower loc right)
    match op with
    | .modulo => return s.remainder left right leftText rightText
    | _ => return op.apply leftText rightText
  | .conditional condition accept reject => do
    let c ← s.lower loc condition
    let a ← s.lower loc accept
    let r ← s.lower loc reject
    return conditionalText (parenthesize condition.isCompound c)
      (parenthesize accept.isCompound a) (parenthesize reject.isCompound r)
  | .call function arguments =>
    match s.code.function? function with
    | some _ => do
      let texts ← s.lowerAll loc arguments
      return callText (s.dialect.correct function) texts
    | none =>
      match s.dialect.intrinsics.get? function with
      | some form => do
        let texts ← s.lowerAll loc arguments
        s.intrinsicCall loc function form (List.zipWith s.argument arguments texts)
      | none => .error (.unsupported (.unknownCall function) loc)
  | .construct type [] => s.context.zeroValue loc type
  | .construct type (first :: rest) => do
    let mapped ← s.context.scalarType loc type
    let text ← s.lower loc first
    let texts ← s.lowerAll loc rest
    Context.expect
      (s.dialect.construct mapped (s.context.structure? type.name).isSome (text :: texts))
      (.construction type.name) loc
  | .cast type operand => do
    let mapped ← s.context.scalarType loc type
    let text ← s.lower loc operand
    Context.expect (s.dialect.construct mapped false [text]) (.conversion type.name) loc
termination_by structural e => e

/-- The target texts of several expressions, in order. -/
def lowerAll (s : Scope) (loc : Location) : List Expr → Except GenerationError (List String)
  | [] => .ok []
  | e :: rest => do
    let text ← s.lower loc e
    let texts ← s.lowerAll loc rest
    return text :: texts
termination_by structural es => es
end

/-- The target text of an expression as an operand. -/
def operand (s : Scope) (loc : Location) (e : Expr) : Except GenerationError String := do
  return parenthesize e.isCompound (← s.lower loc e)

end Scope

end CrossShader

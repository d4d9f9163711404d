import CrossShader.Decimal.Notation
import CrossShader.Text.Phrase
import CrossShader.TypeRef

/-!
# Expressions

Host expressions as they occur in shader functions.

* `Literal`, `UnaryOp`, `BinaryOp` — leaves and operators, with their tokens.
* `Expr` — expression trees.
* `Expr.isCompound` — whether an expression needs parentheses as an operand; negative literals do,
  since their text starts with a sign.
* `Expr.text` — host-like text with every compound operand in parentheses.
-/

set_option autoImplicit false

namespace CrossShader

open Text

/-- A literal value. -/
inductive Literal where
  | bool (value : Bool)
  | int (value : Int)
  | uint (value : Nat)
  | float (value : Single)
  deriving DecidableEq, Repr

namespace Literal

/-- The literal in listings; numbers other than plain integers carry their kind's letter. -/
def text : Literal → String
  | bool value => toString value
  | int value => toString value
  | uint value => s!"{value}u"
  | float value => s!"{value.text}f"

/-- Whether the literal's text starts with a sign; a negative NaN counts as well. -/
def isNegative : Literal → Bool
  | int value => decide (value < 0)
  | float value => value.isNegative
  | bool _ | uint _ => false

end Literal

/-- Operators with one operand. -/
inductive UnaryOp where
  | negate
  | logicalNot
  | bitwiseNot
  | preIncrement
  | preDecrement
  | postIncrement
  | postDecrement
  deriving DecidableEq, Repr

namespace UnaryOp

/-- The operator's token. -/
def token : UnaryOp → String
  | negate => "-"
  | logicalNot => "!"
  | bitwiseNot => "~"
  | preIncrement | postIncrement => "++"
  | preDecrement | postDecrement => "--"

/-- Whether the token follows its operand. -/
def followsOperand : UnaryOp → Bool
  | postIncrement | postDecrement => true
  | negate | logicalNot | bitwiseNot | preIncrement | preDecrement => false

/-- The operator applied to an operand's text. -/
def apply (op : UnaryOp) (operand : String) : String :=
  if op.followsOperand then operand ++ op.token else op.token ++ operand

end UnaryOp

/-- Operators with two operands. -/
inductive BinaryOp where
  | add
  | subtract
  | multiply
  | divide
  | modulo
  | equal
  | notEqual
  | less
  | lessEqual
  | greater
  | greaterEqual
  | logicalAnd
  | logicalOr
  | bitwiseAnd
  | bitwiseOr
  | bitwiseXor
  | shiftLeft
  | shiftRight
  deriving DecidableEq, Repr

namespace BinaryOp

/-- The operator's token. -/
def token : BinaryOp → String
  | add => "+"
  | subtract => "-"
  | multiply => "*"
  | divide => "/"
  | modulo => "%"
  | equal => "=="
  | notEqual => "!="
  | less => "<"
  | lessEqual => "<="
  | greater => ">"
  | greaterEqual => ">="
  | logicalAnd => "&&"
  | logicalOr => "||"
  | bitwiseAnd => "&"
  | bitwiseOr => "|"
  | bitwiseXor => "^"
  | shiftLeft => "<<"
  | shiftRight => ">>"

/-- The operator between two operands' texts. -/
def apply (op : BinaryOp) (left right : String) : String :=
  s!"{left} {op.token} {right}"

end BinaryOp

/-- An expression tree. -/
inductive Expr where
  /-- A literal. -/
  | literal (value : Literal)
  /-- A parameter or local variable. -/
  | localVar (name : String)
  /-- A module resource. -/
  | resource (name : String)
  /-- A member of a value whose type declares it. -/
  | member (base : Expr) (declaringType : TypeRef) (name : String)
  /-- A member of a type. -/
  | staticMember (type : TypeRef) (name : String)
  /-- An element of an array, buffer or vector. -/
  | index (base index : Expr)
  | unary (op : UnaryOp) (operand : Expr)
  | binary (op : BinaryOp) (left right : Expr)
  | conditional (condition accept reject : Expr)
  /-- A call of a program function or a library function, by name. -/
  | call (function : String) (arguments : List Expr)
  /-- A new value of a type; without arguments, its default value. -/
  | construct (type : TypeRef) (arguments : List Expr)
  | cast (type : TypeRef) (operand : Expr)
  deriving Repr

namespace Expr

/-- Whether the expression needs parentheses as an operand. -/
def isCompound : Expr → Bool
  | literal value => value.isNegative
  | unary .. | binary .. | conditional .. | cast .. => true
  | localVar _ | resource _ | member .. | staticMember .. | index .. | call .. | construct .. => false

mutual
/-- Host-like text of an expression. -/
def text : Expr → String
  | literal value => value.text
  | localVar name => name
  | resource name => s!"@{name}"
  | member base _ name => s!"{parenthesize base.isCompound (text base)}.{name}"
  | staticMember type name => s!"{type.text}.{name}"
  | index base i => s!"{parenthesize base.isCompound (text base)}[{text i}]"
  | unary op operand => op.apply (parenthesize operand.isCompound (text operand))
  | binary op left right =>
    op.apply (parenthesize left.isCompound (text left)) (parenthesize right.isCompound (text right))
  | conditional c a r =>
    conditionalText (parenthesize c.isCompound (text c)) (parenthesize a.isCompound (text a))
      (parenthesize r.isCompound (text r))
  | call function arguments => callText function (texts arguments)
  | construct type arguments => s!"new {callText type.text (texts arguments)}"
  | cast type operand => s!"({type.text}){parenthesize operand.isCompound (text operand)}"
termination_by structural e => e

/-- Host-like texts of several expressions. -/
def texts : List Expr → List String
  | [] => []
  | e :: es => text e :: texts es
termination_by structural es => es
end

end Expr

end CrossShader

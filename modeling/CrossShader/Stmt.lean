import CrossShader.Expr

/-!
# Statements

Host statements of shader functions, each with its source location.

* `Location` — line and column; both zero where the position is unknown.
* `AssignOp` — assignment operators.
* `Stmt`, `SwitchCase` — statement trees.
-/

set_option autoImplicit false

namespace CrossShader

/-- A source position; line and column zero stand for an unknown one. -/
structure Location where
  line : Nat
  column : Nat
  deriving DecidableEq, Repr

namespace Location

/-- The unknown position. -/
def unknown : Location := ⟨0, 0⟩

/-- Line and column, or a word for the unknown position. -/
def text (l : Location) : String :=
  if l = unknown then "<unknown>" else s!"{l.line}:{l.column}"

end Location

/-- Assignment operators. -/
inductive AssignOp where
  | assign
  | add
  | subtract
  | multiply
  | divide
  | modulo
  | bitwiseAnd
  | bitwiseOr
  | bitwiseXor
  | shiftLeft
  | shiftRight
  deriving DecidableEq, Repr

/-- The operator's token. -/
def AssignOp.token : AssignOp → String
  | .assign => "="
  | .add => "+="
  | .subtract => "-="
  | .multiply => "*="
  | .divide => "/="
  | .modulo => "%="
  | .bitwiseAnd => "&="
  | .bitwiseOr => "|="
  | .bitwiseXor => "^="
  | .shiftLeft => "<<="
  | .shiftRight => ">>="

mutual
/-- A statement; `loc` is its position in the source. -/
inductive Stmt where
  | block (loc : Location) (body : List Stmt)
  /-- A local variable; `count` is its fixed element count, zero for a single value. -/
  | declare (loc : Location) (name : String) (type : TypeRef) (count : Nat) (value : Option Expr)
  | eval (loc : Location) (expr : Expr)
  | assign (loc : Location) (target : Expr) (op : AssignOp) (value : Expr)
  | ifElse (loc : Location) (condition : Expr) (accept reject : List Stmt)
  | forLoop (loc : Location) (start : Option Stmt) (condition : Option Expr) (step body : List Stmt)
  | whileLoop (loc : Location) (condition : Expr) (body : List Stmt)
  | doWhile (loc : Location) (body : List Stmt) (condition : Expr)
  | switch (loc : Location) (selector : Expr) (cases : List SwitchCase)
  | foreach (loc : Location) (item : String) (type : TypeRef) (collection : Expr)
      (body : List Stmt)
  | breakLoop (loc : Location)
  | continueLoop (loc : Location)
  | ret (loc : Location) (value : Option Expr)
  | discard (loc : Location)

/-- A case of a switch: its labels, whether it is also the default case, and its body. -/
inductive SwitchCase where
  | mk (labels : List Literal) (isDefault : Bool) (body : List Stmt)
end

namespace Stmt

/-- The position of a statement. -/
def location : Stmt → Location
  | block loc .. | declare loc .. | eval loc .. | assign loc .. | ifElse loc .. | forLoop loc ..
  | whileLoop loc .. | doWhile loc .. | switch loc .. | foreach loc .. | breakLoop loc
  | continueLoop loc | ret loc .. | discard loc => loc

end Stmt

end CrossShader

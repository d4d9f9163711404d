import CrossShader.Lowering.Expr
import CrossShader.Lowering.Outline

/-!
# Lowering of statements

Statements as outlines.  Parts are lowered in the order in which they are written, so the error of a
block is that of its first part that has no form: a `do` condition comes after its body, and the
labels of a case come just before the body of that case.

* `Scope.simple` — statements that may also stand in a `for` header.
* `Literal.lowerLabel` — labels of cases; only integers are labels.
* `Scope.outline`, `Scope.outlineAll` — a statement, or a block.
-/

set_option autoImplicit false

namespace CrossShader

open Text

/-- The target text of a case label. -/
def Literal.lowerLabel (loc : Location) : Literal → Except GenerationError String
  | .int value => .ok (toString value)
  | .uint value => .ok s!"{value}u"
  | .bool _ | .float _ => .error (.unsupported .switchLabel loc)

namespace Scope

/-- The target text of a declaration without its start value. -/
def declarator (s : Scope) (loc : Location) (name : String) (type : TypeRef) (count : Nat) :
    Except GenerationError String :=
  if type.isArray then .error (.unsupported (.unsizedArray name) loc)
  else do
    let mapped ← s.context.mappedType type
    return s!"{mapped} {s.dialect.correct name}{countSuffix count}"

/-- The target text of an assignment.  A floating-point remainder is assigned in full. -/
def assignment (s : Scope) (loc : Location) (target : Expr) (op : AssignOp) (value : Expr) :
    Except GenerationError String := do
  let targetText ← s.lower loc target
  let valueText ← s.lower loc value
  if op = .modulo ∧ (s.isFloat target || s.isFloat value) then
    let remainder := s.dialect.floatRemainder (parenthesize target.isCompound targetText)
      (parenthesize value.isCompound valueText)
    return s!"{targetText} = {remainder}"
  else return s!"{targetText} {op.token} {valueText}"

/-- The target text of a statement that may stand in a `for` header, without its semicolon. -/
def simple (s : Scope) : Stmt → Except GenerationError String
  | .declare loc name type count none => s.declarator loc name type count
  | .declare loc name type count (some value) => do
    let declared ← s.declarator loc name type count
    let text ← s.lower loc value
    return s!"{declared} = {text}"
  | .eval loc e => s.lower loc e
  | .assign loc target op value => s.assignment loc target op value
  | other => .error (.unsupported .loopHeader other.location)

/-- The target text of an optional part of a `for` header; a missing part is empty. -/
def optional {α : Type} (part : Option α) (text : α → Except GenerationError String) :
    Except GenerationError String :=
  match part with
  | none => .ok ""
  | some value => text value

mutual
/-- The outline of a statement. -/
def outline (s : Scope) : Stmt → Except GenerationError Outline
  | .block _ body => do
    let inner ← s.outlineAll body
    return .block inner
  | .declare loc name type count value => do
    let text ← s.simple (.declare loc name type count value)
    return .simple text
  | .eval loc e => do
    let text ← s.simple (.eval loc e)
    return .simple text
  | .assign loc target op value => do
    let text ← s.simple (.assign loc target op value)
    return .simple text
  | .ifElse loc condition accept reject => do
    let text ← s.lower loc condition
    let accepted ← s.outlineAll accept
    let rejected ← s.outlineAll reject
    return .ifElse text accepted rejected
  | .forLoop loc start condition step body => do
    let startText ← optional start s.simple
    let conditionText ← optional condition (s.lower loc)
    let stepTexts ← step.mapM s.simple
    let inner ← s.outlineAll body
    return .forLoop startText conditionText (String.intercalate ", " stepTexts) inner
  | .whileLoop loc condition body => do
    let text ← s.lower loc condition
    let inner ← s.outlineAll body
    return .whileLoop text inner
  | .doWhile loc body condition => do
    let inner ← s.outlineAll body
    let text ← s.lower loc condition
    return .doWhile inner text
  | .switch loc selector cases => do
    let text ← s.lower loc selector
    let lowered ← s.outlineCases loc cases
    return .switch text lowered
  | .foreach loc _ _ _ _ => .error (.unsupported .foreachLoop loc)
  | .breakLoop _ => .ok .breakLoop
  | .continueLoop _ => .ok .continueLoop
  | .ret _ none => .ok (.ret none)
  | .ret loc (some value) => do
    let text ← s.lower loc value
    return .ret (some text)
  | .discard loc =>
    if s.stage = .fragment then .ok .discard
    else .error (.unsupported (.discardIn s.stage) loc)
termination_by structural stmt => stmt

/-- The outlines of a block. -/
def outlineAll (s : Scope) : List Stmt → Except GenerationError (List Outline)
  | [] => .ok []
  | stmt :: rest => do
    let first ← s.outline stmt
    let others ← s.outlineAll rest
    return first :: others
termination_by structural body => body

/-- The outlines of the cases of a switch at `loc`. -/
def outlineCases (s : Scope) (loc : Location) :
    List SwitchCase → Except GenerationError (List OutlineCase)
  | [] => .ok []
  | .mk labels isDefault body :: rest => do
    let texts ← labels.mapM (Literal.lowerLabel loc)
    let inner ← s.outlineAll body
    let others ← s.outlineCases loc rest
    return .mk texts isDefault inner :: others
termination_by structural cases => cases
end

end Scope

end CrossShader

import CrossShader.Proofs.Reader.Token

/-!
# The expression grammar

The grammar of expressions that the C-like targets share, over tokens.

* `Tree` — what an expression text says, with the parentheses gone.
* `level` — how tightly binary operators bind, from `||` to `*`.
* `Rank` — the kinds of phrases: expressions, operands of each level, phrases with suffixes, open calls
  and primaries.
* `Derives` — the rules.
-/

set_option autoImplicit false

namespace CrossShader.Reader

/-- The tree of an expression text. -/
inductive Tree where
  | name (name : String)
  | bool (value : Bool)
  /-- A number by its spelling. -/
  | number (spelling : String)
  | unary (op : UnaryOp) (operand : Tree)
  /-- The operand after a plus sign. -/
  | positive (operand : Tree)
  | binary (op : BinaryOp) (left right : Tree)
  | conditional (condition accept reject : Tree)
  | member (base : Tree) (name : String)
  | index (base index : Tree)
  | call (function : Tree) (arguments : List Tree)
  deriving Repr

/-- How tightly an operator binds. -/
def level : BinaryOp → Nat
  | .logicalOr => 1
  | .logicalAnd => 2
  | .bitwiseOr => 3
  | .bitwiseXor => 4
  | .bitwiseAnd => 5
  | .equal | .notEqual => 6
  | .less | .lessEqual | .greater | .greaterEqual => 7
  | .shiftLeft | .shiftRight => 8
  | .add | .subtract => 9
  | .multiply | .divide | .modulo => 10

/-- The level of operands without binary operators. -/
def unaryLevel : Nat := 11

theorem one_le_level (op : BinaryOp) : 1 ≤ level op := by cases op <;> decide

theorem level_lt_unaryLevel (op : BinaryOp) : level op < unaryLevel := by cases op <;> decide

namespace Mark

/-- The operator of a mark between two operands. -/
def binary? : Mark → Option BinaryOp
  | plus => some .add
  | minus => some .subtract
  | star => some .multiply
  | slash => some .divide
  | percent => some .modulo
  | equal => some .equal
  | notEqual => some .notEqual
  | less => some .less
  | lessEqual => some .lessEqual
  | greater => some .greater
  | greaterEqual => some .greaterEqual
  | doubleAmpersand => some .logicalAnd
  | doubleBar => some .logicalOr
  | ampersand => some .bitwiseAnd
  | bar => some .bitwiseOr
  | caret => some .bitwiseXor
  | shiftLeft => some .shiftLeft
  | shiftRight => some .shiftRight
  | _ => none

/-- The operator of a mark before its operand. -/
def leading? : Mark → Option (Tree → Tree)
  | plus => some .positive
  | minus => some (.unary .negate)
  | exclamation => some (.unary .logicalNot)
  | tilde => some (.unary .bitwiseNot)
  | increment => some (.unary .preIncrement)
  | decrement => some (.unary .preDecrement)
  | _ => none

/-- The operator of a mark after its operand. -/
def trailing? : Mark → Option UnaryOp
  | increment => some .postIncrement
  | decrement => some .postDecrement
  | _ => none

end Mark

/-- The tree of a word: a truth value or a name. -/
def wordTree (w : List Char) : Tree :=
  if w = ['t', 'r', 'u', 'e'] then .bool true
  else if w = ['f', 'a', 'l', 's', 'e'] then .bool false
  else .name (String.ofList w)

/-- The kinds of phrases. -/
inductive Rank where
  | expression
  /-- Operands whose operators bind at least as tightly as the level. -/
  | operand (level : Nat)
  /-- A primary with any suffixes. -/
  | suffixed
  /-- A call whose list of arguments has not ended. -/
  | openCall
  | primary
  deriving DecidableEq, Repr

/-- The rules of the grammar: a phrase of a rank consists of the given tokens and stands for a tree. -/
inductive Derives : Rank → List Token → Tree → Prop
  | word (w : List Char) : Derives .primary [.word w] (wordTree w)
  | number (w : List Char) : Derives .primary [.number w] (.number (String.ofList w))
  | group {ts : List Token} {t : Tree} : Derives .expression ts t →
      Derives .primary (.mark .openParen :: ts ++ [.mark .closeParen]) t
  | ofPrimary {ts : List Token} {t : Tree} : Derives .primary ts t → Derives .suffixed ts t
  | member {ts : List Token} {t : Tree} (w : List Char) : Derives .suffixed ts t →
      Derives .suffixed (ts ++ [.mark .dot, .word w]) (.member t (String.ofList w))
  | index {ts us : List Token} {t i : Tree} : Derives .suffixed ts t → Derives .expression us i →
      Derives .suffixed (ts ++ .mark .openBracket :: us ++ [.mark .closeBracket]) (.index t i)
  | trailing {ts : List Token} {t : Tree} {m : Mark} {op : UnaryOp} : m.trailing? = some op →
      Derives .suffixed ts t → Derives .suffixed (ts ++ [.mark m]) (.unary op t)
  | emptyCall {ts : List Token} {f : Tree} : Derives .suffixed ts f →
      Derives .suffixed (ts ++ [.mark .openParen, .mark .closeParen]) (.call f [])
  | firstArgument {ts us : List Token} {f a : Tree} : Derives .suffixed ts f →
      Derives .expression us a → Derives .openCall (ts ++ .mark .openParen :: us) (.call f [a])
  | nextArgument {ts us : List Token} {f a : Tree} {arguments : List Tree} :
      Derives .openCall ts (.call f arguments) → Derives .expression us a →
      Derives .openCall (ts ++ .mark .comma :: us) (.call f (arguments ++ [a]))
  | closedCall {ts : List Token} {t : Tree} : Derives .openCall ts t →
      Derives .suffixed (ts ++ [.mark .closeParen]) t
  | ofSuffixed {ts : List Token} {t : Tree} : Derives .suffixed ts t →
      Derives (.operand unaryLevel) ts t
  | leading {ts : List Token} {t : Tree} {m : Mark} {op : Tree → Tree} : m.leading? = some op →
      Derives (.operand unaryLevel) ts t → Derives (.operand unaryLevel) (.mark m :: ts) (op t)
  | lift {n : Nat} {ts : List Token} {t : Tree} : n < unaryLevel →
      Derives (.operand (n + 1)) ts t → Derives (.operand n) ts t
  | binary {ts us : List Token} {left right : Tree} {m : Mark} {op : BinaryOp} :
      m.binary? = some op → Derives (.operand (level op)) ts left →
      Derives (.operand (level op + 1)) us right →
      Derives (.operand (level op)) (ts ++ .mark m :: us) (.binary op left right)
  | ofOperand {ts : List Token} {t : Tree} : Derives (.operand 1) ts t → Derives .expression ts t
  | conditional {ts us vs : List Token} {c a r : Tree} : Derives (.operand 1) ts c →
      Derives .expression us a → Derives .expression vs r →
      Derives .expression (ts ++ .mark .question :: us ++ .mark .colon :: vs) (.conditional c a r)

namespace Derives

theorem ne_nil {r : Rank} {ts : List Token} {t : Tree} (h : Derives r ts t) : ts ≠ [] := by
  induction h with
  | ofPrimary _ ih | ofSuffixed _ ih | lift _ _ ih | ofOperand _ ih => exact ih
  | _ => simp

theorem head?_append {ts us : List Token} (h : ts ≠ []) : (ts ++ us).head? = ts.head? := by
  cases ts with
  | nil => exact absurd rfl h
  | cons t ts => rfl

/-- The tokens that a phrase without leading operators may start with. -/
def startsPrimary : Token → Bool
  | .word _ | .number _ | .mark .openParen => true
  | .mark _ => false

theorem head?_suffixed {r : Rank} {ts : List Token} {t : Tree} (h : Derives r ts t)
    (hr : r = .primary ∨ r = .suffixed ∨ r = .openCall) : ts.head?.any startsPrimary = true := by
  induction h with
  | word | number | group => rfl
  | ofPrimary _ ih => exact ih (.inl rfl)
  | member _ h ih | trailing _ h ih | emptyCall h ih | firstArgument h _ ih _ =>
    rw [head?_append h.ne_nil]
    exact ih (.inr (.inl rfl))
  | index h _ ih _ =>
    rw [List.append_assoc, head?_append h.ne_nil]
    exact ih (.inr (.inl rfl))
  | nextArgument h _ ih _ | closedCall h ih =>
    rw [head?_append h.ne_nil]
    exact ih (.inr (.inr rfl))
  | _ => simp at hr

theorem head?_ne_close {r : Rank} {ts : List Token} {t : Tree} (h : Derives r ts t) :
    ts.head? ≠ some (.mark .closeParen) := by
  induction h with
  | ofPrimary _ ih | ofSuffixed _ ih | lift _ _ ih | ofOperand _ ih => exact ih
  | member _ h ih | trailing _ h ih | emptyCall h ih | firstArgument h _ ih _
  | nextArgument h _ ih _ | closedCall h ih | binary _ h _ ih _ =>
    rwa [head?_append h.ne_nil]
  | index h _ ih _ | conditional h _ _ ih _ _ =>
    rwa [List.append_assoc, head?_append h.ne_nil]
  | @leading _ _ m _ hop _ _ =>
    intro heq
    cases heq
    cases hop
  | _ => simp

theorem exists_call {ts : List Token} {t : Tree} (h : Derives .openCall ts t) :
    ∃ f done, t = .call f done := by
  cases h with
  | firstArgument => exact ⟨_, _, rfl⟩
  | nextArgument => exact ⟨_, _, rfl⟩

end Derives

end CrossShader.Reader

import CrossShader.Stmt
import Mathlib.Data.List.Basic

/-!
# Tokens

The lexical rules that the C-like targets share.  A token goes on as long as the next character can
belong to it; blanks only separate.

* `Mark` — operators, brackets and separators; `Mark.extend?` — the marks that start with another one.
* `Token` — words, numbers and marks; a number is read as far as letters, digits and points go, and has
  to have the form of a constant then.
* `tokens` — the tokens of a text.
* `tokens_append` — texts can be read piece by piece if no token goes on across a border.
-/

set_option autoImplicit false

namespace CrossShader.Reader

/-- Operators, brackets and separators. -/
inductive Mark where
  | plus | minus | star | slash | percent
  | increment | decrement
  | less | greater | lessEqual | greaterEqual | equal | notEqual
  | shiftLeft | shiftRight
  | exclamation | tilde | ampersand | bar | caret
  | doubleAmpersand | doubleBar | doubleCaret
  | question | colon | comma | dot | arrow
  | openParen | closeParen | openBracket | closeBracket
  | assign (op : AssignOp)
  deriving DecidableEq, Repr

namespace Mark

/-- The mark that consists of one character. -/
def ofChar? : Char → Option Mark
  | '+' => some plus
  | '-' => some minus
  | '*' => some star
  | '/' => some slash
  | '%' => some percent
  | '<' => some less
  | '>' => some greater
  | '=' => some (assign .assign)
  | '!' => some exclamation
  | '~' => some tilde
  | '&' => some ampersand
  | '|' => some bar
  | '^' => some caret
  | '?' => some question
  | ':' => some colon
  | ',' => some comma
  | '.' => some dot
  | '(' => some openParen
  | ')' => some closeParen
  | '[' => some openBracket
  | ']' => some closeBracket
  | _ => none

/-- The mark that another one becomes with one more character. -/
def extend? : Mark → Char → Option Mark
  | plus, '+' => some increment
  | plus, '=' => some (assign .add)
  | minus, '-' => some decrement
  | minus, '=' => some (assign .subtract)
  | minus, '>' => some arrow
  | star, '=' => some (assign .multiply)
  | slash, '=' => some (assign .divide)
  | percent, '=' => some (assign .modulo)
  | less, '<' => some shiftLeft
  | less, '=' => some lessEqual
  | greater, '>' => some shiftRight
  | greater, '=' => some greaterEqual
  | shiftLeft, '=' => some (assign .shiftLeft)
  | shiftRight, '=' => some (assign .shiftRight)
  | assign .assign, '=' => some equal
  | exclamation, '=' => some notEqual
  | ampersand, '&' => some doubleAmpersand
  | ampersand, '=' => some (assign .bitwiseAnd)
  | bar, '|' => some doubleBar
  | bar, '=' => some (assign .bitwiseOr)
  | caret, '^' => some doubleCaret
  | caret, '=' => some (assign .bitwiseXor)
  | _, _ => none

end Mark

/-- Characters that a word may start with. -/
def isWordStart (c : Char) : Bool := c.isAlpha || c == '_'

/-- Characters that a word may go on with. -/
def isWordChar (c : Char) : Bool := c.isAlphanum || c == '_'

/-! ## Numbers -/

/-- What may follow the digits of a floating-point constant. -/
def isFloatSuffix : List Char → Bool
  | [] | ['f'] | ['F'] => true
  | _ => false

/-- One or more digits, and what may follow them. -/
def isExponentDigits (cs : List Char) : Bool :=
  !(cs.takeWhile Char.isDigit).isEmpty && isFloatSuffix (cs.dropWhile Char.isDigit)

/-- The exponent of a constant, with what may follow it. -/
def isExponent : List Char → Bool
  | 'e' :: '+' :: cs | 'e' :: '-' :: cs | 'E' :: '+' :: cs | 'E' :: '-' :: cs => isExponentDigits cs
  | 'e' :: cs | 'E' :: cs => isExponentDigits cs
  | _ => false

/-- What may follow the leading digits of a constant, given whether there are any. -/
def isNumberTail (leading : Bool) : List Char → Bool
  | [] | ['u'] | ['U'] => leading
  | '.' :: cs =>
    (leading || !(cs.takeWhile Char.isDigit).isEmpty) &&
      (isFloatSuffix (cs.dropWhile Char.isDigit) || isExponent (cs.dropWhile Char.isDigit))
  | cs => leading && isExponent cs

/-- The decimal constants: integers, unsigned integers and floating-point numbers. -/
def isNumber (cs : List Char) : Bool :=
  isNumberTail (!(cs.takeWhile Char.isDigit).isEmpty) (cs.dropWhile Char.isDigit)

/-- Whether a number may go on with a character; a sign only stands after the letter of an exponent. -/
def extendsNumber (cs : List Char) (c : Char) : Bool :=
  isWordChar c || c == '.' || (c == '+' || c == '-') && (cs.getLast? == some 'e' || cs.getLast? == some 'E')

/-! ## Tokens -/

/-- Words, numbers and marks. -/
inductive Token where
  | word (letters : List Char)
  | number (digits : List Char)
  | mark (m : Mark)
  deriving DecidableEq, Repr

namespace Token

/-- The token that starts with a character. -/
def ofChar? (c : Char) : Option Token :=
  if isWordStart c then some (word [c])
  else if c.isDigit then some (number [c])
  else (Mark.ofChar? c).map mark

/-- The token that another one becomes with one more character.  A point before a digit starts a
number. -/
def extend? : Token → Char → Option Token
  | word w, c => if isWordChar c then some (word (w ++ [c])) else none
  | number w, c => if extendsNumber w c then some (number (w ++ [c])) else none
  | mark m, c =>
    if m = .dot ∧ c.isDigit then some (number ['.', c]) else (m.extend? c).map mark

/-- Whether a token that has ended has the form of one. -/
def isComplete : Token → Bool
  | word _ | mark _ => true
  | number w => isNumber w

end Token

/-- The token that has ended, if there is one. -/
def finished : Option Token → Option (List Token)
  | none => some []
  | some t => if t.isComplete then some [t] else none

/-- What a character starts after the end of a token: nothing if it is a blank. -/
def started (c : Char) : Option (Option Token) :=
  if c.isWhitespace then some none else (Token.ofChar? c).map some

/-- The tokens of a text, given the token that the text may go on with. -/
def scan : Option Token → List Char → Option (List Token)
  | current, [] => finished current
  | current, c :: cs =>
    match current.bind (·.extend? c) with
    | some longer => scan (some longer) cs
    | none =>
      match finished current, started c with
      | some done, some next => (scan next cs).map (done ++ ·)
      | _, _ => none

/-- The tokens of a text. -/
def tokens (text : String) : Option (List Token) := scan none text.toList

/-- No token goes on across the border between a list of tokens and what follows them. -/
def Apart (ts : List Token) (cs : List Char) : Prop :=
  ∀ t ∈ ts.getLast?, ∀ c ∈ cs.head?, t.extend? c = none

theorem Apart.of_append {ts us : List Token} {cs : List Char} (h : Apart (ts ++ us) cs) :
    Apart us cs := by
  intro t ht c hc
  refine h t ?_ c hc
  rw [Option.mem_def] at ht
  rw [Option.mem_def, List.getLast?_append, ht, Option.some_or]

theorem finished_some {t : Token} {done : List Token} (h : finished (some t) = some done) :
    t.isComplete = true ∧ done = [t] := by
  simp only [finished] at h
  split at h
  · rename_i hcomplete
    exact ⟨hcomplete, (Option.some.inj h).symm⟩
  · cases h

/-- What one character does: the token goes on with it, or has ended before it. -/
theorem scan_cons_iff {current : Option Token} {c : Char} {cs : List Char} {ts : List Token} :
    scan current (c :: cs) = some ts ↔
      (∃ longer, current.bind (·.extend? c) = some longer ∧ scan (some longer) cs = some ts) ∨
      current.bind (·.extend? c) = none ∧ ∃ done next later, finished current = some done ∧
        started c = some next ∧ scan next cs = some later ∧ ts = done ++ later := by
  rw [scan]
  cases current.bind (·.extend? c) with
  | some longer => simp
  | none =>
    cases finished current with
    | none => simp
    | some done =>
      cases started c with
      | none => simp
      | some next => simp [@eq_comm _ ts]

theorem scan_append {cs : List Char} {current : Option Token} {ts : List Token} {rest : List Char}
    (h : scan current cs = some ts) (hapart : Apart ts rest) :
    scan current (cs ++ rest) = (scan none rest).map (ts ++ ·) := by
  induction cs generalizing current ts with
  | nil =>
    cases current with
    | none =>
      cases h
      simp
    | some t =>
      obtain ⟨hc, rfl⟩ := finished_some h
      cases rest with
      | nil => simp [scan, finished, hc]
      | cons c rest =>
        have hstop : t.extend? c = none := hapart t (by simp) c (by simp)
        simp only [List.nil_append, scan, Option.bind_some, hstop, finished, hc, if_true,
          Option.bind_none]
        cases started c with
        | none => rfl
        | some next => simp
  | cons c cs ih =>
    rw [List.cons_append, scan]
    obtain ⟨longer, hlonger, h⟩ | ⟨hstop, done, next, later, hdone, hnext, hlater, rfl⟩ :=
      scan_cons_iff.1 h
    · rw [hlonger]
      exact ih h hapart
    · simp only [hstop, hdone, hnext]
      rw [ih hlater hapart.of_append, Option.map_map]
      congr 1
      funext us
      simp

/-- **Reading piece by piece.** -/
theorem tokens_append {a b : String} {ts us : List Token} (ha : tokens a = some ts)
    (hb : tokens b = some us) (hapart : Apart ts b.toList) : tokens (a ++ b) = some (ts ++ us) := by
  unfold tokens at ha hb ⊢
  rw [String.toList_append, scan_append ha hapart, hb]
  rfl

/-! ## Words -/

/-- A name that is read as one word. -/
def IsIdentifier (name : String) : Prop := tokens name = some [.word name.toList]

instance (name : String) : Decidable (IsIdentifier name) :=
  inferInstanceAs (Decidable (tokens name = some [.word name.toList]))

/-- The form of words. -/
def IsWord (w : List Char) : Prop :=
  ∃ c cs, w = c :: cs ∧ isWordStart c = true ∧ cs.all isWordChar = true

theorem IsWord.snoc {w : List Char} {c : Char} (h : IsWord w) (hc : isWordChar c = true) :
    IsWord (w ++ [c]) := by
  obtain ⟨first, rest, rfl, hfirst, hrest⟩ := h
  exact ⟨first, rest ++ [c], rfl, hfirst, by simp [List.all_append, hrest, hc]⟩

theorem isWordChar_of_isWordStart {c : Char} (h : isWordStart c = true) : isWordChar c = true := by
  simp only [isWordStart, isWordChar, Char.isAlphanum, Bool.or_eq_true] at h ⊢
  rcases h with h | h
  · exact .inl (.inl h)
  · exact .inr h

theorem IsWord.all {w : List Char} (h : IsWord w) : w.all isWordChar = true := by
  obtain ⟨first, rest, rfl, hfirst, hrest⟩ := h
  simp [isWordChar_of_isWordStart hfirst, hrest]

theorem isDigit_eq_false_of_isWordStart {c : Char} (h : isWordStart c = true) :
    c.isDigit = false := by
  rw [isWordStart, Bool.or_eq_true, beq_iff_eq] at h
  rcases h with h | rfl
  · by_contra hdigit
    have hletter : (decide (c.val ≥ 'A'.val ∧ c.val ≤ 'Z'.val) ||
        decide (c.val ≥ 'a'.val) && decide (c.val ≤ 'z'.val)) = true := h
    simp only [Char.isDigit, Bool.or_eq_true, Bool.and_eq_true, decide_eq_true_eq,
      Bool.not_eq_false, ge_iff_le, UInt32.le_iff_toNat_le] at hletter hdigit
    have hnine : '9'.val.toNat = 57 := rfl
    have hupper : 'A'.val.toNat = 65 := rfl
    have hlower : 'a'.val.toNat = 97 := rfl
    omega
  · rfl

theorem isWhitespace_eq_false_of_isWordChar {c : Char} (h : isWordChar c = true) :
    c.isWhitespace = false := by
  by_contra hblank
  simp only [Char.isWhitespace, Bool.not_eq_false, Bool.or_eq_true, decide_eq_true_eq] at hblank
  rcases hblank with ((rfl | rfl) | rfl) | rfl <;> revert h <;> decide

/-- A token that is a word has the form of one. -/
def Token.WordFormed : Token → Prop
  | .word w => IsWord w
  | .number _ | .mark _ => True

theorem Token.WordFormed.extend? {t longer : Token} {c : Char} (h : t.WordFormed)
    (hlonger : t.extend? c = some longer) : longer.WordFormed := by
  cases t with
  | word w =>
    simp only [Token.extend?] at hlonger
    split at hlonger
    · rename_i hc
      cases hlonger
      exact h.snoc hc
    · cases hlonger
  | number w =>
    simp only [Token.extend?] at hlonger
    split at hlonger
    · cases hlonger
      trivial
    · cases hlonger
  | mark m =>
    simp only [Token.extend?] at hlonger
    split at hlonger
    · cases hlonger
      trivial
    · obtain ⟨m', -, rfl⟩ := Option.map_eq_some_iff.1 hlonger
      trivial

theorem Token.wordFormed_of_ofChar? {t : Token} {c : Char} (h : Token.ofChar? c = some t) :
    t.WordFormed := by
  unfold Token.ofChar? at h
  split at h
  · rename_i hc
    cases h
    exact ⟨c, [], rfl, hc, rfl⟩
  · split at h
    · cases h
      trivial
    · obtain ⟨m, -, rfl⟩ := Option.map_eq_some_iff.1 h
      trivial

/-- What holds of a token at its start and is kept as it goes on holds of all tokens of a text. -/
theorem scan_forall {Q : Token → Prop} (hstart : ∀ c t, Token.ofChar? c = some t → Q t)
    (hextend : ∀ t c longer, Q t → t.extend? c = some longer → Q longer) {cs : List Char}
    {current : Option Token} {ts : List Token} (h : scan current cs = some ts)
    (hcurrent : ∀ t, current = some t → Q t) : ∀ t ∈ ts, t.isComplete = true ∧ Q t := by
  have hfinished : ∀ {current : Option Token} {done : List Token},
      finished current = some done → (∀ t, current = some t → Q t) →
      ∀ t ∈ done, t.isComplete = true ∧ Q t := by
    intro current done hdone hq
    cases current with
    | none =>
      cases hdone
      simp
    | some t =>
      obtain ⟨hcomplete, rfl⟩ := finished_some hdone
      simpa using ⟨hcomplete, hq t rfl⟩
  induction cs generalizing current ts with
  | nil => exact hfinished h hcurrent
  | cons c cs ih =>
    obtain ⟨longer, hlonger, h⟩ | ⟨-, done, next, later, hdone, hnext, hlater, rfl⟩ :=
      scan_cons_iff.1 h
    · obtain ⟨t, ht, hext⟩ := Option.bind_eq_some_iff.1 hlonger
      refine ih h fun t' ht' => ?_
      cases ht'
      exact hextend t c longer (hcurrent t ht) hext
    · have hlater' := ih hlater fun t ht => by
        subst ht
        unfold started at hnext
        split at hnext
        · cases hnext
        · obtain ⟨t', ht', heq⟩ := Option.map_eq_some_iff.1 hnext
          cases heq
          exact hstart c t ht'
      intro t ht
      rcases List.mem_append.1 ht with ht | ht
      · exact hfinished hdone hcurrent t ht
      · exact hlater' t ht

theorem scan_word {w cs : List Char} (h : cs.all isWordChar = true) :
    scan (some (.word w)) cs = some [.word (w ++ cs)] := by
  induction cs generalizing w with
  | nil => simp [scan, finished, Token.isComplete]
  | cons c cs ih =>
    rw [List.all_cons, Bool.and_eq_true] at h
    simp only [scan, Option.bind_some, Token.extend?, h.1, if_true]
    rw [ih h.2, List.append_assoc]
    rfl

/-- What is read as one word has the form of a word. -/
theorem isIdentifier_iff {name : String} : IsIdentifier name ↔ IsWord name.toList := by
  constructor
  · intro h
    exact (scan_forall (Q := Token.WordFormed) (fun _ _ => Token.wordFormed_of_ofChar?)
      (fun _ _ _ => Token.WordFormed.extend?) h (fun _ ht => (nomatch ht)) (.word name.toList)
      (List.mem_singleton_self _)).2
  · rintro ⟨c, cs, hname, hc, hcs⟩
    have hblank := isWhitespace_eq_false_of_isWordChar (isWordChar_of_isWordStart hc)
    unfold IsIdentifier tokens
    rw [hname]
    simp [scan, finished, started, hblank, Token.ofChar?, hc, scan_word hcs]

end CrossShader.Reader

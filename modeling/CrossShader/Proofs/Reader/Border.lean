import CrossShader.Proofs.Reader.Grammar

/-!
# Borders between texts

What may stand between two texts so that each is read on its own.

* `NotLast`, `notLast_of_isNumber` — the characters that a number does not end with.
* `Closed` — tokens that go on with letters, digits and points only; `closed_of_closes` — so do those that a
  phrase may end with.
* `tokens_append_closed`, `tokens_append_mark`, `tokens_joined`, `tokens_append_unsigned` — texts read piece by
  piece.
* `IsName` — identifiers that are not truth values.
-/

set_option autoImplicit false

namespace CrossShader.Reader

/-! ## Ends of numbers -/

/-- A text that does not end in a character. -/
def NotLast (x : Char) (cs : List Char) : Prop := cs.getLast? ≠ some x

namespace NotLast

variable {x : Char}

theorem of_dropWhile (hx : x.isDigit = false) {cs : List Char}
    (h : NotLast x (cs.dropWhile Char.isDigit)) : NotLast x cs := by
  induction cs with
  | nil => exact h
  | cons c cs ih =>
    by_cases hc : c.isDigit = true
    · rw [List.dropWhile_cons_of_pos hc] at h
      have hcs := ih h
      cases cs with
      | nil =>
        intro heq
        cases heq
        cases hc.symm.trans hx
      | cons c' cs => simpa [NotLast, List.getLast?_cons_cons] using hcs
    · rwa [List.dropWhile_cons_of_neg hc] at h

theorem cons {c : Char} {cs : List Char} (h : NotLast x cs) (hne : cs ≠ []) : NotLast x (c :: cs) := by
  obtain ⟨c', cs, rfl⟩ := List.exists_cons_of_ne_nil hne
  simpa [NotLast, List.getLast?_cons_cons] using h

end NotLast

section Numbers

variable {x : Char} (hx : x.isDigit = false) (hsuffix : x ∉ ['u', 'U', 'f', 'F', '.'])

include hsuffix

theorem notLast_of_isFloatSuffix {cs : List Char} (h : isFloatSuffix cs = true) : NotLast x cs := by
  unfold isFloatSuffix at h
  split at h
  · exact nofun
  · rintro ⟨⟩
    exact hsuffix (by decide)
  · rintro ⟨⟩
    exact hsuffix (by decide)
  · cases h

include hx

theorem notLast_of_isExponentDigits {cs : List Char} (h : isExponentDigits cs = true) :
    NotLast x cs ∧ cs ≠ [] := by
  rw [isExponentDigits, Bool.and_eq_true] at h
  refine ⟨(notLast_of_isFloatSuffix hsuffix h.2).of_dropWhile hx, ?_⟩
  rintro rfl
  cases h.1

theorem notLast_of_isExponent {cs : List Char} (h : isExponent cs = true) : NotLast x cs := by
  unfold isExponent at h
  split at h
  case h_5 | h_6 =>
    obtain ⟨hcs, hne⟩ := notLast_of_isExponentDigits hx hsuffix h
    exact hcs.cons hne
  case h_7 => cases h
  all_goals
    obtain ⟨hcs, hne⟩ := notLast_of_isExponentDigits hx hsuffix h
    exact (hcs.cons hne).cons (by simp)

/-- **Numbers end** in digits, the marks of their types, or a point. -/
theorem notLast_of_isNumber {cs : List Char} (h : isNumber cs = true) : NotLast x cs := by
  refine NotLast.of_dropWhile hx ?_
  unfold isNumber isNumberTail at h
  split at h
  case h_1 heq => rw [heq]; exact nofun
  case h_2 heq | h_3 heq =>
    rw [heq]
    rintro ⟨⟩
    exact hsuffix (by decide)
  case h_4 tail heq =>
    rw [heq]
    simp only [Bool.and_eq_true, Bool.or_eq_true] at h
    have htail : NotLast x tail := by
      refine NotLast.of_dropWhile hx ?_
      rcases h.2 with h | h
      · exact notLast_of_isFloatSuffix hsuffix h
      · exact notLast_of_isExponent hx hsuffix h
    cases tail with
    | nil =>
      rintro ⟨⟩
      exact hsuffix (by decide)
    | cons c tail => exact htail.cons (by simp)
  case h_5 =>
    rw [Bool.and_eq_true] at h
    exact notLast_of_isExponent hx hsuffix h.2

end Numbers

/-! ## Ends of phrases -/

/-- The tokens that a phrase may end with. -/
def Token.closes : Token → Bool
  | .word _ | .number _ => true
  | .mark m => m == .closeParen || m == .closeBracket || m.trailing?.isSome

/-- Characters that are neither letters, digits nor points. -/
def startsApart (c : Char) : Bool := !isWordChar c && c != '.'

/-- Tokens that go on with letters, digits and points only. -/
def Closed (ts : List Token) : Prop :=
  ∀ last ∈ ts.getLast?, ∀ c, startsApart c = true → last.extend? c = none

theorem Closed.append {ts us : List Token} (h : Closed us) (hne : us ≠ []) : Closed (ts ++ us) := by
  intro last hlast
  refine h last ?_
  obtain ⟨x, hx⟩ := List.getLast?_isSome.2 hne |> Option.isSome_iff_exists.1
  rw [Option.mem_def, List.getLast?_append, hx, Option.some_or] at hlast
  rw [Option.mem_def, hx, hlast]

theorem Closed.behind {us : List Token} (h : Closed us) (hne : us ≠ []) (ts : List Token)
    (first : Token) : Closed (ts ++ first :: us) := by
  rw [List.append_cons]
  exact h.append hne

theorem Token.extend?_of_closes {last : Token} (hcloses : last.closes = true)
    (hcomplete : last.isComplete = true) {c : Char} (hc : startsApart c = true) :
    last.extend? c = none := by
  simp only [startsApart, Bool.and_eq_true, Bool.not_eq_true', bne_iff_ne] at hc
  obtain ⟨hword, hdot⟩ := hc
  cases last with
  | word w => simp [Token.extend?, hword]
  | number w =>
    have he : NotLast 'e' w := notLast_of_isNumber (by decide) (by decide) hcomplete
    have hE : NotLast 'E' w := notLast_of_isNumber (by decide) (by decide) hcomplete
    unfold NotLast at he hE
    simp [Token.extend?, extendsNumber, hword, hdot, he, hE]
  | mark m =>
    cases m <;> first | rfl | cases hcloses

/-- Tokens of a text are closed if the last one may end a phrase. -/
theorem closed_of_closes {text : String} {ts : List Token} (hts : tokens text = some ts) {last : Token}
    (hlast : ts.getLast? = some last) (hcloses : last.closes = true) : Closed ts := by
  have hcomplete := (scan_forall (Q := fun _ => True) (fun _ _ _ => trivial)
    (fun _ _ _ _ _ => trivial) hts (fun _ _ => trivial) last (List.mem_of_getLast? hlast)).1
  intro last' hlast' c hc
  cases hlast.symm.trans hlast'
  exact Token.extend?_of_closes hcloses hcomplete hc

/-! ## Reading piece by piece -/

/-- What stands after a phrase is read on its own if it starts with neither a letter, a digit nor a
point. -/
theorem tokens_append_closed {a b : String} {ts us : List Token} (ha : tokens a = some ts)
    (hclosed : Closed ts) (hb : tokens b = some us)
    (hhead : b.toList.head?.all startsApart = true) : tokens (a ++ b) = some (ts ++ us) :=
  tokens_append ha hb fun last hlast c hc => hclosed last hlast c ((Option.all_eq_true _ _).1 hhead c hc)

/-- What stands after a mark is read on its own if the mark does not go on with it. -/
theorem tokens_append_mark {a b : String} {ts us : List Token} {m : Mark}
    (ha : tokens a = some (ts ++ [.mark m])) (hb : tokens b = some us)
    (hhead : ∀ c ∈ b.toList.head?, (Token.mark m).extend? c = none) :
    tokens (a ++ b) = some (ts ++ .mark m :: us) := by
  have happend := tokens_append ha hb fun last hlast c hc => by
    rw [List.getLast?_concat] at hlast
    cases hlast
    exact hhead c hc
  rwa [List.append_assoc] at happend

/-- Two texts with a mark between them that never goes on. -/
theorem tokens_joined {a sep b : String} {ts us : List Token} {m : Mark} (ha : tokens a = some ts)
    (hclosed : Closed ts) (hsep : tokens sep = some [.mark m])
    (hhead : sep.toList.head?.all startsApart = true)
    (hm : ∀ c, (Token.mark m).extend? c = none) (hb : tokens b = some us) :
    tokens (a ++ sep ++ b) = some (ts ++ .mark m :: us) :=
  tokens_append_mark (tokens_append_closed ha hclosed hsep hhead) hb fun c _ => hm c

/-- The characters that a phrase without leading operators may start with. -/
def startsOperand (c : Char) : Bool := c.isWhitespace || isWordChar c || c == '(' || c == '.'

theorem Mark.extend?_eq_none {m : Mark} {c : Char} (h : startsOperand c = true) :
    m.extend? c = none := by
  unfold Mark.extend?
  split <;> first | rfl | (revert h; decide)

/-- An operator mark: not the start of an operand. -/
def Token.IsOperator : Token → Prop
  | .mark m => m ≠ .openParen ∧ m ≠ .dot
  | .word _ | .number _ => False

theorem Token.IsOperator.extend? {t longer : Token} {c : Char} (h : t.IsOperator)
    (hlonger : t.extend? c = some longer) : longer.IsOperator := by
  cases t with
  | word | number => exact h.elim
  | mark m =>
    rw [Token.extend?, if_neg (fun hdot => h.2 hdot.1)] at hlonger
    obtain ⟨m', hm', rfl⟩ := Option.map_eq_some_iff.1 hlonger
    unfold Mark.extend? at hm'
    split at hm' <;> cases hm'
    all_goals exact ⟨by decide, by decide⟩

/-- The first token of a text goes on from its start. -/
theorem scan_head {Q : Token → Prop}
    (hextend : ∀ t c longer, Q t → t.extend? c = some longer → Q longer) {cs : List Char}
    {t : Token} {ts : List Token} (h : scan (some t) cs = some ts) (hq : Q t) :
    ∃ first, ts.head? = some first ∧ Q first := by
  induction cs generalizing t with
  | nil =>
    obtain ⟨-, rfl⟩ := finished_some h
    exact ⟨t, rfl, hq⟩
  | cons c cs ih =>
    obtain ⟨longer, hlonger, h⟩ | ⟨-, done, next, later, hdone, -, -, rfl⟩ := scan_cons_iff.1 h
    · exact ih h (hextend t c longer hq hlonger)
    · obtain ⟨-, rfl⟩ := finished_some hdone
      exact ⟨t, rfl, hq⟩

theorem startsOperand_head {text : String} {ts : List Token} (h : tokens text = some ts)
    (hhead : ts.head?.any Derives.startsPrimary = true) :
    ∀ c ∈ text.toList.head?, startsOperand c = true := by
  intro c hc
  by_contra hstart
  simp only [startsOperand, Bool.or_eq_true, beq_iff_eq, not_or] at hstart
  obtain ⟨⟨⟨hblank, hword⟩, hparen⟩, hdot⟩ := hstart
  unfold tokens at h
  obtain ⟨c', cs, hcs⟩ : ∃ c' cs, text.toList = c' :: cs := by
    cases htext : text.toList with
    | nil => rw [htext] at hc; cases hc
    | cons c' cs => exact ⟨c', cs, rfl⟩
  rw [hcs] at hc h
  cases hc
  have hletter : isWordStart c = false := by
    by_contra hletter
    exact hword (isWordChar_of_isWordStart (by simpa using hletter))
  have hdigit : c.isDigit = false := by
    by_contra hdigit
    rw [Bool.not_eq_false] at hdigit
    exact hword (by simp [isWordChar, Char.isAlphanum, hdigit])
  simp only [scan, Option.bind_none, finished, started, hblank, Token.ofChar?, hletter, hdigit,
    Bool.false_eq_true, if_false] at h
  -- what is left starts an operator, and operators only grow into operators
  cases hm : Mark.ofChar? c with
  | none => simp [hm] at h
  | some m =>
    simp only [hm, Option.map_some] at h
    obtain ⟨later, hlater, rfl⟩ := Option.map_eq_some_iff.1 h
    have hop : (Token.mark m).IsOperator := by
      unfold Mark.ofChar? at hm
      split at hm <;> first | contradiction | cases hm
      all_goals exact ⟨by decide, by decide⟩
    obtain ⟨first, hfirst, hop⟩ := scan_head (fun _ _ _ => Token.IsOperator.extend?) hlater hop
    rw [List.nil_append, hfirst] at hhead
    cases first with
    | word | number => exact hop.elim
    | mark m => cases m <;> first | exact hop.1 rfl | cases hhead

/-- A mark before an unsigned phrase does not go on. -/
theorem tokens_append_unsigned {a b : String} {ts us : List Token} {m : Mark} (hm : m ≠ .dot)
    (ha : tokens a = some (ts ++ [.mark m])) (hb : tokens b = some us)
    (hhead : us.head?.any Derives.startsPrimary = true) :
    tokens (a ++ b) = some (ts ++ .mark m :: us) := by
  refine tokens_append_mark ha hb fun c hc => ?_
  rw [Token.extend?, if_neg (fun hdot => hm hdot.1),
    Mark.extend?_eq_none (startsOperand_head hb hhead c hc), Option.map_none]

/-! ## Names -/

/-- Identifiers that are not truth values. -/
def IsName (name : String) : Prop := IsIdentifier name ∧ name ≠ "true" ∧ name ≠ "false"

instance (name : String) : Decidable (IsName name) :=
  inferInstanceAs (Decidable (IsIdentifier name ∧ name ≠ "true" ∧ name ≠ "false"))

theorem IsName.wordTree {name : String} (h : IsName name) : wordTree name.toList = .name name := by
  have htrue : name.toList ≠ ['t', 'r', 'u', 'e'] := fun heq => h.2.1 (String.toList_inj.1 heq)
  have hfalse : name.toList ≠ ['f', 'a', 'l', 's', 'e'] := fun heq => h.2.2 (String.toList_inj.1 heq)
  rw [Reader.wordTree, if_neg htrue, if_neg hfalse, String.ofList_toList]

end CrossShader.Reader

import CrossShader.Proofs.Reader.Image
import CrossShader.Proofs.Reader.Numeral
import CrossShader.Proofs.Reader.Phrase

/-!
# Constants

How literals are written, and what cannot follow a number.

* `IsConstant` — a numeral that starts with a digit; `IsConstant.tokens_method` — it has no method as it
  stands.
* `Literal.lower_cases` — a literal is a truth value, a constant, or a constant behind a minus sign.
-/

set_option autoImplicit false

namespace CrossShader

namespace Reader

/-! ## What follows a number -/

theorem scan_goesOn {w cs : List Char} (hgo : GoesOn w cs) (rest : List Char) :
    scan (some (.number w)) (cs ++ rest) = scan (some (.number (w ++ cs))) rest := by
  induction cs generalizing w with
  | nil => rw [List.nil_append, List.append_nil]
  | cons c cs ih =>
    rw [List.cons_append]
    simp only [scan, Option.bind_some, Token.extend?, hgo.1, if_true]
    rw [ih hgo.2, List.append_assoc, List.singleton_append]

/-- What is read as one number goes on to its end. -/
theorem goesOn_of_scan {w cs : List Char}
    (h : scan (some (.number w)) cs = some [.number (w ++ cs)]) : GoesOn w cs := by
  induction cs generalizing w with
  | nil => trivial
  | cons c cs ih =>
    cases hc : extendsNumber w c with
    | true =>
      simp only [scan, Option.bind_some, Token.extend?, hc, if_true] at h
      refine ⟨hc, ih ?_⟩
      rwa [List.append_assoc]
    | false =>
      -- the number would end here, which is too early
      simp only [scan, Option.bind_some, Token.extend?, hc, Bool.false_eq_true, if_false] at h
      split at h
      · rename_i done next hdone _
        obtain ⟨-, rfl⟩ := finished_some hdone
        obtain ⟨later, -, hlater⟩ := Option.map_eq_some_iff.1 h
        have hsame : w = w ++ c :: cs := Token.number.inj (List.cons.inj hlater).1
        simp at hsame
      · cases h

/-- A numeral that starts with a digit. -/
def IsConstant (text : String) : Prop :=
  IsNumeral text ∧ text.toList.head?.any Char.isDigit = true

instance (text : String) : Decidable (IsConstant text) :=
  inferInstanceAs (Decidable (IsNumeral text ∧ text.toList.head?.any Char.isDigit = true))

theorem scan_digit {d : Char} (hd : d.isDigit = true) (cs : List Char) :
    scan none (d :: cs) = scan (some (.number [d])) cs := by
  have hblank := isWhitespace_eq_false_of_isWordChar (isWordChar_of_isDigit hd)
  have hword : isWordStart d = false := by
    by_contra hstart
    rw [isDigit_eq_false_of_isWordStart (by simpa using hstart)] at hd
    cases hd
  simp [scan, finished, started, hblank, Token.ofChar?, hword, hd]

/-- A point and the letters behind it belong to the constant before them. -/
theorem IsConstant.scan_point {text : String} (h : IsConstant text) {letters : List Char}
    (hletters : letters.all isWordChar = true) (rest : List Char) :
    scan none (text.toList ++ ('.' :: letters ++ rest)) =
      scan (some (.number (text.toList ++ '.' :: letters))) rest := by
  obtain ⟨hnumeral, hdigit⟩ := h
  obtain ⟨d, cs, htext⟩ : ∃ d cs, text.toList = d :: cs := by
    cases htext : text.toList with
    | nil =>
      rw [htext] at hdigit
      cases hdigit
    | cons d cs => exact ⟨d, cs, rfl⟩
  rw [IsNumeral, tokens, htext] at hnumeral
  rw [htext] at hdigit ⊢
  rw [scan_digit hdigit] at hnumeral
  have hgo : GoesOn [d] cs := goesOn_of_scan hnumeral
  have hon : GoesOn (d :: cs) ('.' :: letters) := by
    refine goesOn_of_forall (fun c hc => ?_) _
    rcases List.mem_cons.1 hc with rfl | hc
    · exact .inr rfl
    · exact .inl (List.all_eq_true.1 hletters c hc)
  rw [List.cons_append, scan_digit hdigit, scan_goesOn hgo, List.singleton_append, scan_goesOn hon]

/-- A member of a constant is a constant, if it is read at all. -/
theorem IsConstant.point {text letters : String} (h : IsConstant text)
    (hletters : letters.toList.all isWordChar = true) {ts : List Token}
    (hts : tokens (text ++ "." ++ letters) = some ts) : IsConstant (text ++ "." ++ letters) := by
  have hshape : (text ++ "." ++ letters).toList = text.toList ++ ('.' :: letters.toList) := by
    simp [String.toList_append]
  have hscan := h.scan_point hletters []
  rw [List.append_nil, ← hshape] at hscan
  refine ⟨?_, ?_⟩
  · rw [tokens, hscan] at hts
    obtain ⟨-, rfl⟩ := finished_some hts
    rw [IsNumeral, tokens, hscan, ← hshape] at *
    exact hts
  · have hdigit := h.2
    rw [hshape]
    cases htext : text.toList with
    | nil =>
      rw [htext] at hdigit
      cases hdigit
    | cons d cs =>
      rw [htext] at hdigit
      exact hdigit

/-- **No method of a constant can be called as it stands:** its name belongs to the number, which is none
then. -/
theorem IsConstant.tokens_method {text : String} (h : IsConstant text) (method : String)
    (hmethod : method.toList.all isWordChar = true) (hlast : method.toList.getLast? = some 'e')
    (rest : String) : tokens (text ++ "." ++ (method ++ "(" ++ rest)) = none := by
  have hshape : (text ++ "." ++ (method ++ "(" ++ rest)).toList =
      text.toList ++ ('.' :: method.toList ++ '(' :: rest.toList) := by
    simp [String.toList_append]
  have hnumber : isNumber (text.toList ++ '.' :: method.toList) = false := by
    by_contra hnumber
    have hend : NotLast 'e' _ := notLast_of_isNumber (by decide) (by decide) (eq_true_of_ne_false hnumber)
    rw [NotLast, List.getLast?_append, List.getLast?_cons, hlast] at hend
    exact hend rfl
  have hparen : extendsNumber (text.toList ++ '.' :: method.toList) '(' = false := rfl
  rw [tokens, hshape, h.scan_point hmethod]
  simp only [scan, Option.bind_some, Token.extend?, hparen, Bool.false_eq_true, if_false, finished,
    Token.isComplete, hnumber]

theorem IsDecimal.isConstant {text : String} (h : IsDecimal text) : IsConstant text := by
  refine ⟨h.isNumeral, ?_⟩
  obtain ⟨whole, fraction, exponent, htext, hwhole, -, -⟩ := h
  obtain ⟨d, ds, rfl⟩ := List.exists_cons_of_ne_nil hwhole.1
  rw [htext]
  exact hwhole.2 d List.mem_cons_self

theorem isConstant_unsigned (n : Nat) : IsConstant (toString n ++ "u") := by
  refine ⟨isNumeral_unsigned n, ?_⟩
  have hdigit := (isDecimal_natural n).isConstant.2
  cases htext : (toString n).toList with
  | nil =>
    rw [htext] at hdigit
    cases hdigit
  | cons d ds =>
    rw [htext] at hdigit
    rw [String.toList_append, htext]
    exact hdigit

end Reader

open Reader

/-- **How literals are written:** as a truth value, a constant, or a constant behind a minus sign. -/
theorem Literal.lower_cases {loc : Location} {value : Literal} {text : String}
    (h : value.lower loc = .ok text) :
    (∃ truth, value = .bool truth ∧ text = toString truth) ∨
      (value.isNegative = false ∧ value.image = .number text ∧ IsConstant text) ∨
      ∃ magnitude, value.isNegative = true ∧ IsConstant magnitude ∧ text = "-" ++ magnitude ∧
        value.image = .unary .negate (.number magnitude) := by
  cases value with
  | bool truth => exact .inl ⟨truth, rfl, (Except.ok.inj h).symm⟩
  | int value =>
    obtain rfl := Except.ok.inj h
    cases value with
    | ofNat n => exact .inr (.inl ⟨rfl, rfl, (isDecimal_natural n).isConstant⟩)
    | negSucc n =>
      have hnegative := Int.negSucc_lt_zero n
      refine .inr (.inr ⟨toString (n + 1), ?_, (isDecimal_natural (n + 1)).isConstant, rfl, ?_⟩)
      · rw [Literal.isNegative, decide_eq_true hnegative]
      · rw [Literal.image, if_pos hnegative]
        rfl
  | uint value =>
    obtain rfl := Except.ok.inj h
    exact .inr (.inl ⟨rfl, rfl, isConstant_unsigned value⟩)
  | float value =>
    simp only [Literal.lower] at h
    split at h
    · rename_i hfinite
      obtain rfl := Except.ok.inj h
      have hconstant := (isDecimal_literal value.shortest).isConstant
      rw [Single.text_of_isFinite hfinite]
      simp only [Literal.isNegative, Literal.image]
      cases value.isNegative with
      | false => exact .inr (.inl ⟨rfl, by simp, by simpa using hconstant⟩)
      | true => exact .inr (.inr ⟨_, rfl, hconstant, rfl, rfl⟩)
    · cases h

end CrossShader

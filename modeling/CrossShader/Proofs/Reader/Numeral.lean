import CrossShader.Proofs.Reader.Token

/-!
# Numerals

Written numbers are read as one number.

* `IsNumeral` — a text that is one number token.
* `Digits`, `Fraction`, `Exponent` — the parts of a decimal constant; `IsDecimal` — a text made of them.
* `isDecimal_natural`, `isDecimal_literal` — natural numbers, and decimals as the literal format writes
  them, are made so.
* `isNumeral_natural`, `isNumeral_unsigned`, `isNumeral_decimal` — they are numerals, and so are unsigned
  constants.
-/

set_option autoImplicit false

namespace CrossShader.Reader

/-- A text that is read as one number. -/
def IsNumeral (text : String) : Prop := tokens text = some [.number text.toList]

instance (text : String) : Decidable (IsNumeral text) :=
  inferInstanceAs (Decidable (tokens text = some [.number text.toList]))

/-- A number that goes on character by character. -/
def GoesOn : List Char → List Char → Prop
  | _, [] => True
  | w, c :: cs => extendsNumber w c = true ∧ GoesOn (w ++ [c]) cs

theorem GoesOn.append {w cs ds : List Char} (hcs : GoesOn w cs) (hds : GoesOn (w ++ cs) ds) :
    GoesOn w (cs ++ ds) := by
  induction cs generalizing w with
  | nil => simpa using hds
  | cons c cs ih =>
    refine ⟨hcs.1, ih hcs.2 ?_⟩
    simpa using hds

/-- Letters, digits and points always belong to a number. -/
theorem goesOn_of_forall {cs : List Char} (h : ∀ c ∈ cs, isWordChar c = true ∨ c = '.')
    (w : List Char) : GoesOn w cs := by
  induction cs generalizing w with
  | nil => trivial
  | cons c cs ih =>
    refine ⟨?_, ih (fun c' hc' => h c' (List.mem_cons_of_mem _ hc')) _⟩
    rcases h c List.mem_cons_self with hc | rfl
    · simp [extendsNumber, hc]
    · rfl

theorem scan_number {w cs : List Char} (hgo : GoesOn w cs) (hnumber : isNumber (w ++ cs) = true) :
    scan (some (.number w)) cs = some [.number (w ++ cs)] := by
  induction cs generalizing w with
  | nil =>
    rw [List.append_nil] at hnumber ⊢
    simp [scan, finished, Token.isComplete, hnumber]
  | cons c cs ih =>
    rw [← List.singleton_append, ← List.append_assoc] at hnumber
    simp only [scan, Option.bind_some, Token.extend?, hgo.1, if_true]
    rw [ih hgo.2 hnumber, List.append_assoc, List.singleton_append]

theorem isWordChar_of_isDigit {c : Char} (h : c.isDigit = true) : isWordChar c = true := by
  simp [isWordChar, Char.isAlphanum, h]

theorem isNumeral_of_goesOn {text : String} {d : Char} {cs : List Char}
    (htext : text.toList = d :: cs) (hd : d.isDigit = true) (hgo : GoesOn [d] cs)
    (hnumber : isNumber (d :: cs) = true) : IsNumeral text := by
  have hblank := isWhitespace_eq_false_of_isWordChar (isWordChar_of_isDigit hd)
  have hword : isWordStart d = false := by
    by_contra hstart
    rw [isDigit_eq_false_of_isWordStart (by simpa using hstart)] at hd
    cases hd
  unfold IsNumeral tokens
  rw [htext]
  simp [scan, finished, started, hblank, Token.ofChar?, hword, hd, scan_number hgo hnumber]

/-! ## Parts -/

/-- One or more digits. -/
def Digits (ds : List Char) : Prop := ds ≠ [] ∧ ∀ c ∈ ds, c.isDigit = true

/-- A point and the digits after it, or nothing. -/
def Fraction (cs : List Char) : Prop :=
  cs = [] ∨ ∃ ds, cs = '.' :: ds ∧ ∀ c ∈ ds, c.isDigit = true

/-- A power of ten, or nothing. -/
def Exponent (cs : List Char) : Prop :=
  cs = [] ∨ ∃ ds, Digits ds ∧ (cs = 'e' :: ds ∨ cs = 'e' :: '-' :: ds)

theorem dropWhile_digits {ds tail : List Char} (hds : ∀ c ∈ ds, c.isDigit = true)
    (htail : ∀ c ∈ tail.head?, c.isDigit = false) :
    (ds ++ tail).dropWhile Char.isDigit = tail := by
  rw [List.dropWhile_append_of_pos hds]
  cases tail with
  | nil => rfl
  | cons c tail => exact List.dropWhile_cons_of_neg (by simp [htail c rfl])

theorem isEmpty_takeWhile_digits {ds : List Char} (hds : Digits ds) (tail : List Char) :
    ((ds ++ tail).takeWhile Char.isDigit).isEmpty = false := by
  rw [List.takeWhile_append_of_pos hds.2]
  simp [hds.1]

theorem isNumber_digits_append {ds tail : List Char} (hds : Digits ds)
    (htail : ∀ c ∈ tail.head?, c.isDigit = false) :
    isNumber (ds ++ tail) = isNumberTail true tail := by
  rw [isNumber, dropWhile_digits hds.2 htail, isEmpty_takeWhile_digits hds]
  rfl

theorem isExponentDigits_of_digits {ds : List Char} (hds : Digits ds) :
    isExponentDigits ds = true := by
  have hdrop : (ds ++ []).dropWhile Char.isDigit = [] := dropWhile_digits hds.2 nofun
  have htake := isEmpty_takeWhile_digits hds []
  rw [List.append_nil] at hdrop htake
  simp [isExponentDigits, hdrop, htake, isFloatSuffix]

theorem Exponent.head?_isDigit {cs : List Char} (h : Exponent cs) :
    ∀ c ∈ cs.head?, c.isDigit = false := by
  rcases h with rfl | ⟨ds, -, rfl | rfl⟩
  · exact nofun
  all_goals
    intro c hc
    cases hc
    rfl

theorem Exponent.isExponent {cs : List Char} (h : Exponent cs) :
    isFloatSuffix cs = true ∨ Reader.isExponent cs = true := by
  rcases h with rfl | ⟨ds, hds, rfl | rfl⟩
  · exact .inl rfl
  · refine .inr ?_
    obtain ⟨d, ds', rfl⟩ := List.exists_cons_of_ne_nil hds.1
    have hd := hds.2 d List.mem_cons_self
    have hplus : d ≠ '+' := by rintro rfl; cases hd
    have hminus : d ≠ '-' := by rintro rfl; cases hd
    simp [Reader.isExponent, hplus, hminus, isExponentDigits_of_digits hds]
  · exact .inr (isExponentDigits_of_digits hds)

theorem isNumberTail_of_parts {fraction exponent : List Char} (hfraction : Fraction fraction)
    (hexponent : Exponent exponent) : isNumberTail true (fraction ++ exponent) = true := by
  rcases hfraction with rfl | ⟨ds, rfl, hds⟩
  · rcases hexponent.isExponent with hsuffix | hpower
    · rcases hexponent with rfl | ⟨ds, -, rfl | rfl⟩
      · rfl
      · cases hsuffix
      · cases hsuffix
    · rcases hexponent with rfl | ⟨ds, -, rfl | rfl⟩
      · rfl
      · exact hpower
      · exact hpower
  · rw [List.cons_append, isNumberTail, dropWhile_digits hds hexponent.head?_isDigit]
    rcases hexponent.isExponent with h | h <;> simp [h]

/-- Whole digits, a fraction and an exponent. -/
def IsDecimal (text : String) : Prop :=
  ∃ whole fraction exponent, text.toList = whole ++ (fraction ++ exponent) ∧ Digits whole ∧
    Fraction fraction ∧ Exponent exponent

/-- **Whole digits, a fraction and an exponent are a numeral.** -/
theorem IsDecimal.isNumeral {text : String} (h : IsDecimal text) : IsNumeral text := by
  obtain ⟨whole, fraction, exponent, htext, hwhole, hfraction, hexponent⟩ := h
  have htail : ∀ c ∈ (fraction ++ exponent).head?, c.isDigit = false := by
    rcases hfraction with rfl | ⟨ds, rfl, -⟩
    · exact hexponent.head?_isDigit
    · intro c hc
      cases hc
      rfl
  have hnumber : isNumber (whole ++ (fraction ++ exponent)) = true := by
    rw [isNumber_digits_append hwhole htail, isNumberTail_of_parts hfraction hexponent]
  obtain ⟨d, ds, rfl⟩ := List.exists_cons_of_ne_nil hwhole.1
  have hds : ∀ c ∈ ds, c.isDigit = true := fun c hc => hwhole.2 c (List.mem_cons_of_mem _ hc)
  have hfirst : ∀ w, GoesOn w (ds ++ fraction) := by
    refine goesOn_of_forall fun c hc => ?_
    rcases List.mem_append.1 hc with hc | hc
    · exact .inl (isWordChar_of_isDigit (hds c hc))
    · rcases hfraction with rfl | ⟨fs, rfl, hfs⟩
      · cases hc
      · rcases List.mem_cons.1 hc with rfl | hc
        · exact .inr rfl
        · exact .inl (isWordChar_of_isDigit (hfs c hc))
  have hpower : ∀ w, GoesOn w exponent := by
    rcases hexponent with rfl | ⟨es, hes, rfl | rfl⟩
    · exact fun _ => trivial
    · refine goesOn_of_forall fun c hc => ?_
      rcases List.mem_cons.1 hc with rfl | hc
      · exact .inl rfl
      · exact .inl (isWordChar_of_isDigit (hes.2 c hc))
    · -- a sign belongs to the number only because the letter stands right before it
      refine fun w => ⟨rfl, ?_, goesOn_of_forall (fun c hc => ?_) _⟩
      · simp [extendsNumber]
      · exact .inl (isWordChar_of_isDigit (hes.2 c hc))
  have hgo : GoesOn [d] (ds ++ (fraction ++ exponent)) := by
    rw [← List.append_assoc]
    exact (hfirst _).append (hpower _)
  exact isNumeral_of_goesOn htext (hwhole.2 d List.mem_cons_self) hgo hnumber

/-! ## Written numbers -/

theorem digits_toDigits (n : Nat) : Digits (Nat.toDigits 10 n) :=
  ⟨Nat.toDigits_ne_nil, fun _ hc => Nat.isDigit_of_mem_toDigits (by decide) (by decide) hc⟩

theorem isDecimal_natural (n : Nat) : IsDecimal (toString n) := by
  refine ⟨Nat.toDigits 10 n, [], [], ?_, digits_toDigits n, .inl rfl, .inl rfl⟩
  rw [List.append_nil, List.append_nil]
  exact Nat.toList_repr

/-- Natural numbers are numerals. -/
theorem isNumeral_natural (n : Nat) : IsNumeral (toString n) := (isDecimal_natural n).isNumeral

/-- Natural numbers with the mark of unsigned constants are numerals. -/
theorem isNumeral_unsigned (n : Nat) : IsNumeral (toString n ++ "u") := by
  have htext : (toString n ++ "u").toList = Nat.toDigits 10 n ++ ['u'] := by
    rw [String.toList_append]
    exact congrArg (· ++ ['u']) Nat.toList_repr
  have hds := digits_toDigits n
  have hnumber : isNumber (Nat.toDigits 10 n ++ ['u']) = true :=
    isNumber_digits_append hds fun c hc => by
      cases hc
      rfl
  obtain ⟨d, ds, hcons⟩ := List.exists_cons_of_ne_nil hds.1
  rw [hcons] at htext hnumber hds
  refine isNumeral_of_goesOn htext (hds.2 d List.mem_cons_self) ?_ hnumber
  refine goesOn_of_forall (fun c hc => .inl ?_) _
  rcases List.mem_append.1 hc with hc | hc
  · exact isWordChar_of_isDigit (hds.2 c (List.mem_cons_of_mem _ hc))
  · cases List.mem_singleton.1 hc
    rfl

theorem exponent_toString (power : Int) : Exponent ('e' :: (toString power).toList) := by
  refine .inr ?_
  cases power with
  | ofNat n => exact ⟨_, digits_toDigits n, .inl (congrArg ('e' :: ·) Nat.toList_repr)⟩
  | negSucc n =>
    refine ⟨_, digits_toDigits (n + 1), .inr (congrArg ('e' :: ·) ?_)⟩
    change ("-" ++ Nat.repr (n + 1)).toList = _
    rw [String.toList_append, Nat.toList_repr]
    rfl

theorem isDecimal_positional {digits : List Char} (hdigits : Digits digits) (exponent : Int) :
    IsDecimal (NumberFormat.literal.positional digits exponent) := by
  unfold NumberFormat.positional
  have hzeros : ∀ n, ∀ c ∈ List.replicate n '0', c.isDigit = true := by
    intro n c hc
    rw [List.eq_of_mem_replicate hc]
    rfl
  split
  · refine ⟨digits ++ List.replicate exponent.toNat '0', ['.', '0'], [], ?_,
      ⟨by simp [hdigits.1], fun c hc => ?_⟩, .inr ⟨['0'], rfl, hzeros 1⟩, .inl rfl⟩
    · rw [String.toList_append, String.toList_ofList]
      rfl
    · rcases List.mem_append.1 hc with hc | hc
      · exact hdigits.2 c hc
      · exact hzeros _ c hc
  · dsimp only
    split
    · -- the point stands between the digits, so there is at least one before it
      rename_i hplaces
      refine ⟨digits.take (digits.length - (-exponent).toNat),
        '.' :: digits.drop (digits.length - (-exponent).toNat), [], ?_,
        ⟨?_, fun c hc => hdigits.2 c (List.mem_of_mem_take hc)⟩,
        .inr ⟨_, rfl, fun c hc => hdigits.2 c (List.mem_of_mem_drop hc)⟩, .inl rfl⟩
      · rw [String.toList_ofList, List.append_nil]
      · rw [Ne, List.take_eq_nil_iff, not_or]
        exact ⟨by omega, hdigits.1⟩
    · refine ⟨['0'], '.' :: (List.replicate ((-exponent).toNat - digits.length) '0' ++ digits), [], ?_,
        ⟨nofun, hzeros 1⟩, .inr ⟨_, rfl, fun c hc => ?_⟩, .inl rfl⟩
      · rw [String.toList_ofList, List.append_nil]
        rfl
      · rcases List.mem_append.1 hc with hc | hc
        · exact hzeros _ c hc
        · exact hdigits.2 c hc

theorem isDecimal_scientific {digits : List Char} (hdigits : Digits digits) (power : Int) :
    IsDecimal (NumberFormat.literal.scientific digits power) := by
  obtain ⟨d, rest, rfl⟩ := List.exists_cons_of_ne_nil hdigits.1
  have hd : Digits [d] := ⟨nofun, fun c hc => by
    rw [List.mem_singleton.1 hc]
    exact hdigits.2 d List.mem_cons_self⟩
  have hpower : ∀ lead : List Char,
      (String.ofList lead ++ "e" ++ toString power).toList = lead ++ 'e' :: (toString power).toList := by
    intro lead
    rw [String.toList_append, String.toList_append, String.toList_ofList, List.append_assoc]
    rfl
  cases rest with
  | nil => exact ⟨[d], [], _, hpower [d], hd, .inl rfl, exponent_toString power⟩
  | cons d' rest =>
    exact ⟨[d], '.' :: d' :: rest, _, hpower (d :: '.' :: d' :: rest), hd,
      .inr ⟨_, rfl, fun c hc => hdigits.2 c (List.mem_cons_of_mem _ hc)⟩, exponent_toString power⟩

/-- **Decimals are made of these parts**, whether they are written with an exponent or without. -/
theorem isDecimal_literal (d : Decimal) : IsDecimal (NumberFormat.literal.decimal d) := by
  unfold NumberFormat.decimal
  dsimp only
  split
  · exact isDecimal_positional (digits_toDigits _) _
  · exact isDecimal_scientific (digits_toDigits _) _

/-- Decimals are numerals. -/
theorem isNumeral_decimal (d : Decimal) : IsNumeral (NumberFormat.literal.decimal d) :=
  (isDecimal_literal d).isNumeral

end CrossShader.Reader

namespace CrossShader

/-- The text of a finite number is a decimal behind its sign. -/
theorem Single.text_of_isFinite {value : Single} (h : value.isFinite = true) :
    value.text =
      (if value.isNegative then "-" else "") ++ NumberFormat.literal.decimal value.shortest := by
  have hnan : value.isNaN = false := by
    simp only [Single.isFinite, bne_iff_ne] at h
    simp [Single.isNaN, h]
  simp [Single.text, NumberFormat.single, hnan, h]

end CrossShader

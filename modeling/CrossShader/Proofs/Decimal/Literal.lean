import CrossShader.Lowering.Expr
import CrossShader.Proofs.Decimal.Shortest
import CrossShader.Proofs.Reader.Numeral

/-!
# Floating literals

Literals are read back as the numbers that they are written for.

* `Numeral.read` — reads a floating literal: an optional sign, and digits with a point or an exponent.
* `Numeral.decimal?_literal` — what is written is read as the same decimal, up to zeros behind it.
* `Decimal.significant` — the digits that count; `Decimal.exists_significant` — no others are needed.
* `Single.read_text` — a finite number is read back from its text, which has as few digits as possible.
* `float_literals_lossless` — so literals lose nothing.
-/

set_option autoImplicit false

namespace CrossShader

open Reader

/-- A decimal with its sign. -/
structure Numeral where
  negative : Bool
  decimal : Decimal
  deriving DecidableEq, Repr

namespace Numeral

/-! ## Reading -/

/-- One or more digits. -/
def natural? (cs : List Char) : Option Nat :=
  if cs.isEmpty || !cs.all Char.isDigit then none else some (Nat.ofDigitChars 10 cs 0)

/-- A power of ten behind its mark; without a mark it is zero. -/
def power? : List Char → Option Int
  | [] => some 0
  | mark :: cs =>
    if mark != 'e' then none
    else if cs.head? == some '-' then (natural? cs.tail).map fun n => -(n : Int)
    else (natural? cs).map fun n => (n : Int)

/-- Digits, then a point with more digits or a power of ten, or both. -/
def decimal? (cs : List Char) : Option Decimal :=
  let whole := cs.takeWhile Char.isDigit
  match cs.dropWhile Char.isDigit with
  | [] => none
  | mark :: rest =>
    if mark == '.' then
      let fraction := rest.takeWhile Char.isDigit
      if whole.isEmpty || fraction.isEmpty then none
      else (power? (rest.dropWhile Char.isDigit)).map fun power =>
        ⟨Nat.ofDigitChars 10 (whole ++ fraction) 0, power - fraction.length⟩
    else if whole.isEmpty then none
    else (power? (mark :: rest)).map fun power => ⟨Nat.ofDigitChars 10 whole 0, power⟩

/-- A floating literal. -/
def read (text : String) : Option Numeral :=
  if text.toList.head? == some '-' then (decimal? text.toList.tail).map fun d => ⟨true, d⟩
  else (decimal? text.toList).map fun d => ⟨false, d⟩

example : read "-1.5e-7" = some ⟨true, 15, -8⟩ ∧ read "0.00125" = some ⟨false, 125, -5⟩ ∧
    read "12" = none ∧ read "1.e3" = none := by decide

theorem natural?_digits {ds : List Char} (h : Digits ds) :
    natural? ds = some (Nat.ofDigitChars 10 ds 0) := by
  have hempty : ds.isEmpty = false := by simp [h.1]
  have hall : ds.all Char.isDigit = true := List.all_eq_true.2 h.2
  rw [natural?, hempty, hall]
  rfl

theorem natural?_toDigits (n : Nat) : natural? (Nat.toDigits 10 n) = some n := by
  rw [natural?_digits (digits_toDigits n), Nat.ofDigitChars_ten_toDigits]

theorem head?_ne_minus {ds : List Char} (h : Digits ds) (tail : List Char) :
    ((ds ++ tail).head? == some '-') = false := by
  obtain ⟨d, rest, rfl⟩ := List.exists_cons_of_ne_nil h.1
  have hd := h.2 d List.mem_cons_self
  rw [List.cons_append, List.head?_cons, beq_eq_false_iff_ne]
  rintro heq
  cases heq
  cases hd

theorem power?_nil : power? [] = some 0 := rfl

/-- A written power of ten is read. -/
theorem power?_toString (power : Int) : power? ('e' :: (toString power).toList) = some power := by
  cases power with
  | ofNat n =>
    have htext : (toString (Int.ofNat n)).toList = Nat.toDigits 10 n := Nat.toList_repr
    have hsign := head?_ne_minus (digits_toDigits n) []
    rw [List.append_nil] at hsign
    rw [htext, power?, hsign, natural?_toDigits]
    rfl
  | negSucc n =>
    have htext : (toString (Int.negSucc n)).toList = '-' :: Nat.toDigits 10 (n + 1) := by
      change ("-" ++ Nat.repr (n + 1)).toList = _
      rw [String.toList_append, Nat.toList_repr]
      rfl
    rw [htext, power?, List.head?_cons, List.tail_cons, natural?_toDigits]
    rfl

section Parts

variable {whole fraction tail : List Char} {power : Int}

theorem takeWhile_digits (h : Digits whole) (htail : ∀ c ∈ tail.head?, c.isDigit = false) :
    (whole ++ tail).takeWhile Char.isDigit = whole := by
  rw [List.takeWhile_append_of_pos h.2]
  cases tail with
  | nil => rw [List.takeWhile_nil, List.append_nil]
  | cons c tail => rw [List.takeWhile_cons_of_neg (by simp [htail c rfl]), List.append_nil]

theorem head?_of_power? (h : power? tail = some power) : ∀ c ∈ tail.head?, c.isDigit = false := by
  cases tail with
  | nil => exact nofun
  | cons mark cs =>
    rintro c hc
    cases hc
    rw [power?] at h
    split at h
    · cases h
    · rename_i hmark
      have hmark : mark = 'e' := by simpa using hmark
      rw [hmark]
      rfl

/-- Digits around a point are read as one row of digits. -/
theorem decimal?_point (hwhole : Digits whole) (hfraction : Digits fraction)
    (hpower : power? tail = some power) :
    decimal? (whole ++ '.' :: (fraction ++ tail)) =
      some ⟨Nat.ofDigitChars 10 (whole ++ fraction) 0, power - fraction.length⟩ := by
  have hpoint : ∀ c ∈ ('.' :: (fraction ++ tail)).head?, c.isDigit = false := by
    rintro c hc
    cases hc
    rfl
  have htail := head?_of_power? hpower
  unfold decimal?
  rw [takeWhile_digits hwhole hpoint, dropWhile_digits hwhole.2 hpoint]
  simp [takeWhile_digits hfraction htail, dropWhile_digits hfraction.2 htail, hwhole.1, hfraction.1, hpower]

/-- Digits without a point are read with their power of ten. -/
theorem decimal?_power (hwhole : Digits whole) (hpower : power? ('e' :: tail) = some power) :
    decimal? (whole ++ 'e' :: tail) = some ⟨Nat.ofDigitChars 10 whole 0, power⟩ := by
  have htail := head?_of_power? hpower
  unfold decimal?
  rw [takeWhile_digits hwhole htail, dropWhile_digits hwhole.2 htail]
  simp [hwhole.1, hpower]

end Parts

/-! ## Written decimals -/

theorem isDigit_of_mem_zeros (n : Nat) : ∀ c ∈ List.replicate n '0', c.isDigit = true := by
  intro c hc
  rw [List.eq_of_mem_replicate hc]
  rfl

theorem digits_append {ds es : List Char} (hds : ∀ c ∈ ds, c.isDigit = true)
    (hes : ∀ c ∈ es, c.isDigit = true) (h : ds ≠ [] ∨ es ≠ []) : Digits (ds ++ es) := by
  refine ⟨fun hnil => ?_, fun c hc => (List.mem_append.1 hc).elim (hds c) (hes c)⟩
  obtain ⟨hds', hes'⟩ := List.append_eq_nil_iff.1 hnil
  exact h.elim (· hds') (· hes')

/-- A decimal without an exponent. -/
theorem decimal?_positional {ds : List Char} (h : Digits ds) (exponent : Int) :
    ∃ zeros : Nat, decimal? (NumberFormat.literal.positional ds exponent).toList =
      some ⟨Nat.ofDigitChars 10 ds 0 * 10 ^ zeros, exponent - zeros⟩ := by
  have hzero : Digits ['0'] := ⟨List.cons_ne_nil _ _, isDigit_of_mem_zeros 1⟩
  unfold NumberFormat.positional
  split
  · -- a whole number gets one zero behind its point
    rename_i hwhole
    refine ⟨exponent.toNat + 1, ?_⟩
    have htext : (String.ofList (ds ++ List.replicate exponent.toNat '0') ++
        NumberFormat.literal.wholeSuffix).toList =
          (ds ++ List.replicate exponent.toNat '0') ++ '.' :: (['0'] ++ []) := by
      rw [String.toList_append, String.toList_ofList]
      rfl
    have hdigits : Digits (ds ++ List.replicate exponent.toNat '0') :=
      digits_append h.2 (isDigit_of_mem_zeros _) (.inl h.1)
    rw [htext, decimal?_point hdigits hzero power?_nil, Nat.ofDigitChars_append,
      Nat.ofDigitChars_append, Nat.ofDigitChars_replicate_zero, ← List.replicate_one,
      Nat.ofDigitChars_replicate_zero, ← Nat.mul_assoc, ← Nat.pow_add, Nat.mul_comm, Nat.add_comm 1]
    congr 2
    rw [List.length_replicate]
    omega
  · refine ⟨0, ?_⟩
    rw [Nat.pow_zero, Nat.mul_one, Int.natCast_zero, Int.sub_zero]
    dsimp only
    split
    · -- the point stands between the digits
      rename_i hexponent hplaces
      have hlength : ds.length - (-exponent).toNat < ds.length := by omega
      have hwhole : Digits (ds.take (ds.length - (-exponent).toNat)) := by
        refine ⟨?_, fun c hc => h.2 c (List.mem_of_mem_take hc)⟩
        rw [Ne, List.take_eq_nil_iff, not_or]
        exact ⟨by omega, h.1⟩
      have hfraction : Digits (ds.drop (ds.length - (-exponent).toNat)) := by
        refine ⟨?_, fun c hc => h.2 c (List.mem_of_mem_drop hc)⟩
        rw [Ne, List.drop_eq_nil_iff]
        omega
      have hread := decimal?_point hwhole hfraction power?_nil
      rw [List.append_nil, List.take_append_drop] at hread
      rw [String.toList_ofList, hread, List.length_drop]
      congr 2
      omega
    · rename_i hexponent hplaces
      have hfraction : Digits (List.replicate ((-exponent).toNat - ds.length) '0' ++ ds) :=
        digits_append (isDigit_of_mem_zeros _) h.2 (.inr h.1)
      have hread := decimal?_point hzero hfraction power?_nil
      rw [List.append_nil, Nat.ofDigitChars_append, Nat.ofDigitChars_append,
        Nat.ofDigitChars_replicate_zero] at hread
      rw [String.toList_ofList]
      refine hread.trans ?_
      rw [List.length_append, List.length_replicate]
      congr 2
      omega

/-- A decimal with an exponent. -/
theorem decimal?_scientific {ds : List Char} (h : Digits ds) (power : Int) :
    decimal? (NumberFormat.literal.scientific ds power).toList =
      some ⟨Nat.ofDigitChars 10 ds 0, power - (ds.length - 1 : Nat)⟩ := by
  obtain ⟨d, rest, rfl⟩ := List.exists_cons_of_ne_nil h.1
  have hd : Digits [d] := ⟨nofun, fun c hc => by
    rw [List.mem_singleton.1 hc]
    exact h.2 d List.mem_cons_self⟩
  have hpower : ∀ lead : List Char,
      (String.ofList lead ++ "e" ++ toString power).toList = lead ++ 'e' :: (toString power).toList := by
    intro lead
    rw [String.toList_append, String.toList_append, String.toList_ofList, List.append_assoc]
    rfl
  cases rest with
  | nil =>
    refine (congrArg decimal? (hpower [d])).trans ?_
    rw [decimal?_power hd (power?_toString power)]
    simp
  | cons d' rest =>
    have hrest : Digits (d' :: rest) := ⟨nofun, fun c hc => h.2 c (List.mem_cons_of_mem _ hc)⟩
    refine (congrArg decimal? (hpower (d :: '.' :: d' :: rest))).trans ?_
    exact decimal?_point hd hrest (power?_toString power)

/-- **A written decimal is read as itself**, with zeros behind it. -/
theorem decimal?_literal (d : Decimal) :
    ∃ zeros : Nat, decimal? (NumberFormat.literal.decimal d).toList =
      some ⟨d.digits * 10 ^ zeros, d.exponent - zeros⟩ := by
  have hdigits := digits_toDigits d.digits
  unfold NumberFormat.decimal
  dsimp only
  split
  · have hread := decimal?_positional hdigits d.exponent
    rwa [Nat.ofDigitChars_ten_toDigits] at hread
  · refine ⟨0, ?_⟩
    rw [decimal?_scientific hdigits, Nat.ofDigitChars_ten_toDigits]
    have hpositive : 0 < (Nat.toDigits 10 d.digits).length := Nat.length_toDigits_pos
    congr 2
    · simp
    · omega

/-- A literal is read with its sign. -/
theorem read_literal (negative : Bool) (d : Decimal) :
    ∃ zeros : Nat, read ((if negative then "-" else "") ++ NumberFormat.literal.decimal d) =
      some ⟨negative, d.digits * 10 ^ zeros, d.exponent - zeros⟩ := by
  obtain ⟨zeros, hread⟩ := decimal?_literal d
  refine ⟨zeros, ?_⟩
  cases negative with
  | true =>
    have htext : ("-" ++ NumberFormat.literal.decimal d).toList =
        '-' :: (NumberFormat.literal.decimal d).toList := by
      rw [String.toList_append]
      rfl
    rw [if_pos rfl, read, htext, List.tail_cons, hread]
    rfl
  | false =>
    obtain ⟨whole, fraction, exponent, htext, hwhole, -⟩ := isDecimal_literal d
    have hsign := head?_ne_minus hwhole (fraction ++ exponent)
    rw [← htext] at hsign
    rw [if_neg Bool.false_ne_true, String.empty_append, read, hsign, hread]
    rfl

end Numeral

/-! ## Digits that count -/

/-- The number of digits of a decimal, without zeros before or behind them. -/
def Decimal.significant (d : Decimal) : Nat :=
  ((Nat.toDigits 10 d.digits).reverse.dropWhile (· == '0')).length

namespace Decimal

theorem significant_le (d : Decimal) : d.significant ≤ digitCount d.digits := by
  have hlength := (List.dropWhile_sublist (· == '0') (l := (Nat.toDigits 10 d.digits).reverse)).length_le
  rwa [List.length_reverse] at hlength

theorem toDigits_mul_ten {n : Nat} (h : 0 < n) : Nat.toDigits 10 (n * 10) = Nat.toDigits 10 n ++ ['0'] := by
  have happend := Nat.toDigits_append_toDigits (b := 10) (d := 0) (by decide) h (by decide)
  rw [Nat.add_zero, Nat.mul_comm] at happend
  rw [← happend]
  rfl

/-- Zeros behind a decimal do not count. -/
theorem significant_mul_pow (n zeros : Nat) (e e' : Int) :
    significant ⟨n * 10 ^ zeros, e⟩ = significant ⟨n, e'⟩ := by
  rcases Nat.eq_zero_or_pos n with rfl | hpositive
  · rw [Nat.zero_mul]
    rfl
  · induction zeros with
    | zero => rw [Nat.pow_zero, Nat.mul_one]; rfl
    | succ zeros ih =>
      rw [← ih, significant, significant, Nat.pow_succ, ← Nat.mul_assoc,
        toDigits_mul_ten (Nat.mul_pos hpositive (Nat.pow_pos (by decide)))]
      simp

/-- The value does not depend on where the point is counted from. -/
theorem value_mul_pow (n zeros : Nat) (e : Int) :
    value ⟨n * 10 ^ zeros, e - zeros⟩ = value ⟨n, e⟩ := by
  have hten : (10 : ℚ) ≠ 0 := by norm_num
  rw [value, value, zpow_sub₀ hten, zpow_natCast]
  push_cast
  rw [mul_assoc, mul_div_cancel₀ _ (pow_ne_zero _ hten)]

/-- **No other digits are needed**: a decimal other than zero has the value of one with as many digits as
count. -/
theorem exists_significant (n : Nat) (h : 0 < n) (e : Int) :
    ∃ d : Decimal, d.value = value ⟨n, e⟩ ∧ digitCount d.digits = significant ⟨n, e⟩ := by
  induction n using Nat.strong_induction_on generalizing e with
  | _ n ih =>
    by_cases hzero : n % 10 = 0
    · have hsplit : n = n / 10 * 10 ^ 1 := by omega
      obtain ⟨d, hvalue, hcount⟩ := ih (n / 10) (by omega) (by omega) (e + 1)
      refine ⟨d, ?_, ?_⟩
      · have hshift := value_mul_pow (n / 10) 1 (e + 1)
        rw [← hsplit, Int.natCast_one, Int.add_sub_cancel] at hshift
        rw [hvalue, hshift]
      · rw [hcount, hsplit, significant_mul_pow]
        rw [← hsplit]
    · -- the last digit is not zero, so nothing is dropped
      obtain ⟨front, hfront⟩ : ∃ front, Nat.toDigits 10 n = front ++ [Nat.digitChar (n % 10)] := by
        rw [Nat.toDigits_eq_if (by decide)]
        split
        · rename_i hless
          exact ⟨[], by rw [Nat.mod_eq_of_lt hless, List.nil_append]⟩
        · exact ⟨_, rfl⟩
      have hdigit : ∀ digit < 10, digit ≠ 0 → (Nat.digitChar digit == '0') = false := by decide
      have hlast := hdigit (n % 10) (Nat.mod_lt _ (by decide)) hzero
      refine ⟨⟨n, e⟩, rfl, ?_⟩
      rw [digitCount, significant, hfront, List.reverse_append, List.reverse_singleton,
        List.singleton_append, List.dropWhile_cons_of_neg (by rw [hlast]; exact Bool.false_ne_true)]
      simp

end Decimal

/-! ## Literals of numbers -/

/-- A numeral is read as a number: its sign is that of the number, and its magnitude rounds to it. -/
structure Numeral.Denotes (n : Numeral) (x : Single) : Prop where
  sign : n.negative = x.isNegative
  rounds : RoundsTo n.decimal.value x

/-- A numeral is read as one number. -/
theorem Numeral.Denotes.unique {n : Numeral} {x y : Single} (hx : n.Denotes x) (hy : n.Denotes y) :
    x = y :=
  Single.eq_of_rank (hx.sign.symm.trans hy.sign) (hx.rounds.rank_unique hy.rounds)

section Numbers

variable {x : Single}

theorem roundsTo_zero (hfinite : x.isFinite = true) (h : x.significand = 0) : RoundsTo 0 x := by
  have hmagnitude : x.magnitude = 0 := by rw [Single.magnitude, h, Nat.cast_zero, zero_mul]
  refine ⟨hfinite, fun y _ => ?_, fun _ _ _ _ => by rw [h]⟩
  rw [hmagnitude, sub_zero, abs_zero]
  exact abs_nonneg _

/-- Only zero is read from digits that are all zero. -/
theorem RoundsTo.digits_pos {d : Decimal} (h : RoundsTo d.value x) (hpositive : x.significand ≠ 0) :
    0 < d.digits := by
  refine Nat.pos_of_ne_zero fun hdigits => hpositive ?_
  rw [Decimal.value, hdigits, Nat.cast_zero, zero_mul] at h
  have hrank := h.rank_unique (roundsTo_zero (x := ⟨0⟩) (by decide) (by decide))
  rw [x.significand_eq, hrank]
  rfl

/-- The digits of a shortest decimal that count are as few as in every decimal that rounds to the
number. -/
theorem Single.significant_shortest_le (hfinite : x.isFinite = true) {d : Decimal}
    (h : RoundsTo d.value x) : x.shortest.significant ≤ d.significant := by
  by_cases hzero : x.significand = 0
  · rw [Single.shortest, if_pos hzero]
    exact Nat.zero_le _
  · obtain ⟨short, hvalue, hcount⟩ := Decimal.exists_significant d.digits (h.digits_pos hzero) d.exponent
    calc x.shortest.significant ≤ digitCount x.shortest.digits := Decimal.significant_le _
      _ ≤ digitCount short.digits := (Single.shortest_spec hfinite hzero).2 short (hvalue ▸ h)
      _ = d.significant := hcount

theorem Single.roundsTo_shortest (hfinite : x.isFinite = true) : RoundsTo x.shortest.value x := by
  by_cases hzero : x.significand = 0
  · have hvalue : x.shortest.value = 0 := by
      rw [Single.shortest, if_pos hzero, Decimal.value, Nat.cast_zero, zero_mul]
    rw [hvalue]
    exact roundsTo_zero hfinite hzero
  · exact (Single.shortest_spec hfinite hzero).1

/-- **A number is read back from its text**, which has as few digits as possible. -/
theorem Single.read_text (hfinite : x.isFinite = true) :
    ∃ n : Numeral, Numeral.read x.text = some n ∧ n.Denotes x ∧
      ∀ other : Numeral, other.Denotes x → n.decimal.significant ≤ other.decimal.significant := by
  obtain ⟨zeros, hread⟩ := Numeral.read_literal x.isNegative x.shortest
  rw [← Single.text_of_isFinite hfinite] at hread
  refine ⟨_, hread, ⟨rfl, ?_⟩, fun other hother => ?_⟩
  · rw [Decimal.value_mul_pow]
    exact Single.roundsTo_shortest hfinite
  · rw [Decimal.significant_mul_pow _ _ _ x.shortest.exponent]
    exact Single.significant_shortest_le hfinite hother.rounds

end Numbers

/-- **Floating literals lose nothing.**  In every scope a finite number is lowered to a floating literal: a
sign if the number is negative, and a number token of the targets.  It is read as this number and no other
one, so different numbers have different literals; and no decimal with fewer digits that count is read as
the number.  Infinities and other patterns that are no numbers are errors. -/
theorem float_literals_lossless (s : Scope) (loc : Location) :
    (∀ x : Single, x.isFinite = true → ∃ text body n,
      s.lower loc (.literal (.float x)) = .ok text ∧
      text = (if x.isNegative then "-" else "") ++ body ∧ IsNumeral body ∧
      Numeral.read text = some n ∧ (∀ y : Single, n.Denotes y ↔ y = x) ∧
      ∀ other : Numeral, other.Denotes x → n.decimal.significant ≤ other.decimal.significant) ∧
    (∀ x y : Single, x.isFinite = true → y.isFinite = true → x ≠ y →
      s.lower loc (.literal (.float x)) ≠ s.lower loc (.literal (.float y))) ∧
    ∀ x : Single, x.isFinite = false →
      s.lower loc (.literal (.float x)) = .error (.unsupported (.nonFinite x.text) loc) := by
  have hlower : ∀ x : Single, s.lower loc (.literal (.float x)) =
      if x.isFinite then .ok x.text else .error (.unsupported (.nonFinite x.text) loc) := by
    intro x
    rw [Scope.lower, Literal.lower]
  refine ⟨fun x hfinite => ?_, fun x y hx hy hne heq => ?_, fun x hfinite => ?_⟩
  · obtain ⟨n, hread, hdenotes, hfewest⟩ := Single.read_text hfinite
    refine ⟨x.text, _, n, ?_, Single.text_of_isFinite hfinite, isNumeral_decimal _, hread, fun y => ?_,
      hfewest⟩
    · rw [hlower, if_pos hfinite]
    · exact ⟨fun hy => hy.unique hdenotes, fun hy => hy ▸ hdenotes⟩
  · obtain ⟨n, hread, hdenotes, -⟩ := Single.read_text hx
    obtain ⟨n', hread', hdenotes', -⟩ := Single.read_text hy
    rw [hlower, hlower, if_pos hx, if_pos hy] at heq
    rw [Except.ok.inj heq] at hread
    cases hread.symm.trans hread'
    exact hne (hdenotes.unique hdenotes')
  · rw [hlower, hfinite, if_neg Bool.false_ne_true]

/-- Negative zero, the least and the greatest positive number. -/
def Single.extremes : List (Single × String) :=
  [(⟨0x80000000⟩, "-0.0"), (⟨1⟩, "1e-45"), (⟨0x7F7FFFFF⟩, "3.4028235e38")]

theorem float_literals_lossless_extremes :
    ∀ (s : Scope) (loc : Location), ∀ entry ∈ Single.extremes,
      entry.1.isFinite = true ∧ s.lower loc (.literal (.float entry.1)) = .ok entry.2 ∧
      ∃ n, Numeral.read entry.2 = some n ∧ (∀ y : Single, n.Denotes y ↔ y = entry.1) ∧
        ∀ other : Numeral, other.Denotes entry.1 → n.decimal.significant ≤ other.decimal.significant := by
  intro s loc entry hentry
  have hfinite : entry.1.isFinite = true := by
    revert entry
    decide
  have htext : entry.1.text = entry.2 := by
    revert entry
    decide +kernel
  obtain ⟨text, -, n, hlower, -, -, hread, hdenotes, hfewest⟩ :=
    (float_literals_lossless s loc).1 entry.1 hfinite
  have hsame : text = entry.2 := by
    have hlowered : s.lower loc (.literal (.float entry.1)) = .ok entry.1.text := by
      rw [Scope.lower, Literal.lower, if_pos hfinite]
    rw [← htext]
    exact Except.ok.inj (hlower.symm.trans hlowered)
  rw [hsame] at hlower hread
  exact ⟨hfinite, hlower, n, hread, hdenotes, hfewest⟩

end CrossShader

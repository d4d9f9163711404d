import CrossShader.Proofs.Decimal.Nearest

/-!
# Shortest decimals that read back

Why the digits of `Single.shortest` are enough, and why fewer are not.

* `Rounding.contains_iff` — the interval test, on rational numbers.
* `contains_iff_roundsTo` — the interval of a number holds what rounds to it.
* `Rounding.magnitude_spec`, `Rounding.floor_spec` — the number between powers of ten, and between its two
  neighbours on a decimal grid.
* `Rounding.contains_neighbour` — if a decimal of some length is in the interval, then so is a neighbour on
  the grid of that length.
* `Single.shortest_spec` — the decimal that is found rounds to the number, and none with fewer digits does.
-/

set_option autoImplicit false

namespace CrossShader

/-- The number that a decimal stands for. -/
def Decimal.value (d : Decimal) : ℚ := d.digits * 10 ^ d.exponent

/-! ## Intervals -/

theorem zpow_mul_pow_toNat {b : ℚ} (hb : b ≠ 0) (e : Int) :
    b ^ e * b ^ (-e).toNat = b ^ e.toNat := by
  rcases le_total 0 e with he | he
  · obtain ⟨n, rfl⟩ := Int.eq_ofNat_of_zero_le he
    simp
  · obtain ⟨n, hn⟩ := Int.eq_ofNat_of_zero_le (neg_nonneg.2 he)
    rw [hn, Int.toNat_natCast, Int.toNat_of_nonpos he, ← zpow_natCast, ← hn, ← zpow_add₀ hb]
    simp

namespace Rounding

/-- The numbers in the interval. -/
def Contains (r : Rounding) (q : ℚ) : Prop :=
  Within r.closed r.lower (q * r.denominator) ∧ Within r.closed (q * r.denominator) r.upper

/-- The interval test compares rational numbers. -/
theorem contains_iff (r : Rounding) (d : Decimal) : r.contains d = true ↔ r.Contains d.value := by
  let scale := Nat.pow 10 (-d.exponent).toNat
  let scaled := d.digits * Nat.pow 10 d.exponent.toNat * r.denominator
  have hscale : (0 : ℚ) < scale := Nat.cast_pos.2 (Nat.pow_pos (by decide))
  have hscaled : (scaled : ℚ) = d.value * r.denominator * scale := by
    simp only [scaled, scale, Nat.pow_eq, Decimal.value]
    push_cast
    rw [← zpow_mul_pow_toNat (by norm_num) d.exponent]
    ring
  -- the ends of the interval are compared after scaling to whole numbers
  have hlower : Within r.closed r.lower (d.value * r.denominator) ↔
      Within r.closed (r.lower * scale : Nat) scaled := by
    rw [hscaled, Nat.cast_mul, within_mul_iff hscale]
  have hupper : Within r.closed (d.value * r.denominator) r.upper ↔
      Within r.closed scaled (r.upper * scale : Nat) := by
    rw [hscaled, Nat.cast_mul, within_mul_iff hscale]
  rw [Contains, hlower, hupper]
  unfold contains Within
  cases r.closed with
  | true =>
    simp only [if_true, decide_eq_true_eq, Nat.cast_le]
    rfl
  | false =>
    simp only [Bool.false_eq_true, if_false, decide_eq_true_eq, Nat.cast_lt]
    rfl

end Rounding

/-! ## The interval of a number -/

/-- The unit below a pattern is half of the one above it exactly if the pattern is a power of two. -/
theorem two_zpow_scaleAt (before : Nat) :
    (2 : ℚ) ^ scaleAt before =
      (if (before + 1) % 0x800000 = 0 ∧ 1 < (before + 1) / 0x800000 then 1 else 2 : Nat) *
        2 ^ scaleAt (before + 1) / 2 := by
  split
  · have hscale : scaleAt (before + 1) = scaleAt before + 1 := by
      unfold scaleAt
      omega
    rw [hscale, zpow_add_one₀ two_ne_zero]
    push_cast
    ring
  · have hscale : scaleAt (before + 1) = scaleAt before := by
      unfold scaleAt
      omega
    rw [hscale]
    push_cast
    ring

section Interval

variable {x : Single}

theorem Single.exists_rank_eq_succ (h : x.significand ≠ 0) : ∃ before, x.rank = before + 1 := by
  refine Nat.exists_eq_succ_of_ne_zero fun hzero => h ?_
  rw [x.significand_eq, hzero]
  rfl

/-- The quarters of the last place, over the denominator. -/
theorem Single.quarter_eq (x : Single) : ((Nat.pow 2 (x.scale - 2).toNat : Nat) : ℚ) =
    2 ^ x.scale / 4 * x.rounding.denominator := by
  have hsplit := zpow_mul_pow_toNat (b := (2 : ℚ)) two_ne_zero (x.scale - 2)
  have hquarter : (2 : ℚ) ^ (x.scale - 2) = 2 ^ x.scale / 4 := by
    rw [zpow_sub₀ two_ne_zero]
    norm_num
  have hdown : (x.rounding.denominator : ℚ) = 2 ^ (2 - x.scale).toNat := by
    show ((Nat.pow 2 _ : Nat) : ℚ) = _
    rw [Nat.pow_eq, Nat.cast_pow, Nat.cast_ofNat]
  rw [neg_sub, hquarter, ← hdown] at hsplit
  rw [Nat.pow_eq, Nat.cast_pow, Nat.cast_ofNat, hsplit]

/-- The ends of the interval are the midpoints to the next numbers. -/
theorem Single.rounding_ends {before : Nat} (h : x.rank = before + 1) :
    (x.rounding.lower : ℚ) = (magnitudeAt before + magnitudeAt x.rank) / 2 * x.rounding.denominator ∧
    (x.rounding.upper : ℚ) =
      (magnitudeAt x.rank + magnitudeAt (x.rank + 1)) / 2 * x.rounding.denominator := by
  have hquarter := x.quarter_eq
  have hmagnitude : magnitudeAt x.rank = x.significand * 2 ^ x.scale := x.magnitude_eq.symm
  constructor
  · -- the gap below a power of two is half as wide as the others
    let gap := if x.fraction = 0 ∧ 1 < x.exponentField then 1 else 2
    have hbelow : (2 : ℚ) ^ scaleAt before = gap * 2 ^ x.scale / 2 := by
      rw [two_zpow_scaleAt, ← h, ← x.scale_eq, ← x.exponentField_eq, ← x.fraction_eq]
    have hprevious : magnitudeAt x.rank = magnitudeAt before + gap * 2 ^ x.scale / 2 := by
      rw [h, magnitudeAt_succ, hbelow]
    have hgap : gap ≤ 4 * x.significand := by
      have hpositive : 0 < x.significand := by
        rw [x.significand_eq, h]
        unfold significandAt
        split <;> omega
      show (if _ then 1 else 2) ≤ _
      split <;> omega
    have hlower : (x.rounding.lower : ℚ) =
        (4 * x.significand - gap) * (Nat.pow 2 (x.scale - 2).toNat : Nat) := by
      show (((4 * x.significand - gap) * Nat.pow 2 (x.scale - 2).toNat : Nat) : ℚ) = _
      rw [Nat.cast_mul, Nat.cast_sub hgap]
      push_cast
      rfl
    rw [hlower, hquarter]
    linear_combination x.rounding.denominator * (hprevious - 2 * hmagnitude) / 2
  · have hupper : (x.rounding.upper : ℚ) =
        (4 * x.significand + 2) * (Nat.pow 2 (x.scale - 2).toNat : Nat) := by
      show (((4 * x.significand + 2) * Nat.pow 2 (x.scale - 2).toNat : Nat) : ℚ) = _
      push_cast
      rfl
    rw [hupper, hquarter, magnitudeAt_succ, hmagnitude, ← x.scale_eq]
    ring

theorem Single.rounding_value (x : Single) :
    (x.rounding.value : ℚ) = x.magnitude * x.rounding.denominator := by
  have hvalue : (x.rounding.value : ℚ) = 4 * x.significand * (Nat.pow 2 (x.scale - 2).toNat : Nat) := by
    show ((4 * x.significand * Nat.pow 2 (x.scale - 2).toNat : Nat) : ℚ) = _
    push_cast
    rfl
  rw [hvalue, x.quarter_eq, Single.magnitude]
  ring

theorem Single.rounding_denominator_pos (x : Single) : 0 < x.rounding.denominator :=
  Nat.pow_pos (by decide)

/-- **The interval of a number holds what rounds to it.** -/
theorem contains_iff_roundsTo (hfinite : x.isFinite = true) (hpositive : x.significand ≠ 0) {q : ℚ} :
    x.rounding.Contains q ↔ RoundsTo q x := by
  obtain ⟨before, hrank⟩ := Single.exists_rank_eq_succ hpositive
  obtain ⟨hlower, hupper⟩ := Single.rounding_ends hrank
  have hdown : (0 : ℚ) < x.rounding.denominator := Nat.cast_pos.2 x.rounding_denominator_pos
  have hhalf : ∀ sum : ℚ, sum / 2 * x.rounding.denominator = sum * (x.rounding.denominator / 2) := by
    intro sum
    ring
  have hdouble : q * x.rounding.denominator = 2 * q * (x.rounding.denominator / 2) := by ring
  have hclosed : x.rounding.closed = (x.rank % 2 == 0) := by
    rw [← significandAt_mod_two, ← x.significand_eq]
    rfl
  have hbefore : (∀ before, x.rank = before + 1 →
      Within (x.rank % 2 == 0) (magnitudeAt before + magnitudeAt x.rank) (2 * q)) ↔
      Within (x.rank % 2 == 0) (magnitudeAt before + magnitudeAt x.rank) (2 * q) := by
    refine ⟨fun h => h before hrank, fun h other hother => ?_⟩
    rwa [← Nat.succ.inj (hrank.symm.trans hother)]
  rw [roundsTo_iff_nearest, and_iff_right hfinite,
    nearest_iff magnitudeAt_strictMono (Single.isFinite_iff.1 hfinite), hbefore, and_comm,
    Rounding.Contains, hclosed, hlower, hupper, hdouble, hhalf, hhalf, within_mul_iff (half_pos hdown),
    within_mul_iff (half_pos hdown)]

end Interval

/-! ## Powers of ten -/

theorem digitCount_le_iff {n count : Nat} (h : 0 < count) : digitCount n ≤ count ↔ n < 10 ^ count :=
  Nat.length_toDigits_le_iff (by decide) h

theorem digitCount_pos (n : Nat) : 0 < digitCount n := Nat.length_toDigits_pos

theorem lt_pow_digitCount (n : Nat) : n < 10 ^ digitCount n :=
  (digitCount_le_iff (digitCount_pos n)).1 (Nat.le_refl _)

theorem pow_digitCount_le {n : Nat} (h : 0 < n) : 10 ^ (digitCount n - 1) ≤ n := by
  rcases Nat.eq_zero_or_pos (digitCount n - 1) with hone | hmore
  · rw [hone]
    exact h
  · by_contra hless
    have hshort := (digitCount_le_iff hmore).2 (Nat.lt_of_not_le hless)
    omega

namespace Rounding

/-- The number in the middle of the interval. -/
def quotient (r : Rounding) : ℚ := r.value / r.denominator

/-- An interval around a positive number. -/
structure Proper (r : Rounding) : Prop where
  denominator_pos : 0 < r.denominator
  lower_lt : r.lower < r.value
  lt_upper : r.value < r.upper

section Proper

variable {r : Rounding} (h : r.Proper)
include h

theorem Proper.quotient_mul : r.quotient * r.denominator = r.value :=
  div_mul_cancel₀ _ (Nat.cast_ne_zero.2 h.denominator_pos.ne')

/-- What is below the middle is in the interval if it is above the lower bound. -/
theorem Proper.contains_of_le {q : ℚ} (hlower : Within r.closed r.lower (q * r.denominator))
    (hmiddle : q ≤ r.quotient) : r.Contains q := by
  have hvalue := mul_le_mul_of_nonneg_right hmiddle (Nat.cast_nonneg r.denominator)
  rw [h.quotient_mul] at hvalue
  exact ⟨hlower, .of_lt (hvalue.trans_lt (Nat.cast_lt.2 h.lt_upper))⟩

theorem Proper.contains_of_ge {q : ℚ} (hupper : Within r.closed (q * r.denominator) r.upper)
    (hmiddle : r.quotient ≤ q) : r.Contains q := by
  have hvalue := mul_le_mul_of_nonneg_right hmiddle (Nat.cast_nonneg r.denominator)
  rw [h.quotient_mul] at hvalue
  exact ⟨.of_lt ((Nat.cast_lt.2 h.lower_lt).trans_le hvalue), hupper⟩

/-- What lies between a number of the interval and the middle is in the interval. -/
theorem Proper.contains_between {q q' : ℚ} (hq : r.Contains q)
    (hbetween : q ≤ q' ∧ q' ≤ r.quotient ∨ r.quotient ≤ q' ∧ q' ≤ q) : r.Contains q' := by
  rcases hbetween with ⟨hle, hmiddle⟩ | ⟨hmiddle, hle⟩
  · exact h.contains_of_le
      (hq.1.trans_le (mul_le_mul_of_nonneg_right hle (Nat.cast_nonneg _))) hmiddle
  · exact h.contains_of_ge (hq.2.of_le (mul_le_mul_of_nonneg_right hle (Nat.cast_nonneg _))) hmiddle

/-- The number lies between two powers of ten. -/
theorem Proper.magnitude_spec :
    (10 : ℚ) ^ r.magnitude ≤ r.quotient ∧ r.quotient < 10 ^ (r.magnitude + 1) := by
  have hdown : (0 : ℚ) < r.denominator := Nat.cast_pos.2 h.denominator_pos
  have hvalue : 0 < r.value := Nat.zero_lt_of_lt h.lower_lt
  rw [quotient, le_div_iff₀ hdown, div_lt_iff₀ hdown]
  unfold magnitude
  split
  · rename_i hwhole
    have hlow := pow_digitCount_le (Nat.div_pos hwhole h.denominator_pos)
    have hhigh := lt_pow_digitCount (r.value / r.denominator)
    obtain ⟨count, hcount⟩ := Nat.exists_eq_succ_of_ne_zero (digitCount_pos (r.value / r.denominator)).ne'
    rw [hcount] at hlow hhigh ⊢
    rw [Nat.le_div_iff_mul_le h.denominator_pos] at hlow
    rw [Nat.div_lt_iff_lt_mul h.denominator_pos] at hhigh
    have hexponent : ((count.succ : Nat) : Int) - 1 = count := by push_cast; ring
    rw [hexponent, ← Nat.cast_succ, zpow_natCast, zpow_natCast]
    exact ⟨by exact_mod_cast hlow, by exact_mod_cast hhigh⟩
  · -- the reciprocal lies between two powers of ten
    rename_i hfraction
    have hlow := pow_digitCount_le (Nat.div_pos (show r.value ≤ r.denominator - 1 by omega) hvalue)
    have hhigh := lt_pow_digitCount ((r.denominator - 1) / r.value)
    obtain ⟨count, hcount⟩ := Nat.exists_eq_succ_of_ne_zero
      (digitCount_pos ((r.denominator - 1) / r.value)).ne'
    rw [hcount] at hlow hhigh ⊢
    rw [Nat.le_div_iff_mul_le hvalue] at hlow
    rw [Nat.div_lt_iff_lt_mul hvalue] at hhigh
    have hexponent : -((count.succ : Nat) : Int) + 1 = -(count : Int) := by push_cast; ring
    have hdown' : r.denominator ≤ 10 ^ count.succ * r.value := by omega
    have hup' : 10 ^ count * r.value < r.denominator := by
      rw [Nat.succ_sub_one] at hlow
      omega
    rw [hexponent, zpow_neg, zpow_neg, zpow_natCast, zpow_natCast, inv_mul_le_iff₀ (by positivity),
      lt_inv_mul_iff₀ (by positivity)]
    exact ⟨by exact_mod_cast hdown', by exact_mod_cast hup'⟩

end Proper

/-! ## Neighbours on a decimal grid -/

/-- The power of ten between the decimals of `count` digits. -/
def gridExponent (r : Rounding) (count : Nat) : Int := r.magnitude - count + 1

/-- The digits of the neighbour below. -/
def floor (r : Rounding) (count : Nat) : Nat :=
  r.value * Nat.pow 10 (-r.gridExponent count).toNat /
    (r.denominator * Nat.pow 10 (r.gridExponent count).toNat)

/-- The neighbour below. -/
def below (r : Rounding) (count : Nat) : Decimal := ⟨r.floor count, r.gridExponent count⟩

/-- The neighbour above. -/
def above (r : Rounding) (count : Nat) : Decimal :=
  if r.floor count + 1 = Nat.pow 10 count then ⟨1, r.gridExponent count + count⟩
  else ⟨r.floor count + 1, r.gridExponent count⟩

section Neighbour

variable {r : Rounding} {count : Nat}

theorem contains_of_neighbour {d : Decimal} (h : r.neighbour count = some d) :
    r.contains d = true ∧ (d = r.below count ∨ d = r.above count) := by
  unfold neighbour at h
  dsimp only at h
  split at h
  · rename_i hbelow habove
    split at h
    · cases h
      exact ⟨habove, .inr rfl⟩
    · cases h
      exact ⟨hbelow, .inl rfl⟩
  · rename_i hbelow _
    cases h
    exact ⟨hbelow, .inl rfl⟩
  · rename_i _ habove
    cases h
    exact ⟨habove, .inr rfl⟩
  · cases h

theorem not_contains_of_neighbour (h : r.neighbour count = none) :
    r.contains (r.below count) = false ∧ r.contains (r.above count) = false := by
  unfold neighbour at h
  dsimp only at h
  split at h
  · split at h <;> cases h
  · cases h
  · cases h
  · rename_i hbelow habove
    exact ⟨hbelow, habove⟩

theorem value_above : (r.above count).value = (r.floor count + 1) * 10 ^ r.gridExponent count := by
  unfold above Decimal.value
  split
  · rename_i hpower
    have hcast : (r.floor count : ℚ) + 1 = 10 ^ count := by exact_mod_cast hpower
    rw [hcast, zpow_add₀ (by norm_num), zpow_natCast]
    push_cast
    ring
  · push_cast
    rfl

variable (h : r.Proper)
include h

/-- The number lies between its neighbours. -/
theorem Proper.floor_spec (count : Nat) :
    (r.below count).value ≤ r.quotient ∧ r.quotient < (r.above count).value := by
  let scale := 10 ^ (-r.gridExponent count).toNat
  let unit := r.denominator * 10 ^ (r.gridExponent count).toNat
  have hunit : 0 < unit := Nat.mul_pos h.denominator_pos (Nat.pow_pos (by decide))
  have hlow : r.floor count * unit ≤ r.value * scale := Nat.div_mul_le_self _ _
  have hhigh : r.value * scale < (r.floor count + 1) * unit :=
    (Nat.div_lt_iff_lt_mul hunit).1 (Nat.lt_succ_self _)
  -- the same over the denominator
  have hdown : (0 : ℚ) < r.denominator := Nat.cast_pos.2 h.denominator_pos
  have hscale : (0 : ℚ) < scale := by positivity
  have hgrid : (unit : ℚ) = r.denominator * 10 ^ r.gridExponent count * scale := by
    rw [Nat.cast_mul, Nat.cast_pow, Nat.cast_pow, Nat.cast_ofNat,
      ← zpow_mul_pow_toNat (by norm_num) (r.gridExponent count), mul_assoc]
  have hlow : (r.floor count * (r.denominator * 10 ^ r.gridExponent count) : ℚ) * scale ≤
      r.value * scale := by
    rw [mul_assoc, ← hgrid]
    exact_mod_cast hlow
  have hhigh : (r.value * scale : ℚ) <
      (r.floor count + 1) * (r.denominator * 10 ^ r.gridExponent count) * scale := by
    rw [mul_assoc, ← hgrid]
    exact_mod_cast hhigh
  rw [mul_le_mul_iff_left₀ hscale] at hlow
  rw [mul_lt_mul_iff_left₀ hscale] at hhigh
  rw [value_above, Decimal.value, quotient, le_div_iff₀ hdown, div_lt_iff₀ hdown]
  constructor
  · rwa [below, mul_assoc, mul_comm (_ ^ _)]
  · rwa [mul_assoc, mul_comm (_ ^ _)]

/-- The neighbour below has as many digits as the grid. -/
theorem Proper.floor_bounds (hcount : 0 < count) :
    (10 : ℚ) ^ r.magnitude ≤ (r.below count).value ∧ r.floor count < 10 ^ count := by
  obtain ⟨hlow, hhigh⟩ := h.floor_spec count
  obtain ⟨hmagnitude, hnext⟩ := h.magnitude_spec
  have hgrid : (0 : ℚ) < 10 ^ r.gridExponent count := by positivity
  have hpower : ∀ digits : Nat, (10 : ℚ) ^ (r.gridExponent count + digits) =
      (10 ^ digits : Nat) * 10 ^ r.gridExponent count := by
    intro digits
    rw [zpow_add₀ (by norm_num), zpow_natCast, Nat.cast_pow, Nat.cast_ofNat, mul_comm]
  -- the last of `count` digits stands `count - 1` places below the first
  obtain ⟨digits, rfl⟩ := Nat.exists_eq_succ_of_ne_zero hcount.ne'
  constructor
  · have hexponent : r.magnitude = r.gridExponent digits.succ + digits := by
      unfold gridExponent
      push_cast
      ring
    rw [hexponent, hpower] at hmagnitude ⊢
    have hless := hmagnitude.trans_lt hhigh
    rw [value_above, mul_lt_mul_iff_left₀ hgrid] at hless
    rw [Decimal.value, below, mul_le_mul_iff_left₀ hgrid, Nat.cast_le]
    exact Nat.lt_succ_iff.1 (by exact_mod_cast hless)
  · have hexponent : r.magnitude + 1 = r.gridExponent digits.succ + (digits.succ : Nat) := by
      unfold gridExponent
      ring
    rw [hexponent, hpower] at hnext
    have hless := hlow.trans_lt hnext
    rw [Decimal.value, below, mul_lt_mul_iff_left₀ hgrid, Nat.cast_lt] at hless
    exact hless

theorem Proper.digitCount_neighbour (hcount : 0 < count) {d : Decimal}
    (hd : d = r.below count ∨ d = r.above count) : digitCount d.digits ≤ count := by
  have hfloor := (h.floor_bounds hcount).2
  rw [digitCount_le_iff hcount]
  rcases hd with rfl | rfl
  · exact hfloor
  · unfold above
    split
    · exact Nat.one_lt_pow hcount.ne' (by decide)
    · rename_i hpower
      exact Nat.lt_of_le_of_ne hfloor hpower

/-- **A grid that has a decimal in the interval has a neighbour there.**  A decimal of at most `count`
digits is on the grid of `count` digits, or it is less than every decimal with that many digits. -/
theorem Proper.contains_neighbour (hcount : 0 < count) {d : Decimal} (hd : r.Contains d.value)
    (hdigits : digitCount d.digits ≤ count) :
    r.contains (r.below count) = true ∨ r.contains (r.above count) = true := by
  rw [contains_iff, contains_iff]
  obtain ⟨hlow, hhigh⟩ := h.floor_spec count
  obtain ⟨hmagnitude, -⟩ := h.floor_bounds hcount
  have hgrid : (0 : ℚ) < 10 ^ r.gridExponent count := by positivity
  rw [digitCount_le_iff hcount] at hdigits
  rcases lt_or_ge d.exponent (r.gridExponent count) with hfine | hcoarse
  · -- so few digits on a finer grid are less than the first number of this one
    have hless : d.value < 10 ^ r.magnitude := by
      have hexponent : (count : Int) + d.exponent ≤ r.magnitude := by
        unfold gridExponent at hfine
        omega
      calc d.value < 10 ^ count * 10 ^ d.exponent :=
            mul_lt_mul_of_pos_right (by exact_mod_cast hdigits) (by positivity)
        _ = 10 ^ ((count : Int) + d.exponent) := by rw [zpow_add₀ (by norm_num), zpow_natCast]
        _ ≤ 10 ^ r.magnitude := zpow_le_zpow_right₀ (by norm_num) hexponent
    exact .inl (h.contains_between hd (.inl ⟨hless.le.trans hmagnitude, hlow⟩))
  · -- a decimal of a coarser grid is on this one too, on one side of the value
    obtain ⟨shift, hshift⟩ := Int.le.dest hcoarse
    have hvalue : d.value = (d.digits * 10 ^ shift : Nat) * 10 ^ r.gridExponent count := by
      rw [Decimal.value, ← hshift, zpow_add₀ (by norm_num), zpow_natCast]
      push_cast
      ring
    rcases le_or_gt d.value r.quotient with hleft | hright
    · refine .inl (h.contains_between hd (.inl ⟨?_, hlow⟩))
      have hless := hleft.trans_lt hhigh
      rw [hvalue, value_above, mul_lt_mul_iff_left₀ hgrid] at hless
      rw [hvalue, Decimal.value, below, mul_le_mul_iff_left₀ hgrid, Nat.cast_le]
      exact Nat.lt_succ_iff.1 (by exact_mod_cast hless)
    · refine .inr (h.contains_between hd (.inr ⟨hhigh.le, ?_⟩))
      have hmore := hlow.trans_lt hright
      rw [hvalue, Decimal.value, below, mul_lt_mul_iff_left₀ hgrid, Nat.cast_lt] at hmore
      rw [hvalue, value_above, mul_le_mul_iff_left₀ hgrid]
      exact_mod_cast hmore

end Neighbour

/-! ## The search -/

/-- The search stops at the first digit count with a neighbour in the interval. -/
theorem search_eq_some {r : Rounding} {tries count : Nat} {d : Decimal}
    (h : r.search tries count = some d) :
    ∃ found ≥ count, r.neighbour found = some d ∧
      ∀ fewer, count ≤ fewer → fewer < found → r.neighbour fewer = none := by
  induction tries generalizing count with
  | zero => cases h
  | succ tries ih =>
    rw [search] at h
    cases hfirst : r.neighbour count with
    | some first =>
      rw [hfirst] at h
      cases h
      exact ⟨count, Nat.le_refl _, hfirst, fun fewer hle hless => absurd hle (Nat.not_le_of_lt hless)⟩
    | none =>
      rw [hfirst] at h
      obtain ⟨found, hfound, heq, hnone⟩ := ih h
      refine ⟨found, Nat.le_of_succ_le hfound, heq, fun fewer hle hless => ?_⟩
      rcases Nat.eq_or_lt_of_le hle with rfl | hmore
      · exact hfirst
      · exact hnone fewer hmore hless

theorem search_eq_none {r : Rounding} {tries count : Nat} (h : r.search tries count = none) :
    ∀ tried, count ≤ tried → tried < count + tries → r.neighbour tried = none := by
  induction tries generalizing count with
  | zero => exact fun tried hle hless => absurd hless (Nat.not_lt_of_le hle)
  | succ tries ih =>
    rw [search] at h
    cases hfirst : r.neighbour count with
    | some first =>
      rw [hfirst] at h
      cases h
    | none =>
      rw [hfirst] at h
      intro tried hle hless
      rcases Nat.eq_or_lt_of_le hle with rfl | hmore
      · exact hfirst
      · exact ih h tried hmore (by omega)

/-- What is found is in the interval, and every decimal there has at least as many digits. -/
theorem Proper.search_spec {r : Rounding} (h : r.Proper) {tries : Nat} {d : Decimal}
    (hfound : r.search tries 1 = some d) :
    r.Contains d.value ∧ ∀ other : Decimal, r.Contains other.value →
      digitCount d.digits ≤ digitCount other.digits := by
  obtain ⟨count, hcount, hneighbour, hfewer⟩ := search_eq_some hfound
  obtain ⟨hcontains, hsides⟩ := contains_of_neighbour hneighbour
  refine ⟨(contains_iff _ _).1 hcontains, fun other hother => ?_⟩
  have hshort := h.digitCount_neighbour hcount hsides
  by_contra hless
  have hnone := hfewer (digitCount other.digits) (digitCount_pos _) (by omega)
  obtain ⟨hbelow, habove⟩ := not_contains_of_neighbour hnone
  rcases h.contains_neighbour (digitCount_pos _) hother (Nat.le_refl _) with hside | hside
  · rw [hbelow] at hside
    cases hside
  · rw [habove] at hside
    cases hside

end Rounding

/-! ## Nine digits are enough -/

namespace Single

variable {x : Single}

theorem significand_lt (x : Single) : x.significand < 2 ^ 24 := by
  unfold significand fraction
  split <;> omega

theorem rounding_proper (h : x.significand ≠ 0) : x.rounding.Proper := by
  obtain ⟨before, hrank⟩ := exists_rank_eq_succ h
  obtain ⟨hlower, hupper⟩ := rounding_ends hrank
  have hdown : (0 : ℚ) < x.rounding.denominator := by exact_mod_cast x.rounding_denominator_pos
  have hprevious : magnitudeAt before < magnitudeAt x.rank := magnitudeAt_strictMono (by omega)
  have hnext : magnitudeAt x.rank < magnitudeAt (x.rank + 1) :=
    magnitudeAt_strictMono (Nat.lt_succ_self _)
  refine ⟨x.rounding_denominator_pos, ?_, ?_⟩
  · rw [← Nat.cast_lt (α := ℚ), hlower, x.rounding_value, x.magnitude_eq, mul_lt_mul_iff_left₀ hdown]
    linarith
  · rw [← Nat.cast_lt (α := ℚ), hupper, x.rounding_value, x.magnitude_eq, mul_lt_mul_iff_left₀ hdown]
    linarith

theorem quotient_rounding (x : Single) : x.rounding.quotient = x.magnitude := by
  have hdown : (x.rounding.denominator : ℚ) ≠ 0 := Nat.cast_ne_zero.2 x.rounding_denominator_pos.ne'
  rw [Rounding.quotient, x.rounding_value, mul_div_cancel_right₀ _ hdown]

/-- **Nine digits are enough**: their grid is finer than a quarter of the last place, since the
significand is less than a quarter of `10 ^ 8`. -/
theorem contains_below_nine (h : x.significand ≠ 0) : x.rounding.contains (x.rounding.below 9) = true := by
  have hproper := rounding_proper h
  obtain ⟨before, hrank⟩ := exists_rank_eq_succ h
  have hdown : (0 : ℚ) < x.rounding.denominator := by exact_mod_cast x.rounding_denominator_pos
  have hunit : (0 : ℚ) < 2 ^ x.scale := by positivity
  have hgrid : (10 : ℚ) ^ x.rounding.gridExponent 9 < 2 ^ x.scale / 4 := by
    have hpower : (10 : ℚ) ^ x.rounding.gridExponent 9 * 10 ^ 8 ≤ x.significand * 2 ^ x.scale := by
      have hexponent : x.rounding.magnitude = x.rounding.gridExponent 9 + (8 : Nat) := by
        unfold Rounding.gridExponent
        push_cast
        ring
      have hmagnitude := hproper.magnitude_spec.1
      rwa [hexponent, zpow_add₀ (by norm_num), zpow_natCast, quotient_rounding] at hmagnitude
    have hsignificand : (x.significand : ℚ) ≤ 2 ^ 24 := by exact_mod_cast x.significand_lt.le
    have hproduct := mul_le_mul_of_nonneg_right hsignificand hunit.le
    norm_num at hpower hproduct
    linarith
  have hnear : x.magnitude - 2 ^ x.scale / 4 < (x.rounding.below 9).value := by
    have hhigh := (hproper.floor_spec 9).2
    rw [quotient_rounding, Rounding.value_above, add_mul, one_mul] at hhigh
    have hbelow : (x.rounding.below 9).value =
        x.rounding.floor 9 * 10 ^ x.rounding.gridExponent 9 := rfl
    linarith
  -- the number before is at least half of the last place away
  have hgap : (2 : ℚ) ^ x.scale / 2 ≤ 2 ^ scaleAt before := by
    have hscale : x.scale - 1 ≤ scaleAt before := by
      rw [x.scale_eq, hrank]
      unfold scaleAt
      omega
    have hpower := zpow_le_zpow_right₀ (a := (2 : ℚ)) (by norm_num) hscale
    rwa [zpow_sub_one₀ two_ne_zero, ← div_eq_mul_inv] at hpower
  have hstep : magnitudeAt x.rank = magnitudeAt before + 2 ^ scaleAt before := by
    rw [hrank, magnitudeAt_succ]
  rw [x.magnitude_eq] at hnear
  rw [Rounding.contains_iff]
  refine hproper.contains_of_le (.of_lt ?_) (hproper.floor_spec 9).1
  rw [(rounding_ends hrank).1]
  refine mul_lt_mul_of_pos_right ?_ hdown
  linarith

/-- **The shortest decimal.**  The decimal of a number other than zero rounds to the number, and every
decimal that does so has at least as many digits. -/
theorem shortest_spec (hfinite : x.isFinite = true) (h : x.significand ≠ 0) :
    RoundsTo x.shortest.value x ∧ ∀ other : Decimal, RoundsTo other.value x →
      digitCount x.shortest.digits ≤ digitCount other.digits := by
  cases hsearch : x.rounding.search 9 1 with
  | none =>
    have hnone := Rounding.search_eq_none hsearch 9 (by decide) (by decide)
    have hbelow := (Rounding.not_contains_of_neighbour hnone).1
    rw [contains_below_nine h] at hbelow
    cases hbelow
  | some found =>
    have hshortest : x.shortest = found := by rw [shortest, if_neg h, hsearch, Option.getD_some]
    obtain ⟨hcontains, hfewest⟩ := (rounding_proper h).search_spec hsearch
    rw [hshortest]
    exact ⟨(contains_iff_roundsTo hfinite h).1 hcontains,
      fun other hother => hfewest other ((contains_iff_roundsTo hfinite h).2 hother)⟩

end Single

end CrossShader

import CrossShader.Decimal.Shortest
import Mathlib.Algebra.Order.Field.Power
import Mathlib.Algebra.Order.Field.Rat
import Mathlib.Tactic.Linarith
import Mathlib.Tactic.LinearCombination
import Mathlib.Tactic.Positivity
import Mathlib.Tactic.Ring

/-!
# Rounding to single precision

Which rational numbers round to a binary32 number, nearest with ties to even.

* `Within` — bounds that belong to an interval or do not.
* `Nearest` — the nearest point of an increasing grid; `nearest_iff` — it is decided by the two midpoints
  next to the point; `Nearest.unique` — there is at most one.
* `Single.rank`, `magnitudeAt` — a pattern without its sign, and the number that it stands for;
  `magnitudeAt_succ` — the next pattern stands for the next number.
* `RoundsTo` — rounding of a rational number; `RoundsTo.unique` — it gives one pattern.
-/

set_option autoImplicit false

namespace CrossShader

/-! ## Bounds -/

/-- One number is at most another one, and equal to it only if the bound is closed. -/
def Within (closed : Bool) (low high : ℚ) : Prop := if closed then low ≤ high else low < high

section Within

variable {closed : Bool} {a b c : ℚ}

theorem within_iff : Within closed a b ↔ a ≤ b ∧ (a = b → closed = true) := by
  cases closed with
  | true => exact (and_iff_left fun _ => rfl).symm
  | false => exact lt_iff_le_and_ne.trans (and_congr_right fun _ => by simp)

theorem Within.of_lt (h : a < b) : Within closed a b :=
  within_iff.2 ⟨h.le, fun heq => absurd heq h.ne⟩

theorem Within.trans_le (h : Within closed a b) (hbc : b ≤ c) : Within closed a c := by
  cases closed with
  | true => exact le_trans h hbc
  | false => exact lt_of_lt_of_le h hbc

theorem Within.of_le (h : Within closed b c) (hab : a ≤ b) : Within closed a c := by
  cases closed with
  | true => exact hab.trans h
  | false => exact lt_of_le_of_lt hab h

theorem within_mul_iff (hc : 0 < c) : Within closed (a * c) (b * c) ↔ Within closed a b := by
  cases closed with
  | true => exact mul_le_mul_iff_left₀ hc
  | false => exact mul_lt_mul_iff_left₀ hc

end Within

/-! ## Nearest points of a grid -/

section Distance

variable {a b q : ℚ}

theorem abs_sub_le_abs_sub_iff (h : a < b) : |q - a| ≤ |q - b| ↔ 2 * q ≤ a + b := by
  rw [← sq_le_sq, ← sub_nonneg]
  have hfactor : (q - b) ^ 2 - (q - a) ^ 2 = (b - a) * (a + b - 2 * q) := by ring
  rw [hfactor, mul_nonneg_iff_of_pos_left (sub_pos.2 h), sub_nonneg]

theorem abs_sub_le_abs_sub_iff' (h : a < b) : |q - b| ≤ |q - a| ↔ a + b ≤ 2 * q := by
  rw [← sq_le_sq, ← sub_nonneg]
  have hfactor : (q - a) ^ 2 - (q - b) ^ 2 = (b - a) * (2 * q - (a + b)) := by ring
  rw [hfactor, mul_nonneg_iff_of_pos_left (sub_pos.2 h), sub_nonneg]

theorem abs_sub_eq_abs_sub_iff (h : a < b) : |q - a| = |q - b| ↔ 2 * q = a + b := by
  rw [le_antisymm_iff, abs_sub_le_abs_sub_iff h, abs_sub_le_abs_sub_iff' h, ← le_antisymm_iff]

end Distance

/-- The point of a grid up to `top` that is nearest to a number; its rank is even if another point is as
near. -/
structure Nearest (g : Nat → ℚ) (top : Nat) (q : ℚ) (rank : Nat) : Prop where
  le : ∀ other ≤ top, |q - g rank| ≤ |q - g other|
  even : ∀ other ≤ top, other ≠ rank → |q - g rank| = |q - g other| → rank % 2 = 0

section Grid

variable {g : Nat → ℚ} {top rank : Nat} {q : ℚ}

/-- **The midpoints next to a point decide** what it is nearest to. -/
theorem nearest_iff (hg : StrictMono g) (htop : rank < top) :
    Nearest g top q rank ↔ Within (rank % 2 == 0) (2 * q) (g rank + g (rank + 1)) ∧
      ∀ before, rank = before + 1 → Within (rank % 2 == 0) (g before + g rank) (2 * q) := by
  simp only [within_iff, beq_iff_eq]
  constructor
  · rintro ⟨hle, heven⟩
    refine ⟨⟨?_, fun htie => ?_⟩, ?_⟩
    · exact (abs_sub_le_abs_sub_iff (hg (Nat.lt_succ_self rank))).1 (hle _ htop)
    · exact heven _ htop (Nat.succ_ne_self rank)
        ((abs_sub_eq_abs_sub_iff (hg (Nat.lt_succ_self rank))).2 htie)
    · rintro before rfl
      have hless := hg (Nat.lt_succ_self before)
      refine ⟨(abs_sub_le_abs_sub_iff' hless).1 (hle _ (by omega)), fun htie => ?_⟩
      exact heven before (by omega) (by omega) ((abs_sub_eq_abs_sub_iff hless).2 htie.symm).symm
  · rintro ⟨⟨habove, htieAbove⟩, hbefore⟩
    -- a point further away than the next one is beyond the midpoint to the next one
    have hup : ∀ other, rank < other → 2 * q ≤ g rank + g other ∧
        (2 * q = g rank + g other → rank % 2 = 0) := by
      intro other hother
      have hnext : g (rank + 1) ≤ g other := hg.monotone hother
      exact ⟨by linarith, fun htie => htieAbove (by linarith)⟩
    have hdown : ∀ other, other < rank → g other + g rank ≤ 2 * q ∧
        (2 * q = g other + g rank → rank % 2 = 0) := by
      intro other hother
      obtain ⟨before, rfl⟩ : ∃ before, rank = before + 1 := ⟨rank - 1, by omega⟩
      obtain ⟨hlow, htie⟩ := hbefore before rfl
      have hprevious : g other ≤ g before := hg.monotone (Nat.le_of_lt_succ hother)
      exact ⟨by linarith, fun heq => htie (by linarith)⟩
    refine ⟨fun other _ => ?_, fun other _ hne htie => ?_⟩
    · rcases Nat.lt_trichotomy other rank with hless | rfl | hmore
      · exact (abs_sub_le_abs_sub_iff' (hg hless)).2 (hdown other hless).1
      · exact le_refl _
      · exact (abs_sub_le_abs_sub_iff (hg hmore)).2 (hup other hmore).1
    · rcases Nat.lt_or_gt_of_ne hne with hless | hmore
      · exact (hdown other hless).2 ((abs_sub_eq_abs_sub_iff (hg hless)).1 htie.symm)
      · exact (hup other hmore).2 ((abs_sub_eq_abs_sub_iff (hg hmore)).1 htie)

/-- **At most one point is nearest**: two that are equally near are next to each other, and of two
neighbouring ranks one is odd. -/
theorem Nearest.unique (hg : StrictMono g) {other : Nat} (h : Nearest g top q rank)
    (h' : Nearest g top q other) (hrank : rank ≤ top) (hother : other ≤ top) : rank = other := by
  wlog hless : rank < other generalizing rank other
  · rcases Nat.lt_or_eq_of_le (Nat.le_of_not_lt hless) with hless | heq
    · exact (this h' h hother hrank hless).symm
    · exact heq.symm
  have htie : |q - g rank| = |q - g other| := le_antisymm (h.le other hother) (h'.le rank hrank)
  have heven := h.even other hother hless.ne' htie
  have heven' := h'.even rank hrank hless.ne htie.symm
  -- the point after the first one is not nearer, so it is the second one
  have hmiddle := (abs_sub_eq_abs_sub_iff (hg hless)).1 htie
  have hnext := (abs_sub_le_abs_sub_iff (hg (Nat.lt_succ_self rank))).1 (h.le (rank + 1) (by omega))
  have hle : other ≤ rank + 1 := by
    by_contra hfar
    have hbeyond := hg (Nat.lt_of_not_le hfar)
    linarith
  omega

end Grid

/-! ## Patterns without their sign -/

/-- The significand of a pattern without its sign. -/
def significandAt (rank : Nat) : Nat :=
  if rank / 0x800000 = 0 then rank % 0x800000 else 0x800000 + rank % 0x800000

/-- The exponent of two that goes with it. -/
def scaleAt (rank : Nat) : Int := (max (rank / 0x800000) 1 : Nat) - 150

/-- The number that a pattern without its sign stands for; infinity is the power of two after the
greatest number. -/
def magnitudeAt (rank : Nat) : ℚ := significandAt rank * 2 ^ scaleAt rank

theorem significandAt_mod_two (rank : Nat) : significandAt rank % 2 = rank % 2 := by
  unfold significandAt
  split <;> omega

/-- **The next pattern stands for the next number**, one unit in the last place further, also from one
power of two to the next. -/
theorem magnitudeAt_succ (rank : Nat) :
    magnitudeAt (rank + 1) = magnitudeAt rank + 2 ^ scaleAt rank := by
  have hsplit : significandAt (rank + 1) = significandAt rank + 1 ∧ scaleAt (rank + 1) = scaleAt rank ∨
      2 * significandAt (rank + 1) = significandAt rank + 1 ∧ scaleAt (rank + 1) = scaleAt rank + 1 := by
    unfold significandAt scaleAt
    split <;> split <;> omega
  unfold magnitudeAt
  rcases hsplit with ⟨hsignificand, hscale⟩ | ⟨hsignificand, hscale⟩
  · rw [hsignificand, hscale]
    push_cast
    ring
  · have hcast : 2 * (significandAt (rank + 1) : ℚ) = significandAt rank + 1 := by exact_mod_cast hsignificand
    rw [hscale, zpow_add_one₀ two_ne_zero]
    linear_combination (2 : ℚ) ^ scaleAt rank * hcast

theorem magnitudeAt_strictMono : StrictMono magnitudeAt := by
  refine strictMono_nat_of_lt_succ fun rank => ?_
  rw [magnitudeAt_succ]
  have hunit : (0 : ℚ) < 2 ^ scaleAt rank := by positivity
  linarith

/-- The pattern of infinity. -/
def infinityRank : Nat := 0x7F800000

namespace Single

/-- The pattern without its sign. -/
def rank (x : Single) : Nat := x.word % 0x80000000

/-- The magnitude of the number; infinity counts as the power of two after the greatest number. -/
def magnitude (x : Single) : ℚ := x.significand * 2 ^ x.scale

variable (x : Single)

theorem word_lt : x.word < 0x100000000 := x.bits.toNat_lt

theorem exponentField_eq : x.exponentField = x.rank / 0x800000 := by
  unfold exponentField rank
  omega

theorem fraction_eq : x.fraction = x.rank % 0x800000 := by
  unfold fraction rank
  omega

theorem significand_eq : x.significand = significandAt x.rank := by
  rw [significand, significandAt, exponentField_eq, fraction_eq]

theorem scale_eq : x.scale = scaleAt x.rank := by
  rw [scale, scaleAt, exponentField_eq]

theorem magnitude_eq : x.magnitude = magnitudeAt x.rank := by
  rw [magnitude, magnitudeAt, significand_eq, scale_eq]

variable {x}

theorem isFinite_iff : x.isFinite = true ↔ x.rank < infinityRank := by
  have hrank : x.rank < 0x80000000 := Nat.mod_lt _ (by decide)
  rw [isFinite, exponentField_eq, bne_iff_ne, infinityRank]
  omega

theorem isNaN_eq_false_iff : x.isNaN = false ↔ x.rank ≤ infinityRank := by
  have hrank : x.rank < 0x80000000 := Nat.mod_lt _ (by decide)
  rw [isNaN, exponentField_eq, fraction_eq, Bool.and_eq_false_iff, beq_eq_false_iff_ne, bne_eq_false_iff_eq,
    infinityRank]
  omega

/-- A pattern consists of its sign and the rest. -/
theorem eq_of_rank {y : Single} (hsign : x.isNegative = y.isNegative) (hrank : x.rank = y.rank) :
    x = y := by
  have hx := x.word_lt
  have hy := y.word_lt
  have hword : x.word = y.word := by
    unfold isNegative at hsign
    unfold rank at hrank
    rw [decide_eq_decide] at hsign
    omega
  have hbits : x.bits = y.bits := UInt32.toNat_inj.1 hword
  cases x
  cases y
  exact congrArg mk hbits

/-- Every pattern up to infinity is that of a number. -/
theorem exists_rank {rank : Nat} (h : rank ≤ infinityRank) :
    ∃ y : Single, y.isNaN = false ∧ y.rank = rank := by
  have hrank : (⟨UInt32.ofNat rank⟩ : Single).rank = rank := by
    unfold infinityRank at h
    rw [Single.rank, word, UInt32.toNat_ofNat']
    omega
  exact ⟨_, isNaN_eq_false_iff.2 (hrank.symm ▸ h), hrank⟩

end Single

/-! ## Rounding -/

/-- Rounding of a magnitude to nearest, with ties to even, gives this finite number: no number is nearer,
and if another one is as near, the significand is even. -/
structure RoundsTo (q : ℚ) (x : Single) : Prop where
  finite : x.isFinite = true
  nearest : ∀ y : Single, y.isNaN = false → |q - x.magnitude| ≤ |q - y.magnitude|
  even : ∀ y : Single, y.isNaN = false → y.magnitude ≠ x.magnitude →
    |q - x.magnitude| = |q - y.magnitude| → x.significand % 2 = 0

variable {q : ℚ} {x : Single}

theorem roundsTo_iff_nearest :
    RoundsTo q x ↔ x.isFinite = true ∧ Nearest magnitudeAt infinityRank q x.rank := by
  constructor
  · rintro ⟨hfinite, hnearest, heven⟩
    refine ⟨hfinite, fun other hother => ?_, fun other hother hne htie => ?_⟩
    · obtain ⟨y, hy, rfl⟩ := Single.exists_rank hother
      rw [← x.magnitude_eq, ← y.magnitude_eq]
      exact hnearest y hy
    · obtain ⟨y, hy, rfl⟩ := Single.exists_rank hother
      rw [← x.magnitude_eq, ← y.magnitude_eq] at htie
      rw [← significandAt_mod_two, ← x.significand_eq]
      refine heven y hy ?_ htie
      rw [y.magnitude_eq, x.magnitude_eq]
      exact magnitudeAt_strictMono.injective.ne hne
  · rintro ⟨hfinite, hnearest, heven⟩
    refine ⟨hfinite, fun y hy => ?_, fun y hy hne htie => ?_⟩
    · rw [x.magnitude_eq, y.magnitude_eq]
      exact hnearest _ (Single.isNaN_eq_false_iff.1 hy)
    · rw [x.significand_eq, significandAt_mod_two]
      rw [x.magnitude_eq, y.magnitude_eq] at hne htie
      exact heven _ (Single.isNaN_eq_false_iff.1 hy) (fun hrank => hne (by rw [hrank])) htie

/-- **Rounding gives one pattern**, up to the sign. -/
theorem RoundsTo.rank_unique {y : Single} (hx : RoundsTo q x) (hy : RoundsTo q y) : x.rank = y.rank := by
  obtain ⟨hfinite, hnearest⟩ := roundsTo_iff_nearest.1 hx
  obtain ⟨hfinite', hnearest'⟩ := roundsTo_iff_nearest.1 hy
  exact hnearest.unique magnitudeAt_strictMono hnearest' (Single.isFinite_iff.1 hfinite).le
    (Single.isFinite_iff.1 hfinite').le

end CrossShader

import Stacklet.Proofs.DoubleOrder

set_option autoImplicit false
set_option relaxedAutoImplicit false

/-!
Rounding gives the nearest double. It cuts the binary digits off after the 53rd, with two bits to
tell on which side of half way the rest was, and shifts once more if rounding up went over. The
doubles with as many digits before the point are multiples of the last digit that is kept, and all
smaller ones are further away. So what comes out is the nearest of all doubles, and of two that are
equally near the even one.
-/

namespace Stacklet

namespace Binary64

open Float.Model Float.Model.UnpackedFloat

theorem log2_shiftLeft {m : Nat} (positive : 0 < m) (a : Nat) : (m <<< a).log2 = m.log2 + a := by
  induction a with
  | zero => rfl
  | succ a ih =>
      have shifted : m <<< a ≠ 0 := (Nat.shiftLeft_pos_iff.mpr positive).ne'
      rw [Nat.shiftLeft_succ, Nat.log2_two_mul shifted, ih, Nat.add_assoc]

namespace Scaled

theorem denominator_pos (d : Scaled) : 0 < d.denominator := Nat.two_pow_pos _

theorem nearest_cases (d : Scaled) : ∃ low : Int, low ≤ d.value ∧ d.value < low + 1 ∧
    (d.nearest = low ∧ 2 * (d.value - low) ≤ 1 ∧ (2 * (d.value - low) = 1 → low % 2 = 0) ∨
      d.nearest = low + 1 ∧ 1 ≤ 2 * (d.value - low) ∧
        (2 * (d.value - low) = 1 → (low + 1) % 2 = 0)) := by
  have positive : (0 : ℚ) < d.denominator := Nat.cast_pos.mpr d.denominator_pos
  have nonnegative := Int.emod_nonneg d.numerator (Int.natCast_ne_zero.mpr d.denominator_pos.ne')
  have small := Int.emod_lt_of_pos d.numerator (Int.natCast_pos.mpr d.denominator_pos)
  have parts := Int.mul_ediv_add_emod d.numerator d.denominator
  unfold nearest
  dsimp only
  generalize d.numerator / (d.denominator : Int) = low at parts
  generalize d.numerator % (d.denominator : Int) = rest at *
  have above : d.value - low = rest / d.denominator := by
    rw [value, ← parts]
    push_cast
    field_simp
    ring
  have le_half : 2 * (d.value - low) ≤ 1 ↔ 2 * rest ≤ d.denominator := by
    rw [above, ← mul_div_assoc, div_le_one positive]
    exact_mod_cast Iff.rfl
  have half_le : 1 ≤ 2 * (d.value - low) ↔ d.denominator ≤ 2 * rest := by
    rw [above, ← mul_div_assoc, one_le_div positive]
    exact_mod_cast Iff.rfl
  have half : 2 * (d.value - low) = 1 ↔ 2 * rest = d.denominator := by
    rw [above, ← mul_div_assoc, div_eq_one_iff_eq positive.ne']
    exact_mod_cast Iff.rfl
  refine ⟨low, ?_, ?_, ?_⟩
  · rw [← sub_nonneg, above]
    exact div_nonneg (Int.cast_nonneg nonnegative) positive.le
  · rw [← sub_lt_iff_lt_add', above, div_lt_one positive]
    exact_mod_cast small
  · rw [le_half, half_le, half]
    split_ifs <;> omega

/-- No other integer is closer than the nearest one, and none is as close unless that is even. -/
theorem nearest_closest (d : Scaled) {w : Int} (other : w ≠ d.nearest) :
    |d.nearest - d.value| ≤ |w - d.value| ∧
      (|w - d.value| = |d.nearest - d.value| → d.nearest % 2 = 0) := by
  obtain ⟨low, below, above, ⟨taken, half, even⟩ | ⟨taken, half, even⟩⟩ := d.nearest_cases <;>
    rw [taken] at other ⊢
  · rw [abs_of_nonpos (sub_nonpos.mpr below)]
    rcases lt_or_gt_of_ne other with left | right
    · have left' : (w : ℚ) + 1 ≤ low := by exact_mod_cast left
      have further : -(low - d.value) < -(w - d.value) := by linarith
      rw [abs_of_nonpos (by linarith)]
      exact ⟨further.le, fun tie => absurd tie further.ne'⟩
    · have right' : (low : ℚ) + 1 ≤ w := by exact_mod_cast right
      rw [abs_of_nonneg (by linarith)]
      exact ⟨by linarith, fun tie => even (by linarith)⟩
  · push_cast
    rw [abs_of_pos (sub_pos.mpr above)]
    rcases lt_or_gt_of_ne other with left | right
    · have left' : (w : ℚ) ≤ low := by exact_mod_cast Int.lt_add_one_iff.mp left
      rw [abs_of_nonpos (by linarith)]
      exact ⟨by linarith, fun tie => even (by linarith)⟩
    · have right' : (low : ℚ) + 1 + 1 ≤ w := by exact_mod_cast right
      have further : low + 1 - d.value < w - d.value := by linarith
      rw [abs_of_nonneg (by linarith)]
      exact ⟨further.le, fun tie => absurd tie further.ne'⟩

/-- Whether a number is the nearest to `v` of all that are written as in a double: none is closer,
and if another one is as close then the significand of this one is even. -/
structure IsNearest (d : Scaled) (v : ℚ) : Prop where
  regular : d.Regular
  closest : ∀ e : Scaled, e.Regular → |d.value - v| ≤ |e.value - v|
  even : ∀ e : Scaled, e.Regular → e.value ≠ d.value → |e.value - v| = |d.value - v| →
    d.significand % 2 = 0

variable {d e : Scaled} {v : ℚ}

theorem isNearest_of_value_eq (regular : d.Regular) (exact : d.value = v) : d.IsNearest v where
  regular := regular
  closest := fun e _ => by
    rw [exact, sub_self, abs_zero]
    exact abs_nonneg _
  even := fun e _ other tie => by
    rw [exact, sub_self, abs_zero, abs_eq_zero, sub_eq_zero] at tie
    exact absurd (tie.trans exact.symm) other

theorem IsNearest.value_eq (nearest : d.IsNearest e.value) (regular : e.Regular) :
    d.value = e.value := by
  have closest := nearest.closest e regular
  rw [sub_self, abs_zero] at closest
  exact sub_eq_zero.mp (abs_nonpos_iff.mp closest)

/-- On either side of the nearest double, a number is ordered with the doubles as that one is. -/
theorem IsNearest.compare_eq (nearest : d.IsNearest v) (regular : e.Regular)
    (other : e.value ≠ d.value) : compare d.value e.value = compare v e.value := by
  have closest := nearest.closest e regular
  rcases lt_or_gt_of_ne other with below | above
  · have less : e.value < v := by
      by_contra beyond
      rw [abs_of_nonneg (by linarith), abs_of_nonneg (by linarith)] at closest
      linarith
    rw [compare_gt_iff_gt.mpr below, compare_gt_iff_gt.mpr less]
  · have greater : v < e.value := by
      by_contra beyond
      rw [abs_of_nonpos (by linarith), abs_of_nonpos (by linarith)] at closest
      linarith
    rw [compare_lt_iff_lt.mpr above, compare_lt_iff_lt.mpr greater]

def neg (d : Scaled) : Scaled := { d with negative := !d.negative }

theorem value_neg (d : Scaled) : d.neg.value = -d.value := by
  rw [value_eq, value_eq, neg]
  cases d.negative with
  | false => rfl
  | true => exact (neg_neg _).symm

theorem Regular.neg (regular : d.Regular) : d.neg.Regular :=
  ⟨regular.significand_lt, regular.least_le, regular.leading⟩

theorem IsNearest.neg (nearest : d.IsNearest v) : d.neg.IsNearest (-v) := by
  have mirror (e : Scaled) : |e.value - -v| = |e.neg.value - v| := by
    rw [value_neg, ← abs_neg]
    congr 1
    ring
  have back (d : Scaled) : d.neg.neg.value = d.value := by rw [value_neg, value_neg, neg_neg]
  refine ⟨nearest.regular.neg, fun e regular => ?_, fun e regular other tie => ?_⟩
  · rw [mirror, mirror, back]
    exact nearest.closest e.neg regular.neg
  · rw [mirror, mirror, back] at tie
    refine nearest.even e.neg regular.neg (fun same => other ?_) tie
    rw [value_neg d, ← same, value_neg, neg_neg]

theorem exists_regular_natCast {m : Nat} (bound : m ≤ 2 ^ 53) :
    ∃ e : Scaled, e.Regular ∧ e.value = m := by
  rcases Nat.eq_zero_or_pos m with rfl | positive
  · exact ⟨⟨false, 0, -1074⟩, ⟨by decide, by decide, .inr rfl⟩, by simp [value_zero]⟩
  rcases Nat.lt_or_eq_of_le bound with less | rfl
  · have top : m.log2 < 53 := (Nat.log2_lt positive.ne').mpr less
    have full : (m <<< (52 - m.log2)).log2 = 52 := by
      rw [log2_shiftLeft positive]
      omega
    have nonzero : m <<< (52 - m.log2) ≠ 0 := by
      intro zero
      rw [zero] at full
      exact absurd full (by decide)
    refine ⟨⟨false, m <<< (52 - m.log2), -(52 - m.log2 : Nat)⟩, ⟨?_, ?_, .inl ?_⟩, ?_⟩
    · exact (Nat.log2_lt nonzero).mp (by omega)
    · dsimp only
      omega
    · exact (Nat.le_log2 nonzero).mp full.ge
    · rw [value_eq, magnitude, Nat.shiftLeft_eq, zpow_neg, zpow_natCast]
      push_cast
      simp
  · refine ⟨⟨false, 2 ^ 52, 1⟩, ⟨by decide, by decide, .inl (Nat.le_refl _)⟩, ?_⟩
    rw [value_eq, magnitude]
    norm_num

theorem exists_regular_intCast {n : Int} (bound : n.natAbs ≤ 2 ^ 53) :
    ∃ e : Scaled, e.Regular ∧ e.value = n := by
  obtain ⟨e, regular, value⟩ := exists_regular_natCast bound
  rcases Int.natAbs_eq n with same | opposite
  · exact ⟨e, regular, by rw [value, same]; simp⟩
  · exact ⟨e.neg, regular.neg, by rw [value_neg, value, opposite]; simp⟩

theorem IsNearest.value_ne_zero {z : Int} (nearest : d.IsNearest z) (nonzero : z ≠ 0) :
    d.value ≠ 0 := by
  intro zero
  have unit : z.sign.natAbs ≤ 2 ^ 53 := by
    rw [Int.natAbs_sign_of_ne_zero nonzero]
    exact Nat.one_le_two_pow
  obtain ⟨one, regular, value⟩ := exists_regular_intCast unit
  have closest := nearest.closest one regular
  rw [zero, value, zero_sub, abs_neg] at closest
  have integers : |z| ≤ |z.sign - z| := by exact_mod_cast closest
  rcases Int.lt_or_lt_of_ne nonzero with negative | positive
  · rw [Int.sign_eq_neg_one_of_neg negative, abs_of_neg negative, abs_of_nonneg (by omega)]
      at integers
    omega
  · rw [Int.sign_eq_one_of_pos positive, abs_of_pos positive, abs_of_nonpos (by omega)]
      at integers
    omega

theorem exists_multiple {t : Int} (large : t ≤ e.exponent) : ∃ w : Int, e.value = w * 2 ^ t := by
  obtain ⟨n, exponent⟩ := Int.eq_ofNat_of_zero_le (sub_nonneg.mpr large)
  have size : e.magnitude = (e.significand * 2 ^ n : Nat) * 2 ^ t := by
    rw [magnitude, ← sub_add_cancel e.exponent t, exponent, zpow_add₀ two_ne_zero]
    push_cast
    rw [zpow_natCast]
    ring
  rw [value_eq, size]
  split
  · exact ⟨-(e.significand * 2 ^ n : Nat), by push_cast; ring⟩
  · exact ⟨(e.significand * 2 ^ n : Nat), by push_cast; ring⟩

theorem value_lt_of_exponent_lt {t : Int} (regular : e.Regular) (small : e.exponent < t) :
    e.value < 2 ^ 52 * 2 ^ t := by
  have unit : Regular ⟨false, 2 ^ 52, t⟩ := by
    refine ⟨Nat.pow_lt_pow_right one_lt_two (by decide), ?_, .inl (Nat.le_refl _)⟩
    have := regular.least_le
    dsimp only
    omega
  have less := magnitude_lt_of_exponent_lt regular unit small
  have nonnegative : 0 ≤ e.magnitude := mul_nonneg (Nat.cast_nonneg _) (zpow_pos two_pos _).le
  have top : magnitude ⟨false, 2 ^ 52, t⟩ = 2 ^ 52 * 2 ^ t := by
    rw [magnitude]
    push_cast
    rfl
  rw [top] at less
  rw [value_eq]
  split
  · linarith
  · exact less

end Scaled

section Rounding

/-- Shifting to the right keeps the quotient, and two bits that tell how the rest compares with half
of the divisor. -/
theorem shift_eq (m n : Nat) :
    ExtendedMantissa.ofMantissaAndAccuracy m .exact >>> n =
      ⟨m / 2 ^ n, decide (2 ^ n ≤ 2 * (m % 2 ^ n)), decide (2 * (m % 2 ^ n) % 2 ^ n ≠ 0)⟩ := by
  induction n with
  | zero =>
      simp [HShiftRight.hShiftRight, Nat.repeat, ExtendedMantissa.ofMantissaAndAccuracy,
        Nat.mod_one]
  | succ n ih =>
      have step : ExtendedMantissa.ofMantissaAndAccuracy m .exact >>> (n + 1) =
        (ExtendedMantissa.ofMantissaAndAccuracy m .exact >>> n).shiftRightOne := rfl
      have small : m % 2 ^ n < 2 ^ n := Nat.mod_lt _ (Nat.two_pow_pos n)
      have bit : m / 2 ^ n % 2 = 0 ∨ m / 2 ^ n % 2 = 1 := Nat.mod_two_eq_zero_or_one _
      rw [step, ih, ExtendedMantissa.shiftRightOne, Nat.pow_succ, Nat.mod_mul,
        Nat.div_div_eq_div_mul, Nat.mul_comm (2 ^ n) 2, Nat.mul_mod_mul_left,
        Nat.add_mul_mod_self_left, Nat.mod_mod]
      congr 1
      · rcases bit with zero | one
        · simpa [zero] using small
        · simp [one]
      · -- A rest beyond half of the divisor had a round bit, which is added to the sticky one.
        by_cases half : 2 ^ n ≤ 2 * (m % 2 ^ n)
        · have rest : m % 2 ^ n ≠ 0 := by omega
          simp [half, rest]
        · simp [half, Nat.mod_eq_of_lt (Nat.lt_of_not_le half)]

theorem roundedMantissa_shift (m n : Nat) :
    ((ExtendedMantissa.ofMantissaAndAccuracy m .exact >>> n).roundedMantissa : Int) =
      Scaled.nearest ⟨false, m, -n⟩ := by
  have small : m % 2 ^ n < 2 ^ n := Nat.mod_lt _ (Nat.two_pow_pos n)
  have numerator : Scaled.numerator ⟨false, m, -n⟩ = m := by simp [Scaled.numerator]
  have denominator : Scaled.denominator ⟨false, m, -n⟩ = 2 ^ n := by simp [Scaled.denominator]
  simp only [shift_eq, Scaled.nearest, numerator, denominator]
  rw [← Int.natCast_ediv, ← Int.natCast_emod]
  generalize m % 2 ^ n = rest at *
  generalize m / 2 ^ n = low
  generalize 2 ^ n = unit at *
  rcases lt_trichotomy (2 * rest) unit with less | same | greater
  · have round : decide (unit ≤ 2 * rest) = false := by simpa using less
    rw [round, if_pos (by exact_mod_cast less)]
    cases decide (2 * rest % unit ≠ 0) <;> rfl
  · have round : decide (unit ≤ 2 * rest) = true := by simp [same]
    have sticky : decide (2 * rest % unit ≠ 0) = false := by simp [same]
    rw [round, sticky, if_neg (by omega), if_neg (by omega)]
    have rounded : ExtendedMantissa.roundedMantissa ⟨low, true, false⟩ = low + low % 2 := rfl
    rw [rounded]
    split <;> omega
  · have round : decide (unit ≤ 2 * rest) = true := by simpa using greater.le
    have sticky : decide (2 * rest % unit ≠ 0) = true := by
      rw [Nat.mod_eq_sub_mod greater.le, Nat.mod_eq_of_lt (by omega)]
      exact decide_eq_true (by omega)
    rw [round, sticky, if_neg (by omega), if_pos (by omega)]
    rfl

/-- The exponent that `m * 2 ^ k` has as a double: that of its last bit but 52, or the least one. -/
def grid (m : Nat) (k : Int) : Int := max (m.log2 + k - 52) (-1074)

theorem targetExponent_eq (m : Nat) (k : Int) :
    Format.binary64.targetExponent (totalExponent m k) = grid m k := by
  simp only [Format.targetExponent, totalExponent, Format.mantissaBits, Format.minExponent, grid]
  omega

theorem shiftToTargetExponent_eq (m : Nat) (k : Int) :
    shiftToTargetExponent .binary64 m k .exact =
      (ExtendedMantissa.ofMantissaAndAccuracy m .exact >>> (grid m k - k).toNat,
        k + (grid m k - k).toNat) := by
  rw [shiftToTargetExponent, targetExponent_eq]
  rfl

/-- What has been rounded to 53 bits is not rounded again, even if that went up to 54 bits. -/
theorem shiftToTargetExponent_of_le {r : Nat} {t : Int} (bound : r ≤ 2 ^ 53) (least : -1074 ≤ t) :
    ∃ m k b c, shiftToTargetExponent .binary64 r t .exact = (⟨m, b, c⟩, k) ∧
      (r < 2 ^ 53 ∧ m = r ∧ k = t ∨ r = 2 ^ 53 ∧ m = 2 ^ 52 ∧ k = t + 1) := by
  rw [shiftToTargetExponent_eq, shift_eq]
  rcases Nat.lt_or_eq_of_le bound with less | rfl
  · have bits : r.log2 ≤ 52 := by
      rcases Nat.eq_zero_or_pos r with rfl | positive
      · decide
      · exact Nat.le_of_lt_succ ((Nat.log2_lt positive.ne').mpr less)
    have none : (grid r t - t).toNat = 0 := by
      unfold grid
      omega
    refine ⟨_, _, _, _, rfl, .inl ⟨less, ?_, ?_⟩⟩ <;> simp [none]
  · have bits : (2 ^ 53 : Nat).log2 = 53 := Nat.log2_two_pow
    have one : (grid (2 ^ 53) t - t).toNat = 1 := by
      unfold grid
      omega
    refine ⟨_, _, _, _, rfl, .inr ⟨rfl, ?_, ?_⟩⟩ <;> rw [one] <;> rfl

def rounded (m : Nat) (k : Int) : Nat :=
  (ExtendedMantissa.ofMantissaAndAccuracy m .exact >>> (grid m k - k).toNat).roundedMantissa

variable {m : Nat} {k : Int}

theorem cast_rounded (placed : k ≤ grid m k) :
    (rounded m k : Int) = Scaled.nearest ⟨false, m, k - grid m k⟩ := by
  have steps : ((grid m k - k).toNat : Int) = grid m k - k := Int.toNat_of_nonneg (by omega)
  rw [rounded, roundedMantissa_shift, steps, neg_sub]

theorem roundedMantissa_cases (em : ExtendedMantissa) :
    em.mantissa ≤ em.roundedMantissa ∧ em.roundedMantissa ≤ em.mantissa + 1 := by
  obtain ⟨m, round, sticky⟩ := em
  have bit : m % 2 ≤ 1 := Nat.le_of_lt_succ (Nat.mod_lt m two_pos)
  cases round <;> cases sticky
  · exact ⟨Nat.le_refl m, Nat.le_succ m⟩
  · exact ⟨Nat.le_refl m, Nat.le_succ m⟩
  · exact ⟨Nat.le_add_right m _, Nat.add_le_add_left bit m⟩
  · exact ⟨Nat.le_succ m, Nat.le_refl _⟩

theorem rounded_around (m : Nat) (k : Int) :
    m / 2 ^ (grid m k - k).toNat ≤ rounded m k ∧
      rounded m k ≤ m / 2 ^ (grid m k - k).toNat + 1 := by
  have around := roundedMantissa_cases
    (ExtendedMantissa.ofMantissaAndAccuracy m .exact >>> (grid m k - k).toNat)
  have quotient := congrArg ExtendedMantissa.mantissa (shift_eq m (grid m k - k).toNat)
  rw [quotient] at around
  exact around

theorem rounded_le (m : Nat) (k : Int) : rounded m k ≤ 2 ^ 53 := by
  have quotient : m / 2 ^ (grid m k - k).toNat < 2 ^ 53 := by
    rw [Nat.div_lt_iff_lt_mul (Nat.two_pow_pos _), ← Nat.pow_add]
    refine Nat.lt_of_lt_of_le Nat.lt_log2_self (Nat.pow_le_pow_right two_pos ?_)
    unfold grid
    omega
  exact Nat.le_trans (rounded_around m k).2 quotient

theorem le_rounded (positive : 0 < m) (placed : k ≤ grid m k) (inner : grid m k ≠ -1074) :
    2 ^ 52 ≤ rounded m k := by
  have quotient : 2 ^ 52 ≤ m / 2 ^ (grid m k - k).toNat := by
    rw [Nat.le_div_iff_mul_le (Nat.two_pow_pos _), ← Nat.pow_add]
    refine Nat.le_trans (Nat.pow_le_pow_right two_pos ?_) (Nat.log2_self_le positive.ne')
    unfold grid at inner placed ⊢
    omega
  exact Nat.le_trans quotient (rounded_around m k).1

structure Rounds (m : Nat) (k : Int) (d : Scaled) : Prop where
  regular : d.Regular
  positive : d.negative = false
  exponent_le : d.exponent ≤ grid m k + 1
  magnitude : d.magnitude = rounded m k * 2 ^ grid m k
  even : rounded m k % 2 = 0 → d.significand % 2 = 0

/-- Rounding gives a number that is written as in a double, the closest multiple of its last bit. -/
theorem exists_rounds (positive : 0 < m) (placed : k ≤ grid m k) :
    ∃ d, Content.ofUnpacked (roundWithAccuracy .binary64 .positive m k .exact) = .finite d ∧
      Rounds m k d := by
  have least : -1074 ≤ grid m k := le_max_right _ _
  have upper := rounded_le m k
  have lower : grid m k ≠ -1074 → 2 ^ 52 ≤ rounded m k := le_rounded positive placed
  have first : shiftToTargetExponent .binary64 m k .exact =
      (ExtendedMantissa.ofMantissaAndAccuracy m .exact >>> (grid m k - k).toNat, grid m k) := by
    rw [shiftToTargetExponent_eq, Int.toNat_of_nonneg (by omega), add_sub_cancel]
  -- Rounding up can carry into a 54th bit, which the second shift takes off again.
  obtain ⟨r, t, b, c, second, final⟩ := shiftToTargetExponent_of_le upper least
  have zero : r = 0 → t = -1074 := by omega
  refine ⟨⟨false, r, t⟩, ?_, ?_⟩
  · rw [roundWithAccuracy, first]
    dsimp only
    rw [← rounded, second]
    dsimp only
    split
    · rename_i none
      rw [none, zero none]
      rfl
    · rfl
  · rcases final with ⟨less, rfl, rfl⟩ | ⟨full, rfl, rfl⟩
    · exact ⟨⟨less, least, by dsimp only; omega⟩, rfl, by dsimp only; omega, rfl, id⟩
    · have even : (2 ^ 52) % 2 = 0 := by decide
      refine ⟨⟨Nat.pow_lt_pow_right one_lt_two (by decide), by dsimp only; omega,
        .inl (Nat.le_refl _)⟩, rfl, Int.le_refl _, ?_, fun _ => even⟩
      rw [Scaled.magnitude, full, zpow_add₀ two_ne_zero]
      push_cast
      ring

end Rounding

section Nearest

variable {m : Nat} {k : Int} {d : Scaled}

theorem Rounds.closest_multiple (rounds : Rounds m k d)
    (placed : k ≤ grid m k) (w : Int) :
    |d.value - m * 2 ^ k| ≤ |(w : ℚ) * 2 ^ grid m k - m * 2 ^ k| ∧
      ((w : ℚ) * 2 ^ grid m k ≠ d.value →
        |(w : ℚ) * 2 ^ grid m k - m * 2 ^ k| = |d.value - m * 2 ^ k| →
          d.significand % 2 = 0) := by
  have unit : (0 : ℚ) < 2 ^ grid m k := zpow_pos two_pos _
  have units : Scaled.value ⟨false, m, k - grid m k⟩ = m * 2 ^ (k - grid m k) := by
    rw [Scaled.value_eq]
    rfl
  have value : d.value = (Scaled.nearest ⟨false, m, k - grid m k⟩ : Int) * 2 ^ grid m k := by
    rw [← cast_rounded placed, Int.cast_natCast, ← rounds.magnitude, Scaled.value_eq,
      rounds.positive]
    rfl
  have distance (w : Int) : |(w : ℚ) * 2 ^ grid m k - m * 2 ^ k| =
      |w - Scaled.value ⟨false, m, k - grid m k⟩| * 2 ^ grid m k := by
    rw [units, ← abs_of_pos unit, ← abs_mul, abs_of_pos unit, sub_mul, mul_assoc (m : ℚ),
      ← zpow_add₀ two_ne_zero, sub_add_cancel]
  rw [value, distance, distance]
  by_cases same : w = Scaled.nearest ⟨false, m, k - grid m k⟩
  · rw [same]
    exact ⟨le_refl _, fun other => absurd rfl other⟩
  · obtain ⟨closest, even⟩ := Scaled.nearest_closest _ same
    refine ⟨mul_le_mul_of_nonneg_right closest unit.le, fun _ tie => rounds.even ?_⟩
    have halved := even (mul_right_cancel₀ unit.ne' tie)
    rw [← cast_rounded placed] at halved
    omega

/-- All numbers with a smaller exponent are further away. -/
theorem Rounds.closer_than_smaller (rounds : Rounds m k d)
    (positive : 0 < m) (placed : k ≤ grid m k) {e : Scaled} (regular : e.Regular)
    (small : e.exponent < grid m k) : |d.value - m * 2 ^ k| < |e.value - m * 2 ^ k| := by
  have below : e.value < 2 ^ 52 * 2 ^ grid m k := Scaled.value_lt_of_exponent_lt regular small
  have above : (2 : ℚ) ^ 52 * 2 ^ grid m k ≤ m * 2 ^ k := by
    have inner : grid m k = m.log2 + k - 52 := by
      have := regular.least_le
      unfold grid at small ⊢
      omega
    have power : (2 : ℚ) ^ 52 * 2 ^ grid m k = (2 ^ m.log2 : Nat) * 2 ^ k := by
      rw [inner, ← zpow_natCast, ← zpow_add₀ two_ne_zero]
      push_cast
      rw [← zpow_natCast, ← zpow_add₀ two_ne_zero]
      congr 1
      omega
    rw [power]
    refine mul_le_mul_of_nonneg_right ?_ (zpow_pos two_pos _).le
    exact Nat.cast_le.mpr (Nat.log2_self_le positive.ne')
  have closest := (rounds.closest_multiple placed (2 ^ 52)).1
  rw [Int.cast_pow, Int.cast_ofNat, abs_of_nonpos (sub_nonpos.mpr above)] at closest
  rw [abs_of_neg (sub_neg.mpr (below.trans_le above))]
  linarith

theorem Rounds.isNearest (rounds : Rounds m k d)
    (positive : 0 < m) (placed : k ≤ grid m k) : d.IsNearest (m * 2 ^ k) where
  regular := rounds.regular
  closest := by
    -- Numbers with at least this exponent are multiples of the last bit; the others are smaller.
    intro e regular
    rcases le_or_gt (grid m k) e.exponent with large | small
    · obtain ⟨w, value⟩ := Scaled.exists_multiple large
      rw [value]
      exact (rounds.closest_multiple placed w).1
    · exact (rounds.closer_than_smaller positive placed regular small).le
  even := by
    intro e regular other tie
    rcases le_or_gt (grid m k) e.exponent with large | small
    · obtain ⟨w, value⟩ := Scaled.exists_multiple large
      rw [value] at other tie
      exact (rounds.closest_multiple placed w).2 other tie
    · have further := rounds.closer_than_smaller positive placed regular small
      exact absurd tie further.ne'

end Nearest

end Binary64

end Stacklet

import Mathlib
import Stacklet.Number

set_option autoImplicit false
set_option relaxedAutoImplicit false

/-!
Finite doubles are ordered by the numbers that they stand for. The comparison of two doubles looks
at their exponents first and at their significands only if the exponents agree. That is the order of
the rational numbers because a significand has all the bits that fit: only the least exponent goes
with a shorter one.
-/

namespace Stacklet

namespace Binary64

open Float.Model Float.Model.UnpackedFloat

section Contents

def isNegative : Sign → Bool
  | .negative => true
  | .positive => false

def Content.ofUnpacked : UnpackedFloat → Content
  | .infinity s => .infinite (isNegative s)
  | .notANumber => .nan
  | .zero s => .finite ⟨isNegative s, 0, -1074⟩
  | .finite s m k _ => .finite ⟨isNegative s, m, k⟩

def Content.ofFields (negative : Bool) (biased fraction : Nat) : Content :=
  if biased = 2047 then
    if fraction = 0 then .infinite negative else .nan
  else if biased = 0 then .finite ⟨negative, fraction, -1074⟩
  else .finite ⟨negative, Nat.pow 2 52 + fraction, (biased : Int) - 1075⟩

theorem isNegative_ofBitVec (b : BitVec 1) : isNegative (Sign.ofBitVec b) = (b.toNat == 1) := by
  revert b
  decide

theorem toNat_unpackSign (b : BitVec 64) : (@unpackSign .binary64 b).toNat = b.toNat / 2 ^ 63 := by
  have bound : b.toNat < 2 ^ 64 := b.isLt
  simp only [unpackSign, BitVec.extractLsb, BitVec.toNat_cast, BitVec.extractLsb'_toNat,
    Nat.shiftRight_eq_div_pow]
  omega

theorem toNat_unpackExponent (b : BitVec 64) :
    (@unpackExponent .binary64 b).toNat = b.toNat / 2 ^ 52 % 2 ^ 11 := by
  simp [unpackExponent, BitVec.extractLsb, Nat.shiftRight_eq_div_pow]

theorem toNat_unpackMantissa (b : BitVec 64) :
    (@unpackMantissa .binary64 b).toNat = b.toNat % 2 ^ 52 := by
  simp [unpackMantissa, BitVec.extractLsb]

/-- The leading bit stands in front of the fraction without being stored. -/
theorem toNat_implicit (m : BitVec 52) : (1#1 ++ m).toNat = Nat.pow 2 52 + m.toNat := by
  have bound : m.toNat < 2 ^ 52 := m.isLt
  rw [BitVec.toNat_append, ← Nat.shiftLeft_add_eq_or_of_lt bound]
  rfl

theorem ofUnpacked_unpack (b : BitVec 64) :
    Content.ofUnpacked (UnpackedFloat.unpack .binary64 b) =
      .ofFields (isNegative (Sign.ofBitVec (@unpackSign .binary64 b)))
        (@unpackExponent .binary64 b).toNat (@unpackMantissa .binary64 b).toNat := by
  have largest : @unpackExponent .binary64 b = -1#11 ↔
      (@unpackExponent .binary64 b).toNat = 2047 := by
    rw [← BitVec.toNat_inj]
    rfl
  have least : @unpackExponent .binary64 b = 0#11 ↔
      (@unpackExponent .binary64 b).toNat = 0 := by
    rw [← BitVec.toNat_inj]
    rfl
  have empty : @unpackMantissa .binary64 b = 0#52 ↔
      (@unpackMantissa .binary64 b).toNat = 0 := by
    rw [← BitVec.toNat_inj]
    rfl
  have bias : (Format.binary64.exponentBias : Int) + (52 : Nat) = 1075 := by decide
  simp only [UnpackedFloat.unpack, Content.ofFields, largest, least, empty, bias]
  split_ifs with _ _ subnormal zero
  · rfl
  · rfl
  · simp [Content.ofUnpacked, zero]
  · simp [Content.ofUnpacked, subnormal]
  · simp only [Content.ofUnpacked, toNat_implicit]

theorem content_eq_ofUnpacked (x : Float) : content x = .ofUnpacked x.toModel.unpack := by
  have fields := ofUnpacked_unpack x.toModel.toBits.toBitVec
  rw [isNegative_ofBitVec, toNat_unpackSign, toNat_unpackExponent, toNat_unpackMantissa] at fields
  exact fields.symm

end Contents

namespace Scaled

variable {d e : Scaled}

def value (d : Scaled) : ℚ := d.numerator / d.denominator

def magnitude (d : Scaled) : ℚ := d.significand * 2 ^ d.exponent

theorem value_eq (d : Scaled) : d.value = if d.negative then -d.magnitude else d.magnitude := by
  have pow (n : Nat) : ((Nat.pow 2 n : Nat) : ℚ) = 2 ^ n := Nat.cast_pow 2 n
  have size : ((d.significand * Nat.pow 2 d.exponent.toNat : Nat) : ℚ) / d.denominator =
      d.magnitude := by
    rw [denominator, magnitude, Nat.cast_mul, pow, pow]
    rcases Int.le_total 0 d.exponent with nonnegative | nonpositive
    · obtain ⟨n, exponent⟩ := Int.eq_ofNat_of_zero_le nonnegative
      simp [exponent]
    · obtain ⟨n, opposite⟩ := Int.eq_ofNat_of_zero_le (Int.neg_nonneg_of_nonpos nonpositive)
      have exponent : d.exponent = -n := by omega
      simp [exponent, div_eq_mul_inv]
  simp only [value, numerator]
  split
  · rw [Int.cast_neg, Int.cast_natCast, neg_div, size]
  · rw [Int.cast_natCast, size]

theorem value_zero (negative : Bool) (k : Int) : value ⟨negative, 0, k⟩ = 0 := by
  simp [value_eq, magnitude]

theorem magnitude_pos (positive : 0 < d.significand) : 0 < d.magnitude :=
  mul_pos (Nat.cast_pos.mpr positive) (zpow_pos two_pos _)

/-- Whether a number is written as in a double, apart from a bound on its size: its significand has
53 bits, or fewer with the least exponent. -/
structure Regular (d : Scaled) : Prop where
  significand_lt : d.significand < 2 ^ 53
  least_le : -1074 ≤ d.exponent
  leading : 2 ^ 52 ≤ d.significand ∨ d.exponent = -1074

theorem magnitude_lt_of_exponent_lt (left : d.Regular) (right : e.Regular)
    (less : d.exponent < e.exponent) : d.magnitude < e.magnitude := by
  have least := left.least_le
  have leading : 2 ^ 52 ≤ e.significand := right.leading.resolve_right (by omega)
  calc d.magnitude
    _ < 2 ^ 53 * 2 ^ d.exponent := by
        refine mul_lt_mul_of_pos_right ?_ (zpow_pos two_pos _)
        exact_mod_cast left.significand_lt
    _ = 2 ^ 52 * 2 ^ (d.exponent + 1) := by
        rw [zpow_add₀ two_ne_zero, zpow_one]
        ring
    _ ≤ e.magnitude := by
        refine mul_le_mul ?_ ?_ (zpow_pos two_pos _).le (Nat.cast_nonneg _)
        · exact_mod_cast leading
        · exact zpow_le_zpow_right₀ one_le_two less

/-- Exponents first and then significands: this is the order of the magnitudes. -/
theorem compare_magnitude (left : d.Regular) (right : e.Regular) :
    (compare d.exponent e.exponent).then (compare d.significand e.significand) =
      compare d.magnitude e.magnitude := by
  rcases lt_trichotomy d.exponent e.exponent with less | same | greater
  · rw [compare_lt_iff_lt.mpr less,
      compare_lt_iff_lt.mpr (magnitude_lt_of_exponent_lt left right less)]
    rfl
  · rw [compare_eq_iff_eq.mpr same, magnitude, magnitude, same, ← cmp_eq_compare (_ * _),
      cmp_mul_pos_right (zpow_pos two_pos _), Nat.strictMono_cast.cmp_map_eq, cmp_eq_compare]
    rfl
  · rw [compare_gt_iff_gt.mpr greater,
      compare_gt_iff_gt.mpr (magnitude_lt_of_exponent_lt right left greater)]
    rfl

end Scaled

theorem regular_of_content {x : Float} {d : Scaled} (finite : content x = .finite d) :
    d.Regular ∧ d.exponent ≤ 971 := by
  have fraction : x.toBits.toNat % Nat.pow 2 52 < 2 ^ 52 := Nat.mod_lt _ (by decide)
  have biased : x.toBits.toNat / Nat.pow 2 52 % Nat.pow 2 11 < 2048 := Nat.mod_lt _ (by decide)
  have unit : Nat.pow 2 52 = 2 ^ 52 := rfl
  simp only [content] at finite
  split at finite
  · split at finite <;> cases finite
  · split at finite
    · cases finite
      refine ⟨⟨?_, ?_, .inr rfl⟩, ?_⟩ <;> dsimp only <;> omega
    · cases finite
      refine ⟨⟨?_, ?_, .inl (Nat.le_add_right _ _)⟩, ?_⟩ <;> dsimp only <;> omega

section Order

theorem lt_iff_compare (x y : Float) :
    x < y ↔ x.toModel.unpack.compare y.toModel.unpack = some .lt := by
  have unfolded : x < y ↔ decide (x.toModel < y.toModel) = true := Iff.rfl
  rw [unfolded, decide_eq_true_iff]
  exact beq_iff_eq

theorem beq_iff_compare (x y : Float) :
    (x == y) = true ↔ x.toModel.unpack.compare y.toModel.unpack = some .eq := by
  have unfolded : (x == y) = (x.toModel.unpack.compare y.toModel.unpack == some .eq) := rfl
  rw [unfolded, beq_iff_eq]

theorem compare_neg_neg (a b : ℚ) : compare (-a) (-b) = (compare a b).swap := by
  rcases lt_trichotomy a b with less | rfl | greater
  · rw [compare_lt_iff_lt.mpr less, compare_gt_iff_gt.mpr (neg_lt_neg less)]
    rfl
  · rw [compare_eq_iff_eq.mpr rfl, compare_eq_iff_eq.mpr rfl]
    rfl
  · rw [compare_gt_iff_gt.mpr greater, compare_lt_iff_lt.mpr (neg_lt_neg greater)]
    rfl

theorem compare_unpacked {u v : UnpackedFloat} {d e : Scaled}
    (left : Content.ofUnpacked u = .finite d) (right : Content.ofUnpacked v = .finite e)
    (regular : d.Regular) (regular' : e.Regular) :
    u.compare v = some (compare d.value e.value) := by
  rcases u with _ | _ | s | ⟨s, m, k, positive⟩ <;> cases left <;>
    rcases v with _ | _ | s' | ⟨s', m', k', positive'⟩ <;> cases right
  · rw [Scaled.value_zero, Scaled.value_zero]
    rfl
  · have size : 0 < Scaled.magnitude ⟨isNegative s', m', k'⟩ := Scaled.magnitude_pos positive'
    rw [Scaled.value_zero, Scaled.value_eq]
    cases s' with
    | negative => exact congrArg some (compare_gt_iff_gt.mpr (neg_neg_of_pos size)).symm
    | positive => exact congrArg some (compare_lt_iff_lt.mpr size).symm
  · have size : 0 < Scaled.magnitude ⟨isNegative s, m, k⟩ := Scaled.magnitude_pos positive
    rw [Scaled.value_zero, Scaled.value_eq]
    cases s with
    | negative => exact congrArg some (compare_lt_iff_lt.mpr (neg_neg_of_pos size)).symm
    | positive => exact congrArg some (compare_gt_iff_gt.mpr size).symm
  · have size : 0 < Scaled.magnitude ⟨isNegative s, m, k⟩ := Scaled.magnitude_pos positive
    have size' : 0 < Scaled.magnitude ⟨isNegative s', m', k'⟩ := Scaled.magnitude_pos positive'
    have sizes := Scaled.compare_magnitude regular regular'
    rw [Scaled.value_eq, Scaled.value_eq]
    cases s with
    | negative =>
        cases s' with
        | negative =>
            refine congrArg some (Eq.trans ?_ (compare_neg_neg _ _).symm)
            exact congrArg Ordering.swap sizes
        | positive =>
            exact congrArg some (compare_lt_iff_lt.mpr ((neg_neg_of_pos size).trans size')).symm
    | positive =>
        cases s' with
        | negative =>
            exact congrArg some (compare_gt_iff_gt.mpr ((neg_neg_of_pos size').trans size)).symm
        | positive => exact congrArg some sizes

end Order

end Binary64

namespace Number

open Binary64

variable {x y : Float} {d e : Scaled}

theorem compare_of_content (left : content x = .finite d) (right : content y = .finite e) :
    x.toModel.unpack.compare y.toModel.unpack = some (compare d.value e.value) := by
  have regular := (regular_of_content left).1
  have regular' := (regular_of_content right).1
  rw [content_eq_ofUnpacked] at left right
  exact compare_unpacked left right regular regular'

theorem order?_of_content (left : content x = .finite d) (right : content y = .finite e) :
    order? x y = some (compare d.value e.value) := by
  simp only [order?, lt_iff_compare, beq_iff_compare, compare_of_content left right,
    compare_of_content right left, Option.some.injEq]
  rcases lt_trichotomy d.value e.value with less | same | greater
  · rw [compare_lt_iff_lt.mpr less]
    rfl
  · rw [compare_eq_iff_eq.mpr same]
    rfl
  · rw [compare_gt_iff_gt.mpr greater, compare_lt_iff_lt.mpr greater]
    rfl

theorem beq_of_content (left : content x = .finite d) (right : content y = .finite e) :
    (x == y) = (compare d.value e.value).isEq := by
  rw [Bool.eq_iff_iff, beq_iff_compare, compare_of_content left right, Option.some.injEq,
    Ordering.isEq_iff_eq_eq]

end Number

end Stacklet

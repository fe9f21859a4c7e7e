import Stacklet.Proofs.NearestDouble

set_option autoImplicit false
set_option relaxedAutoImplicit false

/-!
An integer is widened to the nearest double. The conversion of a natural number below `2 ^ 53` goes
through a machine word and a product with one, and that of a larger one through a scaled numeral;
both round the number with some zeros after its last bit. What is rounded is packed into the bits of
a double and read back from them.
-/

namespace Stacklet

namespace Binary64

open Float.Model Float.Model.UnpackedFloat

section Packing

theorem ofUnpacked_packComponents (s : Sign) (biased : BitVec 11) (fraction : BitVec 52) :
    Content.ofUnpacked (.unpack .binary64 (packComponents .binary64 s biased fraction)) =
      .ofFields (isNegative s) biased.toNat fraction.toNat := by
  rw [ofUnpacked_unpack, unpackExponent_packComponents, unpackMantissa_packComponents,
    unpackSign_packComponents, Sign.ofBitVec_toBitVec]

theorem ofUnpacked_pack {u : UnpackedFloat} {d : Scaled}
    (content : Content.ofUnpacked u = .finite d) (regular : d.Regular)
    (bounded : d.exponent ≤ 971) :
    Content.ofUnpacked (Float.Model.pack u).unpack = .finite d := by
  rcases u with _ | _ | s | ⟨s, m, k, positive⟩ <;> cases content
  · exact ofUnpacked_packComponents s 0 0
  · obtain ⟨significand_lt, least_le, leading⟩ := regular
    dsimp only at significand_lt least_le leading bounded
    have biased : (k + (Format.binary64.exponentBias : Int) +
        (Format.binary64.mantissaBitsWithoutImplicit : Nat)).toNat = (k + 1075).toNat := by
      rw [add_assoc]
      rfl
    have finite : ¬ 2 ^ 11 ≤ (k + 1075).toNat + 1 := by omega
    have bits : m.log2 + 1 = 53 ↔ 2 ^ 52 ≤ m := by
      rw [← Nat.le_log2 positive.ne']
      have := (Nat.log2_lt positive.ne').mpr significand_lt
      omega
    show Content.ofUnpacked (.unpack .binary64 (UnpackedFloat.pack .binary64 _)) = _
    simp only [UnpackedFloat.pack, biased]
    rw [if_neg finite]
    change Content.ofUnpacked (.unpack .binary64 (if m.log2 + 1 = 53 then _ else _)) = _
    split_ifs with full
    · have size := bits.mp full
      have exponent : (BitVec.ofNat 11 (k + 1075).toNat).toNat = (k + 1075).toNat := by
        rw [BitVec.toNat_ofNat]
        omega
      have fraction : (BitVec.ofNat 52 m).toNat = m - 2 ^ 52 := by
        rw [BitVec.toNat_ofNat]
        omega
      have whole : Nat.pow 2 52 + (m - 2 ^ 52) = m := Nat.add_sub_cancel' size
      have place : ((k + 1075).toNat : Int) - 1075 = k := by omega
      refine (ofUnpacked_packComponents s _ _).trans ?_
      rw [exponent, fraction, Content.ofFields, if_neg (by omega), if_neg (by omega), whole, place]
    · have size : m < 2 ^ 52 := Nat.lt_of_not_le (full ∘ bits.mpr)
      have fraction : (BitVec.ofNat 52 m).toNat = m := by
        rw [BitVec.toNat_ofNat]
        omega
      obtain rfl : k = -1074 := by omega
      refine (ofUnpacked_packComponents s _ _).trans ?_
      rw [fraction]
      rfl

end Packing

section Conversion

variable {m : Nat} {k : Int} {d : Scaled}

/-- Rounding gives the nearest double, however many zeros are written after the last bit. -/
theorem exists_content_round (positive : 0 < m) {a : Nat} (placed : k - a ≤ grid m k)
    (bounded : grid m k ≤ 970) :
    ∃ d, content ⟨.pack (roundWithAccuracy .binary64 .positive (m <<< a) (k - a) .exact)⟩ =
        .finite d ∧
      d.negative = false ∧ d.exponent ≤ grid m k + 1 ∧ d.IsNearest (m * 2 ^ k) := by
  have shifted : 0 < m <<< a := Nat.shiftLeft_pos_iff.mpr positive
  have same : grid (m <<< a) (k - a) = grid m k := by
    rw [grid, grid, log2_shiftLeft positive]
    congr 1
    push_cast
    ring
  have number : ((m <<< a : Nat) : ℚ) * 2 ^ (k - a) = m * 2 ^ k := by
    rw [Nat.shiftLeft_eq, zpow_sub₀ two_ne_zero, zpow_natCast]
    push_cast
    field_simp
  obtain ⟨d, exact, rounds⟩ := exists_rounds shifted (same.symm ▸ placed)
  have exponent : d.exponent ≤ grid m k + 1 := same ▸ rounds.exponent_le
  refine ⟨d, ?_, rounds.positive, exponent, number ▸ rounds.isNearest shifted (same.symm ▸ placed)⟩
  rw [content_eq_ofUnpacked]
  exact ofUnpacked_pack exact rounds.regular (by omega)

theorem grid_zero (m : Nat) : grid m 0 = m.log2 - 52 := by
  unfold grid
  omega

theorem toFloat_eq (positive : 0 < m) (bounded : m < 2 ^ 64) :
    m.toUInt64.toFloat = ⟨.pack (roundWithAccuracy .binary64 .positive
      (m <<< (0 - grid m 0).toNat) (0 - (0 - grid m 0).toNat) .exact)⟩ := by
  have same : m.toUInt64.toNat = m := UInt64.toNat_ofNat_of_lt bounded
  have greater : compare (m : Int) 0 = .gt := compare_gt_iff_gt.mpr (Int.natCast_pos.mpr positive)
  rw [UInt64.toFloat, Float.Model.ofUInt64, UnpackedFloat.ofUInt64, UnpackedFloat.ofNat,
    UnpackedFloat.ofInt, same, UnpackedFloat.normalize, greater]
  dsimp only
  rw [UnpackedFloat.round, Int.toNat_natCast, targetExponent_eq]
  rfl

theorem ofNat_eq_of_lt (bounded : m < 2 ^ 53) :
    Float.ofNat m = m.toUInt64.toFloat * Float.ofBits 4607182418800017408 := by
  have small : m < 2 ^ 53 ∧ 0 ≤ 22 := ⟨bounded, by decide⟩
  show Float.ofScientific m false 0 = _
  rw [Float.ofScientific, dif_pos small]
  rfl

theorem ofNat_eq_of_le (large : 2 ^ 53 ≤ m) :
    Float.ofNat m = ⟨.pack (roundWithAccuracy .binary64 .positive (m <<< 53) (0 - 53) .exact)⟩ := by
  have positive : m ≠ 0 := by omega
  have above : ¬ (0 : Int) < -((2 ^ Format.binary64.exponentBits : Int) + m.log2) := by
    have power : (2 : Int) ^ Format.binary64.exponentBits = 2048 := by decide
    omega
  show Float.ofScientific m false 0 = _
  rw [Float.ofScientific, dif_neg (by omega)]
  show Float.ofModel (.pack (UnpackedFloat.ofScientific .binary64 m 0)) = _
  rw [UnpackedFloat.ofScientific, dif_neg positive, if_neg (by decide), if_neg above,
    if_pos (Int.le_refl 0)]
  show Float.ofModel (.pack (roundWithAccuracy .binary64 .positive (m <<< 53 * 1) (-53 + 0)
    .exact)) = _
  rw [Nat.mul_one]
  rfl

/-- A positive double times one is rounded with 52 zeros after its last bit. -/
theorem mul_one_eq {x : Float} (read : content x = .finite d) (sign : d.negative = false)
    (positive : 0 < d.significand) :
    x * Float.ofBits 4607182418800017408 =
      ⟨.pack (roundWithAccuracy .binary64 .positive (d.significand <<< 52) (d.exponent - 52)
        .exact)⟩ := by
  rw [content_eq_ofUnpacked] at read
  have one : (Float.ofBits 4607182418800017408).toModel.unpack =
    .finite .positive (2 ^ 52) (-52) (by decide) := rfl
  show Float.ofModel (.pack (UnpackedFloat.mul .binary64 x.toModel.unpack _)) = _
  rw [one]
  revert read
  rcases x.toModel.unpack with _ | _ | s | ⟨s, m, k, _⟩ <;> intro read <;> cases read
  · exact absurd positive (Nat.lt_irrefl 0)
  · cases s with
    | negative => nomatch sign
    | positive =>
        rw [Nat.shiftLeft_eq]
        rfl

theorem grid_of_regular (regular : d.Regular) (positive : 0 < d.significand) :
    grid d.significand d.exponent = d.exponent := by
  have upper := (Nat.log2_lt positive.ne').mpr regular.significand_lt
  have least := regular.least_le
  unfold grid
  rcases regular.leading with full | low
  · have lower := (Nat.le_log2 positive.ne').mpr full
    omega
  · omega

theorem exists_content_mul_one {x : Float} (read : content x = .finite d)
    (sign : d.negative = false) (positive : 0 < d.significand) (bounded : d.exponent ≤ 970) :
    ∃ e, content (x * Float.ofBits 4607182418800017408) = .finite e ∧ e.IsNearest d.value := by
  have fixed := grid_of_regular (regular_of_content read).1 positive
  have placed : d.exponent - (52 : Nat) ≤ grid d.significand d.exponent := by omega
  have value : d.value = d.significand * 2 ^ d.exponent := by
    rw [Scaled.value_eq, sign]
    rfl
  obtain ⟨e, final, -, -, nearest⟩ := exists_content_round positive placed (by omega)
  rw [mul_one_eq read sign positive, value]
  exact ⟨e, final, nearest⟩

theorem exists_content_toFloat (positive : 0 < m) (small : m < 2 ^ 53) :
    ∃ d, content m.toUInt64.toFloat = .finite d ∧ d.negative = false ∧ d.exponent ≤ 970 ∧
      d.value = m := by
  have place := grid_zero m
  have bits : m.log2 < 53 := (Nat.log2_lt positive.ne').mpr small
  have placed : 0 - ((0 - grid m 0).toNat : Int) ≤ grid m 0 := by omega
  obtain ⟨d, read, sign, exponent, nearest⟩ := exists_content_round positive placed (by omega)
  obtain ⟨e, held, same⟩ := Scaled.exists_regular_natCast small.le
  rw [zpow_zero, mul_one, ← same] at nearest
  rw [toFloat_eq positive (by omega)]
  exact ⟨d, read, sign, by omega, (nearest.value_eq held).trans same⟩

theorem exists_content_ofNat (bounded : m < 2 ^ 64) :
    ∃ d, content (Float.ofNat m) = .finite d ∧ d.IsNearest m := by
  rcases Nat.eq_zero_or_pos m with rfl | positive
  · have zero : content (Float.ofNat 0) = .finite ⟨false, 0, -1074⟩ := rfl
    exact ⟨_, zero, Scaled.isNearest_of_value_eq (regular_of_content zero).1
      (by simp [Scaled.value_zero])⟩
  rcases Nat.lt_or_ge m (2 ^ 53) with small | large
  · obtain ⟨d, read, sign, exponent, value⟩ := exists_content_toFloat positive small
    have significand : 0 < d.significand := by
      refine Nat.pos_iff_ne_zero.mpr fun zero => positive.ne' ?_
      rw [← Nat.cast_eq_zero (R := ℚ), ← value, Scaled.value_eq, Scaled.magnitude, zero]
      simp
    -- The word has the value of the number, so that the product rounds what a double can hold.
    rw [ofNat_eq_of_lt small, ← value]
    exact exists_content_mul_one read sign significand exponent
  · have place := grid_zero m
    have bits : m.log2 < 64 := (Nat.log2_lt positive.ne').mpr bounded
    have placed : 0 - (53 : Nat) ≤ grid m 0 := by omega
    obtain ⟨d, read, -, -, nearest⟩ := exists_content_round positive placed (by omega)
    rw [zpow_zero, mul_one] at nearest
    rw [ofNat_eq_of_le large]
    exact ⟨d, read, nearest⟩

theorem content_neg {x : Float} (read : content x = .finite d) :
    content x.neg = .finite d.neg := by
  obtain ⟨regular, bounded⟩ := regular_of_content read
  rw [content_eq_ofUnpacked] at read ⊢
  refine ofUnpacked_pack ?_ regular.neg bounded
  revert read
  rcases x.toModel.unpack with _ | _ | s | ⟨s, m, k, _⟩ <;> intro read <;> cases read <;>
    cases s <;> rfl

theorem exists_content_ofInt {n : Int} (bounded : n.natAbs < 2 ^ 64) :
    ∃ d, content (Float.ofInt n) = .finite d ∧ d.IsNearest n := by
  cases n with
  | ofNat m => exact exists_content_ofNat bounded
  | negSucc m =>
      obtain ⟨d, read, nearest⟩ := exists_content_ofNat (m := m + 1) bounded
      refine ⟨d.neg, content_neg read, ?_⟩
      simpa [Int.negSucc_eq] using nearest.neg

end Conversion

end Binary64

namespace Number

open Binary64

theorem exists_content_widen (n : Int64) :
    ∃ w, content (Number.int n).widen = .finite w ∧ w.IsNearest n.toInt ∧
      (n.toInt.natAbs ≤ 2 ^ 53 → w.value = n.toInt) := by
  have lower := n.le_toInt
  have upper := n.toInt_lt
  obtain ⟨w, read, nearest⟩ := exists_content_ofInt (show n.toInt.natAbs < 2 ^ 64 by omega)
  refine ⟨w, read, nearest, fun small => ?_⟩
  obtain ⟨e, regular, value⟩ := Scaled.exists_regular_intCast small
  rw [← value] at nearest ⊢
  exact nearest.value_eq regular

theorem isZero_int (n : Int64) : (Number.int n).isZero = (n == 0) := by
  obtain ⟨w, read, nearest, exact⟩ := exists_content_widen n
  have zero : content 0.0 = .finite ⟨false, 0, -1074⟩ := by decide
  rw [isZero, beq_of_content read zero, Scaled.value_zero, Bool.eq_iff_iff,
    Ordering.isEq_iff_eq_eq, compare_eq_iff_eq, beq_iff_eq]
  constructor
  · intro vanishes
    by_contra nonzero
    exact nearest.value_ne_zero (fun same => nonzero (Int64.toInt_inj.mp same)) vanishes
  · rintro rfl
    exact exact (by decide)

end Number

end Stacklet

import Stacklet.Proofs.IntegerWidening
import Stacklet.Proofs.OperandUse

set_option autoImplicit false
set_option relaxedAutoImplicit false

/-!
Arithmetic on integers. A result is the exact one where 64 bits hold it, and a real where they do
not; quotients are rounded down, and the remainder that goes with them always fits. Division of
words rounds toward zero, and one correction makes it round down: the words computed on the way
never leave the 64 bits either.
-/

namespace Stacklet

namespace Number

def Fits (z : Int) : Prop := -2 ^ 63 ≤ z ∧ z ≤ 2 ^ 63 - 1

structure IsExact (n : Number) (z : Int) : Prop where
  integer : Fits z → ∃ k, n = .int k ∧ k.toInt = z
  real : ¬ Fits z → ∃ x, n = .real x

theorem fits_toInt (k : Int64) : Fits k.toInt := by
  have low := k.le_toInt
  have high := k.toInt_lt
  exact ⟨low, by omega⟩

theorem narrow?_eq_some_iff {z : Int} {k : Int64} : narrow? z = some k ↔ k.toInt = z := by
  have bound : Int.pow 2 63 = 2 ^ 63 := rfl
  unfold narrow?
  constructor
  · intro narrowed
    split at narrowed
    · rename_i within
      rw [bound] at within
      cases narrowed
      exact Int64.toInt_ofInt_of_le within.1 within.2
    · cases narrowed
  · rintro rfl
    rw [if_pos ⟨k.le_toInt, k.toInt_lt⟩, Int64.ofInt_toInt]

theorem narrow?_eq_none_iff {z : Int} : narrow? z = none ↔ ¬ Fits z := by
  have bound : Int.pow 2 63 = 2 ^ 63 := rfl
  unfold narrow? Fits
  rw [bound]
  split
  · rename_i within
    simp only [reduceCtorEq, false_iff, not_not]
    omega
  · rename_i beyond
    simp only [true_iff]
    omega

theorem isExact_exactOr (z : Int) (x : Float) : (exactOr z x).IsExact z := by
  unfold exactOr
  cases narrowed : narrow? z with
  | some k =>
      have value := narrow?_eq_some_iff.mp narrowed
      refine ⟨fun _ => ⟨k, rfl, value⟩, fun beyond => ?_⟩
      rw [← value] at beyond
      exact absurd (fits_toInt k) beyond
  | none =>
      have beyond := narrow?_eq_none_iff.mp narrowed
      exact ⟨fun fits => absurd fits beyond, fun _ => ⟨x, rfl⟩⟩

theorem exactOr_eq_int_iff {z : Int} {x : Float} {k : Int64} :
    exactOr z x = .int k ↔ narrow? z = some k := by
  unfold exactOr
  cases narrow? z <;> simp

end Number

namespace Word

def quotient? (x y : Int64) : Option Int64 :=
  if y = 0 then none else Number.narrow? (x.toInt.tdiv y.toInt)

/-- The remainder that goes with it, where it can be taken: by zero it cannot, nor of the least word
by minus one. The remainder `%` of words is the same one elsewhere, and zero there. -/
def remainder? (x y : Int64) : Option Int64 :=
  if y = 0 ∨ x = Int64.minValue ∧ y = -1 then none else some (x % y)

/-- The quotient of words rounded down, computed from the one rounded toward zero: it is one less if
something is left over and the signs differ. There is none inside if the first quotient does not
fit; there is none at all if a remainder is taken that cannot be. -/
def floorQuotient? (x y : Int64) : Option (Option Int64) :=
  match quotient? x y with
  | none => some none
  | some q => do
      let r ← remainder? x y
      return some (if r ≠ 0 ∧ ¬ (x < 0 ↔ y < 0) then q - 1 else q)

/-- The remainder that goes with the quotient rounded down: to the remainder of the division toward
zero the divisor is added if the two have different signs. -/
def floorRemainder (x y : Int64) : Int64 :=
  if x % y ≠ 0 ∧ ¬ (x % y < 0 ↔ y < 0) then x % y + y else x % y

/-- Whether all words that are computed on the way to a quotient or a remainder are the exact
integers that they stand for. -/
structure Exact (x y : Int64) : Prop where
  quotient : quotient? x y = none ↔ x = Int64.minValue ∧ y = -1
  /-- The remainder that cannot be taken is the one of the quotient that does not fit. -/
  missing : remainder? x y = none ↔ quotient? x y = none
  present : ∀ r, remainder? x y = some r → r = x % y
  remainder : (x % y).toInt = x.toInt.tmod y.toInt
  lowered : ∀ q, quotient? x y = some q → x % y ≠ 0 → (q - 1).toInt = q.toInt - 1
  raised : x % y ≠ 0 → ¬ (x % y < 0 ↔ y < 0) → (x % y + y).toInt = (x % y).toInt + y.toInt

variable {x y : Int64}

theorem mod_eq_zero_iff : x % y = 0 ↔ y.toInt ∣ x.toInt := by
  rw [← Int64.toInt_inj, Int64.toInt_mod, Int.dvd_iff_tmod_eq_zero]
  rfl

theorem lt_zero_iff : x < 0 ↔ x.toInt < 0 := Int64.lt_iff_toInt_lt

theorem toInt_ne_zero (nonzero : y ≠ 0) : y.toInt ≠ 0 := fun zero =>
  nonzero (Int64.toInt_inj.mp zero)

theorem natAbs_tdiv_le {a b : Int} (large : 2 ≤ b.natAbs) :
    2 * (a.tdiv b).natAbs ≤ a.natAbs := by
  have size : (a.tdiv b).natAbs = a.natAbs / b.natAbs := Int.natAbs_tdiv a b
  have half : a.natAbs / b.natAbs ≤ a.natAbs / 2 := Nat.div_le_div_left large (by decide)
  omega

theorem natAbs_tmod_lt (a : Int) {b : Int} (nonzero : b ≠ 0) :
    (a.tmod b).natAbs < b.natAbs := by
  rw [Int.natAbs_tmod]
  exact Nat.mod_lt _ (Int.natAbs_pos.mpr nonzero)

theorem tmod_neg_iff {a b : Int} (rest : a.tmod b ≠ 0) : a.tmod b < 0 ↔ a < 0 := by
  rcases Int.lt_or_le a 0 with negative | nonnegative
  · have opposite : 0 ≤ (-a).tmod b := Int.tmod_nonneg b (by omega)
    rw [Int.neg_tmod] at opposite
    omega
  · have sign : 0 ≤ a.tmod b := Int.tmod_nonneg b nonnegative
    omega

theorem toInt_mod_ne_zero (rest : x % y ≠ 0) : x.toInt.tmod y.toInt ≠ 0 := by
  intro zero
  exact rest (mod_eq_zero_iff.mpr (Int.dvd_of_tmod_eq_zero zero))

theorem two_le_natAbs (nonzero : y ≠ 0) (rest : x % y ≠ 0) : 2 ≤ y.toInt.natAbs := by
  have positive := toInt_ne_zero nonzero
  have below := natAbs_tmod_lt x.toInt positive
  have left := toInt_mod_ne_zero rest
  omega

theorem quotient?_eq_none_iff (nonzero : y ≠ 0) :
    quotient? x y = none ↔ x = Int64.minValue ∧ y = -1 := by
  rw [quotient?, if_neg nonzero, Number.narrow?_eq_none_iff]
  constructor
  · intro beyond
    have low := x.le_toInt
    have high := x.toInt_lt
    have positive := toInt_ne_zero nonzero
    by_cases large : 2 ≤ y.toInt.natAbs
    · have half : 2 * (x.toInt.tdiv y.toInt).natAbs ≤ x.toInt.natAbs := natAbs_tdiv_le large
      exact absurd ⟨by omega, by omega⟩ beyond
    · obtain one | minus : y.toInt = 1 ∨ y.toInt = -1 := by omega
      · rw [one, Int.tdiv_one] at beyond
        exact absurd (Number.fits_toInt x) beyond
      · rw [minus, Int.tdiv_neg, Int.tdiv_one] at beyond
        have least : x.toInt = -2 ^ 63 := by
          unfold Number.Fits at beyond
          omega
        exact ⟨Int64.toInt_inj.mp least, Int64.toInt_inj.mp minus⟩
  · rintro ⟨rfl, rfl⟩
    intro fits
    have high := fits.2
    revert high
    decide

theorem bmod_of_fits {z : Int} (fits : Number.Fits z) : z.bmod (2 ^ 64) = z := by
  obtain ⟨low, high⟩ := fits
  apply Int.bmod_eq_of_le_mul_two <;> omega

theorem toInt_add_of_fits (fits : Number.Fits (x.toInt + y.toInt)) :
    (x + y).toInt = x.toInt + y.toInt := by
  rw [Int64.toInt_add, bmod_of_fits fits]

theorem toInt_sub_of_fits (fits : Number.Fits (x.toInt - y.toInt)) :
    (x - y).toInt = x.toInt - y.toInt := by
  rw [Int64.toInt_sub, bmod_of_fits fits]

theorem exact_of_ne_zero (nonzero : y ≠ 0) : Exact x y where
  quotient := quotient?_eq_none_iff nonzero
  missing := by
    rw [quotient?_eq_none_iff nonzero]
    simp [remainder?, nonzero]
  present := by
    intro r taken
    simp only [remainder?] at taken
    split at taken
    · cases taken
    · exact (Option.some.inj taken).symm
  remainder := Int64.toInt_mod x y
  lowered := by
    intro q divided rest
    rw [quotient?, if_neg nonzero] at divided
    have value := Number.narrow?_eq_some_iff.mp divided
    have half : 2 * (x.toInt.tdiv y.toInt).natAbs ≤ x.toInt.natAbs :=
      natAbs_tdiv_le (two_le_natAbs nonzero rest)
    have low := x.le_toInt
    have high := x.toInt_lt
    have one : (1 : Int64).toInt = 1 := rfl
    rw [toInt_sub_of_fits, one]
    rw [one, value]
    exact ⟨by omega, by omega⟩
  raised := by
    intro rest differ
    rw [lt_zero_iff, lt_zero_iff] at differ
    have left := (x % y).le_toInt
    have right := (x % y).toInt_lt
    have low := y.le_toInt
    have high := y.toInt_lt
    exact toInt_add_of_fits ⟨by omega, by omega⟩

def RoundsUp (a b : Int) : Prop := a.tmod b ≠ 0 ∧ ¬ (a < 0 ↔ b < 0)

theorem fdiv_of_roundsUp {a b : Int} (nonzero : b ≠ 0) (up : RoundsUp a b) :
    a.fdiv b = a.tdiv b - 1 := by
  obtain ⟨rest, differ⟩ := up
  rw [Int.fdiv_eq_tdiv, if_neg (mt Int.tmod_eq_zero_of_dvd rest)]
  rcases Int.lt_or_lt_of_ne nonzero with negative | positive
  · rw [if_pos (by omega), if_neg (by omega)]
  · rw [if_neg (by omega), if_pos (by omega), Int.sign_eq_one_of_pos positive]

theorem fdiv_of_not_roundsUp {a b : Int} (nonzero : b ≠ 0) (down : ¬ RoundsUp a b) :
    a.fdiv b = a.tdiv b := by
  rw [Int.fdiv_eq_tdiv]
  by_cases rest : a.tmod b = 0
  · rw [if_pos (Int.dvd_of_tmod_eq_zero rest), Int.sub_zero]
  · have same : a < 0 ↔ b < 0 := by
      by_contra differ
      exact down ⟨rest, differ⟩
    rw [if_neg (mt Int.tmod_eq_zero_of_dvd rest)]
    rcases Int.lt_or_lt_of_ne nonzero with negative | positive
    · rw [if_neg (by omega), if_neg (by omega), Int.sign_eq_neg_one_of_neg negative]
      omega
    · rw [if_pos (by omega), if_pos (by omega), Int.sub_zero]

theorem fmod_of_roundsUp {a b : Int} (nonzero : b ≠ 0) (up : RoundsUp a b) :
    a.fmod b = a.tmod b + b := by
  have down := Int.mul_fdiv_add_fmod a b
  have zero := Int.mul_tdiv_add_tmod a b
  rw [fdiv_of_roundsUp nonzero up, Int.mul_sub, Int.mul_one] at down
  omega

theorem fmod_of_not_roundsUp {a b : Int} (nonzero : b ≠ 0) (down : ¬ RoundsUp a b) :
    a.fmod b = a.tmod b := by
  have floor := Int.mul_fdiv_add_fmod a b
  have zero := Int.mul_tdiv_add_tmod a b
  rw [fdiv_of_not_roundsUp nonzero down] at floor
  omega

theorem roundsUp_iff : RoundsUp x.toInt y.toInt ↔ x % y ≠ 0 ∧ ¬ (x < 0 ↔ y < 0) := by
  rw [RoundsUp, lt_zero_iff, lt_zero_iff, Ne, Ne, mod_eq_zero_iff, Int.dvd_iff_tmod_eq_zero]

theorem roundsUp_iff_mod : RoundsUp x.toInt y.toInt ↔ x % y ≠ 0 ∧ ¬ (x % y < 0 ↔ y < 0) := by
  rw [roundsUp_iff]
  refine and_congr_right fun rest => ?_
  have sign : x % y < 0 ↔ x < 0 := by
    rw [lt_zero_iff, lt_zero_iff, Int64.toInt_mod]
    exact tmod_neg_iff (toInt_mod_ne_zero rest)
  rw [sign]

/-- The quotient computed on words is the exact quotient rounded down, wherever that fits, and no
remainder is taken on the way that cannot be. -/
theorem floorQuotient?_eq (nonzero : y ≠ 0) :
    floorQuotient? x y = some (Number.narrow? (x.toInt.fdiv y.toInt)) := by
  have exact : Exact x y := exact_of_ne_zero nonzero
  unfold floorQuotient?
  cases divided : quotient? x y with
  | none =>
      obtain ⟨rfl, rfl⟩ := exact.quotient.mp divided
      rfl
  | some q =>
      obtain ⟨r, taken⟩ : ∃ r, remainder? x y = some r := by
        rw [← Option.ne_none_iff_exists', Ne, exact.missing, divided]
        nofun
      have rest := exact.present r taken
      have narrowed := divided
      rw [quotient?, if_neg nonzero] at narrowed
      have value := Number.narrow?_eq_some_iff.mp narrowed
      simp only [taken, rest, Option.bind_eq_bind, Option.bind_some, Option.pure_def]
      by_cases up : RoundsUp x.toInt y.toInt
      · have corrected := roundsUp_iff.mp up
        rw [if_pos corrected, fdiv_of_roundsUp (toInt_ne_zero nonzero) up, ← value,
          ← exact.lowered q divided corrected.1, Number.narrow?_eq_some_iff.mpr rfl]
      · rw [if_neg (mt roundsUp_iff.mpr up), fdiv_of_not_roundsUp (toInt_ne_zero nonzero) up,
          narrowed]

/-- The remainder computed on words is the one of the exact quotient rounded down. -/
theorem toInt_floorRemainder (nonzero : y ≠ 0) :
    (floorRemainder x y).toInt = x.toInt.fmod y.toInt := by
  have exact : Exact x y := exact_of_ne_zero nonzero
  unfold floorRemainder
  by_cases up : RoundsUp x.toInt y.toInt
  · have corrected := roundsUp_iff_mod.mp up
    rw [if_pos corrected, exact.raised corrected.1 corrected.2, exact.remainder,
      fmod_of_roundsUp (toInt_ne_zero nonzero) up]
  · rw [if_neg (mt roundsUp_iff_mod.mpr up), exact.remainder,
      fmod_of_not_roundsUp (toInt_ne_zero nonzero) up]

theorem floor_div_eq_fdiv {a b : Int} (nonzero : b ≠ 0) : ⌊(a : ℚ) / b⌋ = a.fdiv b := by
  have natural (c : Int) (n : Nat) : ⌊(c : ℚ) / (n : Int)⌋ = c.fdiv n := by
    rw [Int.fdiv_eq_ediv_of_nonneg c (Int.natCast_nonneg n), Int.cast_natCast]
    exact Rat.floor_intCast_div_natCast c n
  rcases Int.lt_or_lt_of_ne nonzero with negative | positive
  · obtain ⟨n, opposite⟩ := Int.eq_ofNat_of_zero_le (by omega : 0 ≤ -b)
    rw [← Int.neg_fdiv_neg, opposite, ← natural, ← opposite, Int.cast_neg, Int.cast_neg,
      neg_div_neg_eq]
  · obtain ⟨n, rfl⟩ := Int.eq_ofNat_of_zero_le (Int.le_of_lt positive)
    exact natural a n

private theorem fmod_bounds_of_pos (a : Int) {b : Int} (positive : 0 < b) :
    |a.fmod b| < |b| ∧ (a.fmod b = 0 ∨ (a.fmod b).sign = b.sign) := by
  have low : 0 ≤ a.fmod b := Int.fmod_nonneg_of_pos a positive
  have high : a.fmod b < b := Int.fmod_lt_of_pos a positive
  rw [abs_of_nonneg low, abs_of_pos positive]
  refine ⟨high, ?_⟩
  rcases Int.lt_or_eq_of_le low with above | zero
  · exact .inr (by rw [Int.sign_eq_one_of_pos above, Int.sign_eq_one_of_pos positive])
  · exact .inl zero.symm

theorem fmod_bounds (a : Int) {b : Int} (nonzero : b ≠ 0) :
    |a.fmod b| < |b| ∧ (a.fmod b = 0 ∨ (a.fmod b).sign = b.sign) := by
  rcases Int.lt_or_lt_of_ne nonzero with negative | positive
  · -- Both numbers change sign, and so does the remainder.
    have opposite := fmod_bounds_of_pos (-a) (Int.neg_pos_of_neg negative)
    rw [Int.neg_fmod_neg, abs_neg, abs_neg, Int.sign_neg, Int.sign_neg] at opposite
    exact ⟨opposite.1, by omega⟩
  · exact fmod_bounds_of_pos a positive

end Word

namespace Machine

/-- Whether a name has an answer to operands, on every machine on which they lie on top: it puts a
number in their place, or it fails and they are gone. -/
def Answers (word : String) (operands : Stack) (answer : Except RuntimeError Number) : Prop :=
  ∀ (m : Machine) (mode : ScopingMode) (enter : List Token → Machine → Outcome × Machine)
    (rest : Stack),
    ({ m with stack := operands ++ rest } : Machine).step mode enter (.name word) =
      match answer with
      | .ok n => (.ok .completed, { m with stack := .number n :: rest })
      | .error e => (.error e, { m with stack := rest })

private theorem answers_of_perform {word : String} {op : Operator}
    (listed : Operator.ofName? word = some op) {operands : Operands op.signature}
    {answer : Except RuntimeError Number}
    (performed : ∀ m, op.perform m operands = answer.map fun n => .push (.number n)) :
    Answers word (Operands.values op.signature operands) answer := by
  intro m mode enter rest
  rw [step, resolve_operator listed operands rfl, performed]
  cases answer with
  | ok n => rfl
  | error e => rfl

theorem answers_arithmetic (f : Arithmetic) (a b : Number) :
    Answers f.label [.number b, .number a] (f.apply a b) := by
  have listed : Operator.ofName? f.label = some (.arithmetic f) := by cases f <;> decide
  have performed (m : Machine) : (Operator.arithmetic f).perform m (b, a, ()) =
      (f.apply a b).map fun n => .push (.number n) := by
    simp only [Operator.perform]
    cases f.apply a b <;> rfl
  exact answers_of_perform listed performed

theorem answers_transform (f : Transform) (a : Number) :
    Answers f.label [.number a] (f.apply a) := by
  have listed : Operator.ofName? f.label = some (.transform f) := by cases f <;> decide
  have performed (m : Machine) : (Operator.transform f).perform m (a, ()) =
      (f.apply a).map fun n => .push (.number n) := by
    simp only [Operator.perform]
    cases f.apply a <;> rfl
  exact answers_of_perform listed performed

section Division

variable {x y : Int64}

private theorem answers_of_ne_zero (f : Arithmetic) (nonzero : y ≠ 0) :
    Answers f.label [.int y, .int x] (.ok (f.compute (.int x) (.int y))) := by
  have computed : f.apply (.int x) (.int y) = .ok (f.compute (.int x) (.int y)) := by
    simp [Arithmetic.apply, Number.isZero_int, nonzero]
  rw [← computed]
  exact answers_arithmetic f (.int x) (.int y)

private theorem answers_of_eq_zero {f : Arithmetic} (divides : f.divides = true) (zero : y = 0) :
    Answers f.label [.int y, .int x] (.error (.divisionByZero f.label)) := by
  have refused : f.apply (.int x) (.int y) = .error (.divisionByZero f.label) := by
    simp [Arithmetic.apply, Number.isZero_int, divides, zero]
  rw [← refused]
  exact answers_arithmetic f (.int x) (.int y)

private theorem answers_idiv (nonzero : y ≠ 0) :
    ∃ n, Answers "idiv" [.int y, .int x] (.ok n) ∧ n.IsExact ⌊(x.toInt : ℚ) / y.toInt⌋ ∧
      ∃ quotient, Word.floorQuotient? x y = some quotient ∧
        ∀ q, n = .int q ↔ quotient = some q := by
  refine ⟨_, answers_of_ne_zero .idiv nonzero, ?_, _, Word.floorQuotient?_eq nonzero, ?_⟩
  · rw [Word.floor_div_eq_fdiv (Word.toInt_ne_zero nonzero)]
    exact Number.isExact_exactOr _ _
  · intro q
    exact Number.exactOr_eq_int_iff

private theorem answers_mod (nonzero : y ≠ 0) :
    Answers "mod" [.int y, .int x] (.ok (.int (Word.floorRemainder x y))) := by
  have fits : Number.narrow? (x.toInt.fmod y.toInt) = some (Word.floorRemainder x y) :=
    Number.narrow?_eq_some_iff.mpr (Word.toInt_floorRemainder nonzero)
  have remainder : Arithmetic.mod.compute (.int x) (.int y) = .int (Word.floorRemainder x y) :=
    Number.exactOr_eq_int_iff.mpr fits
  rw [← remainder]
  exact answers_of_ne_zero .mod nonzero

end Division

/-- Integer arithmetic is exact and never wraps. On any two integers, and in every state, the
operators give the exact sum, difference, product, negative, absolute value and quotient rounded
down where 64 bits hold it, and a real elsewhere; the remainder always is an integer, smaller than
the divisor and with its sign. Quotient and remainder are those computed on words, on the way to
which no word overflows and no remainder is taken that cannot be. A divisor that is zero is refused,
and no other one. -/
theorem integer_results_exact (x y : Int64) :
    (∃ n, Answers "add" [.int y, .int x] (.ok n) ∧ n.IsExact (x.toInt + y.toInt)) ∧
    (∃ n, Answers "sub" [.int y, .int x] (.ok n) ∧ n.IsExact (x.toInt - y.toInt)) ∧
    (∃ n, Answers "mul" [.int y, .int x] (.ok n) ∧ n.IsExact (x.toInt * y.toInt)) ∧
    (∃ n, Answers "neg" [.int x] (.ok n) ∧ n.IsExact (-x.toInt)) ∧
    (∃ n, Answers "abs" [.int x] (.ok n) ∧ n.IsExact |x.toInt|) ∧
    (y ≠ 0 →
      (∃ n, Answers "idiv" [.int y, .int x] (.ok n) ∧
        n.IsExact ⌊(x.toInt : ℚ) / y.toInt⌋ ∧
        ∃ quotient, Word.floorQuotient? x y = some quotient ∧
          ∀ q, n = .int q ↔ quotient = some q) ∧
      (∃ r, Answers "mod" [.int y, .int x] (.ok (.int r)) ∧
        x.toInt = y.toInt * ⌊(x.toInt : ℚ) / y.toInt⌋ + r.toInt ∧
        |r.toInt| < |y.toInt| ∧ (r.toInt = 0 ∨ r.toInt.sign = y.toInt.sign) ∧
        r = Word.floorRemainder x y) ∧
      Word.Exact x y) ∧
    (y = 0 →
      Answers "idiv" [.int y, .int x] (.error (.divisionByZero "idiv")) ∧
      Answers "mod" [.int y, .int x] (.error (.divisionByZero "mod"))) := by
  refine ⟨?_, ?_, ?_, ?_, ?_, ?_, ?_⟩
  · exact ⟨_, answers_arithmetic .add (.int x) (.int y), Number.isExact_exactOr _ _⟩
  · exact ⟨_, answers_arithmetic .sub (.int x) (.int y), Number.isExact_exactOr _ _⟩
  · exact ⟨_, answers_arithmetic .mul (.int x) (.int y), Number.isExact_exactOr _ _⟩
  · exact ⟨_, answers_transform .neg (.int x), Number.isExact_exactOr _ _⟩
  · rw [← Int.natCast_natAbs]
    exact ⟨_, answers_transform .abs (.int x), Number.isExact_exactOr _ _⟩
  · intro nonzero
    have divisor := Word.toInt_ne_zero nonzero
    have value : (Word.floorRemainder x y).toInt = x.toInt.fmod y.toInt :=
      Word.toInt_floorRemainder nonzero
    obtain ⟨small, sign⟩ := Word.fmod_bounds x.toInt divisor
    refine ⟨answers_idiv nonzero, ⟨_, answers_mod nonzero, ?_, ?_, ?_, rfl⟩,
      Word.exact_of_ne_zero nonzero⟩
    · rw [value, Word.floor_div_eq_fdiv divisor]
      exact (Int.mul_fdiv_add_fmod x.toInt y.toInt).symm
    · rw [value]
      exact small
    · rw [value]
      exact sign
  · intro zero
    have idiv : Arithmetic.idiv.divides = true := rfl
    have mod : Arithmetic.mod.divides = true := rfl
    exact ⟨answers_of_eq_zero idiv zero, answers_of_eq_zero mod zero⟩

/-- The least integer over minus one: the quotient is a real, and nothing is left over. -/
theorem integer_results_exact_least :
    ¬ Number.Fits ⌊((Int64.minValue).toInt : ℚ) / (-1 : Int64).toInt⌋ ∧
      (∃ x, Answers "idiv" [.int (-1), .int Int64.minValue] (.ok (.real x))) ∧
      Answers "mod" [.int (-1), .int Int64.minValue] (.ok (.int 0)) ∧
      Answers "mod" [.int 0, .int Int64.minValue] (.error (.divisionByZero "mod")) := by
  have nonzero : (-1 : Int64) ≠ 0 := by decide
  have beyond : ¬ Number.Fits ⌊((Int64.minValue).toInt : ℚ) / (-1 : Int64).toInt⌋ := by
    rw [Word.floor_div_eq_fdiv (by decide), ← Number.narrow?_eq_none_iff]
    decide
  obtain ⟨-, -, -, -, -, divided, -⟩ := integer_results_exact Int64.minValue (-1)
  obtain ⟨⟨n, quotient, exact, -⟩, ⟨r, remainder, -, -, -, rfl⟩, -⟩ := divided nonzero
  obtain ⟨-, -, -, -, -, -, refused⟩ := integer_results_exact Int64.minValue 0
  obtain ⟨x, rfl⟩ := exact.real beyond
  exact ⟨beyond, ⟨x, quotient⟩, remainder, (refused rfl).2⟩

end Machine

end Stacklet

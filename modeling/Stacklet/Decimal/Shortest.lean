import Stacklet.Binary64

set_option autoImplicit false
set_option relaxedAutoImplicit false

/-!
The shortest decimal of a double: of the decimals that read back as the double, those with the
fewest digits, and of these the one nearest to it. All comparisons are exact.
-/

namespace Stacklet.Decimal

open Stacklet.Binary64 (Scaled)

inductive Tie where
  | up
  | toEven
deriving DecidableEq

structure Digits where
  coefficient : Nat
  exponent : Int
deriving DecidableEq

def binaryLtDecimal (a : Nat) (p : Int) (c : Nat) (e : Int) : Bool :=
  a * Nat.pow 2 p.toNat * Nat.pow 10 (-e).toNat < c * Nat.pow 10 e.toNat * Nat.pow 2 (-p).toNat

def decimalLtBinary (c : Nat) (e : Int) (a : Nat) (p : Int) : Bool :=
  c * Nat.pow 10 e.toNat * Nat.pow 2 (-p).toNat < a * Nat.pow 2 p.toNat * Nat.pow 10 (-e).toNat

/-- Whether a decimal rounds to the double `d`. The numbers that do so lie between the two points
halfway to its neighbours, measured here in quarters of its last place; the points themselves
belong to it when its significand is even. Below a power of two the neighbours are twice as near. -/
def readsBack (d : Scaled) (c : Nat) (e : Int) : Bool :=
  let narrow := d.significand = Nat.pow 2 52 ∧ d.exponent ≠ -1074
  let low := 4 * d.significand - (if narrow then 1 else 2)
  let high := 4 * d.significand + 2
  let place := d.exponent - 2
  if d.significand % 2 = 0 then
    !decimalLtBinary c e low place && !binaryLtDecimal high place c e
  else
    binaryLtDecimal low place c e && decimalLtBinary c e high place

/-- The least `k` with `d < 10 ^ k`, for a nonzero `d`. The binary logarithm leaves three
candidates. -/
def scale (d : Scaled) : Int :=
  let guess := ((d.significand.log2 : Int) + d.exponent) * 30103 / 100000
  if binaryLtDecimal d.significand d.exponent 1 guess then guess
  else if binaryLtDecimal d.significand d.exponent 1 (guess + 1) then guess + 1
  else guess + 2

def unitsBelow (d : Scaled) (e : Int) : Nat :=
  d.significand * Nat.pow 2 d.exponent.toNat * Nat.pow 10 (-e).toNat
    / (Nat.pow 10 e.toNat * Nat.pow 2 (-d.exponent).toNat)

/-- The decimal in units of `10 ^ e` that reads back as `d` and is nearest to it, if there is one:
it is one of the two next to `d`. -/
def nearestUnits? (tie : Tie) (d : Scaled) (e : Int) : Option Nat :=
  let below := unitsBelow d e
  match readsBack d below e, readsBack d (below + 1) e with
  | false, false => none
  | true, false => some below
  | false, true => some (below + 1)
  | true, true =>
      if binaryLtDecimal (2 * d.significand) d.exponent (2 * below + 1) e then some below
      else if decimalLtBinary (2 * below + 1) e (2 * d.significand) d.exponent then some (below + 1)
      else
        match tie with
        | .up => some (below + 1)
        | .toEven => if below % 2 = 0 then some below else some (below + 1)

/-- Moves the trailing zeros of a coefficient, at most `n` of them, into the exponent. -/
def Digits.strip : Nat → Digits → Digits
  | 0, s => s
  | n + 1, s =>
      if s.coefficient ≠ 0 ∧ s.coefficient % 10 = 0 then
        strip n ⟨s.coefficient / 10, s.exponent + 1⟩
      else s

/-- The shortest decimal of the magnitude of `d`. Seventeen digits always suffice. -/
def shortest (tie : Tie) (d : Scaled) : Digits :=
  if d.significand = 0 then ⟨0, 0⟩
  else
    let k := scale d
    let found := (List.range 17).findSome? fun n =>
      let e := k - (n + 1 : Nat)
      (nearestUnits? tie d e).map fun c => (⟨c, e⟩ : Digits)
    (found.getD ⟨unitsBelow d (k - 17), k - 17⟩).strip 17

end Stacklet.Decimal

set_option autoImplicit false
set_option relaxedAutoImplicit false

/-!
Intervals of a list: reading and overwriting a part that lies inside it, and the bounds of a part in
machine words.
-/

namespace Stacklet.Interval

variable {α : Type}

/-- The `count` elements from `start` on, if the list has them all. -/
def read? (start count : Int) (xs : List α) : Option (List α) :=
  if 0 ≤ start ∧ 0 ≤ count ∧ start + count ≤ xs.length then
    some ((xs.drop start.toNat).take count.toNat)
  else none

/-- The list with `part` in place of as many elements from `start` on, if it has them all. -/
def write? (start : Int) (part xs : List α) : Option (List α) :=
  if 0 ≤ start ∧ start + part.length ≤ xs.length then
    some (xs.take start.toNat ++ part ++ xs.drop (start.toNat + part.length))
  else none

def element? (index : Int) (xs : List α) : Option α :=
  if 0 ≤ index then xs[index.toNat]? else none

def splice (first last : Nat) (part xs : List α) : List α := xs.take first ++ part ++ xs.drop last

def natural? (n : Int64) : Option UInt64 := if n < 0 then none else some n.toUInt64

def checkedAdd? (a b : UInt64) : Option UInt64 := if a + b < a then none else some (a + b)

/-- Where the interval of `count` elements from `start` on begins and ends, computed in words, if a
list of that length has it. -/
def bounds? (start count : Int64) (length : Nat) : Option (Nat × Nat) := do
  let first ← natural? start
  let last ← checkedAdd? first (← natural? count)
  if last.toNat ≤ length then some (first.toNat, last.toNat) else none

end Stacklet.Interval

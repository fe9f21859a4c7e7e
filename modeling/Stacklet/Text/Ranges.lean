set_option autoImplicit false
set_option relaxedAutoImplicit false

/-!
Classes of characters given by ranges of code points.
-/

namespace Stacklet.Text

def within (ranges : List (Nat × Nat)) (c : Char) : Bool :=
  ranges.any fun (low, high) => low ≤ c.toNat && c.toNat ≤ high

end Stacklet.Text

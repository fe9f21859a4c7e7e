import Stacklet.RuntimeError
import Stacklet.Value

set_option autoImplicit false
set_option relaxedAutoImplicit false

/-!
The operand stack.
-/

namespace Stacklet

abbrev Stack := List Value

namespace Stack

def pop (operator : String) : Stack → Except RuntimeError (Value × Stack)
  | [] => .error (.stackUnderflow operator)
  | v :: rest => .ok (v, rest)

def peek (operator : String) : Stack → Except RuntimeError Value
  | [] => .error (.stackUnderflow operator)
  | v :: _ => .ok v

def exchange : Stack → Except RuntimeError Stack
  | v :: w :: rest => .ok (w :: v :: rest)
  | _ => .error (.stackUnderflow "exch")

def copy (count : Int) (s : Stack) : Except RuntimeError Stack :=
  if count < 0 then .error .negativeCount
  else if s.length < count.toNat then .error (.countExceedsDepth count.toNat s.length)
  else .ok (s.take count.toNat ++ s)

end Stack

end Stacklet

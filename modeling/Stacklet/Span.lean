set_option autoImplicit false
set_option relaxedAutoImplicit false

/-!
Spans: where in a source something stands, in bytes.
-/

namespace Stacklet

/-- The bytes from `start` up to, and without, `stop`. -/
structure Span where
  start : Nat
  stop : Nat
deriving DecidableEq, Repr, Inhabited

namespace Span

def point (offset : Nat) : Span := ⟨offset, offset + 1⟩

/-- How many bytes a span covers; none when it stops before it starts. -/
def length (s : Span) : Nat := s.stop - s.start

def isEmpty (s : Span) : Bool := s.length == 0

def render (s : Span) : String := toString s.start ++ ".." ++ toString s.stop

end Span

end Stacklet

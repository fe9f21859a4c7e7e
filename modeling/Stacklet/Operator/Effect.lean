import Stacklet.Machine
import Stacklet.Operator
import Stacklet.Operator.Operand
import Stacklet.Value.Equality
import Stacklet.Value.Sequence

set_option autoImplicit false
set_option relaxedAutoImplicit false

/-!
What an operator asks for, given its operands: a change of the state, the end of the program, or
the run of a procedure. An operator looks at the state but changes nothing itself, so one that
fails leaves everything as it was but the operands that it has taken.
-/

namespace Stacklet

inductive Effect where
  | change (c : Change)
  | quit
  | run (body : List Token)
  | times (count : Nat) (p : ProcedureId)
  | range (first : Int) (count : Nat) (p : ProcedureId)

namespace Effect

abbrev push (v : Value) : Effect := .change (.push [v])

def ofDatum : Datum → Effect
  | .value v => push v
  | .procedure body => .change (.makeProcedure body)

def ofRevision : Revision → Effect
  | .text s => push (.text s)
  | .procedure p body => .change (.setBody p body)

end Effect

namespace Operator

abbrev signature : Operator → List Operand
  | .arithmetic _ => [.number, .number]
  | .transform _ => [.number]
  | .equal => [.any, .any]
  | .notEqual => [.any, .any]
  | .relation _ => [.any, .any]
  | .conjunction => [.boolean, .boolean]
  | .disjunction => [.boolean, .boolean]
  | .negation => [.boolean]
  | .constant _ => []
  | .duplicate => [.any]
  | .exchange => []
  | .discard => [.any]
  | .clear => []
  | .count => []
  | .copy => [.integer]
  | .makeDictionary => [.integer]
  | .enterScope => [.dictionary]
  | .leaveScope => []
  | .define => [.any, .any]
  | .length => [.any]
  | .maxLength => [.dictionary]
  | .element => [.integer, .any]
  | .interval => [.integer, .integer, .any]
  | .overwrite => [.any, .integer, .any]
  | .choose _ => [.procedure, .procedure, .boolean]
  | .forRange => [.procedure, .integer, .integer]
  | .times => [.procedure, .integer]
  | .quit => []
  | .print => [.any]

/-- The order of two values that have one: numbers among themselves and texts among themselves. -/
def order (operator : String) : Value → Value → Except RuntimeError (Option Ordering)
  | .number m, .number n => .ok (m.compare? n)
  | .text s, .text t => .ok (some (compare s t))
  | .number m, w => .error (.typeMismatch operator (.kind (Value.number m).kind) w.kind)
  | .text _, w => .error (.typeMismatch operator (.kind .text) w.kind)
  | v, _ => .error (.typeMismatch operator .numberOrText v.kind)

/-- What an operator asks for. The operands come in the order in which they are taken, and `m` is
the state without them. -/
def perform (m : Machine) : (op : Operator) → Operands op.signature → Except RuntimeError Effect
  | .arithmetic f, (b, a, ()) => do return .push (.number (← f.apply a b))
  | .transform f, (a, ()) => do return .push (.number (← f.apply a))
  | .equal, (b, a, ()) => .ok (.push (.bool (m.store.same a b)))
  | .notEqual, (b, a, ()) => .ok (.push (.bool (!m.store.same a b)))
  | .relation r, (b, a, ()) => do return .push (.bool (r.holds (← order r.label a b)))
  | .conjunction, (b, a, ()) => .ok (.push (.bool (a && b)))
  | .disjunction, (b, a, ()) => .ok (.push (.bool (a || b)))
  | .negation, (a, ()) => .ok (.push (.bool !a))
  | .constant b, () => .ok (.push (.bool b))
  | .duplicate, (v, ()) => .ok (.change (.push [v, v]))
  | .exchange, () => do return .change (.restack (← m.stack.exchange))
  | .discard, (_, ()) => .ok (.change (.push []))
  | .clear, () => .ok (.change (.restack []))
  | .count, () => .ok (.push (.int (Int64.ofNat m.stack.length)))
  | .copy, (n, ()) => do return .change (.restack (← m.stack.copy n.toInt))
  | .makeDictionary, (n, ()) =>
      if n.toInt < 0 then .error .negativeSize
      else .ok (.change (.makeDictionary n.toInt.toNat))
  | .enterScope, (d, ()) => .ok (.change (.enterScope d))
  | .leaveScope, () => do
      let _ ← m.scopes.leave
      return .change .leaveScope
  | .define, (value, key, ()) =>
      match key.key? with
      | some word => .ok (.change (.bind word value))
      | none => .error (.typeMismatch "def" .key key.kind)
  | .length, (v, ()) =>
      match m.store.length? v with
      | some n => .ok (.push (.int (Int64.ofNat n)))
      | none => .error (.typeMismatch "length" .collection v.kind)
  | .maxLength, (d, ()) => .ok (.push (.int (Int64.ofNat (m.store.dictionary d).maxLength)))
  | .element, (index, v, ()) => do
      return .ofDatum (← m.store.element "get" index.toInt v)
  | .interval, (n, start, v, ()) => do
      return .ofDatum (← m.store.interval "getinterval" start.toInt n.toInt v)
  | .overwrite, (part, start, v, ()) => do
      return .ofRevision (← m.store.overwrite "putinterval" start.toInt v part)
  | .choose _, (whenFalse, whenTrue, condition, ()) =>
      .ok (.run (m.store.body (if condition then whenTrue else whenFalse)))
  | .forRange, (p, last, first, ()) =>
      .ok (.range first.toInt (last.toInt - first.toInt + 1).toNat p)
  | .times, (p, n, ()) => .ok (.times n.toInt.toNat p)
  | .quit, () => .ok .quit
  | .print, (v, ()) => .ok (.change (.print (m.store.display v)))

def invoke (op : Operator) (m : Machine) : Except RuntimeError Effect × Stack :=
  match Operands.take op.label op.signature m.stack with
  | (.ok operands, rest) => (op.perform { m with stack := rest } operands, rest)
  | (.error e, rest) => (.error e, rest)

end Operator

end Stacklet

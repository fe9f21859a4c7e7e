import Stacklet.Stack

set_option autoImplicit false
set_option relaxedAutoImplicit false

/-!
Operands. An operator states the classes of its operands, the top one first, and takes them off
the stack one by one. An operand of the wrong kind is taken off too before the operator fails.
-/

namespace Stacklet

inductive Operand where
  | any
  | number
  | integer
  | boolean
  | procedure
  | dictionary
deriving DecidableEq

namespace Operand

abbrev Content : Operand → Type
  | .any => Value
  | .number => Number
  | .integer => Int64
  | .boolean => Bool
  | .procedure => ProcedureId
  | .dictionary => DictionaryId

def read : (o : Operand) → Value → Except Expected o.Content
  | .any, v => .ok v
  | .number, .number n => .ok n
  | .number, _ => .error .number
  | .integer, .number (.int n) => .ok n
  | .integer, _ => .error (.kind .integer)
  | .boolean, .bool b => .ok b
  | .boolean, _ => .error (.kind .boolean)
  | .procedure, .procedure p => .ok p
  | .procedure, _ => .error (.kind .procedure)
  | .dictionary, .dictionary d => .ok d
  | .dictionary, _ => .error (.kind .dictionary)

end Operand

abbrev Operands : List Operand → Type
  | [] => Unit
  | o :: os => o.Content × Operands os

/-- Takes operands off a stack, the top one first. Whether it succeeds or not, what is left of the
stack is returned. -/
def Operands.take (operator : String) :
    (os : List Operand) → Stack → Except RuntimeError (Operands os) × Stack
  | [], s => (.ok (), s)
  | _ :: _, [] => (.error (.stackUnderflow operator), [])
  | o :: os, v :: s =>
      match o.read v with
      | .error expected => (.error (.typeMismatch operator expected v.kind), s)
      | .ok x =>
          match take operator os s with
          | (.ok xs, rest) => (.ok (x, xs), rest)
          | (.error e, rest) => (.error e, rest)

end Stacklet

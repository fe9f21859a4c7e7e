import Stacklet.Kind
import Stacklet.Token

set_option autoImplicit false
set_option relaxedAutoImplicit false

/-!
Values: what programs work on. Procedures and dictionaries are shared objects, and a value holds
only the identity of one.
-/

namespace Stacklet

structure ProcedureId where
  index : Nat
deriving DecidableEq, Repr

structure DictionaryId where
  index : Nat
deriving DecidableEq, Repr

inductive Value where
  | number (n : Number)
  | bool (b : Bool)
  | text (s : String)
  | name (word : String)
  | procedure (p : ProcedureId)
  | dictionary (d : DictionaryId)
deriving DecidableEq

namespace Value

abbrev int (n : Int64) : Value := .number (.int n)

abbrev real (x : Float) : Value := .number (.real x)

def kind : Value → Kind
  | .number (.int _) => .integer
  | .number (.real _) => .real
  | .bool _ => .boolean
  | .text _ => .text
  | .name _ => .name
  | .procedure _ => .procedure
  | .dictionary _ => .dictionary

/-- The key that a text or a name stands for; a definition sign in front is dropped. -/
def key? : Value → Option String
  | .text s => some (Token.stripSign s)
  | .name word => some (Token.stripSign word)
  | _ => none

end Value

/-- A value that can be a procedure still to be made. -/
inductive Datum where
  | value (v : Value)
  | procedure (body : List Token)

def Token.datum : Token → Datum
  | .number n => .value (.number n)
  | .bool b => .value (.bool b)
  | .text s => .value (.text s)
  | .name word => .value (.name word)
  | .define word => .value (.name ("/" ++ word))
  | .inline body => .procedure body
  | .procedure body => .procedure body

end Stacklet

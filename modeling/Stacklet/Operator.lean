import Stacklet.Number.Arithmetic

set_option autoImplicit false
set_option relaxedAutoImplicit false

/-!
The operators of the language and their names. Some operators have several names; messages call an
operator by its `label`.
-/

namespace Stacklet

inductive Relation where
  | lt
  | le
  | gt
  | ge
deriving DecidableEq

namespace Relation

def label : Relation → String
  | .lt => "lt"
  | .le => "le"
  | .gt => "gt"
  | .ge => "ge"

def holds : Relation → Option Ordering → Bool
  | .lt, o => o == some .lt
  | .le, o => o == some .lt || o == some .eq
  | .gt, o => o == some .gt
  | .ge, o => o == some .gt || o == some .eq

end Relation

inductive Operator where
  | arithmetic (f : Arithmetic)
  | transform (f : Transform)
  | equal
  | notEqual
  | relation (r : Relation)
  | conjunction
  | disjunction
  | negation
  | constant (b : Bool)
  | duplicate
  | exchange
  | discard
  | clear
  | count
  | copy
  | makeDictionary
  | enterScope
  | leaveScope
  | define
  | length
  | maxLength
  | element
  | interval
  | overwrite
  /-- Runs one of two procedures; it has a short and a long name. -/
  | choose (long : Bool)
  | forRange
  | times
  | quit
  | print
deriving DecidableEq

namespace Operator

def label : Operator → String
  | .arithmetic f => f.label
  | .transform f => f.label
  | .equal => "eq"
  | .notEqual => "ne"
  | .relation r => r.label
  | .conjunction => "and"
  | .disjunction => "or"
  | .negation => "not"
  | .constant b => if b then "true" else "false"
  | .duplicate => "dup"
  | .exchange => "exch"
  | .discard => "pop"
  | .clear => "clear"
  | .count => "count"
  | .copy => "copy"
  | .makeDictionary => "dict"
  | .enterScope => "begin"
  | .leaveScope => "end"
  | .define => "def"
  | .length => "length"
  | .maxLength => "maxlength"
  | .element => "get"
  | .interval => "getinterval"
  | .overwrite => "putinterval"
  | .choose long => if long then "ifelse" else "if"
  | .forRange => "for"
  | .times => "repeat"
  | .quit => "quit"
  | .print => "print"

def table : List (String × Operator) :=
  [("abs", .transform .abs), ("add", .arithmetic .add), ("and", .conjunction),
   ("begin", .enterScope), ("ceiling", .transform .ceiling), ("clear", .clear), ("copy", .copy),
   ("count", .count), ("def", .define), ("dict", .makeDictionary), ("div", .arithmetic .div),
   ("double_equal", .equal), ("dup", .duplicate), ("end", .leaveScope), ("eq", .equal),
   ("equal", .equal), ("exch", .exchange), ("false", .constant false),
   ("floor", .transform .floor), ("for", .forRange), ("ge", .relation .ge), ("get", .element),
   ("getinterval", .interval), ("gt", .relation .gt), ("idiv", .arithmetic .idiv),
   ("if", .choose false), ("ifelse", .choose true), ("le", .relation .le), ("length", .length),
   ("lt", .relation .lt), ("maxlength", .maxLength), ("mod", .arithmetic .mod),
   ("mul", .arithmetic .mul), ("ne", .notEqual), ("neg", .transform .neg), ("not", .negation),
   ("or", .disjunction), ("pop", .discard), ("print", .print), ("putinterval", .overwrite),
   ("quit", .quit), ("repeat", .times), ("round", .transform .round), ("sqrt", .transform .sqrt),
   ("sub", .arithmetic .sub), ("true", .constant true)]

def names : List String := table.map Prod.fst

def ofName? (name : String) : Option Operator := table.lookup name

end Operator

end Stacklet

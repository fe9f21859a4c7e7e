set_option autoImplicit false
set_option relaxedAutoImplicit false

/-!
The kinds of values, and what an operator can ask of a value's kind.
-/

namespace Stacklet

inductive Kind where
  | integer
  | real
  | boolean
  | text
  | name
  | procedure
  | dictionary
deriving DecidableEq

def Kind.label : Kind → String
  | .integer => "integer"
  | .real => "real"
  | .boolean => "boolean"
  | .text => "text"
  | .name => "name"
  | .procedure => "procedure"
  | .dictionary => "dictionary"

inductive Expected where
  | kind (k : Kind)
  | number
  | numberOrText
  | sequence
  | collection
  | key
deriving DecidableEq

def Expected.label : Expected → String
  | .kind k => k.label
  | .number => "number"
  | .numberOrText => "number or text"
  | .sequence => "text or procedure"
  | .collection => "text, procedure or dictionary"
  | .key => "text or name key"

end Stacklet

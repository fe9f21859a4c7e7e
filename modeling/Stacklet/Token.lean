import Stacklet.Number

set_option autoImplicit false
set_option relaxedAutoImplicit false

/-!
Tokens: programs as trees. A program is a list of tokens, and the body of a bracket is one again.
-/

namespace Stacklet

inductive Token where
  | number (n : Number)
  | bool (b : Bool)
  | text (s : String)
  /-- An operator, something defined, or else a text. -/
  | name (word : String)
  | define (word : String)
  /-- Tokens in square brackets, which run where they stand. -/
  | inline (body : List Token)
  /-- Tokens in braces, which become a procedure. -/
  | procedure (body : List Token)

namespace Token

instance : Inhabited Token := ⟨.bool false⟩

def stripSign (word : String) : String :=
  match word.toList with
  | '/' :: cs => String.ofList cs
  | _ => word

def ofWord (word : String) : Token :=
  match word.toList with
  | '/' :: cs => .define (String.ofList cs)
  | _ => .name word

mutual

def display : Token → String
  | .number n => n.display
  | .bool b => if b then "true" else "false"
  | .text s => "(" ++ s ++ ")"
  | .name word => word
  | .define word => "/" ++ word
  | .inline body => "[" ++ " ".intercalate (displays body) ++ "]"
  | .procedure body => "\x7b" ++ " ".intercalate (displays body) ++ "\x7d"

def displays : List Token → List String
  | [] => []
  | t :: ts => t.display :: displays ts

end

mutual

def same : Token → Token → Bool
  | .number m, .number n => m.same n
  | .bool b, .bool c => b == c
  | .text s, .text t => s == t
  | .name v, .name w => v == w
  | .define v, .define w => v == w
  | .inline ts, .inline us => sameAll ts us
  | .procedure ts, .procedure us => sameAll ts us
  | _, _ => false

def sameAll : List Token → List Token → Bool
  | [], [] => true
  | t :: ts, u :: us => t.same u && sameAll ts us
  | _, _ => false

end

end Token

end Stacklet

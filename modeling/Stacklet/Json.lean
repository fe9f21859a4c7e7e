import Stacklet.Decimal.Layout
import Stacklet.Text.Quoted

set_option autoImplicit false
set_option relaxedAutoImplicit false

/-!
The data in which programs are exchanged, and its two written forms: on one line, and with one
item a line.
-/

namespace Stacklet

inductive Json where
  | int (n : Int64)
  | real (x : Float)
  | bool (b : Bool)
  | string (s : String)
  | array (items : List Json)
  /-- An object with the one field `tag`. -/
  | tagged (tag : String) (content : Json)

namespace Json

/-- How a character stands in a string: the quote, the backslash and the controls are escaped. -/
def escapedChar (c : Char) : String :=
  if c = '"' then "\\\""
  else if c = '\\' then "\\\\"
  else if c = '\x08' then "\\b"
  else if c = '\t' then "\\t"
  else if c = '\n' then "\\n"
  else if c = '\x0c' then "\\f"
  else if c = '\r' then "\\r"
  else if c.toNat < 32 then (if c.toNat < 16 then "\\u000" else "\\u00") ++ Text.hex c.toNat
  else String.singleton c

def stringText (s : String) : String :=
  "\"" ++ String.join (s.toList.map escapedChar) ++ "\""

mutual

def compact : Json → String
  | .int n => toString n.toInt
  | .real x => Decimal.exchange.text x
  | .bool b => if b then "true" else "false"
  | .string s => stringText s
  | .array items => "[" ++ ",".intercalate (compacts items) ++ "]"
  | .tagged tag content => "\x7b" ++ stringText tag ++ ":" ++ content.compact ++ "\x7d"

def compacts : List Json → List String
  | [] => []
  | j :: js => j.compact :: compacts js

end

def lineBreak (depth : Nat) : String :=
  String.ofList ('\n' :: List.replicate (2 * depth) ' ')

mutual

/-- The parts of the form with one item a line, for data that starts at `depth`. -/
def prettyParts (depth : Nat) : Json → List String
  | .int n => [toString n.toInt]
  | .real x => [Decimal.exchange.text x]
  | .bool b => [if b then "true" else "false"]
  | .string s => [stringText s]
  | .array [] => ["[]"]
  | .array (j :: js) =>
      "[" :: lineBreak (depth + 1) :: (j.prettyParts (depth + 1)
        ++ (prettyRest (depth + 1) js ++ [lineBreak depth, "]"]))
  | .tagged tag content =>
      "\x7b" :: lineBreak (depth + 1) :: stringText tag :: ": "
        :: (content.prettyParts (depth + 1) ++ [lineBreak depth, "\x7d"])

def prettyRest (depth : Nat) : List Json → List String
  | [] => []
  | j :: js => "," :: lineBreak depth :: (j.prettyParts depth ++ prettyRest depth js)

end

def pretty (j : Json) : String := String.join (j.prettyParts 0)

end Json

end Stacklet

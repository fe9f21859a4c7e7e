import Stacklet.Text.Graphic

set_option autoImplicit false
set_option relaxedAutoImplicit false

/-!
Quotations: a text between double quotes, in which every character that could be misread or not
be seen is written as an escape.
-/

namespace Stacklet.Text

def hex (n : Nat) : String :=
  String.ofList (Nat.toDigits 16 n)

def quotedChar (c : Char) : String :=
  if c = '\x00' then "\\0"
  else if c = '\t' then "\\t"
  else if c = '\r' then "\\r"
  else if c = '\n' then "\\n"
  else if c = '"' then "\\\""
  else if c = '\\' then "\\\\"
  else if isGraphic c then String.singleton c
  else "\\u\x7b" ++ hex c.toNat ++ "\x7d"

def quoted (s : String) : String :=
  "\"" ++ String.join (s.toList.map quotedChar) ++ "\""

end Stacklet.Text

import Stacklet.Decimal.Layout
import Stacklet.Text.Quoted

set_option autoImplicit false
set_option relaxedAutoImplicit false

/-!
Lexemes: the words of the surface syntax.
-/

namespace Stacklet

inductive Lexeme where
  | openBrace
  | closeBrace
  | openBracket
  | closeBracket
  | real (x : Float)
  | int (n : Int64)
  | text (s : String)
  /-- A name with the definition sign in front, which is not part of `word`. -/
  | define (word : String)
  | name (word : String)
deriving DecidableEq

namespace Lexeme

def display : Lexeme → String
  | .openBrace => "\x7b"
  | .closeBrace => "\x7d"
  | .openBracket => "["
  | .closeBracket => "]"
  | .real x => Decimal.plain.text x
  | .int n => toString n.toInt
  | .text s => Text.quoted s
  | .define word => "/" ++ word
  | .name word => word

def describe : Lexeme → String
  | .openBrace => "LBrace"
  | .closeBrace => "RBrace"
  | .openBracket => "LBracket"
  | .closeBracket => "RBracket"
  | .real x => "RealLit(" ++ Decimal.marked.text x ++ ")"
  | .int n => "IntLit(" ++ toString n.toInt ++ ")"
  | .text s => "TextLit(" ++ Text.quoted s ++ ")"
  | .define word => "DefName(" ++ Text.quoted word ++ ")"
  | .name word => "Ident(" ++ Text.quoted word ++ ")"

end Lexeme

end Stacklet

import Stacklet.Lexeme.Scanner
import Stacklet.Token

set_option autoImplicit false
set_option relaxedAutoImplicit false

/-!
The structure of a program: brackets of two kinds that match, at most `nestingLimit` of them open
at a time. Too deep a nesting is reported before anything else; otherwise the first lexeme that
cannot stand where it does.
-/

namespace Stacklet.Token

inductive Bracket where
  | brace
  | square
deriving DecidableEq

def nestingLimit : Nat := 1000

/-- The place of the first bracket that opens a level above `nestingLimit`, with `depth` levels
open at the start. A closing bracket without an opening one does not count. -/
def overNested? (depth : Nat) : List (Lexeme × Span) → Option Span
  | [] => none
  | (lexeme, span) :: rest =>
      match lexeme with
      | .openBrace | .openBracket =>
          if nestingLimit < depth + 1 then some span else overNested? (depth + 1) rest
      | .closeBrace | .closeBracket => overNested? (depth - 1) rest
      | _ => overNested? depth rest

def expectedIn : Option Bracket → List LexemeClass
  | none => [.openBrace, .openBracket, .real, .int, .text, .define, .name]
  | some .brace => [.openBrace, .closeBrace, .openBracket, .real, .int, .text, .define, .name]
  | some .square => [.openBrace, .openBracket, .closeBracket, .real, .int, .text, .define, .name]

/-- An open bracket and the tokens that stand before it on its level, the last one first. -/
structure Level where
  bracket : Bracket
  before : List Token

def innermost (levels : List Level) : Option Bracket := levels.head?.map Level.bracket

/-- Reads on with the brackets `levels` open, innermost first. The tokens of the innermost level
so far are `items`, the last one first, and the lexeme before ends at `stop`. -/
def readFrom (levels : List Level) (items : List Token) (stop : Nat) :
    List (Lexeme × Span) → Except SourceError (List Token)
  | [] =>
      match levels with
      | [] => .ok items.reverse
      | level :: _ => .error ⟨.unexpectedEnd (expectedIn (some level.bracket)), Span.point stop⟩
  | (lexeme, span) :: rest =>
      match lexeme with
      | .openBrace => readFrom (⟨.brace, items⟩ :: levels) [] span.stop rest
      | .openBracket => readFrom (⟨.square, items⟩ :: levels) [] span.stop rest
      | .closeBrace =>
          match levels with
          | ⟨.brace, before⟩ :: outer =>
              readFrom outer (.procedure items.reverse :: before) span.stop rest
          | _ => .error ⟨.unexpectedLexeme lexeme (expectedIn (innermost levels)), span⟩
      | .closeBracket =>
          match levels with
          | ⟨.square, before⟩ :: outer =>
              readFrom outer (.inline items.reverse :: before) span.stop rest
          | _ => .error ⟨.unexpectedLexeme lexeme (expectedIn (innermost levels)), span⟩
      | .real x => readFrom levels (.number (.real x) :: items) span.stop rest
      | .int n => readFrom levels (.number (.int n) :: items) span.stop rest
      | .text s => readFrom levels (.text s :: items) span.stop rest
      | .define word => readFrom levels (.define word :: items) span.stop rest
      | .name word => readFrom levels (.name word :: items) span.stop rest

def ofLexemes (lexemes : List (Lexeme × Span)) : Except SourceError (List Token) :=
  match overNested? 0 lexemes with
  | some span => .error ⟨.nestingExceeded nestingLimit, span⟩
  | none => readFrom [] [] 0 lexemes

def ofSource (source : String) : Except SourceError (List Token) := do
  ofLexemes (← Lexeme.scan source)

end Stacklet.Token

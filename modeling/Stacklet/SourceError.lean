import Stacklet.Lexeme
import Stacklet.Span

set_option autoImplicit false
set_option relaxedAutoImplicit false

/-!
Errors in a source: what is wrong, where, and what could have stood there instead.
-/

namespace Stacklet

inductive Stage where
  | lexer
  | parser
deriving DecidableEq

namespace Stage

def name : Stage → String
  | .lexer => "Lexer"
  | .parser => "Parser"

def describe (stage : Stage) (span : Span) (message : String) : String :=
  stage.name ++ " error at " ++ span.render ++ ": " ++ message

end Stage

inductive LexemeClass where
  | openBrace
  | closeBrace
  | openBracket
  | closeBracket
  | real
  | int
  | text
  | define
  | name
deriving DecidableEq

def Lexeme.category : Lexeme → LexemeClass
  | .openBrace => .openBrace
  | .closeBrace => .closeBrace
  | .openBracket => .openBracket
  | .closeBracket => .closeBracket
  | .real _ => .real
  | .int _ => .int
  | .text _ => .text
  | .define _ => .define
  | .name _ => .name

def LexemeClass.label : LexemeClass → String
  | .openBrace => "\"\x7b\""
  | .closeBrace => "\"\x7d\""
  | .openBracket => "\"[\""
  | .closeBracket => "\"]\""
  | .real => "real"
  | .int => "int"
  | .text => "text"
  | .define => "defname"
  | .name => "ident"

inductive SourceFault where
  | unexpectedInput (slice : String)
  | integerOutOfRange (slice : String)
  | nestingExceeded (limit : Nat)
  | unexpectedLexeme (lexeme : Lexeme) (expected : List LexemeClass)
  | unexpectedEnd (expected : List LexemeClass)
deriving DecidableEq

def SourceFault.stage : SourceFault → Stage
  | .unexpectedInput _ => .lexer
  | .integerOutOfRange _ => .lexer
  | .nestingExceeded _ => .parser
  | .unexpectedLexeme _ _ => .parser
  | .unexpectedEnd _ => .parser

structure SourceError where
  fault : SourceFault
  span : Span
deriving DecidableEq

namespace SourceError

def alternatives : List String → String
  | [] => ""
  | [a] => a
  | [a, b] => a ++ " or " ++ b
  | a :: rest => a ++ ", " ++ alternatives rest

def expectation (expected : List LexemeClass) : String :=
  "Expected one of " ++ alternatives (expected.map LexemeClass.label)

def message (e : SourceError) : String :=
  match e.fault with
  | .unexpectedInput slice => "unexpected input: " ++ Text.quoted slice
  | .integerOutOfRange slice => "integer literal out of range: " ++ slice
  | .nestingExceeded limit => "procedure nesting exceeds " ++ toString limit ++ " levels"
  | .unexpectedLexeme lexeme expected =>
      "Unrecognized token `" ++ lexeme.display ++ "` found at " ++ toString e.span.start ++ ":"
        ++ toString e.span.stop ++ "\n" ++ expectation expected
  | .unexpectedEnd expected =>
      "Unrecognized EOF found at " ++ toString e.span.start ++ "\n" ++ expectation expected

def stage (e : SourceError) : Stage := e.fault.stage

def display (e : SourceError) : String := e.stage.describe e.span e.message

end SourceError

end Stacklet

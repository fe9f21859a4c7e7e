import Stacklet.Lexeme.Numeral
import Stacklet.Number
import Stacklet.SourceError

set_option autoImplicit false
set_option relaxedAutoImplicit false

/-!
The scanner cuts a source into lexemes. At each place it takes the longest piece: a gap (white
space or a comment), a lexeme, or characters with which no lexeme starts. A run of name characters
that is a numeral from end to end is a number, any other a name.
-/

namespace Stacklet.Lexeme

def isBlank (c : Char) : Bool :=
  c == ' ' || c == '\t' || c == '\n' || c == '\r' || c == '\x0c'

def isNameStart (c : Char) : Bool :=
  c.isAlpha || c == '_' || c == '+' || c == '-' || c == '*' || c == '.' || c == '?' || c == '!'
    || c == '=' || c == '<' || c == '>'

def isNameChar (c : Char) : Bool := isNameStart c || c.isDigit

inductive Delimiter where
  | quote
  | paren
deriving DecidableEq

namespace Delimiter

def closing : Delimiter → Char
  | .quote => '"'
  | .paren => ')'

def isPlain : Delimiter → Char → Bool
  | .quote, c => c != '"' && c != '\\'
  | .paren, c => c != '(' && c != ')' && c != '\\'

/-- The longest run of plain characters and escapes. An escape is a backslash and any character
but a newline. -/
def body (d : Delimiter) : List Char → List Char
  | [] => []
  | '\\' :: c :: cs => if c = '\n' then [] else '\\' :: c :: body d cs
  | c :: cs => if d.isPlain c then c :: body d cs else []

end Delimiter

def escaped? : Char → Option Char
  | 'n' => some '\n'
  | 't' => some '\t'
  | 'r' => some '\r'
  | '\\' => some '\\'
  | '"' => some '"'
  | '(' => some '('
  | ')' => some ')'
  | _ => none

/-- The text that a body stands for. A backslash before any other character stays. -/
def unescape : List Char → List Char
  | [] => []
  | '\\' :: c :: cs =>
      match escaped? c with
      | some d => d :: unescape cs
      | none => '\\' :: c :: unescape cs
  | c :: cs => c :: unescape cs

inductive Piece where
  | gap (length : Nat)
  | lexeme (lexeme : Lexeme) (length : Nat)
  | tooLarge (length : Nat)
  | unexpected (length : Nat)
deriving DecidableEq

namespace Piece

def length : Piece → Nat
  | .gap n => n
  | .lexeme _ n => n
  | .tooLarge n => n
  | .unexpected n => n

def ofNumeral (n : Numeral) : Piece :=
  if n.isReal then .lexeme (.real n.realValue) n.length
  else
    match Number.narrow? n.intValue with
    | some k => .lexeme (.int k) n.length
    | none => .tooLarge n.length

/-- A text after its opening delimiter. Without the closing one the characters read are not
expected. -/
def ofText (d : Delimiter) (cs : List Char) : Piece :=
  let inner := d.body cs
  match cs.drop inner.length with
  | c :: _ =>
      if c = d.closing then .lexeme (.text (String.ofList (unescape inner))) (inner.length + 2)
      else .unexpected (inner.length + 1)
  | [] => .unexpected (inner.length + 1)

def ofDefinition (cs : List Char) : Piece :=
  match cs.takeWhile isNameChar with
  | [] => .unexpected 1
  | c :: run =>
      if isNameStart c then .lexeme (.define (String.ofList (c :: run))) (run.length + 2)
      else .unexpected 1

/-- A run of name characters that starts like a name: a numeral if it is one from end to end. -/
def ofRun (run : List Char) : Piece :=
  match Numeral.read? run with
  | some n =>
      if n.length = run.length then ofNumeral n
      else .lexeme (.name (String.ofList run)) run.length
  | none => .lexeme (.name (String.ofList run)) run.length

def next (c : Char) (cs : List Char) : Piece :=
  if isBlank c then .gap ((cs.takeWhile isBlank).length + 1)
  else if c = '%' then .gap ((cs.takeWhile (· != '\n')).length + 1)
  else if c = '\x7b' then .lexeme .openBrace 1
  else if c = '\x7d' then .lexeme .closeBrace 1
  else if c = '[' then .lexeme .openBracket 1
  else if c = ']' then .lexeme .closeBracket 1
  else if c = '"' then ofText .quote cs
  else if c = '(' then ofText .paren cs
  else if c = '/' then ofDefinition cs
  else if c.isDigit then
    match Numeral.read? (c :: cs) with
    | some n => ofNumeral n
    | none => .unexpected 1
  else if isNameStart c then ofRun (c :: cs.takeWhile isNameChar)
  else .unexpected 1

end Piece

def byteLength (cs : List Char) : Nat := cs.foldr (fun c n => c.utf8Size + n) 0

/-- The bytes of the first `n` characters of a source that go on from `offset`. -/
def spanOf (offset n : Nat) (cs : List Char) : Span :=
  ⟨offset, offset + byteLength (cs.take n)⟩

/-- Scans the rest of a source from byte `offset` on. The first `pending` characters belong to the
piece before; `found` holds the lexemes so far, the last one first. -/
def scanFrom (found : List (Lexeme × Span)) (offset : Nat) :
    (pending : Nat) → List Char → Except SourceError (List (Lexeme × Span))
  | _, [] => .ok found.reverse
  | pending + 1, c :: cs => scanFrom found (offset + c.utf8Size) pending cs
  | 0, c :: cs =>
      match Piece.next c cs with
      | .gap n => scanFrom found (offset + c.utf8Size) (n - 1) cs
      | .lexeme l n =>
          scanFrom ((l, spanOf offset n (c :: cs)) :: found) (offset + c.utf8Size) (n - 1) cs
      | .tooLarge n =>
          .error ⟨.integerOutOfRange (String.ofList ((c :: cs).take n)), spanOf offset n (c :: cs)⟩
      | .unexpected n =>
          .error ⟨.unexpectedInput (String.ofList ((c :: cs).take n)), spanOf offset n (c :: cs)⟩

def scan (source : String) : Except SourceError (List (Lexeme × Span)) :=
  scanFrom [] 0 0 source.toList

end Stacklet.Lexeme

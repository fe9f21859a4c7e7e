import Stacklet.Lexeme.Scanner
import Stacklet.Text.Cluster

set_option autoImplicit false
set_option relaxedAutoImplicit false

/-!
The lines of an input that is not typed at a terminal.
-/

namespace Stacklet.Session

open Lexeme (byteLength)

def dropBytes (count : Nat) : List Char → List Char
  | [] => []
  | c :: cs => if c.utf8Size ≤ count then dropBytes (count - c.utf8Size) cs else c :: cs

/-- Carries out the backspaces of a line that is cut into clusters: each one removes the bytes of
the last cluster not yet removed. `kept` holds what is left so far, the last character first, and
`lengths` the lengths of its clusters. A length is kept in one byte, so a cluster of 256 bytes or
more loses only what its length exceeds a multiple of 256 by. -/
def rubOut (kept : List Char) (lengths : List UInt8) : List (List Char) → List Char
  | [] => kept.reverse
  | cluster :: rest =>
      if cluster = ['\x08'] then
        match lengths with
        | [] => rubOut kept [] rest
        | length :: lengths => rubOut (dropBytes length.toNat kept) lengths rest
      else rubOut (cluster.reverse ++ kept) (UInt8.ofNat (byteLength cluster) :: lengths) rest

def dropLineEnd (line : List Char) : List Char :=
  match line.reverse with
  | '\n' :: '\r' :: rest => rest.reverse
  | '\n' :: rest => rest.reverse
  | _ => line

def cleanLine (line : String) : String :=
  String.ofList (rubOut [] [] (Text.clusters (dropLineEnd line.toList)))

/-- Cuts an input after each newline; `line` holds, last character first, the line being read. -/
def splitLines (line : List Char) : List Char → List (List Char)
  | [] => if line.isEmpty then [] else [line.reverse]
  | c :: cs =>
      if c = '\n' then (c :: line).reverse :: splitLines [] cs else splitLines (c :: line) cs

def linesOf (input : String) : List String :=
  (splitLines [] input.toList).map fun line => cleanLine (String.ofList line)

end Stacklet.Session

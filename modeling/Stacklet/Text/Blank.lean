set_option autoImplicit false
set_option relaxedAutoImplicit false

/-!
White space of any script, and the two things done with it: trimming a line and cutting it into
words.
-/

namespace Stacklet.Text

def isWhite (c : Char) : Bool :=
  let n := c.toNat
  (9 ≤ n && n ≤ 13) || n == 0x20 || n == 0x85 || n == 0xa0 || n == 0x1680
    || (0x2000 ≤ n && n ≤ 0x200a) || n == 0x2028 || n == 0x2029 || n == 0x202f || n == 0x205f
    || n == 0x3000

def trim (cs : List Char) : List Char :=
  ((cs.dropWhile isWhite).reverse.dropWhile isWhite).reverse

def wordsFrom (word : List Char) : List Char → List (List Char)
  | [] => if word.isEmpty then [] else [word.reverse]
  | c :: cs =>
      if isWhite c then
        if word.isEmpty then wordsFrom [] cs else word.reverse :: wordsFrom [] cs
      else wordsFrom (c :: word) cs

def words (cs : List Char) : List (List Char) :=
  wordsFrom [] cs

example : words " a  bc ".toList = ["a".toList, "bc".toList] := by decide

end Stacklet.Text

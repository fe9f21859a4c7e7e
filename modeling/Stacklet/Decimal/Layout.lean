import Stacklet.Decimal.Shortest

set_option autoImplicit false
set_option relaxedAutoImplicit false

/-!
How a double is laid out as text: with the point in its place or with a power of ten. A layout is
a record of decisions; the digits are the same for all of them.
-/

namespace Stacklet.Decimal

open Stacklet.Binary64 (Scaled content)

structure Layout where
  /-- Whether a number `0.d₁d₂… * 10 ^ point` is written without a power of ten. -/
  positional : Int → Bool
  /-- Whether a whole number written without a power of ten ends in a point and a zero. -/
  marksWhole : Bool
  signsPower : Bool
  tie : Tie
  infinite : Bool → String
  nan : String

def zeros (n : Nat) : String := String.ofList (List.replicate n '0')

def positionalText (marksWhole : Bool) (digits : List Char) (point : Int) : String :=
  let count : Int := digits.length
  if point ≤ 0 then "0." ++ zeros (-point).toNat ++ String.ofList digits
  else if count ≤ point then
    String.ofList digits ++ zeros (point - count).toNat ++ (if marksWhole then ".0" else "")
  else
    String.ofList (digits.take point.toNat) ++ "." ++ String.ofList (digits.drop point.toNat)

def scientificText (signsPower : Bool) (digits : List Char) (point : Int) : String :=
  let power := point - 1
  let sign := if signsPower && 0 ≤ power then "+" else ""
  let mantissa :=
    match digits with
    | first :: second :: rest => String.ofList (first :: '.' :: second :: rest)
    | short => String.ofList short
  mantissa ++ "e" ++ sign ++ toString power

def finiteText (layout : Layout) (d : Scaled) : String :=
  let sign := if d.negative then "-" else ""
  if d.significand = 0 then sign ++ (if layout.marksWhole then "0.0" else "0")
  else
    let short := shortest layout.tie d
    let digits := Nat.toDigits 10 short.coefficient
    let point := digits.length + short.exponent
    if layout.positional point then sign ++ positionalText layout.marksWhole digits point
    else sign ++ scientificText layout.signsPower digits point

def Layout.text (layout : Layout) (x : Float) : String :=
  match content x with
  | .nan => layout.nan
  | .infinite negative => layout.infinite negative
  | .finite d => finiteText layout d

def infinityWord (negative : Bool) : String := if negative then "-inf" else "inf"

def plain : Layout where
  positional _ := true
  marksWhole := false
  signsPower := false
  tie := .up
  infinite := infinityWord
  nan := "NaN"

/-- The notation that shows a number to be a real one: a whole number has a point, and from
`10 ^ 16` up and below `10 ^ -4` a power of ten is written. -/
def marked : Layout where
  positional point := -4 < point && point ≤ 16
  marksWhole := true
  signsPower := false
  tie := .up
  infinite := infinityWord
  nan := "NaN"

/-- The notation of data files: the power of ten has a sign, and what is not a finite number is
left out. -/
def exchange : Layout where
  positional point := -5 < point && point ≤ 16
  marksWhole := true
  signsPower := true
  tie := .toEven
  infinite _ := "null"
  nan := "null"

def wholeText (d : Scaled) : String :=
  (if d.negative then "-" else "") ++ toString d.floor.natAbs ++ ".0"

/-- The text of a double for people: a whole number with all its digits and one decimal place,
any other in the plain notation. -/
def displayText (x : Float) : String :=
  match content x with
  | .finite d => if d.isWhole then wholeText d else finiteText plain d
  | _ => plain.text x

end Stacklet.Decimal

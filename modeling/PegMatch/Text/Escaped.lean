import PegMatch.Text.Numeral
import PegMatch.Text.Printable
import PegMatch.RuneSet

set_option autoImplicit false

namespace PegMatch.Text

/-- How a code point is written where the code points of `special` have a meaning of their own.
What cannot be shown is written by its number, unless that has more than four digits. -/
def escapedRune (special : Text) (c : Nat) : Text :=
  if c = '\\' ∨ c ∈ special then ['\\', c]
  else if c = '\n' then ['\\', 'n']
  else if c = '\r' then ['\\', 'r']
  else if c = '\t' then ['\\', 't']
  else if Rune.isPrintable c then [c]
  else if c ≤ 0xff then '\\' :: 'x' :: hexNumeral 2 c
  else if c ≤ 0xffff then '\\' :: 'u' :: hexNumeral 4 c
  else [c]

def asLiteral (t : Text) : Text :=
  '\''.toNat :: t.flatMap (escapedRune ['\'']) ++ ['\''.toNat]

def classRune (c : Nat) : Text :=
  escapedRune [']', '^', '-'] c

def classRun (r : Range) : Text :=
  if r.1 + 2 ≤ r.2 then classRune r.1 ++ '-'.toNat :: classRune r.2
  else (List.range' r.1 (r.2 + 1 - r.1)).flatMap classRune

def asClass (runs : List Range) (negated : Bool) : Text :=
  '['.toNat :: (if negated then ['^'.toNat] else []) ++ runs.flatMap classRun ++ [']'.toNat]

def runs : List Nat → List Range
  | [] => []
  | c :: cs =>
    match runs cs with
    | (a, b) :: rs => if a = c + 1 then (c, b) :: rs else (c, c) :: (a, b) :: rs
    | [] => [(c, c)]

/-- The class of the given code points, in rising order; one given twice is written twice. -/
def asClassOf (members : Text) (negated : Bool) : Text :=
  asClass (runs (members.mergeSort fun a b => decide (a ≤ b))) negated

end PegMatch.Text

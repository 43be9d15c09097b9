import PegMatch.Text.Numeral
import PegMatch.Text.Printable

set_option autoImplicit false

/-! Quoted texts as messages and outlines show them: between single quotes, or between double
quotes if the text holds single quotes and no double ones. -/

namespace PegMatch.Text

def quotedRune (mark c : Nat) : Text :=
  if c = '\\' ∨ c = mark then ['\\', c]
  else if c = '\n' then ['\\', 'n']
  else if c = '\r' then ['\\', 'r']
  else if c = '\t' then ['\\', 't']
  else if Rune.isPrintable c then [c]
  else if c ≤ 0xff then '\\' :: 'x' :: hexNumeral 2 c
  else if c ≤ 0xffff then '\\' :: 'u' :: hexNumeral 4 c
  else '\\' :: 'U' :: hexNumeral 8 c

def quoteMark (t : Text) : Nat :=
  if t.contains '\'' && !t.contains '"' then '"' else '\''

def quoted (t : Text) : Text :=
  let mark := quoteMark t
  mark :: t.flatMap (quotedRune mark) ++ [mark]

end PegMatch.Text

import PegMatch.Text.Digit
import PegMatch.Text.Quoted

set_option autoImplicit false

namespace PegMatch

inductive NumeralError where
  | tooLong (digits : Nat)
  /-- There is a digit that stands for no decimal place. -/
  | notDecimal (digits : Text)
  deriving Repr, DecidableEq

namespace Text

def mostDigits : Nat := 4300

def mostShown : Nat := 200

/-- The number that a run of digits stands for; all must be decimal. The decimal ones at the front
are counted before the others are looked at. -/
def decimal (digits : Text) : Except NumeralError Nat :=
  let front := digits.takeWhile Rune.isDecimal
  if mostDigits < front.length then .error (.tooLong front.length)
  else
    match digits.mapM Rune.decimalValue? with
    | some values => .ok (values.foldl (fun n d => 10 * n + d) 0)
    | none => .error (.notDecimal digits)

end Text

def NumeralError.message : NumeralError → String
  | .tooLong digits =>
    s!"Exceeds the limit ({Text.mostDigits} digits) for integer string conversion: " ++
      s!"value has {digits} digits; use sys.set_int_max_str_digits() to increase the limit"
  | .notDecimal digits =>
    s!"invalid literal for int() with base 10: " ++
      Text.string ((Text.quoted digits).take Text.mostShown)

end PegMatch

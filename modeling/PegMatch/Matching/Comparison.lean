import PegMatch.Fault
import PegMatch.Pattern.Basic
import PegMatch.Text.Blank
import PegMatch.Text.Folding
import PegMatch.Text.Letter
import PegMatch.Text.Lowercase
import PegMatch.Text.Titlecase
import PegMatch.Text.Uppercase

set_option autoImplicit false

/-! Comparison of a text, a character or a run of characters with the subject at a position. The
answer is the number of code points matched, or `none`. -/

namespace PegMatch

def Category.has : Category → Nat → Bool
  | .letter => Rune.isLetter
  | .lower => Rune.isLowercase
  | .upper => Rune.isUppercase
  | .title => Rune.isTitlecase
  | .white => Rune.isBlank

def Rune.agree (a b : Nat) : Bool :=
  a == b || lower a == lower b

namespace Subject

/-- The end of the run of code points that pass the test, which starts at `i` and has at most the
given length. -/
def runEnd (s : Subject) (test : Nat → Bool) : Nat → Int → Except Fault Int
  | 0, i => .ok i
  | room + 1, i =>
    match s.at? i with
    | none => .error (.ofPosition i)
    | some c => if test c then runEnd s test room (i + 1) else .ok i

def room (s : Subject) (i : Int) : Nat :=
  (s.size - i).toNat

def runLength (s : Subject) (test : Nat → Bool) (i : Int) : Except Fault Nat := do
  let j ← s.runEnd test (s.room i) i
  .ok (j - i).toNat

def one (s : Subject) (test : Nat → Bool) (i : Int) : Except Fault (Option Nat) :=
  if i < s.size then
    match s.at? i with
    | none => .error (.ofPosition i)
    | some c => .ok (if test c then some 1 else none)
  else .ok none

def lineBreak (s : Subject) (i : Int) : Except Fault (Option Nat) :=
  if s.startsWith ['\r', '\n'] i then .ok (some 2) else s.one (fun c => c == '\r' || c == '\n') i

def exactly (s : Subject) (i : Int) (t : Text) : Option Nat :=
  if s.startsWith t i then some t.length else none

def ignoringCase (s : Subject) (i : Int) (t : Text) : Option Nat :=
  let stop := i + t.length
  if s.size < stop then none
  else if (t.zip (s.slice i stop)).all fun p => Rune.agree p.1 p.2 then some t.length
  else none

/-- Skips underscores in the text and, before each other code point of it, in the subject. Returns
the position after the last code point compared. -/
def styleEnd (s : Subject) : Text → Int → Except Fault (Option Int)
  | [], j => .ok (some j)
  | a :: t, j =>
    if a = '_' then styleEnd s t j
    else do
      let j ← s.runEnd (· == '_'.toNat) (s.room j) j
      if s.size ≤ j then .ok none
      else
        match s.at? j with
        | none => .error (.ofPosition j)
        | some b => if Rune.agree a b then styleEnd s t (j + 1) else .ok none

def ignoringStyle (s : Subject) (i : Int) (t : Text) : Except Fault (Option Nat) := do
  .ok ((← s.styleEnd t i).map fun j => (j - i).toNat)

def compare (s : Subject) (how : Comparison) (i : Int) (t : Text) : Except Fault (Option Nat) :=
  match how with
  | .exact => .ok (s.exactly i t)
  | .ignoreCase => .ok (s.ignoringCase i t)
  | .ignoreStyle => s.ignoringStyle i t

end Subject

end PegMatch

import PegMatch.Captures
import PegMatch.Datum.Arithmetic
import PegMatch.Failure

set_option autoImplicit false

/-! Matches: where a pattern matched, and the spans of its captures. Group zero is the whole match,
the captures are counted from one. -/

namespace PegMatch

structure Match where
  subject : Subject
  start : Int
  stop : Int
  spans : List (Option Span)

namespace Match

def length (m : Match) : Int :=
  m.stop - m.start

/-- Start and end of a group that there is, or nothing if the capture took no part in the match. -/
def spanAt (m : Match) : (n : Nat) → n ≤ m.spans.length → Option (Int × Int)
  | 0, _ => some (m.start, m.stop)
  | n + 1, _ => m.spans[n].map fun s => (s.start, s.stop)

def groupAt (m : Match) (n : Nat) (h : n ≤ m.spans.length) : Option Text :=
  (m.spanAt n h).map fun s => m.subject.slice s.1 s.2

def span (m : Match) (n : Int) : Except Failure (Option (Int × Int)) :=
  if h : 0 ≤ n ∧ n.toNat ≤ m.spans.length then .ok (m.spanAt n.toNat h.2)
  else .error (.noSuchGroup (Text.signedNumeral n))

def group (m : Match) (n : Int) : Except Failure (Option Text) := do
  .ok ((← m.span n).map fun s => m.subject.slice s.1 s.2)

def groupNumber (m : Match) (d : Datum) : Except Failure Int := do
  let n ← (d.limit "<").mapError .misuse
  if n < 0 ∨ m.spans.length < n then .error (.noSuchGroup d.display) else .ok n

def text (m : Match) : Text :=
  m.subject.slice m.start m.stop

def groups (m : Match) : List (Option Text) :=
  m.spans.map fun s => s.map fun s => m.subject.slice s.start s.stop

def captures (m : Match) : List Text :=
  m.groups.map fun t => t.getD []

def display (m : Match) : Text :=
  Text.ofString s!"<Match {m.start}:{m.stop} " ++ Text.quoted m.text ++ ['>'.toNat]

end Match

end PegMatch

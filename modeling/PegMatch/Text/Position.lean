import PegMatch.Text.Basic

set_option autoImplicit false

namespace PegMatch

/-- A place in a text for a reader: lines and columns count from one. -/
structure Position where
  line : Nat
  column : Int
  deriving Repr, DecidableEq, Inhabited

namespace Text

def lastIndexOf? (c : Nat) : Text → Option Nat
  | [] => none
  | a :: t =>
    match lastIndexOf? c t with
    | some k => some (k + 1)
    | none => if a = c then some 0 else none

def lineFeedFrom? (t : Text) (k : Nat) : Option Nat :=
  ((t.drop k).idxOf? '\n'.toNat).map (k + ·)

theorem bounds_of_lineFeedFrom? {t : Text} {k n : Nat} (h : t.lineFeedFrom? k = some n) :
    k ≤ n ∧ n < t.length := by
  obtain ⟨m, hm, rfl⟩ := Option.map_eq_some_iff.1 h
  obtain ⟨hlt, -⟩ := List.idxOf?_eq_some_iff.1 hm
  rw [List.length_drop] at hlt
  omega

/-- Goes from one line feed to the next, from index `k` on, and counts each that stands before
`i`. -/
def lineFrom (t : Text) (i : Int) (line k : Nat) : Nat :=
  match h : t.lineFeedFrom? k with
  | some n =>
    if n < i then
      have := bounds_of_lineFeedFrom? h
      lineFrom t i (line + 1) (n + 1)
    else line
  | none => line
termination_by t.length - k

/-- The place of index `i`. An index past the end lies on the last line; a negative one lies on the
first line, and its column is measured from the last line feed before the code point it stands
for. -/
def position (t : Text) (i : Int) : Position where
  line := t.lineFrom i 1 0
  column :=
    match lastIndexOf? '\n' (t.take (Subject.cut t.length i)) with
    | some k => i - k
    | none => i + 1

/-- Carriage returns, with or without a line feed after them, become line feeds. -/
def unifyLines : Text → Text
  | '\r' :: '\n' :: t => '\n' :: unifyLines t
  | '\r' :: t => '\n' :: unifyLines t
  | c :: t => c :: unifyLines t
  | [] => []

def dropByteOrderMark : Text → Text
  | 0xfeff :: t => t
  | t => t

def condition (t : Text) : Text :=
  unifyLines (dropByteOrderMark t)

end Text

end PegMatch

import PegMatch.Match
import PegMatch.Matching.Engine
import PegMatch.Template

set_option autoImplicit false

/-! Finding, replacing and splitting. A probe is a pattern with its captures numbered, ready to be
tried on a subject. Finding nothing is no failure. -/

namespace PegMatch

structure Probe where
  subject : Subject
  pattern : Pattern
  store : Store
  /-- An empty table of the capacity in force. -/
  table : Captures
  /-- How many slots the pattern takes. -/
  count : Nat
  /-- How deep a match may nest. -/
  depth : Nat

namespace Probe

variable (p : Probe)

/-- A new attempt at a position: what it consumed, or `none` for a miss, and the table it leaves. -/
def tryAt (origin i : Int) : Except Fault (Option Nat × Captures) :=
  let scene : Matching.Scene := { subject := p.subject, store := p.store, origin := origin }
  match Matching.run scene p.table p.pattern i p.depth with
  | .hit n s => .ok (some n, s.table)
  | .miss s => .ok (none, s.table)
  | .fault f _ => .error f

def makeMatch (i length : Int) (table : Captures) : Except Fault Match := do
  let spans ← (List.range p.count).mapM fun k : Nat => table.span k
  .ok { subject := p.subject, start := i, stop := i + length, spans := spans }

def matchLength (i : Int) : Except Fault (Option Nat) := do
  .ok (← p.tryAt i i).1

def matchAt (i : Int) : Except Fault (Option Match) := do
  match ← p.tryAt i i with
  | (some n, table) => .ok (some (← p.makeMatch i n table))
  | (none, _) => .ok none

/-- Matches if the length, which is -1 for a miss, is that of the rest of the subject. -/
def fullMatch (i : Int) : Except Fault (Option Match) := do
  let (n, table) ← p.tryAt i i
  let length : Int := n.elim (-1) Int.ofNat
  if length = p.subject.size - i then .ok (some (← p.makeMatch i length table)) else .ok none

/-- Matches up to the end of the subject or to the first fault. -/
inductive Matches where
  | done
  | fault (f : Fault)
  | more (m : Match) (rest : Matches)

/-- The matches from position `i` on. After an empty match the scan moves on by one code point. At
most `room` attempts are made. -/
def matchesFrom (origin : Int) : Nat → Int → Matches
  | 0, _ => .done
  | room + 1, i =>
    if p.subject.size < i then .done
    else
      match p.tryAt origin i with
      | .error f => .fault f
      | .ok (none, _) => matchesFrom origin room (i + 1)
      | .ok (some n, table) =>
        match p.makeMatch i n table with
        | .error f => .fault f
        | .ok m => .more m (matchesFrom origin room (i + max n 1))

def matchesAll (start : Int) : Matches :=
  p.matchesFrom start (Matching.positions p.subject start) start

def Matches.toList : Matches → Except Fault (List Match)
  | .done => .ok []
  | .fault f => .error f
  | .more m rest => do .ok (m :: (← rest.toList))

def allMatches (start : Int) : Except Fault (List Match) :=
  (p.matchesAll start).toList

/-- The first position, of at most `room` from `i` on, at which an attempt passes the test, and that
attempt. -/
def firstFrom (test : Int → Option Nat → Bool) (origin : Int) :
    Nat → Int → Except Fault (Option (Int × Option Nat × Captures))
  | 0, _ => .ok none
  | room + 1, i => do
    let (n, table) ← p.tryAt origin i
    if test i n then .ok (some (i, n, table)) else firstFrom test origin room (i + 1)

def first (test : Int → Option Nat → Bool) (start : Int) :
    Except Fault (Option (Int × Option Nat × Captures)) :=
  p.firstFrom test start (Matching.positions p.subject start) start

/-- The position of the first match at or after a position; -1 if there is none. -/
def find (start : Int) : Except Fault Int := do
  .ok (((← p.first (fun _ n => n.isSome) start).map Prod.fst).getD (-1))

def matchFound : Option (Int × Option Nat × Captures) → Except Fault (Option Match)
  | some (i, some n, table) => do .ok (some (← p.makeMatch i n table))
  | _ => .ok none

/-- The first of `matchesAll`, sought without making the others (`findMatch_eq_first?`). -/
def findMatch (start : Int) : Except Fault (Option Match) := do
  p.matchFound (← p.first (fun _ n => n.isSome) start)

/-- Where the first match at or after a position starts and ends; (-1, 0) if there is none. -/
def findBounds (start : Int) : Except Fault (Int × Int) := do
  .ok (((← p.findMatch start).map fun m => (m.start, m.stop)).getD (-1, 0))

def findAll (start : Int) : Except Fault (List Text) := do
  .ok ((← p.allMatches start).map Match.text)

/-- Whether the pattern matches at or after a position, and not before the subject. -/
def contains (start : Int) : Except Fault Bool := do
  .ok (decide (0 ≤ (← p.find start)))

/-- Whether some match at or after a position reaches the end of the subject. -/
def endsWith (start : Int) : Except Fault Bool := do
  let reaches (i : Int) (n : Option Nat) : Bool := n.any fun n => i + n == p.subject.size
  .ok (← p.first reaches start).isSome

end Probe

/-- Where a subject is cut: a non-empty match, with the table it left. -/
structure Hit where
  start : Nat
  length : Nat
  table : Captures

def Probe.matchOf (p : Probe) (h : Hit) : Except Failure Match :=
  (p.makeMatch h.start h.length h.table).mapError .fault

/-- A subject cut at matches: the text before each match and the match with what was asked to go
with it, then the text after the last, or the fault that ended the cutting. -/
inductive Cuts (α : Type) where
  | last (text : Text)
  | fault (f : Fault)
  | cut (gap : Text) (hit : Hit) (what : α) (rest : Cuts α)

namespace Cuts

variable {α : Type}

/-- The first of the probes that matches something non-empty at a position. -/
def firstHit (i : Nat) : List (Probe × α) → Except Fault (Option (Hit × Probe × α))
  | [] => .ok none
  | (p, a) :: ps => do
    match ← p.tryAt 0 i with
    | (some (n + 1), table) => .ok (some (⟨i, n + 1, table⟩, p, a))
    | _ => firstHit i ps

/-- Cuts the subject from position `i` on; the text from `done` on is not yet part of a piece. Empty
matches do not cut. Replacing and splitting go by this loop with one probe, and replacing in
parallel with several. -/
def scan (subject : Subject) (probes : List (Probe × α)) : Nat → Nat → Nat → Cuts (Probe × α)
  | 0, done, _ => .last (subject.sliceFrom done)
  | room + 1, done, i =>
    if subject.size ≤ i then .last (subject.sliceFrom done)
    else
      match firstHit i probes with
      | .error f => .fault f
      | .ok none => scan subject probes room done (i + 1)
      | .ok (some (hit, what)) =>
        let stop := i + hit.length
        .cut (subject.slice done i) hit what (scan subject probes room stop stop)

def of (subject : Subject) (probes : List (Probe × α)) : Cuts (Probe × α) :=
  scan subject probes (subject.size + 1) 0 0

def replace (f : Nat → Match → α → Except Failure Text) :
    Nat → Cuts (Probe × α) → Except Failure Text
  | _, .last t => .ok t
  | _, .fault e => .error (.fault e)
  | k, .cut gap hit (p, a) rest => do
    let t ← f k (← p.matchOf hit) a
    .ok (gap ++ t ++ (← replace f (k + 1) rest))

def pieces : Cuts α → Except Failure (List Text)
  | .last t => .ok [t]
  | .fault e => .error (.fault e)
  | .cut gap _ _ rest => do .ok (gap :: (← pieces rest))

def matched : Cuts (Probe × α) → List Match
  | .cut _ hit (p, _) rest =>
    match p.matchOf hit with
    | .ok m => m :: matched rest
    | .error _ => []
  | _ => []

end Cuts

namespace Probe

def cuts (p : Probe) : Cuts (Probe × Unit) :=
  Cuts.of p.subject [(p, ())]

def replace (p : Probe) (new : Text) : Except Failure Text :=
  p.cuts.replace (fun _ _ _ => .ok new) 0

def replaceTemplate (p : Probe) (template : Text) : Except Failure Text :=
  p.cuts.replace (fun _ m _ => (Template.format template m).mapError .template) 0

/-- Replaces matches by what a function makes of their number and their captures. -/
def replaceWith (p : Probe) (f : Nat → List Text → Text) : Except Failure Text :=
  p.cuts.replace (fun k m _ => .ok (f k (m.groups.map fun t => t.getD []))) 0

def split (p : Probe) : Except Failure (List Text) :=
  p.cuts.pieces

end Probe

/-- Replaces matches of several patterns in one pass. At each position the first that matches
counts. -/
def parallelReplace (subject : Subject) (subs : List (Probe × Text)) : Except Failure Text :=
  (Cuts.of subject subs).replace
    (fun _ m template => (Template.format template m).mapError .template) 0

end PegMatch

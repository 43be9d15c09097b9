import PegMatch.Captures
import PegMatch.Matching.Comparison

set_option autoImplicit false

/-! Matching a pattern at a position of a subject. A match consumes a number of code points,
possibly none. Every node that fails leaves the capture table as it found it. -/

namespace PegMatch

/-- A node was entered at a position, or left with the length matched (`none` for a miss). -/
inductive Event where
  | enter (node : Pattern) (i : Int)
  | leave (node : Pattern) (i : Int) (length : Option Nat)

structure Watch where
  enter : Bool := false
  leave : Bool := false
  deriving Repr, DecidableEq

namespace Matching

/-- What stays the same during a match. The start anchor matches at `origin`. -/
structure Scene where
  subject : Subject
  store : Store
  origin : Int
  watch : Kind → Watch := fun _ => {}

structure State where
  table : Captures
  events : Array Event := #[]

namespace State

def mark (s : State) : Nat := s.table.mark

def rollback (s : State) (mark : Nat) : State :=
  { s with table := s.table.rollback mark }

def record (s : State) (wanted : Bool) (e : Event) : State :=
  if wanted then { s with events := s.events.push e } else s

end State

inductive Result where
  | miss (s : State)
  | hit (length : Nat) (s : State)
  | fault (f : Fault) (s : State)

namespace Result

def state : Result → State
  | .miss s | .hit _ s | .fault _ s => s

def orRollback (mark : Nat) : Result → Result
  | .miss s => .miss (s.rollback mark)
  | r => r

end Result

abbrev Attempt := Pattern → Int → State → Result

def compared (s : State) : Except Fault (Option Nat) → Result
  | .ok (some n) => .hit n s
  | .ok none => .miss s
  | .error f => .fault f s

/-- All the patterns one after the other; `n` code points are already consumed. -/
def inOrder (attempt : Attempt) (i : Int) : List Pattern → Nat → State → Result
  | [], n, s => .hit n s
  | p :: ps, n, s =>
    match attempt p (i + n) s with
    | .hit k s => inOrder attempt i ps (n + k) s
    | r => r

/-- The first of the patterns that matches; each starts from the table at the mark. -/
def firstOf (attempt : Attempt) (mark : Nat) (i : Int) : List Pattern → State → Result
  | [], s => .miss s
  | p :: ps, s =>
    match attempt p i s with
    | .miss s => firstOf attempt mark i ps (s.rollback mark)
    | r => r

/-- The pattern as often as it matches and consumes something. A repetition that is not done after
`times` turns counts as endless. -/
def repeatedly (attempt : Attempt) (p : Pattern) (i : Int) : Nat → Nat → State → Result
  | 0, _, s => .fault .endless s
  | times + 1, n, s =>
    match attempt p (i + n) s with
    | .hit 0 s => .hit n s
    | .hit (k + 1) s => repeatedly attempt p i times (n + (k + 1)) s
    | .miss s => .hit n s
    | .fault f s => .fault f s

/-- What a search finds: how much it skipped, and the match after that. -/
inductive Found where
  | nothing (s : State)
  | found (skipped length : Nat) (s : State)
  | fault (f : Fault) (s : State)

/-- The first of `count` positions at which the pattern matches; each starts from the table at the
mark. -/
def scan (attempt : Attempt) (mark : Nat) (p : Pattern) (i : Int) : Nat → Nat → State → Found
  | 0, _, s => .nothing s
  | count + 1, skipped, s =>
    match attempt p (i + skipped) s with
    | .hit n s => .found skipped n s
    | .miss s => scan attempt mark p i count (skipped + 1) (s.rollback mark)
    | .fault f s => .fault f s

/-- A search tries every position from `i` to the end of the subject, the end included. -/
def positions (subject : Subject) (i : Int) : Nat :=
  (subject.size + 1 - i).toNat

/-- Fills the slot of a capture node. -/
def fill (scene : Scene) (id : Nat) (span : Span) (length : Nat) (s : State) : Result :=
  match scene.store.slot? id with
  | none => .fault .unnumbered s
  | some slot =>
    match s.table.set slot span with
    | .ok table => .hit length { s with table := table }
    | .error f => .fault f s

def step (scene : Scene) (attempt : Attempt) (p : Pattern) (i : Int) (s : State) : Result :=
  let subject := scene.subject
  match p with
  | .empty => .hit 0 s
  | .any | .anyRune => if i < subject.size then .hit 1 s else .miss s
  | .newline => compared s (subject.lineBreak i)
  | .startAnchor => if i = scene.origin then .hit 0 s else .miss s
  | .category c => compared s (subject.one c.has i)
  | .literal _ how t => compared s (subject.compare how i t)
  | .valued _ .ignoreStyle v => .fault (.misuse (.notIterable v.sort)) s
  | .valued _ _ v => .fault (.misuse (.unsized v.sort)) s
  | .char _ c => compared s (subject.one (· == c) i)
  | .set _ members sense => compared s (subject.one (fun c => sense.admits (members.contains c)) i)
  | .call _ r =>
    match scene.store.body? r with
    | .ok (some body) => attempt body i s
    | .ok none => .fault (.undefinedRule (scene.store.rule r).name) s
    | .error f => .fault f s
  | .rule _ r =>
    match scene.store.body? r with
    | .ok (some body) => attempt body i s
    | .ok none => .fault .bodiless s
    | .error f => .fault f s
  | .grammar id start _ => attempt (.call id start.2) i s
  | .sequence _ items => (inOrder attempt i items 0 s).orRollback s.mark
  | .choice _ items => firstOf attempt s.mark i items s
  | .star _ body => repeatedly attempt body i (subject.room i + 1) 0 s
  | .starChar _ c => compared s ((subject.runLength (· == c) i).map some)
  | .starSet _ members sense =>
    compared s ((subject.runLength (fun c => sense.admits (members.contains c)) i).map some)
  | .starAny => .hit (subject.room i) s
  | .option _ body =>
    match attempt body i s with
    | .miss s => .hit 0 s
    | r => r
  | .peek _ body =>
    match attempt body i s with
    | .hit _ t => .hit 0 t
    | .miss t => .miss (t.rollback s.mark)
    | r => r
  | .not _ body =>
    match attempt body i s with
    | .hit _ t => .miss (t.rollback s.mark)
    | .miss t => .hit 0 (t.rollback s.mark)
    | r => r
  | .search _ body =>
    match scan attempt s.mark body i (positions subject i) 0 s with
    | .nothing s => .miss s
    | .found skipped n s => .hit (skipped + n) s
    | .fault f s => .fault f s
  | .capture id body =>
    match attempt body i s with
    | .hit n s => fill scene id ⟨i, n⟩ n s
    | r => r
  | .capturedSearch id body =>
    match scan attempt s.mark body i (positions subject i) 0 s with
    | .nothing s => .miss s
    | .found skipped n s => fill scene id ⟨i, skipped⟩ (skipped + n) s
    | .fault f s => .fault f s
  | .backref _ how slot =>
    match s.table.text subject slot with
    | .ok none => .miss s
    | .ok (some t) => compared s (subject.compare how i t)
    | .error f => .fault f s

def leave (watch : Watch) (p : Pattern) (i : Int) : Result → Result
  | .hit n s => .hit n (s.record watch.leave (.leave p i (some n)))
  | .miss s => .miss (s.record watch.leave (.leave p i none))
  | .fault f s => .fault f s

/-- Matches a pattern at a position, with at most `depth` nodes inside each other. -/
def attempt (scene : Scene) : Nat → Attempt
  | 0, _, _, s => .fault .endless s
  | depth + 1, p, i, s =>
    let watch := scene.watch p.kind
    leave watch p i (step scene (attempt scene depth) p i (s.record watch.enter (.enter p i)))

def usualDepth : Nat := 9999

/-- A new match from an empty table, in which nodes may lie `depth` deep below the pattern. -/
def run (scene : Scene) (table : Captures) (p : Pattern) (i : Int) (depth : Nat := usualDepth) :
    Result :=
  attempt scene (depth + 1) p i { table := table.reset }

end Matching

end PegMatch

import PegMatch.Datum.Arithmetic
import PegMatch.Pattern.Basic

set_option autoImplicit false

/-! Numbering of captures: each capture node that has no slot gets the next one, in the order in
which a walk from left to right first meets it. -/

namespace PegMatch

namespace Numbering

inductive Trouble where
  | tooMany (capacity : Int)
  /-- A back reference, counted from one, to a capture that the walk has not met before it. -/
  | badReference (number : Nat)
  | fault (f : Fault)
  deriving Repr

/-- What a walk has found: how many slots are taken, the rules entered, and the slots it gives to
captures that had none. -/
structure Walk where
  count : Nat := 0
  seen : List Nat := []
  given : List (Nat × Nat) := []

def Walk.slot? (w : Walk) (store : Store) (id : Nat) : Option Nat :=
  (store.slot? id).or (w.given.lookup id)

def meetCapture (store : Store) (capacity : Datum) (id : Nat) (w : Walk) : Except Trouble Walk :=
  match w.slot? store id with
  | some slot => .ok { w with count := max w.count (slot + 1) }
  | none => do
    let most ← (capacity.limit ">=").mapError fun m => .fault (.misuse m)
    if most ≤ w.count then .error (.tooMany most)
    else .ok { w with count := w.count + 1, given := (id, w.count) :: w.given }

def meetReference (slot : Nat) (w : Walk) : Except Trouble Walk :=
  if w.count ≤ slot then .error (.badReference (slot + 1)) else .ok w

mutual

/-- Walks a pattern. `enter` walks a rule's body. Calls lead into bodies not entered before, but not
from inside a grammar, whose rules are walked in the order in which they stand. -/
def visit (store : Store) (capacity : Datum) (enter : Bool → Nat → Walk → Except Trouble Walk)
    (follow : Bool) : Pattern → Walk → Except Trouble Walk
  | .capture i p, w => do
    visit store capacity enter follow p (← meetCapture store capacity i w)
  | .capturedSearch i p, w => do
    visit store capacity enter follow p (← meetCapture store capacity i w)
  | .backref _ _ slot, w => meetReference slot w
  | .call _ r, w =>
    if follow && !w.seen.contains r then enter follow r { w with seen := r :: w.seen } else .ok w
  | .rule _ r, w => enter follow r w
  | .grammar _ d ds, w =>
    let rules := (d :: ds).map Prod.snd
    rules.foldlM (fun w r => enter false r w) { w with seen := rules ++ w.seen }
  | .sequence _ ps, w => visitEach store capacity enter follow ps w
  | .choice _ ps, w => visitEach store capacity enter follow ps w
  | .star _ p, w => visit store capacity enter follow p w
  | .option _ p, w => visit store capacity enter follow p w
  | .peek _ p, w => visit store capacity enter follow p w
  | .not _ p, w => visit store capacity enter follow p w
  | .search _ p, w => visit store capacity enter follow p w
  | _, w => .ok w

def visitEach (store : Store) (capacity : Datum) (enter : Bool → Nat → Walk → Except Trouble Walk)
    (follow : Bool) : List Pattern → Walk → Except Trouble Walk
  | [], w => .ok w
  | p :: ps, w => do
    visitEach store capacity enter follow ps (← visit store capacity enter follow p w)

end

def enterRule (store : Store) (capacity : Datum) : Nat → Bool → Nat → Walk → Except Trouble Walk
  | 0, _, _, _ => .error (.fault .endless)
  | hops + 1, follow, r, w =>
    match store.body? r with
    | .error f => .error (.fault f)
    | .ok none => .ok w
    | .ok (some p) => visit store capacity (enterRule store capacity hops) follow p w

/-- Walks a pattern from its root. Between two rules entered by a call, of which each is entered
once, lie at most as many rule nodes as there are rules, or they lie in a circle. -/
def walkRoot (store : Store) (capacity : Datum) (root : Pattern) : Except Trouble Walk :=
  let hops := (store.rules.size + 1) * (store.rules.size + 1)
  visit store capacity (enterRule store capacity hops) true root {}

end Numbering

namespace Store

/-- Numbers the captures of a pattern and returns how many slots it takes. The count is remembered,
and a pattern that has one is not walked again. -/
def number (store : Store) (capacity : Datum) (root : Pattern) :
    Except Numbering.Trouble (Nat × Store) :=
  match store.count? root with
  | some n => .ok (n, store)
  | none => do
    let w ← Numbering.walkRoot store capacity root
    .ok (w.count, { store with slots := w.given ++ store.slots }.setCount root w.count)

end Store

end PegMatch

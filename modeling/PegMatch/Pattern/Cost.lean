import PegMatch.Datum.Arithmetic
import PegMatch.Pattern.Basic

set_option autoImplicit false

namespace PegMatch

namespace Pattern

def reaches (limit : Datum) (cost : Int) : Except Fault Bool := do
  let n ← (limit.limit ">=").mapError .misuse
  .ok (n ≤ cost)

def beyond (limit : Datum) : Except Fault Int :=
  limit.next.mapError .misuse

/-- The cost of a node with one part, which is compared with the limit like a sum. -/
def counted (limit : Datum) (cost : Int) : Except Fault Int := do
  let _ ← reaches limit cost
  .ok cost

def sumUntil {α : Type} (limit : Datum) (cost : α → Except Fault Int) :
    List α → Int → Except Fault Int
  | [], total => .ok total
  | a :: as, total => do
    let total := total + (← cost a)
    if ← reaches limit total then .ok total else sumUntil limit cost as total

mutual

/-- Counting stops once the limit is reached. Calls and captures cost more than the limit: a call
may lead back to the rule, and a capture must not be copied. -/
def costWith (below : Nat → Except Fault Int) (limit : Datum) : Pattern → Except Fault Int
  | .empty => .ok 0
  | .call .. => beyond limit
  | .capture .. => beyond limit
  | .capturedSearch .. => beyond limit
  | .sequence _ ps => costEach below limit ps 0
  | .choice _ ps => costEach below limit ps 0
  | .star _ p => do counted limit (← costWith below limit p)
  | .option _ p => do counted limit (← costWith below limit p)
  | .peek _ p => do counted limit (← costWith below limit p)
  | .not _ p => do counted limit (← costWith below limit p)
  | .search _ p => do counted limit (← costWith below limit p)
  | .rule _ r => below r
  | .grammar _ d ds => sumUntil limit (fun d => below d.2) (d :: ds) 0
  | _ => .ok 1

def costEach (below : Nat → Except Fault Int) (limit : Datum) :
    List Pattern → Int → Except Fault Int
  | [], total => .ok total
  | p :: ps, total => do
    let total := total + (← costWith below limit p)
    if ← reaches limit total then .ok total else costEach below limit ps total

end

end Pattern

namespace Store

def costRule (store : Store) (limit : Datum) : Nat → Nat → Except Fault Int
  | 0, _ => .error .endless
  | hops + 1, r => do
    match ← store.body? r with
    | none => .ok 1
    | some p => Pattern.counted limit (← p.costWith (store.costRule limit hops) limit)

def cost (store : Store) (limit : Datum) (p : Pattern) : Except Fault Int :=
  p.costWith (store.costRule limit store.rules.size) limit

end Store

end PegMatch

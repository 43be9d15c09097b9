import PegMatch.Fault
import PegMatch.Pattern.Basic
import PegMatch.Text.Escaped

set_option autoImplicit false

namespace PegMatch

namespace Rule

def marks (r : Rule) : List String :=
  (if r.declared then ["declared"] else []) ++ (if r.used then ["used"] else [])

def label (r : Rule) : Text :=
  let shown := String.intercalate ", " (r.marks.map fun m => s!"'{m}'")
  Text.ofString "<NonTerminal " ++ r.name ++ Text.ofString s!" [{shown}]>"

end Rule

namespace Pattern

def slotText : Option Nat → Text
  | some n => Text.numeral n
  | none => Text.ofString "None"

def bracketed (word : String) (details : Text) : Text :=
  '<'.toNat :: Text.ofString word ++ (if details.isEmpty then [] else ' '.toNat :: details) ++
    ['>'.toNat]

def details (store : Store) (p : Pattern) : Except Fault Text :=
  match p with
  | .category c => .ok (Text.ofString c.kind.name)
  | .literal _ _ t => .ok (Text.ofString p.kind.name ++ ' '.toNat :: Text.quoted t)
  | .valued i how (.pattern q) => do
    let inner := bracketed q.sort (← details store q)
    .ok (Text.ofString (kind (.valued i how (.pattern q))).name ++ ' '.toNat :: inner)
  | .valued _ _ (.rule r) => .ok (Text.ofString p.kind.name ++ ' '.toNat :: (store.rule r).label)
  | .valued _ _ (.datum d) => .ok (Text.ofString p.kind.name ++ ' '.toNat :: d.display)
  | .char _ c | .starChar _ c => .ok (Text.quoted [c])
  | .set _ s sense | .starSet _ s sense => .ok (Text.asClass s.ranges sense.isNegated)
  | .call _ r | .rule _ r => store.ruleName r
  | .capture i _ | .capturedSearch i _ => .ok (slotText (store.slot? i))
  | .backref _ _ slot => .ok (Text.ofString p.kind.name ++ ' '.toNat :: Text.numeral (slot + 1))
  | _ => .ok []

def label (store : Store) (p : Pattern) : Except Fault Text := do
  .ok (bracketed p.sort (← p.details store))

def outlineLine (store : Store) (depth : Nat) (p : Pattern) : Except Fault Text := do
  .ok (List.replicate (2 * depth) ' '.toNat ++ (← p.label store) ++ ['\n'.toNat])

mutual

/-- The lines of a pattern at a depth; `below` gives those of a rule's body. -/
def outlineWith (store : Store) (below : Nat → Nat → Except Fault Text) (depth : Nat) :
    Pattern → Except Fault Text
  | .sequence i items => do
    .ok ((← outlineLine store depth (.sequence i items)) ++
      (← outlineEach store below (depth + 1) items))
  | .choice i items => do
    .ok ((← outlineLine store depth (.choice i items)) ++
      (← outlineEach store below (depth + 1) items))
  | .star i p => do
    .ok ((← outlineLine store depth (.star i p)) ++ (← outlineWith store below (depth + 1) p))
  | .option i p => do
    .ok ((← outlineLine store depth (.option i p)) ++ (← outlineWith store below (depth + 1) p))
  | .peek i p => do
    .ok ((← outlineLine store depth (.peek i p)) ++ (← outlineWith store below (depth + 1) p))
  | .not i p => do
    .ok ((← outlineLine store depth (.not i p)) ++ (← outlineWith store below (depth + 1) p))
  | .search i p => do
    .ok ((← outlineLine store depth (.search i p)) ++ (← outlineWith store below (depth + 1) p))
  | .capture i p => do
    .ok ((← outlineLine store depth (.capture i p)) ++ (← outlineWith store below (depth + 1) p))
  | .capturedSearch i p => do
    .ok ((← outlineLine store depth (.capturedSearch i p)) ++
      (← outlineWith store below (depth + 1) p))
  | .rule i r => do
    .ok ((← outlineLine store depth (.rule i r)) ++ (← below (depth + 1) r))
  | .grammar i start others => do
    let lines ← (start :: others).mapM fun d => do
      .ok ((← outlineLine store (depth + 1) (.rule d.1 d.2)) ++ (← below (depth + 2) d.2))
    .ok ((← outlineLine store depth (.grammar i start others)) ++ lines.flatten)
  | p => outlineLine store depth p

def outlineEach (store : Store) (below : Nat → Nat → Except Fault Text) (depth : Nat) :
    List Pattern → Except Fault Text
  | [] => .ok []
  | p :: ps => do
    let t ← outlineWith store below depth p
    .ok (t ++ (← outlineEach store below depth ps))

end

end Pattern

namespace Store

def outlineRule (store : Store) : Nat → Nat → Nat → Except Fault Text
  | 0, _, _ => .error .endless
  | hops + 1, depth, r => do
    match ← store.body? r with
    | none => .ok []
    | some p => p.outlineWith store (store.outlineRule hops) depth

def outline (store : Store) (p : Pattern) : Except Fault Text :=
  p.outlineWith store (store.outlineRule store.rules.size) 0

end Store

end PegMatch

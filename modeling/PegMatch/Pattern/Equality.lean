import PegMatch.Datum.Arithmetic
import PegMatch.Pattern.Basic

set_option autoImplicit false

/-! Equality of patterns: the same shape and parameters. Calls are compared by the name of their
rule, rule nodes by name and body, and captures by slot too. -/

namespace PegMatch

namespace Pattern

def bodiesWith (below : Nat → Nat → Except Fault Bool) (store : Store) (r s : Nat) :
    Except Fault Bool := do
  if (← store.ruleName r) = (← store.ruleName s) then
    match ← store.body? r, ← store.body? s with
    | none, none => .ok true
    | some p, some q => if p.same q then .ok true else below r s
    | _, _ => .ok false
  else .ok false

/-- Equality of rule nodes, one after the other; lists of different lengths differ. -/
def rulesWith (below : Nat → Nat → Except Fault Bool) (store : Store) :
    List (Nat × Nat) → List (Nat × Nat) → Except Fault Bool
  | [], [] => .ok true
  | d :: ds, e :: es => do
    if d.1 == e.1 || (← bodiesWith below store d.2 e.2) then rulesWith below store ds es
    else .ok false
  | _, _ => .ok false

mutual

/-- Equality of patterns; `below` compares the bodies of two rules. One node equals itself, whatever
it holds. -/
def equalWith (store : Store) (below : Nat → Nat → Except Fault Bool) (p q : Pattern) :
    Except Fault Bool :=
  if p.same q then .ok true
  else
    match p, q with
    | .literal _ how t, .literal _ how' t' => .ok (how == how' && t == t')
    | .valued _ how (.pattern p), .valued _ how' (.pattern q) =>
      if how = how' then equalWith store below p q else .ok false
    | .valued _ how (.rule r), .valued _ how' (.rule s) => .ok (how == how' && r == s)
    | .valued _ how (.datum d), .valued _ how' (.datum e) => .ok (how == how' && d.same e)
    | .char _ c, .char _ d => .ok (c == d)
    | .set _ s n, .set _ s' n' => .ok (s == s' && n.same n')
    | .call _ r, .call _ r' => do .ok ((← store.ruleName r) == (← store.ruleName r'))
    | .sequence _ ps, .sequence _ qs => equalEach store below ps qs
    | .choice _ ps, .choice _ qs => equalEach store below ps qs
    | .star _ p, .star _ q => equalWith store below p q
    | .starChar _ c, .starChar _ d => .ok (c == d)
    | .starSet _ s n, .starSet _ s' n' => .ok (s == s' && n.same n')
    | .option _ p, .option _ q => equalWith store below p q
    | .peek _ p, .peek _ q => equalWith store below p q
    | .not _ p, .not _ q => equalWith store below p q
    | .search _ p, .search _ q => equalWith store below p q
    | .capture i p, .capture j q =>
      if store.slot? i = store.slot? j then equalWith store below p q else .ok false
    | .capturedSearch i p, .capturedSearch j q =>
      if store.slot? i = store.slot? j then equalWith store below p q else .ok false
    | .backref _ how k, .backref _ how' k' => .ok (how == how' && k == k')
    | .rule _ r, .rule _ r' => bodiesWith below store r r'
    | .grammar _ d ds, .grammar _ e es => rulesWith below store (d :: ds) (e :: es)
    | _, _ => .ok false

def equalEach (store : Store) (below : Nat → Nat → Except Fault Bool) (ps qs : List Pattern) :
    Except Fault Bool :=
  match ps, qs with
  | [], [] => .ok true
  | p :: ps, q :: qs => do
    if ← equalWith store below p q then equalEach store below ps qs else .ok false
  | _, _ => .ok false

end

def keySense : Sense → Except Fault Unit
  | .all told => do let _ ← told.key.mapError Fault.misuse
  | _ => .ok ()

mutual

/-- Whether the pattern can be a key: `below` walks a rule's body, and all values on the way must be
keys. -/
def keyWith (store : Store) (below : Nat → Except Fault Unit) : Pattern → Except Fault Unit
  | .valued _ _ (.datum d) => do let _ ← d.key.mapError Fault.misuse
  | .valued _ _ (.pattern p) => keyWith store below p
  | .set _ _ sense => keySense sense
  | .starSet _ _ sense => keySense sense
  | .call _ r => do let _ ← store.ruleName r
  | .sequence _ ps => keyEach store below ps
  | .choice _ ps => keyEach store below ps
  | .star _ p => keyWith store below p
  | .option _ p => keyWith store below p
  | .peek _ p => keyWith store below p
  | .not _ p => keyWith store below p
  | .search _ p => keyWith store below p
  | .capture _ p => keyWith store below p
  | .capturedSearch _ p => keyWith store below p
  | .rule _ r => below r
  | .grammar _ d ds => (d :: ds).forM fun d => below d.2
  | _ => .ok ()

def keyEach (store : Store) (below : Nat → Except Fault Unit) : List Pattern → Except Fault Unit
  | [] => .ok ()
  | p :: ps => do
    keyWith store below p
    keyEach store below ps

end

end Pattern

namespace Store

def equalBodies (store : Store) : Nat → Nat → Nat → Except Fault Bool
  | 0, _, _ => .error .endless
  | hops + 1, r, s => do
    match ← store.body? r, ← store.body? s with
    | some p, some q => p.equalWith store (store.equalBodies hops) q
    | _, _ => .ok true

/-- Whether two patterns are equal. More nested pairs of rules than there are are a circle. -/
def equal (store : Store) (p q : Pattern) : Except Fault Bool :=
  p.equalWith store (store.equalBodies (store.rules.size * store.rules.size)) q

def keyRule (store : Store) : Nat → Nat → Except Fault Unit
  | 0, _ => .error .endless
  | hops + 1, r => do
    let _ ← store.ruleName r
    match ← store.body? r with
    | none => .ok ()
    | some p => p.keyWith store (store.keyRule hops)

/-- Succeeds if the pattern can be a key: no rule node lies in its own rule's body, and no value in
the pattern can change. -/
def key (store : Store) (p : Pattern) : Except Fault Unit :=
  p.keyWith store (store.keyRule store.rules.size)

end Store

end PegMatch

import PegMatch.Library
import PegMatch.Pattern.Equality

set_option autoImplicit false

/-! Blueprints: patterns described by the constructors that build them. A node bound to a name
stands for the same node wherever the name is used. -/

namespace PegMatch

inductive Wrapper where
  | star | plus | option | peek | not | search | capturedSearch
  deriving Repr, DecidableEq

inductive Blueprint where
  /-- A value as it is; a text stands for its literal where a pattern is wanted. -/
  | value (d : Datum)
  | node (p : Pattern)
  | literal (how : Comparison) (text : Blueprint)
  | char (text : Blueprint)
  | set (members negated : Blueprint)
  | ident
  | endAnchor
  | sequence (items : List Blueprint)
  | choice (items : List Blueprint)
  /-- The two one after the other, or the sum of two values. -/
  | append (first second : Blueprint)
  /-- The first of the two that matches, or either of two values. -/
  | orElse (first second : Blueprint)
  | wrap (wrapper : Wrapper) (body : Blueprint)
  /-- A capture, of nothing if the body is null. -/
  | capture (body : Blueprint)
  | backref (how : Comparison) (number : Blueprint)
  /-- The pattern that a value stands for. -/
  | asPattern (b : Blueprint)
  /-- What pattern text is compiled to. -/
  | source (text : Blueprint)
  | rule (name : Text)
  | call (name : Text)
  /-- A rule node. The rule gets the body, unless that is null. -/
  | define (name : Text) (body : Blueprint)
  | grammar (rules : List Blueprint)
  | bind (name : String) (value body : Blueprint)
  | ref (name : String)
  /-- Arguments that no constructor takes in this number. -/
  | misapplied (args : List Blueprint) (why : Failure)
  deriving Inhabited

namespace Value

def display (store : Store) : Value Pattern → Text
  | .pattern p => (p.label store).toOption.getD (Text.ofString p.sort)
  | .rule r => (store.rule r).label
  | .datum d => d.display

def given (store : Store) : Value Pattern → Library.Given
  | .pattern p => .ok p
  | v => .error (.notCompiled (v.display store))

def tree : Value Pattern → Library.Given
  | .pattern p => .ok p
  | _ => .error .notRule

def equal (store : Store) : Value Pattern → Value Pattern → Except Fault Bool
  | .pattern p, .pattern q => store.equal p q
  | .rule r, .rule s => .ok (r == s)
  | .datum d, .datum e => .ok (d.same e)
  | _, _ => .ok false

def key (store : Store) : Value Pattern → Except Fault Unit
  | .pattern p => store.key p
  | .rule _ => .ok ()
  | .datum d => do let _ ← d.key.mapError Fault.misuse

/-- Whether a value is found in this one: a character in a set, a text in a text, an element in a
list or a name in a record. -/
def has (v : Value Pattern) (d : Datum) : Except Misuse Bool :=
  match v with
  | .pattern (.set _ members sense) | .pattern (.starSet _ members sense) => do
    match ← d.key with
    | .text [c] => .ok (sense.admits (members.contains c))
    | _ => .ok (sense.admits false)
  | .datum (.text t) =>
    match d with
    | .text u => .ok (Text.occursIn u t)
    | d => .error (.notSubstring d.sort)
  | .datum (.list ds) => .ok (ds.any d.same)
  | .datum (.record fields) => do
    match ← d.key with
    | .text t => .ok (fields.lookup t).isSome
    | _ => .ok false
  | v => .error (.notContainer v.sort)

end Value

namespace Blueprint

/-- The names in scope, and the rules of this blueprint. -/
structure Scope where
  bound : List (String × Value Pattern) := []
  rules : List (Text × Nat) := []

abbrev Builder := StateT Scope Action

def toPattern (v : Value Pattern) : Builder Pattern := do
  match v with
  | .pattern p => return p
  | .datum (.text t) => return .term (← Library.freshId) t
  | v => throw (.notPattern (v.display (← getThe Library).store))

def ruleNamed (name : Text) : Builder Nat := do
  match (← getThe Scope).rules.lookup name with
  | some r => return r
  | none =>
    let (r, store) := (← getThe Library).store.addRule { name := name }
    modifyThe Library fun l => { l with store := store }
    modifyThe Scope fun s => { s with rules := (name, r) :: s.rules }
    return r

def modifyStore (f : Store → Store) : Builder Unit :=
  modifyThe Library fun l => { l with store := f l.store }

def misuse {α : Type} (m : Misuse) : Builder α :=
  throw (.misuse m)

def holds : Value Pattern → Bool
  | .datum d => d.holds
  | _ => true

/-- The literal of a text. Other values that are empty give the empty pattern; the rest must at
least have a length, unless the comparison is a loose one. -/
def makeLiteral (how : Comparison) (v : Value Pattern) : Builder Pattern := do
  match v with
  | .datum (.text t) => return .text (← Library.freshId) how t
  | v =>
    if !holds v then return .empty
    else if how = .exact then misuse (.unsized v.sort)
    else return .valued (← Library.freshId) how v

def makeBackref (how : Comparison) (v : Value Pattern) : Builder Pattern := do
  match v with
  | .datum d =>
    match d.int? with
    | some n =>
      if n < 1 then throw (.badReferenceNumber d.display)
      else return .backref (← Library.freshId) how (n.toNat - 1)
    | none => misuse (.unordered "<" d.sort "int")
  | v => misuse (.unordered "<" v.sort "int")

def giveBody (r : Nat) (body : Pattern) : Builder Unit := do
  let l ← getThe Library
  let rule := l.store.rules[r]?.getD default
  if rule.declared then
    throw (.grammar { mistake := .redefined rule.name, place := rule.place })
  else
    modifyStore fun s => s.modifyRule r fun rule =>
      { rule with declared := true, body := some body }

def wrapped? : Pattern → Option Pattern
  | .star _ p | .option _ p | .peek _ p | .not _ p | .search _ p | .capture _ p
  | .capturedSearch _ p => some p
  | _ => none

def improperNode (body : Option Pattern) : Builder (Nat × Nat) := do
  let (r, store) := (← getThe Library).store.addRule { name := [], proper := false, body := body }
  modifyThe Library fun l => { l with store := store }
  return (← Library.freshId, r)

def ruleNode (v : Value Pattern) : Builder (Nat × Nat) := do
  match v with
  | .pattern (.rule id r) => return (id, r)
  | .rule r => return (← Library.freshId, r)
  | .pattern p => improperNode (wrapped? p)
  | .datum _ => improperNode none

def makeChar (v : Value Pattern) : Builder Pattern := do
  match v with
  | .datum (.text [c]) => return .char (← Library.freshId) c
  | .datum (.text t) => throw (.notSingle (Text.quoted t))
  | v => misuse (.unsized v.sort)

def senseOf : Value Pattern → Sense
  | .datum d => .ofDatum d
  | v => .all (.ofString v.sort)

def makeSet (v negated : Value Pattern) : Builder Pattern := do
  match v with
  | .datum (.text t) => return .set (← Library.freshId) (.ofText t) (senseOf negated)
  | .datum (.record fields) =>
    return .set (← Library.freshId) (.ofText (fields.flatMap Prod.fst)) (senseOf negated)
  | v => misuse (.notIterable v.sort)

def isPattern : Value Pattern → Bool
  | .pattern _ => true
  | _ => false

def toPatterns (vs : List (Value Pattern)) : Builder (List Pattern) :=
  vs.mapM toPattern

def makeChoice (vs : List (Value Pattern)) : Builder Pattern := do
  match ← toPatterns vs with
  | [] => throw .emptyChoice
  | p :: ps => return .alt (← Library.freshId) p ps

def makeSequence (vs : List (Value Pattern)) : Builder Pattern := do
  let ps ← toPatterns vs
  return .seq (← Library.freshId) ps

def makeWrapped (w : Wrapper) (p : Pattern) : Builder Pattern := do
  let id ← Library.freshId
  match w with
  | .star => return .repeated id p
  | .plus => return .plus id (← Library.freshId) p
  | .option => return .opt id p
  | .peek => return .peek id p
  | .not => return .not id p
  | .search => return .search id p
  | .capturedSearch => return .capturedSearch id p

/-- Two patterns one after the other, where one may be a text, or the sum of two values. -/
def add (v w : Value Pattern) : Builder (Value Pattern) := do
  match v, w with
  | .datum d, .datum e => return .datum (← Library.ofExcept .misuse (d.add e))
  | v, w =>
    if isPattern v || isPattern w then return .pattern (← makeSequence [v, w])
    else misuse (Datum.unaddable v.sort w.sort)

/-- The choice between two patterns, where one may be a text, or either of two values. -/
def either (v w : Value Pattern) : Builder (Value Pattern) := do
  match v, w with
  | .datum d, .datum e => return .datum (← Library.ofExcept .misuse (d.either e))
  | v, w =>
    if isPattern v || isPattern w then return .pattern (← makeChoice [v, w])
    else misuse (.unsupported "|" v.sort w.sort)

def makeCapture (v : Value Pattern) : Builder Pattern := do
  let p ← match v with
    | .datum .null => pure .empty
    | v => toPattern v
  return .capture (← Library.freshId) p

def makeCall (name : Text) : Builder Pattern := do
  let r ← ruleNamed name
  modifyStore fun s => s.modifyRule r fun rule => { rule with used := true }
  return .call (← Library.freshId) r

def makeRule (name : Text) (body : Value Pattern) : Builder Pattern := do
  let r ← ruleNamed name
  match body with
  | .datum .null => pure ()
  | v => giveBody r (← toPattern v)
  return .rule (← Library.freshId) r

def makeGrammar (vs : List (Value Pattern)) : Builder Pattern := do
  match ← vs.mapM ruleNode with
  | [] => throw .emptyGrammar
  | start :: others => return .grammar (← Library.freshId) start others

def makeSource (v : Value Pattern) : Builder Pattern :=
  match v with
  | .datum d => Library.compileValue d none none none
  | v => misuse (.unsized v.sort)

def makeIdent : Builder Pattern := do
  let setId ← Library.freshId
  let starId ← Library.freshId
  return .ident setId starId (← Library.freshId)

mutual

def eval : Blueprint → Builder (Value Pattern)
  | .value d => return .datum d
  | .node p => return .pattern p
  | .literal how b => do return .pattern (← makeLiteral how (← eval b))
  | .char b => do return .pattern (← makeChar (← eval b))
  | .set b negated => do
    let v ← eval b
    return .pattern (← makeSet v (← eval negated))
  | .ident => do return .pattern (← makeIdent)
  | .endAnchor => do return .pattern (.endAnchor (← Library.freshId))
  | .sequence bs => do return .pattern (← makeSequence (← evalEach bs))
  | .choice bs => do return .pattern (← makeChoice (← evalEach bs))
  | .append a b => do
    let v ← eval a
    add v (← eval b)
  | .orElse a b => do
    let v ← eval a
    either v (← eval b)
  | .wrap w b => do return .pattern (← makeWrapped w (← toPattern (← eval b)))
  | .capture b => do return .pattern (← makeCapture (← eval b))
  | .backref how b => do return .pattern (← makeBackref how (← eval b))
  | .asPattern b => do return .pattern (← toPattern (← eval b))
  | .source b => do return .pattern (← makeSource (← eval b))
  | .rule name => do return .rule (← ruleNamed name)
  | .call name => do return .pattern (← makeCall name)
  | .define name b => do return .pattern (← makeRule name (← eval b))
  | .grammar bs => do return .pattern (← makeGrammar (← evalEach bs))
  | .bind name b body => do
    let v ← eval b
    modifyThe Scope fun s => { s with bound := (name, v) :: s.bound }
    eval body
  | .ref name => do
    match (← getThe Scope).bound.lookup name with
    | some v => return v
    | none => throw .unknownName
  | .misapplied args why => do
    let _ ← evalEach args
    throw why

def evalEach : List Blueprint → Builder (List (Value Pattern))
  | [] => return []
  | b :: bs => do
    let v ← eval b
    return v :: (← evalEach bs)

end

def build (b : Blueprint) : Action (Value Pattern) := do
  return (← (eval b).run {}).1

end Blueprint

end PegMatch

import PegMatch.Grammar.Token
import PegMatch.Notice
import PegMatch.Pattern.Cost

set_option autoImplicit false

/-! Reading pattern text:

    grammar    = rule+ | expression
    rule       = Name "<-" expression
    expression = sequence ("/" sequence)*
    sequence   = prefixed*
    prefixed   = ("&" | "!" | "@" | "{@}") prefixed | suffixed
    suffixed   = primary ("?" | "*" | "+")*
    primary    = literal | class | "(" expression ")" | "{" expression "}"
               | "." | "_" | "^" | "$" | backref | builtin | Name

A call of a rule that is already known and small is replaced by the rule's body. -/

namespace PegMatch.Grammar

/-- The text to read and how: rules that cost less than `inline` stand in place of their calls (none
do if it is zero or empty), and there may be at most `capacity` captures. -/
structure Source where
  text : Text
  file : String
  inline : Datum
  capacity : Datum

/-- Why a text is not read: a mistake in it, or a fault that has no place. -/
inductive ReadError where
  | mistake (e : GrammarError)
  | fault (f : Fault)
  deriving Repr

structure State where
  rest : Text
  store : Store
  /-- The rules named so far, in the order in which they were first named. -/
  names : List (Text × Nat) := []
  inGrammar : Bool := false
  opened : Nat := 0
  /-- What may stand before every token. -/
  skip : Pattern := .empty
  log : List Notice := []

abbrev Reader := EStateM ReadError State

variable (src : Source)

def Source.place (src : Source) (rest : Text) : Position :=
  src.text.position (src.text.length - rest.length : Nat)

def failAt {α : Type} (rest : Text) (m : Mistake) : Reader α :=
  throw (.mistake { mistake := m, file := src.file, place := src.place rest })

def fail {α : Type} (m : Mistake) : Reader α := do
  failAt src (← get).rest m

def tooDeep {α : Type} : Reader α :=
  throw (.fault .endless)

def sound {α : Type} : Except Fault α → Reader α
  | .ok a => return a
  | .error f => throw (.fault f)

def advance (rest : Text) : Reader Unit :=
  modify fun s => { s with rest := rest }

def ahead : Reader Text := do
  advance (Token.skipBlanks false (← get).rest)
  return (← get).rest

def read {α : Type} (token : Except Token.Trouble (α × Text)) : Reader α :=
  match token with
  | .ok (a, rest) => do advance rest; return a
  | .error (m, rest) => failAt src rest m

def freshId : Reader Nat := do
  let s ← get
  set { s with store := { s.store with fresh := s.store.fresh + 1 } }
  return s.store.fresh

def token (p : Pattern) : Reader Pattern := do
  match (← get).skip with
  | .empty => return p
  | skip => return .seq (← freshId) [skip, p]

def openCapture : Reader Nat := do
  let s ← get
  let most ← sound ((src.capacity.limit ">=").mapError .misuse)
  if most ≤ s.opened then fail src (.tooManyCaptures most)
  else
    set { s with opened := s.opened + 1 }
    return s.opened

def captureId (slot : Nat) : Reader Nat := do
  let id ← freshId
  modify fun s => { s with store := s.store.setSlot id slot }
  return id

/-- The number of the rule with a name; `start` is the text at this mention of it. -/
def ruleNamed (name start : Text) : Reader Nat := do
  let s ← get
  match s.names.lookup name with
  | some r => return r
  | none =>
    let (r, store) := s.store.addRule { name := name, place := src.place start }
    set { s with store := store, names := s.names ++ [(name, r)] }
    return r

def markUsed (r : Nat) : Reader Unit :=
  modify fun s => { s with store := s.store.modifyRule r fun rule => { rule with used := true } }

def inlined? (store : Store) (limit : Datum) (r : Nat) : Except Fault (Option Pattern) := do
  match ← store.body? r with
  | none => .ok none
  | some body =>
    if limit.holds then
      let cost ← store.cost limit body
      let most ← (limit.limit "<").mapError .misuse
      .ok (if cost < most then some body else none)
    else .ok none

def reference (name start : Text) : Reader Pattern := do
  if (← get).inGrammar then
    let r ← ruleNamed src name start
    markUsed r
    match ← sound (inlined? (← get).store src.inline r) with
    | some body =>
      modify fun s => { s with log := .inlining name :: s.log }
      return body
    | none => return .call (← freshId) r
  else failAt src start (.undeclared name)

def backReference (how : Comparison) (start : Text) : Reader Pattern := do
  let digits := (start.drop 1).takeWhile Text.isAsciiDigit
  if digits.isEmpty then failAt src start .badReference
  else
    let number ← sound ((Text.decimal digits).mapError .number)
    advance ((start.drop 1).dropWhile Text.isAsciiDigit)
    if 1 ≤ number ∧ number ≤ (← get).opened then return .backref (← freshId) how (number - 1)
    else failAt src start (.badReferenceNumber number)

def literal (how : Comparison) (verbatim : Bool) (t : Text) : Reader Pattern := do
  let body ← read src (Token.literal verbatim t)
  token (.text (← freshId) how body)

def characterClass (start : Text) (t : Text) : Reader Pattern := do
  let (members, negated) ← read src (Token.classAfter start t)
  token (.set (← freshId) members (.ofBool negated))

/-- The suffixes of a primary; each takes one code point of at most `room`. -/
def suffixes : Nat → Pattern → Reader Pattern
  | 0, p => return p
  | room + 1, p => do
    match ← ahead with
    | c :: t =>
      if c = '?' then
        advance t
        suffixes room (.opt (← freshId) p)
      else if c = '*' then
        advance t
        suffixes room (.repeated (← freshId) p)
      else if c = '+' then
        advance t
        let starId ← freshId
        suffixes room (.plus starId (← freshId) p)
      else return p
    | [] => return p

def close (wanted : Nat) (opener : Nat) (start : Text) : Reader Unit := do
  match ← ahead with
  | [] => failAt src start (.unclosed [wanted] [opener])
  | c :: t => if c = wanted then advance t else fail src (.expected [wanted])

def named? (name : Text) : Reader (Option Pattern) := do
  if name = Text.ofString "n" then return some .newline
  else
    match Pattern.namedSet? name with
    | some p => return some p
    | none =>
      if name = Text.ofString "letter" then return some (.category .letter)
      else if name = Text.ofString "lower" then return some (.category .lower)
      else if name = Text.ofString "upper" then return some (.category .upper)
      else if name = Text.ofString "title" then return some (.category .title)
      else if name = Text.ofString "white" then return some (.category .white)
      else if name = Text.ofString "ident" then
        let setId ← freshId
        let starId ← freshId
        return some (.ident setId starId (← freshId))
      else return none

/-- A pattern named after a backslash, or a character written by an escape. -/
def builtin (start t : Text) : Reader Pattern := do
  let name := t.takeWhile Token.isLetter
  match ← named? name with
  | some p =>
    advance (t.drop name.length)
    token p
  | none =>
    if 1 < name.length ∧ name.head? ≠ some 'x'.toNat ∧ name.head? ≠ some 'u'.toNat then
      failAt src start (.unknownBuiltin name)
    else
      match Token.escape? t with
      | none => failAt src start .badEscape
      | some (c, rest) =>
        advance rest
        token (.char (← freshId) c)

mutual

def expression : Nat → Reader Pattern
  | 0 => tooDeep
  | fuel + 1 => do
    let first ← sequence fuel
    let others ← alternatives fuel
    return .alt (← freshId) first others

def alternatives : Nat → Reader (List Pattern)
  | 0 => tooDeep
  | fuel + 1 => do
    match ← ahead with
    | '/' :: t =>
      advance t
      let p ← sequence fuel
      return p :: (← alternatives fuel)
    | _ => return []

def sequence : Nat → Reader Pattern
  | 0 => tooDeep
  | fuel + 1 => do
    let ps ← items fuel
    return .seq (← freshId) ps

def items : Nat → Reader (List Pattern)
  | 0 => tooDeep
  | fuel + 1 => do
    match ← ahead with
    | [] => return []
    | c :: t =>
      if c = '/' ∨ c = ')' ∨ c = '}' then return []
      else if (← get).inGrammar && (Token.header? (c :: t)).isSome then return []
      else
        let p ← prefixed fuel
        return p :: (← items fuel)

def prefixed : Nat → Reader Pattern
  | 0 => tooDeep
  | fuel + 1 => do
    match ← ahead with
    | '&' :: t =>
      advance t
      let p ← prefixed fuel
      return .peek (← freshId) p
    | '!' :: t =>
      advance t
      let p ← prefixed fuel
      return .not (← freshId) p
    | '@' :: t =>
      advance t
      let p ← prefixed fuel
      return .search (← freshId) p
    | '{' :: '@' :: '}' :: t =>
      let slot ← openCapture src
      advance t
      let p ← prefixed fuel
      token (.capturedSearch (← captureId slot) p)
    | _ =>
      let p ← primary fuel
      suffixes (← get).rest.length p

def primary : Nat → Reader Pattern
  | 0 => tooDeep
  | fuel + 1 => do
    match ← ahead with
    | [] => fail src .expressionExpectedAtEnd
    | c :: t =>
      let next := t.head?
      let quoteNext := next.any Token.isQuote
      if Token.isQuote c then literal src .exact false (c :: t)
      else if c = 'i' ∧ quoteNext then literal src .ignoreCase false t
      else if c = 'v' ∧ quoteNext then literal src .exact true t
      else if c = 'y' ∧ quoteNext then literal src .ignoreStyle false t
      else if c = 'i' ∧ next = some '$'.toNat then token (← backReference src .ignoreCase t)
      else if c = 'y' ∧ next = some '$'.toNat then token (← backReference src .ignoreStyle t)
      else if c = '$' then
        if next.any Text.isAsciiDigit then token (← backReference src .exact (c :: t))
        else
          advance t
          token (.endAnchor (← freshId))
      else if c = '(' then
        advance t
        let p ← expression fuel
        close src ')' '(' (c :: t)
        return p
      else if c = '{' then
        let slot ← openCapture src
        advance t
        let p ← expression fuel
        close src '}' '{' (c :: t)
        return .capture (← captureId slot) p
      else if c = '[' then characterClass src (c :: t) t
      else if c = '.' then
        advance t
        token .any
      else if c = '_' then
        advance t
        token .anyRune
      else if c = '^' then
        advance t
        token .startAnchor
      else if c = '\\' then
        if t.takeWhile Token.isLetter = Text.ofString "skip" then
          advance (t.drop 4)
          let p ← prefixed fuel
          modify fun s => { s with skip := p }
          return .empty
        else builtin src (c :: t) t
      else
        match Token.name? (c :: t) with
        | some (name, rest) =>
          advance rest
          reference src name (c :: t)
        | none =>
          if c = ')' ∨ c = '}' then fail src (.unbalanced c) else fail src (.expressionExpected c)

end

/-- Enough for any nesting: of every six calls inside each other one takes a code point. -/
def fuel (t : Text) : Nat :=
  8 * (t.length + 2)

def declare (r : Nat) (place : Position) (body : Pattern) : Reader Unit :=
  modify fun s =>
    { s with store := s.store.modifyRule r fun rule =>
        { rule with place := place, declared := true, body := some body } }

def setPlace (r : Nat) (place : Position) : Reader Unit :=
  modify fun s => { s with store := s.store.modifyRule r fun rule => { rule with place := place } }

/-- The rules of a grammar; each takes at least one code point of at most `room`. -/
def rules : Nat → Reader (List (Nat × Nat))
  | 0 => return []
  | room + 1 => do
    match ← ahead with
    | [] => return []
    | c :: t =>
      let start := c :: t
      match Token.header? start with
      | none => fail src (.ruleExpected c)
      | some (name, rest) =>
        let r ← ruleNamed src name start
        if ((← get).store.rules[r]?.map Rule.declared).getD false then
          failAt src start (.redefined name)
        else
          setPlace r (src.place start)
          advance rest
          let body ← expression src (fuel rest)
          declare r (src.place start) body
          let id ← freshId
          return (id, r) :: (← rules room)

def checkDeclared (store : Store) : List (Text × Nat) → Except GrammarError Unit
  | [] => .ok ()
  | (_, r) :: rest =>
    match store.rules[r]? with
    | some rule =>
      if rule.declared then checkDeclared store rest
      else .error { mistake := .undeclared rule.name, file := src.file, place := rule.place }
    | none => checkDeclared store rest

def unused (store : Store) (defs : List (Nat × Nat)) : List Notice :=
  defs.filterMap fun d =>
    match store.rules[d.2]? with
    | some rule => if rule.used then none else some (.unusedRule src.file rule.place rule.name)
    | none => none

def grammar : Reader Pattern := do
  let defs ← rules src (src.text.length + 1)
  let s ← get
  match checkDeclared src s.store s.names with
  | .error e => throw (.mistake e)
  | .ok () =>
    match defs with
    | [] => return .empty
    | start :: others =>
      modify fun s => { s with log := (unused src s.store others).reverse ++ s.log }
      return .grammar (← freshId) start others

/-- The whole text: a grammar if it starts with a rule, else one expression. -/
def whole : Reader Pattern := do
  let t ← ahead
  let p ← if (Token.header? t).isSome then do
      modify fun s => { s with inGrammar := true }
      grammar src
    else expression src (fuel t)
  match ← ahead with
  | [] =>
    modify fun s => { s with store := s.store.setCount p s.opened }
    return p
  | c :: _ => if c = ')' ∨ c = '}' then fail src (.unbalanced c) else fail src (.endExpected c)

/-- Reads a pattern. The store grows by its rules and slots; notices come in the order in which they
arose. -/
def parse (store : Store) : Except ReadError Pattern × Store × List Notice :=
  match (whole src).run { rest := src.text, store := store } with
  | .ok p s => (.ok p, s.store, s.log.reverse)
  | .error e s => (.error e, s.store, s.log.reverse)

end PegMatch.Grammar

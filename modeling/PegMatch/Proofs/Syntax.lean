import Mathlib.Algebra.GroupWithZero.Nat
import PegMatch.Proofs.Tokens

set_option autoImplicit false

namespace PegMatch.Grammar

open Token

/-- The name of a rule: a letter, then letters, digits and underscores. -/
def isName : Text → Bool
  | [] => false
  | c :: t => isLetter c && t.all isNameRune

structure Name where
  text : Text
  valid : isName text
  deriving DecidableEq

inductive Escape where
  /-- A letter with a meaning of its own, other than those that name a builtin. -/
  | letter (l c : Nat) (h : letterEscape? l = some c) (other : l ≠ 'n' ∧ l ≠ 'a')
  | byte (c : Fin 256)
  | unit (c : Fin 65536)
  | number (c : Fin 1000)
  | symbol (c : Nat) (h : isSymbol c)

def Escape.text : Escape → Text
  | .letter l .. => [l]
  | .byte c => 'x' :: Text.hexNumeral 2 c
  | .unit c => 'u' :: Text.hexNumeral 4 c
  | .number c => Text.numeral c
  | .symbol c _ => [c]

def Escape.rune : Escape → Nat
  | .letter _ c .. => c
  | .byte c => c
  | .unit c => c
  | .number c => c
  | .symbol c _ => c

inductive Builtin where
  | newline
  | set (name : Text) (p : Pattern) (h : Pattern.namedSet? name = some p)
  | category (c : Category)
  | ident
  | escape (e : Escape)

def Builtin.text : Builtin → Text
  | .newline => ['n']
  | .set name .. => name
  | .category c => Text.ofString c.kind.name
  | .ident => Text.ofString "ident"
  | .escape e => e.text

inductive Atom where
  | literal (how : Comparison) (t : Text)
  | set (members : RuneSet) (negated : Bool)
  | any
  | anyRune
  | startAnchor
  | endAnchor
  /-- Captures are counted from one. -/
  | backref (how : Comparison) (number : Nat)
  | builtin (b : Builtin)

def Atom.text : Atom → Text
  | .literal how t => Pattern.Comparison.mark how ++ Text.asLiteral t
  | .set members negated => Text.asClass members.ranges negated
  | .any => ['.']
  | .anyRune => ['_']
  | .startAnchor => ['^']
  | .endAnchor => ['$']
  | .backref how number => Pattern.Comparison.mark how ++ '$'.toNat :: Text.numeral number
  | .builtin b => '\\' :: b.text

inductive Operator where
  | peek | not | search

inductive Suffix where
  | opt | star | plus

inductive Sign where
  | operator (o : Operator)
  | suffix (s : Suffix)
  | captured
  | skip
  | slash
  | openGroup
  | closeGroup
  | openCapture
  | closeCapture

def Sign.text : Sign → Text
  | .operator .peek => ['&']
  | .operator .not => ['!']
  | .operator .search => ['@']
  | .suffix .opt => ['?']
  | .suffix .star => ['*']
  | .suffix .plus => ['+']
  | .captured => ['{', '@', '}']
  | .skip => '\\' :: Text.ofString "skip"
  | .slash => ['/']
  | .openGroup => ['(']
  | .closeGroup => [')']
  | .openCapture => ['{']
  | .closeCapture => ['}']

inductive Lexeme where
  | sign (s : Sign)
  | atom (a : Atom)
  | name (n : Name)
  /-- The name of a rule and the arrow behind it. -/
  | header (n : Name)

/-- How a token is written. Only blanks may stand before an arrow. -/
def Lexeme.Spells : Lexeme → Text → Prop
  | .sign s, t => t = s.text
  | .atom a, t => t = a.text
  | .name n, t => t = n.text
  | .header n, t => ∃ gap, (∀ c ∈ gap, isSpace c) ∧ t = n.text ++ (gap ++ ['<'.toNat, '-'.toNat])

def Lexeme.isClosed : Lexeme → Bool
  | .sign .openCapture | .sign .skip => false
  | .sign _ => true
  | .atom .endAnchor | .atom (.backref ..) | .atom (.builtin _) => false
  | .atom _ => true
  | .name _ => false
  | .header _ => true

structure Boundary (t : Text) : Prop where
  head : ∀ c ∈ t.head?, ¬ isNameRune c ∧ ¬ isQuote c ∧ c ≠ '$'.toNat ∧ c ≠ '@'.toNat
  arrow : (t.dropWhile isSpace).head? ≠ some '<'.toNat

/-- Whether a token ends where the rest of the text starts. A brace that opens a capture does if it
is not the first of `{@}`. -/
def Lexeme.EndsBefore (l : Lexeme) (rest : Text) : Prop :=
  l.isClosed ∨ Boundary rest ∨ l = .sign .openCapture ∧ ¬ ['@'.toNat, '}'.toNat] <+: rest

theorem Lexeme.EndsBefore.boundary {l : Lexeme} {rest : Text} (h : l.EndsBefore rest)
    (hc : ¬ l.isClosed) (ho : l ≠ .sign .openCapture) : Boundary rest :=
  (h.resolve_left hc).resolve_right fun h => ho h.1

/-- Blanks, line breaks and comments up to the end of a line. -/
inductive Layout : Text → Prop where
  | nil : Layout []
  | blank {c : Nat} {t : Text} (h : isSpace c) (ht : Layout t) : Layout (c :: t)
  | comment {body t : Text} (h : '\n'.toNat ∉ body) (ht : Layout t) :
      Layout ('#'.toNat :: (body ++ '\n'.toNat :: t))

inductive Stream : List Lexeme → Text → Prop where
  | nil {gap : Text} (h : Layout gap) : Stream [] gap
  | cons {gap t rest : Text} {l : Lexeme} {ls : List Lexeme} (h : Layout gap) (spells : l.Spells t)
      (apart : l.EndsBefore rest) (more : Stream ls rest) : Stream (l :: ls) (gap ++ (t ++ rest))

/-- Tokens with layout between any two of them. -/
inductive Printed : List Lexeme → Text → Prop where
  | nil : Printed [] []
  | one {l : Lexeme} {t : Text} (spells : l.Spells t) : Printed [l] t
  | cons {l : Lexeme} {ls : List Lexeme} {t gap rest : Text} (spells : l.Spells t) (h : Layout gap)
      (apart : gap ≠ []) (more : Printed ls rest) : Printed (l :: ls) (t ++ (gap ++ rest))

mutual

inductive Primary where
  | atom (a : Atom)
  | name (n : Name)
  | group (e : Expression)
  | capture (e : Expression)

inductive Item where
  | operator (o : Operator) (x : Item)
  | captured (x : Item)
  | skip (x : Item)
  | suffixed (p : Primary) (suffixes : List Suffix)

inductive Expression where
  | mk (first : List Item) (others : List (List Item))

end

structure Declaration where
  name : Name
  body : Expression

inductive Document where
  | expression (e : Expression)
  | grammar (start : Declaration) (others : List Declaration)

mutual

def Primary.lexemes : Primary → List Lexeme
  | .atom a => [.atom a]
  | .name n => [.name n]
  | .group e => .sign .openGroup :: (e.lexemes ++ [.sign .closeGroup])
  | .capture e => .sign .openCapture :: (e.lexemes ++ [.sign .closeCapture])

def Item.lexemes : Item → List Lexeme
  | .operator o x => .sign (.operator o) :: x.lexemes
  | .captured x => .sign .captured :: x.lexemes
  | .skip x => .sign .skip :: x.lexemes
  | .suffixed p suffixes => p.lexemes ++ suffixes.map fun s => .sign (.suffix s)

def Expression.lexemes : Expression → List Lexeme
  | .mk first others => itemLexemes first ++ otherLexemes others

def itemLexemes : List Item → List Lexeme
  | [] => []
  | x :: xs => x.lexemes ++ itemLexemes xs

def otherLexemes : List (List Item) → List Lexeme
  | [] => []
  | xs :: others => .sign .slash :: (itemLexemes xs ++ otherLexemes others)

end

def Declaration.lexemes (d : Declaration) : List Lexeme :=
  .header d.name :: d.body.lexemes

def Document.lexemes : Document → List Lexeme
  | .expression e => e.lexemes
  | .grammar start others => (start :: others).flatMap Declaration.lexemes

def Document.declared : Document → List Name
  | .expression _ => []
  | .grammar start others => (start :: others).map Declaration.name

def Lexeme.opens : Lexeme → Nat
  | .sign .openCapture | .sign .captured => 1
  | _ => 0

def opens (ls : List Lexeme) : Nat :=
  (ls.map Lexeme.opens).sum

/-- Whether a token may stand behind `opened` captures, where only the names of `declared` may be
used. A number must be short enough to be written. -/
def Lexeme.Fits (capacity : Int) (declared : List Name) (opened : Nat) : Lexeme → Prop
  | .sign .openCapture | .sign .captured => opened < capacity
  | .atom (.backref _ number) =>
    1 ≤ number ∧ number ≤ opened ∧ (Text.numeral number).length ≤ Text.mostDigits
  | .name n => n ∈ declared
  | _ => True

def Fit (capacity : Int) (declared : List Name) : Nat → List Lexeme → Prop
  | _, [] => True
  | opened, l :: ls => l.Fits capacity declared opened ∧ Fit capacity declared (opened + l.opens) ls

/-- Every rule is declared once, and every name, back reference and capture has its place. -/
structure Document.Valid (d : Document) (capacity : Int) : Prop where
  distinct : d.declared.Nodup
  fit : Fit capacity d.declared 0 d.lexemes

/-- What building a pattern changes. Rules are numbered in the order in which they are first
named. -/
structure Bench where
  store : Store
  names : List (Text × Nat) := []
  opened : Nat := 0
  /-- What may stand before every token. -/
  skip : Pattern := .empty

abbrev Build := StateM Bench

namespace Build

def fresh : Build Nat :=
  modifyGet fun b =>
    (b.store.fresh, { b with store := { b.store with fresh := b.store.fresh + 1 } })

def skipping (p : Pattern) : Build Pattern := do
  match (← get).skip with
  | .empty => return p
  | skip => return .seq (← fresh) [skip, p]

def openCapture : Build Nat :=
  modifyGet fun b => (b.opened, { b with opened := b.opened + 1 })

def captureId (slot : Nat) : Build Nat := do
  let id ← fresh
  modify fun b => { b with store := b.store.setSlot id slot }
  return id

def ruleNamed (name : Text) : Build Nat := do
  let b ← get
  match b.names.lookup name with
  | some r => return r
  | none =>
    let (r, store) := b.store.addRule { name := name }
    set { b with store := store, names := b.names ++ [(name, r)] }
    return r

def modifyRule (r : Nat) (f : Rule → Rule) : Build Unit :=
  modify fun b => { b with store := b.store.modifyRule r f }

end Build

def Operator.wrap : Operator → Nat → Pattern → Pattern
  | .peek => .peek
  | .not => .not
  | .search => .search

def Suffix.build (p : Pattern) : Suffix → Build Pattern
  | .opt => return .opt (← Build.fresh) p
  | .star => return .repeated (← Build.fresh) p
  | .plus => do
    let starId ← Build.fresh
    return .plus starId (← Build.fresh) p

def Builtin.build : Builtin → Build Pattern
  | .newline => return .newline
  | .set _ p _ => return p
  | .category c => return .category c
  | .ident => do
    let setId ← Build.fresh
    let starId ← Build.fresh
    return .ident setId starId (← Build.fresh)
  | .escape e => return .char (← Build.fresh) e.rune

def Atom.build : Atom → Build Pattern
  | .literal how t => return .text (← Build.fresh) how t
  | .set members negated => return .set (← Build.fresh) members (.ofBool negated)
  | .any => return .any
  | .anyRune => return .anyRune
  | .startAnchor => return .startAnchor
  | .endAnchor => return .endAnchor (← Build.fresh)
  | .backref how number => return .backref (← Build.fresh) how (number - 1)
  | .builtin b => b.build

section

variable (inline : Store → Nat → Option Pattern)

def Name.build (n : Name) : Build Pattern := do
  let r ← Build.ruleNamed n.text
  Build.modifyRule r fun rule => { rule with used := true }
  match inline (← get).store r with
  | some body => return body
  | none => return .call (← Build.fresh) r

mutual

def Primary.build : Primary → Build Pattern
  | .atom a => do Build.skipping (← a.build)
  | .name n => n.build inline
  | .group e => e.build
  | .capture e => do
    let slot ← Build.openCapture
    let p ← e.build
    return .capture (← Build.captureId slot) p

def Item.build : Item → Build Pattern
  | .operator o x => do
    let p ← x.build
    return o.wrap (← Build.fresh) p
  | .captured x => do
    let slot ← Build.openCapture
    let p ← x.build
    Build.skipping (.capturedSearch (← Build.captureId slot) p)
  | .skip x => do
    let p ← x.build
    modify fun b => { b with skip := p }
    return .empty
  | .suffixed p suffixes => do suffixes.foldlM Suffix.build (← p.build)

def Expression.build : Expression → Build Pattern
  | .mk first others => do
    let ps ← buildItems first
    let p := .seq (← Build.fresh) ps
    let ps ← buildOthers others
    return .alt (← Build.fresh) p ps

def buildItems : List Item → Build (List Pattern)
  | [] => return []
  | x :: xs => do
    let p ← x.build
    return p :: (← buildItems xs)

def buildOthers : List (List Item) → Build (List Pattern)
  | [] => return []
  | xs :: others => do
    let ps ← buildItems xs
    let p := .seq (← Build.fresh) ps
    return p :: (← buildOthers others)

end

def Declaration.build (d : Declaration) : Build (Nat × Nat) := do
  let r ← Build.ruleNamed d.name.text
  let p ← d.body.build inline
  Build.modifyRule r fun rule => { rule with declared := true, body := some p }
  return (← Build.fresh, r)

def Document.build : Document → Build Pattern
  | .expression e => e.build inline
  | .grammar start others => do
    let start ← start.build inline
    let others ← others.mapM (Declaration.build inline)
    return .grammar (← Build.fresh) start others

end

end PegMatch.Grammar

import PegMatch.Datum
import PegMatch.Fault
import PegMatch.RuneSet
import PegMatch.Text.Position

set_option autoImplicit false

/-! Patterns are trees of nodes. A node that takes parameters carries an identity: the same node may
stand in several places, and then its captures share a slot and a repetition of it is written with
`+`. Rules stand in a store beside the tree, so that they may call each other. -/

namespace PegMatch

inductive Category where
  | letter | lower | upper | title | white
  deriving Repr, DecidableEq

/-- How a literal or a back reference is compared with the subject. -/
inductive Comparison where
  | exact
  | ignoreCase
  /-- Ignores case and underscores. -/
  | ignoreStyle
  deriving Repr, DecidableEq

/-- Which characters a set matches: its members or the others. A set that is told neither matches
every character, and differs from sets that are told another value. -/
inductive Sense where
  | members
  | others
  | all (told : Datum)
  deriving Repr, Inhabited

namespace Sense

def ofBool (negated : Bool) : Sense :=
  if negated then .others else .members

def ofDatum (d : Datum) : Sense :=
  match d.int? with
  | some 0 => .members
  | some 1 => .others
  | _ => .all d

def admits : Sense → Bool → Bool
  | .members, isMember => isMember
  | .others, isMember => !isMember
  | .all _, _ => true

def isNegated : Sense → Bool
  | .members => false
  | .others => true
  | .all told => told.holds

def same : Sense → Sense → Bool
  | .members, .members => true
  | .others, .others => true
  | .all d, .all e => d.same e
  | _, _ => false

end Sense

/-- What may be given where a text or a pattern is wanted. -/
inductive Value (α : Type) where
  | pattern (p : α)
  | rule (r : Nat)
  | datum (d : Datum)
  deriving Repr, Inhabited

inductive Pattern where
  | empty
  | any
  | anyRune
  | newline
  | startAnchor
  | category (c : Category)
  | literal (id : Nat) (how : Comparison) (text : Text)
  /-- A literal of something that is no text. It can be shown and compared, but not written or
  matched. -/
  | valued (id : Nat) (how : Comparison) (value : Value Pattern)
  | char (id : Nat) (c : Nat)
  | set (id : Nat) (members : RuneSet) (sense : Sense)
  | call (id : Nat) (rule : Nat)
  | sequence (id : Nat) (items : List Pattern)
  | choice (id : Nat) (items : List Pattern)
  | star (id : Nat) (body : Pattern)
  | starChar (id : Nat) (c : Nat)
  | starSet (id : Nat) (members : RuneSet) (sense : Sense)
  | starAny
  | option (id : Nat) (body : Pattern)
  | peek (id : Nat) (body : Pattern)
  | not (id : Nat) (body : Pattern)
  | search (id : Nat) (body : Pattern)
  | capture (id : Nat) (body : Pattern)
  /-- Captures the text that the search skips. -/
  | capturedSearch (id : Nat) (body : Pattern)
  /-- Slots count from zero. -/
  | backref (id : Nat) (how : Comparison) (slot : Nat)
  | rule (id : Nat) (rule : Nat)
  /-- Rule nodes, each with its identity and its rule; the first rule is the one that matches. -/
  | grammar (id : Nat) (start : Nat × Nat) (others : List (Nat × Nat))
  deriving Repr, Inhabited

inductive Kind where
  | empty | any | anyRune | newline | letter | lower | upper | title | white
  | literal | literalIgnoreCase | literalIgnoreStyle | char | set | call | sequence | choice
  | star | starChar | starSet | starAny | option | peek | not | capture
  | backref | backrefIgnoreCase | backrefIgnoreStyle | search | capturedSearch
  | rule | grammar | startAnchor
  deriving Repr, DecidableEq

namespace Kind

def name : Kind → String
  | .empty => "empty"
  | .any => "any"
  | .anyRune => "anyrune"
  | .newline => "newline"
  | .letter => "letter"
  | .lower => "lower"
  | .upper => "upper"
  | .title => "title"
  | .white => "white"
  | .literal => "terminal"
  | .literalIgnoreCase => "terminal_i"
  | .literalIgnoreStyle => "terminal_y"
  | .char => "char"
  | .set => "charset"
  | .call => "nonterminal"
  | .sequence => "sequence"
  | .choice => "choice"
  | .star => "greedy_rep"
  | .starChar => "greedy_rep_char"
  | .starSet => "greedy_rep_set"
  | .starAny => "greedy_any"
  | .option => "option"
  | .peek => "and"
  | .not => "not"
  | .capture => "capture"
  | .backref => "backref"
  | .backrefIgnoreCase => "backref_i"
  | .backrefIgnoreStyle => "backref_y"
  | .search => "search"
  | .capturedSearch => "captured_search"
  | .rule => "rule"
  | .grammar => "list"
  | .startAnchor => "start_anchor"

def all : List Kind :=
  [.empty, .any, .anyRune, .newline, .letter, .lower, .upper, .title, .white, .literal,
    .literalIgnoreCase, .literalIgnoreStyle, .char, .set, .call, .sequence, .choice, .star,
    .starChar, .starSet, .starAny, .option, .peek, .not, .capture, .backref, .backrefIgnoreCase,
    .backrefIgnoreStyle, .search, .capturedSearch, .rule, .grammar, .startAnchor]

def ofName? (s : String) : Option Kind :=
  all.find? fun k => k.name == s

end Kind

def Category.kind : Category → Kind
  | .letter => .letter
  | .lower => .lower
  | .upper => .upper
  | .title => .title
  | .white => .white

namespace Pattern

def kind : Pattern → Kind
  | .empty => .empty
  | .any => .any
  | .anyRune => .anyRune
  | .newline => .newline
  | .startAnchor => .startAnchor
  | .category c => c.kind
  | .literal _ .exact _ | .valued _ .exact _ => .literal
  | .literal _ .ignoreCase _ | .valued _ .ignoreCase _ => .literalIgnoreCase
  | .literal _ .ignoreStyle _ | .valued _ .ignoreStyle _ => .literalIgnoreStyle
  | .char .. => .char
  | .set .. => .set
  | .call .. => .call
  | .sequence .. => .sequence
  | .choice .. => .choice
  | .star .. => .star
  | .starChar .. => .starChar
  | .starSet .. => .starSet
  | .starAny => .starAny
  | .option .. => .option
  | .peek .. => .peek
  | .not .. => .not
  | .search .. => .search
  | .capture .. => .capture
  | .capturedSearch .. => .capturedSearch
  | .backref _ .exact _ => .backref
  | .backref _ .ignoreCase _ => .backrefIgnoreCase
  | .backref _ .ignoreStyle _ => .backrefIgnoreStyle
  | .rule .. => .rule
  | .grammar .. => .grammar

/-- Nodes without parameters and the named sets exist once; identities below this one are theirs. -/
def firstFresh : Nat := 32

def id : Pattern → Nat
  | .empty => 0
  | .any => 1
  | .anyRune => 2
  | .newline => 3
  | .startAnchor => 4
  | .category .letter => 5
  | .category .lower => 6
  | .category .upper => 7
  | .category .title => 8
  | .category .white => 9
  | .starAny => 10
  | .literal i _ _ | .valued i _ _ | .char i _ | .set i _ _ | .call i _ | .sequence i _ | .choice
      i _ | .star i _
  | .starChar i _ | .starSet i _ _ | .option i _ | .peek i _ | .not i _ | .search i _
  | .capture i _ | .capturedSearch i _ | .backref i _ _ | .rule i _ | .grammar i _ _ => i

def sort : Pattern → String
  | .empty => "Empty"
  | .any => "AnyChar"
  | .anyRune => "AnyRune"
  | .newline => "Newline"
  | .startAnchor => "StartAnchor"
  | .category _ => "Category"
  | .literal .. | .valued .. => "Terminal"
  | .char .. => "Char"
  | .set .. => "CharSet"
  | .call .. => "Call"
  | .sequence .. => "Seq"
  | .choice .. => "Or"
  | .star .. => "Star"
  | .starChar .. => "StarChar"
  | .starSet .. => "StarSet"
  | .starAny => "StarAny"
  | .option .. => "Opt"
  | .peek .. => "Peek"
  | .not .. => "Not"
  | .search .. => "Search"
  | .capture .. => "Capture"
  | .capturedSearch .. => "CapturedSearch"
  | .backref .. => "BackRef"
  | .rule .. => "RuleDef"
  | .grammar .. => "RuleList"

def same (p q : Pattern) : Bool :=
  p.id == q.id

def isRepeat : Pattern → Bool
  | .star .. | .starChar .. | .starSet .. | .starAny => true
  | _ => false

/-- Whether the node is written as a prefix operator, which binds looser than a suffix. -/
def isPrefixed : Pattern → Bool
  | .peek .. | .not .. | .search .. | .capturedSearch .. => true
  | _ => false

end Pattern

def Value.sort : Value Pattern → String
  | .pattern p => p.sort
  | .rule _ => "NonTerminal"
  | .datum d => d.sort

/-- A named rule. It is declared once its body is given, and used once something calls it. What
stands in a grammar without being a rule is not proper: it has no name, and a body only if it wraps
one. -/
structure Rule where
  name : Text
  proper : Bool := true
  place : Position := ⟨0, 0⟩
  declared : Bool := false
  used : Bool := false
  body : Option Pattern := none
  deriving Repr, Inhabited

/-- All that is known of nodes beside the trees: the rules, the slots of captures and, for patterns
whose captures have been numbered, how many slots they take. -/
structure Store where
  fresh : Nat := Pattern.firstFresh
  rules : Array Rule := #[]
  slots : List (Nat × Nat) := []
  counts : List (Nat × Nat) := []
  deriving Repr, Inhabited

namespace Store

def slot? (s : Store) (id : Nat) : Option Nat :=
  s.slots.lookup id

def count? (s : Store) (p : Pattern) : Option Nat :=
  s.counts.lookup p.id

def setSlot (s : Store) (id slot : Nat) : Store :=
  { s with slots := (id, slot) :: s.slots }

def setCount (s : Store) (p : Pattern) (n : Nat) : Store :=
  { s with counts := (p.id, n) :: s.counts }

def rule (s : Store) (r : Nat) : Rule :=
  s.rules[r]?.getD { name := [] }

def ruleName (s : Store) (r : Nat) : Except Fault Text :=
  let rule := s.rule r
  if rule.proper then .ok rule.name else .error .notRule

def body? (s : Store) (r : Nat) : Except Fault (Option Pattern) :=
  let rule := s.rule r
  if rule.proper || rule.body.isSome then .ok rule.body else .error .notRule

def modifyRule (s : Store) (rule : Nat) (f : Rule → Rule) : Store :=
  { s with rules := s.rules.modify rule f }

def addRule (s : Store) (r : Rule) : Nat × Store :=
  (s.rules.size, { s with rules := s.rules.push r })

end Store

end PegMatch

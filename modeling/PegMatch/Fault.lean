import PegMatch.Misuse
import PegMatch.Text.Decimal

set_option autoImplicit false

namespace PegMatch

inductive Fault where
  /-- Patterns or calls nest without end, or deeper than allowed. -/
  | endless
  /-- A rule node is entered whose rule has no body. -/
  | bodiless
  /-- Something that is no rule stands in the place of one. -/
  | notRule
  | undefinedRule (name : Text)
  /-- A capture matched that has no slot yet. -/
  | unnumbered
  | slotOutside (slot : Int)
  | noSuchSlot
  | positionOutside
  /-- A number beyond all positions and slots. -/
  | unindexable
  | journalEmpty
  | negativeCapacity
  /-- More slots than can be counted. -/
  | uncountable
  | outOfMemory
  | number (e : NumeralError)
  | misuse (m : Misuse)
  deriving Repr, DecidableEq

namespace Fault

def message : Fault → String
  | .endless => "nesting without end"
  | .bodiless => "rule without a body"
  | .notRule => "not a rule"
  | .undefinedRule name => s!"Rule {(Text.quoted name).string} has no definition"
  | .unnumbered => "'<=' not supported between instances of 'int' and 'NoneType'"
  | .slotOutside slot => s!"capture index {slot} out of range"
  | .noSuchSlot => "list index out of range"
  | .positionOutside => "string index out of range"
  | .unindexable => "cannot fit 'int' into an index-sized integer"
  | .journalEmpty => "pop from empty list"
  | .negativeCapacity => "__len__() should return >= 0"
  | .uncountable => "too many slots to count"
  | .outOfMemory => "too many slots for the memory"
  | .number e => e.message
  | .misuse m => m.message

def isIndex (i : Int) : Bool :=
  -Int.ofNat (Nat.pow 2 63) ≤ i && i < Int.ofNat (Nat.pow 2 63)

def ofPosition (i : Int) : Fault :=
  if isIndex i then .positionOutside else .unindexable

def ofSlot (slot : Int) : Fault :=
  if isIndex slot then .noSuchSlot else .unindexable

end Fault

end PegMatch

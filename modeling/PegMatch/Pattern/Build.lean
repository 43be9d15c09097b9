import PegMatch.Pattern.Basic

set_option autoImplicit false

/-! Construction of patterns. Each function returns the simplest node with the meaning asked for and
takes identities for the nodes that it may make. -/

namespace PegMatch.Pattern

def term (id : Nat) : Text → Pattern
  | [] => .empty
  | [c] => .char id c
  | t => .literal id .exact t

/-- A literal compared as asked; an exact one of a single code point becomes a character. -/
def text (id : Nat) (how : Comparison) (t : Text) : Pattern :=
  match how with
  | .exact => term id t
  | how => if t.isEmpty then .empty else .literal id how t

def sequenceItems : Pattern → List Pattern
  | .sequence _ items => items
  | .empty => []
  | p => [p]

def seq (id : Nat) (items : List Pattern) : Pattern :=
  match items.flatMap sequenceItems with
  | [] => .empty
  | [p] => p
  | ps => .sequence id ps

def choiceItems : Pattern → List Pattern
  | .choice _ items => items
  | p => [p]

/-- The characters of a pattern that is no more than a choice of characters. -/
def characters? : Pattern → Option RuneSet
  | .char _ c => some (RuneSet.empty.insert c)
  | .set _ s sense => if sense.isNegated then none else some s
  | _ => none

def alt (id : Nat) (first : Pattern) (others : List Pattern) : Pattern :=
  match (first :: others).flatMap choiceItems with
  | [p] => p
  | ps =>
    match ps.mapM characters? with
    | some sets => .set id (sets.foldl RuneSet.union .empty) .members
    | none => .choice id ps

def repeated (id : Nat) : Pattern → Pattern
  | .char _ c => .starChar id c
  | .set _ s sense => .starSet id s sense
  | .any => .starAny
  | .anyRune => .starAny
  | .star i p => .star i p
  | .starChar i c => .starChar i c
  | .starSet i s sense => .starSet i s sense
  | .starAny => .starAny
  | .option _ p => repeated id p
  | p => .star id p

/-- One or more times. The operand stands in the sequence and in the repetition. -/
def plus (starId id : Nat) (p : Pattern) : Pattern :=
  seq id [p, repeated starId p]

def opt (id : Nat) (p : Pattern) : Pattern :=
  match p with
  | .option .. => p
  | p => if p.isRepeat then p else .option id p

def endAnchor (id : Nat) : Pattern :=
  .not id .any

def letters : RuneSet :=
  (RuneSet.empty.insertRange 'a' 'z').insertRange 'A' 'Z'

def digits : RuneSet :=
  RuneSet.empty.insertRange '0' '9'

def wordRunes : RuneSet :=
  (letters.union digits).insert '_'

def spaces : RuneSet :=
  (RuneSet.empty.insertRange 9 13).insert ' '

def namedSet? (name : Text) : Option Pattern :=
  match name with
  | ['d'] => some (.set 11 digits .members)
  | ['D'] => some (.set 12 digits .others)
  | ['s'] => some (.set 13 spaces .members)
  | ['S'] => some (.set 14 spaces .others)
  | ['w'] => some (.set 15 wordRunes .members)
  | ['W'] => some (.set 16 wordRunes .others)
  | ['a'] => some (.set 17 letters .members)
  | ['A'] => some (.set 18 letters .others)
  | _ => none

def ident (setId starId id : Nat) : Pattern :=
  seq id [.set setId (letters.insert '_') .members, repeated starId (.set setId wordRunes .members)]

end PegMatch.Pattern

import PegMatch.Text.Position
import PegMatch.Text.Quoted

set_option autoImplicit false

namespace PegMatch

inductive Mistake where
  | expected (wanted : Text)
  | unclosed (wanted opener : Text)
  | unbalanced (c : Nat)
  | endExpected (c : Nat)
  | ruleExpected (c : Nat)
  | expressionExpected (c : Nat)
  | expressionExpectedAtEnd
  | undeclared (name : Text)
  | redefined (name : Text)
  | tooManyCaptures (maximum : Int)
  | badReference
  | badReferenceNumber (number : Nat)
  | badEscape
  | unterminatedLiteral
  | unterminatedClass
  | badRange
  | unknownBuiltin (name : Text)
  deriving Repr, DecidableEq

namespace Mistake

def shown (t : Text) : String :=
  (Text.quoted t).string

def message : Mistake → String
  | .expected wanted => s!"{shown wanted} expected"
  | .unclosed wanted opener => s!"{shown wanted} expected to match {shown opener}"
  | .unbalanced c => s!"unbalanced {shown [c]}"
  | .endExpected c => s!"EOF expected, but found {shown [c]}"
  | .ruleExpected c => s!"rule definition expected, but found {shown [c]}"
  | .expressionExpected c => s!"expression expected, but found {shown [c]}"
  | .expressionExpectedAtEnd => "expression expected, but found end of input"
  | .undeclared name => s!"undeclared identifier: {name.string}"
  | .redefined name => s!"attempt to redefine: {name.string}"
  | .tooManyCaptures maximum => s!"too many captures (the maximum is {maximum})"
  | .badReference => "invalid back reference"
  | .badReferenceNumber number => s!"invalid back reference index: {number}"
  | .badEscape => "invalid escape sequence"
  | .unterminatedLiteral => "unterminated string literal"
  | .unterminatedClass => "unterminated character class"
  | .badRange => "invalid range in character class"
  | .unknownBuiltin name => s!"unknown built-in: {name.string}"

end Mistake

/-- A mistake with the name of the text it stands in, and its place. -/
structure GrammarError where
  mistake : Mistake
  file : String := "pattern"
  place : Position := ⟨0, 0⟩
  deriving Repr, DecidableEq

def GrammarError.message (e : GrammarError) : String :=
  s!"{e.file}({e.place.line},{e.place.column}) {e.mistake.message}"

end PegMatch

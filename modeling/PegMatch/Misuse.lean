set_option autoImplicit false

namespace PegMatch

inductive Misuse where
  | unsized (sort : String)
  | notIterable (sort : String)
  /-- Nothing can be looked for in such a value. -/
  | notContainer (sort : String)
  /-- Only a text can be looked for in a text. -/
  | notSubstring (sort : String)
  /-- The value cannot be a key. -/
  | unhashable (sort : String)
  | unordered (operator left right : String)
  | unsupported (operator left right : String)
  /-- Texts are joined with texts only, and lists with lists. -/
  | notJoinable (left right : String)
  /-- How often something is repeated must be an integer. -/
  | notTimes (sort : String)
  | notInteger (sort : String)
  | notIndex (sort : String)
  | tooManyArguments (operation : String) (least most given : Nat)
  | missingArguments (operation : String) (arguments : List String)
  deriving Repr, DecidableEq

namespace Misuse

def takes (least most : Nat) : String :=
  if least < most then s!"from {least} to {most} positional arguments"
  else if most = 1 then "1 positional argument"
  else s!"{most} positional arguments"

def enumerated : List String → String
  | [] => ""
  | [a] => s!"'{a}'"
  | [a, b] => s!"'{a}' and '{b}'"
  | names =>
    let quoted := names.map fun a => s!"'{a}'"
    String.intercalate ", " quoted.dropLast ++ ", and " ++ quoted.getLast?.getD ""

/-- What is wrong with a number of arguments for an operation that takes those with these names, the
first ones of which must be given. An operation on an object counts the object too. -/
def ofCount? (operation : String) (object : Nat) (required optional : List String) (given : Nat) :
    Option Misuse :=
  let least := required.length
  let most := least + optional.length
  if most < given then
    some (.tooManyArguments operation (object + least) (object + most) (object + given))
  else if given < least then some (.missingArguments operation (required.drop given))
  else none

def message : Misuse → String
  | .unsized sort => s!"object of type '{sort}' has no len()"
  | .notIterable sort => s!"'{sort}' object is not iterable"
  | .notContainer sort => s!"argument of type '{sort}' is not iterable"
  | .notSubstring sort => s!"'in <string>' requires string as left operand, not {sort}"
  | .unhashable sort => s!"unhashable type: '{sort}'"
  | .unordered operator left right =>
    s!"'{operator}' not supported between instances of '{left}' and '{right}'"
  | .unsupported operator left right =>
    s!"unsupported operand type(s) for {operator}: '{left}' and '{right}'"
  | .notJoinable left right => s!"can only concatenate {left} (not \"{right}\") to {left}"
  | .notTimes sort => s!"can't multiply sequence by non-int of type '{sort}'"
  | .notInteger sort => s!"'{sort}' object cannot be interpreted as an integer"
  | .notIndex sort => s!"list indices must be integers or slices, not {sort}"
  | .tooManyArguments operation least most given =>
    s!"{operation}() takes {takes least most} but {given} " ++
      (if given = 1 then "was given" else "were given")
  | .missingArguments operation arguments =>
    let noun := if arguments.length = 1 then "argument" else "arguments"
    s!"{operation}() missing {arguments.length} required positional {noun}: {enumerated arguments}"

end Misuse

end PegMatch

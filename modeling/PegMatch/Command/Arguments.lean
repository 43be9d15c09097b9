import PegMatch.Text.Basic

set_option autoImplicit false

/-! Arguments of a command line: options with one dash and a letter, which may be joined, or with
two dashes and a name; a value follows as the next argument or is attached. -/

namespace PegMatch.Arguments

structure Flag where
  name : Text
  letter : Option Nat := none
  /-- How many values the option takes. -/
  arity : Nat := 0

structure Parsed where
  /-- The options with their values, in the order given. -/
  options : List (Text × List Text) := []
  rest : List Text := []

namespace Parsed

def has (p : Parsed) (name : String) : Bool :=
  p.options.any fun o => o.1 == Text.ofString name

def all (p : Parsed) (name : String) : List (List Text) :=
  (p.options.filter fun o => o.1 == Text.ofString name).map Prod.snd

def last? (p : Parsed) (name : String) : Option Text :=
  (p.all name).getLast?.bind List.head?

end Parsed

/-- Takes the values of an option from what is attached to it and the arguments after it. -/
def takeValues (arity : Nat) (attached : List Text) (args : List Text) :
    Option (List Text × List Text) :=
  let pool := attached ++ args
  if pool.length < arity then none else some (pool.take arity, pool.drop arity)

def letters (flags : List Flag) (args : List Text) :
    Text → Option (List (Text × List Text) × List Text)
  | [] => some ([], args)
  | c :: cs => do
    let flag ← flags.find? fun f => f.letter == some c
    if flag.arity = 0 then
      let (more, left) ← letters flags args cs
      some ((flag.name, []) :: more, left)
    else
      let (values, left) ← takeValues flag.arity (if cs.isEmpty then [] else [cs]) args
      some ([(flag.name, values)], left)

def long (flags : List Flag) (args : List Text) (t : Text) :
    Option (List (Text × List Text) × List Text) := do
  let name := t.takeWhile (· != '='.toNat)
  let attached := (t.dropWhile (· != '='.toNat)).drop 1
  let isAttached := t.contains '='
  let flag ← flags.find? fun f => f.name == name
  if flag.arity = 0 then
    if isAttached then none else some ([(flag.name, [])], args)
  else
    let (values, left) ← takeValues flag.arity (if isAttached then [attached] else []) args
    some ([(flag.name, values)], left)

/-- Reads arguments; `mixed` says whether options may follow other arguments. Two dashes alone end
the options. Nothing is returned for an option that does not exist or lacks a value. At most `room`
arguments are read. -/
def parseFrom (flags : List Flag) (mixed : Bool) : Nat → List Text → Parsed → Option Parsed
  | 0, args, p => some { p with rest := p.rest ++ args }
  | _, [], p => some p
  | room + 1, arg :: args, p =>
    match arg with
    | ['-', '-'] => some { p with rest := p.rest ++ args }
    | '-' :: '-' :: name => do
      let (options, left) ← long flags args name
      parseFrom flags mixed room left { p with options := p.options ++ options }
    | '-' :: c :: cs => do
      let (options, left) ← letters flags args (c :: cs)
      parseFrom flags mixed room left { p with options := p.options ++ options }
    | arg =>
      if mixed then parseFrom flags mixed room args { p with rest := p.rest ++ [arg] }
      else some { p with rest := p.rest ++ arg :: args }

def parse (flags : List Flag) (mixed : Bool) (args : List Text) : Option Parsed :=
  parseFrom flags mixed args.length args {}

end PegMatch.Arguments

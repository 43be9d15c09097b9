import PegMatch.Text.Blank
import PegMatch.Text.Numeral
import PegMatch.Text.Position

set_option autoImplicit false

namespace PegMatch.Highlight

inductive Role where
  | text | whitespace | comment | function | operator | string | affix | classText | escape
  | reference | keyword | pseudo | punctuation | number | name | error
  deriving Repr, DecidableEq

structure Token where
  role : Role
  text : Text
  deriving Repr, DecidableEq

/-- Where a piece starts: outside, in a literal with the given quote, or in a class. -/
inductive Mode where
  | outside
  | literal (quote : Nat)
  | charClass
  deriving Repr, DecidableEq

/-- A rule that applies: the sort of the piece, how many code points after the first it takes, the
sorts and lengths of pieces that follow at once, and the mode after them. -/
structure Step where
  role : Role
  extra : Nat := 0
  more : List (Role × Nat) := []
  mode : Mode

def isLetter (c : Nat) : Bool :=
  ('a' ≤ c && c ≤ 'z') || ('A' ≤ c && c ≤ 'Z')

def isNameRune (c : Nat) : Bool :=
  isLetter c || Text.isAsciiDigit c || c == '_'

def isHex (c : Nat) : Bool :=
  (Text.hexDigitValue? c).isSome

def hexAhead (n : Nat) (t : Text) : Bool :=
  (t.take n).length == n && (t.take n).all isHex

/-- The length of an escape after its backslash; a backslash at the end of a line escapes
nothing. -/
def escapeLength? : Text → Option Nat
  | [] => none
  | c :: t =>
    if c == 'x' && hexAhead 2 t then some 3
    else if c == 'u' && hexAhead 4 t then some 5
    else if Text.isAsciiDigit c then some (1 + ((t.take 2).takeWhile Text.isAsciiDigit).length)
    else if c == '\n' then none
    else some 1

def builtinNames : List String :=
  ["letter", "upper", "lower", "title", "white", "ident", "skip"]

def builtinLength? (t : Text) : Option Nat :=
  match builtinNames.find? fun n => Text.startsWith (Text.ofString n) t with
  | some n => some n.length
  | none => escapeLength? t

/-- The head of a rule: the lengths of the rest of its name and of the blanks before its arrow. -/
def header? (c : Nat) (t : Text) : Option (Nat × Nat) :=
  let name := t.takeWhile isNameRune
  let blanks := (t.drop name.length).takeWhile Rune.isBlank
  if isLetter c && Text.startsWith ['<', '-'] (t.drop (name.length + blanks.length)) then
    some (name.length, blanks.length)
  else none

def referenceLength? (c : Nat) (t : Text) : Option Nat :=
  let digits (t : Text) : Nat := (t.takeWhile Text.isAsciiDigit).length
  if c == '$' && digits t != 0 then some (digits t)
  else if (c == 'i' || c == 'y') && t.head? == some '$'.toNat && digits (t.drop 1) != 0 then
    some (1 + digits (t.drop 1))
  else none

def isOperator (c : Nat) : Bool :=
  (Text.ofString "/&!@?*+^$").contains c

def isBracket (c : Nat) : Bool :=
  c == '(' || c == ')' || c == '{' || c == '}'

def wordRule (c : Nat) (t : Text) : Option Step :=
  if c == '{' && Text.startsWith ['@', '}'] t then
    some { role := .operator, extra := 2, mode := .outside }
  else if isOperator c then some { role := .operator, mode := .outside }
  else if c == '.' then some { role := .pseudo, mode := .outside }
  else if c == '_' && !t.head?.any isNameRune then some { role := .pseudo, mode := .outside }
  else if isBracket c then some { role := .punctuation, mode := .outside }
  else if Text.isAsciiDigit c then
    some { role := .number, extra := (t.takeWhile Text.isAsciiDigit).length, mode := .outside }
  else if isLetter c then
    some { role := .name, extra := (t.takeWhile isNameRune).length, mode := .outside }
  else none

def outsideRule (c : Nat) (t : Text) : Option Step :=
  if Rune.isBlank c then
    some { role := .text, extra := (t.takeWhile Rune.isBlank).length, mode := .outside }
  else if c == '#' then
    some { role := .comment, extra := (t.takeWhile (· != '\n'.toNat)).length, mode := .outside }
  else
    match header? c t with
    | some (name, blanks) =>
      some { role := .function, extra := name, more := [(.text, blanks), (.operator, 2)],
             mode := .outside }
    | none =>
      if (c == 'i' || c == 'v' || c == 'y') && t.head?.any
        (fun d : Nat => d == '\'' || d == '"') then
        some { role := .affix, mode := .outside }
      else if c == '\'' || c == '"' then some { role := .string, mode := .literal c }
      else if c == '[' then some { role := .classText, mode := .charClass }
      else
        match referenceLength? c t with
        | some n => some { role := .reference, extra := n, mode := .outside }
        | none =>
          if c == '\\' then
            (builtinLength? t).map fun n => { role := .keyword, extra := n, mode := .outside }
          else wordRule c t

/-- The rule that applies inside of what `close` ends, whose text is of the given role. -/
def insideRule (close : Nat) (role : Role) (mode : Mode) (c : Nat) (t : Text) : Option Step :=
  if c == close then some { role := role, mode := .outside }
  else if c == '\\' then
    (escapeLength? t).map fun n => { role := .escape, extra := n, mode := mode }
  else
    let run := t.takeWhile fun d : Nat => d != '\\' && d != close
    some { role := role, extra := run.length, mode := mode }

def rule? (mode : Mode) (c : Nat) (t : Text) : Option Step :=
  match mode with
  | .outside => outsideRule c t
  | .literal quote => insideRule quote .string mode c t
  | .charClass => insideRule ']' .classText mode c t

/-- What no rule takes is an error, and a line feed among that ends literals and classes. -/
def rule (mode : Mode) (c : Nat) (t : Text) : Step :=
  (rule? mode c t).getD
    (if c = '\n' then { role := .whitespace,
                        mode := .outside } else { role := .error, mode := mode })

/-- Cuts the following pieces off, and returns them with the rest. Empty ones are left out. -/
def cutMore : List (Role × Nat) → Text → List Token × Text
  | [], t => ([], t)
  | (role, n) :: more, t =>
    let (pieces, rest) := cutMore more (t.drop n)
    if (t.take n).isEmpty then (pieces, rest) else (⟨role, t.take n⟩ :: pieces, rest)

theorem length_cutMore (more : List (Role × Nat)) (t : Text) :
    (cutMore more t).2.length ≤ t.length := by
  induction more generalizing t with
  | nil => simp [cutMore]
  | cons m more ih =>
    have := ih (t.drop m.2)
    simp only [List.length_drop] at this
    simp only [cutMore]
    split <;> (dsimp only; omega)

def cut (mode : Mode) (t : Text) : List Token :=
  match t with
  | [] => []
  | c :: t =>
    let r := rule mode c t
    let after := cutMore r.more (t.drop r.extra)
    ⟨r.role, c :: t.take r.extra⟩ :: after.1 ++ cut r.mode after.2
termination_by t.length
decreasing_by
  have h := length_cutMore (rule mode c t).more (t.drop (rule mode c t).extra)
  simp only [List.length_drop] at h
  simp only [List.length_cons]
  omega

def trimLines (t : Text) : Text :=
  (((t.dropWhile (· == '\n'.toNat)).reverse.dropWhile (· == '\n'.toNat)).reverse) ++ ['\n'.toNat]

def tokens (source : Text) : List Token :=
  cut .outside (trimLines (Text.condition source))

end PegMatch.Highlight

import PegMatch.Failure
import PegMatch.Settings.Config
import PegMatch.Text.Name
import PegMatch.Text.Normal
import PegMatch.Text.Position

set_option autoImplicit false

/-! Configuration files: one `NAME = value` a line, where a value is a whole number, a quoted text,
or one of the words for true, false and nothing. A comment may follow. -/

namespace PegMatch.ConfigFile

def isSpace (c : Nat) : Bool :=
  c == ' ' || c == '\t'

def trim (t : Text) : Text :=
  ((t.dropWhile isSpace).reverse.dropWhile isSpace).reverse

def isOctal (c : Nat) : Bool :=
  '0' ≤ c && c ≤ '7'

/-- The code point with a hexadecimal numeral of fixed width at the front, and how much it takes
with the letter before it. -/
def coded? (width : Nat) (t : Text) : Option (Text × Nat) :=
  let digits := t.take width
  if digits.length = width then
    match Text.hexNumeralValue? digits with
    | some c => if c ≤ 0x10ffff then some ([c], width + 1) else none
    | none => none
  else none

def lettered? (c : Nat) : Option Nat :=
  match c with
  | '\\' => some '\\'
  | '\'' => some '\''
  | '"' => some '"'
  | 'a' => some 7
  | 'b' => some 8
  | 't' => some '\t'
  | 'n' => some '\n'
  | 'v' => some 11
  | 'f' => some 12
  | 'r' => some '\r'
  | _ => none

/-- What an escape after its backslash stands for, and how much it takes. A backslash before any
other code point stands for itself. -/
def escape? (t : Text) : Option (Text × Nat) :=
  match t with
  | [] => none
  | c :: rest =>
    if c = 'x' then coded? 2 rest
    else if c = 'u' then coded? 4 rest
    else if c = 'U' then coded? 8 rest
    else if isOctal c then
      let digits := (t.take 3).takeWhile isOctal
      some ([digits.foldl (fun n d => 8 * n + (d - '0'.toNat)) 0], digits.length)
    else
      match lettered? c with
      | some meaning => some ([meaning], 1)
      | none => some (['\\', c], 1)

/-- The inside of a quoted text up to its closing quote, and the rest after that. -/
def quotedBody? (quote : Nat) (t : Text) : Option (Text × Text) :=
  match t with
  | [] => none
  | c :: t =>
    if c = quote then some ([], t)
    else if c = '\\' then
      match escape? t with
      | none => none
      | some (meaning, taken) =>
        (quotedBody? quote (t.drop taken)).map fun r => (meaning ++ r.1, r.2)
    else (quotedBody? quote t).map fun r => (c :: r.1, r.2)
termination_by t.length
decreasing_by all_goals (simp only [List.length_drop, List.length_cons]; omega)

/-- A numeral has no zeros in front, and is not too long. -/
def isNumeral (t : Text) : Bool :=
  t.length ≤ Text.mostDigits && (t.head? != some '0'.toNat || t.all (· == '0'.toNat))

def number? (t : Text) : Option (Nat × Text) :=
  let digits := t.takeWhile Text.isAsciiDigit
  if isNumeral digits then some (Text.numeralValue digits, t.dropWhile Text.isAsciiDigit) else none

def word? (t : Text) : Option Datum :=
  if t = Text.ofString "True" then some (.bool true)
  else if t = Text.ofString "False" then some (.bool false)
  else if t = Text.ofString "None" then some .null
  else none

/-- What stands after an equals sign: a value and what follows it, something of another form, or a
value written wrongly. -/
inductive Reading where
  | value (d : Datum) (rest : Text)
  | other
  | wrong

def read (t : Text) : Reading :=
  match t with
  | [] => .other
  | c :: rest =>
    if c = '\'' ∨ c = '"' then
      match quotedBody? c rest with
      | some (body, rest) => .value (.text body) rest
      | none => .wrong
    else if Text.isAsciiDigit c then
      match number? t with
      | some (n, rest) => .value (.int n) rest
      | none => .wrong
    else if c = '-' ∧ (rest.head?.any Text.isAsciiDigit) then
      match number? rest with
      | some (n, rest) => .value (.int (-(n : Int))) rest
      | none => .wrong
    else
      let word := t.takeWhile fun c => !(isSpace c || c == '#')
      match word? word with
      | some d => .value d (t.drop word.length)
      | none => .other

def isEnd (t : Text) : Bool :=
  match t.dropWhile isSpace with
  | [] => true
  | c :: _ => c == '#'

def reserved : List String :=
  ["False", "None", "True", "and", "as", "assert", "async", "await", "break", "class", "continue",
    "def", "del", "elif", "else", "except", "finally", "for", "from", "global",
    "if", "import", "in", "is", "lambda", "nonlocal", "not", "or", "pass", "raise", "return", "try",
    "while", "with", "yield", "__debug__"]

def isName (t : Text) : Bool :=
  t.head?.any Rune.isNameStart && t.all Rune.isNameRune && !reserved.contains t.string

def entry? (line : Text) : Except Failure (Option (Text × Datum)) :=
  let name := trim (line.takeWhile (· != '='.toNat))
  match line.dropWhile (· != '='.toNat) with
  | [] => .ok none
  | _ :: value =>
    if isName name then
      match read (value.dropWhile isSpace) with
      | .value d rest => .ok (if isEnd rest then some (name, d) else none)
      | .other => .ok none
      | .wrong => .error .badSettings
    else .ok none

def lines : Text → List Text
  | [] => [[]]
  | c :: t =>
    match lines t with
    | l :: ls => if c = '\n' then [] :: l :: ls else (c :: l) :: ls
    | [] => [[c]]

/-- The settings of a file with these names and values. Names are read in their normal form. -/
def settings (entries : List (Text × Datum)) : Except Failure (List (Text × Datum)) :=
  if entries.all fun e => isName e.1 then .ok (entries.map fun e => (Text.normal e.1, e.2))
  else .error .badSettings

def entries (t : Text) : Except Failure (List (Text × Datum)) := do
  settings ((← (lines (Text.condition t)).mapM entry?).filterMap fun e => e)

end PegMatch.ConfigFile

import PegMatch.Grammar.Mistake
import PegMatch.Pattern.Build
import PegMatch.Text.Numeral

set_option autoImplicit false

/-! The tokens of pattern text. A reader takes the text ahead and returns what it read and the rest;
a mistake comes with the text at its place. -/

namespace PegMatch.Token

abbrev Trouble := Mistake × Text

def isSpace (c : Nat) : Bool :=
  c == ' ' || c == '\t' || c == '\r' || c == '\n'

def isLetter (c : Nat) : Bool :=
  ('a' ≤ c && c ≤ 'z') || ('A' ≤ c && c ≤ 'Z')

def isNameRune (c : Nat) : Bool :=
  isLetter c || Text.isAsciiDigit c || c == '_'

def isQuote (c : Nat) : Bool :=
  c == '\'' || c == '"'

def skipBlanks (inComment : Bool) : Text → Text
  | [] => []
  | c :: t =>
    if inComment then skipBlanks (c != '\n') t
    else if isSpace c then skipBlanks false t
    else if c = '#' then skipBlanks true t
    else c :: t

def name? : Text → Option (Text × Text)
  | [] => none
  | c :: t =>
    if isLetter c then some (c :: t.takeWhile isNameRune, t.dropWhile isNameRune) else none

def header? (t : Text) : Option (Text × Text) := do
  let (name, rest) ← name? t
  let rest ← Text.dropPrefix? ['<', '-'] (rest.dropWhile isSpace)
  some (name, rest)

def letterEscape? (c : Nat) : Option Nat :=
  if c = 'n' ∨ c = 'l' then some '\n'
  else if c = 'r' ∨ c = 'c' then some '\r'
  else if c = 't' then some '\t'
  else if c = 'f' then some '\x0c'
  else if c = 'v' then some '\x0b'
  else if c = 'a' then some '\x07'
  else if c = 'b' then some '\x08'
  else if c = 'e' then some '\x1b'
  else none

def hex? (width : Nat) (t : Text) : Option (Nat × Text) :=
  if (t.take width).length = width then
    (Text.hexNumeralValue? (t.take width)).map fun n => (n, t.drop width)
  else none

def decimal (t : Text) : Nat × Text :=
  let digits := (t.takeWhile Text.isAsciiDigit).take 3
  (Text.numeralValue digits, t.drop digits.length)

/-- What follows a backslash: a letter with a meaning, a number, or a code point that stands for
itself. -/
def escape? : Text → Option (Nat × Text)
  | [] => none
  | c :: t =>
    match letterEscape? c with
    | some e => some (e, t)
    | none =>
      if c = 'x' then hex? 2 t
      else if c = 'u' then hex? 4 t
      else if Text.isAsciiDigit c then some (decimal (c :: t))
      else if isLetter c then none
      else some (c, t)

theorem length_of_hex? {w n : Nat} {t r : Text} (h : hex? w t = some (n, r)) :
    r.length ≤ t.length := by
  simp only [hex?] at h
  split at h
  · simp only [Option.map_eq_some_iff, Prod.mk.injEq] at h
    obtain ⟨_, _, _, rfl⟩ := h
    simp
  · cases h

theorem length_of_escape? {t r : Text} {c : Nat} (h : escape? t = some (c, r)) :
    r.length < t.length := by
  cases t with
  | nil => simp [escape?] at h
  | cons a t =>
    simp only [escape?] at h
    split at h
    · cases h; simp
    · split at h
      · have := length_of_hex? h; simp; omega
      · split at h
        · have := length_of_hex? h; simp; omega
        · split at h
          · next digit =>
            simp only [decimal, Option.some.injEq, Prod.mk.injEq] at h
            obtain ⟨_, rfl⟩ := h
            simp only [List.takeWhile_cons, digit, if_true, List.take_succ_cons, List.length_cons,
              List.drop_succ_cons, List.length_drop]
            omega
          · split at h
            · cases h
            · cases h; simp

/-- The inside of a literal and its closing quote. In a verbatim literal a backslash stands for
itself. -/
def literalBody (quote : Nat) (verbatim : Bool) (start : Text) (t : Text) :
    Except Trouble (Text × Text) :=
  match t with
  | [] => .error (.unterminatedLiteral, start)
  | c :: t =>
    if c = quote then .ok ([], t)
    else if c = '\\' ∧ !verbatim then
      match h : escape? t with
      | none => .error (.badEscape, c :: t)
      | some (e, rest) =>
        have := length_of_escape? h
        (literalBody quote verbatim start rest).map fun p => (e :: p.1, p.2)
    else (literalBody quote verbatim start t).map fun p => (c :: p.1, p.2)
termination_by t.length

def literal (verbatim : Bool) : Text → Except Trouble (Text × Text)
  | [] => .error (.unterminatedLiteral, [])
  | quote :: t => literalBody quote verbatim (quote :: t) t

/-- An item of a class: a code point, or one of the named sets. -/
inductive ClassItem where
  | one (c : Nat)
  | many (s : RuneSet)

def classSet? (c : Nat) : Option RuneSet :=
  if c = 'd' then some Pattern.digits
  else if c = 's' then some Pattern.spaces
  else if c = 'w' then some Pattern.wordRunes
  else none

def classEscape (start : Text) (t : Text) : Except Trouble (ClassItem × Text) :=
  match escape? t with
  | some (e, rest) => .ok (.one e, rest)
  | none => .error (.badEscape, start)

def classItem (c : Nat) (t : Text) : Except Trouble (ClassItem × Text) :=
  if c = '\\' then
    match t with
    | [] => classEscape (c :: t) t
    | a :: rest =>
      match classSet? a with
      | some s => .ok (.many s, rest)
      | none => classEscape (c :: t) t
  else .ok (.one c, t)

theorem length_of_classItem {c : Nat} {t r : Text} {item : ClassItem}
    (h : classItem c t = .ok (item, r)) : r.length ≤ t.length := by
  have escaped {u v : Text} (h : classEscape u t = .ok (item, v)) : v.length ≤ t.length := by
    simp only [classEscape] at h
    split at h
    · next he => cases h; have := length_of_escape? he; omega
    · cases h
  simp only [classItem] at h
  split at h
  · split at h
    · exact escaped h
    · split at h
      · cases h; simp
      · exact escaped h
  · cases h; simp

/-- The last code point of a range that `-` announces: not if a bracket or nothing follows. -/
def rangeEnd? : Text → Option (Nat × Text)
  | '-' :: c :: t => if c = ']' then none else some (c, t)
  | _ => none

theorem length_of_rangeEnd? {t r : Text} {c : Nat} (h : rangeEnd? t = some (c, r)) :
    r.length < t.length := by
  unfold rangeEnd? at h
  split at h
  · split at h
    · cases h
    · cases h; simp only [List.length_cons]; omega
  · cases h

/-- The inside of a class and its closing bracket, added to the members read before. -/
def classBody (start : Text) (members : RuneSet) (t : Text) : Except Trouble (RuneSet × Text) :=
  match t with
  | [] => .error (.unterminatedClass, start)
  | c :: t =>
    if c = ']' then .ok (members, t)
    else
      match hi : classItem c t with
      | .error e => .error e
      | .ok (.many s, rest) =>
        have := length_of_classItem hi
        classBody start (members.union s) rest
      | .ok (.one lo, rest) =>
        have := length_of_classItem hi
        match hr : rangeEnd? rest with
        | none => classBody start (members.insert lo) rest
        | some (d, after) =>
          have := length_of_rangeEnd? hr
          match hj : classItem d after with
          | .error e => .error e
          | .ok (.many _, _) => .error (.badRange, c :: t)
          | .ok (.one top, rest) =>
            have := length_of_classItem hj
            if top < lo then .error (.badRange, c :: t)
            else classBody start (members.insertRange lo top) rest
termination_by t.length
decreasing_by all_goals (simp only [List.length_cons]; omega)

/-- A class after its opening bracket; `start` is the text from that bracket on. -/
def classAfter (start : Text) : Text → Except Trouble ((RuneSet × Bool) × Text)
  | '^' :: t => (classBody start .empty t).map fun p => ((p.1, true), p.2)
  | t => (classBody start .empty t).map fun p => ((p.1, false), p.2)

end PegMatch.Token

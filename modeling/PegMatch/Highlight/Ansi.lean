import PegMatch.Highlight.Token

set_option autoImplicit false

namespace PegMatch.Ansi

def code (n : String) : Text :=
  ['\x1b'.toNat, '['.toNat] ++ Text.ofString n ++ ['m'.toNat]

def red : Text := code "31"

def green : Text := code "32"

def yellow : Text := code "33"

def cyan : Text := code "36"

def reset : Text := code "39"

def bold : Text := code "1"

def resetAll : Text := code "0"

/-- Marks spans of a text, given by start and end, which should be in order and apart. -/
def markFrom (subject : Subject) (color : Text) : Int → List (Int × Int) → Text
  | done, [] => subject.sliceFrom done
  | done, (start, stop) :: spans =>
    subject.slice done start ++ color ++ bold ++ subject.slice start stop ++ resetAll ++
      markFrom subject color stop spans

def markSpans (subject : Subject) (color : Text) (spans : List (Int × Int)) : Text :=
  markFrom subject color 0 spans

def endsLine (c : Nat) : Bool :=
  c == '\n' || c == '\r' || c == 11 || c == 12 || (28 ≤ c && c ≤ 30) || c == 133 || c == 0x2028 ||
    c == 0x2029

def lines : Text → List Text
  | [] => []
  | '\r' :: '\n' :: t => ['\r', '\n'] :: lines t
  | c :: t =>
    if endsLine c then [c] :: lines t
    else
      match lines t with
      | l :: ls => (c :: l) :: ls
      | [] => [[c]]

def renditions : Highlight.Role → List String
  | .comment | .whitespace => ["37"]
  | .keyword | .pseudo | .number => ["34"]
  | .function => ["32"]
  | .reference => ["31"]
  | .string | .affix | .classText | .escape => ["33"]
  | .error => ["04", "91"]
  | .text | .operator | .punctuation | .name => []

def coloured (codes : List String) (t : Text) : Text :=
  if codes.isEmpty then t else codes.flatMap code ++ t ++ code "39;49;00"

def formatLine (codes : List String) (line : Text) : Text :=
  if line.getLast? = some '\n'.toNat then coloured codes line.dropLast ++ ['\n'.toNat]
  else coloured codes line

def formatPiece (p : Highlight.Token) : Text :=
  (lines p.text).flatMap (formatLine (renditions p.role))

/-- A source with its pieces coloured; a colour never runs over the end of a line. -/
def format (source : Text) : Text :=
  (Highlight.tokens source).flatMap formatPiece

/-- The control sequence at the start of a text, after its escape character and bracket: parameters,
then intermediate code points, then a final one. -/
def afterSequence? (t : Text) : Option Text :=
  let t := t.dropWhile fun c => '0'.toNat ≤ c && c ≤ '?'
  let t := t.dropWhile fun c => ' '.toNat ≤ c && c ≤ '/'
  match t with
  | c :: rest => if '@' ≤ c && c ≤ '~' then some rest else none
  | [] => none

theorem length_of_afterSequence? {t r : Text} (h : afterSequence? t = some r) :
    r.length < t.length := by
  simp only [afterSequence?] at h
  split at h
  · next he =>
    split at h
    · cases h
      have h₁ := (List.dropWhile_sublist (l := t) (fun c => '0'.toNat ≤ c && c ≤ '?')).length_le
      have h₂ := (List.dropWhile_sublist (l := t.dropWhile fun c => '0'.toNat ≤ c && c ≤ '?')
        (fun c => ' '.toNat ≤ c && c ≤ '/')).length_le
      rw [he] at h₂
      simp only [List.length_cons] at h₂
      omega
    · cases h
  · cases h

def strip (t : Text) : Text :=
  match t with
  | [] => []
  | c :: t =>
    match t with
    | [] => [c]
    | d :: u =>
      if c = '\x1b' ∧ d = '[' then
        match h : afterSequence? u with
        | some rest =>
          have := length_of_afterSequence? h
          strip rest
        | none => c :: strip (d :: u)
      else c :: strip (d :: u)
termination_by t.length
decreasing_by all_goals (simp only [List.length_cons]; omega)

end PegMatch.Ansi

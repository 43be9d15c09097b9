import PegMatch.Text.Compatibility
import PegMatch.Text.Composition
import PegMatch.Text.MarkClass

set_option autoImplicit false

/-! The normal form of names: names that look alike or differ only in the form of their letters are
one. Forms and composites are taken apart, marks are put in the order of their classes, and what
goes together is put together. -/

namespace PegMatch.Text

def takeApart : Nat → Nat → Text
  | 0, c => [c]
  | depth + 1, c =>
    match Rune.plainForm? c with
    | some t => t
    | none =>
      match Rune.parts? c with
      | some (a, b) => takeApart depth a ++ [b]
      | none => [c]

/-- Puts a mark before the marks that follow it, past those of lower classes. -/
def insertMark (c : Nat) : Text → Text
  | [] => [c]
  | d :: t =>
    if 0 < Rune.markClass d && Rune.markClass d < Rune.markClass c then d :: insertMark c t
    else c :: d :: t

def orderMarks : Text → Text
  | [] => []
  | c :: t => if Rune.markClass c = 0 then c :: orderMarks t else insertMark c (orderMarks t)

/-- Puts together a letter and what follows it. The marks in `held`, newest first, stand between
them and did not combine; a mark is reached past those of lower classes only. -/
def putTogetherFrom (letter : Nat) (held : Text) : Text → Text
  | [] => letter :: held.reverse
  | c :: t =>
    let inReach := held.all fun m => Rune.markClass m < Rune.markClass c
    match if inReach then Rune.compose? letter c else none with
    | some x => putTogetherFrom x held t
    | none =>
      if Rune.markClass c = 0 then letter :: held.reverse ++ putTogetherFrom c [] t
      else putTogetherFrom letter (c :: held) t

def putTogether : Text → Text
  | [] => []
  | c :: t => if Rune.markClass c = 0 then putTogetherFrom c [] t else c :: putTogether t

def normal (name : Text) : Text :=
  putTogether (orderMarks (name.flatMap (takeApart 4)))

end PegMatch.Text

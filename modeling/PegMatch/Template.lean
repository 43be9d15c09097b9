import PegMatch.Match

set_option autoImplicit false

/-! Replacement templates: `$1` or `${1}` is the text of the first capture, `$0` the whole match,
`$#` the capture after the one used last, and `$$` a dollar sign. -/

namespace PegMatch.Template

inductive Item where
  | rune (c : Nat)
  | number (n : Nat)
  /-- The capture after the one used last. -/
  | next
  deriving Repr, DecidableEq

/-- The items of a template up to its end or to the first mistake. -/
inductive Items where
  | done
  | mistake (e : TemplateError)
  | item (i : Item) (rest : Items)
  deriving Repr

def number (digits : Text) : Except TemplateError Nat :=
  digits.decimal.mapError .badNumber

def braced? (t : Text) : Option (Text × Text) :=
  match t.dropWhile (· != '}'.toNat) with
  | _ :: rest => some (t.takeWhile (· != '}'.toNat), rest)
  | [] => none

theorem length_of_braced? {t digits rest : Text} (h : braced? t = some (digits, rest)) :
    rest.length < t.length := by
  unfold braced? at h
  split at h
  · next he =>
    cases h
    have := (List.dropWhile_sublist (l := t) (· != '}'.toNat)).length_le
    rw [he] at this
    simp at this
    omega
  · cases h

theorem length_dropWhile_cons {p : Nat → Bool} {c : Nat} {t : Text} (h : p c) :
    ((c :: t).dropWhile p).length < (c :: t).length := by
  have := (List.dropWhile_sublist (l := t) p).length_le
  simp [h]
  omega

def items (whole : Text) (t : Text) : Items :=
  match t with
  | [] => .done
  | c :: t =>
    if c = '$' then
      match t with
      | [] => .mistake (.malformed whole)
      | d :: t =>
        if d = '$' then .item (.rune '$') (items whole t)
        else if d = '#' then .item .next (items whole t)
        else if d = '{' then
          match hb : braced? t with
          | none => .mistake (.malformed whole)
          | some (digits, rest) =>
            have := length_of_braced? hb
            if digits.isEmpty || !digits.all Rune.isDigit then .mistake (.malformed whole)
            else
              match number digits with
              | .ok n => .item (.number n) (items whole rest)
              | .error e => .mistake e
        else if hd : Rune.isDigit d then
          have := length_dropWhile_cons (t := t) hd
          match number ((d :: t).takeWhile Rune.isDigit) with
          | .ok n => .item (.number n) (items whole ((d :: t).dropWhile Rune.isDigit))
          | .error e => .mistake e
        else .mistake (.malformed whole)
    else .item (.rune c) (items whole t)
termination_by t.length
decreasing_by all_goals (simp only [List.length_cons] at *; omega)

def groupText (whole : Text) (m : Match) (n : Nat) : Except TemplateError Text :=
  if h : n ≤ m.spans.length then .ok ((m.groupAt n h).getD []) else .error (.noSuchCapture n whole)

/-- Fills in the items; `next` is the number that `$#` stands for. -/
def fill (whole : Text) (m : Match) : Items → Nat → Except TemplateError Text
  | .done, _ => .ok []
  | .mistake e, _ => .error e
  | .item (.rune c) rest, next => do .ok (c :: (← fill whole m rest next))
  | .item (.number n) rest, _ => do
    let t ← groupText whole m n
    .ok (t ++ (← fill whole m rest (n + 1)))
  | .item .next rest, next => do
    let t ← groupText whole m next
    .ok (t ++ (← fill whole m rest (next + 1)))

/-- Fills in a template from a match. Captures that took no part in it are replaced with nothing. -/
def format (template : Text) (m : Match) : Except TemplateError Text :=
  fill template m (items template template) 1

end PegMatch.Template

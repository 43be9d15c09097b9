import Mathlib.Data.List.TakeWhile
import PegMatch.Proofs.Lexing
import PegMatch.Proofs.TokenRests

set_option autoImplicit false

namespace PegMatch.Token

/-- The text behind what `close` ends, where a backslash takes the next code point with it. -/
def inside? (close : Nat) : Text → Option Text
  | [] => none
  | c :: t =>
    if c = close then some t
    else if c = '\\' then
      match t with
      | [] => none
      | _ :: u => inside? close u
    else inside? close t

def verbatim? (close : Nat) : Text → Option Text
  | [] => none
  | c :: t => if c = close then some t else verbatim? close t

def patternNames : List Text :=
  ["n", "d", "D", "s", "S", "w", "W", "a", "A", "letter", "lower", "upper", "title", "white",
    "ident", "skip"].map Text.ofString

/-- The text behind a named pattern or an escape, from its backslash on. -/
def named? (t : Text) : Option Text :=
  let name := t.takeWhile isLetter
  if name ∈ patternNames then some (t.drop name.length)
  else if 1 < name.length ∧ name.head? ≠ some 'x'.toNat ∧ name.head? ≠ some 'u'.toNat then none
  else (escape? t).map Prod.snd

def signs : Text :=
  Text.ofString "/&!@?*+^$.()\x7b\x7d_0123456789"

def verbatimLiteral? : Text → Option Text
  | [] => none
  | quote :: t => verbatim? quote t

/-- The text behind a letter: it starts a rule, a literal, or else a name. The letter before a quote
is a lexeme of its own if the literal ends where it does without the letter. -/
def word? (c : Nat) (t : Text) : Option Text :=
  match header? (c :: t) with
  | some (_, rest) => some rest
  | none =>
    if (c = 'i' ∨ c = 'y') ∧ t.head?.any isQuote then some t
    else if c = 'v' ∧ t.head?.any isQuote then verbatimLiteral? t
    else some (t.dropWhile isNameRune)

def lexeme? : Text → Option Text
  | [] => none
  | c :: t =>
    if isSpace c then some t
    else if c = '#' then some (t.dropWhile fun d : Nat => d != '\n')
    else if isQuote c then inside? c t
    else if c = '[' then inside? ']' t
    else if c = '\\' then named? t
    else if isLetter c then word? c t
    else if c ∈ signs then some t
    else none

/-- The text is made up of lexemes. -/
inductive Spelled : Text → Prop where
  | nil : Spelled []
  | cons {t u : Text} (h : lexeme? t = some u) (hu : Spelled u) : Spelled t

def startsIn : Nat → Text → List Text
  | 0, _ => []
  | room + 1, t =>
    match lexeme? t with
    | some u => t :: startsIn room u
    | none => []

/-- The texts at which the lexemes of a text start. -/
def starts (t : Text) : List Text :=
  startsIn t.length t

variable {t u rest : Text} {close c : Nat}

theorem inside?_close : inside? close (close :: t) = some t := by
  rw [inside?.eq_def]
  exact if_pos rfl

theorem inside?_plain (h : c ≠ close) (hc : c ≠ '\\') :
    inside? close (c :: t) = inside? close t := by
  rw [inside?.eq_def]
  exact (if_neg h).trans (if_neg hc)

theorem inside?_pair (h : '\\' ≠ close) : inside? close ('\\' :: c :: t) = inside? close t := by
  rw [inside?.eq_def]
  exact (if_neg h).trans (if_pos rfl)

theorem length_of_inside? (h : inside? close t = some u) : u.length < t.length := by
  fun_induction inside? close t with
  | case1 => cases h
  | case2 t => cases h; exact Nat.lt_succ_self _
  | case3 => cases h
  | case4 _ _ u ih =>
    have := ih h
    simp only [List.length_cons]
    omega
  | case5 c t _ _ ih => exact Nat.lt_succ_of_lt (ih h)

theorem length_of_verbatim? (h : verbatim? close t = some u) : u.length < t.length := by
  induction t with
  | nil => cases h
  | cons c t ih =>
    simp only [verbatim?] at h
    split at h
    · cases h
      exact Nat.lt_succ_self _
    · exact Nat.lt_succ_of_lt (ih h)

theorem named?_cases (h : named? t = some u) :
    t.takeWhile isLetter ∈ patternNames ∧ u = t.dropWhile isLetter ∨
      ¬ (1 < (t.takeWhile isLetter).length ∧ (t.takeWhile isLetter).head? ≠ some 'x'.toNat ∧
        (t.takeWhile isLetter).head? ≠ some 'u'.toNat) ∧ ∃ e, escape? t = some (e, u) := by
  simp only [named?] at h
  split at h
  · next hknown =>
    rw [Highlight.Regex.drop_length_takeWhile] at h
    exact .inl ⟨hknown, (Option.some.inj h).symm⟩
  split at h
  · cases h
  · next hlong =>
    obtain ⟨⟨e, rest⟩, he, rfl⟩ := Option.map_eq_some_iff.1 h
    exact .inr ⟨hlong, e, he⟩

theorem length_of_named? (h : named? t = some u) : u.length ≤ t.length := by
  rcases named?_cases h with ⟨-, rfl⟩ | ⟨-, e, he⟩
  · exact (List.dropWhile_suffix isLetter).length_le
  · exact (suffix_of_escape? he).length_le

theorem length_of_word? (h : word? c t = some u) : u.length ≤ t.length := by
  simp only [word?] at h
  split at h
  · next hheader =>
    cases h
    exact Nat.le_of_lt_succ (suffix_of_header? hheader).2
  split at h
  · cases h
    exact Nat.le_refl _
  split at h
  · cases t with
    | nil => cases h
    | cons d t => exact Nat.le_succ_of_le (Nat.le_of_lt (length_of_verbatim? h))
  · cases h
    exact (List.dropWhile_suffix isNameRune).length_le

theorem length_of_lexeme? (h : lexeme? t = some u) : u.length < t.length := by
  cases t with
  | nil => cases h
  | cons c t =>
    simp only [lexeme?] at h
    refine Nat.lt_succ_of_le ?_
    split at h
    · cases h
      exact Nat.le_refl _
    split at h
    · cases h
      exact (List.dropWhile_suffix _).length_le
    split at h
    · exact Nat.le_of_lt (length_of_inside? h)
    split at h
    · exact Nat.le_of_lt (length_of_inside? h)
    split at h
    · exact length_of_named? h
    split at h
    · exact length_of_word? h
    split at h
    · cases h
      exact Nat.le_refl _
    · cases h

theorem startsIn_eq {room room' : Nat} (h : t.length ≤ room) (h' : t.length ≤ room') :
    startsIn room t = startsIn room' t := by
  induction room generalizing t room' with
  | zero =>
    obtain rfl := List.eq_nil_of_length_eq_zero (Nat.le_zero.1 h)
    cases room' <;> rfl
  | succ room ih =>
    cases room' with
    | zero =>
      obtain rfl := List.eq_nil_of_length_eq_zero (Nat.le_zero.1 h')
      rfl
    | succ room' =>
      simp only [startsIn]
      split
      · next u hu =>
        have hlength := length_of_lexeme? hu
        exact congrArg (t :: ·) (ih (by omega) (by omega))
      · rfl

theorem starts_of_lexeme? (h : lexeme? t = some u) : starts t = t :: starts u := by
  have hlength := length_of_lexeme? h
  have hstarts : starts t = startsIn (t.length + 1) t := startsIn_eq (Nat.le_refl _) (Nat.le_succ _)
  rw [hstarts, startsIn, h]
  exact congrArg (t :: ·) (startsIn_eq (Nat.le_of_lt hlength) (Nat.le_refl _))

theorem foldl_bind_none {α β : Type} {f : α → β → Option α} (xs : List β) :
    xs.foldl (fun o x => o.bind fun a => f a x) none = none := by
  induction xs with
  | nil => rfl
  | cons x xs ih => exact ih

theorem isHex_of_hexNumeralValue? {n : Nat} {o : Option Nat}
    (h : t.foldl (fun n d => n.bind fun n => (Text.hexDigitValue? d).map (16 * n + ·)) o = some n) :
    ∀ d ∈ t, Highlight.isHex d := by
  induction t generalizing o with
  | nil => simp
  | cons c t ih =>
    refine List.forall_mem_cons.2 ⟨?_, ih h⟩
    rw [Highlight.isHex]
    cases hc : Text.hexDigitValue? c with
    | some m => rfl
    | none =>
      -- a sum that failed stays failed
      have hstep : (o.bind fun n => (Text.hexDigitValue? c).map (16 * n + ·)) = none := by
        simp [hc]
      rw [List.foldl_cons, hstep, foldl_bind_none] at h
      cases h

theorem hex?_spec {width n : Nat} (h : hex? width t = some (n, rest)) :
    ∃ w, t = w ++ rest ∧ w.length = width ∧ (∀ d ∈ w, Highlight.isHex d) ∧
      Highlight.hexAhead width t := by
  simp only [hex?] at h
  split at h
  · next hlength =>
    obtain ⟨m, hm, h⟩ := Option.map_eq_some_iff.1 h
    cases h
    have hall := isHex_of_hexNumeralValue? hm
    refine ⟨t.take width, (List.take_append_drop width t).symm, hlength, hall, ?_⟩
    rw [Highlight.hexAhead, Bool.and_eq_true, beq_iff_eq, List.all_eq_true]
    exact ⟨hlength, hall⟩
  · cases h

theorem not_of_letterEscape? {e : Nat} (h : letterEscape? c = some e) :
    c ≠ 'x' ∧ c ≠ 'u' ∧ ¬ Text.isAsciiDigit c := by
  simp only [letterEscape?] at h
  split at h
  · next hc => rcases hc with rfl | rfl <;> decide
  split at h
  · next hc => rcases hc with rfl | rfl <;> decide
  iterate 6
    split at h
    · next hc => subst hc; decide
  cases h

theorem isHex_of_digit (h : Text.isAsciiDigit c) : Highlight.isHex c := by
  simp only [Text.isAsciiDigit] at h
  rw [Highlight.isHex, Text.hexDigitValue?, if_pos h]
  rfl

/-- An escape takes `c` and some digits behind it. A piece takes the same, except for an escaped
line feed. -/
def Escapes (c : Nat) (t rest : Text) : Prop :=
  ∃ w, t = w ++ rest ∧ (∀ d ∈ w, Highlight.isHex d) ∧
    (c ≠ '\n' → Highlight.escapeLength? (c :: t) = some (w.length + 1))

theorem escapes_one (hx : c ≠ 'x') (hu : c ≠ 'u') (hdigit : ¬ Text.isAsciiDigit c) :
    Escapes c t t := by
  refine ⟨[], rfl, by simp, fun hline => ?_⟩
  have hx : (c == 'x'.toNat) = false := beq_false_of_ne hx
  have hu : (c == 'u'.toNat) = false := beq_false_of_ne hu
  have hl : (c == '\n'.toNat) = false := beq_false_of_ne hline
  simp only [Highlight.escapeLength?, hx, hu, hl, hdigit, Bool.false_and, Bool.false_eq_true,
    if_false, List.length_nil, Nat.zero_add]

theorem escapes_hex {width n : Nat} (hc : c = 'x' ∧ width = 2 ∨ c = 'u' ∧ width = 4)
    (h : hex? width t = some (n, rest)) : Escapes c t rest := by
  obtain ⟨w, hw, hlength, hall, hahead⟩ := hex?_spec h
  refine ⟨w, hw, hall, fun _ => ?_⟩
  rcases hc with ⟨rfl, rfl⟩ | ⟨rfl, rfl⟩ <;> simp [Highlight.escapeLength?, hahead, hlength]

theorem escapes_decimal {n : Nat} (hx : c ≠ 'x') (hu : c ≠ 'u') (hdigit : Text.isAsciiDigit c)
    (h : decimal (c :: t) = (n, rest)) : Escapes c t rest := by
  have hrest := congrArg Prod.snd h
  simp only [decimal, List.takeWhile_cons, hdigit, if_true, List.take_succ_cons, List.length_cons,
    List.drop_succ_cons] at hrest
  have hx : (c == 'x'.toNat) = false := beq_false_of_ne hx
  have hu : (c == 'u'.toNat) = false := beq_false_of_ne hu
  have hprefix : (t.takeWhile Text.isAsciiDigit).take 2 <+: t :=
    (List.take_prefix _ _).trans (List.takeWhile_prefix _)
  refine ⟨(t.takeWhile Text.isAsciiDigit).take 2, ?_, fun d hd => ?_, fun _ => ?_⟩
  · rw [← hrest]
    exact (List.prefix_iff_eq_append.1 hprefix).symm
  · exact isHex_of_digit (List.mem_takeWhile_imp (List.mem_of_mem_take hd))
  · simp only [Highlight.escapeLength?, hx, hu, hdigit, Bool.false_and, Bool.false_eq_true,
      if_false, if_true, Option.some.injEq]
    rw [List.take_takeWhile, Nat.add_comm]

theorem escapes_of_escape? {e : Nat} (h : escape? (c :: t) = some (e, rest)) :
    Escapes c t rest := by
  simp only [escape?] at h
  split at h
  · next hletter =>
    cases h
    obtain ⟨hx, hu, hdigit⟩ := not_of_letterEscape? hletter
    exact escapes_one hx hu hdigit
  split at h
  · next hx => exact escapes_hex (.inl ⟨hx, rfl⟩) h
  split at h
  · next hu => exact escapes_hex (.inr ⟨hu, rfl⟩) h
  next hx hu =>
  split at h
  · next hdigit => exact escapes_decimal hx hu hdigit (Option.some.inj h)
  next hdigit =>
  split at h
  · cases h
  · cases h
    exact escapes_one hx hu hdigit

def Closes (close : Nat) : Prop :=
  isQuote close ∨ close = ']'

theorem Closes.cases (h : Closes close) : close = '\'' ∨ close = '"' ∨ close = ']' := by
  rcases h with h | rfl
  · simp only [isQuote, Bool.or_eq_true, beq_iff_eq] at h
    exact h.imp_right .inl
  · exact .inr (.inr rfl)

theorem Closes.not_hex (h : Closes close) {d : Nat} (hd : Highlight.isHex d) :
    d ≠ close ∧ d ≠ '\\' := by
  refine ⟨?_, ?_⟩
  · rintro rfl
    rcases h.cases with rfl | rfl | rfl <;> cases hd
  · rintro rfl
    cases hd

theorem inside?_append {w : Text} (hw : ∀ d ∈ w, d ≠ close ∧ d ≠ '\\') :
    inside? close (w ++ t) = inside? close t := by
  induction w with
  | nil => rfl
  | cons d w ih =>
    obtain ⟨hd, hw⟩ := List.forall_mem_cons.1 hw
    rw [List.cons_append, inside?_plain hd.1 hd.2, ih hw]

theorem Closes.ne_backslash (h : Closes close) : '\\' ≠ close := by
  rcases h.cases with rfl | rfl | rfl <;> decide

theorem inside?_escape (hclose : Closes close) {e : Nat} (h : escape? t = some (e, rest)) :
    inside? close ('\\' :: t) = inside? close rest := by
  cases t with
  | nil => cases h
  | cons c t =>
    obtain ⟨w, rfl, hhex, -⟩ := escapes_of_escape? h
    rw [inside?_pair hclose.ne_backslash]
    exact inside?_append fun d hd => hclose.not_hex (hhex d hd)

def Stops (o : Option Text) {α : Type} : Except Trouble (α × Text) → Prop
  | .ok (_, rest) => o = some rest
  | .error _ => True

theorem Stops.map {α β : Type} {o : Option Text} {x : Except Trouble (α × Text)} (h : Stops o x)
    (f : α → β) : Stops o (x.map fun p => (f p.1, p.2)) := by
  cases x <;> exact h

theorem stops_literalBody (hclose : Closes close) (start t : Text) :
    Stops (inside? close t) (literalBody close false start t) := by
  fun_induction literalBody close false start t with
  | case1 => trivial
  | case2 t => exact inside?_close
  | case3 => trivial
  | case4 c t _ hback e after he _ ih =>
    rw [hback.1, inside?_escape hclose he]
    exact ih.map (e :: ·)
  | case5 c t hc hback ih =>
    rw [inside?_plain hc (by simpa using hback)]
    exact ih.map (c :: ·)

theorem stops_verbatimBody (close : Nat) (start t : Text) :
    Stops (verbatim? close t) (literalBody close true start t) := by
  fun_induction literalBody close true start t with
  | case1 => trivial
  | case2 t => exact if_pos rfl
  | case3 => trivial
  | case4 _ _ _ hback => simp at hback
  | case5 c t hc _ ih =>
    rw [verbatim?, if_neg hc]
    exact ih.map (c :: ·)

theorem inside?_of_classItem (hclose : Closes close) {i : ClassItem} (hc : c ≠ close)
    (h : classItem c t = .ok (i, rest)) : inside? close (c :: t) = inside? close rest := by
  have escaped {start : Text} (h : classEscape start t = .ok (i, rest)) :
      inside? close ('\\' :: t) = inside? close rest := by
    simp only [classEscape] at h
    split at h
    · next he =>
      cases h
      exact inside?_escape hclose he
    · cases h
  simp only [classItem] at h
  split at h
  · next hback =>
    subst hback
    split at h
    · exact escaped h
    · split at h
      · cases h
        exact inside?_pair hclose.ne_backslash
      · exact escaped h
  · next hback =>
    cases h
    exact inside?_plain hc hback

theorem rangeEnd?_eq {t : Text} (h : rangeEnd? t = some (c, rest)) :
    t = '-'.toNat :: c :: rest ∧ c ≠ ']' := by
  unfold rangeEnd? at h
  split at h
  · split at h
    · cases h
    · next hc =>
      cases h
      exact ⟨rfl, hc⟩
  · cases h

theorem stops_classBody (start : Text) (members : RuneSet) (t : Text) :
    Stops (inside? ']' t) (classBody start members t) := by
  have hclose : Closes ']' := .inr rfl
  fun_induction classBody start members t with
  | case1 => trivial
  | case2 members t => exact inside?_close
  | case3 => trivial
  | case4 _ c t hc s rest hi _ ih =>
    rw [inside?_of_classItem hclose hc hi]
    exact ih
  | case5 _ c t hc lo rest hi _ _ ih =>
    rw [inside?_of_classItem hclose hc hi]
    exact ih
  | case6 => trivial
  | case7 => trivial
  | case8 => trivial
  | case9 _ c t hc lo rest hi _ d after hr _ top last hj _ _ ih =>
    obtain ⟨rfl, hd⟩ := rangeEnd?_eq hr
    rw [inside?_of_classItem hclose hc hi, inside?_plain (by decide) (by decide),
      inside?_of_classItem hclose hd hj]
    exact ih

theorem stops_classAfter (start t : Text) : Stops (inside? ']' t) (classAfter start t) := by
  unfold classAfter
  split
  · next t =>
    rw [inside?_plain (by decide) (by decide)]
    exact (stops_classBody start .empty t).map fun members => (members, true)
  · exact (stops_classBody start .empty t).map fun members => (members, false)

theorem sign_spec (h : c ∈ signs) :
    isSpace c = false ∧ c ≠ '#' ∧ isQuote c = false ∧ c ≠ '[' ∧ c ≠ '\\' ∧ isLetter c = false := by
  have all : ∀ d ∈ signs, isSpace d = false ∧ d ≠ '#' ∧ isQuote d = false ∧ d ≠ '[' ∧ d ≠ '\\' ∧
      isLetter d = false := by
    decide
  exact all c h

theorem lexeme?_sign (h : c ∈ signs) : lexeme? (c :: t) = some t := by
  obtain ⟨hspace, hhash, hquote, hclass, hback, hletter⟩ := sign_spec h
  simp only [lexeme?, hspace, hhash, hquote, hclass, hback, hletter, h, if_true, if_false,
    Bool.false_eq_true]

theorem mem_signs_of_digit (h : Text.isAsciiDigit c) : c ∈ signs := by
  have hrange : c ∈ List.range' 48 10 := by
    simp only [Text.isAsciiDigit, Bool.and_eq_true, decide_eq_true_eq] at h
    exact List.mem_range'_1.2 ⟨h.1, Nat.lt_succ_of_le h.2⟩
  have all : ∀ d ∈ List.range' 48 10, d ∈ signs := by
    decide
  exact all c hrange

theorem spelled_sign (h : c ∈ signs) (ht : Spelled t) : Spelled (c :: t) :=
  .cons (lexeme?_sign h) ht

theorem spelled_of_digits (h : Spelled (t.dropWhile Text.isAsciiDigit)) : Spelled t := by
  induction t with
  | nil => exact h
  | cons c t ih =>
    cases hc : Text.isAsciiDigit c with
    | true =>
      rw [List.dropWhile_cons_of_pos hc] at h
      exact spelled_sign (mem_signs_of_digit hc) (ih h)
    | false => rwa [List.dropWhile_cons_of_neg (by simp [hc])] at h

theorem lexeme?_space (h : isSpace c) : lexeme? (c :: t) = some t := by
  rw [lexeme?, if_pos h]

theorem spelled_of_skipBlanks (inComment : Bool) (t : Text) (h : Spelled (skipBlanks inComment t)) :
    Spelled (if inComment then t.dropWhile fun d : Nat => d != '\n' else t) := by
  fun_induction skipBlanks inComment t with
  | case1 inComment => cases inComment <;> exact .nil
  | case2 c t ih =>
    have ih := ih h
    rw [if_pos rfl]
    cases hc : c != '\n'.toNat with
    | true =>
      rw [List.dropWhile_cons_of_pos (p := fun d : Nat => d != '\n') hc]
      rwa [if_pos hc] at ih
    | false =>
      obtain rfl : c = '\n' := by simpa using hc
      exact .cons (lexeme?_space rfl) ih
  | case3 _ c t hcomment hspace ih =>
    rw [if_neg hcomment]
    exact .cons (lexeme?_space hspace) (ih h)
  | case4 _ t hcomment hspace ih =>
    rw [if_neg hcomment]
    have hlexeme : lexeme? ('#' :: t) = some (t.dropWhile fun d : Nat => d != '\n') := rfl
    exact .cons hlexeme (ih h)
  | case5 _ c t hcomment => rwa [if_neg hcomment]

theorem not_blank_of_letter (h : isLetter c) : Rune.isBlank c = false :=
  Highlight.not_blank_of_nameRune
    (by simp only [Highlight.isNameRune, Bool.or_eq_true]; exact .inl (.inl h))

theorem start_of_lexeme? (h : lexeme? (c :: t) = some u) (hc : ¬ isSpace c) :
    Rune.isBlank c = false ∧ c ≠ '<' := by
  rw [lexeme?, if_neg hc] at h
  split at h
  · next hc => subst hc; decide
  split at h
  · next hc =>
    simp only [isQuote, Bool.or_eq_true, beq_iff_eq] at hc
    rcases hc with rfl | rfl <;> decide
  split at h
  · next hc => subst hc; decide
  split at h
  · next hc => subst hc; decide
  split at h
  · next hc =>
    refine ⟨not_blank_of_letter hc, ?_⟩
    rintro rfl
    cases hc
  split at h
  · next hc =>
    have all : ∀ d ∈ signs, Rune.isBlank d = false ∧ d ≠ '<' := by
      decide
    exact all c hc
  · cases h

theorem Spelled.dropSpace (h : Spelled t) : Spelled (t.dropWhile isSpace) := by
  induction h with
  | nil => exact .nil
  | @cons t u h hu ih =>
    cases t with
    | nil => cases h
    | cons c t =>
      cases hc : isSpace c with
      | true =>
        rw [lexeme?_space hc] at h
        cases h
        rwa [List.dropWhile_cons_of_pos hc]
      | false =>
        rw [List.dropWhile_cons_of_neg (by simp [hc])]
        exact .cons h hu

theorem Spelled.head (h : Spelled t) :
    ∀ c ∈ (t.dropWhile isSpace).head?, Rune.isBlank c = false ∧ c ≠ '<' := by
  intro c hc
  obtain ⟨v, hv⟩ := List.head?_eq_some_iff.1 hc
  have hdrop := h.dropSpace
  rw [hv] at hdrop
  have hspace : ¬ isSpace c := by
    have := List.head?_dropWhile_not isSpace t
    rw [hv] at this
    simpa using this
  cases hdrop with
  | cons h => exact start_of_lexeme? h hspace

theorem dropPrefix?_eq_none {p : Text} (h : ∀ d ∈ t.head?, d ≠ c) :
    Text.dropPrefix? (c :: p) t = none := by
  cases t with
  | nil => rfl
  | cons d t => exact if_neg (h d rfl).symm

theorem header?_eq_none (h : Spelled (t.dropWhile isNameRune)) : header? (c :: t) = none := by
  simp only [header?, name?]
  split
  · have hnone : Text.dropPrefix? ['<', '-'] ((t.dropWhile isNameRune).dropWhile isSpace) = none :=
      dropPrefix?_eq_none fun d hd => (h.head d hd).2
    simp only [bind, Option.bind_some, hnone, Option.bind_none]
  · rfl

theorem header?_quote (h : t.head?.any isQuote) : header? (c :: t) = none := by
  obtain ⟨d, hd, hquote⟩ := (Option.any_eq_true _ _).1 h
  obtain ⟨t, rfl⟩ := List.head?_eq_some_iff.1 hd
  have hne : isNameRune d = false ∧ isSpace d = false ∧ d ≠ '<' := by
    simp only [isQuote, Bool.or_eq_true, beq_iff_eq] at hquote
    rcases hquote with rfl | rfl <;> decide
  simp only [header?, name?]
  split
  · have hnone : Text.dropPrefix? ['<', '-']
        (((d :: t).dropWhile isNameRune).dropWhile isSpace) = none := by
      rw [List.dropWhile_cons_of_neg (by simp [hne]), List.dropWhile_cons_of_neg (by simp [hne])]
      exact dropPrefix?_eq_none fun e he => by cases he; exact hne.2.2
    simp only [bind, Option.bind_some, hnone, Option.bind_none]
  · rfl

theorem letter_spec (h : isLetter c) :
    isSpace c = false ∧ c ≠ '#' ∧ isQuote c = false ∧ c ≠ '[' ∧ c ≠ '\\' := by
  have hlt : c < 128 := by
    simp only [isLetter, Bool.or_eq_true, Bool.and_eq_true, decide_eq_true_eq,
      Char.reduceToNat] at h
    omega
  have all : ∀ d < 128, isLetter d → isSpace d = false ∧ d ≠ '#' ∧ isQuote d = false ∧ d ≠ '[' ∧
      d ≠ '\\' := by
    decide
  exact all c hlt h

theorem lexeme?_letter (h : isLetter c) : lexeme? (c :: t) = word? c t := by
  obtain ⟨hspace, hhash, hquote, hclass, hback⟩ := letter_spec h
  simp only [lexeme?, hspace, hhash, hquote, hclass, hback, h, if_true, if_false,
    Bool.false_eq_true]

theorem spelled_of_name? {name : Text} (h : name? (c :: t) = some (name, rest))
    (hrest : Spelled rest) (hquote : t.head?.any isQuote → c ≠ 'i' ∧ c ≠ 'v' ∧ c ≠ 'y') :
    Spelled (c :: t) := by
  simp only [name?] at h
  split at h
  · next hletter =>
    cases h
    refine .cons ?_ hrest
    simp only [lexeme?_letter hletter, word?, header?_eq_none hrest]
    rw [if_neg fun hc => ?_, if_neg fun hc => ?_]
    · exact (hquote hc.2).2.1 hc.1
    · obtain ⟨hi, -, hy⟩ := hquote hc.2
      exact hc.1.elim hi hy
  · cases h

theorem header?_spec {name : Text} (h : header? (c :: t) = some (name, rest)) :
    isLetter c ∧ (t.dropWhile isNameRune).dropWhile isSpace = '<'.toNat :: '-'.toNat :: rest := by
  simp only [header?, name?] at h
  split at h
  · next hletter =>
    simp only [bind, Option.bind_some, Option.bind_eq_some_iff] at h
    obtain ⟨rest', harrow, h⟩ := h
    cases h
    exact ⟨hletter, Text.eq_append_of_dropPrefix? harrow⟩
  · cases h

theorem spelled_of_header? {name : Text} (h : header? (c :: t) = some (name, rest))
    (hrest : Spelled rest) : Spelled (c :: t) := by
  refine .cons ?_ hrest
  simp only [lexeme?_letter (header?_spec h).1, word?, h]

theorem spelled_affix (hc : c = 'i' ∨ c = 'y') (hquote : t.head?.any isQuote) (h : Spelled t) :
    Spelled (c :: t) := by
  have hletter : isLetter c := by
    rcases hc with rfl | rfl <;> rfl
  refine .cons ?_ h
  simp only [lexeme?_letter hletter, word?, header?_quote hquote]
  exact if_pos ⟨hc, hquote⟩

theorem spelled_verbatim (hquote : t.head?.any isQuote) (h : verbatimLiteral? t = some rest)
    (hrest : Spelled rest) : Spelled ('v' :: t) := by
  refine .cons ?_ hrest
  simp only [lexeme?_letter (c := 'v') rfl, word?, header?_quote hquote]
  rw [if_neg fun hc => absurd hc.1 (by decide), if_pos ⟨trivial, hquote⟩, h]

theorem spelled_literal (hc : isQuote c) (h : inside? c t = some rest) (hrest : Spelled rest) :
    Spelled (c :: t) := by
  refine .cons ?_ hrest
  simp only [isQuote, Bool.or_eq_true, beq_iff_eq] at hc
  rcases hc with rfl | rfl <;> exact h

theorem spelled_class (h : inside? ']' t = some rest) (hrest : Spelled rest) : Spelled ('[' :: t) :=
  .cons h hrest

theorem spelled_named (h : named? t = some rest) (hrest : Spelled rest) : Spelled ('\\' :: t) :=
  .cons h hrest

end PegMatch.Token

import PegMatch.Proofs.Lexemes

set_option autoImplicit false

/-! Where a text is cut without errors. In each mode the first code points of a text decide whether
an error comes next, and else what is left has to be cut without errors. Before it is cut, a text
gets new ends of its lines. -/

namespace PegMatch.Highlight

def isLineEnd (c : Nat) : Bool :=
  c == '\n' || c == '\r'

def Clean (m : Mode) (t : Text) : Prop :=
  ∀ piece ∈ cut m t, piece.role ≠ .error

def endLine (t : Text) : Text :=
  (t.reverse.dropWhile (· == '\n'.toNat)).reverse ++ ['\n'.toNat]

/-- A text as it is cut: its lines end in line feeds. -/
def handed (t : Text) : Text :=
  endLine (Text.unifyLines t)

variable {m : Mode} {c : Nat} {t u rest : Text}

theorem endLine_cons (hc : c ≠ '\n') : endLine (c :: t) = c :: endLine t := by
  simp only [endLine, List.reverse_cons, List.dropWhile_append]
  split
  · next hempty =>
    rw [List.isEmpty_iff.1 hempty, List.dropWhile_cons_of_neg (by simpa using hc)]
    rfl
  · simp

theorem endLine_feed (t : Text) : endLine ('\n'.toNat :: t) = '\n'.toNat :: endLine t ∨
    endLine ('\n'.toNat :: t) = ['\n'.toNat] ∧ endLine t = ['\n'.toNat] := by
  simp only [endLine, List.reverse_cons, List.dropWhile_append]
  split
  · next hempty =>
    rw [List.isEmpty_iff.1 hempty]
    exact .inr ⟨rfl, rfl⟩
  · exact .inl (by simp)

theorem unifyLines_cons (hc : c ≠ '\r') : Text.unifyLines (c :: t) = c :: Text.unifyLines t := by
  rw [Text.unifyLines]
  · rintro u rfl
    exact absurd rfl hc
  · exact fun h => absurd h hc

theorem unifyLines_pair :
    Text.unifyLines ('\r'.toNat :: '\n'.toNat :: t) = '\n'.toNat :: Text.unifyLines t :=
  Text.unifyLines.eq_1 t

theorem unifyLines_return (h : ∀ u, t ≠ '\n'.toNat :: u) :
    Text.unifyLines ('\r'.toNat :: t) = '\n'.toNat :: Text.unifyLines t :=
  Text.unifyLines.eq_2 t h

theorem handed_nil : handed [] = ['\n'.toNat] :=
  rfl

theorem handed_cons (hc : isLineEnd c = false) : handed (c :: t) = c :: handed t := by
  simp only [isLineEnd, Bool.or_eq_false_iff, beq_eq_false_iff_ne] at hc
  rw [handed, unifyLines_cons hc.2, endLine_cons hc.1, handed]

theorem handed_feed (t : Text) : handed ('\n'.toNat :: t) = '\n'.toNat :: handed t ∨
    handed ('\n'.toNat :: t) = ['\n'.toNat] ∧ handed t = ['\n'.toNat] := by
  rw [handed, unifyLines_cons (by decide), handed]
  exact endLine_feed _

theorem handed_return (t : Text) : handed ('\r'.toNat :: t) = handed ('\n'.toNat :: t) ∨
    ∃ u, t = '\n'.toNat :: u ∧ handed ('\r'.toNat :: t) = handed t := by
  by_cases hpair : ∃ u, t = '\n'.toNat :: u
  · obtain ⟨u, rfl⟩ := hpair
    refine .inr ⟨u, rfl, ?_⟩
    have hunify : Text.unifyLines ('\r'.toNat :: '\n'.toNat :: u) =
        Text.unifyLines ('\n'.toNat :: u) :=
      unifyLines_pair.trans (unifyLines_cons (by decide)).symm
    rw [handed, hunify, handed]
  · have hunify : Text.unifyLines ('\r'.toNat :: t) = Text.unifyLines ('\n'.toNat :: t) :=
      (unifyLines_return fun u hu => hpair ⟨u, hu⟩).trans (unifyLines_cons (by decide)).symm
    rw [handed, hunify, handed]
    exact .inl rfl

theorem lineEnd_cases (hc : isLineEnd c) : c = '\n' ∨ c = '\r' := by
  simpa [isLineEnd] using hc

theorem handed_append (hu : ∀ d ∈ u, isLineEnd d = false) : handed (u ++ t) = u ++ handed t := by
  induction u with
  | nil => rfl
  | cons d u ih =>
    obtain ⟨hd, hu⟩ := List.forall_mem_cons.1 hu
    rw [List.cons_append, handed_cons hd, ih hu, List.cons_append]

theorem handed_lineEnd (hc : isLineEnd c) : ∃ u, handed (c :: t) = '\n'.toNat :: u := by
  have feed (v : Text) : ∃ u, handed ('\n'.toNat :: v) = '\n'.toNat :: u := by
    rcases handed_feed v with h | h
    · exact ⟨_, h⟩
    · exact ⟨_, h.1⟩
  rcases lineEnd_cases hc with rfl | rfl
  · exact feed t
  · rcases handed_return t with h | ⟨u, rfl, h⟩
    · exact h ▸ feed t
    · exact h ▸ feed u

theorem of_handed_lineEnd {P : Text → Prop} (hP : ∀ u, P ('\n'.toNat :: u) ↔ P u)
    (hc : isLineEnd c) : P (handed (c :: t)) ↔ P (handed t) := by
  have feed (v : Text) : P (handed ('\n'.toNat :: v)) ↔ P (handed v) := by
    rcases handed_feed v with h | ⟨h, h'⟩
    · rw [h]
      exact hP _
    · rw [h, h']
  rcases lineEnd_cases hc with rfl | rfl
  · exact feed t
  · rcases handed_return t with h | ⟨u, rfl, h⟩
    · rw [h]
      exact feed t
    · rw [h]

section

variable {p : Nat → Bool} (hp : p '\n' = false ∧ p '\r' = false)
include hp

theorem of_lineEnd (hc : isLineEnd c) : p c = false := by
  rcases lineEnd_cases hc with rfl | rfl
  · exact hp.1
  · exact hp.2

theorem not_lineEnd (hc : p c) : isLineEnd c = false := by
  cases hline : isLineEnd c with
  | true =>
    rw [of_lineEnd hp hline] at hc
    cases hc
  | false => rfl

theorem span_handed (t : Text) :
    (handed t).takeWhile p = t.takeWhile p ∧ (handed t).dropWhile p = handed (t.dropWhile p) := by
  have hfeed : ¬ p '\n' = true := by
    rw [hp.1]
    exact Bool.false_ne_true
  induction t with
  | nil => exact ⟨List.takeWhile_cons_of_neg hfeed, List.dropWhile_cons_of_neg hfeed⟩
  | cons c t ih =>
    cases hline : isLineEnd c with
    | true =>
      obtain ⟨u, hu⟩ := handed_lineEnd (t := t) hline
      have hc : ¬ p c = true := by
        rw [of_lineEnd hp hline]
        exact Bool.false_ne_true
      rw [List.takeWhile_cons_of_neg hc, List.dropWhile_cons_of_neg hc, hu]
      exact ⟨List.takeWhile_cons_of_neg hfeed, List.dropWhile_cons_of_neg hfeed⟩
    | false =>
      rw [handed_cons hline]
      by_cases hc : p c
      · rw [List.takeWhile_cons_of_pos hc, List.takeWhile_cons_of_pos hc,
          List.dropWhile_cons_of_pos hc, List.dropWhile_cons_of_pos hc, ih.1]
        exact ⟨rfl, ih.2⟩
      · rw [List.takeWhile_cons_of_neg hc, List.takeWhile_cons_of_neg hc,
          List.dropWhile_cons_of_neg hc, List.dropWhile_cons_of_neg hc, handed_cons hline]
        exact ⟨rfl, rfl⟩

theorem any_head?_handed (t : Text) : (handed t).head?.any p = t.head?.any p := by
  cases t with
  | nil => exact hp.1
  | cons c t =>
    cases hline : isLineEnd c with
    | true =>
      obtain ⟨u, hu⟩ := handed_lineEnd (t := t) hline
      rw [hu]
      exact hp.1.trans (of_lineEnd hp hline).symm
    | false =>
      rw [handed_cons hline]
      rfl

end

theorem clean_of_rule {r : Step} (h : rule? m c t = some r) (hmore : r.more = [])
    (hrole : r.role ≠ .error) : Clean m (c :: t) ↔ Clean r.mode (t.drop r.extra) := by
  have hrule : rule m c t = r := by
    rw [rule, h]
    rfl
  rw [Clean, cut]
  simp only [hrule, hmore, cutMore, List.cons_append, List.nil_append, List.forall_mem_cons]
  exact and_iff_right hrole

theorem not_clean (h : rule? m c t = none) (hc : c ≠ '\n') : ¬ Clean m (c :: t) := by
  intro hclean
  have hrule : rule m c t = { role := .error, mode := m } := by
    rw [rule, h]
    exact if_neg hc
  rw [Clean, cut] at hclean
  simp only [hrule] at hclean
  exact hclean _ (List.mem_cons_self ..) rfl

def Runs (m : Mode) (p : Nat → Bool) : Prop :=
  ∀ c t, p c → ∃ role,
    rule? m c t = some { role := role, extra := (t.takeWhile p).length, mode := m } ∧ role ≠ .error

namespace Runs

variable {p : Nat → Bool} (hp : Runs m p)
include hp

theorem dropWhile (t : Text) : Clean m (t.dropWhile p) ↔ Clean m t := by
  cases t with
  | nil => rfl
  | cons c t =>
    cases hc : p c with
    | false => rw [List.dropWhile_cons_of_neg (by simp [hc])]
    | true =>
      obtain ⟨role, hrule, hrole⟩ := hp c t hc
      rw [List.dropWhile_cons_of_pos hc, clean_of_rule hrule rfl hrole, Regex.drop_length_takeWhile]

theorem cons (hc : p c) : Clean m (c :: t) ↔ Clean m t := by
  rw [← hp.dropWhile (c :: t), List.dropWhile_cons_of_pos hc, hp.dropWhile]

end Runs

def keepsLines (close : Nat) : Text → Bool
  | [] => true
  | c :: t =>
    if c = close then true
    else if c = '\\' then
      match t with
      | [] => true
      | d :: u => !isLineEnd d && keepsLines close u
    else keepsLines close t

section

variable {close : Nat}

theorem keepsLines_close : keepsLines close (close :: t) := by
  rw [keepsLines.eq_def]
  exact if_pos rfl

theorem keepsLines_plain (h : c ≠ close) (hc : c ≠ '\\') :
    keepsLines close (c :: t) = keepsLines close t := by
  rw [keepsLines.eq_def]
  exact (if_neg h).trans (if_neg hc)

theorem keepsLines_pair (h : '\\' ≠ close) :
    keepsLines close ('\\' :: c :: t) = (!isLineEnd c && keepsLines close t) := by
  rw [keepsLines.eq_def]
  exact (if_neg h).trans (if_pos rfl)

end

theorem escapeLength?_spec (hc : c ≠ '\n') :
    ∃ k, escapeLength? (c :: t) = some (k + 1) ∧ ∀ d ∈ t.take k, isHex d := by
  have ahead {n : Nat} (hn : hexAhead n t) : ∀ d ∈ t.take n, isHex d := by
    rw [hexAhead, Bool.and_eq_true] at hn
    exact List.all_eq_true.1 hn.2
  simp only [escapeLength?]
  split
  · next h => exact ⟨2, rfl, ahead (Bool.and_eq_true_iff.1 h).2⟩
  split
  · next h => exact ⟨4, rfl, ahead (Bool.and_eq_true_iff.1 h).2⟩
  split
  · refine ⟨((t.take 2).takeWhile Text.isAsciiDigit).length, by rw [Nat.add_comm], fun d hd => ?_⟩
    have hprefix : (t.take 2).takeWhile Text.isAsciiDigit <+: t :=
      (List.takeWhile_prefix _).trans (List.take_prefix _ _)
    rw [← List.prefix_iff_eq_take.1 hprefix] at hd
    exact Token.isHex_of_digit (List.mem_takeWhile_imp hd)
  split
  · next h => exact absurd (beq_iff_eq.1 h) hc
  · exact ⟨0, rfl, by simp⟩

structure Inside (close : Nat) (m : Mode) : Prop where
  rule : ∃ role, role ≠ .error ∧ ∀ c t, rule? m c t = insideRule close role m c t
  closes : Token.Closes close

theorem inside_literal (h : Token.isQuote c) : Inside c (.literal c) :=
  ⟨⟨.string, by decide, fun _ _ => rfl⟩, .inl h⟩

theorem inside_charClass : Inside ']' .charClass :=
  ⟨⟨.classText, by decide, fun _ _ => rfl⟩, .inr rfl⟩

namespace Inside

variable {close : Nat} (h : Inside close m)
include h

theorem runs : Runs m fun d : Nat => d != '\\' && d != close := by
  obtain ⟨role, hrole, hrule⟩ := h.rule
  intro c t hc
  simp only [Bool.and_eq_true, bne_iff_ne] at hc
  refine ⟨role, ?_, hrole⟩
  rw [hrule, insideRule, if_neg (by simpa using hc.2), if_neg (by simpa using hc.1)]

theorem plain (hc : c ≠ close) (hback : c ≠ '\\') : Clean m (c :: t) ↔ Clean m t :=
  h.runs.cons (by simpa using ⟨hback, hc⟩)

theorem feed (t : Text) : Clean m ('\n'.toNat :: t) ↔ Clean m t := by
  rcases h.closes.cases with rfl | rfl | rfl <;> exact h.plain (by decide) (by decide)

theorem leave : Clean m (close :: t) ↔ Clean .outside t := by
  obtain ⟨role, hrole, hrule⟩ := h.rule
  refine clean_of_rule (r := { role := role, mode := .outside }) ?_ rfl hrole
  rw [hrule, insideRule, if_pos (by simp)]

theorem drop {k : Nat} (hk : ∀ d ∈ t.take k, isHex d) : Clean m (t.drop k) ↔ Clean m t := by
  induction k generalizing t with
  | zero => rfl
  | succ k ih =>
    cases t with
    | nil => rfl
    | cons d t =>
      obtain ⟨hd, hk⟩ := List.forall_mem_cons.1 hk
      obtain ⟨hclose, hback⟩ := h.closes.not_hex hd
      rw [h.plain hclose hback]
      exact ih hk

/-- An escape takes a code point with its backslash, and the digits that may follow are as good as
plain ones. -/
theorem escape : Clean m ('\\'.toNat :: c :: t) ↔ c ≠ '\n' ∧ Clean m t := by
  obtain ⟨role, hrole, hrule⟩ := h.rule
  have hescape : rule? m '\\' (c :: t) =
      (escapeLength? (c :: t)).map fun n => { role := .escape, extra := n, mode := m } := by
    rw [hrule, insideRule, if_neg (by simpa using h.closes.ne_backslash),
      if_pos (beq_self_eq_true _)]
  by_cases hc : c = '\n'
  · subst hc
    exact iff_of_false (not_clean hescape (by decide)) fun hclean => hclean.1 rfl
  · obtain ⟨k, hlength, hhex⟩ := escapeLength?_spec (t := t) hc
    rw [hlength] at hescape
    rw [clean_of_rule hescape rfl (by simp), and_iff_right hc]
    exact h.drop hhex

theorem lineEnd (hc : isLineEnd c) : Clean m (handed (c :: t)) ↔ Clean m (handed t) :=
  of_handed_lineEnd (P := Clean m) h.feed hc

theorem clean_handed (hu : Token.inside? close t = some u) :
    Clean m (handed t) ↔ keepsLines close t ∧ Clean .outside (handed u) := by
  have hends : isLineEnd close = false := by
    rcases h.closes.cases with rfl | rfl | rfl <;> rfl
  fun_induction Token.inside? close t with
  | case1 => cases hu
  | case2 t =>
    cases hu
    rw [handed_cons hends, h.leave]
    exact (and_iff_right keepsLines_close).symm
  | case3 => cases hu
  | case4 c v hc ih =>
    rw [keepsLines_pair hc, handed_cons rfl]
    cases hline : isLineEnd c with
    | true =>
      obtain ⟨w, hw⟩ := handed_lineEnd (t := v) hline
      rw [hw, h.escape]
      simp
    | false =>
      have hne : c ≠ '\n' := by
        rintro rfl
        cases hline
      rw [handed_cons hline, h.escape, and_iff_right hne]
      exact ih hu
  | case5 c t hc hback ih =>
    rw [keepsLines_plain hc hback]
    cases hline : isLineEnd c with
    | true => exact (h.lineEnd hline).trans (ih hu)
    | false =>
      rw [handed_cons hline]
      exact (h.plain hc hback).trans (ih hu)

end Inside

theorem runs_blank : Runs .outside Rune.isBlank :=
  fun _ _ hc => ⟨.text, if_pos hc, by decide⟩

theorem outside_blank (h : Rune.isBlank c) : Clean .outside (c :: t) ↔ Clean .outside t :=
  runs_blank.cons h

theorem outside_lineEnd (hc : isLineEnd c) :
    Clean .outside (handed (c :: t)) ↔ Clean .outside (handed t) :=
  of_handed_lineEnd (P := Clean .outside) (fun _ => outside_blank (by decide)) hc

theorem outside_comment :
    Clean .outside ('#'.toNat :: t) ↔ Clean .outside (t.dropWhile (· != '\n'.toNat)) := by
  have hrule : rule? .outside '#' t = some
      { role := .comment, extra := (t.takeWhile (· != '\n'.toNat)).length, mode := .outside } := rfl
  rw [clean_of_rule hrule rfl (by simp), Regex.drop_length_takeWhile]

def plainSigns : Text :=
  ['/', '&', '!', '@', '?', '*', '+', '^', '.', '(', ')', '}']

theorem outside_plain (h : c ∈ plainSigns) : Clean .outside (c :: t) ↔ Clean .outside t := by
  have hrule : ∃ role, rule? .outside c t = some { role := role, mode := .outside } ∧
      role ≠ Role.error := by
    simp only [plainSigns, List.mem_cons, List.not_mem_nil, or_false] at h
    rcases h with rfl | rfl | rfl | rfl | rfl | rfl | rfl | rfl | rfl | rfl | rfl | rfl <;>
      exact ⟨_, rfl, by decide⟩
  obtain ⟨role, hrule, hrole⟩ := hrule
  exact clean_of_rule hrule rfl hrole

theorem runs_digit : Runs .outside Text.isAsciiDigit := by
  intro c t h
  have hcases : c = 48 ∨ c = 49 ∨ c = 50 ∨ c = 51 ∨ c = 52 ∨ c = 53 ∨ c = 54 ∨ c = 55 ∨
      c = 56 ∨ c = 57 := by
    simp only [Text.isAsciiDigit, Bool.and_eq_true, decide_eq_true_eq, Char.reduceToNat] at h
    omega
  refine ⟨.number, ?_, by decide⟩
  rcases hcases with rfl | rfl | rfl | rfl | rfl | rfl | rfl | rfl | rfl | rfl <;> rfl

theorem outside_brace : Clean .outside ('{'.toNat :: t) ↔ Clean .outside t := by
  cases hsearch : Text.startsWith ['@', '}'] t with
  | true =>
    obtain ⟨u, hu⟩ := Option.isSome_iff_exists.1 hsearch
    obtain rfl := Text.eq_append_of_dropPrefix? hu
    have hrule : rule? .outside '{' (['@'.toNat, '}'.toNat] ++ u) =
        some { role := .operator, extra := 2, mode := .outside } := rfl
    rw [clean_of_rule hrule rfl (by simp)]
    exact ((outside_plain (by decide)).trans (outside_plain (by decide))).symm
  | false =>
    have hrule : rule? .outside '{' t = some { role := .punctuation, mode := .outside } := by
      change wordRule '{' t = _
      simp only [wordRule, hsearch]
      rfl
    exact clean_of_rule hrule rfl (by simp)

theorem outside_dollar : Clean .outside ('$'.toNat :: t) ↔ Clean .outside t := by
  cases hdigits : (t.takeWhile Text.isAsciiDigit).length != 0 with
  | true =>
    have hlength : referenceLength? '$' t = some (t.takeWhile Text.isAsciiDigit).length := by
      simp only [referenceLength?, hdigits]
      rfl
    have hrule : rule? .outside '$' t =
        some { role := .reference, extra := (t.takeWhile Text.isAsciiDigit).length,
               mode := .outside } := by
      change outsideRule '$' t = _
      simp only [outsideRule, hlength]
      rfl
    rw [clean_of_rule hrule rfl (by simp), Regex.drop_length_takeWhile]
    exact runs_digit.dropWhile t
  | false =>
    have hlength : referenceLength? '$' t = none := by
      simp only [referenceLength?, hdigits]
      rfl
    have hrule : rule? .outside '$' t = some { role := .operator, mode := .outside } := by
      change outsideRule '$' t = _
      simp only [outsideRule, hlength]
      rfl
    exact clean_of_rule hrule rfl (by simp)

theorem outside_underscore :
    Clean .outside ('_'.toNat :: t) ↔ t.head?.any isNameRune = false ∧ Clean .outside t := by
  have hword : rule? .outside '_' t = wordRule '_' t := rfl
  cases hname : t.head?.any isNameRune with
  | true =>
    have hrule : rule? .outside '_' t = none := by
      rw [hword]
      simp only [wordRule, hname]
      rfl
    exact iff_of_false (not_clean hrule (by decide)) fun hscore => Bool.false_ne_true hscore.1.symm
  | false =>
    have hrule : rule? .outside '_' t = some { role := .pseudo, mode := .outside } := by
      rw [hword]
      simp only [wordRule, hname]
      rfl
    rw [clean_of_rule hrule rfl (by simp)]
    exact (and_iff_right rfl).symm

theorem outside_sign (h : c ∈ Token.signs) (hc : c ≠ '_') :
    Clean .outside (c :: t) ↔ Clean .outside t := by
  have hcases : c ∈ plainSigns ∨ c = '$' ∨ c = '{' ∨ Text.isAsciiDigit c := by
    have all : ∀ d ∈ Token.signs, d ≠ '_' →
        d ∈ plainSigns ∨ d = '$' ∨ d = '{' ∨ Text.isAsciiDigit d := by
      decide
    exact all c h hc
  rcases hcases with h | rfl | rfl | h
  · exact outside_plain h
  · exact outside_dollar
  · exact outside_brace
  · exact runs_digit.cons h

theorem letter_only (h : isLetter c) :
    Rune.isBlank c = false ∧ (c == '#'.toNat) = false ∧
      (c == '\''.toNat || c == '"'.toNat) = false ∧ (c == '['.toNat) = false ∧
      (c == '\\'.toNat) = false ∧ (c == '{'.toNat) = false ∧ isOperator c = false ∧
      (c == '.'.toNat) = false ∧ (c == '_'.toNat) = false ∧ isBracket c = false ∧
      Text.isAsciiDigit c = false := by
  have hlt : c < 128 := by
    simp only [isLetter, Bool.or_eq_true, Bool.and_eq_true, decide_eq_true_eq,
      Char.reduceToNat] at h
    omega
  have all : ∀ d < 128, isLetter d → Rune.isBlank d = false ∧ (d == '#'.toNat) = false ∧
      (d == '\''.toNat || d == '"'.toNat) = false ∧ (d == '['.toNat) = false ∧
      (d == '\\'.toNat) = false ∧ (d == '{'.toNat) = false ∧ isOperator d = false ∧
      (d == '.'.toNat) = false ∧ (d == '_'.toNat) = false ∧ isBracket d = false ∧
      Text.isAsciiDigit d = false := by
    decide
  exact all c hlt h

theorem rule_letter (h : isLetter c) : rule? .outside c t =
    match header? c t with
    | some (name, blanks) =>
      some { role := .function, extra := name, more := [(.text, blanks), (.operator, 2)],
             mode := .outside }
    | none =>
      if (c == 'i' || c == 'v' || c == 'y') && t.head?.any Token.isQuote then some
        { role := .affix, mode := .outside }
      else
        match referenceLength? c t with
        | some n => some { role := .reference, extra := n, mode := .outside }
        | none =>
          some { role := .name, extra := (t.takeWhile isNameRune).length, mode := .outside } := by
  obtain ⟨hblank, hhash, hquote, hclass, hback, hbrace, hoperator, hdot, hscore, hbracket,
      hdigit⟩ := letter_only h
  change outsideRule c t = _
  simp only [outsideRule, wordRule, hblank, hhash, hquote, hclass, hback, hbrace, hoperator, hdot,
    hscore, hbracket, hdigit, h, Bool.false_and, Bool.false_eq_true, if_false, if_true]
  rfl

theorem outside_header {n k : Nat} (h : isLetter c) (hheader : header? c t = some (n, k)) :
    Clean .outside (c :: t) ↔ Clean .outside (((t.drop n).drop k).drop 2) := by
  have hrule := rule_letter (t := t) h
  rw [hheader] at hrule
  have hpieces : ∀ piece ∈ (cutMore [(.text, k), (.operator, 2)] (t.drop n)).1,
      piece.role ≠ .error := by
    simp only [cutMore]
    split <;> split <;> simp
  have hrest : (cutMore [(.text, k), (.operator, 2)] (t.drop n)).2 =
      ((t.drop n).drop k).drop 2 := by
    simp only [cutMore]
    split <;> split <;> rfl
  rw [Clean, cut]
  simp only [rule, hrule, Option.getD_some, List.forall_mem_cons, List.cons_append,
    List.forall_mem_append, hrest]
  exact (and_iff_right (by decide)).trans (and_iff_right hpieces)

theorem outside_affix (hheader : header? c t = none) (hc : c = 'i' ∨ c = 'v' ∨ c = 'y')
    (hquote : t.head?.any Token.isQuote) : Clean .outside (c :: t) ↔ Clean .outside t := by
  have hletter : isLetter c := by
    rcases hc with rfl | rfl | rfl <;> rfl
  have hrule := rule_letter (t := t) hletter
  have haffix :
      ((c == 'i'.toNat || c == 'v'.toNat || c == 'y'.toNat) && t.head?.any Token.isQuote) =
      true := by
    rw [hquote]
    rcases hc with rfl | rfl | rfl <;> rfl
  rw [hheader, haffix] at hrule
  exact clean_of_rule hrule rfl (by simp)

theorem dollar_of_referenceLength? {n : Nat} (h : isLetter c)
    (hreference : referenceLength? c t = some n) :
    ∃ u, t = '$'.toNat :: u ∧ n = 1 + (u.takeWhile Text.isAsciiDigit).length := by
  simp only [referenceLength?] at hreference
  split at hreference
  · next hc =>
    obtain rfl := beq_iff_eq.1 (Bool.and_eq_true_iff.1 hc).1
    cases h
  split at hreference
  · next hc =>
    cases hreference
    obtain ⟨u, rfl⟩ :=
      List.head?_eq_some_iff.1
        (beq_iff_eq.1 (Bool.and_eq_true_iff.1 (Bool.and_eq_true_iff.1 hc).1).2)
    exact ⟨u, rfl, rfl⟩
  · cases hreference

theorem outside_name (h : isLetter c) (hheader : header? c t = none)
    (hquote : ¬ ((c = 'i' ∨ c = 'v' ∨ c = 'y') ∧ t.head?.any Token.isQuote)) :
    Clean .outside (c :: t) ↔ Clean .outside (t.dropWhile isNameRune) := by
  have hrule := rule_letter (t := t) h
  have hplain :
      ¬ ((c == 'i'.toNat || c == 'v'.toNat || c == 'y'.toNat) && t.head?.any Token.isQuote) =
      true := by
    simpa only [Bool.and_eq_true, Bool.or_eq_true, beq_iff_eq, or_assoc] using hquote
  rw [hheader] at hrule
  simp only at hrule
  rw [if_neg hplain] at hrule
  cases hreference : referenceLength? c t with
  | none =>
    rw [hreference] at hrule
    rw [clean_of_rule hrule rfl (by simp), Regex.drop_length_takeWhile]
  | some n =>
    -- a reference is cut as a whole, but its digits may as well be taken one by one
    rw [hreference] at hrule
    obtain ⟨u, rfl, rfl⟩ := dollar_of_referenceLength? h hreference
    have hname : ('$'.toNat :: u).dropWhile isNameRune = '$'.toNat :: u := rfl
    rw [hname, outside_dollar, clean_of_rule hrule rfl (by simp)]
    have hdrop : ('$'.toNat :: u).drop (1 + (u.takeWhile Text.isAsciiDigit).length) =
        u.dropWhile Text.isAsciiDigit := by
      rw [Nat.add_comm, List.drop_succ_cons, Regex.drop_length_takeWhile]
    rw [hdrop]
    exact runs_digit.dropWhile u

theorem outside_literal (h : Token.isQuote c) : Clean .outside (c :: t) ↔ Clean (.literal c) t := by
  have hrule : rule? .outside c t = some { role := .string, mode := .literal c } := by
    simp only [Token.isQuote, Bool.or_eq_true, beq_iff_eq] at h
    rcases h with rfl | rfl <;> rfl
  exact clean_of_rule hrule rfl (by simp)

theorem outside_charClass : Clean .outside ('['.toNat :: t) ↔ Clean .charClass t := by
  have hrule : rule? .outside '[' t = some { role := .classText, mode := .charClass } := rfl
  exact clean_of_rule hrule rfl (by simp)

theorem rule_backslash : rule? .outside '\\' t =
    (builtinLength? t).map fun n => { role := .keyword, extra := n, mode := .outside } := rfl

theorem hexAhead_eq (n : Nat) (t : Text) :
    hexAhead n t = (((t.takeWhile isHex).take n).length == n) := by
  induction n generalizing t with
  | zero => rfl
  | succ n ih =>
    cases t with
    | nil => rfl
    | cons c t =>
      have hstep : hexAhead (n + 1) (c :: t) = (isHex c && hexAhead n t) := by
        simp [hexAhead, Bool.and_left_comm]
      rw [hstep, ih]
      cases hc : isHex c <;> simp [hc]

theorem escapeLength?_handed (hc : isLineEnd c = false) :
    escapeLength? (handed (c :: t)) = escapeLength? (c :: t) := by
  have hhex := (span_handed (p := isHex) ⟨rfl, rfl⟩ t).1
  have hdigits := (span_handed (p := Text.isAsciiDigit) ⟨rfl, rfl⟩ t).1
  rw [handed_cons hc]
  simp only [escapeLength?, hexAhead_eq, ← List.take_takeWhile, hhex, hdigits]

theorem startsWith_run {b : Text} (hb : ∀ d ∈ b, isLetter d) (t : Text) :
    Text.startsWith b t = Text.startsWith b (t.takeWhile isLetter) := by
  induction b generalizing t with
  | nil => rfl
  | cons x b ih =>
    obtain ⟨hx, hb⟩ := List.forall_mem_cons.1 hb
    cases t with
    | nil => rfl
    | cons d t =>
      have hstep (u : Text) : Text.startsWith (x :: b) (d :: u) =
          if x = d then Text.startsWith b u else false := by
        simp only [Text.startsWith, Text.dropPrefix?]
        split <;> rfl
      cases hd : isLetter d with
      | true => rw [List.takeWhile_cons_of_pos hd, hstep, hstep, ih hb]
      | false =>
        have hne : x ≠ d := by
          rintro rfl
          rw [hx] at hd
          cases hd
        rw [List.takeWhile_cons_of_neg (by simp [hd]), hstep, if_neg hne]
        rfl

theorem find?_congr {α : Type} {p q : α → Bool} {xs : List α} (h : ∀ x ∈ xs, p x = q x) :
    xs.find? p = xs.find? q := by
  induction xs with
  | nil => rfl
  | cons x xs ih =>
    obtain ⟨hx, hxs⟩ := List.forall_mem_cons.1 h
    rw [List.find?_cons, List.find?_cons, hx, ih hxs]

theorem builtinLength?_eq (t : Text) : builtinLength? t =
    match builtinNames.find? fun n => Text.startsWith (Text.ofString n) (t.takeWhile isLetter) with
    | some n => some n.length
    | none => escapeLength? t := by
  have hletters : ∀ n ∈ builtinNames, ∀ d ∈ Text.ofString n, isLetter d := by
    decide
  rw [← find?_congr fun n hn => startsWith_run (hletters n hn) t]
  rfl

theorem builtinLength?_name {name : Text} (h : name ∈ Token.patternNames) (t : Text)
    (ht : (name ++ t).takeWhile isLetter = name) :
    builtinLength? (name ++ t) = some name.length := by
  rw [builtinLength?_eq, ht]
  simp only [Token.patternNames, List.map_cons, List.map_nil, List.mem_cons, List.not_mem_nil,
    or_false] at h
  rcases h with rfl | rfl | rfl | rfl | rfl | rfl | rfl | rfl | rfl | rfl | rfl | rfl | rfl | rfl |
    rfl | rfl <;> rfl

theorem builtinLength?_escape {e : Nat} (hlong : ¬ (1 < (t.takeWhile isLetter).length ∧
    (t.takeWhile isLetter).head? ≠ some 'x'.toNat ∧ (t.takeWhile isLetter).head? ≠ some 'u'.toNat))
    (h : Token.escape? t = some (e, rest)) (hu : u.takeWhile isLetter = t.takeWhile isLetter) :
    builtinLength? u = escapeLength? u := by
  have hnone : builtinNames.find?
      (fun n => Text.startsWith (Text.ofString n) (t.takeWhile isLetter)) = none := by
    refine List.find?_eq_none.2 fun n hn hstarts => ?_
    obtain ⟨r, hr⟩ := Option.isSome_iff_exists.1 hstarts
    have hname := Text.eq_append_of_dropPrefix? hr
    have all : ∀ n ∈ builtinNames, Text.ofString n = Text.ofString "upper" ∨
        1 < (Text.ofString n).length ∧ (Text.ofString n).head?.any fun c : Nat =>
        c != 'x' && c != 'u' := by
      decide
    rcases all n hn with hupper | ⟨hlength, hhead⟩
    · -- the one name with the first letter of an escape goes on with none of its digits
      rw [← List.takeWhile_append_dropWhile (p := isLetter) (l := t), hname, hupper] at h
      have hhex : Token.hex? 4 (Text.ofString "pper" ++ r ++ t.dropWhile isLetter) =
          some (e, rest) := h
      obtain ⟨w, hw, hfour, hall, -⟩ := Token.hex?_spec hhex
      cases w with
      | nil => cases hfour
      | cons d w =>
        have hd : 'p'.toNat = d := Option.some.inj (congrArg List.head? hw)
        have hp : isHex 'p' := hd ▸ hall d (List.mem_cons_self ..)
        cases hp
    · obtain ⟨c, hc, hne⟩ := (Option.any_eq_true _ _).1 hhead
      have hfirst : (t.takeWhile isLetter).head? = some c := by
        rw [hname, List.head?_append, hc]
        rfl
      simp only [Bool.and_eq_true, bne_iff_ne] at hne
      refine hlong ⟨?_, ?_, ?_⟩
      · rw [hname, List.length_append]
        omega
      · rw [hfirst]
        exact fun h => hne.1 (Option.some.inj h)
      · rw [hfirst]
        exact fun h => hne.2 (Option.some.inj h)
  rw [builtinLength?_eq, hu, hnone]

theorem letters_handed (t : Text) : (handed t).takeWhile isLetter = t.takeWhile isLetter :=
  (span_handed ⟨rfl, rfl⟩ t).1

theorem outside_known (h : t.takeWhile isLetter ∈ Token.patternNames) :
    Clean .outside (handed ('\\'.toNat :: t)) ↔ t.head?.any isLineEnd = false ∧
      Clean .outside (handed (t.dropWhile isLetter)) := by
  have hhead : t.head?.any isLineEnd = false := by
    cases t with
    | nil => rfl
    | cons c t =>
      by_cases hc : isLetter c
      · exact not_lineEnd (p := isLetter) ⟨rfl, rfl⟩ hc
      · rw [List.takeWhile_cons_of_neg hc] at h
        exact absurd h (by decide)
  have hhanded : handed t = t.takeWhile isLetter ++ handed (t.dropWhile isLetter) := by
    have happend :=
      handed_append (t := t.dropWhile isLetter) (u := t.takeWhile isLetter) fun d hd =>
      not_lineEnd (p := isLetter) ⟨rfl, rfl⟩ (List.mem_takeWhile_imp hd)
    rwa [List.takeWhile_append_dropWhile] at happend
  have hlength := builtinLength?_name h (handed (t.dropWhile isLetter)) (hhanded ▸ letters_handed t)
  have hrule := rule_backslash (t := handed t)
  rw [hhanded, hlength] at hrule
  rw [handed_cons rfl, hhanded, clean_of_rule hrule rfl (by simp), List.drop_left, hhead]
  exact (and_iff_right rfl).symm

theorem outside_escape {e : Nat} (hlong : ¬ (1 < (t.takeWhile isLetter).length ∧
    (t.takeWhile isLetter).head? ≠ some 'x'.toNat ∧ (t.takeWhile isLetter).head? ≠ some 'u'.toNat))
    (h : Token.escape? t = some (e, rest)) : Clean .outside (handed ('\\'.toNat :: t)) ↔
      t.head?.any isLineEnd = false ∧ Clean .outside (handed rest) := by
  rw [handed_cons rfl]
  cases t with
  | nil => cases h
  | cons c t =>
    cases hline : isLineEnd c with
    | true =>
      obtain ⟨v, hv⟩ := handed_lineEnd (t := t) hline
      have hrule : rule? .outside '\\' (handed (c :: t)) = none := by
        rw [rule_backslash, hv]
        rfl
      exact iff_of_false (not_clean hrule (by decide)) fun hclean => by simp [hline] at hclean
    | false =>
      have hne : c ≠ '\n' := by
        rintro rfl
        cases hline
      obtain ⟨w, rfl, hhex, hlength⟩ := Token.escapes_of_escape? h
      have hrule := rule_backslash (t := handed (c :: (w ++ rest)))
      rw [builtinLength?_escape hlong h (letters_handed _), escapeLength?_handed hline,
        hlength hne] at hrule
      have hhanded : handed (w ++ rest) = w ++ handed rest :=
        handed_append fun d hd => not_lineEnd (p := isHex) ⟨rfl, rfl⟩ (hhex d hd)
      have hdrop : (c :: (w ++ handed rest)).drop (w.length + 1) = handed rest := List.drop_left ..
      rw [clean_of_rule hrule rfl (by simp), handed_cons hline, hhanded, hdrop]
      simp [hline]

/-- A named pattern or an escape is clean unless the backslash stands at the end of a line. -/
theorem outside_named (h : Token.named? t = some u) : Clean .outside (handed ('\\'.toNat :: t)) ↔
    t.head?.any isLineEnd = false ∧ Clean .outside (handed u) := by
  rcases Token.named?_cases h with ⟨hknown, rfl⟩ | ⟨hlong, e, he⟩
  · exact outside_known hknown
  · exact outside_escape hlong he

theorem span_name (t : Text) : (handed t).takeWhile isNameRune = t.takeWhile isNameRune ∧
    (handed t).dropWhile isNameRune = handed (t.dropWhile isNameRune) :=
  span_handed ⟨rfl, rfl⟩ t

theorem blank_of_space (h : Token.isSpace c) : Rune.isBlank c := by
  simp only [Token.isSpace, Bool.or_eq_true, beq_iff_eq] at h
  rcases h with ((rfl | rfl) | rfl) | rfl <;> rfl

theorem dropBlank_handed (t : Text) :
    (handed t).dropWhile Rune.isBlank =
      (handed (t.dropWhile Token.isSpace)).dropWhile Rune.isBlank := by
  induction t with
  | nil => rfl
  | cons c t ih =>
    by_cases hc : Token.isSpace c
    · rw [List.dropWhile_cons_of_pos hc, ← ih]
      cases hline : isLineEnd c with
      | true =>
        have hsame :=
          of_handed_lineEnd (t := t)
            (P := fun v => v.dropWhile Rune.isBlank = (handed t).dropWhile Rune.isBlank)
            (fun _ => Iff.rfl) hline
        exact hsame.2 rfl
      | false => rw [handed_cons hline, List.dropWhile_cons_of_pos (blank_of_space hc)]
    · rw [List.dropWhile_cons_of_neg hc]

theorem behind_name (t : Text) : ((handed t).drop (t.takeWhile isNameRune).length).drop
      ((handed (t.dropWhile isNameRune)).takeWhile Rune.isBlank).length =
    (handed ((t.dropWhile isNameRune).dropWhile Token.isSpace)).dropWhile Rune.isBlank := by
  rw [← (span_name t).1, Regex.drop_length_takeWhile, (span_name t).2, Regex.drop_length_takeWhile,
    dropBlank_handed]

theorem header?_handed (c : Nat) (t : Text) :
    header? c (handed t) =
      if isLetter c && Text.startsWith ['<', '-']
        ((handed ((t.dropWhile isNameRune).dropWhile Token.isSpace)).dropWhile
          Rune.isBlank) then some ((t.takeWhile isNameRune).length,
          ((handed (t.dropWhile isNameRune)).takeWhile Rune.isBlank).length) else none := by
  rw [← behind_name, List.drop_drop]
  simp only [header?, (span_name t).1]
  rw [← (span_name t).1, Regex.drop_length_takeWhile, (span_name t).2]

theorem header?_of_spelled (h : Token.Spelled (t.dropWhile isNameRune)) (c : Nat) :
    header? c (handed t) = none := by
  have hstart : Text.startsWith ['<', '-']
      ((handed ((t.dropWhile isNameRune).dropWhile Token.isSpace)).dropWhile Rune.isBlank) =
      false := by
    have hhead := h.head
    cases hrest : (t.dropWhile isNameRune).dropWhile Token.isSpace with
    | nil => rfl
    | cons d v =>
      obtain ⟨hblank, harrow⟩ := hhead d (by rw [hrest]; rfl)
      have hline : isLineEnd d = false :=
        not_lineEnd (p := fun d => !Rune.isBlank d) ⟨rfl, rfl⟩ (by simp [hblank])
      rw [handed_cons hline, List.dropWhile_cons_of_neg (by simp [hblank])]
      have hnone : Text.dropPrefix? ['<', '-'] (d :: handed v) = none :=
        Token.dropPrefix?_eq_none fun e he => by cases he; exact harrow
      rw [Text.startsWith, hnone]
      rfl
  rw [header?_handed, hstart, Bool.and_false]
  rfl

theorem outside_head {name : Text} (h : Token.header? (c :: t) = some (name, rest)) :
    Clean .outside (handed (c :: t)) ↔ Clean .outside (handed rest) := by
  obtain ⟨hletter, hrest⟩ := Token.header?_spec h
  have hletter : isLetter c := hletter
  have hrest : (t.dropWhile isNameRune).dropWhile Token.isSpace = '<'.toNat :: '-'.toNat :: rest :=
    hrest
  have hbehind := behind_name t
  have hheader := header?_handed c t
  rw [hrest, handed_cons rfl, handed_cons rfl] at hbehind hheader
  rw [hletter] at hheader
  rw [handed_cons (not_lineEnd (p := isLetter) ⟨rfl, rfl⟩ hletter),
    outside_header hletter hheader, hbehind]
  rfl

end PegMatch.Highlight

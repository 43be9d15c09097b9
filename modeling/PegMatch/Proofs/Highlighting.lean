import PegMatch.Proofs.Caching
import PegMatch.Proofs.Cutting
import PegMatch.Proofs.Spelling

set_option autoImplicit false

namespace PegMatch

namespace Highlight

variable {c : Nat} {t u : Text}

def literalKeepsLines : Text → Bool
  | [] => true
  | quote :: t => keepsLines quote t

/-- The lexeme that starts here can be cut: no name follows the sign for any code point at once, and
no backslash stands at the end of a line. -/
def legible : Text → Bool
  | [] => true
  | c :: t =>
    if Token.isQuote c then keepsLines c t
    else if c = '[' then keepsLines ']' t
    else if c = '\\' then !t.head?.any isLineEnd
    else if c = '_' then !t.head?.any isNameRune
    else if c = 'v' ∧ t.head?.any Token.isQuote then literalKeepsLines t
    else true

/-- The text behind a literal in which a backslash takes the next code point with it. -/
def literalEnd? : Text → Option Text
  | [] => none
  | quote :: t => Token.inside? quote t

/-- The lexeme that starts here ends where it is cut: carriage returns stand only at the end of a
comment, and no backslash hides the last quote of a literal that is read as it stands. -/
def steady : Text → Bool
  | [] => true
  | c :: t =>
    if c = '#' then ((t.takeWhile (· != '\n'.toNat)).dropWhile (· != '\r'.toNat)).all
      (· == '\r'.toNat)
    else if c = 'v' ∧ t.head?.any Token.isQuote then literalEnd? t == Token.verbatimLiteral? t
    else true

theorem legible_of_letter (h : isLetter c) :
    legible (c :: t) = if c = 'v' ∧ t.head?.any Token.isQuote then literalKeepsLines
      t else true := by
  obtain ⟨-, -, hquote, hclass, hback⟩ := Token.letter_spec h
  have hscore : c ≠ '_' := by
    rintro rfl
    cases h
  rw [legible, hquote, if_neg Bool.false_ne_true, if_neg hclass, if_neg hback, if_neg hscore]

theorem clean_space (h : Token.isSpace c) :
    Clean .outside (handed (c :: t)) ↔ legible (c :: t) ∧ Clean .outside (handed t) := by
  have hlegible : legible (c :: t) = true := by
    simp only [Token.isSpace, Bool.or_eq_true, beq_iff_eq] at h
    rcases h with ((rfl | rfl) | rfl) | rfl <;> rfl
  rw [and_iff_right hlegible]
  cases hline : isLineEnd c with
  | true => exact outside_lineEnd hline
  | false =>
    rw [handed_cons hline]
    exact outside_blank (blank_of_space h)

theorem outside_lineEnds (h : ∀ d ∈ u, isLineEnd d) :
    Clean .outside (handed (u ++ t)) ↔ Clean .outside (handed t) := by
  induction u with
  | nil => rfl
  | cons d u ih =>
    obtain ⟨hd, hu⟩ := List.forall_mem_cons.1 h
    exact (outside_lineEnd hd).trans (ih hu)

theorem comment_parts (h : steady ('#' :: t)) :
    ∃ front returns, t = front ++ (returns ++ t.dropWhile (· != '\n'.toNat)) ∧
      (∀ d ∈ front, isLineEnd d = false) ∧ ∀ d ∈ returns, isLineEnd d := by
  refine ⟨(t.takeWhile (· != '\n'.toNat)).takeWhile (· != '\r'.toNat),
    (t.takeWhile (· != '\n'.toNat)).dropWhile (· != '\r'.toNat), ?_, fun d hd => ?_, fun d hd => ?_⟩
  · rw [← List.append_assoc, List.takeWhile_append_dropWhile, List.takeWhile_append_dropWhile]
  · have hreturn := List.mem_takeWhile_imp hd
    have hfeed := List.mem_takeWhile_imp ((List.takeWhile_prefix _).subset hd)
    rw [bne_iff_ne] at hreturn hfeed
    rw [isLineEnd, beq_false_of_ne hreturn, beq_false_of_ne hfeed]
    rfl
  · have hd := List.all_eq_true.1 (show List.all _ (· == '\r'.toNat) = true from h) d hd
    rw [beq_iff_eq.1 hd]
    rfl

theorem handed_ended (h : ∀ d ∈ t.head?, isLineEnd d) : ∃ u, handed t = '\n'.toNat :: u := by
  cases t with
  | nil => exact ⟨[], rfl⟩
  | cons d t => exact handed_lineEnd (h d rfl)

theorem clean_comment (h : steady ('#' :: t)) :
    Clean .outside (handed ('#' :: t)) ↔
      Clean .outside (handed (t.dropWhile fun d : Nat => d != '\n')) := by
  obtain ⟨front, returns, ht, hfront, hreturns⟩ := comment_parts h
  have hended : ∀ d ∈ (returns ++ t.dropWhile (· != '\n'.toNat)).head?, isLineEnd d := by
    intro d hd
    rw [List.head?_append] at hd
    cases hr : returns.head? with
    | some e =>
      rw [hr] at hd
      cases hd
      exact hreturns d (List.mem_of_mem_head? hr)
    | none =>
      rw [hr] at hd
      have hnot := List.head?_dropWhile_not (· != '\n'.toNat) t
      rw [show (t.dropWhile (· != '\n'.toNat)).head? = some d from hd] at hnot
      have hfeed : d = '\n' := by simpa using hnot
      rw [hfeed]
      rfl
  obtain ⟨v, hv⟩ := handed_ended hended
  have hline (d : Nat) (hd : d ∈ front) : (d != '\n'.toNat) = true := by
    rw [bne_iff_ne]
    rintro rfl
    cases hfront _ hd
  have hhanded : handed t = front ++ handed (returns ++ t.dropWhile (· != '\n'.toNat)) := by
    have happend := handed_append (t := returns ++ t.dropWhile (· != '\n'.toNat)) hfront
    rwa [← ht] at happend
  have hdrop : (handed t).dropWhile (· != '\n'.toNat) =
      handed (returns ++ t.dropWhile (· != '\n'.toNat)) := by
    rw [hhanded, List.dropWhile_append_of_pos hline, hv]
    rfl
  rw [handed_cons rfl, outside_comment, hdrop]
  exact outside_lineEnds hreturns

theorem clean_literal (hquote : Token.isQuote c) (h : Token.inside? c t = some u) :
    Clean .outside (handed (c :: t)) ↔ keepsLines c t ∧ Clean .outside (handed u) := by
  rw [handed_cons (not_lineEnd (p := Token.isQuote) ⟨rfl, rfl⟩ hquote), outside_literal hquote]
  exact (inside_literal hquote).clean_handed h

theorem clean_sign (h : c ∈ Token.signs) :
    Clean .outside (handed (c :: t)) ↔ legible (c :: t) ∧ Clean .outside (handed t) := by
  have all : ∀ d ∈ Token.signs, isLineEnd d = false := by
    decide
  obtain ⟨-, -, hquote, hclass, hback, hletter⟩ := Token.sign_spec h
  rw [handed_cons (all c h), legible, hquote, if_neg Bool.false_ne_true,
    if_neg hclass, if_neg hback]
  by_cases hscore : c = '_'
  · subst hscore
    have hnext := any_head?_handed (p := isNameRune) ⟨rfl, rfl⟩ t
    rw [outside_underscore, hnext, if_pos rfl, Bool.not_eq_true']
  · have hv : ¬ (c = 'v' ∧ t.head?.any Token.isQuote) := by
      rintro ⟨rfl, -⟩
      cases hletter
    rw [if_neg hscore, if_neg hv, outside_sign h hscore]
    exact (and_iff_right rfl).symm

theorem header?_of_quote (hquote : t.head?.any Token.isQuote) (h : Token.Spelled t) (c : Nat) :
    header? c (handed t) = none := by
  refine header?_of_spelled ?_ c
  obtain ⟨d, hd, hd'⟩ := (Option.any_eq_true _ _).1 hquote
  obtain ⟨u, rfl⟩ := List.head?_eq_some_iff.1 hd
  have hname : ¬ isNameRune d = true := by
    simp only [Token.isQuote, Bool.or_eq_true, beq_iff_eq] at hd'
    rcases hd' with rfl | rfl <;> exact Bool.false_ne_true
  rwa [List.dropWhile_cons_of_neg hname]

theorem clean_word (hletter : isLetter c) (h : Token.word? c t = some u) (hu : Token.Spelled u)
    (hsteady : steady (c :: t)) :
    Clean .outside (handed (c :: t)) ↔ legible (c :: t) ∧ Clean .outside (handed u) := by
  have hquote := any_head?_handed (p := Token.isQuote) ⟨rfl, rfl⟩ t
  have hplain {P : Prop} : P ↔ true = true ∧ P := (and_iff_right rfl).symm
  rw [legible_of_letter hletter]
  simp only [Token.word?] at h
  split at h
  · next name rest hheader =>
    cases h
    rw [if_neg fun hv => ?_, outside_head hheader]
    · exact hplain
    · rw [Token.header?_quote hv.2] at hheader
      cases hheader
  rw [handed_cons (not_lineEnd (p := isLetter) ⟨rfl, rfl⟩ hletter)]
  split at h
  · next haffix =>
    cases h
    obtain ⟨hc, hnext⟩ := haffix
    rw [if_neg fun hv => ?_, outside_affix (header?_of_quote hnext hu c) ?_ (hquote.trans hnext)]
    · exact hplain
    · exact hc.imp_right .inr
    · rcases hc with rfl | rfl <;> cases hv.1
  next haffix =>
  split at h
  · next hverbatim =>
    obtain ⟨rfl, hnext⟩ := hverbatim
    cases t with
    | nil => cases hnext
    | cons quote v =>
      -- both readings of the literal end at the same quote
      have hsame : (Token.inside? quote v == Token.verbatim? quote v) = true := by
        have hsteady := hsteady
        rw [steady, if_neg (by decide), if_pos ⟨rfl, hnext⟩] at hsteady
        exact hsteady
      have hinside : Token.inside? quote v = some u := (beq_iff_eq.1 hsame).trans h
      rw [if_pos ⟨rfl, hnext⟩, outside_affix ?_ (.inr (.inl rfl)) (hquote.trans hnext)]
      · exact clean_literal hnext hinside
      · exact header?_of_quote hnext (Token.spelled_literal hnext hinside hu) _
  · next hverbatim =>
    cases h
    rw [if_neg hverbatim, outside_name hletter (header?_of_spelled hu c) ?_, (span_name t).2]
    · exact hplain
    · rintro ⟨hi | hv | hy, hnext⟩
      · exact haffix ⟨.inl hi, hquote ▸ hnext⟩
      · exact hverbatim ⟨hv, hquote ▸ hnext⟩
      · exact haffix ⟨.inr hy, hquote ▸ hnext⟩

theorem clean_lexeme (h : Token.lexeme? t = some u) (hu : Token.Spelled u) (hsteady : steady t) :
    Clean .outside (handed t) ↔ legible t ∧ Clean .outside (handed u) := by
  cases t with
  | nil => cases h
  | cons c t =>
    simp only [Token.lexeme?] at h
    split at h
    · next hspace =>
      cases h
      exact clean_space hspace
    split at h
    · next hc =>
      cases h
      subst hc
      exact (clean_comment hsteady).trans (and_iff_right rfl).symm
    split at h
    · next hquote => rw [clean_literal hquote h, legible, if_pos hquote]
    split at h
    · next hc =>
      subst hc
      rw [handed_cons rfl, outside_charClass, inside_charClass.clean_handed h]
      rfl
    split at h
    · next hc =>
      subst hc
      rw [outside_named h, ← Bool.not_eq_true']
      rfl
    split at h
    · next hletter => exact clean_word hletter h hu hsteady
    split at h
    · next hsign =>
      cases h
      exact clean_sign hsign
    · cases h

/-- A text of steady lexemes is cut without errors exactly if all of them are legible. -/
theorem clean_of_spelled (h : Token.Spelled t) (hsteady : ∀ u ∈ Token.starts t, steady u) :
    Clean .outside (handed t) ↔ ∀ u ∈ Token.starts t, legible u := by
  induction h with
  | nil =>
    have hclean : Clean .outside (handed []) := by
      rw [handed_nil, outside_blank (by decide), Clean, cut]
      simp
    exact iff_of_true hclean (by simp [Token.starts, Token.startsIn])
  | @cons t u h hu ih =>
    rw [Token.starts_of_lexeme? h, List.forall_mem_cons] at hsteady ⊢
    rw [clean_lexeme h hu hsteady.1, ih hsteady.2]

theorem dropByteOrderMark_of_spelled (h : Token.Spelled t) : Text.dropByteOrderMark t = t := by
  unfold Text.dropByteOrderMark
  split
  · cases h with
    | cons h => cases h
  · rfl

theorem clean_trimLines (t : Text) : Clean .outside (trimLines t) ↔ Clean .outside (endLine t) := by
  induction t with
  | nil => rfl
  | cons c t ih =>
    by_cases hc : c = '\n'
    · subst hc
      refine Iff.trans ih ?_
      rcases endLine_feed t with h | ⟨h, h'⟩
      · rw [h]
        exact (outside_blank (by decide)).symm
      · rw [h, h']
    · have htrim : trimLines (c :: t) = endLine (c :: t) := by
        rw [trimLines, List.dropWhile_cons_of_neg (by simpa using hc), endLine]
      rw [htrim]

/-- A text that is made up of steady lexemes has no error exactly if all of them are legible. -/
theorem tokens_of_spelled (h : Token.Spelled t) (hsteady : ∀ u ∈ Token.starts t, steady u) :
    (∀ piece ∈ tokens t, piece.role ≠ .error) ↔ ∀ u ∈ Token.starts t, legible u := by
  have htokens : tokens t = cut .outside (trimLines (Text.unifyLines t)) := by
    rw [tokens, Text.condition, dropByteOrderMark_of_spelled h]
  rw [htokens]
  exact (clean_trimLines _).trans (clean_of_spelled h hsteady)

end Highlight

namespace Library

open Highlight

/-- Whatever was done with a library, a text that is compiled is made up of lexemes, and if these
are steady, no piece of the text is an error exactly if all of them are legible. -/
theorem clean_iff_legible (c : Config) (depth : Nat) (steps : List Step) (x : Request) {p : Pattern}
    {l' : Library}
    (h : compile x.text x.file x.inline x.config (steps.foldl step { config := c, depth }) =
      .ok p l')
    (hsteady : ∀ t ∈ Token.starts x.text, steady t) :
    Token.Spelled x.text ∧
    ((∀ piece ∈ tokens x.text, piece.role ≠ .error) ↔ ∀ t ∈ Token.starts x.text, legible t) := by
  have hanswers := (((sound_new c depth).run steps).compile x).2
  rw [h] at hanswers
  obtain ⟨p₀, s₀, log, ρ, hparse, -⟩ := hanswers.1
  have hspelled : Token.Spelled x.text := Grammar.spelled_of_parse hparse
  exact ⟨hspelled, tokens_of_spelled hspelled hsteady⟩

/-- A rule with a literal that is read as it stands, a class, a reference, an escape and a comment
that ends in a carriage return. -/
def ruled : Request where
  text := Text.ofString "R <- v'a\\b' \x7b[^\\]x]\x7d i$1 \\x41 _ # end\r\n"

theorem ruled_is_clean :
    (∃ p l', compile ruled.text ruled.file ruled.inline ruled.config { config := .standard } =
      .ok p l') ∧
    (∀ t ∈ Token.starts ruled.text, steady t) ∧ Token.Spelled ruled.text ∧
    ∀ piece ∈ tokens ruled.text, piece.role ≠ .error := by
  have hlength : (compileAll [ruled] { config := .standard }).1.length = 1 := by
    rw [Config.standard_eq]
    decide +kernel
  have hsteady : ∀ t ∈ Token.starts ruled.text, steady t := by
    decide +kernel
  have hlegible : ∀ t ∈ Token.starts ruled.text, legible t := by
    decide +kernel
  obtain ⟨p, l', h⟩ := compiles_of_length hlength
  obtain ⟨hspelled, hclean⟩ := clean_iff_legible .standard _ [] ruled h hsteady
  exact ⟨⟨p, l', h⟩, hsteady, hspelled, hclean.2 hlegible⟩

/-- Texts that compile and yet have an error: a backslash hides the last quote of a literal that is
read as it stands, a backslash stands at the end of a line, a sign for any code point stands before
another one, and a comment goes on behind a carriage return. -/
def erring : List Text :=
  [Text.ofString "v'\\' '%'", Text.ofString "'\\\n'", Text.ofString "[\\\r]", Text.ofString "\\\n",
    Text.ofString "__", Text.ofString "'a' # b\r%"]

theorem erring_compile_with_error : erring.Forall fun t =>
    (∃ p l', compile t none none none { config := .standard } = .ok p l') ∧
    ∃ piece ∈ tokens t, piece.role = .error := by
  have all : ∀ t ∈ erring, (compileAll [{ text := t }] { config := .standard }).1.length = 1 ∧
      ∃ piece ∈ tokens t, piece.role = .error := by
    rw [Config.standard_eq]
    decide +kernel
  refine List.forall_iff_forall_mem.2 fun t ht => ?_
  obtain ⟨hlength, herror⟩ := all t ht
  exact ⟨compiles_of_length (x := { text := t }) hlength, herror⟩

end Library

end PegMatch

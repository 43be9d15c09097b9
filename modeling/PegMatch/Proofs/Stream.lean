import PegMatch.Proofs.Syntax

set_option autoImplicit false

namespace PegMatch.Grammar

open Token

theorem Name.eq_cons (n : Name) : ∃ c t, n.text = c :: t ∧ isLetter c ∧ ∀ x ∈ t, isNameRune x := by
  obtain ⟨text, valid⟩ := n
  cases text with
  | nil => cases valid
  | cons c t =>
    simp only [isName, Bool.and_eq_true, List.all_eq_true] at valid
    exact ⟨c, t, rfl, valid.1, valid.2⟩

theorem isLetter_iff {c : Nat} : isLetter c ↔ (97 ≤ c ∧ c ≤ 122) ∨ (65 ≤ c ∧ c ≤ 90) := by
  simp [isLetter]

theorem isSpace_iff {c : Nat} : isSpace c ↔ c = 32 ∨ c = 9 ∨ c = 13 ∨ c = 10 := by
  simp [isSpace, or_assoc]

theorem isNameRune_iff {c : Nat} :
    isNameRune c ↔ (97 ≤ c ∧ c ≤ 122) ∨ (65 ≤ c ∧ c ≤ 90) ∨ (48 ≤ c ∧ c ≤ 57) ∨ c = 95 := by
  simp [isNameRune, isLetter, Text.isAsciiDigit, or_assoc]

theorem isQuote_iff {c : Nat} : isQuote c ↔ c = 39 ∨ c = 34 := by
  simp [isQuote]

def Lexeme.Starts : Lexeme → Nat → Prop
  | .sign s, c => s.text.head? = some c
  | .atom _, c => c ∈ Text.ofString "'iy[._^$\\"
  | .name _, c => isLetter c
  | .header _, c => isLetter c

theorem Lexeme.Spells.eq_cons {l : Lexeme} {t : Text} (h : l.Spells t) :
    ∃ c u, t = c :: u ∧ l.Starts c := by
  have marked (how : Comparison) {c : Nat} (hc : c ∈ Text.ofString "'$") (u : Text) :
      ∃ d v, Pattern.Comparison.mark how ++ c :: u = d :: v ∧ d ∈ Text.ofString "'iy[._^$\\" := by
    cases how with
    | exact =>
      have hall : ∀ k ∈ Text.ofString "'$", k ∈ Text.ofString "'iy[._^$\\" := by decide
      exact ⟨c, u, rfl, hall c hc⟩
    | ignoreCase => exact ⟨_, _, rfl, by decide⟩
    | ignoreStyle => exact ⟨_, _, rfl, by decide⟩
  cases l with
  | sign s =>
    subst h
    cases s with
    | operator o => cases o <;> exact ⟨_, _, rfl, rfl⟩
    | suffix s => cases s <;> exact ⟨_, _, rfl, rfl⟩
    | _ => exact ⟨_, _, rfl, rfl⟩
  | atom a =>
    subst h
    cases a with
    | literal how t => exact marked how (by decide) _
    | backref how number => exact marked how (by decide) _
    | _ => exact ⟨_, _, rfl, by simp [Lexeme.Starts, Text.ofString]⟩
  | name n =>
    subst h
    obtain ⟨c, u, hn, hc, -⟩ := n.eq_cons
    exact ⟨c, u, hn, hc⟩
  | header n =>
    obtain ⟨gap, -, rfl⟩ := h
    obtain ⟨c, u, hn, hc, -⟩ := n.eq_cons
    exact ⟨c, u ++ (gap ++ ['<'.toNat, '-'.toNat]), by rw [hn]; rfl, hc⟩

theorem Lexeme.Starts.ne {l : Lexeme} {c : Nat} (h : l.Starts c) {d : Nat} (hl : isLetter d = false)
    (ha : d ∉ Text.ofString "'iy[._^$\\") (hs : ∀ s, l = .sign s → s.text.head? ≠ some d) :
    c ≠ d := by
  rintro rfl
  cases l with
  | sign s => exact hs s rfl h
  | atom a => exact ha h
  | name n => simp [Lexeme.Starts, hl] at h
  | header n => simp [Lexeme.Starts, hl] at h

def Solid (c : Nat) : Prop :=
  ¬ isSpace c ∧ c ≠ '#'.toNat ∧ c ≠ '<'.toNat

theorem Lexeme.Starts.solid {l : Lexeme} {c : Nat} (h : l.Starts c) : Solid c := by
  have hsign (d : Nat) (hd : d ∈ Text.ofString " \t\r\n#<") (s : Sign) : s.text.head? ≠ some d := by
    have hall : ∀ k ∈ Text.ofString " \t\r\n#<", ∀ s : Sign, s.text.head? ≠ some k := by
      intro k hk s
      cases s with
      | operator o => cases o <;> revert k <;> decide
      | suffix s => cases s <;> revert k <;> decide
      | _ => revert k; decide
    exact hall d hd s
  have hne (d : Nat) (hd : d ∈ Text.ofString " \t\r\n#<") : c ≠ d := by
    have hletter : ∀ k ∈ Text.ofString " \t\r\n#<", isLetter k = false := by decide
    have hatom : ∀ k ∈ Text.ofString " \t\r\n#<", k ∉ Text.ofString "'iy[._^$\\" := by decide
    exact h.ne (hletter d hd) (hatom d hd) fun s _ => hsign d hd s
  refine ⟨?_, hne _ (by decide), hne _ (by decide)⟩
  rw [isSpace_iff]
  rintro (rfl | rfl | rfl | rfl) <;> exact hne _ (by decide) rfl

theorem Lexeme.Spells.head {l : Lexeme} {t : Text} (h : l.Spells t) :
    ∃ c u, t = c :: u ∧ Solid c := by
  obtain ⟨c, u, ht, hc⟩ := h.eq_cons
  exact ⟨c, u, ht, hc.solid⟩

theorem skipBlanks_comment {body : Text} (h : '\n'.toNat ∉ body) (t : Text) :
    skipBlanks true (body ++ '\n'.toNat :: t) = skipBlanks false t := by
  induction body with
  | nil => rfl
  | cons c body ih =>
    simp only [List.mem_cons, not_or] at h
    have hc : (c != '\n'.toNat) = true := by
      simp only [bne_iff_ne, ne_eq]
      exact Ne.symm h.1
    simp only [List.cons_append, skipBlanks, if_true, hc]
    exact ih h.2

theorem Layout.skipBlanks {gap : Text} (h : Layout gap) (t : Text) :
    skipBlanks false (gap ++ t) = skipBlanks false t := by
  induction h with
  | nil => rfl
  | blank hc _ ih =>
    simpa only [List.cons_append, Token.skipBlanks, Bool.false_eq_true, if_false, hc,
      if_true] using ih
  | @comment body rest hb _ ih =>
    have hnot : isSpace '#'.toNat = false := rfl
    simp only [List.cons_append, List.append_assoc, Token.skipBlanks, Bool.false_eq_true, if_false,
      hnot, if_true]
    rw [skipBlanks_comment hb, ih]

theorem skipBlanks_solid {c : Nat} (h : Solid c) (t : Text) :
    skipBlanks false (c :: t) = c :: t := by
  obtain ⟨hs, hh, -⟩ := h
  simp only [skipBlanks, Bool.false_eq_true, if_false, hs, hh]

structure Front (l : Lexeme) (ls : List Lexeme) (t u rest : Text) : Prop where
  spells : l.Spells u
  apart : l.EndsBefore rest
  more : Stream ls rest
  skip : skipBlanks false t = u ++ rest

theorem Stream.front {l : Lexeme} {ls : List Lexeme} {t : Text} (h : Stream (l :: ls) t) :
    ∃ u rest, Front l ls t u rest := by
  cases h with
  | @cons gap u rest _ _ layout spells apart more =>
    refine ⟨u, rest, spells, apart, more, ?_⟩
    obtain ⟨c, v, rfl, hc⟩ := spells.head
    rw [layout.skipBlanks]
    exact skipBlanks_solid hc _

theorem Stream.skip_nil {t : Text} (h : Stream [] t) : skipBlanks false t = [] := by
  cases h with
  | nil layout => simpa [Token.skipBlanks] using layout.skipBlanks []

theorem Stream.skip {ls : List Lexeme} {t : Text} (h : Stream ls t) :
    Stream ls (skipBlanks false t) := by
  cases ls with
  | nil => rw [h.skip_nil]; exact .nil .nil
  | cons l ls =>
    obtain ⟨u, rest, hf⟩ := h.front
    rw [hf.skip]
    exact .cons .nil hf.spells hf.apart hf.more

theorem Stream.length_le {ls : List Lexeme} {t : Text} (h : Stream ls t) :
    ls.length ≤ t.length := by
  induction h with
  | nil => simp
  | cons _ spells _ _ ih =>
    obtain ⟨c, u, rfl, -⟩ := spells.eq_cons
    simp only [List.length_append, List.length_cons]
    omega

theorem boundary_nil : Boundary [] :=
  ⟨by simp, by simp⟩

theorem Boundary.not_letter {rest : Text} (hb : Boundary rest) :
    ∀ c ∈ rest.head?, ¬ isLetter c := by
  intro c hc hl
  have := (hb.head c hc).1
  simp [isNameRune, hl] at this

theorem Boundary.not_digit {rest : Text} (hb : Boundary rest) :
    ∀ c ∈ rest.head?, ¬ Text.isAsciiDigit c := by
  intro c hc hd
  have := (hb.head c hc).1
  simp [isNameRune, hd] at this

theorem Layout.boundary {gap rest : Text} (h : Layout gap) (hne : gap ≠ [])
    (hrest : ∀ c ∈ rest.head?, Solid c) : Boundary (gap ++ rest) := by
  have harrow : ((gap ++ rest).dropWhile isSpace).head? ≠ some '<'.toNat := by
    clear hne
    induction h with
    | nil =>
      cases rest with
      | nil => simp
      | cons c rest =>
        obtain ⟨hs, -, ha⟩ := hrest c (by simp)
        simpa [hs] using ha
    | blank hc _ ih => simpa [hc] using ih
    | comment => exact fun h => absurd (Option.some.inj h) (by decide)
  refine ⟨?_, harrow⟩
  cases h with
  | nil => exact absurd rfl hne
  | blank hc =>
    rintro _ ⟨rfl⟩
    rw [isSpace_iff] at hc
    simp only [isNameRune_iff, isQuote_iff, Char.reduceToNat]
    omega
  | comment =>
    rintro _ ⟨rfl⟩
    decide

theorem Printed.head {ls : List Lexeme} {t : Text} (h : Printed ls t) : ∀ c ∈ t.head?, Solid c := by
  have front {l : Lexeme} {t u : Text} (h : l.Spells t) : ∀ c ∈ (t ++ u).head?, Solid c := by
    obtain ⟨d, v, rfl, hd⟩ := h.head
    rintro _ ⟨rfl⟩
    exact hd
  cases h with
  | nil => simp
  | one spells => simpa using front (u := []) spells
  | cons spells => exact front spells

theorem Printed.stream {ls : List Lexeme} {gap t : Text} (hgap : Layout gap) (h : Printed ls t) :
    Stream ls (gap ++ t) := by
  induction h generalizing gap with
  | nil => simpa using Stream.nil hgap
  | one spells => simpa using Stream.cons hgap spells (.inr (.inl boundary_nil)) (.nil .nil)
  | cons spells layout apart more ih =>
    exact .cons hgap spells (.inr (.inl (layout.boundary apart more.head))) (ih layout)

theorem name?_eq (n : Name) {rest : Text} (h : ∀ c ∈ rest.head?, ¬ isNameRune c) :
    name? (n.text ++ rest) = some (n.text, rest) := by
  obtain ⟨c, t, hn, hc, ht⟩ := n.eq_cons
  simp only [hn, List.cons_append, name?, hc, if_true, takeWhile_append_stop ht h,
    dropWhile_append_stop ht h]

theorem dropPrefix?_arrow {t : Text} (h : t.head? ≠ some '<'.toNat) :
    Text.dropPrefix? ['<'.toNat, '-'.toNat] t = none := by
  cases t with
  | nil => rfl
  | cons c t =>
    have hc : ¬ '<'.toNat = c := fun he => h (by rw [he]; rfl)
    simp only [Text.dropPrefix?, if_neg hc]

theorem header?_of_name? {t name rest : Text} (hn : name? t = some (name, rest))
    (h : (rest.dropWhile isSpace).head? ≠ some '<'.toNat) : header? t = none := by
  simp only [header?, hn, Option.bind_eq_bind, Option.bind_some, dropPrefix?_arrow h,
    Option.bind_none]

theorem header?_of_not_letter {c : Nat} (h : isLetter c = false) (t : Text) :
    header? (c :: t) = none := by
  simp [header?, name?, h]

theorem header?_of_mark {c d : Nat} (hc : isLetter c) (hd : isNameRune d = false)
    (hs : isSpace d = false) (ha : d ≠ '<'.toNat) (t : Text) : header? (c :: d :: t) = none := by
  have hname : name? (c :: d :: t) = some ([c], d :: t) := by simp [name?, hc, hd]
  exact header?_of_name? hname (by simpa [hs] using ha)

theorem header?_header {n : Name} {u : Text} (h : (Lexeme.header n).Spells u) (rest : Text) :
    header? (u ++ rest) = some (n.text, rest) := by
  obtain ⟨gap, hgap, rfl⟩ := h
  have hname : name? (n.text ++ (gap ++ ['<'.toNat, '-'.toNat] ++ rest)) =
      some (n.text, gap ++ ['<'.toNat, '-'.toNat] ++ rest) := by
    apply name?_eq
    cases gap with
    | nil => rintro _ ⟨rfl⟩; decide
    | cons c gap =>
      rintro _ ⟨rfl⟩
      have := hgap c (by simp)
      rw [isSpace_iff] at this
      rw [isNameRune_iff]
      omega
  have hdrop : (gap ++ ['<'.toNat, '-'.toNat] ++ rest).dropWhile isSpace =
      ['<'.toNat, '-'.toNat] ++ rest := by
    rw [List.append_assoc]
    apply dropWhile_append_stop hgap
    rintro _ ⟨rfl⟩
    decide
  rw [List.append_assoc]
  simp only [header?, hname, Option.bind_eq_bind, Option.bind_some, hdrop, Text.dropPrefix?_append]

def Lexeme.isStart : Lexeme → Bool
  | .sign (.operator _) | .sign .captured | .sign .skip | .sign .openGroup | .sign .openCapture =>
    true
  | .sign _ => false
  | .atom _ => true
  | .name _ => true
  | .header _ => false

theorem header?_start {l : Lexeme} {u rest : Text} (h : l.isStart) (spells : l.Spells u)
    (apart : l.EndsBefore rest) : header? (u ++ rest) = none := by
  have marked (how : Comparison) {d : Nat} (hl : isLetter d = false) (hd : isNameRune d = false)
      (hs : isSpace d = false) (ha : d ≠ '<'.toNat) (t : Text) :
      header? (Pattern.Comparison.mark how ++ d :: t) = none := by
    cases how with
    | exact => exact header?_of_not_letter hl t
    | ignoreCase => exact header?_of_mark (by decide) hd hs ha t
    | ignoreStyle => exact header?_of_mark (by decide) hd hs ha t
  cases l with
  | sign s =>
    subst spells
    cases s with
    | operator o => cases o <;> exact header?_of_not_letter rfl _
    | captured => exact header?_of_not_letter rfl _
    | skip => exact header?_of_not_letter rfl _
    | openGroup => exact header?_of_not_letter rfl _
    | openCapture => exact header?_of_not_letter rfl _
    | _ => cases h
  | atom a =>
    subst spells
    cases a with
    | literal how t =>
      simp only [Atom.text, Text.asLiteral, List.append_assoc, List.cons_append]
      exact marked how rfl rfl rfl (by decide) _
    | backref how number =>
      simp only [Atom.text, List.append_assoc, List.cons_append]
      exact marked how rfl rfl rfl (by decide) _
    | _ => exact header?_of_not_letter rfl _
  | name n =>
    subst spells
    have hb := apart.boundary (by simp [Lexeme.isClosed]) (by simp)
    exact header?_of_name? (name?_eq n fun c hc => (hb.head c hc).1) hb.arrow
  | header n => cases h

end PegMatch.Grammar

import PegMatch.Grammar.Token

set_option autoImplicit false

namespace PegMatch

/-- A mistake that a text can make: it is never left before its end. -/
def Mistake.Ordinary : Mistake → Prop
  | .endExpected _ => False
  | _ => True

namespace Token

theorem suffix_tail {c : Nat} {t u : Text} (h : c :: t <:+ u) : t <:+ u :=
  (List.suffix_cons c t).trans h

theorem skipBlanks_suffix (inComment : Bool) (t : Text) : skipBlanks inComment t <:+ t := by
  fun_induction skipBlanks inComment t with
  | case1 => exact List.suffix_refl _
  | case2 c t ih => exact ih.trans (List.suffix_cons c t)
  | case3 _ c t _ _ ih => exact ih.trans (List.suffix_cons c t)
  | case4 _ t _ _ ih => exact ih.trans (List.suffix_cons _ t)
  | case5 => exact List.suffix_refl _

theorem skipBlanks_skipBlanks (inComment : Bool) (t : Text) :
    skipBlanks false (skipBlanks inComment t) = skipBlanks inComment t := by
  fun_induction skipBlanks inComment t with
  | case1 => rfl
  | case2 _ _ ih => exact ih
  | case3 _ _ _ _ _ ih => exact ih
  | case4 _ _ _ _ ih => exact ih
  | case5 _ c t _ hspace hc =>
    rw [skipBlanks, if_neg Bool.false_ne_true, if_neg hspace, if_neg hc]

theorem suffix_of_name? {t name rest : Text} (h : name? t = some (name, rest)) :
    rest <:+ t ∧ rest.length < t.length := by
  cases t with
  | nil => cases h
  | cons c t =>
    simp only [name?] at h
    split at h
    · cases h
      have hrest := List.dropWhile_suffix (l := t) isNameRune
      exact ⟨hrest.trans (List.suffix_cons c t), Nat.lt_succ_of_le hrest.length_le⟩
    · cases h

theorem suffix_of_header? {t name rest : Text} (h : header? t = some (name, rest)) :
    rest <:+ t ∧ rest.length < t.length := by
  simp only [header?, bind, Option.bind_eq_some_iff, Prod.exists] at h
  obtain ⟨name', rest', hname, rest'', harrow, h⟩ := h
  cases h
  obtain ⟨hsuffix, hlength⟩ := suffix_of_name? hname
  have hdrop : rest <:+ rest'.dropWhile isSpace := by
    rw [Text.eq_append_of_dropPrefix? harrow]
    exact List.suffix_append _ _
  have hrest := hdrop.trans (List.dropWhile_suffix isSpace)
  exact ⟨hrest.trans hsuffix, Nat.lt_of_le_of_lt hrest.length_le hlength⟩

theorem suffix_of_hex? {width n : Nat} {t rest : Text} (h : hex? width t = some (n, rest)) :
    rest <:+ t := by
  simp only [hex?] at h
  split at h
  · obtain ⟨n', -, h⟩ := Option.map_eq_some_iff.1 h
    cases h
    exact List.drop_suffix _ _
  · cases h

theorem suffix_of_escape? {t rest : Text} {e : Nat} (h : escape? t = some (e, rest)) :
    rest <:+ t := by
  cases t with
  | nil => cases h
  | cons c t =>
    have hcons := List.suffix_cons c t
    simp only [escape?] at h
    split at h
    · cases h
      exact hcons
    split at h
    · exact (suffix_of_hex? h).trans hcons
    split at h
    · exact (suffix_of_hex? h).trans hcons
    split at h
    · simp only [decimal, Option.some.injEq, Prod.mk.injEq] at h
      rw [← h.2]
      exact List.drop_suffix _ _
    split at h
    · cases h
    · cases h
      exact hcons

/-- What is left lies in the rest of the text and is shorter, and a mistake is an ordinary one. -/
def Leaves {α : Type} (t : Text) : Except Trouble (α × Text) → Prop
  | .ok (_, rest) => rest <:+ t ∧ rest.length < t.length
  | .error (m, _) => m.Ordinary

variable {α β : Type} {t u : Text} {x : Except Trouble (α × Text)}

theorem Leaves.map (h : Leaves t x) (f : α → β) : Leaves t (x.map fun p => (f p.1, p.2)) := by
  cases x <;> exact h

theorem Leaves.mono (h : Leaves u x) (hsuffix : u <:+ t) : Leaves t x := by
  cases x with
  | error e => exact h
  | ok p => exact ⟨h.1.trans hsuffix, Nat.lt_of_lt_of_le h.2 hsuffix.length_le⟩

theorem leaves_literalBody (quote : Nat) (verbatim : Bool) (start t : Text) :
    Leaves t (literalBody quote verbatim start t) := by
  fun_induction literalBody quote verbatim start t with
  | case1 => trivial
  | case2 t => exact ⟨List.suffix_cons _ t, Nat.lt_succ_self _⟩
  | case3 => trivial
  | case4 c t _ _ e rest he _ ih =>
    exact (ih.map (e :: ·)).mono ((suffix_of_escape? he).trans (List.suffix_cons c t))
  | case5 c t _ _ ih => exact (ih.map (c :: ·)).mono (List.suffix_cons c t)

theorem leaves_literal (verbatim : Bool) (t : Text) : Leaves t (literal verbatim t) := by
  cases t with
  | nil => trivial
  | cons c t => exact (leaves_literalBody c verbatim (c :: t) t).mono (List.suffix_cons c t)

theorem leaves_classItem (c : Nat) (t : Text) : Leaves (c :: t) (classItem c t) := by
  have hcons := List.suffix_cons c t
  have escaped (start : Text) : Leaves (c :: t) (classEscape start t) := by
    simp only [classEscape]
    split
    · next he =>
      have hrest := suffix_of_escape? he
      exact ⟨hrest.trans hcons, Nat.lt_succ_of_le hrest.length_le⟩
    · trivial
  simp only [classItem]
  split
  · split
    · exact escaped _
    · split
      · next a rest _ s _ =>
          exact ⟨(List.suffix_cons a rest).trans hcons, by simp only [List.length_cons]; omega⟩
      · exact escaped _
  · exact ⟨hcons, Nat.lt_succ_self _⟩

theorem suffix_of_rangeEnd? {t rest : Text} {c : Nat} (h : rangeEnd? t = some (c, rest)) :
    c :: rest <:+ t := by
  unfold rangeEnd? at h
  split at h
  · split at h
    · cases h
    · cases h
      exact List.suffix_cons _ _
  · cases h

theorem leaves_classBody (start : Text) (members : RuneSet) (t : Text) :
    Leaves t (classBody start members t) := by
  have item {c : Nat} {t rest : Text} {i : ClassItem} (h : classItem c t = .ok (i, rest)) :
      rest <:+ c :: t := by
    have hleaves := leaves_classItem c t
    rw [h] at hleaves
    exact hleaves.1
  have mistake {c : Nat} {t : Text} {e : Trouble} (h : classItem c t = .error e) :
      e.1.Ordinary := by
    have hleaves := leaves_classItem c t
    rwa [h] at hleaves
  fun_induction classBody start members t with
  | case1 => trivial
  | case2 members t => exact ⟨List.suffix_cons _ t, Nat.lt_succ_self _⟩
  | case3 _ _ _ _ _ hi => exact mistake hi
  | case4 _ _ _ _ _ _ hi _ ih => exact ih.mono (item hi)
  | case5 _ _ _ _ _ _ hi _ _ ih => exact ih.mono (item hi)
  | case6 _ _ _ _ _ _ _ _ _ _ _ _ _ hj => exact mistake hj
  | case7 => trivial
  | case8 => trivial
  | case9 _ _ _ _ _ _ hi _ _ _ hr _ _ _ hj _ _ ih =>
    exact ih.mono ((item hj).trans ((suffix_of_rangeEnd? hr).trans (item hi)))

theorem leaves_classAfter (start t : Text) : Leaves t (classAfter start t) := by
  unfold classAfter
  split
  · next t =>
      exact ((leaves_classBody start .empty t).map fun members => (members, true)).mono
        (List.suffix_cons _ t)
  · exact (leaves_classBody start .empty t).map fun members => (members, false)

end Token

end PegMatch

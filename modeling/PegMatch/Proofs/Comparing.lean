import PegMatch.Matching.Comparison

set_option autoImplicit false

/-! Comparison up to case and style. The fold of a text is its code points in lower case, without
the underscores. Comparing up to style measures the shortest front part of what lies ahead that has
the fold of the text. It succeeds wherever comparing up to case does, which succeeds wherever the
text stands. -/

namespace PegMatch

namespace Rune

theorem agree_iff {a b : Nat} : agree a b ↔ lower a = lower b := by
  rw [agree, Bool.or_eq_true, beq_iff_eq, beq_iff_eq]
  exact or_iff_right_of_imp fun h => congrArg lower h

theorem lower_eq_underscore {c : Nat} : lower c = lower '_' ↔ c = '_' := by
  have hunderscore : lower '_' = ['_'.toNat] := by decide
  have habove : ∀ r ∈ lowerings, '_'.toNat < r.2.2.2 := by decide +kernel
  rw [hunderscore]
  constructor
  · intro h
    unfold lower at h
    split at h
    · cases h
    · split at h
      · next r hfind =>
        have := habove r (List.mem_of_find?_eq_some hfind)
        simp only [List.cons.injEq, and_true] at h
        omega
      · simpa using h
  · rintro rfl
    exact hunderscore

end Rune

namespace Text

open Rune

/-- The lower-case forms of a text, but for its underscores. -/
def fold (t : Text) : List Text :=
  (t.filter fun c => c ≠ '_'.toNat).map lower

/-- Lower-case forms are not run together: a dotted capital I is no small i with a dot above. -/
example : fold [0x130] ≠ fold [0x69, 0x307] := by decide +kernel

theorem fold_underscore (t : Text) : fold ('_'.toNat :: t) = fold t := by
  simp [fold]

theorem fold_cons {c : Nat} (h : c ≠ '_'.toNat) (t : Text) : fold (c :: t) = lower c :: fold t := by
  rw [fold, List.filter_cons_of_pos (by simpa using h), List.map_cons]
  rfl

theorem fold_eq_of_map_lower {u t : Text} (h : u.map lower = t.map lower) : fold u = fold t := by
  induction t generalizing u with
  | nil =>
    obtain rfl := List.map_eq_nil_iff.1 h
    rfl
  | cons a t ih =>
    obtain ⟨b, v, rfl, hab, hv⟩ := List.map_eq_cons_iff.1 h
    by_cases ha : a = '_'
    · subst ha
      obtain rfl := lower_eq_underscore.1 hab
      rw [fold_underscore, fold_underscore, ih hv]
    · have hb : b ≠ '_' := by
        rintro rfl
        exact ha (lower_eq_underscore.1 hab.symm)
      rw [fold_cons ha, fold_cons hb, hab, ih hv]

/-- The shortest front part of what lies ahead that has the fold of a text. -/
structure FoldsFirst (ahead t u : Text) : Prop where
  front : u <+: ahead
  folds : fold u = fold t
  least : ∀ v, v <+: ahead → fold v = fold t → u.length ≤ v.length

variable {ahead rest blanks t u v w : Text} {a b : Nat}

theorem FoldsFirst.congr (h : FoldsFirst ahead t u) (he : fold v = fold t) :
    FoldsFirst ahead v u where
  front := h.front
  folds := he ▸ h.folds
  least := he ▸ h.least

theorem FoldsFirst.length_eq (h : FoldsFirst ahead t u) (h' : FoldsFirst ahead t v) :
    u.length = v.length :=
  Nat.le_antisymm (h.least v h'.front h'.folds) (h'.least u h.front h.folds)

theorem front_of_fold_cons (hblanks : ∀ x ∈ blanks, x = '_'.toNat) (hb : b ≠ '_')
    (hw : w <+: blanks ++ b :: rest) (hfold : fold w = lower a :: fold t) :
    lower a = lower b ∧ ∃ v, w = blanks ++ b :: v ∧ v <+: rest ∧ fold v = fold t := by
  induction blanks generalizing w with
  | nil =>
    cases w with
    | nil => cases hfold
    | cons c v =>
      rw [List.nil_append, List.cons_prefix_cons] at hw
      obtain ⟨rfl, hv⟩ := hw
      rw [fold_cons hb, List.cons.injEq] at hfold
      exact ⟨hfold.1.symm, v, rfl, hv, hfold.2⟩
  | cons x blanks ih =>
    cases w with
    | nil => cases hfold
    | cons c w =>
      rw [List.cons_append, List.cons_prefix_cons] at hw
      obtain ⟨rfl, hw⟩ := hw
      obtain rfl := hblanks c (by simp)
      rw [fold_underscore] at hfold
      obtain ⟨hab, v, rfl, hv, hrest⟩ := ih (fun x hx => hblanks x (by simp [hx])) hw hfold
      exact ⟨hab, v, rfl, hv, hrest⟩

theorem fold_of_blanks (hblanks : ∀ x ∈ blanks, x = '_'.toNat) (t : Text) :
    fold (blanks ++ t) = fold t := by
  induction blanks with
  | nil => rfl
  | cons x blanks ih =>
    obtain rfl := hblanks x (by simp)
    rw [List.cons_append, fold_underscore, ih fun x hx => hblanks x (by simp [hx])]

theorem FoldsFirst.cons (hblanks : ∀ x ∈ blanks, x = '_'.toNat) (ha : a ≠ '_') (hb : b ≠ '_')
    (hab : lower a = lower b) (h : FoldsFirst rest t u) :
    FoldsFirst (blanks ++ b :: rest) (a :: t) (blanks ++ b :: u) where
  front := by
    rw [List.prefix_append_right_inj, List.cons_prefix_cons]
    exact ⟨rfl, h.front⟩
  folds := by
    rw [fold_of_blanks hblanks, fold_cons hb, fold_cons ha, hab, h.folds]
  least w hw hfold := by
    rw [fold_cons ha] at hfold
    obtain ⟨-, v, rfl, hv, hrest⟩ := front_of_fold_cons hblanks hb hw hfold
    have := h.least v hv hrest
    simp only [List.length_append, List.length_cons]
    omega

end Text

namespace Subject

open Rune Text

variable {s : Subject} {i n : Nat} {t u : Text}

theorem runEnd_stops (test : Nat → Bool) (hi : i ≤ s.size) :
    ∃ run : Text, ∃ k : Nat, s.runEnd test (s.room i) i = .ok k ∧ s.sliceFrom i =
      run ++ s.sliceFrom k ∧ (∀ x ∈ run, test x) ∧ k ≤ s.size ∧ ∀ h : k < s.size, ¬ test s[k] := by
  have hroom : s.room i = s.size - i := by
    simp only [Subject.room]
    omega
  rw [hroom]
  clear hroom
  induction hroom : s.size - i generalizing i with
  | zero =>
    exact ⟨[], i, rfl, rfl, by simp, hi, fun h => by omega⟩
  | succ room ih =>
    have hlt : i < s.size := by omega
    have hat : s.at? i = some s[i] := by simp [at?, hlt]
    by_cases htest : test s[i]
    · obtain ⟨run, k, hend, hahead, hrun, hk, hstop⟩ := ih (i := i + 1) (by omega) (by omega)
      refine ⟨s[i] :: run, k, ?_, ?_, ?_, hk, hstop⟩
      · rw [runEnd, hat]
        simp only [htest, if_true]
        exact hend
      · rw [sliceFrom_of_lt hlt, hahead, List.cons_append]
      · simpa only [List.forall_mem_cons] using ⟨htest, hrun⟩
    · refine ⟨[], i, ?_, rfl, by simp, hi, fun _ => htest⟩
      rw [runEnd, hat]
      simp only [if_neg htest]

/-- In front of a code point that is no underscore, the underscores ahead are passed over. -/
theorem styleEnd_cons {a : Nat} (ha : a ≠ '_') (hi : i ≤ s.size) (t : Text) :
    (∀ x ∈ s.sliceFrom i, x = '_'.toNat) ∧ s.styleEnd (a :: t) i = .ok none ∨
      ∃ (blanks : Text) (b k : Nat), (∀ x ∈ blanks, x = '_'.toNat) ∧ b ≠ '_' ∧ k < s.size ∧
      k = i + blanks.length ∧ s.sliceFrom i = blanks ++ b :: s.sliceFrom (k + 1) ∧
      s.styleEnd (a :: t) i = if agree a b then s.styleEnd t (k + 1 : Nat) else .ok none := by
  obtain ⟨blanks, k, hend, hahead, hblanks, hk, hstop⟩ := runEnd_stops (· == '_'.toNat) hi
  simp only [beq_iff_eq] at hblanks hstop
  have hlength : k = i + blanks.length := by
    have := congrArg List.length hahead
    simp only [sliceFrom_eq, List.length_append, List.length_drop, Array.length_toList] at this
    omega
  simp only [styleEnd, if_neg ha, hend, bind, Except.bind]
  by_cases hsize : s.size ≤ k
  · rw [sliceFrom_of_le hsize, List.append_nil] at hahead
    rw [if_pos (by omega)]
    exact .inl ⟨hahead ▸ hblanks, rfl⟩
  · have hlt : k < s.size := by omega
    have hat : s.at? k = some s[k] := by simp [at?, hlt]
    rw [sliceFrom_of_lt hlt] at hahead
    rw [if_neg (by omega), hat]
    exact .inr ⟨blanks, s[k], k, hblanks, hstop hlt, hlt, hlength, hahead, rfl⟩

/-- Either the end of the shortest front part with the fold of the text is found, or no front part
has this fold. -/
theorem styleEnd_cases (hi : i ≤ s.size) (t : Text) :
    (∃ u, FoldsFirst (s.sliceFrom i) t u ∧ s.styleEnd t i = .ok (some (i + u.length))) ∨
      (∀ u, u <+: s.sliceFrom i → fold u ≠ fold t) ∧ s.styleEnd t i = .ok none := by
  induction t generalizing i with
  | nil => exact .inl ⟨[], ⟨List.nil_prefix, rfl, by simp⟩, by simp [styleEnd]⟩
  | cons a t ih =>
    by_cases ha : a = '_'
    · subst ha
      rw [styleEnd, if_pos rfl]
      rcases ih hi with ⟨u, hu, hend⟩ | ⟨hnone, hend⟩
      · exact .inl ⟨u, hu.congr (fold_underscore t), hend⟩
      · exact .inr ⟨fun u hu => (fold_underscore t).symm ▸ hnone u hu, hend⟩
    · rw [fold_cons ha]
      rcases styleEnd_cons ha hi
        t with ⟨hblanks, hend⟩ | ⟨blanks, b, k, hblanks, hb, hk, hlength, hahead, hend⟩
      · -- a front part of nothing but underscores has the empty fold
        refine .inr ⟨fun u hu hfold => ?_, hend⟩
        have hempty := fold_of_blanks (fun x hx => hblanks x (hu.subset hx)) []
        rw [List.append_nil, hfold] at hempty
        cases hempty
      · rw [hend, hahead]
        by_cases hagree : agree a b
        · rw [if_pos hagree]
          rcases ih (i := k + 1) hk with ⟨u, hu, hend⟩ | ⟨hnone, hend⟩
          · refine .inl
              ⟨blanks ++ b :: u, hu.cons hblanks ha hb (agree_iff.1 hagree), hend.trans ?_⟩
            simp only [List.length_append, List.length_cons, Except.ok.injEq, Option.some.injEq]
            omega
          · refine .inr ⟨fun w hw hfold => ?_, hend⟩
            obtain ⟨-, v, -, hv, hrest⟩ := front_of_fold_cons hblanks hb hw hfold
            exact hnone v hv hrest
        · rw [if_neg hagree]
          refine .inr ⟨fun w hw hfold => ?_, rfl⟩
          exact hagree (agree_iff.2 (front_of_fold_cons hblanks hb hw hfold).1)

theorem ignoringStyle_cases (hi : i ≤ s.size) (t : Text) :
    (∃ u, FoldsFirst (s.sliceFrom i) t u ∧ s.ignoringStyle i t = .ok (some u.length)) ∨
      (∀ u, u <+: s.sliceFrom i → fold u ≠ fold t) ∧ s.ignoringStyle i t = .ok none := by
  rcases styleEnd_cases hi t with ⟨u, hu, hend⟩ | ⟨hnone, hend⟩
  · have hlength : ((i : Int) + u.length - i).toNat = u.length := by omega
    refine .inl ⟨u, hu, ?_⟩
    simp only [ignoringStyle, hend, bind, Except.bind, Option.map_some, hlength]
  · refine .inr ⟨hnone, ?_⟩
    simp only [ignoringStyle, hend, bind, Except.bind, Option.map_none]

theorem ignoringStyle_eq_some_iff (hi : i ≤ s.size) :
    s.ignoringStyle i t = .ok (some n) ↔ ∃ u, FoldsFirst (s.sliceFrom i) t u ∧ u.length = n := by
  rcases ignoringStyle_cases hi t with ⟨v, hv, hend⟩ | ⟨hnone, hend⟩
  · rw [hend]
    constructor
    · intro h
      exact ⟨v, hv, by simpa using h⟩
    · rintro ⟨u, hu, rfl⟩
      rw [hv.length_eq hu]
  · rw [hend]
    constructor
    · intro h
      cases h
    · rintro ⟨u, hu, -⟩
      exact absurd hu.folds (hnone u hu.front)

theorem ignoringStyle_eq_none_iff (hi : i ≤ s.size) :
    s.ignoringStyle i t = .ok none ↔ ∀ u, u <+: s.sliceFrom i → fold u ≠ fold t := by
  rcases ignoringStyle_cases hi t with ⟨v, hv, hend⟩ | ⟨hnone, hend⟩
  · rw [hend]
    constructor
    · intro h
      cases h
    · intro h
      exact absurd hv.folds (h v hv.front)
  · exact ⟨fun _ => hnone, fun _ => hend⟩

theorem all_agree_iff (h : u.length = t.length) :
    (t.zip u).all (fun p => agree p.1 p.2) ↔ u.map lower = t.map lower := by
  induction t generalizing u with
  | nil =>
    obtain rfl := List.length_eq_zero_iff.1 h
    simp
  | cons a t ih =>
    cases u with
    | nil => cases h
    | cons b u =>
      rw [List.zip_cons_cons, List.all_cons, Bool.and_eq_true, ih (by simpa using h), agree_iff,
        List.map_cons, List.map_cons, List.cons.injEq, eq_comm]

/-- Comparing up to case takes as many code points as the text has, if they differ in case alone. -/
theorem ignoringCase_eq_some_iff (hi : i ≤ s.size) :
    s.ignoringCase i t = some n ↔ n = t.length ∧ ∃ u, u <+: s.sliceFrom i ∧
      u.map lower = t.map lower := by
  have hahead : (s.sliceFrom i).length = s.size - i := by
    rw [sliceFrom_eq, List.length_drop, Array.length_toList]
  have hstop : (i : Int) + t.length = (i + t.length : Nat) := by omega
  by_cases hroom : s.size < i + t.length
  · have hnone : s.ignoringCase i t = none := by
      rw [ignoringCase, if_pos (by omega)]
    refine ⟨fun h => ?_, fun ⟨_, u, hu, hlower⟩ => ?_⟩
    · rw [hnone] at h
      cases h
    · have hlength : u.length = t.length := by
        simpa using congrArg List.length hlower
      have := hu.length_le
      omega
  · have hslice : s.slice i (i + t.length : Nat) = (s.sliceFrom i).take t.length := by
      rw [slice_eq (by omega) (by omega), sliceFrom_eq, Nat.add_sub_cancel_left]
    have hlength : ((s.sliceFrom i).take t.length).length = t.length := by
      rw [List.length_take]
      omega
    have hcase : s.ignoringCase i t = some n ↔
        ((s.sliceFrom i).take t.length).map lower = t.map lower ∧ t.length = n := by
      rw [← all_agree_iff hlength, ignoringCase, if_neg (by omega), hstop, hslice]
      simp
    rw [hcase]
    constructor
    · rintro ⟨hlower, rfl⟩
      exact ⟨rfl, _, List.take_prefix _ _, hlower⟩
    · rintro ⟨rfl, u, hu, hlower⟩
      have hlength : u.length = t.length := by
        simpa using congrArg List.length hlower
      rw [← hlength, ← List.prefix_iff_eq_take.1 hu]
      exact ⟨hlower, rfl⟩

theorem ignoringStyle_of_ignoringCase (hi : i ≤ s.size) (h : s.ignoringCase i t = some n) :
    ∃ k, k ≤ t.length ∧ s.ignoringStyle i t = .ok (some k) := by
  obtain ⟨-, u, hu, hlower⟩ := (ignoringCase_eq_some_iff hi).1 h
  have hfold := fold_eq_of_map_lower hlower
  have hlength : u.length = t.length := by
    simpa using congrArg List.length hlower
  rcases ignoringStyle_cases hi t with ⟨v, hv, hend⟩ | ⟨hnone, -⟩
  · exact ⟨v.length, hlength ▸ hv.least u hu hfold, hend⟩
  · exact absurd hfold (hnone u hu)

/-- Comparing up to style measures the shortest front part with the fold of the text, and misses if
there is none. It succeeds, over no more code points than the text has, wherever comparing up to
case does, and that wherever the text stands. -/
theorem comparisons_agree_with_folds (s : Subject) (t : Text) (i : Int) (hi : 0 ≤ i)
    (hsize : i ≤ s.size) :
    (∀ n, s.ignoringStyle i t = .ok (some n) ↔ ∃ u, FoldsFirst (s.sliceFrom i) t u ∧ u.length = n) ∧
    (s.ignoringStyle i t = .ok none ↔ ∀ u, u <+: s.sliceFrom i → fold u ≠ fold t) ∧
    (t <+: s.sliceFrom i → s.ignoringCase i t = some t.length) ∧
    ∀ n, s.ignoringCase i t = some n →
      ∃ k, k ≤ t.length ∧ s.ignoringStyle i t = .ok (some k) := by
  obtain ⟨i, rfl⟩ := Int.eq_ofNat_of_zero_le hi
  have hi : i ≤ s.size := by omega
  exact ⟨fun n => ignoringStyle_eq_some_iff hi, ignoringStyle_eq_none_iff hi, fun h =>
    (ignoringCase_eq_some_iff hi).2 ⟨rfl, t, h, rfl⟩, fun n h => ignoringStyle_of_ignoringCase hi h⟩

/-- Underscores are passed over in front of a letter, and not behind the last one. -/
theorem underscored_letters_fold :
    ∃ u, FoldsFirst (sliceFrom (Text.ofString "x_a__B_").toArray 1) (Text.ofString "A_b") u ∧
      u.length = 5 :=
  ((comparisons_agree_with_folds (Text.ofString "x_a__B_").toArray (Text.ofString "A_b") 1
    (by decide) (by decide)).1 5).1 rfl

end Subject

end PegMatch

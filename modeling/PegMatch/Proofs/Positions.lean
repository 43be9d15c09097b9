import Mathlib.Algebra.GroupWithZero.Nat
import Mathlib.Data.Prod.Lex
import PegMatch.Text.Position

set_option autoImplicit false

/-! Places are exact. The line of an index counts the line feeds before it and the column counts
from the last of them, so the index is found again from where its line starts, and places come in
the order of their indices. -/

namespace PegMatch

/-- Places in reading order: by line, and within a line by column. -/
def Position.key (p : Position) : ℕ ×ₗ ℤ :=
  toLex (p.line, p.column)

namespace Text

variable {t u : Text} {c k n line : Nat} {i : Int}

theorem lineFeedFrom?_of_length_le (h : t.length ≤ k) : t.lineFeedFrom? k = none := by
  simp [lineFeedFrom?, List.drop_of_length_le h]

theorem lineFeedFrom?_of_lt (h : k < t.length) :
    t.lineFeedFrom? k = if t[k] = '\n'.toNat then some k else t.lineFeedFrom? (k + 1) := by
  rw [lineFeedFrom?, List.drop_eq_getElem_cons h, List.idxOf?_cons]
  split
  · next hfeed => simp [beq_iff_eq.1 hfeed]
  · next hfeed =>
    rw [if_neg (by simpa using hfeed), lineFeedFrom?, Option.map_map]
    congr 1
    funext m
    simp only [Function.comp_apply]
    omega

theorem lineFrom_apply (t : Text) (i : Int) (line k : Nat) :
    t.lineFrom i line k = (t.lineFeedFrom? k).elim line fun n =>
      if n < i then t.lineFrom i (line + 1) (n + 1) else line := by
  rw [lineFrom]
  split <;> next h => simp only [h, Option.elim]

theorem lineFrom_of_le (h : i ≤ k) : t.lineFrom i line k = line := by
  rw [lineFrom_apply]
  cases hn : t.lineFeedFrom? k with
  | none => rfl
  | some n =>
    have hbounds := bounds_of_lineFeedFrom? hn
    rw [Option.elim, if_neg (by omega)]

theorem lineFrom_of_lt (h : k < t.length) (hi : k < i) :
    t.lineFrom i line k = t.lineFrom i (line + if t[k] = '\n'.toNat then 1 else 0) (k + 1) := by
  rw [lineFrom_apply, lineFeedFrom?_of_lt h]
  by_cases hfeed : t[k] = '\n'.toNat
  · simp only [hfeed, if_true, Option.elim, hi]
  · simp only [hfeed, if_false, Nat.add_zero]
    rw [← lineFrom_apply]

theorem lineFrom_eq (t : Text) (i line k : Nat) :
    t.lineFrom i line k = line + ((t.take i).drop k).count '\n'.toNat := by
  induction hn : t.length - k generalizing line k with
  | zero =>
    have hdrop : (t.take i).drop k = [] := List.drop_of_length_le (by rw [List.length_take]; omega)
    rw [lineFrom_apply, lineFeedFrom?_of_length_le (by omega), hdrop]
    rfl
  | succ m ih =>
    have hk : k < t.length := by omega
    by_cases hi : k < i
    · have hcons : (t.take i).drop k = t[k] :: (t.take i).drop (k + 1) := by
        rw [List.drop_eq_getElem_cons (by rw [List.length_take]; omega), List.getElem_take]
      rw [lineFrom_of_lt hk (by omega), ih _ (k + 1) (by omega), hcons, List.count_cons]
      simp only [beq_iff_eq]
      omega
    · rw [lineFrom_of_le (by omega), List.drop_of_length_le (by rw [List.length_take]; omega)]
      rfl

theorem not_mem_of_lastIndexOf? (h : lastIndexOf? c t = none) : c ∉ t := by
  induction t with
  | nil => exact List.not_mem_nil
  | cons a t ih =>
    rw [lastIndexOf?] at h
    split at h
    · cases h
    · next hlast =>
      split at h
      · cases h
      · next hne => simp [Ne.symm hne, ih hlast]

theorem of_lastIndexOf? (h : lastIndexOf? c t = some k) :
    t[k]? = some c ∧ ∀ l, k < l → t[l]? ≠ some c := by
  induction t generalizing k with
  | nil => cases h
  | cons a t ih =>
    rw [lastIndexOf?] at h
    split at h
    · next m hlast =>
      cases h
      obtain ⟨hm, hbehind⟩ := ih hlast
      refine ⟨by simpa using hm, fun l hl => ?_⟩
      rw [List.getElem?_cons, if_neg (by omega)]
      exact hbehind (l - 1) (by omega)
    · next hlast =>
      split at h
      · next heq =>
        cases h
        refine ⟨by simp [heq], fun l hl hc => not_mem_of_lastIndexOf? hlast ?_⟩
        rw [List.getElem?_cons, if_neg (by omega)] at hc
        exact List.mem_of_getElem? hc
      · cases h

/-- The line feed at `k` is the last one before index `i`. -/
structure LastFeed (t : Text) (i k : Nat) : Prop where
  before : k < i
  feed : t[k]? = some '\n'.toNat
  last : ∀ l, k < l → l < i → t[l]? ≠ some '\n'.toNat

theorem line_position (t : Text) (i : Nat) :
    (t.position i).line = 1 + (t.take i).count '\n'.toNat := by
  rw [position, lineFrom_eq, List.drop_zero]

theorem column_position (t : Text) (i : Nat) : (t.position i).column =
    (lastIndexOf? '\n' (t.take i)).elim ((i : Int) + 1) fun k => (i : Int) - k := by
  have hcut : t.take (Subject.cut t.length i) = t.take i := by
    rw [Subject.cut, if_pos (by omega), Int.toNat_natCast, List.take_eq_take_iff]
    omega
  rw [← hcut, position]
  cases lastIndexOf? '\n' (t.take (Subject.cut t.length i)) <;> rfl

theorem LastFeed.column {i : Nat} (h : t.LastFeed i k) : (t.position i).column = i - k := by
  have hk : (t.take i)[k]? = some '\n'.toNat := by rw [List.getElem?_take_of_lt h.before, h.feed]
  rw [column_position]
  cases hlast : lastIndexOf? '\n' (t.take i) with
  | some m =>
    obtain ⟨hfeed, hbehind⟩ := of_lastIndexOf? hlast
    have hm : m < i ∧ t[m]? = some '\n'.toNat := by simpa [List.getElem?_take] using hfeed
    have hle : k ≤ m := Nat.le_of_not_lt fun hlt => hbehind k hlt hk
    have hge : m ≤ k := Nat.le_of_not_lt fun hlt => h.last m hlt hm.1 hm.2
    rw [Nat.le_antisymm hle hge, Option.elim]
  | none => exact absurd (List.mem_of_getElem? hk) (not_mem_of_lastIndexOf? hlast)

theorem column_of_no_feed {i : Nat} (h : ∀ k < i, t[k]? ≠ some '\n'.toNat) :
    (t.position i).column = i + 1 := by
  rw [column_position]
  cases hlast : lastIndexOf? '\n' (t.take i) with
  | some m =>
    have hm : m < i ∧ t[m]? = some '\n'.toNat := by
      simpa [List.getElem?_take] using (of_lastIndexOf? hlast).1
    exact absurd hm.2 (h m hm.1)
  | none => rfl

/-- The index at which a line starts: behind the lines before it and their line feeds. -/
def lineStart (t : Text) (line : Nat) : Nat :=
  (((t.splitOn '\n'.toNat).take (line - 1)).map fun l => l.length + 1).sum

@[simp] theorem lineStart_one (t : Text) : t.lineStart 1 = 0 := by
  simp [lineStart]

theorem lineStart_feed (t : Text) (n : Nat) :
    lineStart ('\n'.toNat :: t) (1 + (n + 1)) = t.lineStart (1 + n) + 1 := by
  have hlines : List.splitOn '\n'.toNat ('\n'.toNat :: t) = [] :: t.splitOn '\n'.toNat := by
    rw [List.splitOn_cons_eq_if_modifyHead, if_pos (by simp)]
  simp only [lineStart, hlines, Nat.add_sub_cancel_left, List.take_succ_cons, List.map_cons,
    List.sum_cons, List.length_nil]
  omega

theorem lineStart_plain (hc : c ≠ '\n'.toNat) (t : Text) (n : Nat) :
    lineStart (c :: t) (1 + (n + 1)) = t.lineStart (1 + (n + 1)) + 1 := by
  obtain ⟨l, ls, hlines⟩ := List.exists_cons_of_ne_nil (List.splitOn_ne_nil '\n'.toNat t)
  have hcons : List.splitOn '\n'.toNat (c :: t) = (c :: l) :: ls := by
    rw [List.splitOn_cons_eq_if_modifyHead, if_neg (by simpa using hc), hlines]
    rfl
  simp only [lineStart, hlines, hcons, Nat.add_sub_cancel_left, List.take_succ_cons, List.map_cons,
    List.sum_cons, List.length_cons]
  omega

theorem lineStart_append (u t : Text) : (u ++ t).lineStart (1 + u.count '\n'.toNat) =
    (lastIndexOf? '\n' u).elim 0 (· + 1) := by
  induction u with
  | nil => simp [lastIndexOf?]
  | cons c u ih =>
    rw [lastIndexOf?]
    by_cases hc : c = '\n'.toNat
    · subst hc
      rw [List.count_cons_self, List.cons_append, lineStart_feed, ih]
      cases lastIndexOf? '\n' u <;> simp
    · rw [List.count_cons_of_ne hc, List.cons_append]
      cases hlast : lastIndexOf? '\n' u with
      | none =>
        rw [List.count_eq_zero.2 (not_mem_of_lastIndexOf? hlast)]
        simp only [Nat.add_zero, lineStart_one, hc, if_false, Option.elim]
      | some k =>
        obtain ⟨n, hn⟩ : ∃ n, u.count '\n'.toNat = n + 1 :=
          Nat.exists_eq_add_one.2
            (List.count_pos_iff.2 (List.mem_of_getElem? (of_lastIndexOf? hlast).1))
        rw [hlast] at ih
        rw [hn] at ih ⊢
        rw [lineStart_plain hc, ih]
        rfl

theorem index_of_position (t : Text) (i : Nat) :
    (i : Int) = t.lineStart (t.position i).line + (t.position i).column - 1 := by
  have hstart := lineStart_append (t.take i) (t.drop i)
  rw [List.take_append_drop] at hstart
  rw [line_position, column_position, hstart]
  cases lastIndexOf? '\n' (t.take i) <;> simp only [Option.elim] <;> omega

theorem key_position_lt (t : Text) {i j : Nat} (h : i < j) :
    (t.position i).key < (t.position j).key := by
  have hlines : (t.position i).line ≤ (t.position j).line := by
    rw [line_position, line_position]
    have hsub : (t.take i).Sublist (t.take j) :=
      (List.take_prefix_take_left (Nat.le_of_lt h)).sublist
    have := hsub.count_le '\n'.toNat
    omega
  rw [Position.key, Position.key, Prod.Lex.toLex_lt_toLex]
  rcases Nat.lt_or_eq_of_le hlines with hlt | heq
  · exact .inl hlt
  · refine .inr ⟨heq, ?_⟩
    have hi := t.index_of_position i
    have hj := t.index_of_position j
    rw [heq] at hi
    simp only
    omega

/-- Places are exact. The line counts the line feeds before the index, the column counts from the
last of them, the index is found again from where its line starts, and later indices have later
places. Past the end of the text this holds too. -/
theorem places_are_exact (t : Text) :
    (∀ i : Nat, (t.position i).line = 1 + (t.take i).count '\n'.toNat ∧
      (∀ k, t.LastFeed i k → (t.position i).column = i - k) ∧
      ((∀ k < i, t[k]? ≠ some '\n'.toNat) → (t.position i).column = i + 1) ∧
      (i : Int) = t.lineStart (t.position i).line + (t.position i).column - 1) ∧
    ∀ i j : Nat, i < j → (t.position i).key < (t.position j).key := by
  refine ⟨fun i =>
    ⟨t.line_position i, fun k hk => hk.column, column_of_no_feed, t.index_of_position i⟩, ?_⟩
  intro i j hij
  exact t.key_position_lt hij

/-- Four lines, the third of which is empty. -/
def emptyLine : Text := ['a', 'b', '\n', 'c', 'd', '\n', '\n', 'e', 'f']

/-- The end of the first line, and the start of the line behind the empty one. -/
theorem emptyLine_places :
    (∀ k < 2, emptyLine[k]? ≠ some '\n'.toNat) ∧ (emptyLine.position 2).line = 1 ∧
      (emptyLine.position 2).column = 3 ∧ emptyLine.LastFeed 7 6 ∧ (emptyLine.position 7).line = 4 ∧
      (emptyLine.position 7).column = 1 ∧ emptyLine.lineStart 4 = 7 ∧
      (emptyLine.position 6).key < (emptyLine.position 7).key := by
  obtain ⟨hexact, hlater⟩ := places_are_exact emptyLine
  obtain ⟨hline₂, -, hcolumn₂, -⟩ := hexact 2
  obtain ⟨hline₇, hcolumn₇, -, -⟩ := hexact 7
  have hnone : ∀ k < 2, emptyLine[k]? ≠ some '\n'.toNat := by decide
  have hlast : emptyLine.LastFeed 7 6 := ⟨by decide, by decide, fun l h h' => absurd h (by omega)⟩
  exact ⟨hnone, hline₂.trans (by decide), hcolumn₂ hnone, hlast, hline₇.trans (by decide),
    hcolumn₇ 6 hlast, by decide, hlater 6 7 (by decide)⟩

end Text

end PegMatch

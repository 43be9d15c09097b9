import PegMatch.Text.Basic

set_option autoImplicit false

/-! Finite sets of code points, kept as ranges in rising order with gaps between them, so that two
sets with the same members are equal. -/

namespace PegMatch

abbrev Range := Nat × Nat

namespace Range

/-- No range is empty, and each ends before a gap that the next one follows. -/
inductive Spaced : List Range → Prop where
  | nil : Spaced []
  | single {lo hi : Nat} (h : lo ≤ hi) : Spaced [(lo, hi)]
  | cons {lo hi lo' hi' : Nat} {rest : List Range} (h : lo ≤ hi) (gap : hi + 1 < lo')
      (tail : Spaced ((lo', hi') :: rest)) : Spaced ((lo, hi) :: (lo', hi') :: rest)

def insert (lo hi : Nat) : List Range → List Range
  | [] => [(lo, hi)]
  | (a, b) :: rest =>
    if hi + 1 < a then (lo, hi) :: (a, b) :: rest
    else if b + 1 < lo then (a, b) :: insert lo hi rest
    else insert (min lo a) (max hi b) rest

def has (ranges : List Range) (c : Nat) : Bool :=
  ranges.any fun r => r.1 ≤ c && c ≤ r.2

theorem Spaced.tail {r : Range} {rest : List Range} (h : Spaced (r :: rest)) : Spaced rest := by
  cases h with
  | single => exact .nil
  | cons _ _ t => exact t

theorem Spaced.head {lo hi : Nat} {rest : List Range} (h : Spaced ((lo, hi) :: rest)) :
    lo ≤ hi := by
  cases h with
  | single h => exact h
  | cons h _ _ => exact h

/-- The first range after an insertion starts at the added range or at the old first one. -/
theorem head_insert {lo hi a b : Nat} {ranges rest : List Range} (h : Spaced ranges)
    (he : insert lo hi ranges = (a, b) :: rest) :
    a = lo ∨ ∃ c d t, ranges = (c, d) :: t ∧ a = min lo c := by
  induction ranges generalizing lo hi with
  | nil => simp [insert] at he; exact .inl he.1.1.symm
  | cons r t ih =>
    obtain ⟨c, d⟩ := r
    rw [insert] at he
    split at he
    · simp at he; exact .inl he.1.1.symm
    · split at he
      · simp at he
        exact .inr ⟨c, d, t, rfl, by have := h.head; omega⟩
      · rcases ih h.tail he with rfl | ⟨e, f, u, rfl, rfl⟩
        · exact .inr ⟨c, d, t, rfl, rfl⟩
        · refine .inr ⟨c, d, _, rfl, ?_⟩
          cases h with
          | cons hcd gap _ => omega

theorem spaced_insert {lo hi : Nat} {ranges : List Range} (h : Spaced ranges) (hlh : lo ≤ hi) :
    Spaced (insert lo hi ranges) := by
  induction ranges generalizing lo hi with
  | nil => exact .single hlh
  | cons r t ih =>
    obtain ⟨a, b⟩ := r
    rw [insert]
    split
    · exact .cons hlh (by omega) h
    · split
      · have hs := ih h.tail hlh
        cases he : insert lo hi t with
        | nil => exact .single h.head
        | cons q u =>
          obtain ⟨x, y⟩ := q
          rw [he] at hs
          refine .cons h.head ?_ hs
          rcases head_insert h.tail he with rfl | ⟨c, d, v, rfl, rfl⟩
          · omega
          · cases h with
            | cons _ gap _ => omega
      · exact ih h.tail (by have := h.head; omega)

theorem has_insert {lo hi c : Nat} {ranges : List Range} (h : Spaced ranges) (hlh : lo ≤ hi) :
    has (insert lo hi ranges) c = ((lo ≤ c && c ≤ hi) || has ranges c) := by
  induction ranges generalizing lo hi with
  | nil => simp [insert, has]
  | cons r t ih =>
    obtain ⟨a, b⟩ := r
    have hab := h.head
    rw [insert]
    split
    · simp [has]
    · split
      · have hrec := ih h.tail hlh
        simp only [has, List.any_cons] at hrec ⊢
        rw [hrec]
        cases (decide (a ≤ c) && decide (c ≤ b)) <;> simp
      · have hrec := ih h.tail (show min lo a ≤ max hi b by omega)
        rw [hrec]
        simp only [has, List.any_cons, ← Bool.or_assoc]
        congr 1
        rw [Bool.eq_iff_iff]
        simp
        omega

end Range

structure RuneSet where
  ranges : List Range
  spaced : Range.Spaced ranges

namespace RuneSet

instance : DecidableEq RuneSet := fun s t =>
  if h : s.ranges = t.ranges then
    isTrue (by cases s; cases t; simp_all)
  else isFalse (fun he => h (he ▸ rfl))

instance : Repr RuneSet := ⟨fun s n => reprPrec s.ranges n⟩

def empty : RuneSet := ⟨[], .nil⟩

instance : EmptyCollection RuneSet := ⟨empty⟩

instance : Inhabited RuneSet := ⟨empty⟩

def contains (s : RuneSet) (c : Nat) : Bool :=
  Range.has s.ranges c

/-- Adds the code points from `lo` to `hi`; there are none if `hi` is the smaller. -/
def insertRange (s : RuneSet) (lo hi : Nat) : RuneSet :=
  if h : lo ≤ hi then ⟨Range.insert lo hi s.ranges, Range.spaced_insert s.spaced h⟩ else s

def insert (s : RuneSet) (c : Nat) : RuneSet :=
  s.insertRange c c

def union (s t : RuneSet) : RuneSet :=
  t.ranges.foldl (fun u r => u.insertRange r.1 r.2) s

def ofText (t : Text) : RuneSet :=
  t.foldl insert empty

@[simp] theorem contains_empty (c : Nat) : empty.contains c = false := rfl

theorem contains_insertRange (s : RuneSet) (lo hi c : Nat) :
    (s.insertRange lo hi).contains c = ((lo ≤ c && c ≤ hi) || s.contains c) := by
  rw [insertRange]
  split
  · next h => exact Range.has_insert s.spaced h
  · next h =>
    have : (decide (lo ≤ c) && decide (c ≤ hi)) = false := by simp; omega
    simp [this]

@[simp] theorem contains_insert (s : RuneSet) (x c : Nat) :
    (s.insert x).contains c = (c == x || s.contains c) := by
  rw [insert, contains_insertRange]
  congr 1
  rw [Bool.eq_iff_iff]
  simp
  omega

theorem contains_foldl_insertRange (rs : List Range) (s : RuneSet) (c : Nat) :
    (rs.foldl (fun u r => u.insertRange r.1 r.2) s).contains c =
      (Range.has rs c || s.contains c) := by
  induction rs generalizing s with
  | nil => simp [Range.has]
  | cons r rs ih =>
    simp only [List.foldl_cons, ih, contains_insertRange, Range.has, List.any_cons]
    cases (decide (r.1 ≤ c) && decide (c ≤ r.2)) <;> simp

@[simp] theorem contains_union (s t : RuneSet) (c : Nat) :
    (s.union t).contains c = (t.contains c || s.contains c) :=
  contains_foldl_insertRange t.ranges s c

theorem contains_foldl_insert (t : Text) (s : RuneSet) (c : Nat) :
    (t.foldl insert s).contains c = (t.contains c || s.contains c) := by
  induction t generalizing s with
  | nil => simp
  | cons a t ih =>
    rw [List.foldl_cons, ih, contains_insert, List.contains_cons]
    cases (c == a) <;> simp

@[simp] theorem contains_ofText (t : Text) (c : Nat) : (ofText t).contains c = t.contains c := by
  simp [ofText, contains_foldl_insert]

end RuneSet

end PegMatch

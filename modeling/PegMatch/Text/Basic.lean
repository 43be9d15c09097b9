set_option autoImplicit false

/-! Texts are lists of code points, subjects of a match are arrays of them. A code point is a plain
number, because a pattern may hold one, such as half a surrogate pair, that is no character. -/

namespace PegMatch

abbrev Text := List Nat

abbrev Subject := Array Nat

/-- A character stands for its code point. -/
scoped instance codePoint : Coe Char Nat := ⟨Char.toNat⟩

namespace Text

def ofString (s : String) : Text :=
  s.toList.map Char.toNat

/-- Code points that are no characters become U+0000. -/
def string (t : Text) : String :=
  String.ofList (t.map Char.ofNat)

def dropPrefix? : Text → Text → Option Text
  | [], t => some t
  | _ :: _, [] => none
  | a :: p, b :: t => if a = b then dropPrefix? p t else none

def startsWith (p t : Text) : Bool :=
  (dropPrefix? p t).isSome

def occursIn (p : Text) : Text → Bool
  | [] => p.isEmpty
  | c :: t => startsWith p (c :: t) || occursIn p t

theorem dropPrefix?_append (p t : Text) : dropPrefix? p (p ++ t) = some t := by
  induction p with
  | nil => rfl
  | cons a p ih => simp [dropPrefix?, ih]

theorem eq_append_of_dropPrefix? {p t r : Text} (h : dropPrefix? p t = some r) : t = p ++ r := by
  induction p generalizing t with
  | nil => simpa [dropPrefix?] using h
  | cons a p ih =>
    cases t with
    | nil => simp [dropPrefix?] at h
    | cons b t =>
      by_cases hab : a = b
      · subst hab
        simp [dropPrefix?] at h
        simp [ih h]
      · simp [dropPrefix?, hab] at h

end Text

namespace Subject

def cut (n : Nat) (i : Int) : Nat :=
  if 0 ≤ i then min i.toNat n else (n + i).toNat

/-- The code point at `i`, and `none` where the position is outside on either side. -/
def at? (s : Subject) (i : Int) : Option Nat :=
  if 0 ≤ i then s[i.toNat]?
  else if 0 ≤ s.size + i then s[(s.size + i).toNat]?
  else none

def slice (s : Subject) (i j : Int) : Text :=
  (s.extract (cut s.size i) (cut s.size j)).toList

def sliceFrom (s : Subject) (i : Int) : Text :=
  (s.extract (cut s.size i) s.size).toList

def holds (s : Subject) : Text → Nat → Bool
  | [], _ => true
  | c :: t, k => s[k]? == some c && holds s t (k + 1)

/-- Whether the text stands at position `i`. Past the end not even the empty text does. -/
def startsWith (s : Subject) (t : Text) (i : Int) : Bool :=
  i ≤ s.size && holds s t (cut s.size i)

theorem slice_eq {s : Subject} {i j : Nat} (hij : i ≤ j) (hj : j ≤ s.size) :
    s.slice i j = (s.toList.drop i).take (j - i) := by
  have hcut (k : Nat) (hk : k ≤ s.size) : cut s.size k = k := by
    simp [cut, hk]
  rw [slice, hcut i (by omega), hcut j hj, Array.toList_extract, List.extract_eq_take_drop]

theorem sliceFrom_eq (s : Subject) (i : Nat) : s.sliceFrom i = s.toList.drop i := by
  have hcut : cut s.size i = min i s.size := by
    simp [cut]
  rw [sliceFrom, hcut, Array.toList_extract, List.extract_eq_take_drop]
  rcases Nat.le_total i s.size with h | h
  · rw [Nat.min_eq_left h, List.take_of_length_le (by simp)]
  · simp [h]

theorem sliceFrom_of_lt {s : Subject} {i : Nat} (h : i < s.size) :
    s.sliceFrom i = s[i] :: s.sliceFrom (i + 1 : Nat) := by
  rw [sliceFrom_eq, sliceFrom_eq, List.drop_eq_getElem_cons (by simpa using h),
    Array.getElem_toList]

theorem sliceFrom_of_le {s : Subject} {i : Nat} (h : s.size ≤ i) : s.sliceFrom i = [] := by
  rw [sliceFrom_eq, List.drop_of_length_le (by simpa using h)]

theorem holds_iff {s : Subject} {t : Text} {i : Nat} : s.holds t i ↔ t <+: s.sliceFrom i := by
  induction t generalizing i with
  | nil => simp [holds]
  | cons c t ih =>
    rw [holds, Bool.and_eq_true, ih]
    rcases Nat.lt_or_ge i s.size with h | h
    · have hhead : (s[i]? == some c) = true ↔ c = s[i] := by
        rw [Array.getElem?_eq_getElem h, beq_iff_eq, Option.some.injEq, eq_comm]
      rw [sliceFrom_of_lt h, List.cons_prefix_cons, hhead]
    · simp [sliceFrom_of_le h, h]

theorem startsWith_iff {s : Subject} {t : Text} {i : Nat} (hi : i ≤ s.size) :
    s.startsWith t i ↔ t <+: s.sliceFrom i := by
  have hcut : cut s.size i = i := by
    simp [cut, hi]
  simp [startsWith, hcut, hi, holds_iff]

end Subject

end PegMatch

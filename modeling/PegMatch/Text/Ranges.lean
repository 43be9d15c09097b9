import PegMatch.Text.Basic

set_option autoImplicit false

namespace PegMatch.Rune

def inRanges (table : List (Nat × Nat)) (c : Nat) : Bool :=
  table.any fun r => r.1 ≤ c && c ≤ r.2

def inStride (r : Nat × Nat × Nat) (c : Nat) : Bool :=
  r.1 ≤ c && c ≤ r.2.1 && (c - r.1) % r.2.2 == 0

def inStrides (table : List (Nat × Nat × Nat)) (c : Nat) : Bool :=
  table.any fun r => inStride r c

theorem inRanges_of_lt {table : List (Nat × Nat)} {c first : Nat} (h : ∀ r ∈ table, first ≤ r.1)
    (hc : c < first) : inRanges table c = false := by
  refine List.any_eq_false.2 fun r hr hin => ?_
  have := h r hr
  simp only [Bool.and_eq_true, decide_eq_true_eq] at hin
  omega

theorem inStrides_of_lt {table : List (Nat × Nat × Nat)} {c first : Nat}
    (h : ∀ r ∈ table, first ≤ r.1) (hc : c < first) : inStrides table c = false := by
  refine List.any_eq_false.2 fun r hr hin => ?_
  have := h r hr
  simp only [inStride, Bool.and_eq_true, decide_eq_true_eq] at hin
  omega

end PegMatch.Rune

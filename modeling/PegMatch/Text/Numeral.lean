import PegMatch.Text.Basic

set_option autoImplicit false

namespace PegMatch.Text

def numeral (n : Nat) : Text :=
  if n < 10 then ['0' + n] else numeral (n / 10) ++ ['0' + n % 10]
termination_by n

def signedNumeral (i : Int) : Text :=
  if i < 0 then '-' :: numeral i.natAbs else numeral i.natAbs

def numeralValue (digits : Text) : Nat :=
  digits.foldl (fun n d => 10 * n + (d - '0')) 0

theorem numeralValue_concat (ds : Text) (d : Nat) :
    numeralValue (ds ++ [d]) = 10 * numeralValue ds + (d - '0') := by
  simp [numeralValue]

theorem numeralValue_numeral (n : Nat) : numeralValue (numeral n) = n := by
  fun_induction numeral n with
  | case1 n h => simp [numeralValue]
  | case2 n h ih => rw [numeralValue_concat, ih]; omega

def isAsciiDigit (c : Nat) : Bool :=
  '0' ≤ c && c ≤ '9'

theorem isAsciiDigit_of_mem_numeral (n : Nat) : ∀ c ∈ numeral n, isAsciiDigit c := by
  fun_induction numeral n with
  | case1 n h => simp [isAsciiDigit]; omega
  | case2 n h ih =>
    intro c hc
    rcases List.mem_append.mp hc with hc | hc
    · exact ih c hc
    · simp at hc
      simp [isAsciiDigit, hc]
      omega

def hexDigit (n : Nat) : Nat :=
  if n < 10 then '0' + n else 'a' + (n - 10)

def hexNumeral : Nat → Nat → Text
  | 0, _ => []
  | width + 1, n => hexNumeral width (n / 16) ++ [hexDigit (n % 16)]

def hexDigitValue? (c : Nat) : Option Nat :=
  if '0' ≤ c && c ≤ '9' then some (c - '0')
  else if 'a' ≤ c && c ≤ 'f' then some (10 + (c - 'a'))
  else if 'A' ≤ c && c ≤ 'F' then some (10 + (c - 'A'))
  else none

def hexNumeralValue? (digits : Text) : Option Nat :=
  digits.foldl (fun n d => n.bind fun n => (hexDigitValue? d).map (16 * n + ·)) (some 0)

theorem hexDigitValue?_hexDigit {n : Nat} (h : n < 16) : hexDigitValue? (hexDigit n) = some n := by
  have all : ∀ k ∈ List.range 16, hexDigitValue? (hexDigit k) = some k := by decide
  exact all n (List.mem_range.mpr h)

theorem length_hexNumeral (width n : Nat) : (hexNumeral width n).length = width := by
  induction width generalizing n with
  | zero => rfl
  | succ width ih => simp [hexNumeral, ih]

theorem hexNumeralValue?_hexNumeral (width n : Nat) (h : n < Nat.pow 16 width) :
    hexNumeralValue? (hexNumeral width n) = some n := by
  induction width generalizing n with
  | zero =>
    have : n = 0 := Nat.lt_one_iff.mp h
    simp [hexNumeral, hexNumeralValue?, this]
  | succ width ih =>
    have hdiv : n / 16 < Nat.pow 16 width := by
      rw [Nat.div_lt_iff_lt_mul (by omega)]
      exact h
    have hrec := ih (n / 16) hdiv
    simp only [hexNumeralValue?] at hrec
    simp only [hexNumeral, hexNumeralValue?, List.foldl_append, List.foldl_cons, List.foldl_nil,
      hrec, hexDigitValue?_hexDigit (Nat.mod_lt n (by omega : 16 > 0)), Option.bind_some,
      Option.map_some, Option.some.injEq]
    omega

end PegMatch.Text

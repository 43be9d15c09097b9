import PegMatch.Grammar.Token
import PegMatch.Pattern.Render

set_option autoImplicit false

namespace PegMatch

namespace Range

theorem Spaced.gap {lo hi : Nat} {rs : List Range} (h : Spaced ((lo, hi) :: rs)) :
    ∀ r ∈ rs, hi + 1 < r.1 := by
  induction rs generalizing lo hi with
  | nil => simp
  | cons q rs ih =>
    obtain ⟨a, b⟩ := q
    cases h with
    | cons _ gap tail =>
      intro r hr
      rcases List.mem_cons.1 hr with rfl | hr
      · exact gap
      · have := ih tail r hr
        have := tail.head
        omega

theorem Spaced.le {rs : List Range} (h : Spaced rs) : ∀ r ∈ rs, r.1 ≤ r.2 := by
  induction rs with
  | nil => simp
  | cons q rs ih =>
    intro r hr
    rcases List.mem_cons.1 hr with rfl | hr
    · exact h.head
    · exact ih h.tail r hr

theorem has_cons (lo hi : Nat) (rs : List Range) (c : Nat) :
    has ((lo, hi) :: rs) c ↔ (lo ≤ c ∧ c ≤ hi) ∨ has rs c := by
  simp [has]

theorem Spaced.lt_of_has {lo hi : Nat} {rs : List Range} (h : Spaced ((lo, hi) :: rs)) {c : Nat}
    (hc : has rs c) : hi + 1 < c := by
  simp only [has, List.any_eq_true, Bool.and_eq_true, decide_eq_true_eq] at hc
  obtain ⟨r, hr, hle, -⟩ := hc
  have := h.gap r hr
  omega

theorem Spaced.ext {rs ss : List Range} (h : Spaced rs) (h' : Spaced ss)
    (he : ∀ c, has rs c ↔ has ss c) : rs = ss := by
  induction rs generalizing ss with
  | nil =>
    cases ss with
    | nil => rfl
    | cons s ss =>
      obtain ⟨c, d⟩ := s
      have := (he c).2 ((has_cons c d ss c).2 (.inl ⟨Nat.le_refl c, h'.head⟩))
      simp [has] at this
  | cons r rs ih =>
    obtain ⟨a, b⟩ := r
    cases ss with
    | nil =>
      have := (he a).1 ((has_cons a b rs a).2 (.inl ⟨Nat.le_refl a, h.head⟩))
      simp [has] at this
    | cons s ss =>
      obtain ⟨c, d⟩ := s
      have hab := h.head
      have hcd := h'.head
      simp only [has_cons] at he
      -- Neither row starts or ends its first run before the other.
      have above {x y z : Nat} {qs : List Range} (hq : Spaced ((x, y) :: qs))
          (hz : (x ≤ z ∧ z ≤ y) ∨ has qs z) : x ≤ z ∧ z ≠ y + 1 := by
        rcases hz with hz | hz
        · omega
        · have := hq.lt_of_has hz
          have := hq.head
          omega
      have hca := above h' ((he a).1 (.inl ⟨Nat.le_refl a, hab⟩))
      have hac := above h ((he c).2 (.inl ⟨Nat.le_refl c, hcd⟩))
      obtain rfl : a = c := by omega
      have hbd : b = d := by
        rcases Nat.lt_trichotomy b d with hlt | heq | hlt
        · exact absurd rfl (above h ((he (b + 1)).2 (.inl ⟨by omega, by omega⟩))).2
        · exact heq
        · exact absurd rfl (above h' ((he (d + 1)).1 (.inl ⟨by omega, by omega⟩))).2
      subst hbd
      have htail : rs = ss := by
        refine ih h.tail h'.tail fun x => ⟨fun hx => ?_, fun hx => ?_⟩
        · have := h.lt_of_has hx
          exact ((he x).1 (.inr hx)).resolve_left (by omega)
        · have := h'.lt_of_has hx
          exact ((he x).2 (.inr hx)).resolve_left (by omega)
      rw [htail]

end Range

namespace RuneSet

theorem ext_contains {s t : RuneSet} (h : ∀ c, s.contains c = t.contains c) : s = t := by
  have hranges := s.spaced.ext t.spaced fun c => by rw [← contains, h, contains]
  cases s
  cases t
  cases hranges
  rfl

theorem insert_succ (s : RuneSet) (c : Nat) :
    (s.insert c).insert (c + 1) = s.insertRange c (c + 1) := by
  apply ext_contains
  intro x
  rw [contains_insert, contains_insert, contains_insertRange, Bool.eq_iff_iff]
  cases s.contains x <;> simp
  omega

theorem foldl_ranges (s : RuneSet) :
    s.ranges.foldl (fun u r => u.insertRange r.1 r.2) empty = s := by
  apply ext_contains
  intro c
  rw [contains_foldl_insertRange, contains_empty, Bool.or_false, contains]

end RuneSet

namespace Text

theorem runs_cons (c : Nat) (cs : Text) :
    runs (c :: cs) = (c, c) :: runs cs ∨ ∃ b rs, runs cs = (c + 1, b) :: rs ∧
      runs (c :: cs) = (c, b) :: rs := by
  cases hr : runs cs with
  | nil => exact .inl (by simp [runs, hr])
  | cons r rs =>
    obtain ⟨a, b⟩ := r
    by_cases ha : a = c + 1
    · subst ha
      exact .inr ⟨b, rs, rfl, by simp [runs, hr]⟩
    · exact .inl (by simp [runs, hr, ha])

theorem runs_le (t : Text) : ∀ r ∈ runs t, r.1 ≤ r.2 := by
  induction t with
  | nil => simp [runs]
  | cons c cs ih =>
    rcases runs_cons c cs with h | ⟨b, rs, hr, h⟩
    · rw [h, List.forall_mem_cons]
      exact ⟨Nat.le_refl c, ih⟩
    · rw [hr, List.forall_mem_cons] at ih
      rw [h, List.forall_mem_cons]
      exact ⟨by have := ih.1; simp only at this ⊢; omega, ih.2⟩

theorem has_runs (t : Text) (x : Nat) : Range.has (runs t) x ↔ x ∈ t := by
  induction t with
  | nil => simp [runs, Range.has]
  | cons c cs ih =>
    rw [List.mem_cons, ← ih]
    rcases runs_cons c cs with h | ⟨b, rs, hr, h⟩
    · rw [h, Range.has_cons]
      exact or_congr_left (by omega)
    · have hle := runs_le cs (c + 1, b) (by simp [hr])
      rw [h, hr, Range.has_cons, Range.has_cons, ← or_assoc]
      exact or_congr_left (by simp only at hle; omega)

theorem insert_runs (members : Text) :
    (runs (members.mergeSort fun a b => decide (a ≤ b))).foldl
      (fun u r => u.insertRange r.1 r.2) RuneSet.empty = RuneSet.ofText members := by
  apply RuneSet.ext_contains
  intro c
  rw [RuneSet.contains_foldl_insertRange, RuneSet.contains_empty, Bool.or_false,
    RuneSet.contains_ofText, Bool.eq_iff_iff, has_runs, List.mem_mergeSort, List.contains_iff_mem]

end Text

namespace Token

open Text

theorem takeWhile_append_stop {α : Type} {test : α → Bool} {xs rest : List α}
    (hx : ∀ x ∈ xs, test x) (hr : ∀ x ∈ rest.head?, ¬ test x) :
    (xs ++ rest).takeWhile test = xs := by
  rw [List.takeWhile_append_of_pos hx]
  cases rest with
  | nil => simp
  | cons x rest => simp [hr x (by simp)]

theorem dropWhile_append_stop {α : Type} {test : α → Bool} {xs rest : List α}
    (hx : ∀ x ∈ xs, test x) (hr : ∀ x ∈ rest.head?, ¬ test x) :
    (xs ++ rest).dropWhile test = rest := by
  rw [List.dropWhile_append_of_pos hx]
  cases rest with
  | nil => simp
  | cons x rest => simp [hr x (by simp)]

theorem letterEscape?_of_not {c : Nat} (h : ¬ isLetter c) : letterEscape? c = none := by
  simp only [isLetter, Bool.or_eq_true, Bool.and_eq_true, decide_eq_true_eq] at h
  simp only [letterEscape?, Char.reduceToNat] at h ⊢
  repeat rw [if_neg (by omega)]

theorem hex?_hexNumeral {width c : Nat} (h : c < Nat.pow 16 width) (rest : Text) :
    hex? width (hexNumeral width c ++ rest) = some (c, rest) := by
  have hlen := length_hexNumeral width c
  have htake : (hexNumeral width c ++ rest).take width = hexNumeral width c := by
    rw [List.take_append_of_le_length (by omega), List.take_of_length_le (by omega)]
  have hdrop : (hexNumeral width c ++ rest).drop width = rest := by
    rw [List.drop_append_of_le_length (by omega), List.drop_of_length_le (by omega),
      List.nil_append]
  simp [hex?, htake, hdrop, hlen, hexNumeralValue?_hexNumeral width c h]

/-- Neither a letter nor a digit: such code points stand for themselves after a backslash. -/
def isSymbol (c : Nat) : Bool :=
  !isLetter c && !isAsciiDigit c

theorem escape?_symbol {c : Nat} (h : isSymbol c) (rest : Text) :
    escape? (c :: rest) = some (c, rest) := by
  simp only [isSymbol, Bool.and_eq_true, Bool.not_eq_true'] at h
  have hx : c ≠ 'x'.toNat := by
    rintro rfl
    simp [isLetter] at h
  have hu : c ≠ 'u'.toNat := by
    rintro rfl
    simp [isLetter] at h
  have hnone : letterEscape? c = none := letterEscape?_of_not (by simp [h.1])
  simp only [escape?, hnone, if_neg hx, if_neg hu, h, Bool.false_eq_true, if_false]

theorem escape?_hex2 {c : Nat} (h : c < 256) (rest : Text) :
    escape? ('x'.toNat :: (hexNumeral 2 c ++ rest)) = some (c, rest) := by
  have hnone : letterEscape? 'x'.toNat = none := by decide
  simp only [escape?, hnone, if_true]
  exact hex?_hexNumeral h rest

theorem escape?_hex4 {c : Nat} (h : c < 65536) (rest : Text) :
    escape? ('u'.toNat :: (hexNumeral 4 c ++ rest)) = some (c, rest) := by
  have hnone : letterEscape? 'u'.toNat = none := by decide
  have hx : ¬ 'u'.toNat = 'x'.toNat := by decide
  simp only [escape?, hnone, if_neg hx, if_true]
  exact hex?_hexNumeral h rest

/-- A code point that is written plainly, or by an escape that stands for it and names no set. -/
theorem escapedRune_spec {special : Text} (hs : ∀ c ∈ special, isSymbol c) (c : Nat) :
    (escapedRune special c = [c] ∧ c ≠ '\\'.toNat ∧ c ∉ special) ∨
      ∃ a e, escapedRune special c = '\\'.toNat :: a :: e ∧ classSet? a = none ∧
        ∀ rest, escape? (a :: (e ++ rest)) = some (c, rest) := by
  generalize hw : escapedRune special c = w
  unfold escapedRune at hw
  split at hw
  · next h =>
    subst hw
    have hc : isSymbol c := by
      rcases h with rfl | h
      · decide
      · exact hs c h
    refine .inr ⟨c, [], rfl, ?_, fun rest => escape?_symbol hc rest⟩
    simp only [isSymbol, isLetter, Bool.and_eq_true, Bool.not_eq_true', Bool.or_eq_false_iff,
      Bool.and_eq_false_iff, decide_eq_false_iff_not, Char.reduceToNat] at hc
    simp only [classSet?, Char.reduceToNat]
    repeat rw [if_neg (by omega)]
  next h =>
  have plain : c ≠ '\\'.toNat ∧ c ∉ special := not_or.1 h
  split at hw
  · next hc => subst hw hc; exact .inr ⟨'n'.toNat, [], rfl, by decide, fun rest => rfl⟩
  split at hw
  · next hc => subst hw hc; exact .inr ⟨'r'.toNat, [], rfl, by decide, fun rest => rfl⟩
  split at hw
  · next hc => subst hw hc; exact .inr ⟨'t'.toNat, [], rfl, by decide, fun rest => rfl⟩
  split at hw
  · exact .inl ⟨hw.symm, plain⟩
  split at hw
  · subst hw
    exact .inr ⟨'x'.toNat, hexNumeral 2 c, rfl, by decide, fun rest => escape?_hex2 (by omega) rest⟩
  split at hw
  · subst hw
    exact .inr ⟨'u'.toNat, hexNumeral 4 c, rfl, by decide, fun rest => escape?_hex4 (by omega) rest⟩
  · exact .inl ⟨hw.symm, plain⟩

theorem literalBody_escaped (start t rest : Text) :
    literalBody '\'' false start (t.flatMap (escapedRune ['\'']) ++ '\''.toNat :: rest) =
      .ok (t, rest) := by
  induction t with
  | nil => simp [literalBody]
  | cons c t ih =>
    have hquote : ∀ x ∈ ['\''.toNat], isSymbol x := by decide
    rw [List.flatMap_cons, List.append_assoc]
    rcases escapedRune_spec hquote c with ⟨he, hb, hm⟩ | ⟨a, e, he, -, hesc⟩
    · have hq : c ≠ '\''.toNat := by simpa using hm
      have hescape : ¬ (c = '\\'.toNat ∧ (!false) = true) := fun h => hb h.1
      rw [he, List.singleton_append, literalBody, if_neg hq, if_neg hescape, ih]
      rfl
    · have hq : ¬ '\\'.toNat = '\''.toNat := by decide
      rw [he, List.cons_append, List.cons_append, literalBody]
      simp only [hq, if_false, Bool.not_false, and_self, if_true]
      split
      · next hnone => rw [hesc] at hnone; cases hnone
      · next d r hsome =>
        rw [hesc] at hsome
        cases hsome
        rw [ih]
        rfl

theorem literal_asLiteral (t rest : Text) :
    literal false (asLiteral t ++ rest) = .ok (t, rest) := by
  have := literalBody_escaped (asLiteral t ++ rest) t rest
  simpa only [asLiteral, literal, List.cons_append, List.append_assoc, List.nil_append] using this

theorem isSymbol_special : ∀ c ∈ [']'.toNat, '^'.toNat, '-'.toNat], isSymbol c := by
  decide

theorem classItem_classRune (c : Nat) :
    ∃ a e, classRune c = a :: e ∧ a ≠ ']'.toNat ∧ a ≠ '^'.toNat ∧ a ≠ '-'.toNat ∧
      ∀ rest, classItem a (e ++ rest) = .ok (.one c, rest) := by
  rcases escapedRune_spec isSymbol_special c with ⟨he, hb, hm⟩ | ⟨a, e, he, hset, hesc⟩
  · simp only [List.mem_cons, List.not_mem_nil, or_false, not_or] at hm
    exact ⟨c, [], he, hm.1, hm.2.1, hm.2.2, fun rest => if_neg hb⟩
  · refine ⟨'\\'.toNat, a :: e, he, by decide, by decide, by decide, fun rest => ?_⟩
    simp only [classItem, if_true, List.cons_append, hset, classEscape, hesc]

theorem rangeEnd?_of_ne {t : Text} (h : ∀ c ∈ t.head?, c ≠ '-'.toNat) : rangeEnd? t = none := by
  unfold rangeEnd?
  split
  · exact absurd rfl (h _ (by simp))
  · rfl

theorem rangeEnd?_dash {c : Nat} (h : c ≠ ']'.toNat) (t : Text) :
    rangeEnd? ('-'.toNat :: c :: t) = some (c, t) := by
  exact if_neg h

theorem classBody_classRune (start : Text) (members : RuneSet) (c : Nat) {rest : Text}
    (hr : ∀ x ∈ rest.head?, x ≠ '-'.toNat) :
    classBody start members (classRune c ++ rest) = classBody start (members.insert c) rest := by
  obtain ⟨a, e, he, hclose, -, -, hitem⟩ := classItem_classRune c
  rw [he, List.cons_append, classBody, if_neg hclose]
  split
  · next hi => rw [hitem] at hi; cases hi
  · next hi => rw [hitem] at hi; cases hi
  · next hi =>
    rw [hitem] at hi
    cases hi
    split
    · rfl
    · next hsome => rw [rangeEnd?_of_ne hr] at hsome; cases hsome

theorem classBody_range (start : Text) (members : RuneSet) {lo hi : Nat} (hle : lo ≤ hi)
    (rest : Text) :
    classBody start members (classRune lo ++ '-'.toNat :: (classRune hi ++ rest)) =
      classBody start (members.insertRange lo hi) rest := by
  obtain ⟨a, e, he, hclose, -, -, hitem⟩ := classItem_classRune lo
  obtain ⟨b, f, hf, hclose', -, -, hitem'⟩ := classItem_classRune hi
  rw [he, hf, List.cons_append, List.cons_append, classBody, if_neg hclose]
  split
  · next h => rw [hitem] at h; cases h
  · next h => rw [hitem] at h; cases h
  · next h =>
    rw [hitem] at h
    cases h
    split
    · next hnone => rw [rangeEnd?_dash hclose'] at hnone; cases hnone
    · next hsome =>
      rw [rangeEnd?_dash hclose'] at hsome
      cases hsome
      split
      · next h => rw [hitem'] at h; cases h
      · next h => rw [hitem'] at h; cases h
      · next h =>
        rw [hitem'] at h
        cases h
        rw [if_neg (by omega)]

theorem head?_classRune (c : Nat) (rest : Text) :
    ∀ x ∈ (classRune c ++ rest).head?, x ≠ '-'.toNat := by
  obtain ⟨a, e, he, -, -, hdash, -⟩ := classItem_classRune c
  simpa [he] using hdash

theorem classBody_classRun (start : Text) (members : RuneSet) {r : Range} (hle : r.1 ≤ r.2)
    {rest : Text} (hr : ∀ x ∈ rest.head?, x ≠ '-'.toNat) :
    classBody start members (classRun r ++ rest) =
      classBody start (members.insertRange r.1 r.2) rest := by
  obtain ⟨lo, hi⟩ := r
  simp only at hle ⊢
  unfold classRun
  split
  · rw [List.append_assoc]
    exact classBody_range start members hle rest
  · next hshort =>
    simp only at hshort
    by_cases heq : lo = hi
    · subst heq
      have hone : lo + 1 - lo = 1 := by omega
      simp only [hone, List.range'_one, List.flatMap_cons, List.flatMap_nil, List.append_nil]
      exact classBody_classRune start members lo hr
    · have htwo : hi = lo + 1 := by omega
      subst htwo
      have hcount : lo + 1 + 1 - lo = 2 := by omega
      simp only [hcount, List.range'_succ, List.range'_zero, List.flatMap_cons, List.flatMap_nil,
        List.append_nil, List.append_assoc]
      rw [classBody_classRune start members lo (head?_classRune _ _),
        classBody_classRune start _ _ hr, RuneSet.insert_succ]

theorem classRun_eq {r : Range} (h : r.1 ≤ r.2) : ∃ e, classRun r = classRune r.1 ++ e := by
  unfold classRun
  split
  · exact ⟨_, rfl⟩
  · have hlen : r.2 + 1 - r.1 = r.2 - r.1 + 1 := by omega
    rw [hlen, List.range'_succ, List.flatMap_cons]
    exact ⟨_, rfl⟩

theorem head?_classRun {r : Range} (h : r.1 ≤ r.2) (rest : Text) :
    ∀ x ∈ (classRun r ++ rest).head?, x ≠ '-'.toNat ∧ x ≠ '^'.toNat := by
  obtain ⟨e, he⟩ := classRun_eq h
  obtain ⟨a, f, hf, -, hcaret, hdash, -⟩ := classItem_classRune r.1
  simpa [he, hf] using ⟨hdash, hcaret⟩

theorem classBody_asClass (start : Text) (members : RuneSet) {rs : List Range}
    (hrs : ∀ r ∈ rs, r.1 ≤ r.2) (rest : Text) :
    classBody start members (rs.flatMap classRun ++ ']'.toNat :: rest) =
      .ok (rs.foldl (fun u r => u.insertRange r.1 r.2) members, rest) := by
  induction rs generalizing members with
  | nil => simp [classBody]
  | cons r rs ih =>
    have hnext : ∀ x ∈ (rs.flatMap classRun ++ ']'.toNat :: rest).head?, x ≠ '-'.toNat := by
      cases rs with
      | nil => simp
      | cons q rs =>
        rw [List.flatMap_cons, List.append_assoc]
        exact fun x hx => (head?_classRun (hrs q (by simp)) _ x hx).1
    rw [List.flatMap_cons, List.append_assoc, classBody_classRun start members
      (hrs r (by simp)) hnext, ih _ fun r hr => hrs r (by simp [hr])]
    rfl

theorem classAfter_runs (start : Text) {rs : List Range} (hrs : ∀ r ∈ rs, r.1 ≤ r.2)
    (negated : Bool) (rest : Text) :
    classAfter start ((asClass rs negated).tail ++ rest) =
      .ok ((rs.foldl (fun u r => u.insertRange r.1 r.2) .empty, negated), rest) := by
  have hbody := classBody_asClass start .empty hrs rest
  cases negated with
  | true =>
    simp only [asClass, if_true, List.cons_append, List.nil_append, List.tail_cons,
      List.append_assoc]
    exact congrArg (Except.map fun p => ((p.1, true), p.2)) hbody
  | false =>
    simp only [asClass, Bool.false_eq_true, if_false, List.nil_append, List.cons_append,
      List.tail_cons, List.append_assoc]
    have hcaret : ∀ x ∈ (rs.flatMap classRun ++ ']'.toNat :: rest).head?, x ≠ '^'.toNat := by
      cases rs with
      | nil => simp
      | cons r rs =>
        rw [List.flatMap_cons, List.append_assoc]
        exact fun x hx => (head?_classRun (hrs r (by simp)) _ x hx).2
    unfold classAfter
    split
    · next h => exact absurd rfl (hcaret _ (by rw [h]; rfl))
    · rw [hbody]
      rfl

theorem classAfter_asClass (start : Text) (members : RuneSet) (negated : Bool) (rest : Text) :
    classAfter start ((asClass members.ranges negated).tail ++ rest) =
      .ok ((members, negated), rest) := by
  rw [classAfter_runs start members.spaced.le, RuneSet.foldl_ranges]

theorem decimalValue?_of_digit {c : Nat} (h : isAsciiDigit c) :
    Rune.decimalValue? c = some (c - '0'.toNat) := by
  simp only [isAsciiDigit, Bool.and_eq_true, decide_eq_true_eq] at h
  have hfind : (Rune.decimals.find? fun r => r.1 ≤ c && c ≤ r.2) = some (0x30, 0x39) := by
    rw [Rune.decimals, List.find?_cons_of_pos]
    simpa using h
  have hmod : (c - 0x30) % 10 = c - 0x30 := by
    simp only [Char.reduceToNat] at h
    omega
  simp only [Rune.decimalValue?, hfind, Option.map_some, hmod]
  rfl

theorem decimal_of_digits {ds : Text} (h : ∀ c ∈ ds, isAsciiDigit c)
    (hlen : ds.length ≤ mostDigits) : Text.decimal ds = .ok (numeralValue ds) := by
  have hvalues : ds.mapM Rune.decimalValue? = some (ds.map fun c => c - '0'.toNat) := by
    clear hlen
    induction ds with
    | nil => rfl
    | cons c ds ih =>
      rw [List.mapM_cons, decimalValue?_of_digit (h c (by simp)), ih fun c hc => h c (by simp [hc])]
      rfl
  have hfront : ¬ mostDigits < (ds.takeWhile Rune.isDecimal).length := by
    have := (List.takeWhile_prefix Rune.isDecimal (l := ds)).length_le
    omega
  simp only [Text.decimal, if_neg hfront, hvalues, numeralValue, List.foldl_map]

theorem numeral_ne_nil (n : Nat) : numeral n ≠ [] := by
  unfold numeral
  split <;> simp

theorem numeral_eq_cons (n : Nat) : ∃ d t, numeral n = d :: t ∧ isAsciiDigit d := by
  cases h : numeral n with
  | nil => exact absurd h (numeral_ne_nil n)
  | cons d t => exact ⟨d, t, rfl, isAsciiDigit_of_mem_numeral n d (by simp [h])⟩

theorem length_numeral_le {n k : Nat} (h : n < Nat.pow 10 (k + 1)) :
    (numeral n).length ≤ k + 1 := by
  induction k generalizing n with
  | zero =>
    have : n < 10 := h
    unfold numeral
    simp [this]
  | succ k ih =>
    unfold numeral
    split
    · simp
    · have hdiv : n / 10 < Nat.pow 10 (k + 1) := by
        rw [Nat.div_lt_iff_lt_mul (by omega)]
        exact h
      have := ih hdiv
      simp only [List.length_append, List.length_cons, List.length_nil]
      omega

theorem not_letter_of_digit {d : Nat} (h : isAsciiDigit d) : isLetter d = false := by
  simp only [isAsciiDigit, Bool.and_eq_true, decide_eq_true_eq, Char.reduceToNat] at h
  simp [isLetter]
  omega

theorem escape?_numeral {n : Nat} (h : n < 1000) {rest : Text}
    (hr : ∀ c ∈ rest.head?, ¬ isAsciiDigit c) : escape? (numeral n ++ rest) = some (n, rest) := by
  obtain ⟨d, t, hd, hdigit⟩ := numeral_eq_cons n
  have hletter := not_letter_of_digit hdigit
  have hnone : letterEscape? d = none := letterEscape?_of_not (by simp [hletter])
  have hx : d ≠ 'x'.toNat := by
    rintro rfl
    simp [isLetter] at hletter
  have hu : d ≠ 'u'.toNat := by
    rintro rfl
    simp [isLetter] at hletter
  have htake : (numeral n ++ rest).takeWhile isAsciiDigit = numeral n :=
    takeWhile_append_stop (isAsciiDigit_of_mem_numeral n) hr
  have hlen : (numeral n).length ≤ 3 := length_numeral_le h
  have hdecimal : decimal (numeral n ++ rest) = (n, rest) := by
    simp only [decimal, htake, List.take_of_length_le hlen, numeralValue_numeral, List.drop_left]
  rw [hd, List.cons_append] at hdecimal ⊢
  simp only [escape?, hnone, if_neg hx, if_neg hu, hdigit, if_true, hdecimal]

end Token

end PegMatch

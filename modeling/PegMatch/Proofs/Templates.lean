import Mathlib.Data.List.TakeWhile
import Mathlib.Data.Nat.Digits.Defs
import PegMatch.Template

set_option autoImplicit false

namespace PegMatch

theorem bind_eq_ok_iff {α β ε : Type} {x : Except ε α} {f : α → Except ε β} {b : β} :
    x >>= f = .ok b ↔ ∃ a, x = .ok a ∧ f a = .ok b := by
  cases x <;> simp [bind, Except.bind]

theorem Rune.isDecimal_iff {c : Nat} : Rune.isDecimal c ↔ (Rune.decimalValue? c).isSome := by
  rw [decimalValue?, Option.isSome_map, List.find?_isSome, isDecimal, inRanges, List.any_eq_true]

namespace Text

def decimalValue (ds : Text) : Nat :=
  Nat.ofDigits 10 (ds.reverse.map fun d => (Rune.decimalValue? d).getD 0)

theorem decimalValues {ds : Text} (h : ∀ d ∈ ds, Rune.isDecimal d) :
    ds.mapM Rune.decimalValue? = some (ds.map fun d => (Rune.decimalValue? d).getD 0) := by
  induction ds with
  | nil => rfl
  | cons d ds ih =>
    obtain ⟨v, hv⟩ := Option.isSome_iff_exists.1 (Rune.isDecimal_iff.1 (h d (by simp)))
    rw [List.mapM_cons, hv, ih fun c hc => h c (by simp [hc])]
    simp only [List.map_cons, hv, Option.getD_some]
    rfl

theorem isDecimal_of_decimalValues {ds values : Text}
    (h : ds.mapM Rune.decimalValue? = some values) : ∀ d ∈ ds, Rune.isDecimal d := by
  induction ds generalizing values with
  | nil => simp
  | cons d ds ih =>
    rw [List.mapM_cons] at h
    obtain ⟨v, hv, h⟩ := Option.bind_eq_some_iff.1 h
    obtain ⟨vs, hvs, -⟩ := Option.bind_eq_some_iff.1 h
    have hd : Rune.isDecimal d := Rune.isDecimal_iff.2 (Option.isSome_iff_exists.2 ⟨v, hv⟩)
    exact List.forall_mem_cons.2 ⟨hd, ih hvs⟩

theorem decimal_eq_ok_iff {ds : Text} {n : Nat} :
    ds.decimal = .ok n ↔ (∀ d ∈ ds, Rune.isDecimal d) ∧ ds.length ≤ mostDigits ∧
      n = ds.decimalValue := by
  have value : (ds.map fun d => (Rune.decimalValue? d).getD 0).foldl (fun n d => 10 * n + d) 0 =
      ds.decimalValue := by
    rw [decimalValue, Nat.ofDigits_eq_foldr, List.map_reverse, List.foldr_reverse]
    simp only [Nat.cast_id, Nat.add_comm]
  constructor
  · intro h
    simp only [decimal] at h
    split at h
    · cases h
    · next hshort =>
      split at h
      · next values hvalues =>
        have hall := isDecimal_of_decimalValues hvalues
        rw [List.takeWhile_eq_self_iff.2 hall] at hshort
        rw [decimalValues hall] at hvalues
        cases hvalues
        cases h
        exact ⟨hall, by omega, value⟩
      · cases h
  · rintro ⟨hall, hshort, rfl⟩
    simp only [decimal, List.takeWhile_eq_self_iff.2 hall, decimalValues hall, value]
    rw [if_neg (by omega)]

end Text

namespace Template

/-- A run of decimal digits that is not too long, and the number that it stands for. -/
structure Numeral (ds : Text) (n : Nat) : Prop where
  nonempty : ds ≠ []
  decimal : ∀ d ∈ ds, Rune.isDecimal d
  short : ds.length ≤ Text.mostDigits
  value : n = ds.decimalValue

/-- How a template splits into items. A number without braces ends where no digit follows. -/
inductive Splits : Text → List Item → Prop where
  | nil : Splits [] []
  | rune {c : Nat} {t : Text} {is : List Item} (plain : c ≠ '$') (rest : Splits t is) :
      Splits (c :: t) (.rune c :: is)
  | dollar {t : Text} {is : List Item} (rest : Splits t is) :
      Splits ('$' :: '$' :: t) (.rune '$' :: is)
  | next {t : Text} {is : List Item} (rest : Splits t is) : Splits ('$' :: '#' :: t) (.next :: is)
  | number {ds t : Text} {n : Nat} {is : List Item} (numeral : Numeral ds n)
      (longest : ∀ c ∈ t.head?, ¬ Rune.isDigit c) (rest : Splits t is) :
      Splits ('$' :: (ds ++ t)) (.number n :: is)
  | braced {ds t : Text} {n : Nat} {is : List Item} (numeral : Numeral ds n) (rest : Splits t is) :
      Splits ('$' :: '{' :: (ds ++ '}'.toNat :: t)) (.number n :: is)

def Items.whole? : Items → Option (List Item)
  | .done => some []
  | .mistake _ => none
  | .item i rest => rest.whole?.map (i :: ·)

theorem isDigit_of_isDecimal {c : Nat} (h : Rune.isDecimal c) : Rune.isDigit c := by
  simp [Rune.isDigit, h]

theorem numeral_of_number {ds : Text} {n : Nat} (hne : ds ≠ []) (h : number ds = .ok n) :
    Numeral ds n := by
  cases hd : ds.decimal with
  | error e => rw [number, hd] at h; cases h
  | ok k =>
    rw [number, hd] at h
    cases h
    obtain ⟨hall, hshort, hvalue⟩ := Text.decimal_eq_ok_iff.1 hd
    exact ⟨hne, hall, hshort, hvalue⟩

theorem Numeral.number {ds : Text} {n : Nat} (h : Numeral ds n) : number ds = .ok n := by
  rw [Template.number, Text.decimal_eq_ok_iff.2 ⟨h.decimal, h.short, h.value⟩]
  rfl

theorem eq_append_of_braced? {t digits rest : Text} (h : braced? t = some (digits, rest)) :
    t = digits ++ '}'.toNat :: rest := by
  unfold braced? at h
  split at h
  · next c rest' hdrop =>
    cases h
    have hc : c = '}'.toNat := by
      have := List.head?_dropWhile_not (· != '}'.toNat) t
      rw [hdrop] at this
      simpa using this
    have := List.takeWhile_append_dropWhile (p := (· != '}'.toNat)) (l := t)
    rw [hdrop, hc] at this
    exact this.symm
  · cases h

theorem braced?_append {digits rest : Text} (h : '}'.toNat ∉ digits) :
    braced? (digits ++ '}'.toNat :: rest) = some (digits, rest) := by
  have hall (c : Nat) (hc : c ∈ digits) : (c != '}'.toNat) = true := by
    simp only [bne_iff_ne, ne_eq]
    rintro rfl
    exact h hc
  have hstop : ('}'.toNat != '}'.toNat) = false := rfl
  rw [braced?, List.takeWhile_append_of_pos hall, List.dropWhile_append_of_pos hall,
    List.takeWhile_cons, List.dropWhile_cons, hstop]
  simp

theorem splits_of_items {whole t : Text} {is : List Item} (h : (items whole t).whole? = some is) :
    Splits t is := by
  fun_induction items whole t generalizing is with
  | case1 => cases h; exact .nil
  | case3 t ih =>
    obtain ⟨js, hjs, rfl⟩ := Option.map_eq_some_iff.1 h
    exact .dollar (ih hjs)
  | case4 t _ ih =>
    obtain ⟨js, hjs, rfl⟩ := Option.map_eq_some_iff.1 h
    exact .next (ih hjs)
  | case7 t digits rest hb _ hdigits n hn _ _ ih =>
    obtain ⟨js, hjs, rfl⟩ := Option.map_eq_some_iff.1 h
    rw [eq_append_of_braced? hb]
    exact .braced (numeral_of_number (by simp_all) hn) (ih hjs)
  | case9 d t _ _ _ hd _ n hn ih =>
    obtain ⟨js, hjs, rfl⟩ := Option.map_eq_some_iff.1 h
    rw [← List.takeWhile_append_dropWhile (p := Rune.isDigit) (l := d :: t)]
    refine .number (numeral_of_number (by simp [hd]) hn) (fun c hc => ?_) (ih hjs)
    have := List.head?_dropWhile_not Rune.isDigit (d :: t)
    rw [Option.mem_def.1 hc] at this
    simpa using this
  | case12 c t hc ih =>
    obtain ⟨js, hjs, rfl⟩ := Option.map_eq_some_iff.1 h
    exact .rune hc (ih hjs)
  | _ => cases h

theorem not_digit_of_sign {c : Nat} (h : c = '$' ∨ c = '#' ∨ c = '{' ∨ c = '}') :
    Rune.isDigit c = false := by
  rcases h with rfl | rfl | rfl | rfl <;> decide

theorem items_number {ds t : Text} {n : Nat} (numeral : Numeral ds n)
    (longest : ∀ c ∈ t.head?, ¬ Rune.isDigit c) (whole : Text) :
    items whole ('$' :: (ds ++ t)) = .item (.number n) (items whole t) := by
  have hall (c : Nat) (hc : c ∈ ds) : Rune.isDigit c := isDigit_of_isDecimal (numeral.decimal c hc)
  have htake : (ds ++ t).takeWhile Rune.isDigit = ds := by
    cases t with
    | nil => simpa using hall
    | cons c t => simp [List.takeWhile_append_of_pos hall, longest c rfl]
  have hdrop : (ds ++ t).dropWhile Rune.isDigit = t := by
    cases t with
    | nil => simpa using hall
    | cons c t => simp [List.dropWhile_append_of_pos hall, longest c rfl]
  obtain ⟨d, ds, rfl⟩ := List.exists_cons_of_ne_nil numeral.nonempty
  have hd := hall d (by simp)
  have hne (c : Nat) (hc : c = '$' ∨ c = '#' ∨ c = '{' ∨ c = '}') : d ≠ c := by
    rintro rfl
    rw [not_digit_of_sign hc] at hd
    cases hd
  rw [List.cons_append] at htake hdrop ⊢
  rw [items.eq_def]
  simp only [if_true, hne '$' (by simp), hne '#' (by simp), hne '{' (by simp), if_false, dif_pos hd,
    htake, hdrop, numeral.number]

theorem items_braced {ds t : Text} {n : Nat} (numeral : Numeral ds n) (whole : Text) :
    items whole ('$' :: '{' :: (ds ++ '}'.toNat :: t)) = .item (.number n) (items whole t) := by
  have hall (c : Nat) (hc : c ∈ ds) : Rune.isDigit c := isDigit_of_isDecimal (numeral.decimal c hc)
  have hclosed : braced? (ds ++ '}'.toNat :: t) = some (ds, t) := by
    refine braced?_append fun hmem => ?_
    have := hall _ hmem
    rw [not_digit_of_sign (by simp)] at this
    cases this
  have hdigits : (ds.isEmpty || !ds.all Rune.isDigit) = false := by
    simpa [numeral.nonempty] using hall
  have hopen : ¬ '{'.toNat = '$'.toNat ∧ ¬ '{'.toNat = '#'.toNat := by decide
  rw [items.eq_def]
  simp only [if_true, hopen, if_false]
  split
  · next hnone => cases hclosed.symm.trans hnone
  · next digits rest hsome =>
    cases hclosed.symm.trans hsome
    simp only [hdigits, Bool.false_eq_true, if_false, numeral.number]

theorem items_of_splits {t : Text} {is : List Item} (h : Splits t is) (whole : Text) :
    (items whole t).whole? = some is := by
  induction h with
  | nil => rw [items.eq_def]; rfl
  | @rune c t is plain _ ih =>
    have : items whole (c :: t) = .item (.rune c) (items whole t) := by
      rw [items.eq_def]; exact if_neg plain
    rw [this, Items.whole?, ih, Option.map_some]
  | @dollar t is _ ih =>
    have : items whole ('$' :: '$' :: t) = .item (.rune '$') (items whole t) := by
      rw [items.eq_def]; rfl
    rw [this, Items.whole?, ih, Option.map_some]
  | @next t is _ ih =>
    have : items whole ('$' :: '#' :: t) = .item .next (items whole t) := by rw [items.eq_def]; rfl
    rw [this, Items.whole?, ih, Option.map_some]
  | number numeral longest _ ih =>
    rw [items_number numeral longest, Items.whole?, ih, Option.map_some]
  | braced numeral _ ih => rw [items_braced numeral, Items.whole?, ih, Option.map_some]

theorem items_iff {whole t : Text} {is : List Item} :
    (items whole t).whole? = some is ↔ Splits t is :=
  ⟨splits_of_items, fun h => items_of_splits h whole⟩

inductive Use where
  | rune (c : Nat)
  | group (n : Nat)

/-- What the items put into the result; `next` is one more than the number used last. -/
def uses : Nat → List Item → List Use
  | _, [] => []
  | next, .rune c :: is => .rune c :: uses next is
  | _, .number n :: is => .group n :: uses (n + 1) is
  | next, .next :: is => .group next :: uses (next + 1) is

/-- Group zero is the whole match. A group that is not set is empty. -/
def Use.text (m : Match) : Use → Text
  | .rune c => [c]
  | .group 0 => m.text
  | .group (n + 1) => (m.groups[n]?).join.getD []

def Known (m : Match) (us : List Use) : Prop :=
  ∀ n, .group n ∈ us → n ≤ m.spans.length

/-- The text that a template stands for, given a match. -/
def Fills (t : Text) (m : Match) (out : Text) : Prop :=
  ∃ is, Splits t is ∧ Known m (uses 1 is) ∧ out = (uses 1 is).flatMap (Use.text m)

@[simp] theorem known_nil (m : Match) : Known m [] := by
  simp [Known]

@[simp] theorem known_rune (m : Match) (c : Nat) (us : List Use) :
    Known m (.rune c :: us) ↔ Known m us := by
  simp [Known]

@[simp] theorem known_group (m : Match) (n : Nat) (us : List Use) :
    Known m (.group n :: us) ↔ n ≤ m.spans.length ∧ Known m us := by
  simp [Known]

theorem groupText_eq (whole : Text) (m : Match) (n : Nat) :
    groupText whole m n = if n ≤ m.spans.length then .ok ((Use.group n).text m) else .error
      (.noSuchCapture n whole) := by
  by_cases hn : n ≤ m.spans.length
  · rw [groupText, dif_pos hn, if_pos hn]
    cases n with
    | zero => rfl
    | succ n =>
      simp only [Match.groupAt, Match.spanAt, Use.text, Match.groups]
      rw [List.getElem?_map, List.getElem?_eq_getElem (by omega)]
      cases m.spans[n] <;> rfl
  · rw [groupText, dif_neg hn, if_neg hn]

theorem groupText_eq_ok_iff {whole out : Text} {m : Match} {n : Nat} :
    groupText whole m n = .ok out ↔ n ≤ m.spans.length ∧ (Use.group n).text m = out := by
  rw [groupText_eq]
  by_cases hn : n ≤ m.spans.length <;> simp [hn]

theorem fill_eq_ok_iff {whole out : Text} {m : Match} {is : Items} {next : Nat} :
    fill whole m is next = .ok out ↔ ∃ js, is.whole? = some js ∧ Known m (uses next js) ∧
      out = (uses next js).flatMap (Use.text m) := by
  induction is generalizing next out with
  | done => simp [fill, Items.whole?, uses, eq_comm]
  | mistake e => simp [fill, Items.whole?]
  | item i rest ih =>
    have group (n : Nat) :
        (do let t ← groupText whole m n; .ok (t ++ (← fill whole m rest (n + 1)))) = .ok out ↔
        ∃ js, rest.whole? = some js ∧ Known m (.group n :: uses (n + 1) js) ∧
          out = (Use.group n :: uses (n + 1) js).flatMap (Use.text m) := by
      simp only [bind_eq_ok_iff, groupText_eq_ok_iff, ih, known_group, List.flatMap_cons]
      constructor
      · rintro ⟨_, ⟨hn, rfl⟩, _, ⟨js, hjs, hknown, rfl⟩, h⟩
        cases h
        exact ⟨js, hjs, ⟨hn, hknown⟩, rfl⟩
      · rintro ⟨js, hjs, ⟨hn, hknown⟩, rfl⟩
        exact ⟨_, ⟨hn, rfl⟩, _, ⟨js, hjs, hknown, rfl⟩, rfl⟩
    simp only [Items.whole?, Option.map_eq_some_iff, exists_exists_and_eq_and]
    cases i with
    | rune c =>
      simp only [fill, bind_eq_ok_iff, ih, uses, known_rune, List.flatMap_cons]
      constructor
      · rintro ⟨_, ⟨js, hjs, hknown, rfl⟩, h⟩
        cases h
        exact ⟨js, hjs, hknown, rfl⟩
      · rintro ⟨js, hjs, hknown, rfl⟩
        exact ⟨_, ⟨js, hjs, hknown, rfl⟩, rfl⟩
    | number n => exact group n
    | next => exact group next

/-- A template is filled in just if it stands for a text, and then this is the result. -/
theorem format_eq_ok_iff {t out : Text} {m : Match} : format t m = .ok out ↔ Fills t m out := by
  simp only [format, fill_eq_ok_iff, items_iff, Fills]

/-- What a mistake says of a template and a match is so. -/
def Applies (t : Text) (m : Match) : TemplateError → Prop
  | .malformed t' => t' = t
  | .noSuchCapture n t' => t' = t ∧ m.spans.length < n
  | .badNumber e => ∃ digits : Text, digits <:+: t ∧ digits.decimal = .error e

def Items.mistake? : Items → Option TemplateError
  | .done => none
  | .mistake e => some e
  | .item _ rest => rest.mistake?

theorem badNumber_of_number {digits : Text} {e : TemplateError} (h : number digits = .error e) :
    ∃ f, e = .badNumber f ∧ digits.decimal = .error f := by
  cases hd : digits.decimal with
  | ok n => rw [number, hd] at h; cases h
  | error f => rw [number, hd] at h; cases h; exact ⟨f, rfl, rfl⟩

theorem applies_of_items {whole t : Text} (m : Match) {e : TemplateError} (ht : t <:+ whole)
    (h : (items whole t).mistake? = some e) : Applies whole m e := by
  have tail {c : Nat} {u v : Text} (hu : c :: u <:+ v) : u <:+ v := (List.suffix_cons c u).trans hu
  fun_induction items whole t with
  | case1 => cases h
  | case3 t ih => exact ih (tail (tail ht)) h
  | case4 t _ ih => exact ih (tail (tail ht)) h
  | case7 t digits rest hb _ _ _ _ _ _ ih =>
    have hrest : rest <:+ t := by
      rw [eq_append_of_braced? hb]
      exact (List.suffix_cons _ _).trans (List.suffix_append _ _)
    exact ih (hrest.trans (tail (tail ht))) h
  | case8 t digits rest hb _ _ f hf =>
    cases h
    obtain ⟨f, rfl, hd⟩ := badNumber_of_number hf
    have hdigits : digits <:+: t := by
      rw [eq_append_of_braced? hb]
      exact (List.prefix_append _ _).isInfix
    exact ⟨digits, hdigits.trans (tail (tail ht)).isInfix, hd⟩
  | case9 d t _ _ _ _ _ n _ ih => exact ih ((List.dropWhile_suffix _).trans (tail ht)) h
  | case10 d t _ _ _ _ _ f hf =>
    cases h
    obtain ⟨f, rfl, hd⟩ := badNumber_of_number hf
    exact ⟨_, (List.takeWhile_prefix _).isInfix.trans (tail ht).isInfix, hd⟩
  | case12 c t _ ih => exact ih (tail ht) h
  | _ => cases h; rfl

theorem applies_of_fill {whole : Text} {m : Match} {is : Items} {next : Nat} {e : TemplateError}
    (h : fill whole m is next = .error e) :
    is.mistake? = some e ∨ ∃ n, e = .noSuchCapture n whole ∧ m.spans.length < n := by
  induction is generalizing next with
  | done => cases h
  | mistake f => cases h; exact .inl rfl
  | item i rest ih =>
    have group (n : Nat)
        (h : (do let t ← groupText whole m n; .ok (t ++ (← fill whole m rest (n + 1)))) =
          .error e) :
        rest.mistake? = some e ∨ ∃ n, e = .noSuchCapture n whole ∧ m.spans.length < n := by
      rw [groupText_eq] at h
      by_cases hn : n ≤ m.spans.length
      · rw [if_pos hn] at h
        cases hrest : fill whole m rest (n + 1) with
        | error f => simp only [hrest, bind, Except.bind] at h; cases h; exact ih hrest
        | ok t => simp only [hrest, bind, Except.bind] at h; cases h
      · rw [if_neg hn] at h
        cases h
        exact .inr ⟨n, rfl, by omega⟩
    cases i with
    | rune c =>
      cases hrest : fill whole m rest next with
      | error f => simp only [fill, hrest, bind, Except.bind] at h; cases h; exact ih hrest
      | ok t => simp only [fill, hrest, bind, Except.bind] at h; cases h
    | number n => exact group n h
    | next => exact group next h

theorem applies_of_format {t : Text} {m : Match} {e : TemplateError} (h : format t m = .error e) :
    Applies t m e := by
  rcases applies_of_fill h with h | ⟨n, rfl, hn⟩
  · exact applies_of_items m (List.suffix_refl t) h
  · exact ⟨rfl, hn⟩

/-- The template that stands for a text itself: every dollar sign is doubled. -/
def doubled (t : Text) : Text :=
  t.flatMap fun c => if c = '$'.toNat then ['$', '$'] else [c]

theorem splits_doubled (t : Text) : Splits (doubled t) (t.map .rune) := by
  induction t with
  | nil => exact .nil
  | cons c t ih =>
    by_cases hc : c = '$'.toNat
    · subst hc
      exact .dollar ih
    · have hcons : doubled (c :: t) = c :: doubled t := by
        rw [doubled, List.flatMap_cons, if_neg hc]; rfl
      rw [hcons]
      exact .rune hc ih

theorem uses_runes (next : Nat) (t : Text) : uses next (t.map .rune) = t.map .rune := by
  induction t with
  | nil => rfl
  | cons c t ih => simp [uses, ih]

theorem fills_doubled (t : Text) (m : Match) : Fills (doubled t) m t := by
  refine ⟨t.map .rune, splits_doubled t, ?_, ?_⟩ <;> rw [uses_runes]
  · intro n hn
    simp at hn
  · simp [List.flatMap_map, Use.text]

/-- A template is filled in exactly if it splits into plain text, doubled dollar signs and items
with groups of the match; otherwise the failure is one that is due to the template. Doubling all
dollar signs of a text gives a template that stands for this text. -/
theorem filling_in (t : Text) (m : Match) :
    (∀ out, format t m = .ok out ↔ Fills t m out) ∧
    ((∃ out, Fills t m out) ∨
      ∃ e, format t m = .error e ∧ Applies t m e ∧ (Failure.template e).isBadValue = true) ∧
    format (doubled t) m = .ok t := by
  refine ⟨fun out => format_eq_ok_iff, ?_, format_eq_ok_iff.2 (fills_doubled t m)⟩
  cases h : format t m with
  | ok out => exact .inl ⟨out, format_eq_ok_iff.1 h⟩
  | error e => exact .inr ⟨e, rfl, applies_of_format h, rfl⟩

end Template

end PegMatch

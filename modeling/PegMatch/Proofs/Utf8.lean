import PegMatch.Text.Encoding

set_option autoImplicit false

namespace PegMatch.Text

/-- The bytes of a code point, told by the six-bit groups that its number is made of. -/
inductive Bytes : Nat → List Nat → Prop where
  | one {c : Nat} (h : c < 0x80) : Bytes c [c]
  | two {x y : Nat} (long : 0x80 ≤ x * 64 + y) (hx : x < 32) (hy : y < 64) :
      Bytes (x * 64 + y) [0xc0 + x, 0x80 + y]
  | three {x y z : Nat} (long : 0x800 ≤ (x * 64 + y) * 64 + z) (hx : x < 16) (hy : y < 64)
      (hz : z < 64) (whole : ¬ (0xd800 ≤ (x * 64 + y) * 64 + z ∧ (x * 64 + y) * 64 + z < 0xe000)) :
      Bytes ((x * 64 + y) * 64 + z) [0xe0 + x, 0x80 + y, 0x80 + z]
  | four {x y z w : Nat} (long : 0x10000 ≤ ((x * 64 + y) * 64 + z) * 64 + w)
      (last : ((x * 64 + y) * 64 + z) * 64 + w < 0x110000) (hy : y < 64) (hz : z < 64)
      (hw : w < 64) :
      Bytes (((x * 64 + y) * 64 + z) * 64 + w) [0xf0 + x, 0x80 + y, 0x80 + z, 0x80 + w]

variable {c i j : Nat} {bs rest : List Nat} {t : Text}

theorem Bytes.encodeRune (h : Bytes c bs) : encodeRune c = some bs := by
  cases h with
  | one h => rw [Text.encodeRune, if_pos h]
  | @two x y long hx hy =>
    rw [Text.encodeRune, if_neg (by omega), if_pos (by omega)]
    have hd : (x * 64 + y) / 64 = x := by omega
    have hm : (x * 64 + y) % 64 = y := by omega
    rw [hd, hm]
  | @three x y z long hx hy hz whole =>
    rw [Text.encodeRune, if_neg (by omega), if_neg (by omega), if_neg whole, if_pos (by omega)]
    have h₁ : ((x * 64 + y) * 64 + z) / 4096 = x := by omega
    have h₂ : ((x * 64 + y) * 64 + z) / 64 % 64 = y := by omega
    have h₃ : ((x * 64 + y) * 64 + z) % 64 = z := by omega
    rw [h₁, h₂, h₃]
  | @four x y z w long last hy hz hw =>
    rw [Text.encodeRune, if_neg (by omega), if_neg (by omega), if_neg (by omega),
      if_neg (by omega), if_pos last]
    have h₁ : (((x * 64 + y) * 64 + z) * 64 + w) / 262144 = x := by omega
    have h₂ : (((x * 64 + y) * 64 + z) * 64 + w) / 4096 % 64 = y := by omega
    have h₃ : (((x * 64 + y) * 64 + z) * 64 + w) / 64 % 64 = z := by omega
    have h₄ : (((x * 64 + y) * 64 + z) * 64 + w) % 64 = w := by omega
    rw [h₁, h₂, h₃, h₄]

theorem bytes_of_encodeRune (h : encodeRune c = some bs) : Bytes c bs := by
  rw [Text.encodeRune] at h
  split at h
  · next h₁ =>
    cases h
    exact .one h₁
  split at h
  · next h₁ h₂ =>
    cases h
    have hc : c / 64 * 64 + c % 64 = c := by omega
    have hbytes := Bytes.two (x := c / 64) (y := c % 64) (by omega) (by omega) (by omega)
    rwa [hc] at hbytes
  split at h
  · cases h
  split at h
  · next h₁ h₂ h₃ h₄ =>
    cases h
    have hc : (c / 4096 * 64 + c / 64 % 64) * 64 + c % 64 = c := by omega
    have hbytes :=
      Bytes.three (x := c / 4096) (y := c / 64 % 64) (z := c % 64) (by omega) (by omega) (by omega)
        (by omega) (by omega)
    rwa [hc] at hbytes
  split at h
  · next h₁ h₂ h₃ h₄ h₅ =>
    cases h
    have hc : ((c / 262144 * 64 + c / 4096 % 64) * 64 + c / 64 % 64) * 64 + c % 64 = c := by omega
    have hbytes :=
      Bytes.four (x := c / 262144) (y := c / 4096 % 64) (z := c / 64 % 64) (w := c % 64) (by omega)
        (by omega) (by omega) (by omega) (by omega)
    rwa [hc] at hbytes
  · cases h

theorem Bytes.decode (h : Bytes c bs) (i : Nat) (rest : List Nat) :
    decode i (bs ++ rest) = (decode (i + bs.length) rest).map (c :: ·) := by
  cases h with
  | one h =>
    rw [List.singleton_append, decode.eq_def]
    simp only [h, if_true]
    rfl
  | @two x y long hx hy =>
    have h₁ : ¬ 0xc0 + x < 0x80 := by omega
    have h₂ : ¬ 0xc0 + x < 0xc2 := by omega
    have h₃ : 0xc0 + x < 0xe0 := by omega
    have hcont : isContinuation (0x80 + y) := by simp [isContinuation]; omega
    rw [List.cons_append, List.singleton_append, decode.eq_def]
    simp only [h₁, h₂, h₃, hcont, if_true, if_false, Nat.add_sub_cancel_left]
    rfl
  | @three x y z long hx hy hz whole =>
    have h₁ : ¬ 0xe0 + x < 0x80 := by omega
    have h₂ : ¬ 0xe0 + x < 0xc2 := by omega
    have h₃ : ¬ 0xe0 + x < 0xe0 := by omega
    have h₄ : 0xe0 + x < 0xf0 := by omega
    have hsecond : (!isContinuation (0x80 + y) || (0xe0 + x == 0xe0 && 0x80 + y < 0xa0) ||
        (0xe0 + x == 0xed && 0xa0 ≤ 0x80 + y)) = false := by
      simp [isContinuation]
      omega
    have hthird : isContinuation (0x80 + z) := by simp [isContinuation]; omega
    rw [List.cons_append, List.cons_append, List.singleton_append, decode.eq_def]
    simp only [h₁, h₂, h₃, h₄, hsecond, hthird, if_true, if_false, Nat.add_sub_cancel_left]
    rfl
  | @four x y z w long last hy hz hw =>
    have h₁ : ¬ 0xf0 + x < 0x80 := by omega
    have h₂ : ¬ 0xf0 + x < 0xc2 := by omega
    have h₃ : ¬ 0xf0 + x < 0xe0 := by omega
    have h₄ : ¬ 0xf0 + x < 0xf0 := by omega
    have h₅ : 0xf0 + x < 0xf5 := by omega
    have hsecond : (!isContinuation (0x80 + y) || (0xf0 + x == 0xf0 && 0x80 + y < 0x90) ||
        (0xf0 + x == 0xf4 && 0x90 ≤ 0x80 + y)) = false := by
      simp [isContinuation]
      omega
    have hthird : isContinuation (0x80 + z) := by simp [isContinuation]; omega
    have hfourth : isContinuation (0x80 + w) := by simp [isContinuation]; omega
    rw [List.cons_append, List.cons_append, List.cons_append, List.singleton_append, decode.eq_def]
    simp only [h₁, h₂, h₃, h₄, h₅, hsecond, hthird, hfourth, if_true, if_false,
      Nat.add_sub_cancel_left]
    rfl

theorem map_eq_ok_iff {ε α β : Type} {f : α → β} {x : Except ε α} {b : β} :
    x.map f = .ok b ↔ ∃ a, x = .ok a ∧ f a = b := by
  cases x <;> simp [Except.map]

/-- The bytes start with those of a code point, and the text is that code point and what the rest is
decoded to. -/
def Starts (i : Nat) (bs : List Nat) (t : Text) : Prop :=
  ∃ c first rest t', Bytes c first ∧ bs = first ++ rest ∧ t = c :: t' ∧
    decode (i + first.length) rest = .ok t'

theorem starts_two {a : Nat} (ha : 0xc2 ≤ a) (ha' : a < 0xe0) (h : decode i (a :: bs) = .ok t) :
    Starts i (a :: bs) t := by
  have h₁ : ¬ a < 0x80 := by omega
  have h₂ : ¬ a < 0xc2 := by omega
  rw [decode.eq_def] at h
  simp only [h₁, h₂, ha', if_true, if_false] at h
  split at h
  · cases h
  · next b rest =>
    split at h
    · next hb =>
      simp only [isContinuation, Bool.and_eq_true, decide_eq_true_eq] at hb
      obtain ⟨t', ht', rfl⟩ := map_eq_ok_iff.1 h
      have hbytes := Bytes.two (x := a - 0xc0) (y := b - 0x80) (by omega) (by omega) (by omega)
      rw [Nat.add_sub_cancel' (by omega), Nat.add_sub_cancel' (by omega)] at hbytes
      exact ⟨_, [a, b], rest, t', hbytes, rfl, rfl, ht'⟩
    · cases h

theorem starts_three {a : Nat} (ha : 0xe0 ≤ a) (ha' : a < 0xf0) (h : decode i (a :: bs) = .ok t) :
    Starts i (a :: bs) t := by
  have h₁ : ¬ a < 0x80 := by omega
  have h₂ : ¬ a < 0xc2 := by omega
  have h₃ : ¬ a < 0xe0 := by omega
  rw [decode.eq_def] at h
  simp only [h₁, h₂, h₃, ha', if_true, if_false] at h
  split at h
  · cases h
  · next b rest =>
    split at h
    · cases h
    · next hb =>
      split at h
      · cases h
      · next c rest =>
        split at h
        · next hc =>
          simp [isContinuation] at hb hc
          obtain ⟨t', ht', rfl⟩ := map_eq_ok_iff.1 h
          have hbytes :=
            Bytes.three (x := a - 0xe0) (y := b - 0x80) (z := c - 0x80) (by omega) (by omega)
              (by omega) (by omega) (by omega)
          rw [Nat.add_sub_cancel' (by omega), Nat.add_sub_cancel' (by omega),
            Nat.add_sub_cancel' (by omega)] at hbytes
          exact ⟨_, [a, b, c], rest, t', hbytes, rfl, rfl, ht'⟩
        · cases h

theorem starts_four {a : Nat} (ha : 0xf0 ≤ a) (ha' : a < 0xf5) (h : decode i (a :: bs) = .ok t) :
    Starts i (a :: bs) t := by
  have h₁ : ¬ a < 0x80 := by omega
  have h₂ : ¬ a < 0xc2 := by omega
  have h₃ : ¬ a < 0xe0 := by omega
  have h₄ : ¬ a < 0xf0 := by omega
  rw [decode.eq_def] at h
  simp only [h₁, h₂, h₃, h₄, ha', if_true, if_false] at h
  split at h
  · cases h
  · next b rest =>
    split at h
    · cases h
    · next hb =>
      split at h
      · cases h
      · next c rest =>
        split at h
        · next hc =>
          split at h
          · cases h
          · next d rest =>
            split at h
            · next hd =>
              simp [isContinuation] at hb hc hd
              obtain ⟨t', ht', rfl⟩ := map_eq_ok_iff.1 h
              have hbytes :=
                Bytes.four (x := a - 0xf0) (y := b - 0x80) (z := c - 0x80) (w := d - 0x80)
                  (by omega) (by omega) (by omega) (by omega) (by omega)
              rw [Nat.add_sub_cancel' (by omega), Nat.add_sub_cancel' (by omega),
                Nat.add_sub_cancel' (by omega), Nat.add_sub_cancel' (by omega)] at hbytes
              exact ⟨_, [a, b, c, d], rest, t', hbytes, rfl, rfl, ht'⟩
            · cases h
        · cases h

/-- Bytes that are decoded start with those of a code point. The first byte tells how many they
are. -/
theorem starts_of_decode {a : Nat} (h : decode i (a :: bs) = .ok t) : Starts i (a :: bs) t := by
  by_cases h₁ : a < 0x80
  · rw [decode.eq_def] at h
    simp only [h₁, if_true] at h
    obtain ⟨t', ht', rfl⟩ := map_eq_ok_iff.1 h
    exact ⟨a, [a], bs, t', .one h₁, rfl, rfl, ht'⟩
  by_cases h₂ : a < 0xc2
  · rw [decode.eq_def] at h
    simp only [h₁, h₂, if_true, if_false] at h
    cases h
  by_cases h₃ : a < 0xe0
  · exact starts_two (by omega) h₃ h
  by_cases h₄ : a < 0xf0
  · exact starts_three (by omega) h₄ h
  by_cases h₅ : a < 0xf5
  · exact starts_four (by omega) h₅ h
  · rw [decode.eq_def] at h
    simp only [h₁, h₂, h₃, h₄, h₅, if_false] at h
    cases h

theorem Bytes.ne_nil (h : Bytes c bs) : bs ≠ [] := by
  cases h <;> exact List.cons_ne_nil _ _

theorem Bytes.lt_of_mem (h : Bytes c bs) : ∀ b ∈ bs, b < 256 := by
  cases h <;> simp <;> omega

theorem encode_cons : encode j (c :: t) = .ok bs ↔
    ∃ first rest, Bytes c first ∧ encode (j + 1) t = .ok rest ∧ bs = first ++ rest := by
  rw [encode]
  split
  · next first hfirst =>
    refine Iff.trans (map_eq_ok_iff (f := (first ++ ·))) ?_
    constructor
    · rintro ⟨rest, hrest, rfl⟩
      exact ⟨first, rest, bytes_of_encodeRune hfirst, hrest, rfl⟩
    · rintro ⟨first', rest, hbytes, hrest, rfl⟩
      cases hfirst.symm.trans hbytes.encodeRune
      exact ⟨rest, hrest, rfl⟩
  · next hnone =>
    constructor
    · intro h
      cases h
    · rintro ⟨first, rest, hbytes, -, -⟩
      cases hnone.symm.trans hbytes.encodeRune

theorem encode_of_decode (h : decode i bs = .ok t) (j : Nat) : encode j t = .ok bs := by
  induction hn : bs.length using Nat.strongRecOn generalizing bs i j t with
  | ind n ih =>
    cases bs with
    | nil =>
      cases h
      rfl
    | cons a bs =>
      obtain ⟨c, first, rest, t', hbytes, happend, rfl, hrest⟩ := starts_of_decode h
      have hshort : rest.length < n := by
        have := List.length_pos_iff.2 hbytes.ne_nil
        rw [← hn, happend, List.length_append]
        omega
      exact encode_cons.2 ⟨first, rest, hbytes, ih _ hshort hrest (j + 1) rfl, happend⟩

theorem decode_of_encode (h : encode j t = .ok bs) (i : Nat) : decode i bs = .ok t := by
  induction t generalizing i j bs with
  | nil =>
    cases h
    rfl
  | cons c t ih =>
    obtain ⟨first, rest, hbytes, hrest, rfl⟩ := encode_cons.1 h
    rw [hbytes.decode, ih hrest]
    rfl

theorem lt_of_encode (h : encode j t = .ok bs) : ∀ b ∈ bs, b < 256 := by
  induction t generalizing j bs with
  | nil =>
    cases h
    simp
  | cons c t ih =>
    obtain ⟨first, rest, hbytes, hrest, rfl⟩ := encode_cons.1 h
    exact List.forall_mem_append.2 ⟨hbytes.lt_of_mem, ih hrest⟩

theorem toList_loop (content : ByteArray) (k : Nat) (done : List UInt8) :
    ByteArray.toList.loop content k done = done.reverse ++ content.data.toList.drop k := by
  fun_induction ByteArray.toList.loop content k done with
  | case1 k done h ih =>
    have hk : k < content.data.size := h
    have hdrop : content.data.toList.drop k = content.get! k ::
        content.data.toList.drop (k + 1) := by
      rw [List.drop_eq_getElem_cons (by simpa using h), ByteArray.get!,
        getElem!_pos content.data k hk, Array.getElem_toList]
    rw [ih, hdrop, List.reverse_cons, List.append_assoc, List.singleton_append]
  | case2 k done h =>
    rw [List.drop_of_length_le (by simpa using h), List.append_nil]

theorem toList_eq (content : ByteArray) : content.toList = content.data.toList := by
  rw [ByteArray.toList, toList_loop]
  rfl

theorem ofUtf8_eq_ok_iff {content : ByteArray} :
    ofUtf8 content = .ok t ↔ t.toUtf8 = .ok content := by
  rw [ofUtf8, toUtf8, toList_eq, map_eq_ok_iff]
  constructor
  · intro h
    refine ⟨_, encode_of_decode h 0, ?_⟩
    have hsame : (content.data.toList.map UInt8.toNat).map Nat.toUInt8 = content.data.toList := by
      have hid (b : UInt8) : (Nat.toUInt8 ∘ UInt8.toNat) b = b := UInt8.ofNat_toNat
      rw [List.map_map, funext hid, List.map_id']
    rw [hsame]
  · rintro ⟨bs, hbs, rfl⟩
    have hsame : (bs.map Nat.toUInt8).map UInt8.toNat = bs := by
      have hid (b : Nat) (hb : b ∈ bs) : (UInt8.toNat ∘ Nat.toUInt8) b = id b :=
        UInt8.toNat_ofNat_of_lt' (lt_of_encode hbs b hb)
      rw [List.map_map, List.map_congr_left hid, List.map_id]
    rw [hsame]
    exact decode_of_encode hbs 0

/-- The code points that have bytes are the characters: no halves of surrogate pairs, and nothing
past the last one. -/
theorem isSome_encodeRune_iff : (encodeRune c).isSome ↔ c.isValidChar := by
  simp only [Nat.isValidChar, encodeRune]
  grind

theorem exists_encode_iff : (∃ bs, encode j t = .ok bs) ↔ ∀ c ∈ t, c.isValidChar := by
  induction t generalizing j with
  | nil => simp [encode]
  | cons c t ih =>
    rw [List.forall_mem_cons, ← isSome_encodeRune_iff, ← ih (j := j + 1), Option.isSome_iff_exists]
    constructor
    · rintro ⟨bs, h⟩
      obtain ⟨first, rest, hbytes, hrest, -⟩ := encode_cons.1 h
      exact ⟨⟨first, hbytes.encodeRune⟩, rest, hrest⟩
    · rintro ⟨⟨first, hfirst⟩, rest, hrest⟩
      exact ⟨_, encode_cons.2 ⟨first, rest, bytes_of_encodeRune hfirst, hrest, rfl⟩⟩

theorem exists_toUtf8_iff : (∃ content, t.toUtf8 = .ok content) ↔ ∀ c ∈ t, c.isValidChar := by
  rw [← exists_encode_iff (j := 0)]
  constructor
  · rintro ⟨content, h⟩
    obtain ⟨bs, hbs, -⟩ := map_eq_ok_iff.1 h
    exact ⟨bs, hbs⟩
  · rintro ⟨bs, hbs⟩
    exact ⟨_, map_eq_ok_iff.2 ⟨bs, hbs, rfl⟩⟩

end PegMatch.Text

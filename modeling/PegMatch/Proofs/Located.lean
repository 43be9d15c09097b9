import PegMatch.Proofs.Lockstep
import PegMatch.Proofs.Templates
import PegMatch.Proofs.TokenRests
import PegMatch.Proofs.Tokens

set_option autoImplicit false

/-! Mistakes have places. Reading a text always ends, either with a pattern or with a mistake at a
place of the text. The readers call each other no deeper than what is left of the text allows, so
neither the depth nor the number of the rules is ever why reading fails. -/

namespace PegMatch.Grammar

open Token

/-- What the text is read with are numbers, where they are used as such. -/
structure Source.Counts (src : Source) : Prop where
  capacity : src.capacity.int?.isSome
  inline : src.inline.holds → src.inline.int?.isSome

def Source.Locates (src : Source) (place : Position) : Prop :=
  ∃ k ≤ src.text.length, place = src.text.position k

/-- How reading the text may fail: with an ordinary mistake at a place of it, or with a run of
digits in it that is too long for a number. -/
def Source.Blames (src : Source) : ReadError → Prop
  | .mistake e => e.file = src.file ∧ src.Locates e.place ∧ e.mistake.Ordinary
  | .fault f => ∃ digits : Text, digits <:+: src.text ∧ (∀ d ∈ digits, Text.isAsciiDigit d) ∧
      Text.mostDigits < digits.length ∧ f = .number (.tooLong digits.length)

/-- What is left is the rest of the text, and all rules have places in it. -/
structure Sited (src : Source) (first : Nat) (s : State) : Prop where
  rest : s.rest <:+ src.text
  places : ∀ r rule, first ≤ r → s.store.rules[r]? = some rule → src.Locates rule.place

/-- From a sound state, the reader returns something as told, or it fails as reading may. -/
def Tells (src : Source) (first most : Nat) {α : Type} (x : Reader α) (s : State)
    (R : α → State → Prop) : Prop :=
  Sound first most s → Sited src first s → (∃ a s', x s = .ok a s' ∧ Sited src first s' ∧ R a s') ∨
    ∃ e s', x s = .error e s' ∧ src.Blames e

variable {src : Source} {first most : Nat} {s s' : State} {α β : Type} {R : α → State → Prop}
  {Q : β → State → Prop}

theorem Source.locates_place (src : Source) (rest : Text) : src.Locates (src.place rest) :=
  ⟨_, Nat.sub_le _ _, rfl⟩

theorem tells_pure {a : α} (h : R a s) : Tells src first most (pure a) s R :=
  fun _ hsited => .inl ⟨a, s, rfl, hsited, h⟩

theorem tells_failAt {rest : Text} {m : Mistake} (hm : m.Ordinary) :
    Tells src first most (failAt src rest m) s R :=
  fun _ _ => .inr ⟨_, _, rfl, rfl, src.locates_place rest, hm⟩

theorem tells_fail {m : Mistake} (hm : m.Ordinary) : Tells src first most (fail src m) s R :=
  fun _ _ => .inr ⟨_, _, rfl, rfl, src.locates_place s.rest, hm⟩

theorem Tells.mono {P : α → State → Prop} {x : Reader α} (h : Tells src first most x s P)
    (hR : ∀ a s', P a s' → R a s') : Tells src first most x s R := by
  intro hs hsited
  rcases h hs hsited with ⟨a, s', ha, hs', hp⟩ | herror
  · exact .inl ⟨a, s', ha, hs', hR a s' hp⟩
  · exact .inr herror

theorem tells_step {x : Reader α} {f : α → Reader β} {a : α} (hx : x s = .ok a s')
    (hs : Sound first most s → Sound first most s')
    (hsited : Sited src first s → Sited src first s') (hf : Tells src first most (f a) s' Q) :
    Tells src first most (x >>= f) s Q := by
  intro h hsite
  have hrun : (x >>= f) s = f a s' := by
    simp only [bind, EStateM.bind, hx]
  rw [hrun]
  exact hf (hs h) (hsited hsite)

theorem tells_andThen {x : Reader α} {f : α → Reader β} {P : α → State → Prop}
    (hx : Sound first most s → ∀ a s', x s = .ok a s' → Sound first most s' ∧ P a s')
    (htold : Tells src first most x s R)
    (hf : ∀ a s', P a s' → R a s' → Tells src first most (f a) s' Q) :
    Tells src first most (x >>= f) s Q := by
  intro hs hsited
  rcases htold hs hsited with ⟨a, s', ha, hs', hr⟩ | ⟨e, s', he, hblames⟩
  · obtain ⟨hsound, hp⟩ := hx hs a s' ha
    have hrun : (x >>= f) s = f a s' := by
      simp only [bind, EStateM.bind, ha]
    rw [hrun]
    exact hf a s' hp hr hsound hs'
  · refine .inr ⟨e, s', ?_, hblames⟩
    simp only [bind, EStateM.bind, he]

theorem tells_bind {x : Reader α} {f : α → Reader β} {P : α → State → Prop}
    (hx : Soundly first most x s P) (htold : Tells src first most x s R)
    (hf : ∀ a s', Extends first s s' → P a s' → R a s' → Tells src first most (f a) s' Q) :
    Tells src first most (x >>= f) s Q :=
  tells_andThen hx htold fun a s' h hr => hf a s' h.1 h.2 hr

theorem tells_map {x : Reader α} {g : α → β} (h : Tells src first most x s fun a s' => Q (g a) s') :
    Tells src first most (x >>= fun a => pure (g a)) s Q := by
  intro hs hsited
  rcases h hs hsited with ⟨a, s', ha, hs', hq⟩ | ⟨e, s', he, hblames⟩
  · refine .inl ⟨g a, s', ?_, hs', hq⟩
    simp only [bind, EStateM.bind, ha]
    rfl
  · refine .inr ⟨e, s', ?_, hblames⟩
    simp only [bind, EStateM.bind, he]

theorem tells_ite {c : Prop} [Decidable c] {x y : Reader α} (hx : c → Tells src first most x s R)
    (hy : ¬ c → Tells src first most y s R) : Tells src first most (if c then x else y) s R := by
  split
  · next hc => exact hx hc
  · next hc => exact hy hc

theorem tells_get {f : State → Reader β} (hf : Tells src first most (f s) s Q) :
    Tells src first most (get >>= f) s Q :=
  hf

theorem Sound.go (hs : Sound first most s) (rest : Text) :
    Sound first most { s with rest := rest } :=
  ⟨hs.names, hs.size, hs.rules, hs.opened, hs.skip, hs.outside⟩

theorem tells_advance {rest : Text} {f : Unit → Reader β} (h : rest <:+ src.text)
    (hf : Tells src first most (f ⟨⟩) { s with rest := rest } Q) :
    Tells src first most (advance rest >>= f) s Q :=
  tells_step rfl (fun hs => hs.go rest) (fun hsited => ⟨h, hsited.places⟩) hf

theorem tells_advanced {rest : Text} {R : Unit → State → Prop} (h : rest <:+ src.text)
    (hR : R ⟨⟩ { s with rest := rest }) : Tells src first most (advance rest) s R :=
  fun _ hsited => .inl ⟨⟨⟩, _, rfl, ⟨h, hsited.places⟩, hR⟩

theorem tells_ahead {f : Text → Reader β} (hf : ∀ t, t = skipBlanks false s.rest → t <:+ src.text →
    t.length ≤ s.rest.length → Tells src first most (f t) { s with rest := t } Q) :
    Tells src first most (ahead >>= f) s Q := by
  intro hs hsited
  have hsuffix := skipBlanks_suffix false s.rest
  have htext := hsuffix.trans hsited.rest
  exact hf _ rfl htext hsuffix.length_le (hs.go _) ⟨htext, hsited.places⟩

theorem tells_freshId {f : Nat → Reader β}
    (hf : ∀ id s', s'.rest = s.rest → s'.inGrammar = s.inGrammar →
      Tells src first most (f id) s' Q) : Tells src first most (freshId >>= f) s Q :=
  tells_step rfl (fun hs => (hs.grow (less_fresh s) rfl rfl hs.opened rfl rfl).1)
    (fun hsited => ⟨hsited.rest, hsited.places⟩) (hf _ _ rfl rfl)

def Stays (s : State) {α : Type} (_ : α) (s' : State) : Prop :=
  s'.rest = s.rest ∧ s'.inGrammar = s.inGrammar

theorem tells_token (p : Pattern) : Tells src first most (token p) s (Stays s) := by
  refine tells_get ?_
  split
  · exact tells_pure ⟨rfl, rfl⟩
  · exact tells_freshId fun id s' hrest hgrammar => tells_pure ⟨hrest, hgrammar⟩

theorem tells_read {t : Text} {x : Except Trouble (α × Text)} {f : α → Reader β} (hx : Leaves t x)
    (ht : t <:+ src.text)
    (hf : ∀ a rest, rest.length < t.length → Tells src first most (f a) { s with rest := rest } Q) :
    Tells src first most (read src x >>= f) s Q := by
  rcases x with ⟨m, place⟩ | ⟨a, rest⟩
  · exact fun _ _ => .inr ⟨_, _, rfl, rfl, src.locates_place place, hx⟩
  · exact tells_step rfl (fun hs => hs.go rest) (fun hsited => ⟨hx.1.trans ht, hsited.places⟩)
      (hf a rest hx.2)

theorem tells_readToken {t : Text} {x : Except Trouble (α × Text)} (hx : Leaves t x)
    (ht : t <:+ src.text)
    (node : Nat → α → Pattern) : Tells src first most (do
      let a ← read src x
      token (node (← freshId) a)) s fun _ s' => s'.rest.length < t.length := by
  refine tells_read hx ht fun a rest hrest => ?_
  refine tells_freshId fun id s' hs' _ => (tells_token _).mono fun _ s'' hs'' => ?_
  rw [hs''.1, hs']
  exact hrest

theorem tells_literal {how : Comparison} {verbatim : Bool} {t : Text} (ht : t <:+ src.text) :
    Tells src first most (literal src how verbatim t) s fun _ s' => s'.rest.length < t.length :=
  tells_readToken (leaves_literal verbatim t) ht fun id body => .text id how body

theorem tells_characterClass {start t : Text} (ht : t <:+ src.text) :
    Tells src first most (characterClass src start t) s fun _ s' => s'.rest.length < t.length :=
  tells_readToken (leaves_classAfter start t) ht fun id x => .set id x.1 (.ofBool x.2)

theorem tells_suffixes (room : Nat) (p : Pattern) :
    Tells src first most (suffixes room p) s fun _ s' => s'.rest.length ≤ s.rest.length := by
  induction room generalizing p s with
  | zero => exact tells_pure (Nat.le_refl _)
  | succ room ih =>
    refine tells_ahead fun t _ ht hle => ?_
    have one {c : Nat} {t : Text} {s₁ s₂ : State} {q : Pattern}
        (hle : (c :: t).length ≤ s₁.rest.length) (hrest : s₂.rest = t) :
        Tells src first most (suffixes room q) s₂ fun _ s' => s'.rest.length ≤ s₁.rest.length := by
      refine (ih q).mono fun _ s' hs' => ?_
      simp only [List.length_cons] at hle
      rw [hrest] at hs'
      omega
    split
    · next c t =>
      have htail := suffix_tail ht
      refine tells_ite (fun _ => ?_) fun _ => ?_
      · exact tells_advance htail (tells_freshId fun id s' hs' _ => one hle hs')
      refine tells_ite (fun _ => ?_) fun _ => ?_
      · exact tells_advance htail (tells_freshId fun id s' hs' _ => one hle hs')
      refine tells_ite (fun _ => ?_) fun _ => tells_pure hle
      exact tells_advance htail (tells_freshId fun id s' hs' _ => tells_freshId fun id s'' hs'' _ =>
        one hle (hs''.trans hs'))
    · exact tells_pure hle

theorem tells_close {wanted opener : Nat} {start : Text} :
    Tells src first most (close src wanted opener start) s fun _ s' =>
      s'.rest.length ≤ s.rest.length := by
  refine tells_ahead fun t _ ht hle => ?_
  split
  · exact tells_failAt trivial
  · next c t =>
    refine tells_ite (fun _ => tells_advanced (suffix_tail ht) ?_) fun _ => tells_fail trivial
    simp only [List.length_cons] at hle
    simp only
    omega

theorem tells_named (name : Text) : Tells src first most (named? name) s (Stays s) := by
  have plain (o : Option Pattern) : Tells src first most (pure o) s (Stays s) :=
    tells_pure ⟨rfl, rfl⟩
  unfold named?
  refine tells_ite (fun _ => plain _) fun _ => ?_
  split
  · exact plain _
  refine tells_ite (fun _ => plain _) fun _ => ?_
  refine tells_ite (fun _ => plain _) fun _ => ?_
  refine tells_ite (fun _ => plain _) fun _ => ?_
  refine tells_ite (fun _ => plain _) fun _ => ?_
  refine tells_ite (fun _ => plain _) fun _ => ?_
  refine tells_ite (fun _ => ?_) fun _ => plain _
  refine tells_freshId fun setId s₁ h₁ g₁ => tells_freshId fun starId s₂ h₂ g₂ =>
    tells_freshId fun id s₃ h₃ g₃ => ?_
  exact tells_pure ⟨h₃.trans (h₂.trans h₁), g₃.trans (g₂.trans g₁)⟩

theorem tells_builtin {start t : Text} (ht : t <:+ src.text) :
    Tells src first most (builtin src start t) s fun _ s' => s'.rest.length ≤ t.length := by
  refine tells_bind soundly_named (tells_named _) fun o s₁ _ _ _ => ?_
  split
  · next p _ _ =>
    have hdrop := List.drop_suffix (t.takeWhile isLetter).length t
    refine tells_advance (hdrop.trans ht) ((tells_token p).mono fun _ s' hs' => ?_)
    rw [hs'.1]
    exact hdrop.length_le
  · refine tells_ite (fun _ => tells_failAt trivial) fun _ => ?_
    split
    · exact tells_failAt trivial
    · next c rest he =>
      have hrest := suffix_of_escape? he
      refine tells_advance (hrest.trans ht)
        (tells_freshId fun id s' hs' _ => (tells_token _).mono fun _ s'' hs'' => ?_)
      rw [hs''.1, hs']
      exact hrest.length_le

theorem tells_openCapture (hcounts : src.Counts) :
    Tells src first most (openCapture src) s (Stays s) := by
  obtain ⟨n, hn⟩ := Option.isSome_iff_exists.1 hcounts.capacity
  have hlimit : (src.capacity.limit ">=").mapError Fault.misuse = .ok n := by
    simp [Datum.limit, hn]
  refine tells_get ?_
  rw [hlimit]
  refine tells_step (show sound (.ok n) s = .ok n s from rfl) id id ?_
  refine tells_ite (fun _ => tells_fail trivial) fun _ => ?_
  exact fun _ hsited => .inl ⟨_, _, rfl, ⟨hsited.rest, hsited.places⟩, rfl, rfl⟩

theorem tells_captureId (slot : Nat) : Tells src first most (captureId slot) s (Stays s) :=
  fun _ hsited => .inl ⟨_, _, rfl, ⟨hsited.rest, hsited.places⟩, rfl, rfl⟩

theorem tells_ruleNamed (name start : Text) :
    Tells src first most (ruleNamed src name start) s (Stays s) := by
  refine tells_get ?_
  split
  · exact tells_pure ⟨rfl, rfl⟩
  · refine fun _ hsited => .inl ⟨_, _, rfl, ⟨hsited.rest, fun r rule hr hrule => ?_⟩, rfl, rfl⟩
    change (s.store.rules.push _)[r]? = some rule at hrule
    rw [Array.getElem?_push] at hrule
    split at hrule
    · cases hrule
      exact src.locates_place start
    · exact hsited.places r rule hr hrule

theorem Sited.modifyRule (h : Sited src first s) (r : Nat) {f : Rule → Rule}
    (hf : ∀ rule, src.Locates rule.place → src.Locates (f rule).place) :
    Sited src first { s with store := s.store.modifyRule r f } := by
  refine ⟨h.rest, fun r' rule hr' hrule => ?_⟩
  simp only [Store.modifyRule, Array.getElem?_modify] at hrule
  split at hrule
  · obtain ⟨old, hold, rfl⟩ := Option.map_eq_some_iff.1 hrule
    exact hf old (h.places r' old hr' hold)
  · exact h.places r' rule hr' hrule

theorem inlined?_ok (hcounts : src.Counts) (hs : Sound first most s) {r : Nat}
    (hr : (s.allowed first).call r) : ∃ o, inlined? s.store src.inline r = .ok o := by
  have hbody := body?_eq (s := s) (r := r) fun rule hrule => (hs.rules r rule hr.1 hrule).proper
  cases hb : bodyOf s r with
  | none =>
    rw [hb] at hbody
    exact ⟨none, by simp [inlined?, hbody, bind, Except.bind]⟩
  | some p =>
    rw [hb] at hbody
    by_cases hholds : src.inline.holds
    · obtain ⟨n, hn⟩ := Option.isSome_iff_exists.1 (hcounts.inline hholds)
      obtain ⟨c, -, hcost, -⟩ :=
        Pattern.cost_spec (hs.body hr hbody) (s.store.costRule src.inline s.store.rules.size) hn
      have hcost : s.store.cost src.inline p = .ok c := hcost
      exact ⟨if c < n then some
        p else none, by simp [inlined?, hbody, hholds, hcost, Datum.limit, hn, bind, Except.bind]⟩
    · exact ⟨none, by simp [inlined?, hbody, hholds, bind, Except.bind]⟩

theorem tells_markUsed (r : Nat) : Tells src first most (markUsed r) s (Stays s) :=
  fun _ hsited => .inl ⟨_, _, rfl, hsited.modifyRule r fun _ h => h, rfl, rfl⟩

theorem tells_reference (hcounts : src.Counts) (name start : Text) :
    Tells src first most (reference src name start) s (Stays s) := by
  refine tells_get (tells_ite (fun hg => ?_) fun _ => tells_failAt trivial)
  refine tells_bind (soundly_ruleNamed hg) (tells_ruleNamed name start) fun r s₁ _ hr h₁ => ?_
  refine tells_bind (soundly_markUsed r) (tells_markUsed r) fun _ s₂ he _ h₂ => ?_
  refine tells_get fun hs => ?_
  obtain ⟨o, ho⟩ := inlined?_ok hcounts hs (he.allowed.call r hr)
  rw [ho]
  refine tells_step (show sound (.ok o) s₂ = .ok o s₂ from rfl) id id ?_ hs
  have hstays : Stays s r s₂ := ⟨h₂.1.trans h₁.1, h₂.2.trans h₁.2⟩
  split
  · exact fun _ hsited => .inl ⟨_, _, rfl, ⟨hsited.rest, hsited.places⟩, hstays⟩
  · exact tells_freshId fun id s₃ h₃ g₃ => tells_pure ⟨h₃.trans hstays.1, g₃.trans hstays.2⟩

theorem decimal_cases {ds : Text} (h : ∀ d ∈ ds, Text.isAsciiDigit d) :
    ds.length ≤ Text.mostDigits ∧ ds.decimal = .ok (Text.numeralValue ds) ∨
      Text.mostDigits < ds.length ∧ ds.decimal = .error (.tooLong ds.length) := by
  by_cases hlong : Text.mostDigits < ds.length
  · have hall (d : Nat) (hd : d ∈ ds) : Rune.isDecimal d := by
      rw [Rune.isDecimal_iff, decimalValue?_of_digit (h d hd)]
      rfl
    refine .inr ⟨hlong, ?_⟩
    simp only [Text.decimal, List.takeWhile_eq_self_iff.2 hall, if_pos hlong]
  · exact .inl ⟨Nat.le_of_not_lt hlong, decimal_of_digits h (Nat.le_of_not_lt hlong)⟩

theorem tells_backReference {how : Comparison} {start : Text} (hstart : start <:+ src.text) :
    Tells src first most (backReference src how start) s fun _ s' =>
      s'.rest.length ≤ (start.drop 1).length := by
  have hdrop := (List.drop_suffix 1 start).trans hstart
  have hrest := List.dropWhile_suffix (l := start.drop 1) Text.isAsciiDigit
  have hdigits (d : Nat) (hd : d ∈ (start.drop 1).takeWhile Text.isAsciiDigit) :
      Text.isAsciiDigit d :=
    List.mem_takeWhile_imp hd
  simp only [backReference]
  refine tells_ite (fun _ => tells_failAt trivial) fun _ => ?_
  rcases decimal_cases hdigits with ⟨-, hn⟩ | ⟨hlong, herror⟩
  · rw [hn]
    refine tells_step (show sound (.ok _) s = .ok _ s from rfl) id id
      (tells_advance (hrest.trans hdrop) (tells_get ?_))
    refine tells_ite (fun _ => ?_) fun _ => tells_failAt trivial
    refine tells_freshId fun id s' hs' _ => tells_pure ?_
    rw [hs']
    exact hrest.length_le
  · rw [herror]
    exact fun _ _ => .inr
      ⟨_, _, rfl, _, (List.takeWhile_prefix _).isInfix.trans hdrop.isInfix, hdigits, hlong, rfl⟩

def State.Halted (s : State) : Prop :=
  skipBlanks false s.rest = s.rest ∧ ∀ c t, s.rest = c :: t →
    c = '/' ∨ c = ')' ∨ c = '}' ∨ s.inGrammar ∧ (header? (c :: t)).isSome

def Lessens (s : State) {α : Type} (_ : α) (s' : State) : Prop :=
  s'.rest.length < s.rest.length

def Halts (s : State) {α : Type} (_ : α) (s' : State) : Prop :=
  s'.rest.length ≤ s.rest.length ∧ s'.Halted

/-- The reader stops where neither an item nor an alternative stands. -/
def Ends (s : State) {α : Type} (_ : α) (s' : State) : Prop :=
  s'.rest.length ≤ s.rest.length ∧ s'.Halted ∧ s'.rest.head? ≠ some '/'.toNat

/-- The readers that call each other, with fuel for what is left of the text. A reader is called
from inside of itself only after something was consumed, so eight calls for each code point are
enough. -/
structure ReadersTell (src : Source) (first most fuel : Nat) : Prop where
  expression : ∀ s, 8 * s.rest.length + 5 ≤ fuel →
    Tells src first most (expression src fuel) s (Ends s)
  alternatives : ∀ s, s.Halted → 8 * s.rest.length + 1 ≤ fuel →
    Tells src first most (alternatives src fuel) s (Ends s)
  sequence : ∀ s, 8 * s.rest.length + 4 ≤ fuel →
    Tells src first most (sequence src fuel) s (Halts s)
  items : ∀ s, 8 * s.rest.length + 3 ≤ fuel → Tells src first most (items src fuel) s (Halts s)
  prefixed : ∀ s, 8 * s.rest.length + 2 ≤ fuel →
    Tells src first most (prefixed src fuel) s (Lessens s)
  primary : ∀ s, 8 * s.rest.length + 1 ≤ fuel →
    Tells src first most (primary src fuel) s (Lessens s)

theorem State.Halted.stays (h : s.Halted) {a : α} (hs : Stays s a s') : s'.Halted := by
  obtain ⟨hrest, hgrammar⟩ := hs
  unfold State.Halted
  rw [hrest, hgrammar]
  exact h

section

variable {fuel : Nat} (ih : ReadersTell src first most fuel) (hm : src.Admits most)
include ih hm

theorem tells_expression (hfuel : 8 * s.rest.length + 5 ≤ fuel + 1) :
    Tells src first most (expression src (fuel + 1)) s (Ends s) := by
  refine tells_bind ((readsSoundly hm fuel).sequence s) (ih.sequence s (by omega))
    fun p s₁ _ _ h₁ => ?_
  have hle := h₁.1
  refine tells_bind ((readsSoundly hm fuel).alternatives s₁) (ih.alternatives s₁ h₁.2 (by omega))
    fun ps s₂ _ _ h₂ => ?_
  refine tells_freshId fun id s₃ hrest hgrammar => tells_pure ?_
  have hstays : Stays s₂ id s₃ := ⟨hrest, hgrammar⟩
  refine ⟨?_, h₂.2.1.stays hstays, ?_⟩
  · rw [hrest]
    exact h₂.1.trans hle
  · rw [hrest]
    exact h₂.2.2

theorem tells_alternatives (hhalted : s.Halted) (hfuel : 8 * s.rest.length + 1 ≤ fuel + 1) :
    Tells src first most (alternatives src (fuel + 1)) s (Ends s) := by
  refine tells_ahead fun t hskip ht hle => ?_
  obtain rfl : t = s.rest := hskip.trans hhalted.1
  split
  · next t heq =>
    have hlength : s.rest.length = t.length + 1 := by rw [heq]; rfl
    refine tells_advance (suffix_tail (heq ▸ ht)) ?_
    refine tells_bind ((readsSoundly hm fuel).sequence _) (ih.sequence _ (by simp only; omega))
      fun p s₁ _ _ h₁ => ?_
    have hle₁ : s₁.rest.length ≤ t.length := h₁.1
    refine tells_bind ((readsSoundly hm fuel).alternatives s₁) (ih.alternatives s₁ h₁.2 (by omega))
      fun ps s₂ _ _ h₂ => ?_
    exact tells_pure ⟨by have := h₂.1; omega, h₂.2⟩
  · next hother =>
    refine tells_pure ⟨Nat.le_refl _, hhalted, fun hslash => ?_⟩
    obtain ⟨t, ht⟩ := List.head?_eq_some_iff.1 hslash
    exact hother t ht

theorem tells_sequence (hfuel : 8 * s.rest.length + 4 ≤ fuel + 1) :
    Tells src first most (sequence src (fuel + 1)) s (Halts s) := by
  refine tells_bind ((readsSoundly hm fuel).items s) (ih.items s (by omega)) fun ps s₁ _ _ h₁ => ?_
  refine tells_freshId fun id s₂ hrest hgrammar =>
    tells_pure ⟨?_, h₁.2.stays (a := id) ⟨hrest, hgrammar⟩⟩
  rw [hrest]
  exact h₁.1

theorem tells_items (hfuel : 8 * s.rest.length + 3 ≤ fuel + 1) :
    Tells src first most (items src (fuel + 1)) s (Halts s) := by
  refine tells_ahead fun t hskip ht hle => ?_
  have hblank : skipBlanks false t = t := hskip ▸ skipBlanks_skipBlanks false s.rest
  split
  · exact tells_pure ⟨hle, hblank, fun c t hcons => by cases hcons⟩
  · next c t =>
    refine tells_ite (fun hc => tells_pure ⟨hle, hblank, fun c' t' hcons => ?_⟩) fun _ => ?_
    · cases hcons
      tauto
    refine tells_get
      (tells_ite (fun hheader => tells_pure ⟨hle, hblank, fun c' t' hcons => ?_⟩) fun _ => ?_)
    · cases hcons
      simp only [Bool.and_eq_true] at hheader
      exact .inr (.inr (.inr hheader))
    · refine tells_bind ((readsSoundly hm fuel).prefixed _) (ih.prefixed _ (by simp only; omega))
        fun p s₁ _ _ h₁ => ?_
      have hlt : s₁.rest.length < (c :: t).length := h₁
      refine tells_bind ((readsSoundly hm fuel).items s₁) (ih.items s₁ (by omega))
        fun ps s₂ _ _ h₂ => ?_
      exact tells_pure ⟨by have := h₂.1; omega, h₂.2⟩

theorem tells_prefixed (hcounts : src.Counts) (hfuel : 8 * s.rest.length + 2 ≤ fuel + 1) :
    Tells src first most (prefixed src (fuel + 1)) s (Lessens s) := by
  have wrapped {t : Text} {wrap : Nat → Pattern → Pattern} {s₁ : State} (ht : t <:+ src.text)
      (hlt : t.length < s.rest.length) :
      Tells src first most (do advance t; let p ← prefixed src fuel; return wrap (← freshId) p) s₁
          (Lessens s) := by
    refine tells_advance ht ?_
    refine tells_bind ((readsSoundly hm fuel).prefixed _) (ih.prefixed _ (by simp only; omega))
      fun p s₂ _ _ h₂ => ?_
    refine tells_freshId fun id s₃ hrest _ => tells_pure ?_
    have hlt₂ : s₂.rest.length < t.length := h₂
    rw [Lessens, hrest]
    omega
  refine tells_ahead fun t _ ht hle => ?_
  split
  · exact wrapped (suffix_tail ht) hle
  · exact wrapped (suffix_tail ht) hle
  · exact wrapped (suffix_tail ht) hle
  · next t _ =>
    simp only [List.length_cons] at hle
    refine tells_bind (soundly_openCapture hm) (tells_openCapture hcounts)
      fun slot s₁ _ hslot _ => ?_
    refine tells_advance (suffix_tail (suffix_tail (suffix_tail ht))) ?_
    refine tells_bind ((readsSoundly hm fuel).prefixed _) (ih.prefixed _ (by simp only; omega))
      fun p s₂ he _ h₂ => ?_
    refine tells_bind (soundly_captureId (he.allowed.backref slot hslot)) (tells_captureId slot)
      fun id s₃ _ _ h₃ => ?_
    refine (tells_token _).mono fun _ s₄ h₄ => ?_
    have hlt₂ : s₂.rest.length < t.length := h₂
    rw [Lessens, h₄.1, h₃.1]
    omega
  · refine tells_bind ((readsSoundly hm fuel).primary _) (ih.primary _ (by simp only; omega))
      fun p s₁ _ _ h₁ => ?_
    exact tells_get
      ((tells_suffixes _ p).mono fun _ s₂ h₂ => Nat.lt_of_le_of_lt h₂ (Nat.lt_of_lt_of_le h₁ hle))

theorem tells_primary (hcounts : src.Counts) (hfuel : 8 * s.rest.length + 1 ≤ fuel + 1) :
    Tells src first most (primary src (fuel + 1)) s (Lessens s) := by
  refine tells_ahead fun t _ ht hle => ?_
  split
  · exact tells_fail trivial
  next c t _ =>
  have htail := suffix_tail ht
  have hlt : t.length < s.rest.length := hle
  have simple {p : Pattern} {s₁ : State} :
      Tells src first most (do advance t; token p) s₁ (Lessens s) := by
    refine tells_advance htail ((tells_token p).mono fun _ s₂ h₂ => ?_)
    rw [Lessens, h₂.1]
    exact hlt
  have reference {how : Comparison} {start : Text} {s₁ : State} (hstart : start <:+ src.text)
      (hle : start.length ≤ s.rest.length) (hne : start ≠ []) :
      Tells src first most (do token (← backReference src how start)) s₁ (Lessens s) := by
    refine tells_bind soundly_backReference (tells_backReference hstart) fun p s₂ _ _ h₂ => ?_
    refine (tells_token p).mono fun _ s₃ h₃ => ?_
    have hpos := List.length_pos_iff.2 hne
    rw [List.length_drop] at h₂
    rw [Lessens, h₃.1]
    omega
  have literal {how : Comparison} {verbatim : Bool} {u : Text} {s₁ : State} (hu : u <:+ src.text)
      (hle : u.length ≤ s.rest.length) :
      Tells src first most (literal src how verbatim u) s₁ (Lessens s) :=
    (tells_literal hu).mono fun _ s₂ h₂ => Nat.lt_of_lt_of_le h₂ hle
  refine tells_ite (fun _ => literal ht hle) fun _ => ?_
  refine tells_ite (fun _ => literal htail hlt.le) fun _ => ?_
  refine tells_ite (fun _ => literal htail hlt.le) fun _ => ?_
  refine tells_ite (fun _ => literal htail hlt.le) fun _ => ?_
  refine tells_ite (fun h => reference htail hlt.le ?_) fun _ => ?_
  · rintro rfl
    cases h.2
  refine tells_ite (fun h => reference htail hlt.le ?_) fun _ => ?_
  · rintro rfl
    cases h.2
  refine tells_ite
    (fun _ => tells_ite (fun _ => reference ht hle (by simp)) fun _ => ?_) fun _ => ?_
  · refine tells_advance htail
      (tells_freshId fun id s₂ hrest _ => (tells_token _).mono fun _ s₃ h₃ => ?_)
    rw [Lessens, h₃.1, hrest]
    exact hlt
  refine tells_ite (fun _ => ?_) fun _ => ?_
  · refine tells_advance htail ?_
    refine tells_bind ((readsSoundly hm fuel).expression _) (ih.expression _ (by simp only; omega))
      fun p s₂ _ _ h₂ => ?_
    refine tells_bind soundly_close tells_close fun _ s₃ _ _ h₃ => tells_pure ?_
    have hle₂ : s₂.rest.length ≤ t.length := h₂.1
    rw [Lessens]
    omega
  refine tells_ite (fun _ => ?_) fun _ => ?_
  · refine tells_bind (soundly_openCapture hm) (tells_openCapture hcounts)
      fun slot s₂ _ hslot _ => ?_
    refine tells_advance htail ?_
    refine tells_bind ((readsSoundly hm fuel).expression _) (ih.expression _ (by simp only; omega))
      fun p s₃ he₃ _ h₃ => ?_
    refine tells_bind soundly_close tells_close fun _ s₄ he₄ _ h₄ => ?_
    have hopened := (he₃.trans he₄).allowed.backref slot hslot
    refine tells_bind (soundly_captureId hopened) (tells_captureId slot)
      fun id s₅ _ _ h₅ => tells_pure ?_
    have hle₃ : s₃.rest.length ≤ t.length := h₃.1
    rw [Lessens, h₅.1]
    omega
  refine tells_ite
    (fun _ => (tells_characterClass htail).mono fun _ s₂ h₂ => Nat.lt_trans h₂ hlt) fun _ => ?_
  refine tells_ite (fun _ => simple) fun _ => ?_
  refine tells_ite (fun _ => simple) fun _ => ?_
  refine tells_ite (fun _ => simple) fun _ => ?_
  refine tells_ite (fun _ => tells_ite (fun _ => ?_) fun _ => ?_) fun _ => ?_
  · have hdrop := List.drop_suffix 4 t
    have hdropLength := hdrop.length_le
    refine tells_advance (hdrop.trans htail) ?_
    refine tells_bind ((readsSoundly hm fuel).prefixed _) (ih.prefixed _ (by simp only; omega))
      fun p s₂ _ _ h₂ => ?_
    have hlt₂ : s₂.rest.length < (t.drop 4).length := h₂
    refine fun _ hsited => .inl ⟨_, _, rfl, ⟨hsited.rest, hsited.places⟩, ?_⟩
    simp only [Lessens]
    omega
  · exact (tells_builtin htail).mono fun _ s₂ h₂ => Nat.lt_of_le_of_lt h₂ hlt
  split
  · next name rest hname =>
    obtain ⟨hrest, hlength⟩ := suffix_of_name? hname
    refine tells_advance (hrest.trans ht) ((tells_reference hcounts name _).mono fun _ s₂ h₂ => ?_)
    rw [Lessens, h₂.1]
    exact Nat.lt_of_lt_of_le hlength hle
  · exact tells_ite (fun _ => tells_fail trivial) fun _ => tells_fail trivial

end

theorem readersTell (hcounts : src.Counts) (hm : src.Admits most) (fuel : Nat) :
    ReadersTell src first most fuel := by
  induction fuel with
  | zero =>
    exact ⟨fun _ h => by omega, fun _ _ h => by omega, fun _ h => by omega, fun _ h => by omega,
      fun _ h => by omega, fun _ h => by omega⟩
  | succ fuel ih =>
    exact ⟨fun _ => tells_expression ih hm, fun _ => tells_alternatives ih hm,
      fun _ => tells_sequence ih hm, fun _ => tells_items ih hm,
      fun _ => tells_prefixed ih hm hcounts, fun _ => tells_primary ih hm hcounts⟩

theorem tells_setPlace (r : Nat) {place : Position} (hplace : src.Locates place) :
    Tells src first most (setPlace r place) s (Stays s) :=
  fun _ hsited => .inl ⟨_, _, rfl, hsited.modifyRule r fun _ _ => hplace, rfl, rfl⟩

/-- The rules are read up to the end of the text: each of them takes something of it. -/
theorem tells_rules (hcounts : src.Counts) (hm : src.Admits most) (room : Nat) (hg : s.inGrammar)
    (hroom : s.rest.length < room) :
    Tells src first most (rules src room) s fun _ s' => s'.rest = [] := by
  induction room generalizing s with
  | zero => omega
  | succ room ih =>
    refine tells_ahead fun t _ ht hle => ?_
    split
    · exact tells_pure rfl
    next c t _ =>
    have hplace := src.locates_place (c :: t)
    simp only
    split
    · exact tells_fail trivial
    next name rest hheader =>
    obtain ⟨hrest, hlength⟩ := suffix_of_header? hheader
    refine tells_bind (soundly_ruleNamed hg) (tells_ruleNamed name _)
      fun r s₁ he₁ hr h₁ => tells_get ?_
    refine tells_ite (fun _ => tells_failAt trivial) fun _ => ?_
    refine tells_bind (soundly_setPlace r _) (tells_setPlace r hplace) fun _ s₂ he₂ _ h₂ => ?_
    refine tells_advance (hrest.trans ht) ?_
    refine tells_bind ((readsSoundly hm _).expression _)
      ((readersTell hcounts hm _).expression _ ?_) fun p s₃ he₃ hp h₃ => ?_
    · simp only [fuel]
      omega
    -- a declaration keeps the state sound, but it is no extension, so the next rule starts from its
    -- own state
    refine tells_step rfl
      (fun hs => (hs.declare _ (he₃.allowed.call r (he₂.allowed.call r hr)) hp).1)
      (fun hsited => hsited.modifyRule r fun _ _ => hplace) ?_
    refine tells_freshId fun id s₄ hrest₄ hgrammar₄ => tells_map (ih ?_ ?_)
    · have hgrammar₃ : s₃.inGrammar = s₂.inGrammar := he₃.inGrammar
      simp only at hgrammar₄
      rw [hgrammar₄, hgrammar₃, h₂.2, h₁.2]
      exact hg
    · have hle₃ : s₃.rest.length ≤ rest.length := h₃.1
      simp only at hrest₄
      rw [hrest₄]
      omega

theorem blames_of_checkDeclared {store : Store}
    (places : ∀ r rule, first ≤ r → store.rules[r]? = some rule → src.Locates rule.place)
    {names : List (Text × Nat)} (hnames : ∀ r ∈ names.map Prod.snd, first ≤ r) {e : GrammarError}
    (h : checkDeclared src store names = .error e) : src.Blames (.mistake e) := by
  induction names with
  | nil => cases h
  | cons n names ih =>
    obtain ⟨name, r⟩ := n
    obtain ⟨hr, hnames⟩ := List.forall_mem_cons.1 hnames
    simp only [checkDeclared] at h
    split at h
    · next rule hrule =>
      split at h
      · exact ih hnames h
      · cases h
        exact ⟨rfl, places r rule hr hrule, trivial⟩
    · exact ih hnames h

theorem tells_grammar (hcounts : src.Counts) (hm : src.Admits most) (hg : s.inGrammar)
    (hsite : s.rest <:+ src.text) :
    Tells src first most (grammar src) s fun _ s' => s'.rest = [] := by
  refine tells_andThen (P := fun _ _ => True)
    (fun hs defs s₁ h => ⟨(defines_rules hm _ hg hs h).1, trivial⟩)
    (tells_rules hcounts hm _ hg (Nat.lt_succ_of_le hsite.length_le)) fun defs s₁ _ hrest =>
    tells_get fun hs₁ hsited₁ => ?_
  have hnames (r : Nat) (hr : r ∈ s₁.names.map Prod.snd) : first ≤ r := (hs₁.mem_names.1 hr).1
  cases hc : checkDeclared src s₁.store s₁.names with
  | error e => exact .inr ⟨_, _, rfl, blames_of_checkDeclared hsited₁.places hnames hc⟩
  | ok u =>
    cases defs with
    | nil => exact .inl ⟨_, _, rfl, hsited₁, hrest⟩
    | cons start others => exact .inl ⟨_, _, rfl, ⟨hsited₁.rest, hsited₁.places⟩, hrest⟩

theorem tells_finish {p : Pattern}
    (h : ∀ c t, skipBlanks false s.rest = c :: t → c = ')' ∨ c = '}') :
    Tells src first most (finish src p) s fun _ s' => s'.rest = [] := by
  refine tells_ahead fun t hskip ht hle => ?_
  split
  · exact fun _ hsited => .inl ⟨_, _, rfl, ⟨hsited.rest, hsited.places⟩, rfl⟩
  · next c t => exact tells_ite (fun _ => tells_fail trivial) fun hc => absurd (h c t hskip.symm) hc

/-- Reading a text returns a pattern, or it fails with a mistake at a place of the text or with a
number of too many digits. Readers may call each other as deep as the text nests: there is no bound
on the stack of calls. -/
theorem parse_ends_or_blames (src : Source) (hcounts : src.Counts) (store : Store) :
    (∃ p, (parse src store).1 = .ok p) ∨ ∃ e, (parse src store).1 = .error e ∧ src.Blames e := by
  have hm := admits_capacity src
  have hsited : Sited src store.rules.size { rest := src.text, store := store } := by
    refine ⟨List.suffix_refl _, fun r rule hr hrule => ?_⟩
    obtain ⟨hlt, -⟩ := Array.getElem?_eq_some_iff.1 hrule
    exact absurd hlt (Nat.not_lt.2 hr)
  have hwhole : Tells src store.rules.size (src.capacity.int?.getD 0).toNat (whole src)
      { rest := src.text, store := store } fun _ s' => s'.rest = [] := by
    rw [whole_eq]
    refine tells_ahead fun t _ ht hle => tells_ite (fun _ => ?_) fun _ => ?_
    · refine tells_step rfl
        (fun hs => ⟨hs.names, hs.size, hs.rules, hs.opened, hs.skip, fun h => by cases h⟩)
        (fun hsited => ⟨hsited.rest, hsited.places⟩) ?_
      refine tells_andThen (P := fun _ _ => True)
        (fun hs p s₁ h => ⟨(compiled_grammar hm hs rfl rfl h).1, trivial⟩)
        (tells_grammar hcounts hm rfl ht) fun p s₁ _ hrest => tells_finish fun c t hcons => ?_
      rw [hrest] at hcons
      cases hcons
    · refine tells_bind ((readsSoundly hm _).expression _)
        ((readersTell hcounts hm _).expression _ ?_) fun p s₁ he _ h₁ =>
        tells_finish fun c t hcons => ?_
      · simp only [fuel]
        omega
      · obtain ⟨-, hhalted, hslash⟩ := h₁
        have hrest := hhalted.1.symm.trans hcons
        have hgrammar : s₁.inGrammar = false := he.inGrammar
        rcases hhalted.2 c t hrest with rfl | hc | hc | hc
        · exact absurd (by rw [hrest]; rfl) hslash
        · exact .inl hc
        · exact .inr hc
        · rw [hgrammar] at hc
          cases hc.1
  simp only [parse, EStateM.run]
  rcases hwhole (Sound.start _ src store) hsited with ⟨p, s', hrun, -⟩ | ⟨e, s', hrun, hblames⟩
  · exact .inl ⟨p, by rw [hrun]⟩
  · exact .inr ⟨e, by rw [hrun], hblames⟩

/-- A bracket that is not closed. -/
def openBracket : Source where
  text := ['(']
  file := "pattern"
  inline := .int 5
  capacity := .int 20

theorem openBracket_is_blamed :
    ∃ e, (parse openBracket {}).1 = .error e ∧ openBracket.Blames e := by
  have hnone : (parse openBracket {}).1.toOption.isNone = true := by decide +kernel
  rcases parse_ends_or_blames openBracket ⟨rfl, fun _ => rfl⟩ {} with ⟨p, hp⟩ | hblames
  · rw [hp] at hnone
    cases hnone
  · exact hblames

end PegMatch.Grammar

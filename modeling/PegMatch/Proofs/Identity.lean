import Mathlib.Data.List.Nodup
import Mathlib.Data.Set.Insert
import PegMatch.Proofs.Reading

set_option autoImplicit false

namespace PegMatch

namespace Pattern

def singles : List Pattern :=
  [.empty, .any, .anyRune, .newline, .startAnchor, .category .letter, .category .lower,
    .category .upper, .category .title, .category .white, .starAny, .set 11 digits .members,
    .set 12 digits .others, .set 13 spaces .members, .set 14 spaces .others,
    .set 15 wordRunes .members, .set 16 wordRunes .others, .set 17 letters .members,
    .set 18 letters .others]

theorem mem_singles_of_namedSet {name : Text} {p : Pattern} (h : namedSet? name = some p) :
    p ∈ singles := by
  unfold namedSet? at h
  split at h <;> cases h <;> simp [singles]

theorem mem_singles_category (c : Category) : .category c ∈ singles := by
  cases c <;> simp [singles]

end Pattern

open Pattern

/-- All nodes that were made so far, where `fresh` is the next identity. -/
structure Pool (H : Set Pattern) (fresh : Nat) : Prop where
  unique : ∀ p ∈ H, ∀ q ∈ H, p.id = q.id → p = q
  below : ∀ p ∈ H, p.id < fresh
  closed : ∀ p ∈ H, ∀ q ∈ p.children, q ∈ H
  given : ∀ p ∈ singles, p ∈ H
  first : firstFresh ≤ fresh
  others : ∀ p ∈ H, p ∈ singles ∨ firstFresh ≤ p.id

/-- A node is one of the pool, or joins it under the next identity. -/
def Pool.Takes (H : Set Pattern) (fresh : Nat) (p : Pattern) : Prop :=
  ∃ H', H ⊆ H' ∧ Pool H' (fresh + 1) ∧ p ∈ H'

namespace Pool

variable {H : Set Pattern} {n m : Nat} {p q : Pattern} {ps : List Pattern}

theorem start (h : firstFresh ≤ n) : Pool { p | p ∈ singles } n where
  unique := by
    have hnodup : (singles.map Pattern.id).Nodup := by decide
    exact fun p hp q hq => List.inj_on_of_nodup_map hnodup hp hq
  below := by
    have hall : ∀ i ∈ singles.map Pattern.id, i < firstFresh := by decide
    exact fun p hp => Nat.lt_of_lt_of_le (hall _ (List.mem_map_of_mem hp)) h
  closed p hp q hq := by
    have hleaf : ∀ k ∈ singles.map (fun p => p.children.length), k = 0 := by decide
    have := hleaf _ (List.mem_map.2 ⟨p, hp, rfl⟩)
    rw [List.length_eq_zero_iff.1 this] at hq
    cases hq
  given p hp := hp
  first := h
  others p hp := .inl hp

theorem grow (h : Pool H n) (hnm : n ≤ m) : Pool H m :=
  ⟨h.unique, fun p hp => Nat.lt_of_lt_of_le (h.below p hp) hnm, h.closed, h.given,
    h.first.trans hnm, h.others⟩

theorem add (h : Pool H n) (hid : p.id = n) (hc : ∀ q ∈ p.children, q ∈ H) :
    Pool (insert p H) (n + 1) where
  unique := by
    have hne (q : Pattern) (hq : q ∈ H) : q.id ≠ p.id := hid ▸ Nat.ne_of_lt (h.below q hq)
    rintro a (rfl | ha) b (rfl | hb) heq
    · rfl
    · exact absurd heq.symm (hne b hb)
    · exact absurd heq (hne a ha)
    · exact h.unique a ha b hb heq
  below := by
    rintro a (rfl | ha)
    · exact hid ▸ Nat.lt_succ_self _
    · exact Nat.lt_succ_of_lt (h.below a ha)
  closed := by
    rintro a (rfl | ha) q hq
    · exact .inr (hc q hq)
    · exact .inr (h.closed a ha q hq)
  given a ha := .inr (h.given a ha)
  first := Nat.le_succ_of_le h.first
  others := by
    rintro a (rfl | ha)
    · exact .inr (hid ▸ h.first)
    · exact h.others a ha

theorem takes_of_mem (h : Pool H n) (hp : p ∈ H) : Takes H n p :=
  ⟨H, fun _ h => h, h.grow (Nat.le_succ n), hp⟩

theorem takes_new (h : Pool H n) (hid : p.id = n) (hc : ∀ q ∈ p.children, q ∈ H) : Takes H n p :=
  ⟨insert p H, fun _ h => .inr h, h.add hid hc, .inl rfl⟩

theorem takes_leaf (h : Pool H n) (hid : p.id = n) (hc : p.children = []) : Takes H n p :=
  h.takes_new hid (by simp [hc])

theorem takes_single (h : Pool H n) (hid : p.id = n) (hc : p.children = [q]) (hq : q ∈ H) :
    Takes H n p :=
  h.takes_new hid (by simp [hc, hq])

theorem mem_sequenceItems (h : Pool H n) (hp : p ∈ H) : ∀ q ∈ p.sequenceItems, q ∈ H := by
  intro q hq
  cases p <;> simp only [sequenceItems, List.mem_singleton, List.not_mem_nil] at hq
  case sequence i items => exact h.closed _ hp q hq
  all_goals subst hq; exact hp

theorem mem_choiceItems (h : Pool H n) (hp : p ∈ H) : ∀ q ∈ p.choiceItems, q ∈ H := by
  intro q hq
  cases p <;> simp only [choiceItems, List.mem_singleton] at hq
  case choice i items => exact h.closed _ hp q hq
  all_goals subst hq; exact hp

theorem takes_seq (h : Pool H n) (hps : ∀ p ∈ ps, p ∈ H) : Takes H n (seq n ps) := by
  have items (q : Pattern) (hq : q ∈ ps.flatMap sequenceItems) : q ∈ H := by
    obtain ⟨p, hp, hq⟩ := List.mem_flatMap.1 hq
    exact h.mem_sequenceItems (hps p hp) q hq
  unfold seq
  split
  · exact h.takes_of_mem (h.given _ (by simp [singles]))
  · next p hp => exact h.takes_of_mem (items p (by simp [hp]))
  · exact h.takes_new rfl items

theorem takes_alt (h : Pool H n) (hps : ∀ q ∈ p :: ps, q ∈ H) : Takes H n (alt n p ps) := by
  have items (q : Pattern) (hq : q ∈ (p :: ps).flatMap choiceItems) : q ∈ H := by
    obtain ⟨p', hp, hq⟩ := List.mem_flatMap.1 hq
    exact h.mem_choiceItems (hps p' hp) q hq
  unfold alt
  split
  · next q hq => exact h.takes_of_mem (items q (by simp [hq]))
  · split
    · exact h.takes_leaf rfl rfl
    · exact h.takes_new rfl items

theorem takes_repeated (h : Pool H n) (hp : p ∈ H) : Takes H n (repeated n p) := by
  induction p using induction_children with
  | node p ih =>
    by_cases hr : p.isRepeatable
    · rw [repeated_of_isRepeatable n hr]
      exact h.takes_single rfl rfl hp
    · cases p with
      | char i c => exact h.takes_leaf rfl rfl
      | set i s sense => exact h.takes_leaf rfl rfl
      | any => exact h.takes_of_mem (h.given _ (by simp [singles, repeated]))
      | anyRune => exact h.takes_of_mem (h.given _ (by simp [singles, repeated]))
      | star i q => exact h.takes_of_mem hp
      | starChar i c => exact h.takes_of_mem hp
      | starSet i s sense => exact h.takes_of_mem hp
      | starAny => exact h.takes_of_mem hp
      | option i q => exact ih q (by simp [children]) (h.closed _ hp q (by simp [children]))
      | _ => simp [isRepeatable] at hr

theorem takes_opt (h : Pool H n) (hp : p ∈ H) : Takes H n (opt n p) := by
  rcases opt_cases n p with heq | ⟨-, heq⟩ <;> rw [heq]
  · exact h.takes_of_mem hp
  · exact h.takes_single rfl rfl hp

theorem takes_text (h : Pool H n) (how : Comparison) (t : Text) : Takes H n (text n how t) := by
  have empty : Takes H n .empty := h.takes_of_mem (h.given _ (by simp [singles]))
  match how, t with
  | .exact, [] => exact empty
  | .exact, [_] => exact h.takes_leaf rfl rfl
  | .exact, _ :: _ :: _ => exact h.takes_leaf rfl rfl
  | .ignoreCase, [] => exact empty
  | .ignoreCase, _ :: _ => exact h.takes_leaf rfl rfl
  | .ignoreStyle, [] => exact empty
  | .ignoreStyle, _ :: _ => exact h.takes_leaf rfl rfl

theorem takes_endAnchor (h : Pool H n) : Takes H n (endAnchor n) :=
  h.takes_single rfl rfl (h.given _ (by simp [singles]))

theorem takes_plus (h : Pool H n) (hp : p ∈ H) :
    ∃ H', H ⊆ H' ∧ Pool H' (n + 2) ∧ plus n (n + 1) p ∈ H' := by
  obtain ⟨H₁, hs₁, h₁, hstar⟩ := h.takes_repeated hp
  have hparts : ∀ q ∈ [p, repeated n p], q ∈ H₁ := by simpa using ⟨hs₁ hp, hstar⟩
  obtain ⟨H₂, hs₂, h₂, hseq⟩ := h₁.takes_seq hparts
  exact ⟨H₂, hs₁.trans hs₂, h₂, hseq⟩

theorem takes_ident (h : Pool H n) :
    ∃ H', H ⊆ H' ∧ Pool H' (n + 3) ∧ ident n (n + 1) (n + 2) ∈ H' := by
  obtain ⟨H₁, hs₁, h₁, hset⟩ := h.takes_leaf (p := .set n (letters.insert '_') .members) rfl rfl
  obtain ⟨H₂, hs₂, h₂, hstar⟩ := h₁.takes_leaf (p := .starSet (n + 1) wordRunes .members) rfl rfl
  have hparts :
      ∀ q ∈ [Pattern.set n (letters.insert '_') .members, .starSet (n + 1) wordRunes .members],
      q ∈ H₂ := by
    simpa using ⟨hs₂ hset, hstar⟩
  obtain ⟨H₃, hs₃, h₃, hseq⟩ := h₂.takes_seq hparts
  exact ⟨H₃, (hs₁.trans hs₂).trans hs₃, h₃, hseq⟩

end Pool

theorem Pattern.eq_of_mem_singles {p q : Pattern} (hp : p ∈ singles) (hq : q ∈ singles)
    (h : p.id = q.id) : p = q :=
  (Pool.start (Nat.le_refl _)).unique p hp q hq h

theorem Pattern.id_lt_of_mem_singles {p : Pattern} (hp : p ∈ singles) : p.id < firstFresh :=
  (Pool.start (Nat.le_refl _)).below p hp

namespace Grammar

/-- The nodes of a state are in the pool, and its rules are named once. -/
structure Tidy (first : Nat) (H : Set Pattern) (s : State) : Prop where
  pool : Pool H s.store.fresh
  skip : s.skip ∈ H
  size : first ≤ s.store.rules.size
  distinct : (s.names.map Prod.fst).Nodup
  valid : ∀ n ∈ s.names, isName n.1 ∧ first ≤ n.2
  rules : ∀ r rule, first ≤ r → s.store.rules[r]? = some rule →
    (rule.name, r) ∈ s.names ∧ ∀ p, rule.body = some p → p ∈ H

/-- The reader keeps the state tidy and returns what is told of the pool. -/
def Tidily {α : Type} (first : Nat) (H : Set Pattern) (x : Reader α) (R : α → Set Pattern → Prop) :
    Prop :=
  ∀ s, Tidy first H s → ∀ a s', x s = .ok a s' → ∃ H', H ⊆ H' ∧ Tidy first H' s' ∧ R a H'

variable {α β : Type} {first : Nat} {H H' : Set Pattern} {s s' : State} {p : Pattern}
  {x : Reader α} {f : α → Reader β} {R : α → Set Pattern → Prop} {Q : β → Set Pattern → Prop}

theorem Tidy.grow (h : Tidy first H s) (hH : H ⊆ H') (hp : Pool H' s'.store.fresh)
    (hk : s'.skip ∈ H') (hr : s'.store.rules = s.store.rules) (hn : s'.names = s.names) :
    Tidy first H' s' where
  pool := hp
  skip := hk
  size := hr ▸ h.size
  distinct := hn ▸ h.distinct
  valid := hn ▸ h.valid
  rules := by
    rw [hr, hn]
    exact fun r rule hf hrule =>
      ⟨(h.rules r rule hf hrule).1, fun p hp => hH ((h.rules r rule hf hrule).2 p hp)⟩

theorem tidily_bind (hx : Tidily first H x R)
    (hf : ∀ a H', H ⊆ H' → R a H' → Tidily first H' (f a) Q) : Tidily first H (x >>= f) Q := by
  intro s h b s'' hb
  obtain ⟨a, s', ha, hb⟩ := ok_of_bind hb
  obtain ⟨H', hs, h', hR⟩ := hx s h a s' ha
  obtain ⟨H'', hs', h'', hQ⟩ := hf a H' hs hR s' h' b s'' hb
  exact ⟨H'', hs.trans hs', h'', hQ⟩

theorem tidily_pure {a : α} (h : R a H) : Tidily first H (pure a) R := by
  intro s hs b s' hb
  cases hb
  exact ⟨H, fun _ h => h, hs, h⟩

theorem tidily_get : Tidily first H get fun s H' => s.skip ∈ H' := by
  intro s hs b s' hb
  cases hb
  exact ⟨H, fun _ h => h, hs, hs.skip⟩

theorem tidily_failAt {src : Source} {rest : Text} {m : Mistake} :
    Tidily first H (failAt src rest m) R :=
  fun _ _ _ _ h => by cases h

theorem tidily_fail {src : Source} {m : Mistake} : Tidily first H (fail src m) R :=
  fun _ _ _ _ h => by cases h

theorem tidily_tooDeep : Tidily first H tooDeep R :=
  fun _ _ _ _ h => by cases h

theorem tidily_ite {c : Prop} [Decidable c] {y : Reader α} (hx : Tidily first H x R)
    (hy : Tidily first H y R) : Tidily first H (if c then x else y) R := by
  split
  · exact hx
  · exact hy

theorem tidily_of_same
    (h : ∀ s a s', x s = .ok a s' → s'.store = s.store ∧ s'.names = s.names ∧ s'.skip = s.skip) :
    Tidily first H x fun _ _ => True := by
  intro s hs a s' ha
  obtain ⟨hstore, hn, hk⟩ := h s a s' ha
  exact ⟨H, fun _ h => h, hs.grow (fun _ h => h) (hstore ▸ hs.pool) (hk ▸ hs.skip)
    (hstore ▸ rfl) hn, trivial⟩

theorem tidily_advance (rest : Text) : Tidily first H (advance rest) fun _ _ => True :=
  tidily_of_same fun _ _ _ h => by cases h; exact ⟨rfl, rfl, rfl⟩

theorem tidily_ahead : Tidily first H ahead fun _ _ => True :=
  tidily_of_same fun _ _ _ h => by cases h; exact ⟨rfl, rfl, rfl⟩

theorem tidily_read {src : Source} {token : Except Token.Trouble (α × Text)} :
    Tidily first H (read src token) fun _ _ => True := by
  unfold read
  split
  · exact tidily_bind (tidily_advance _) fun _ _ _ _ => tidily_pure trivial
  · exact tidily_failAt

theorem tidily_sound {e : Except Fault α} : Tidily first H (sound e) fun a _ => e = .ok a := by
  cases e with
  | ok a => exact tidily_pure rfl
  | error f => exact fun _ _ _ _ h => by cases h

theorem tidily_openCapture {src : Source} : Tidily first H (openCapture src) fun _ _ => True := by
  refine tidily_of_same fun s a s' h => ?_
  obtain ⟨-, rfl⟩ := openCapture_eq h
  exact ⟨rfl, rfl, rfl⟩

def Supplies (x : Reader Nat) : Prop :=
  ∀ s a s', x s = .ok a s' → a = s.store.fresh ∧ s'.store.fresh = s.store.fresh + 1 ∧
    s'.store.rules = s.store.rules ∧ s'.names = s.names ∧ s'.skip = s.skip

theorem supplies_freshId : Supplies freshId := by
  intro s a s' h
  cases h
  exact ⟨rfl, rfl, rfl, rfl, rfl⟩

theorem supplies_captureId (slot : Nat) : Supplies (captureId slot) := by
  intro s a s' h
  cases h
  exact ⟨rfl, rfl, rfl, rfl, rfl⟩

theorem tidily_node {g : Reader Nat} (hg : Supplies g) {k : Nat → Pattern} {f : Pattern → Reader β}
    (hk : ∀ n, Pool H n → Pool.Takes H n (k n))
    (hf : ∀ p H', H ⊆ H' → p ∈ H' → Tidily first H' (f p) Q) :
    Tidily first H (g >>= fun id => f (k id)) Q := by
  intro s hs b s'' hb
  obtain ⟨a, s', ha, hb⟩ := ok_of_bind hb
  obtain ⟨rfl, hfresh, hr, hn, hskip⟩ := hg s a s' ha
  obtain ⟨H', hH, hpool, hmem⟩ := hk _ hs.pool
  have hs' : Tidy first H' s' := hs.grow hH (hfresh ▸ hpool) (hskip ▸ hH hs.skip) hr hn
  obtain ⟨H'', hH', hs'', hQ⟩ := hf _ H' hH hmem s' hs' b s'' hb
  exact ⟨H'', hH.trans hH', hs'', hQ⟩

theorem tidily_made {g : Reader Nat} (hg : Supplies g) {k : Nat → Pattern}
    (hk : ∀ n, Pool H n → Pool.Takes H n (k n)) :
    Tidily first H (do return k (← g)) fun p H' => p ∈ H' :=
  tidily_node hg hk fun _ _ _ hp => tidily_pure hp

theorem tidily_token (hp : p ∈ H) : Tidily first H (token p) fun q H' => q ∈ H' := by
  refine tidily_bind tidily_get fun s H' hs hskip => ?_
  split
  · exact tidily_pure (hs hp)
  · refine tidily_made supplies_freshId fun n hn => hn.takes_seq ?_
    simpa using ⟨hskip, hs hp⟩

theorem isName_of_name? {t name rest : Text} (h : Token.name? t = some (name, rest)) :
    isName name := by
  cases t with
  | nil => cases h
  | cons c t =>
    simp only [Token.name?] at h
    split at h
    · next hc =>
      cases h
      simp only [isName, hc, Bool.true_and, List.all_takeWhile]
    · cases h

theorem isName_of_header? {t name rest : Text} (h : Token.header? t = some (name, rest)) :
    isName name := by
  simp only [Token.header?, Option.bind_eq_bind, Option.bind_eq_some_iff] at h
  obtain ⟨⟨name', rest'⟩, hname, t', -, h⟩ := h
  cases h
  exact isName_of_name? hname

theorem Tidy.naming (h : Tidy first H s) {name : Text} (hname : isName name)
    (hl : s.names.lookup name = none) (place : Position) : Tidy first H (s.naming name place) where
  pool := h.pool
  skip := h.skip
  size := by
    have := h.size
    simp only [State.naming, Store.addRule, Array.size_push]
    omega
  distinct := by
    simp only [State.naming, List.map_append, List.map_cons, List.map_nil]
    refine List.nodup_append.2 ⟨h.distinct, by simp, fun a ha b hb => ?_⟩
    rw [List.mem_singleton.1 hb]
    rintro rfl
    obtain ⟨n, hn, rfl⟩ := List.mem_map.1 ha
    simpa using List.lookup_eq_none_iff.1 hl n hn
  valid n hn := by
    rcases List.mem_append.1 hn with hn | hn
    · exact h.valid n hn
    · rw [List.mem_singleton.1 hn]
      exact ⟨hname, h.size⟩
  rules r rule hf hrule := by
    simp only [State.naming, Store.addRule, Array.getElem?_push] at hrule
    split at hrule
    · next hr =>
      cases hrule
      exact ⟨by simp [State.naming, hr], fun p hp => by cases hp⟩
    · exact ⟨List.mem_append_left _ (h.rules r rule hf hrule).1, (h.rules r rule hf hrule).2⟩

theorem tidily_ruleNamed {src : Source} {name start : Text} (hname : isName name) :
    Tidily first H (ruleNamed src name start) fun r _ => first ≤ r := by
  intro s hs r s' h
  cases hl : s.names.lookup name with
  | some k =>
    rw [Setting.ruleNamed_known hl start] at h
    cases h
    obtain ⟨l₁, l₂, hsplit, -⟩ := List.lookup_eq_some_iff.1 hl
    exact ⟨H, fun _ h => h, hs, (hs.valid (name, r) (by simp [hsplit])).2⟩
  | none =>
    rw [Setting.ruleNamed_new hl start] at h
    cases h
    exact ⟨H, fun _ h => h, hs.naming hname hl _, hs.size⟩

theorem Tidy.modifyRule (h : Tidy first H s) (r : Nat) {f : Rule → Rule}
    (hf : ∀ rule, (f rule).name = rule.name)
    (hb : ∀ rule p, (∀ q, rule.body = some q → q ∈ H) → (f rule).body = some p → p ∈ H) :
    Tidy first H { s with store := s.store.modifyRule r f } where
  pool := h.pool
  skip := h.skip
  size := by simpa [Store.modifyRule] using h.size
  distinct := h.distinct
  valid := h.valid
  rules r' rule hr' hrule := by
    simp only [Store.modifyRule, Array.getElem?_modify] at hrule
    split at hrule
    · obtain ⟨old, hold, rfl⟩ := Option.map_eq_some_iff.1 hrule
      obtain ⟨hn, hbody⟩ := h.rules r' old hr' hold
      exact ⟨hf old ▸ hn, fun p hp => hb old p hbody hp⟩
    · exact h.rules r' rule hr' hrule

theorem tidily_modifyRule (r : Nat) {f : Rule → Rule} (hf : ∀ rule, (f rule).name = rule.name)
    (hb : ∀ rule p, (∀ q, rule.body = some q → q ∈ H) → (f rule).body = some p → p ∈ H) :
    Tidily first H (modify fun s => { s with store := s.store.modifyRule r f })
      fun _ _ => True := by
  intro s hs a s' h
  cases h
  exact ⟨H, fun _ h => h, hs.modifyRule r hf hb, trivial⟩

theorem rule_of_body? {store : Store} {r : Nat} {p : Pattern} (h : store.body? r = .ok (some p)) :
    ∃ rule, store.rules[r]? = some rule ∧ rule.body = some p := by
  have hp : (store.rule r).body = some p := by
    unfold Store.body? at h
    simp only at h
    split at h
    · exact Except.ok.inj h
    · cases h
  cases hrule : store.rules[r]? with
  | none => simp [Store.rule, hrule] at hp
  | some rule => exact ⟨rule, rfl, by simpa [Store.rule, hrule] using hp⟩

theorem tidily_reference {src : Source} {name start : Text} (hname : isName name) :
    Tidily first H (reference src name start) fun p H' => p ∈ H' := by
  refine tidily_bind tidily_get fun s₀ H₁ _ _ => ?_
  split
  · refine tidily_bind (tidily_ruleNamed hname) fun r H₂ _ hr => ?_
    refine tidily_bind (tidily_modifyRule r (fun _ => rfl) fun rule p h hp => h p hp)
      fun _ H₃ _ _ => ?_
    intro s hs p s' h
    obtain ⟨_, s₁, h₁, h⟩ := ok_of_bind h
    cases h₁
    obtain ⟨o, s₂, h₂, h⟩ := ok_of_bind h
    cases hi : inlined? s.store src.inline r with
    | error f => rw [hi] at h₂; cases h₂
    | ok o' =>
      rw [hi] at h₂
      cases h₂
      cases o with
      | none =>
        exact tidily_made supplies_freshId
          (fun n hn => hn.takes_leaf (p := .call n r) rfl rfl) s hs p s' h
      | some body =>
        have hbody := body_of_inlined hi
        cases h
        refine ⟨H₃, fun _ h => h, hs.grow (fun _ h => h) hs.pool hs.skip rfl rfl, ?_⟩
        obtain ⟨rule, hrule, hp⟩ := rule_of_body? hbody
        exact (hs.rules r rule hr hrule).2 p hp
  · exact tidily_failAt

theorem tidily_backReference {src : Source} {how : Comparison} {start : Text} :
    Tidily first H (backReference src how start) fun p H' => p ∈ H' := by
  simp only [backReference]
  split
  · exact tidily_failAt
  · refine tidily_bind tidily_sound fun n H₁ _ _ =>
      tidily_bind (tidily_advance _) fun _ H₂ _ _ => ?_
    refine tidily_bind tidily_get fun s H₃ _ _ => ?_
    split
    · exact tidily_made supplies_freshId fun n hn => hn.takes_leaf rfl rfl
    · exact tidily_failAt

theorem tidily_literal {src : Source} {how : Comparison} {verbatim : Bool} {t : Text} :
    Tidily first H (literal src how verbatim t) fun p H' => p ∈ H' :=
  tidily_bind tidily_read fun body _ _ _ =>
    tidily_node supplies_freshId (fun _ hn => hn.takes_text how body)
      fun _ _ _ hp => tidily_token hp

theorem tidily_characterClass {src : Source} {start t : Text} :
    Tidily first H (characterClass src start t) fun p H' => p ∈ H' :=
  tidily_bind tidily_read fun body _ _ _ =>
    tidily_node supplies_freshId (k := fun n => .set n body.1 (.ofBool body.2))
      (fun _ hn => hn.takes_leaf rfl rfl) fun _ _ _ hp => tidily_token hp

theorem tidily_plus (hp : p ∈ H) {f : Pattern → Reader β}
    (hf : ∀ q H', H ⊆ H' → q ∈ H' → Tidily first H' (f q) Q) :
    Tidily first H (freshId >>= fun starId => freshId >>= fun id => f (.plus starId id p)) Q := by
  intro s hs b s'' h
  obtain ⟨starId, s₁, h₁, h⟩ := ok_of_bind h
  obtain ⟨id, s₂, h₂, h⟩ := ok_of_bind h
  cases h₁
  cases h₂
  obtain ⟨H', hH, hpool, hmem⟩ := hs.pool.takes_plus hp
  have hs₂ : Tidy first H' { s with store := { s.store with fresh := s.store.fresh + 2 } } :=
    hs.grow hH hpool (hH hs.skip) rfl rfl
  obtain ⟨H'', hH', hs'', hQ⟩ := hf _ H' hH hmem _ hs₂ b s'' h
  exact ⟨H'', hH.trans hH', hs'', hQ⟩

theorem tidily_suffixes (room : Nat) (hp : p ∈ H) :
    Tidily first H (suffixes room p) fun q H' => q ∈ H' := by
  induction room generalizing p H with
  | zero => exact tidily_pure hp
  | succ room ih =>
    refine tidily_bind tidily_ahead fun t H₁ h₁ _ => ?_
    split
    · refine tidily_ite ?_ (tidily_ite ?_ (tidily_ite ?_ (tidily_pure (h₁ hp))))
      · refine tidily_bind (tidily_advance _) fun _ H₂ h₂ _ => ?_
        exact tidily_node supplies_freshId (fun n hn => hn.takes_opt (h₂ (h₁ hp)))
          fun _ _ _ hq => ih hq
      · refine tidily_bind (tidily_advance _) fun _ H₂ h₂ _ => ?_
        exact tidily_node supplies_freshId (fun n hn => hn.takes_repeated (h₂ (h₁ hp)))
          fun _ _ _ hq => ih hq
      · refine tidily_bind (tidily_advance _) fun _ H₂ h₂ _ => ?_
        exact tidily_plus (h₂ (h₁ hp)) fun _ _ _ hq => ih hq
    · exact tidily_pure (h₁ hp)

theorem tidily_close {src : Source} {wanted opener : Nat} {start : Text} :
    Tidily first H (close src wanted opener start) fun _ _ => True := by
  refine tidily_bind tidily_ahead fun t H₁ _ _ => ?_
  split
  · exact tidily_failAt
  · exact tidily_ite (tidily_advance _) tidily_fail

theorem tidily_named {name : Text} :
    Tidily first H (named? name) fun o H' => ∀ p, o = some p → p ∈ H' := by
  have single {p : Pattern} (hp : p ∈ singles) :
      Tidily first H (pure (some p)) fun o H' => ∀ p, o = some p → p ∈ H' := by
    intro s hs a s' h
    cases h
    refine ⟨H, fun _ h => h, hs, ?_⟩
    rintro _ ⟨rfl⟩
    exact hs.pool.given _ hp
  have category (c : Category) := single (mem_singles_category c)
  unfold named?
  split
  · exact single (by simp [singles])
  · split
    · next hset => exact single (mem_singles_of_namedSet hset)
    · refine tidily_ite (category _)
        (tidily_ite (category _)
          (tidily_ite (category _)
            (tidily_ite (category _)
              (tidily_ite (category _) (tidily_ite ?_ (tidily_pure (by simp)))))))
      intro s hs a s' h
      obtain ⟨setId, s₁, h₁, h⟩ := ok_of_bind h
      obtain ⟨starId, s₂, h₂, h⟩ := ok_of_bind h
      obtain ⟨id, s₃, h₃, h⟩ := ok_of_bind h
      cases h₁
      cases h₂
      cases h₃
      cases h
      obtain ⟨H', hH, hpool, hmem⟩ := hs.pool.takes_ident
      refine ⟨H', hH, hs.grow hH hpool (hH hs.skip) rfl rfl, ?_⟩
      rintro _ ⟨rfl⟩
      exact hmem

theorem tidily_builtin {src : Source} {start t : Text} :
    Tidily first H (builtin src start t) fun p H' => p ∈ H' := by
  refine tidily_bind tidily_named fun o H₁ _ ho => ?_
  split
  · next p => exact tidily_bind (tidily_advance _) fun _ H₂ h₂ _ => tidily_token (h₂ (ho p rfl))
  · refine tidily_ite tidily_failAt ?_
    split
    · exact tidily_failAt
    · next c rest _ =>
      refine tidily_bind (tidily_advance _) fun _ H₂ _ _ => ?_
      exact tidily_node supplies_freshId (k := fun n => .char n c)
        (fun n hn => hn.takes_leaf rfl rfl) fun _ _ _ hp => tidily_token hp

structure ReadsTidily (src : Source) (first fuel : Nat) : Prop where
  expression : ∀ H, Tidily first H (expression src fuel) fun p H' => p ∈ H'
  alternatives : ∀ H, Tidily first H (alternatives src fuel) fun ps H' => ∀ p ∈ ps, p ∈ H'
  sequence : ∀ H, Tidily first H (sequence src fuel) fun p H' => p ∈ H'
  items : ∀ H, Tidily first H (items src fuel) fun ps H' => ∀ p ∈ ps, p ∈ H'
  prefixed : ∀ H, Tidily first H (prefixed src fuel) fun p H' => p ∈ H'
  primary : ∀ H, Tidily first H (primary src fuel) fun p H' => p ∈ H'

section

variable {src : Source} (fuel : Nat) (ih : ReadsTidily src first fuel)
include ih

theorem tidily_expression : Tidily first H (expression src (fuel + 1)) fun p H' => p ∈ H' := by
  refine tidily_bind (ih.sequence H) fun p H₁ _ hp => ?_
  refine tidily_bind (ih.alternatives H₁) fun ps H₂ h₂ hps => ?_
  exact tidily_made supplies_freshId fun n hn => hn.takes_alt (List.forall_mem_cons.2 ⟨h₂ hp, hps⟩)

theorem tidily_alternatives :
    Tidily first H (alternatives src (fuel + 1)) fun ps H' => ∀ p ∈ ps, p ∈ H' := by
  refine tidily_bind tidily_ahead fun t H₁ _ _ => ?_
  split
  · refine tidily_bind (tidily_advance _) fun _ H₂ _ _ => ?_
    refine tidily_bind (ih.sequence H₂) fun p H₃ _ hp => ?_
    refine tidily_bind (ih.alternatives H₃) fun ps H₄ h₄ hps => ?_
    exact tidily_pure (List.forall_mem_cons.2 ⟨h₄ hp, hps⟩)
  · exact tidily_pure (by simp)

theorem tidily_sequence : Tidily first H (sequence src (fuel + 1)) fun p H' => p ∈ H' :=
  tidily_bind (ih.items H) fun _ _ _ hps =>
    tidily_made supplies_freshId fun _ hn => hn.takes_seq hps

theorem tidily_items : Tidily first H (items src (fuel + 1)) fun ps H' => ∀ p ∈ ps, p ∈ H' := by
  have none {H : Set Pattern} : Tidily first H (pure []) fun ps H' => ∀ p ∈ ps, p ∈ H' :=
    tidily_pure (by simp)
  refine tidily_bind tidily_ahead fun t H₁ _ _ => ?_
  split
  · exact none
  refine tidily_ite none (tidily_bind tidily_get fun s H₂ _ _ => tidily_ite none ?_)
  refine tidily_bind (ih.prefixed H₂) fun p H₃ _ hp => ?_
  refine tidily_bind (ih.items H₃) fun ps H₄ h₄ hps => ?_
  exact tidily_pure (List.forall_mem_cons.2 ⟨h₄ hp, hps⟩)

theorem tidily_prefixed : Tidily first H (prefixed src (fuel + 1)) fun p H' => p ∈ H' := by
  have wrapped {t : Text} {wrap : Nat → Pattern → Pattern} {H : Set Pattern}
      (hid : ∀ n p, (wrap n p).id = n) (hc : ∀ n p, (wrap n p).children = [p]) :
      Tidily first H (do advance t; let p ← prefixed src fuel; return wrap (← freshId) p)
          fun p H' => p ∈ H' := by
    refine tidily_bind (tidily_advance _) fun _ H₁ _ _ => ?_
    refine tidily_bind (ih.prefixed H₁) fun p H₂ _ hp => ?_
    exact tidily_made supplies_freshId (k := fun n => wrap n p) fun n hn =>
      hn.takes_single (hid n p) (hc n p) hp
  refine tidily_bind tidily_ahead fun t H₁ _ _ => ?_
  split
  · exact wrapped (fun _ _ => rfl) fun _ _ => rfl
  · exact wrapped (fun _ _ => rfl) fun _ _ => rfl
  · exact wrapped (fun _ _ => rfl) fun _ _ => rfl
  · refine tidily_bind tidily_openCapture fun slot H₂ _ _ =>
      tidily_bind (tidily_advance _) fun _ H₃ _ _ => ?_
    refine tidily_bind (ih.prefixed H₃) fun p H₄ _ hp => ?_
    exact tidily_node (supplies_captureId slot) (k := fun n => .capturedSearch n p)
      (fun n hn => hn.takes_single rfl rfl hp) fun _ _ _ hq => tidily_token hq
  · refine tidily_bind (ih.primary H₁) fun p H₂ _ hp => tidily_bind tidily_get fun s H₃ h₃ _ => ?_
    exact tidily_suffixes _ (h₃ hp)

theorem tidily_primary : Tidily first H (primary src (fuel + 1)) fun p H' => p ∈ H' := by
  have single {p : Pattern} {t : Text} {H : Set Pattern} (hp : p ∈ singles) :
      Tidily first H (do advance t; token p) fun p H' => p ∈ H' := by
    refine tidily_bind (tidily_advance _) fun _ H₁ _ _ s hs => ?_
    exact tidily_token (hs.pool.given p hp) s hs
  have reference {how : Comparison} {t : Text} {H : Set Pattern} :
      Tidily first H (do token (← backReference src how t)) fun p H' => p ∈ H' :=
    tidily_bind tidily_backReference fun _ _ _ hp => tidily_token hp
  refine tidily_bind tidily_ahead fun t H₁ _ _ => ?_
  split
  · exact tidily_fail
  refine tidily_ite tidily_literal (tidily_ite tidily_literal (tidily_ite tidily_literal
    (tidily_ite tidily_literal ?_)))
  refine tidily_ite reference (tidily_ite reference (tidily_ite (tidily_ite reference ?_) ?_))
  · refine tidily_bind (tidily_advance _) fun _ H₂ _ _ => ?_
    exact tidily_node supplies_freshId (fun n hn => hn.takes_endAnchor)
      fun _ _ _ hp => tidily_token hp
  refine tidily_ite ?_ (tidily_ite ?_ (tidily_ite tidily_characterClass ?_))
  · refine tidily_bind (tidily_advance _) fun _ H₂ _ _ =>
      tidily_bind (ih.expression H₂) fun p H₃ _ hp => ?_
    exact tidily_bind tidily_close fun _ H₄ h₄ _ => tidily_pure (h₄ hp)
  · refine tidily_bind tidily_openCapture fun slot H₂ _ _ =>
      tidily_bind (tidily_advance _) fun _ H₃ _ _ => ?_
    refine tidily_bind (ih.expression H₃) fun p H₄ _ hp =>
      tidily_bind tidily_close fun _ H₅ h₅ _ => ?_
    exact tidily_made (supplies_captureId slot) (k := fun n => .capture n p)
      fun n hn => hn.takes_single rfl rfl (h₅ hp)
  refine tidily_ite (single (by simp [singles])) (tidily_ite (single (by simp [singles]))
    (tidily_ite (single (by simp [singles])) (tidily_ite (tidily_ite ?_ tidily_builtin) ?_)))
  · refine tidily_bind (tidily_advance _) fun _ H₂ _ _ =>
      tidily_bind (ih.prefixed H₂) fun p H₃ _ hp => ?_
    intro s hs q s' h
    cases h
    exact ⟨H₃, fun _ h => h, hs.grow (fun _ h => h) hs.pool hp rfl rfl,
      hs.pool.given _ (by simp [singles])⟩
  split
  · next name rest hname =>
    exact tidily_bind (tidily_advance _) fun _ H₂ _ _ => tidily_reference (isName_of_name? hname)
  · exact tidily_ite tidily_fail tidily_fail

end

theorem readsTidily (src : Source) (first fuel : Nat) : ReadsTidily src first fuel := by
  induction fuel with
  | zero =>
    exact ⟨fun _ => tidily_tooDeep, fun _ => tidily_tooDeep, fun _ => tidily_tooDeep,
      fun _ => tidily_tooDeep, fun _ => tidily_tooDeep, fun _ => tidily_tooDeep⟩
  | succ fuel ih =>
    exact ⟨fun _ => tidily_expression fuel ih, fun _ => tidily_alternatives fuel ih,
      fun _ => tidily_sequence fuel ih, fun _ => tidily_items fuel ih,
      fun _ => tidily_prefixed fuel ih, fun _ => tidily_primary fuel ih⟩

theorem tidily_rules {src : Source} (room : Nat) :
    Tidily first H (rules src room) fun ds H' => ∀ d ∈ ds, .rule d.1 d.2 ∈ H' := by
  induction room generalizing H with
  | zero => exact tidily_pure (by simp)
  | succ room ih =>
    refine tidily_bind tidily_ahead fun t H₁ _ _ => ?_
    split
    · exact tidily_pure (by simp)
    · dsimp only
      split
      · exact tidily_fail
      · next name rest hname =>
        refine tidily_bind (tidily_ruleNamed (isName_of_header? hname)) fun r H₂ _ _ => ?_
        refine tidily_bind tidily_get fun s H₃ _ _ => tidily_ite tidily_failAt ?_
        refine tidily_bind (tidily_modifyRule r (fun _ => rfl) fun rule p h hp => h p hp)
          fun _ H₄ _ _ => ?_
        refine tidily_bind (tidily_advance _) fun _ H₅ _ _ => ?_
        refine tidily_bind ((readsTidily src first _).expression H₅) fun p H₆ _ hp => ?_
        refine tidily_bind (tidily_modifyRule r (fun _ => rfl) fun rule q _ hq => ?_)
          fun _ H₇ _ _ => ?_
        · cases hq
          exact hp
        · intro s hs ds s' h
          obtain ⟨id, s₁, h₁, h⟩ := ok_of_bind h
          cases h₁
          obtain ⟨ds', s₂, h₂, h⟩ := ok_of_bind h
          cases h
          have hs₁ : Tidy first (insert (.rule s.store.fresh r) H₇)
              { s with store := { s.store with fresh := s.store.fresh + 1 } } :=
            hs.grow (Set.subset_insert _ _) (hs.pool.add rfl (by simp [children]))
              (.inr hs.skip) rfl rfl
          obtain ⟨H₈, h₈, hs', hds⟩ := ih _ hs₁ ds' _ h₂
          exact ⟨H₈, fun _ h => h₈ (.inr h), hs', List.forall_mem_cons.2 ⟨h₈ (.inl rfl), hds⟩⟩

def Rooted (p : Pattern) (H : Set Pattern) : Prop :=
  (∃ id start others, p = .grammar id start others ∧ firstFresh ≤ id) ∨ p ∈ H

def Listed (p : Pattern) (H : Set Pattern) : Prop :=
  p = .empty ∨ ∃ id start others, p = .grammar id start others ∧ firstFresh ≤ id ∧
    ∀ d ∈ start :: others, .rule d.1 d.2 ∈ H

theorem Listed.rooted {n : Nat} (h : Listed p H) (hp : Pool H n) : Rooted p H := by
  rcases h with rfl | ⟨id, start, others, rfl, hid, -⟩
  · exact .inr (hp.given _ (by simp [singles]))
  · exact .inl ⟨id, start, others, rfl, hid⟩

theorem tidily_modify {f : State → State}
    (h : ∀ s, (f s).store.fresh = s.store.fresh ∧ (f s).store.rules = s.store.rules ∧
      (f s).names = s.names ∧ (f s).skip = s.skip) : Tidily first H (modify f) fun _ _ => True := by
  intro s hs a s' ha
  cases ha
  obtain ⟨hf, hr, hn, hk⟩ := h s
  exact ⟨H, fun _ h => h, hs.grow (fun _ h => h) (hf ▸ hs.pool) (hk ▸ hs.skip) hr hn, trivial⟩

theorem tidily_grammar {src : Source} : Tidily first H (grammar src) Listed := by
  refine tidily_bind (tidily_rules _) fun ds H₁ _ hds => tidily_bind tidily_get fun s H₂ h₂ _ => ?_
  split
  · exact fun _ _ _ _ h => by cases h
  · split
    · intro s hs p s' h
      cases h
      exact ⟨H₂, fun _ h => h, hs, .inl rfl⟩
    · refine tidily_bind (tidily_modify fun _ => ⟨rfl, rfl, rfl, rfl⟩) fun _ H₃ h₃ _ => ?_
      intro s hs p s' h
      cases h
      exact ⟨H₃, fun _ h => h, hs.grow (fun _ h => h) (hs.pool.grow (Nat.le_succ _))
        hs.skip rfl rfl, .inr ⟨_, _, _, rfl, hs.pool.first, fun d hd => h₃ (h₂ (hds d hd))⟩⟩

theorem tidily_finish {src : Source} (hp : Rooted p H) : Tidily first H (finish src p) Rooted := by
  refine tidily_bind tidily_ahead fun t H₁ h₁ _ => ?_
  split
  · refine tidily_bind (tidily_modify fun _ => ⟨rfl, rfl, rfl, rfl⟩) fun _ H₂ h₂ _ => tidily_pure ?_
    exact hp.imp id fun hp => h₂ (h₁ hp)
  · exact tidily_ite tidily_fail tidily_fail

theorem tidily_whole (src : Source) : Tidily first H (whole src) Rooted := by
  rw [whole_eq]
  refine tidily_bind tidily_ahead fun t H₁ _ _ => tidily_ite ?_ ?_
  · refine tidily_bind (tidily_modify fun _ => ⟨rfl, rfl, rfl, rfl⟩) fun _ H₂ _ _ => ?_
    exact tidily_bind tidily_grammar fun _ _ _ hp s hs => tidily_finish (hp.rooted hs.pool) s hs
  · exact tidily_bind ((readsTidily src first _).expression H₁) fun _ _ _ hp =>
      tidily_finish (.inr hp)

theorem tidy_start {store : Store} (h : firstFresh ≤ store.fresh) (text : Text) :
    Tidy store.rules.size { p | p ∈ singles } { rest := text, store := store } where
  pool := .start h
  skip := by simp [singles]
  size := Nat.le_refl _
  distinct := List.nodup_nil
  valid := by simp
  rules r rule hr hrule := by
    obtain ⟨hlt, -⟩ := Array.getElem?_eq_some_iff.1 hrule
    exact absurd hlt (Nat.not_lt.2 hr)

/-- Two rules of a text have two names, which are valid, and all nodes of its trees are in one
pool. -/
structure Orderly (first : Nat) (H : Set Pattern) (store : Store) (p : Pattern) : Prop where
  pool : Pool H store.fresh
  rules : ∀ r rule, first ≤ r → store.rules[r]? = some rule → isName rule.name ∧
    ∀ q, rule.body = some q → q ∈ H
  distinct : ∀ r r' rule rule', first ≤ r → first ≤ r' → store.rules[r]? = some rule →
    store.rules[r']? = some rule' → rule.name = rule'.name → r = r'
  root : Rooted p H

theorem Tidy.orderly (h : Tidy first H s) (hp : Rooted p H) : Orderly first H s.store p where
  pool := h.pool
  rules r rule hr hrule := by
    obtain ⟨hn, hb⟩ := h.rules r rule hr hrule
    exact ⟨(h.valid _ hn).1, hb⟩
  distinct r r' rule rule' hr hr' hrule hrule' hname := by
    have hmem := (h.rules r rule hr hrule).1
    have hmem' := (h.rules r' rule' hr' hrule').1
    exact congrArg Prod.snd (List.inj_on_of_nodup_map h.distinct hmem hmem' hname)
  root := hp

theorem orderly_parse {src : Source} {store store' : Store} {log : List Notice}
    (hf : firstFresh ≤ store.fresh) (h : parse src store = (.ok p, store', log)) :
    ∃ H, Orderly store.rules.size H store' p := by
  simp only [parse] at h
  split at h
  · next q s hrun =>
    cases h
    obtain ⟨H, -, hs, hp⟩ := tidily_whole src _ (tidy_start hf src.text) _ _ hrun
    exact ⟨H, hs.orderly hp⟩
  · cases h

end Grammar

end PegMatch

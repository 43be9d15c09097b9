import PegMatch.Proofs.Lockstep
import PegMatch.Proofs.Stream

set_option autoImplicit false

namespace PegMatch

/-- A rule without the place of its first mention. -/
def Rule.placeless (rule : Rule) : Rule :=
  { rule with place := ⟨0, 0⟩ }

namespace Store

def placeless (s : Store) : Store :=
  { s with rules := s.rules.map Rule.placeless }

theorem getElem?_placeless (s : Store) (r : Nat) :
    s.placeless.rules[r]? = s.rules[r]?.map Rule.placeless := by
  simp [placeless]

theorem size_placeless (s : Store) : s.placeless.rules.size = s.rules.size := by
  simp [placeless]

theorem placeless_addRule (s : Store) (rule : Rule) :
    (s.addRule rule).2.placeless = (s.placeless.addRule rule.placeless).2 := by
  simp [placeless, addRule]

theorem placeless_modifyRule (s : Store) (r : Nat) {f g : Rule → Rule}
    (hf : ∀ rule, (f rule).placeless = g rule.placeless) :
    (s.modifyRule r f).placeless = s.placeless.modifyRule r g := by
  simp only [placeless, modifyRule, mk.injEq, true_and, and_true]
  apply Array.ext_getElem?
  intro k
  simp only [Array.getElem?_map, Array.getElem?_modify]
  split
  · simp [hf, Function.comp_def]
  · rfl

theorem rule_placeless (s : Store) (r : Nat) : s.placeless.rule r = (s.rule r).placeless := by
  rw [rule, rule, getElem?_placeless]
  exact Option.getD_map Rule.placeless { name := [] } s.rules[r]?

theorem body?_placeless (s : Store) (r : Nat) : s.placeless.body? r = s.body? r := by
  simp only [body?, rule_placeless]
  rfl

theorem costRule_placeless (s : Store) (limit : Datum) (hops r : Nat) :
    s.placeless.costRule limit hops r = s.costRule limit hops r := by
  induction hops generalizing r with
  | zero => rfl
  | succ hops ih =>
    have below : s.placeless.costRule limit hops = s.costRule limit hops := funext ih
    simp only [costRule, body?_placeless, below]

theorem cost_placeless (s : Store) (limit : Datum) (p : Pattern) :
    s.placeless.cost limit p = s.cost limit p := by
  have below : s.placeless.costRule limit s.rules.size = s.costRule limit s.rules.size :=
    funext (costRule_placeless s limit s.rules.size)
  simp only [cost, size_placeless, below]

end Store

namespace Grammar

open Token

theorem inlined?_placeless (s : Store) (limit : Datum) (r : Nat) :
    inlined? s.placeless limit r = inlined? s limit r := by
  simp only [inlined?, Store.body?_placeless, Store.cost_placeless]

/-- The bodies that stand in place of calls with a limit of inlining. -/
def inlinedBelow (limit : Int) (store : Store) (r : Nat) : Option Pattern :=
  match inlined? store (.int limit) r with
  | .ok o => o
  | .error _ => none

theorem inlinedBelow_zero : inlinedBelow 0 = fun _ _ => none := by
  funext store r
  simp only [inlinedBelow, inlined?, bind, Except.bind]
  cases store.body? r with
  | error f => rfl
  | ok o => cases o <;> rfl

def State.bench (s : State) : Bench where
  store := s.store.placeless
  names := s.names
  opened := s.opened
  skip := s.skip

/-- What is fixed while a text is read. Names stand in grammars only. -/
structure Setting where
  text : Text
  file : String
  limit : Int
  capacity : Int
  declared : List Name
  /-- The number of the first rule of this text. -/
  first : Nat

namespace Setting

def source (w : Setting) : Source :=
  { text := w.text, file := w.file, inline := .int w.limit, capacity := .int w.capacity }

theorem admits (w : Setting) : w.source.Admits w.capacity.toNat := by
  intro c hc
  cases hc
  exact Nat.le_refl _

abbrev inline (w : Setting) : Store → Nat → Option Pattern :=
  inlinedBelow w.limit

/-- The invariant of reading: every rule is named once, by a declared name. -/
structure Ready (w : Setting) (s : State) : Prop where
  sound : Sound w.first w.capacity.toNat s
  inGrammar : s.inGrammar = !w.declared.isEmpty
  distinct : (s.names.map Prod.fst).Nodup
  named : ∀ n ∈ s.names, ∃ d ∈ w.declared, n.1 = d.text

/-- What one step of reading may change: more rules are named, but none is declared. -/
structure Step (w : Setting) (s s' : State) : Prop where
  ready : w.Ready s'
  grown : Extends w.first s s'
  names : s.names ⊆ s'.names

theorem Step.refl {w : Setting} {s : State} (h : w.Ready s) : w.Step s s :=
  ⟨h, .refl s, List.Subset.refl _⟩

theorem Step.trans {w : Setting} {s s' s'' : State} (h : w.Step s s') (h' : w.Step s' s'') :
    w.Step s s'' :=
  ⟨h'.ready, h.grown.trans h'.grown, List.Subset.trans h.names h'.names⟩

theorem Step.of_sound {w : Setting} {s s' : State} (h : w.Ready s)
    (hs : Sound w.first w.capacity.toNat s' ∧ Extends w.first s s') (hn : s'.names = s.names) :
    w.Step s s' where
  ready := ⟨hs.1, hs.2.inGrammar.trans h.inGrammar, hn ▸ h.distinct, hn ▸ h.named⟩
  grown := hs.2
  names := by rw [hn]; exact List.Subset.refl _

variable {α β : Type} {w : Setting} {s s₁ s' s'' : State}

/-- The reader returns what the builder makes, and leaves a state that the builder knows as its
own. -/
structure Makes (x : Reader α) (m : Build α) (s s' : State) : Prop where
  result : x s = .ok (m s.bench).1 s'
  bench : s'.bench = (m s.bench).2

theorem Makes.bind {x : Reader α} {f : α → Reader β} {m : Build α} {k : α → Build β}
    (h : Makes x m s s') (h' : Makes (f (m s.bench).1) (k (m s.bench).1) s' s'') :
    Makes (x >>= f) (m >>= k) s s'' := by
  obtain ⟨hr, hb⟩ := h
  obtain ⟨hr', hb'⟩ := h'
  rw [hb] at hr' hb'
  refine ⟨?_, hb'⟩
  simp only [Bind.bind, EStateM.bind, hr, hr']
  rfl

theorem Makes.after {x : Reader α} {f : α → Reader β} {m : Build β} {a : α} (hx : x s = .ok a s₁)
    (hb : s₁.bench = s.bench) (h : Makes (f a) m s₁ s') : Makes (x >>= f) m s s' := by
  obtain ⟨hr, hb'⟩ := h
  rw [hb] at hr hb'
  refine ⟨?_, hb'⟩
  simp only [Bind.bind, EStateM.bind, hx, hr]

structure Runs (w : Setting) (x : Reader α) (m : Build α) (s s' : State) :
    Prop extends Makes x m s s' where
  step : w.Step s s'

theorem Runs.bind {x : Reader α} {f : α → Reader β} {m : Build α} {k : α → Build β}
    (h : w.Runs x m s s') (h' : w.Runs (f (m s.bench).1) (k (m s.bench).1) s' s'') :
    w.Runs (x >>= f) (m >>= k) s s'' :=
  ⟨h.toMakes.bind h'.toMakes, h.step.trans h'.step⟩

theorem Runs.after {x : Reader α} {f : α → Reader β} {m : Build β} {a : α} (hx : x s = .ok a s₁)
    (hb : s₁.bench = s.bench) (hs : w.Step s s₁) (h : w.Runs (f a) m s₁ s') :
    w.Runs (x >>= f) m s s' :=
  ⟨h.toMakes.after hx hb, hs.trans h.step⟩

theorem runs_pure (h : w.Ready s) (a : α) : w.Runs (pure a) (pure a) s s :=
  ⟨⟨rfl, rfl⟩, .refl h⟩

theorem step_rest (h : w.Ready s) (rest : Text) : w.Step s { s with rest := rest } :=
  .of_sound h (h.sound.grow (Extends.refl s).allowed rfl rfl h.sound.opened rfl rfl) rfl

theorem Runs.ahead {f : Text → Reader α} {m : Build α} (h : w.Ready s)
    (hk : w.Runs (f (skipBlanks false s.rest)) m { s with rest := skipBlanks false s.rest } s') :
    w.Runs (ahead >>= f) m s s' :=
  .after rfl rfl (step_rest h _) hk

theorem Runs.advance {rest : Text} {f : Unit → Reader α} {m : Build α} (h : w.Ready s)
    (hk : w.Runs (f ()) m { s with rest := rest } s') : w.Runs (advance rest >>= f) m s s' :=
  .after rfl rfl (step_rest h _) hk

theorem Runs.get {f : State → Reader α} {m : Build α} (h : w.Ready s) (hk : w.Runs (f s) m s s') :
    w.Runs (get >>= f) m s s' :=
  .after rfl rfl (.refl h) hk

theorem runs_freshId (h : w.Ready s) :
    w.Runs freshId Build.fresh s { s with store := { s.store with fresh := s.store.fresh + 1 } } :=
  ⟨⟨rfl, rfl⟩, .of_sound h (h.sound.grow (less_fresh s) rfl rfl h.sound.opened rfl rfl) rfl⟩

/-- The reader runs like the builder, reads no text and opens no capture. -/
def Quietly (w : Setting) (x : Reader α) (m : Build α) (s : State) : Prop :=
  ∃ s', w.Runs x m s s' ∧ s'.rest = s.rest ∧ s'.opened = s.opened

theorem Quietly.bind {x : Reader α} {f : α → Reader β} {m : Build α} {k : α → Build β}
    (h : w.Quietly x m s)
    (h' : ∀ s', w.Runs x m s s' → w.Quietly (f (m s.bench).1) (k (m s.bench).1) s') :
    w.Quietly (x >>= f) (m >>= k) s := by
  obtain ⟨s₁, hr, ht, ho⟩ := h
  obtain ⟨s₂, hr', ht', ho'⟩ := h' s₁ hr
  exact ⟨s₂, hr.bind hr', ht'.trans ht, ho'.trans ho⟩

theorem quietly_pure (h : w.Ready s) (a : α) : w.Quietly (pure a) (pure a) s :=
  ⟨s, runs_pure h a, rfl, rfl⟩

theorem quietly_freshId (h : w.Ready s) : w.Quietly freshId Build.fresh s :=
  ⟨_, runs_freshId h, rfl, rfl⟩

theorem quietly_fresh (h : w.Ready s) (f : Nat → α) :
    w.Quietly (do return f (← freshId)) (do return f (← Build.fresh)) s :=
  (quietly_freshId h).bind fun _ hr => quietly_pure hr.step.ready _

theorem quietly_token (h : w.Ready s) (p : Pattern) : w.Quietly (token p) (Build.skipping p) s := by
  have hfresh := (runs_freshId h).step
  obtain ⟨rest, store, names, inGrammar, opened, skip, log⟩ := s
  cases skip with
  | empty => exact ⟨_, ⟨⟨rfl, rfl⟩, .refl h⟩, rfl, rfl⟩
  | _ => exact ⟨_, ⟨⟨rfl, rfl⟩, hfresh⟩, rfl, rfl⟩

theorem runs_openCapture (h : w.Ready s) (hlt : s.opened < w.capacity) :
    w.Runs (openCapture w.source) Build.openCapture s { s with opened := s.opened + 1 } := by
  have hresult : openCapture w.source s = .ok s.opened { s with opened := s.opened + 1 } := by
    have hnot : ¬ w.capacity ≤ s.opened := by omega
    simp [openCapture, source, get_apply, Bind.bind, EStateM.bind, sound, pure, EStateM.pure,
      hnot, set_apply]
  obtain ⟨hs, he, -⟩ := soundly_openCapture w.admits h.sound _ _ hresult
  exact ⟨⟨hresult, rfl⟩, .of_sound h ⟨hs, he⟩ rfl⟩

theorem quietly_captureId (h : w.Ready s) {slot : Nat} (hlt : slot < s.opened) :
    w.Quietly (captureId slot) (Build.captureId slot) s := by
  have hresult : captureId slot s = .ok s.store.fresh { s with
      store := ({ s.store with fresh := s.store.fresh + 1 } : Store).setSlot s.store.fresh slot } :=
        rfl
  obtain ⟨hs, he, -⟩ := soundly_captureId hlt h.sound _ _ hresult
  exact ⟨_, ⟨⟨hresult, rfl⟩, .of_sound h ⟨hs, he⟩ rfl⟩, rfl, rfl⟩

theorem ruleNamed_known {src : Source} {name : Text} {r : Nat} (h : s.names.lookup name = some r)
    (start : Text) : ruleNamed src name start s = .ok r s := by
  simp only [ruleNamed, Bind.bind, EStateM.bind, get_apply, h]
  rfl

theorem ruleNamed_new {src : Source} {name : Text} (h : s.names.lookup name = none) (start : Text) :
    ruleNamed src name start s = .ok s.store.rules.size (s.naming name (src.place start)) := by
  simp only [ruleNamed, Bind.bind, EStateM.bind, get_apply, h]
  rfl

theorem build_ruleNamed_known {name : Text} {r : Nat} {b : Bench}
    (h : b.names.lookup name = some r) : Build.ruleNamed name b = (r, b) := by
  simp only [Build.ruleNamed, Bind.bind, StateT.bind, get, getThe, MonadStateOf.get,
    StateT.get, h, pure]
  rfl

theorem build_ruleNamed_new {name : Text} {b : Bench} (h : b.names.lookup name = none) :
    Build.ruleNamed name b =
      (b.store.rules.size,
        { b with store := (b.store.addRule { name := name }).2,
                 names := b.names ++ [(name, b.store.rules.size)] }) := by
  simp only [Build.ruleNamed, Bind.bind, StateT.bind, get, getThe, MonadStateOf.get,
    StateT.get, h, pure]
  rfl

theorem Ready.inside (h : w.Ready s) {n : Name} (hn : n ∈ w.declared) : s.inGrammar = true := by
  rw [h.inGrammar]
  cases hd : w.declared with
  | nil => simp [hd] at hn
  | cons => rfl

theorem not_mem_of_lookup {name : Text} {names : List (Text × Nat)} (h : names.lookup name = none) :
    name ∉ names.map Prod.fst := by
  intro hm
  obtain ⟨n, hn, rfl⟩ := List.mem_map.1 hm
  simpa using List.lookup_eq_none_iff.1 h n hn

theorem Ready.naming (h : w.Ready s) {n : Name} {place : Position}
    (hs : Sound w.first w.capacity.toNat (s.naming n.text place))
    (he : Extends w.first s (s.naming n.text place)) (hn : n ∈ w.declared)
    (hl : s.names.lookup n.text = none) : w.Ready (s.naming n.text place) where
  sound := hs
  inGrammar := he.inGrammar.trans h.inGrammar
  distinct := by
    have hnew := not_mem_of_lookup hl
    simp only [State.naming, List.map_append, List.map_cons, List.map_nil]
    refine List.nodup_append.2 ⟨h.distinct, by simp, fun a ha b hb => ?_⟩
    rw [List.mem_singleton.1 hb]
    exact fun heq => hnew (heq ▸ ha)
  named m hm := by
    rcases List.mem_append.1 hm with hm | hm
    · exact h.named m hm
    · rw [List.mem_singleton.1 hm]
      exact ⟨n, hn, rfl⟩

theorem quietly_ruleNamed (h : w.Ready s) {n : Name} (hn : n ∈ w.declared) (start : Text) :
    w.Quietly (ruleNamed w.source n.text start) (Build.ruleNamed n.text) s := by
  cases hl : s.names.lookup n.text with
  | some r =>
    have hb : Build.ruleNamed n.text s.bench = (r, s.bench) := build_ruleNamed_known hl
    refine ⟨s, ⟨⟨?_, ?_⟩, .refl h⟩, rfl, rfl⟩
    · rw [hb]
      exact ruleNamed_known hl start
    · rw [hb]
  | none =>
    have hb := build_ruleNamed_new (b := s.bench) hl
    have hsize : s.bench.store.rules.size = s.store.rules.size := s.store.size_placeless
    obtain ⟨hs, he⟩ := h.sound.addRule (h.inside hn) n.text (w.source.place start)
    refine ⟨s.naming n.text (w.source.place start), ⟨⟨?_, ?_⟩, ?_⟩, rfl, rfl⟩
    · rw [hb, hsize]
      exact ruleNamed_new hl start
    · rw [hb, hsize]
      simp only [State.bench, State.naming, Store.placeless_addRule]
      rfl
    · exact ⟨h.naming hs he hn hl, he, List.subset_append_left _ _⟩

theorem call_of_ruleNamed (h : w.Ready s) {n : Name} (hn : n ∈ w.declared) {start : Text} {r : Nat}
    (hr : ruleNamed w.source n.text start s = .ok r s') : (s'.allowed w.first).call r :=
  (soundly_ruleNamed (h.inside hn) h.sound r s' hr).2.2

theorem quietly_markUsed (h : w.Ready s) (r : Nat) :
    w.Quietly (markUsed r) (Build.modifyRule r fun rule => { rule with used := true }) s := by
  have hsound :=
    h.sound.modifyRule r (f := fun rule => { rule with used := true }) fun _ => ⟨rfl, rfl, rfl⟩
  refine ⟨_, ⟨⟨rfl, ?_⟩, .of_sound h hsound rfl⟩, rfl, rfl⟩
  simp only [State.bench]
  rw [Store.placeless_modifyRule (g := fun rule => { rule with used := true }) _ _ fun _ => rfl]
  rfl

theorem inlined?_eq (h : w.Ready s) {r : Nat} (hr : (s.allowed w.first).call r) :
    inlined? s.store (.int w.limit) r = .ok (w.inline s.bench.store r) := by
  have hok : ∃ o, inlined? s.store (.int w.limit) r = .ok o := by
    have hbody :=
      body?_eq (s := s) (r := r) fun rule hrule => (h.sound.rules r rule hr.1 hrule).proper
    cases hb : bodyOf s r with
    | none => exact ⟨none, inlined_of_none (hbody.trans (by rw [hb]))⟩
    | some p =>
      rw [hb] at hbody
      have hnormal : p.Normal .all := (h.sound.body hr hbody).mono (Allowed.less_all _)
      rcases inlined_spec w.limit hbody hnormal with ⟨hi, -, -⟩ | ⟨hi, -⟩
      · exact ⟨_, hi⟩
      · exact ⟨_, hi⟩
  obtain ⟨o, ho⟩ := hok
  have hbench : w.inline s.bench.store r = o := by
    simp only [inline, inlinedBelow, State.bench, inlined?_placeless, ho]
  rw [ho, hbench]

theorem quietly_inlined (h : w.Ready s) (n : Name) {r : Nat} (hr : (s.allowed w.first).call r) :
    w.Quietly (do
      let a ← get
      let o ← sound (inlined? a.store (.int w.limit) r)
      mention n.text r o : Reader Pattern)
    (do
      match w.inline (← get).store r with
      | some body => return body
      | none => return .call (← Build.fresh) r) s := by
  have hread : (do
      let a ← get
      let o ← sound (inlined? a.store (.int w.limit) r)
      mention n.text r o : Reader Pattern) s = mention n.text r (w.inline s.bench.store r) s := by
    simp only [Bind.bind, EStateM.bind, get_apply, inlined?_eq h hr]
    rfl
  cases ho : w.inline s.bench.store r with
  | some body =>
    refine ⟨{ s with log := .inlining n.text :: s.log }, ⟨⟨?_, ?_⟩, ?_⟩, rfl, rfl⟩
    · rw [hread, ho]
      simp only [Bind.bind, StateT.bind, get, getThe, MonadStateOf.get, StateT.get, pure, ho]
      rfl
    · simp only [Bind.bind, StateT.bind, get, getThe, MonadStateOf.get, StateT.get, pure, ho]
      rfl
    · exact .of_sound h (h.sound.grow (Extends.refl s).allowed rfl rfl h.sound.opened rfl rfl) rfl
  | none =>
    obtain ⟨s', hfresh, ht, hopen⟩ := quietly_fresh h fun id => Pattern.call id r
    refine ⟨s', ⟨⟨?_, ?_⟩, hfresh.step⟩, ht, hopen⟩
    · rw [hread, ho]
      simp only [Bind.bind, StateT.bind, get, getThe, MonadStateOf.get, StateT.get, pure, ho]
      exact hfresh.result
    · simp only [Bind.bind, StateT.bind, get, getThe, MonadStateOf.get, StateT.get, pure, ho]
      exact hfresh.bench

theorem quietly_reference (h : w.Ready s) {n : Name} (hn : n ∈ w.declared) (start : Text) :
    w.Quietly (reference w.source n.text start) (n.build w.inline) s := by
  have hunfold : reference w.source n.text start s = (do
      let r ← ruleNamed w.source n.text start
      markUsed r
      let a ← get
      let o ← sound (inlined? a.store (.int w.limit) r)
      mention n.text r o : Reader Pattern) s := by
    simp only [reference, Bind.bind, EStateM.bind, get_apply, h.inside hn, if_true]
    rfl
  have hmain : w.Quietly (do
      let r ← ruleNamed w.source n.text start
      markUsed r
      let a ← get
      let o ← sound (inlined? a.store (.int w.limit) r)
      mention n.text r o : Reader Pattern) (n.build w.inline) s := by
    refine (quietly_ruleNamed h hn start).bind fun s₁ h₁ => ?_
    refine (quietly_markUsed h₁.step.ready _).bind fun s₂ h₂ => ?_
    have hcall := h₂.step.grown.allowed.call _ (call_of_ruleNamed h hn h₁.result)
    exact quietly_inlined h₂.step.ready n hcall
  obtain ⟨s', hr, ht, ho⟩ := hmain
  exact ⟨s', ⟨⟨hunfold.trans hr.result, hr.bench⟩, hr.step⟩, ht, ho⟩

/-- The reader reads the tokens and makes of them what the builder makes, if what follows them is as
told. -/
def Reads (w : Setting) (x : Reader α) (ls : List Lexeme) (m : Build α)
    (follow : List Lexeme → Prop) : Prop :=
  ∀ s more, w.Ready s → Stream (ls ++ more) s.rest → follow more → Fit w.capacity w.declared
    s.opened ls → ∃ s', w.Runs x m s s' ∧ s'.opened = s.opened + opens ls ∧ Stream more s'.rest

def Leaves (w : Setting) (x : Reader α) (m : Build α) (s : State) (rest : Text) : Prop :=
  ∃ s', w.Runs x m s s' ∧ s'.rest = rest ∧ s'.opened = s.opened

theorem Quietly.after_advance {x : Reader α} {m : Build α} {rest : Text} (h : w.Ready s)
    (hx : w.Quietly x m { s with rest := rest }) :
    w.Leaves (advance rest >>= fun _ => x) m s rest := by
  obtain ⟨s', hr, ht, ho⟩ := hx
  exact ⟨s', hr.advance h, ht, ho⟩

theorem quietly_newToken (h : w.Ready s) (f : Nat → Pattern) :
    w.Quietly (freshId >>= fun id => token (f id))
      (Build.fresh >>= fun id => Build.skipping (f id)) s :=
  (quietly_freshId h).bind fun _ hr => quietly_token hr.step.ready _

theorem leaves_literal (h : w.Ready s) (how : Comparison) (t rest : Text) :
    w.Leaves (literal w.source how false (Text.asLiteral t ++ rest))
      (do Build.skipping (← (Atom.literal how t).build)) s rest := by
  have hread : read w.source (Token.literal false (Text.asLiteral t ++ rest)) =
      (advance rest >>= fun _ => pure t) := by
    rw [literal_asLiteral]
    rfl
  have htoken := quietly_newToken (step_rest h rest).ready fun id => .text id how t
  simp only [literal, hread]
  exact htoken.after_advance h

theorem leaves_class (h : w.Ready s) (members : RuneSet) (negated : Bool) (start rest : Text) :
    w.Leaves (characterClass w.source start ((Text.asClass members.ranges negated).tail ++ rest))
      (do Build.skipping (← (Atom.set members negated).build)) s rest := by
  have hread :
      read w.source (Token.classAfter start ((Text.asClass members.ranges negated).tail ++ rest)) =
      (advance rest >>= fun _ => pure (members, negated)) := by
    rw [classAfter_asClass]
    rfl
  have htoken :=
    quietly_newToken (step_rest h rest).ready fun id => .set id members (.ofBool negated)
  simp only [characterClass, hread]
  exact htoken.after_advance h

theorem Leaves.ahead {k : Text → Reader α} {m : Build α} {t rest : Text} (h : w.Ready s)
    (hskip : skipBlanks false s.rest = t) (hk : w.Leaves (k t) m { s with rest := t } rest) :
    w.Leaves (ahead >>= k) m s rest := by
  subst hskip
  obtain ⟨s', hr, ht⟩ := hk
  exact ⟨s', .ahead h hr, ht⟩

theorem Leaves.congr {x y : Reader α} {m : Build α} {rest : Text} (h : w.Leaves y m s rest)
    (he : x s = y s) : w.Leaves x m s rest := by
  obtain ⟨s', hr, ht⟩ := h
  exact ⟨s', ⟨⟨he.trans hr.result, hr.bench⟩, hr.step⟩, ht⟩

theorem leaves_backReference (h : w.Ready s) (how : Comparison) {number : Nat} {rest : Text}
    (hfit : (Lexeme.atom (.backref how number)).Fits w.capacity w.declared s.opened)
    (hb : Boundary rest) :
    w.Leaves (backReference w.source how ('$'.toNat :: (Text.numeral number ++ rest)) >>= token)
      (do Build.skipping (← (Atom.backref how number).build)) s rest := by
  obtain ⟨hpos, hopened, hlen⟩ := hfit
  have hdigits := Text.isAsciiDigit_of_mem_numeral number
  have htake : (Text.numeral number ++ rest).takeWhile Text.isAsciiDigit = Text.numeral number :=
    takeWhile_append_stop hdigits hb.not_digit
  have hdrop : (Text.numeral number ++ rest).dropWhile Text.isAsciiDigit = rest :=
    dropWhile_append_stop hdigits hb.not_digit
  have hvalue : Text.decimal (Text.numeral number) = .ok number := by
    rw [decimal_of_digits hdigits hlen, Text.numeralValue_numeral]
  have hne : (Text.numeral number).isEmpty = false := by
    simpa using numeral_ne_nil number
  have htoken := quietly_newToken (step_rest h rest).ready fun id => .backref id how (number - 1)
  refine (htoken.after_advance h).congr ?_
  have hrange : 1 ≤ number ∧ number ≤ s.opened := ⟨hpos, hopened⟩
  simp only [backReference, List.drop_succ_cons, List.drop_zero, htake, hdrop, hne, hvalue,
    Bool.false_eq_true, if_false, mapError_ok, sound, Bind.bind, EStateM.bind, pure, EStateM.pure,
    Grammar.advance, modify_apply, get_apply, hrange, and_self, if_true]
  rfl

theorem named?_none {name : Text} (hs : Pattern.namedSet? name = none)
    (h : ∀ n ∈ ["n", "letter", "lower", "upper", "title", "white", "ident"],
      name ≠ Text.ofString n) : named? name = pure none := by
  simp only [List.mem_cons, List.not_mem_nil, or_false, forall_eq_or_imp, forall_eq] at h
  obtain ⟨h₁, h₂, h₃, h₄, h₅, h₆, h₇⟩ := h
  simp only [named?, hs, if_neg h₁, if_neg h₂, if_neg h₃, if_neg h₄, if_neg h₅,
    if_neg h₆, if_neg h₇]

theorem leaves_named (h : w.Ready s) {name start rest : Text} {p : Pattern}
    (hl : ∀ c ∈ name, isLetter c) (hb : Boundary rest) (hn : named? name = pure (some p)) :
    w.Leaves (builtin w.source start (name ++ rest)) (Build.skipping p) s rest := by
  have htake : (name ++ rest).takeWhile isLetter = name := takeWhile_append_stop hl hb.not_letter
  have hdrop : (name ++ rest).drop name.length = rest := List.drop_left
  have htoken := quietly_token (step_rest h rest).ready p
  refine (htoken.after_advance h).congr ?_
  simp only [builtin, htake, hn, pure_bind, hdrop]

theorem leaves_escape (h : w.Ready s) {t start rest : Text} {c : Nat}
    (hn : named? (t.takeWhile isLetter) = pure none)
    (hknown : 1 < (t.takeWhile isLetter).length → (t.takeWhile isLetter).head? = some 'x'.toNat ∨
      (t.takeWhile isLetter).head? = some 'u'.toNat) (he : escape? t = some (c, rest)) :
    w.Leaves (builtin w.source start t)
      (Build.fresh >>= fun id => Build.skipping (.char id c)) s rest := by
  have htoken := quietly_newToken (step_rest h rest).ready fun id => .char id c
  refine (htoken.after_advance h).congr ?_
  have hnot : ¬ (1 < (t.takeWhile isLetter).length ∧ (t.takeWhile isLetter).head? ≠ some 'x'.toNat ∧
      (t.takeWhile isLetter).head? ≠ some 'u'.toNat) := by
    rintro ⟨hlong, hx, hu⟩
    rcases hknown hlong with h | h
    · exact hx h
    · exact hu h
  simp only [builtin, hn, pure_bind, if_neg hnot, he]

theorem mem_of_letterEscape? {l c : Nat} (h : letterEscape? l = some c) :
    l ∈ Text.ofString "nlrctfvabe" := by
  have hmem : l = 'n'.toNat ∨ l = 'l'.toNat ∨ l = 'r'.toNat ∨ l = 'c'.toNat ∨ l = 't'.toNat ∨
      l = 'f'.toNat ∨ l = 'v'.toNat ∨ l = 'a'.toNat ∨ l = 'b'.toNat ∨ l = 'e'.toNat := by
    by_contra hno
    simp only [not_or] at hno
    simp only [letterEscape?, hno, or_self, if_false, reduceCtorEq] at h
  rcases hmem with rfl | rfl | rfl | rfl | rfl | rfl | rfl | rfl | rfl | rfl <;> decide

theorem hexNumeral_four (c : Nat) : ∃ d e, Text.hexNumeral 4 c = d :: e ∧ d ≠ 'p'.toNat := by
  refine ⟨_, _, rfl, ?_⟩
  have hall : ∀ k ∈ List.range 16, Text.hexDigit k ≠ 'p'.toNat := by decide
  exact hall _ (List.mem_range.2 (Nat.mod_lt _ (by omega)))

theorem named?_escape (e : Escape) {rest : Text} (hb : Boundary rest) :
    named? ((e.text ++ rest).takeWhile isLetter) = pure none ∧
      (1 < ((e.text ++ rest).takeWhile isLetter).length →
        ((e.text ++ rest).takeWhile isLetter).head? = some 'x'.toNat ∨
          ((e.text ++ rest).takeWhile isLetter).head? = some 'u'.toNat) ∧
      (e.text ++ rest).takeWhile isLetter ≠ Text.ofString "skip" := by
  have nameless {t : Text} (h : t.takeWhile isLetter = []) :
      named? (t.takeWhile isLetter) = pure none ∧
      (1 < (t.takeWhile isLetter).length → (t.takeWhile isLetter).head? = some 'x'.toNat ∨
        (t.takeWhile isLetter).head? = some 'u'.toNat) ∧
      t.takeWhile isLetter ≠ Text.ofString "skip" := by
    rw [h]
    exact ⟨rfl, by simp, by decide⟩
  cases e with
  | letter l c hl other =>
    have hmem := mem_of_letterEscape? hl
    have hletter : isLetter l := by
      have hall : ∀ k ∈ Text.ofString "nlrctfvabe", isLetter k := by decide
      exact hall l hmem
    have htake : (Escape.text (.letter l c hl other) ++ rest).takeWhile isLetter = [l] :=
      takeWhile_append_stop (by simpa [Escape.text] using hletter) hb.not_letter
    rw [htake]
    refine ⟨?_, by simp, ?_⟩
    · have hall : ∀ k ∈ Text.ofString "lrctfvbe", named? [k] = pure none := by
        intro k hk
        have hcases : k = 'l'.toNat ∨ k = 'r'.toNat ∨ k = 'c'.toNat ∨ k = 't'.toNat ∨
            k = 'f'.toNat ∨ k = 'v'.toNat ∨ k = 'b'.toNat ∨ k = 'e'.toNat := by
          simpa [Text.ofString] using hk
        rcases hcases with rfl | rfl | rfl | rfl | rfl | rfl | rfl | rfl <;> rfl
      apply hall
      simp [Text.ofString] at hmem other ⊢
      omega
    · exact fun h => absurd (congrArg List.length h) (by simp [Text.ofString])
  | byte c =>
    have htake : (Escape.text (.byte c) ++ rest).takeWhile isLetter =
        'x'.toNat :: (Text.hexNumeral 2 c ++ rest).takeWhile isLetter := rfl
    rw [htake]
    refine ⟨named?_none ?_ fun n hn => ?_, fun _ => .inl rfl, fun h =>
      absurd (List.cons.inj h).1 (by decide)⟩
    · cases (Text.hexNumeral 2 c ++ rest).takeWhile isLetter <;> rfl
    · intro h
      have hall : ∀ n ∈ ["n", "letter", "lower", "upper", "title", "white", "ident"],
          (Text.ofString n).head? ≠ some 'x'.toNat := by decide
      exact hall n hn (by rw [← h]; rfl)
  | unit c =>
    obtain ⟨d, t, hd, hp⟩ := hexNumeral_four c
    have htake : (Escape.text (.unit c) ++ rest).takeWhile isLetter =
        'u'.toNat :: (d :: t ++ rest).takeWhile isLetter := by
      rw [← hd]
      rfl
    have hsecond : ((d :: t ++ rest).takeWhile isLetter).head? ≠ some 'p'.toNat := by
      rw [List.cons_append, List.takeWhile_cons]
      split
      · simpa using hp
      · simp
    rw [htake]
    refine ⟨named?_none ?_ fun n hn => ?_, fun _ => .inr rfl, fun h =>
      absurd (List.cons.inj h).1 (by decide)⟩
    · cases (d :: t ++ rest).takeWhile isLetter <;> rfl
    · intro h
      have hall : ∀ n ∈ ["n", "letter", "lower", "upper", "title", "white", "ident"],
          (Text.ofString n).head? ≠ some 'u'.toNat ∨
          (Text.ofString n).tail.head? = some 'p'.toNat := by decide
      rcases hall n hn with hne | heq
      · exact hne (by rw [← h]; rfl)
      · rw [← h] at heq
        exact hsecond heq
  | number c =>
    obtain ⟨d, t, hd, hdigit⟩ := numeral_eq_cons c
    apply nameless
    simp [Escape.text, hd, not_letter_of_digit hdigit]
  | symbol c hc =>
    apply nameless
    simp only [isSymbol, Bool.and_eq_true, Bool.not_eq_true'] at hc
    simp [Escape.text, hc.1]

theorem escape?_text (e : Escape) {rest : Text} (hb : Boundary rest) :
    escape? (e.text ++ rest) = some (e.rune, rest) := by
  cases e with
  | letter l c hl other => simp only [Escape.text, List.singleton_append, escape?, hl, Escape.rune]
  | byte c => exact escape?_hex2 c.isLt rest
  | unit c => exact escape?_hex4 c.isLt rest
  | number c => exact escape?_numeral c.isLt hb.not_digit
  | symbol c hc => exact escape?_symbol hc rest

theorem Quietly.before {x : Reader α} {f : α → Reader β} {m : Build α} {k : α → Build β}
    (h : w.Quietly x m s) (rest : Text)
    (h' : ∀ s', w.Runs x m s s' → w.Leaves (f (m s.bench).1) (k (m s.bench).1) s' rest) :
    w.Leaves (x >>= f) (m >>= k) s rest := by
  obtain ⟨s₁, hr, -, ho⟩ := h
  obtain ⟨s₂, hr', ht', ho'⟩ := h' s₁ hr
  exact ⟨s₂, hr.bind hr', ht', ho'.trans ho⟩

theorem quietly_ident (h : w.Ready s) : w.Quietly (named? (Text.ofString "ident"))
    (do
      let setId ← Build.fresh
      let starId ← Build.fresh
      return some (.ident setId starId (← Build.fresh))) s := by
  refine (quietly_freshId h).bind fun s₁ h₁ => ?_
  refine (quietly_freshId h₁.step.ready).bind fun s₂ h₂ => ?_
  exact quietly_fresh h₂.step.ready _

theorem takeWhile_builtin (b : Builtin) {rest : Text} (hb : Boundary rest) :
    (b.text ++ rest).takeWhile isLetter ≠ Text.ofString "skip" := by
  have named {name : Text} (hl : ∀ c ∈ name, isLetter c) (hn : name ≠ Text.ofString "skip") :
      (name ++ rest).takeWhile isLetter ≠ Text.ofString "skip" := by
    rw [takeWhile_append_stop hl hb.not_letter]
    exact hn
  cases b with
  | newline => exact named (by decide) (by decide)
  | set name p hp =>
    unfold Pattern.namedSet? at hp
    split at hp <;> cases hp <;> exact named (by decide) (by decide)
  | category c => cases c <;> exact named (by decide) (by decide)
  | ident => exact named (by decide) (by decide)
  | escape e => exact (named?_escape e hb).2.2

theorem leaves_builtin (h : w.Ready s) (b : Builtin) (start : Text) {rest : Text}
    (hb : Boundary rest) :
    w.Leaves (builtin w.source start (b.text ++ rest)) (do Build.skipping (← b.build)) s rest := by
  cases b with
  | newline => exact leaves_named h (by decide) hb rfl
  | set name p hp =>
    unfold Pattern.namedSet? at hp
    split at hp <;> cases hp <;> exact leaves_named h (by decide) hb rfl
  | category c => cases c <;> exact leaves_named h (by decide) hb rfl
  | ident =>
    have htake : (Text.ofString "ident" ++ rest).takeWhile isLetter = Text.ofString "ident" :=
      takeWhile_append_stop (by decide) hb.not_letter
    have hdrop : (Text.ofString "ident" ++ rest).drop (Text.ofString "ident").length = rest :=
      List.drop_left
    have hread := (quietly_ident h).before (f := fun o => match o with
        | some p => advance rest >>= fun _ => token p
        | none =>
          failAt w.source start .badEscape) (k := fun o => Build.skipping (o.getD .empty)) rest
      fun s₁ h₁ =>
        (quietly_token (step_rest h₁.step.ready rest).ready _).after_advance h₁.step.ready
    refine hread.congr ?_
    simp only [builtin, Builtin.text, htake, hdrop]
    rfl
  | escape e =>
    obtain ⟨hn, hknown, -⟩ := named?_escape e hb
    exact leaves_escape h hn hknown (escape?_text e hb)

theorem reads_of_leaves {x : Reader α} {m : Build α} {l : Lexeme} (hl : l.opens = 0)
    (hx : ∀ s ls u rest, w.Ready s → Front l ls s.rest u rest →
      l.Fits w.capacity w.declared s.opened → w.Leaves x m s rest) :
    w.Reads x [l] m fun _ => True := by
  intro s more h hs _ hfit
  obtain ⟨u, rest, hf⟩ := hs.front
  obtain ⟨s', hr, ht, ho⟩ := hx s more u rest h hf hfit.1
  refine ⟨s', hr, ?_, ht ▸ hf.more⟩
  simp [ho, opens, hl]

theorem reads_atom (fuel : Nat) (a : Atom) :
    w.Reads (primary w.source (fuel + 1)) [.atom a] (do Build.skipping (← a.build))
      fun _ => True := by
  refine reads_of_leaves rfl fun s ls u rest h hf hfit => ?_
  obtain rfl := hf.spells
  have h₁ := (step_rest h (a.text ++ rest)).ready
  have simple (p : Pattern) := (quietly_token (step_rest h₁ rest).ready p).after_advance h₁
  rw [primary]
  refine .ahead h hf.skip ?_
  cases a with
  | literal how t => cases how <;> exact leaves_literal h₁ _ t rest
  | set members negated => exact leaves_class h₁ members negated _ rest
  | any => exact simple .any
  | anyRune => exact simple .anyRune
  | startAnchor => exact simple .startAnchor
  | endAnchor =>
    have hb : Boundary rest := hf.apart.boundary (by simp [Lexeme.isClosed]) (by simp)
    have hdigit : ¬ rest.head?.any Text.isAsciiDigit = true := by
      intro hany
      obtain ⟨c, hc, hd⟩ := (Option.any_eq_true _ _).1 hany
      exact hb.not_digit c hc hd
    have htoken :=
      (quietly_newToken (step_rest h₁ rest).ready fun id => .endAnchor id).after_advance h₁
    refine htoken.congr ?_
    change (if rest.head?.any Text.isAsciiDigit then _ else _ : Reader Pattern) _ = _
    rw [if_neg hdigit]
    rfl
  | backref how number =>
    have hb : Boundary rest := hf.apart.boundary (by simp [Lexeme.isClosed]) (by simp)
    have hread := leaves_backReference h₁ how hfit hb
    cases how with
    | exact =>
      obtain ⟨d, t, hd, hdigit⟩ := numeral_eq_cons number
      have hnext : (Text.numeral number ++ rest).head?.any Text.isAsciiDigit = true := by
        rw [hd]
        exact hdigit
      refine hread.congr ?_
      change (if (Text.numeral number ++ rest).head?.any Text.isAsciiDigit then _ else _ :
        Reader Pattern) _ = _
      rw [if_pos hnext]
      rfl
    | ignoreCase => exact hread
    | ignoreStyle => exact hread
  | builtin b =>
    have hb : Boundary rest := hf.apart.boundary (by simp [Lexeme.isClosed]) (by simp)
    refine (leaves_builtin h₁ b ((Atom.builtin b).text ++ rest) hb).congr ?_
    change (if (b.text ++ rest).takeWhile isLetter = Text.ofString "skip" then _ else _ :
      Reader Pattern) _ = _
    rw [if_neg (takeWhile_builtin b hb)]
    rfl

theorem reads_name (fuel : Nat) (n : Name) :
    w.Reads (primary w.source (fuel + 1)) [.name n] (n.build w.inline) fun _ => True := by
  refine reads_of_leaves rfl fun s ls u rest h hf hfit => ?_
  obtain rfl := hf.spells
  have hb : Boundary rest := hf.apart.boundary (by simp [Lexeme.isClosed]) (by simp)
  have h₁ := (step_rest h (n.text ++ rest)).ready
  have href := (quietly_reference (step_rest h₁ rest).ready hfit (n.text ++ rest)).after_advance h₁
  obtain ⟨c, t, hn, hc, ht⟩ := n.eq_cons
  have hname := name?_eq n fun c hc => (hb.head c hc).1
  -- What follows the first letter makes it no mark of a literal or a back reference.
  have hnext : ∀ x ∈ (t ++ rest).head?, isQuote x = false ∧ x ≠ '$'.toNat := by
    cases t with
    | nil => exact fun x hx => ⟨by simpa using (hb.head x hx).2.1, (hb.head x hx).2.2.1⟩
    | cons d t =>
      rintro _ ⟨rfl⟩
      have hd := ht d (by simp)
      rw [isNameRune_iff] at hd
      rw [← Bool.not_eq_true, isQuote_iff]
      simp only [Char.reduceToNat]
      omega
  have hquote : ¬ (t ++ rest).head?.any isQuote = true := by
    intro hany
    obtain ⟨x, hx, hq⟩ := (Option.any_eq_true _ _).1 hany
    simp [(hnext x hx).1] at hq
  have hdollar : ¬ (t ++ rest).head? = some '$'.toNat := fun hx => (hnext _ hx).2 rfl
  have hother : isQuote c = false ∧ c ≠ '$'.toNat ∧ c ≠ '('.toNat ∧ c ≠ '{'.toNat ∧ c ≠ '['.toNat ∧
      c ≠ '.'.toNat ∧ c ≠ '_'.toNat ∧ c ≠ '^'.toNat ∧ c ≠ '\\'.toNat := by
    rw [isLetter_iff] at hc
    rw [← Bool.not_eq_true, isQuote_iff]
    simp only [Char.reduceToNat]
    omega
  obtain ⟨h₀, h₂, h₃, h₄, h₅, h₆, h₇, h₈, h₉⟩ := hother
  rw [primary]
  refine .ahead h hf.skip (href.congr ?_)
  rw [hn, List.cons_append] at hname ⊢
  simp only [h₀, hquote, hdollar, if_neg h₂, if_neg h₃, if_neg h₄, if_neg h₅, if_neg h₆, if_neg h₇,
    if_neg h₈, if_neg h₉, and_false, Bool.false_eq_true, if_false, hname]

end Setting

end Grammar

end PegMatch

import PegMatch.Grammar.Reader
import PegMatch.Proofs.Nodes

set_option autoImplicit false

namespace PegMatch

section

variable {ε σ : Type}

theorem get_apply (s : σ) : (get : EStateM ε σ σ) s = .ok s s := rfl

theorem set_apply (s t : σ) : (set t : EStateM ε σ PUnit) s = .ok ⟨⟩ t := rfl

theorem modify_apply (f : σ → σ) (s : σ) : (modify f : EStateM ε σ PUnit) s = .ok ⟨⟩ (f s) := rfl

theorem ok_of_bindExcept {α β : Type} {x : Except ε α} {f : α → Except ε β} {b : β}
    (h : x >>= f = .ok b) : ∃ a, x = .ok a ∧ f a = .ok b := by
  cases x with
  | error e => cases h
  | ok a => exact ⟨a, rfl, h⟩

end

namespace Grammar

/-- What may stand in a tree after what was read so far: calls of the rules named, captures with a
slot that was given out, and back references to such slots. Rules below `first` belong to other
patterns. -/
def State.allowed (first : Nat) (s : State) : Allowed where
  call r := first ≤ r ∧ r < s.store.rules.size
  capture id := id < s.store.fresh ∧ ∃ slot, s.store.slot? id = some slot ∧ slot < s.opened
  backref slot := slot < s.opened

structure RuleSound (A : Allowed) (rule : Rule) : Prop where
  proper : rule.proper
  body : ∀ p, rule.body = some p → p.Normal A
  declared : rule.declared → ∃ p, rule.body = some p

/-- The invariant of reading, with at most `most` captures. -/
structure Sound (first most : Nat) (s : State) : Prop where
  names : s.names.map Prod.snd = List.range' first s.names.length
  size : s.store.rules.size = first + s.names.length
  rules : ∀ r rule, first ≤ r → s.store.rules[r]? = some rule → RuleSound (s.allowed first) rule
  opened : s.opened ≤ most
  skip : s.skip.Normal (s.allowed first)
  /-- Outside a grammar no rule is named. -/
  outside : s.inGrammar = false → s.names = []

def Declared (s : State) (r : Nat) : Prop :=
  ∃ rule, s.store.rules[r]? = some rule ∧ rule.declared

/-- What reading an expression may change: more may be referred to, but no rule is declared. -/
structure Extends (first : Nat) (s s' : State) : Prop where
  allowed : (s.allowed first).Less (s'.allowed first)
  declared : ∀ r, Declared s' r ↔ Declared s r
  inGrammar : s'.inGrammar = s.inGrammar

variable {first most : Nat} {s s' s'' : State} {α β : Type}

theorem Extends.refl (s : State) : Extends first s s :=
  ⟨.refl _, fun _ => .rfl, rfl⟩

theorem Extends.trans (h : Extends first s s') (h' : Extends first s' s'') : Extends first s s'' :=
  ⟨h.allowed.trans h'.allowed, fun r => (h'.declared r).trans (h.declared r),
    h'.inGrammar.trans h.inGrammar⟩

/-- Whatever the reader returns from a sound state is as told, and so is the state it leaves. -/
def Soundly (first most : Nat) (x : Reader α) (s : State) (R : α → State → Prop) : Prop :=
  Sound first most s → ∀ a s', x s = .ok a s' → Sound first most s' ∧ Extends first s s' ∧ R a s'

theorem soundly_bind {x : Reader α} {f : α → Reader β} {R : α → State → Prop} {Q : β → State → Prop}
    (hx : Soundly first most x s R)
    (hf : ∀ a s', Extends first s s' → R a s' → Soundly first most (f a) s' Q) :
    Soundly first most (x >>= f) s Q := by
  intro hs b s'' h
  simp only [bind, EStateM.bind] at h
  split at h
  · next a s' ha =>
    obtain ⟨hs', he, hr⟩ := hx hs a s' ha
    obtain ⟨hs'', he', hq⟩ := hf a s' he hr hs' b s'' h
    exact ⟨hs'', he.trans he', hq⟩
  · cases h

theorem soundly_pure {a : α} {R : α → State → Prop} (h : Sound first most s → R a s) :
    Soundly first most (pure a) s R := by
  intro hs b s' hb
  cases hb
  exact ⟨hs, .refl s, h hs⟩

theorem soundly_get {R : State → State → Prop} (h : Sound first most s → R s s) :
    Soundly first most (get : Reader State) s R := by
  intro hs b s' hb
  cases hb
  exact ⟨hs, .refl s, h hs⟩

theorem soundly_modify {f : State → State} {R : PUnit → State → Prop} (hf : Sound first most s →
    Sound first most (f s) ∧ Extends first s (f s)) (h : Sound first most s → R ⟨⟩ (f s)) :
    Soundly first most (modify f : Reader PUnit) s R := by
  intro hs b s' hb
  cases hb
  exact ⟨(hf hs).1, (hf hs).2, h hs⟩

theorem soundly_set {t : State} {R : PUnit → State → Prop} (hf : Sound first most s →
    Sound first most t ∧ Extends first s t) (h : Sound first most s → R ⟨⟩ t) :
    Soundly first most (set t : Reader PUnit) s R := by
  intro hs b s' hb
  cases hb
  exact ⟨(hf hs).1, (hf hs).2, h hs⟩

theorem soundly_failAt {src : Source} {rest : Text} {m : Mistake} {R : α → State → Prop} :
    Soundly first most (failAt src rest m) s R := by
  intro _ a s' h
  cases h

theorem soundly_fail {src : Source} {m : Mistake} {R : α → State → Prop} :
    Soundly first most (fail src m) s R := by
  intro _ a s' h
  cases h

theorem soundly_tooDeep {R : α → State → Prop} : Soundly first most tooDeep s R := by
  intro _ a s' h
  cases h

theorem soundly_ite {c : Prop} [Decidable c] {x y : Reader α} {R : α → State → Prop}
    (hx : Soundly first most x s R) (hy : Soundly first most y s R) :
    Soundly first most (if c then x else y) s R := by
  split
  · exact hx
  · exact hy

theorem RuleSound.mono {A B : Allowed} {rule : Rule} (h : RuleSound A rule) (hAB : A.Less B) :
    RuleSound B rule :=
  ⟨h.proper, fun p hp => (h.body p hp).mono hAB, h.declared⟩

theorem Sound.grow (hs : Sound first most s) (hl : (s.allowed first).Less (s'.allowed first))
    (hn : s'.names = s.names) (hr : s'.store.rules = s.store.rules) (ho : s'.opened ≤ most)
    (hk : s'.skip = s.skip) (hg : s'.inGrammar = s.inGrammar) :
    Sound first most s' ∧ Extends first s s' := by
  have hnames := hn ▸ hs.names
  have hsize := hn ▸ hr ▸ hs.size
  refine ⟨⟨hnames, hsize, fun r rule hf hrule => ?_, ho, ?_, ?_⟩, hl, fun r => ?_, hg⟩
  · rw [hr] at hrule
    exact (hs.rules r rule hf hrule).mono hl
  · rw [hk]
    exact hs.skip.mono hl
  · rw [hg, hn]
    exact hs.outside
  · simp only [Declared, hr]

theorem soundly_advance (rest : Text) : Soundly first most (advance rest) s fun _ _ => True :=
  soundly_modify (fun hs => hs.grow (Extends.refl s).allowed rfl rfl hs.opened rfl rfl)
    fun _ => trivial

theorem soundly_ahead : Soundly first most ahead s fun _ _ => True := by
  refine soundly_bind (soundly_get (R := fun _ _ => True) fun _ => trivial) fun _ _ _ _ => ?_
  refine soundly_bind (soundly_advance _) fun _ _ _ _ => ?_
  exact soundly_bind (soundly_get (R := fun _ _ => True) fun _ => trivial) fun _ _ _ _ =>
    soundly_pure fun _ => trivial

theorem soundly_read {src : Source} {token : Except Token.Trouble (α × Text)} :
    Soundly first most (read src token) s fun _ _ => True := by
  unfold read
  split
  · exact soundly_bind (soundly_advance _) fun _ _ _ _ => soundly_pure fun _ => trivial
  · exact soundly_failAt

theorem soundly_sound {e : Except Fault α} {R : α → State → Prop}
    (h : ∀ a, e = .ok a → Sound first most s → R a s) : Soundly first most (sound e) s R := by
  cases e with
  | ok a => exact soundly_pure fun hs => h a rfl hs
  | error f => intro _ a s' ha; cases ha

theorem less_fresh (s : State) : (s.allowed first).Less
    (({ s with store := { s.store with fresh := s.store.fresh + 1 } } : State).allowed first) :=
  ⟨fun _ h => h, fun _ ⟨h, hk⟩ => ⟨Nat.lt_succ_of_lt h, hk⟩, fun _ h => h⟩

theorem soundly_freshId : Soundly first most freshId s fun id s' => id < s'.store.fresh := by
  intro hs id s' h
  cases h
  obtain ⟨hs', he⟩ := hs.grow (less_fresh s) rfl rfl hs.opened rfl rfl
  exact ⟨hs', he, Nat.lt_succ_self _⟩

theorem soundly_captureId {slot : Nat} (h : slot < s.opened) :
    Soundly first most (captureId slot) s fun id s' => (s'.allowed first).capture id := by
  intro hs id s' hid
  cases hid
  have hl : (s.allowed first).Less (({ s with store :=
      ({ s.store with fresh := s.store.fresh + 1 } : Store).setSlot s.store.fresh slot } :
        State).allowed first) := by
    refine ⟨fun _ h => h, fun id h => ?_, fun _ h => h⟩
    obtain ⟨hlt, k, hk, ho⟩ := h
    refine ⟨Nat.lt_succ_of_lt hlt, k, ?_, ho⟩
    have hne : (id == s.store.fresh) = false := by simp; omega
    simpa [Store.slot?, Store.setSlot, List.lookup_cons, hne] using hk
  obtain ⟨hs', he⟩ := hs.grow hl rfl rfl hs.opened rfl rfl
  exact ⟨hs', he, Nat.lt_succ_self _, slot, by simp [Store.slot?, Store.setSlot], h⟩

abbrev Tree (first : Nat) (p : Pattern) (s : State) : Prop :=
  p.Normal (s.allowed first)

theorem Extends.tree (he : Extends first s s') {p : Pattern} (h : Tree first p s) :
    Tree first p s' :=
  h.mono he.allowed

theorem soundly_token {p : Pattern} (h : Tree first p s) :
    Soundly first most (token p) s (Tree first) := by
  refine soundly_bind (soundly_get (R := fun a s' => Tree first a.skip s' ∧ Tree first p s')
    fun hs => ⟨hs.skip, h⟩) fun a s' _ ha => ?_
  split
  · exact soundly_pure fun _ => ha.2
  · refine soundly_bind soundly_freshId fun id s'' he _ => soundly_pure fun _ => ?_
    refine Pattern.normal_seq id fun q hq => ?_
    simp only [List.mem_cons, List.not_mem_nil, or_false] at hq
    rcases hq with rfl | rfl
    · exact he.tree ha.1
    · exact he.tree ha.2

@[simp] theorem mapError_ok {ε ε' : Type} (f : ε → ε') (a : α) :
    (Except.ok a : Except ε α).mapError f = .ok a :=
  rfl

@[simp] theorem mapError_error {ε ε' : Type} (f : ε → ε') (e : ε) :
    (Except.error e : Except ε α).mapError f = .error (f e) :=
  rfl

theorem mapError_eq_ok_iff {ε ε' : Type} {f : ε → ε'} {x : Except ε α} {a : α} :
    x.mapError f = .ok a ↔ x = .ok a := by
  cases x <;> simp

def Source.Admits (src : Source) (most : Nat) : Prop :=
  ∀ c, src.capacity.int? = some c → c.toNat ≤ most

theorem admits_capacity (src : Source) : src.Admits (src.capacity.int?.getD 0).toNat := by
  intro c hc
  simp [hc]

theorem soundly_openCapture {src : Source} (hm : src.Admits most) :
    Soundly first most (openCapture src) s fun slot s' => slot < s'.opened := by
  refine soundly_bind (soundly_get (R := fun a s' => a = s') fun _ => rfl) fun a s₁ _ ha => ?_
  subst ha
  refine soundly_bind (soundly_sound (R := fun n s' => s' = a ∧ src.capacity.int? = some n)
    fun n hn _ => ?_) fun n s₂ _ hn => ?_
  · refine ⟨rfl, ?_⟩
    cases hc : src.capacity.int? <;> simp_all [Datum.limit]
  · obtain ⟨rfl, hn⟩ := hn
    split
    · exact soundly_fail
    · next hlt =>
      have hle := hm n hn
      have hl : (s₂.allowed first).Less
          (({ s₂ with opened := s₂.opened + 1 } : State).allowed first) :=
        ⟨fun _ h => h, fun _ h => ⟨h.1, h.2.imp fun _ hk => ⟨hk.1, Nat.lt_succ_of_lt hk.2⟩⟩,
          fun _ h => Nat.lt_succ_of_lt h⟩
      refine soundly_bind (soundly_set (R := fun _ s' => s₂.opened < s'.opened)
        (fun hs => hs.grow hl rfl rfl (by simp only; omega) rfl rfl) fun _ => Nat.lt_succ_self _)
        fun _ _ _ h => soundly_pure fun _ => h

theorem mem_of_lookup {name : Text} {names : List (Text × Nat)} {r : Nat}
    (h : names.lookup name = some r) : r ∈ names.map Prod.snd := by
  induction names with
  | nil => cases h
  | cons n names ih =>
    obtain ⟨k, v⟩ := n
    rw [List.lookup_cons] at h
    split at h
    · cases h; simp
    · exact List.mem_cons_of_mem _ (ih h)

theorem Sound.mem_names (hs : Sound first most s) {r : Nat} :
    r ∈ s.names.map Prod.snd ↔ (s.allowed first).call r := by
  rw [hs.names, List.mem_range'_1]
  simp only [State.allowed, hs.size]

theorem Sound.addRule (hs : Sound first most s) (hg : s.inGrammar) (name : Text)
    (place : Position) :
    let s' := { s with
      store := (s.store.addRule { name := name, place := place }).2
      names := s.names ++ [(name, s.store.rules.size)] }
    Sound first most s' ∧ Extends first s s' := by
  intro s'
  have hl : (s.allowed first).Less (s'.allowed first) :=
    ⟨fun _ h => ⟨h.1, by simpa [s', Store.addRule] using Nat.lt_succ_of_lt h.2⟩,
      fun _ h => h, fun _ h => h⟩
  refine ⟨⟨?_, ?_, fun r rule hf hr => ?_, hs.opened, hs.skip.mono hl, fun h => ?_⟩, hl,
    fun r => ?_, rfl⟩
  · simp [s', hs.names, hs.size, List.range'_concat]
  · simp [s', Store.addRule, hs.size, Nat.add_assoc]
  · simp only [s', Store.addRule, Array.getElem?_push] at hr
    split at hr
    · cases hr
      exact ⟨rfl, fun p hp => (by cases hp), fun h => (by cases h)⟩
    · exact (hs.rules r rule hf hr).mono hl
  · simp [s', hg] at h
  · simp only [Declared, s', Store.addRule, Array.getElem?_push]
    split
    · next hr => simp [hr]
    · exact .rfl

theorem soundly_ruleNamed {src : Source} {name start : Text} (hg : s.inGrammar) :
    Soundly first most (ruleNamed src name start) s fun r s' => (s'.allowed first).call r := by
  refine soundly_bind (soundly_get (R := fun a s' => a = s' ∧ Sound first most s')
    fun hs => ⟨rfl, hs⟩) fun a s₁ he₁ ha => ?_
  obtain ⟨rfl, hs⟩ := ha
  split
  · next r hr => exact soundly_pure fun _ => hs.mem_names.1 (mem_of_lookup hr)
  · obtain ⟨hs', he⟩ := hs.addRule (he₁.inGrammar ▸ hg) name (src.place start)
    refine soundly_bind
      (soundly_set (R := fun _ s' => (s'.allowed first).call a.store.rules.size)
        (fun _ => ⟨hs', he⟩) fun _ => hs'.mem_names.1 (by simp)) fun _ _ _ h =>
      soundly_pure fun _ => h

theorem Sound.modifyRule (hs : Sound first most s) (r : Nat) {f : Rule → Rule}
    (hf : ∀ rule, (f rule).proper = rule.proper ∧ (f rule).body = rule.body ∧
      (f rule).declared = rule.declared) :
    let s' := { s with store := s.store.modifyRule r f }
    Sound first most s' ∧ Extends first s s' := by
  intro s'
  have hl : (s.allowed first).Less (s'.allowed first) :=
    ⟨fun _ h => ⟨h.1, by simpa [s', Store.modifyRule] using h.2⟩, fun _ h => h, fun _ h => h⟩
  refine ⟨⟨hs.names, ?_, fun r' rule hr' hrule => ?_, hs.opened, hs.skip.mono hl, hs.outside⟩, hl,
    fun r' => ?_, rfl⟩
  · simpa [s', Store.modifyRule] using hs.size
  · simp only [s', Store.modifyRule, Array.getElem?_modify] at hrule
    split at hrule
    · obtain ⟨old, hold, rfl⟩ := Option.map_eq_some_iff.1 hrule
      have := (hs.rules r' old hr' hold).mono hl
      obtain ⟨h1, h2, h3⟩ := hf old
      exact ⟨h1 ▸ this.proper, fun p hp => this.body p (h2 ▸ hp), fun h =>
        h2 ▸ this.declared (h3 ▸ h)⟩
    · exact (hs.rules r' rule hr' hrule).mono hl
  · simp only [Declared, s', Store.modifyRule, Array.getElem?_modify]
    split
    · cases h : s.store.rules[r']? with
      | none => simp
      | some rule => simp [(hf rule).2.2]
    · exact .rfl

theorem soundly_markUsed (r : Nat) : Soundly first most (markUsed r) s fun _ _ => True :=
  soundly_modify (fun hs => hs.modifyRule r fun _ => ⟨rfl, rfl, rfl⟩) fun _ => trivial

theorem soundly_setPlace (r : Nat) (place : Position) :
    Soundly first most (setPlace r place) s fun _ _ => True :=
  soundly_modify (fun hs => hs.modifyRule r fun _ => ⟨rfl, rfl, rfl⟩) fun _ => trivial

theorem body_of_inlined {store : Store} {limit : Datum} {r : Nat} {p : Pattern}
    (h : inlined? store limit r = .ok (some p)) : store.body? r = .ok (some p) := by
  simp only [inlined?, bind, Except.bind] at h
  cases hb : store.body? r with
  | error f => simp [hb] at h
  | ok o =>
    cases o with
    | none => simp [hb] at h
    | some q =>
      simp only [hb] at h
      split at h
      · split at h
        · cases h
        · split at h
          · cases h
          · split at h <;> cases h
            rfl
      · cases h

theorem Sound.body (hs : Sound first most s) {r : Nat} {p : Pattern} (hr : (s.allowed first).call r)
    (h : s.store.body? r = .ok (some p)) : Tree first p s := by
  obtain ⟨hf, hlt⟩ := hr
  have hrule : s.store.rules[r]? = some s.store.rules[r] := Array.getElem?_eq_getElem hlt
  refine (hs.rules r _ hf hrule).body p ?_
  simp only [Store.body?, Store.rule, hrule, Option.getD_some] at h
  split at h
  · exact Except.ok.inj h
  · cases h

theorem soundly_reference {src : Source} {name start : Text} :
    Soundly first most (reference src name start) s (Tree first) := by
  refine soundly_bind (soundly_get (R := fun a s' => a = s') fun _ => rfl) fun a s₁ _ ha => ?_
  subst ha
  split
  · next hg =>
    refine soundly_bind (soundly_ruleNamed hg) fun r s₂ _ hr => ?_
    refine soundly_bind (soundly_markUsed r) fun _ s₃ he _ => ?_
    refine soundly_bind (soundly_get (R := fun a s' => a = s') fun _ => rfl) fun a s₄ he' ha => ?_
    subst ha
    have hcall := he'.allowed.call r (he.allowed.call r hr)
    refine soundly_bind (soundly_sound (R := fun o s' => s' = a ∧ ∀ p, o = some p → Tree first p s')
      fun o ho hs => ⟨rfl, ?_⟩) fun o s₅ _ ho => ?_
    · rintro p rfl
      exact hs.body hcall (body_of_inlined ho)
    · obtain ⟨rfl, ho⟩ := ho
      split
      · next p =>
        refine soundly_bind (soundly_modify (R := fun _ s' => Tree first p s')
          (fun hs => hs.grow (Extends.refl s₅).allowed rfl rfl hs.opened rfl rfl) fun _ => ho p rfl)
          fun _ _ _ h => soundly_pure fun _ => h
      · refine soundly_bind soundly_freshId fun id s₆ he _ => soundly_pure fun _ => ?_
        exact .leaf (he.allowed.call r hcall) rfl
  · exact soundly_failAt

theorem soundly_backReference {src : Source} {how : Comparison} {start : Text} :
    Soundly first most (backReference src how start) s (Tree first) := by
  simp only [backReference]
  split
  · exact soundly_failAt
  · refine soundly_bind (soundly_sound (R := fun _ _ => True) fun _ _ _ => trivial)
      fun n s₁ _ _ => ?_
    refine soundly_bind (soundly_advance _) fun _ s₂ _ _ => ?_
    refine soundly_bind (soundly_get (R := fun a s' => a = s') fun _ => rfl) fun a s₃ _ ha => ?_
    subst ha
    split
    · next hn =>
      refine soundly_bind soundly_freshId fun id s₄ he _ => soundly_pure fun _ => ?_
      exact .leaf (he.allowed.backref _ (by simp only [State.allowed]; omega)) rfl
    · exact soundly_failAt

theorem soundly_literal {src : Source} {how : Comparison} {verbatim : Bool} {t : Text} :
    Soundly first most (literal src how verbatim t) s (Tree first) := by
  refine soundly_bind soundly_read fun body s₁ _ _ => ?_
  exact soundly_bind soundly_freshId fun id s₂ _ _ =>
    soundly_token (Pattern.normal_text id how body)

theorem soundly_characterClass {src : Source} {start t : Text} :
    Soundly first most (characterClass src start t) s (Tree first) := by
  refine soundly_bind soundly_read fun body s₁ _ _ => ?_
  exact soundly_bind soundly_freshId fun id s₂ _ _ => soundly_token (Pattern.normal_set id _ _)

theorem soundly_suffixes (room : Nat) {p : Pattern} (h : Tree first p s) :
    Soundly first most (suffixes room p) s (Tree first) := by
  induction room generalizing p s with
  | zero => exact soundly_pure fun _ => h
  | succ room ih =>
    refine soundly_bind soundly_ahead fun t s₁ he _ => ?_
    split
    · split
      · refine soundly_bind (soundly_advance _) fun _ s₂ he₂ _ => ?_
        refine soundly_bind soundly_freshId fun id s₃ he₃ _ => ih ?_
        exact Pattern.normal_opt id (he₃.tree (he₂.tree (he.tree h)))
      · split
        · refine soundly_bind (soundly_advance _) fun _ s₂ he₂ _ => ?_
          refine soundly_bind soundly_freshId fun id s₃ he₃ _ => ih ?_
          exact Pattern.normal_repeated id (he₃.tree (he₂.tree (he.tree h)))
        · split
          · refine soundly_bind (soundly_advance _) fun _ s₂ he₂ _ => ?_
            refine soundly_bind soundly_freshId fun starId s₃ he₃ _ => ?_
            refine soundly_bind soundly_freshId fun id s₄ he₄ _ => ih ?_
            exact Pattern.normal_plus starId id (he₄.tree (he₃.tree (he₂.tree (he.tree h))))
          · exact soundly_pure fun _ => he.tree h
    · exact soundly_pure fun _ => he.tree h

theorem soundly_close {src : Source} {wanted opener : Nat} {start : Text} :
    Soundly first most (close src wanted opener start) s fun _ _ => True := by
  refine soundly_bind soundly_ahead fun t s₁ _ _ => ?_
  split
  · exact soundly_failAt
  · split
    · exact soundly_advance _
    · exact soundly_fail

theorem soundly_named {name : Text} :
    Soundly first most (named? name) s fun o s' => ∀ p, o = some p → Tree first p s' := by
  have simple {p : Pattern} (h : ∀ s, Tree first p s) :
      Soundly first most (pure (some p)) s fun o s' => ∀ p, o = some p → Tree first p s' := by
    refine soundly_pure fun _ q hq => ?_
    cases hq
    exact h s
  have category (c : Category) (s : State) : Tree first (.category c) s := .leaf trivial rfl
  unfold named?
  split
  · exact simple fun _ => .leaf trivial rfl
  · split
    · next hset => exact simple fun _ => Pattern.normal_namedSet hset
    · split
      · exact simple (category _)
      split
      · exact simple (category _)
      split
      · exact simple (category _)
      split
      · exact simple (category _)
      split
      · exact simple (category _)
      split
      · refine soundly_bind soundly_freshId fun setId s₁ _ _ => ?_
        refine soundly_bind soundly_freshId fun starId s₂ _ _ => ?_
        refine soundly_bind soundly_freshId fun id s₃ _ _ => soundly_pure fun _ p hp => ?_
        cases hp
        exact Pattern.normal_ident setId starId id
      · exact soundly_pure fun _ p hp => by cases hp

theorem soundly_builtin {src : Source} {start t : Text} :
    Soundly first most (builtin src start t) s (Tree first) := by
  refine soundly_bind soundly_named fun o s₁ _ ho => ?_
  split
  · next p =>
    exact soundly_bind (soundly_advance _) fun _ s₂ he _ => soundly_token (he.tree (ho p rfl))
  · split
    · exact soundly_failAt
    · split
      · exact soundly_failAt
      · refine soundly_bind (soundly_advance _) fun _ s₂ _ _ => ?_
        exact soundly_bind soundly_freshId fun id s₃ _ _ => soundly_token (.leaf trivial rfl)

abbrev Trees (first : Nat) (ps : List Pattern) (s : State) : Prop :=
  ∀ p ∈ ps, Tree first p s

theorem Extends.trees (he : Extends first s s') {ps : List Pattern} (h : Trees first ps s) :
    Trees first ps s' :=
  fun p hp => he.tree (h p hp)

theorem trees_cons {p : Pattern} {ps : List Pattern} (hp : Tree first p s)
    (hps : Trees first ps s) : Trees first (p :: ps) s := by
  intro q hq
  rcases List.mem_cons.1 hq with rfl | hq
  · exact hp
  · exact hps q hq

structure ReadsSoundly (src : Source) (first most fuel : Nat) : Prop where
  expression : ∀ s, Soundly first most (expression src fuel) s (Tree first)
  alternatives : ∀ s, Soundly first most (alternatives src fuel) s (Trees first)
  sequence : ∀ s, Soundly first most (sequence src fuel) s (Tree first)
  items : ∀ s, Soundly first most (items src fuel) s (Trees first)
  prefixed : ∀ s, Soundly first most (prefixed src fuel) s (Tree first)
  primary : ∀ s, Soundly first most (primary src fuel) s (Tree first)

section

variable {src : Source} (fuel : Nat) (ih : ReadsSoundly src first most fuel)
include ih

theorem soundly_expression : Soundly first most (expression src (fuel + 1)) s (Tree first) := by
  refine soundly_bind (ih.sequence s) fun p s₁ _ hp => ?_
  refine soundly_bind (ih.alternatives s₁) fun ps s₂ he hps => ?_
  refine soundly_bind soundly_freshId fun id s₃ he' _ => soundly_pure fun _ => ?_
  exact Pattern.normal_alt id (he'.trees (trees_cons (he.tree hp) hps))

theorem soundly_alternatives :
    Soundly first most (alternatives src (fuel + 1)) s (Trees first) := by
  refine soundly_bind soundly_ahead fun t s₁ _ _ => ?_
  split
  · refine soundly_bind (soundly_advance _) fun _ s₂ _ _ => ?_
    refine soundly_bind (ih.sequence s₂) fun p s₃ _ hp => ?_
    refine soundly_bind (ih.alternatives s₃) fun ps s₄ he hps => soundly_pure fun _ => ?_
    exact trees_cons (he.tree hp) hps
  · exact soundly_pure fun _ p hp => by cases hp

theorem soundly_sequence : Soundly first most (sequence src (fuel + 1)) s (Tree first) := by
  refine soundly_bind (ih.items s) fun ps s₁ _ hps => ?_
  refine soundly_bind soundly_freshId fun id s₂ he _ => soundly_pure fun _ => ?_
  exact Pattern.normal_seq id (he.trees hps)

theorem soundly_items : Soundly first most (items src (fuel + 1)) s (Trees first) := by
  have none {s : State} : Soundly first most (pure []) s (Trees first) :=
    soundly_pure fun _ p hp => by cases hp
  refine soundly_bind soundly_ahead fun t s₁ _ _ => ?_
  split
  · exact none
  split
  · exact none
  refine soundly_bind (soundly_get (R := fun _ _ => True) fun _ => trivial) fun a s₂ _ _ => ?_
  split
  · exact none
  · refine soundly_bind (ih.prefixed s₂) fun p s₃ _ hp => ?_
    refine soundly_bind (ih.items s₃) fun ps s₄ he hps => soundly_pure fun _ => ?_
    exact trees_cons (he.tree hp) hps

theorem soundly_prefixed (hm : src.Admits most) :
    Soundly first most (prefixed src (fuel + 1)) s (Tree first) := by
  have wrapped {t : Text} {wrap : Nat → Pattern → Pattern} {s : State}
      (hw : ∀ id p s, Tree first p s → Tree first (wrap id p) s) :
      Soundly first most (do advance t; let p ← prefixed src fuel; return wrap (← freshId) p) s
        (Tree first) := by
    refine soundly_bind (soundly_advance _) fun _ s₁ _ _ => ?_
    refine soundly_bind (ih.prefixed s₁) fun p s₂ _ hp => ?_
    exact soundly_bind soundly_freshId fun id s₃ he _ => soundly_pure fun _ =>
      hw id p s₃ (he.tree hp)
  refine soundly_bind soundly_ahead fun t s₁ _ _ => ?_
  split
  · exact wrapped fun id p s h => .single trivial rfl h
  · exact wrapped fun id p s h => .single trivial rfl h
  · exact wrapped fun id p s h => .single trivial rfl h
  · refine soundly_bind (soundly_openCapture hm) fun slot s₂ _ hslot => ?_
    refine soundly_bind (soundly_advance _) fun _ s₃ he₃ _ => ?_
    refine soundly_bind (ih.prefixed s₃) fun p s₄ he₄ hp => ?_
    refine soundly_bind (soundly_captureId ((he₃.trans he₄).allowed.backref slot hslot))
      fun id s₅ he₅ hid => soundly_token (.single hid rfl (he₅.tree hp))
  · refine soundly_bind (ih.primary s₁) fun p s₂ _ hp => ?_
    refine soundly_bind (soundly_get (R := fun _ s' => Tree first p s') fun _ => hp)
      fun a s₃ _ hp => ?_
    exact soundly_suffixes _ hp

theorem soundly_primary (hm : src.Admits most) :
    Soundly first most (primary src (fuel + 1)) s (Tree first) := by
  have simple {p : Pattern} {t : Text} {s : State} (h : ∀ s, Tree first p s) :
      Soundly first most (do advance t; token p) s (Tree first) :=
    soundly_bind (soundly_advance _) fun _ s₁ _ _ => soundly_token (h s₁)
  have reference {how : Comparison} {t : Text} {s : State} :
      Soundly first most (do token (← backReference src how t)) s (Tree first) :=
    soundly_bind soundly_backReference fun p s₁ _ hp => soundly_token hp
  refine soundly_bind soundly_ahead fun t s₁ _ _ => ?_
  split
  · exact soundly_fail
  refine soundly_ite soundly_literal ?_
  refine soundly_ite soundly_literal ?_
  refine soundly_ite soundly_literal ?_
  refine soundly_ite soundly_literal ?_
  refine soundly_ite reference ?_
  refine soundly_ite reference ?_
  refine soundly_ite (soundly_ite reference ?_) ?_
  · refine soundly_bind (soundly_advance _) fun _ s₂ _ _ => ?_
    exact soundly_bind soundly_freshId fun id s₃ _ _ => soundly_token (Pattern.normal_endAnchor id)
  refine soundly_ite ?_ ?_
  · refine soundly_bind (soundly_advance _) fun _ s₂ _ _ => ?_
    refine soundly_bind (ih.expression s₂) fun p s₃ _ hp => ?_
    exact soundly_bind soundly_close fun _ s₄ he _ => soundly_pure fun _ => he.tree hp
  refine soundly_ite ?_ ?_
  · refine soundly_bind (soundly_openCapture hm) fun slot s₂ _ hslot => ?_
    refine soundly_bind (soundly_advance _) fun _ s₃ he₃ _ => ?_
    refine soundly_bind (ih.expression s₃) fun p s₄ he₄ hp => ?_
    refine soundly_bind soundly_close fun _ s₅ he₅ _ => ?_
    have hopened := ((he₃.trans he₄).trans he₅).allowed.backref slot hslot
    refine soundly_bind (soundly_captureId hopened) fun id s₆ he₆ hid => soundly_pure fun _ => ?_
    exact .single hid rfl (he₆.tree (he₅.tree hp))
  refine soundly_ite soundly_characterClass ?_
  refine soundly_ite (simple fun _ => .leaf trivial rfl) ?_
  refine soundly_ite (simple fun _ => .leaf trivial rfl) ?_
  refine soundly_ite (simple fun _ => .leaf trivial rfl) ?_
  refine soundly_ite (soundly_ite ?_ soundly_builtin) ?_
  · refine soundly_bind (soundly_advance _) fun _ s₂ _ _ => ?_
    refine soundly_bind (ih.prefixed s₂) fun p s₃ _ hp => ?_
    refine soundly_bind (soundly_modify (R := fun _ _ => True) (fun hs => ?_) fun _ => trivial)
      fun _ s₄ _ _ => soundly_pure fun _ => .leaf trivial rfl
    exact ⟨⟨hs.names, hs.size, hs.rules, hs.opened, hp, hs.outside⟩, (Extends.refl s₃).allowed,
      fun _ => .rfl, rfl⟩
  split
  · exact soundly_bind (soundly_advance _) fun _ s₂ _ _ => soundly_reference
  · exact soundly_ite soundly_fail soundly_fail

end

theorem readsSoundly {src : Source} (hm : src.Admits most) (fuel : Nat) :
    ReadsSoundly src first most fuel := by
  induction fuel with
  | zero =>
    exact ⟨fun _ => soundly_tooDeep, fun _ => soundly_tooDeep, fun _ => soundly_tooDeep,
      fun _ => soundly_tooDeep, fun _ => soundly_tooDeep, fun _ => soundly_tooDeep⟩
  | succ fuel ih =>
    exact ⟨fun _ => soundly_expression fuel ih, fun _ => soundly_alternatives fuel ih,
      fun _ => soundly_sequence fuel ih, fun _ => soundly_items fuel ih,
      fun _ => soundly_prefixed fuel ih hm, fun _ => soundly_primary fuel ih hm⟩

theorem ok_of_bind {x : Reader α} {f : α → Reader β} {b : β} (h : (x >>= f) s = .ok b s'') :
    ∃ a s', x s = .ok a s' ∧ f a s' = .ok b s'' := by
  simp only [bind, EStateM.bind] at h
  split at h
  · next a s' ha => exact ⟨a, s', ha, h⟩
  · cases h

theorem openCapture_eq {src : Source} {slot : Nat} (h : openCapture src s = .ok slot s') :
    slot = s.opened ∧ s' = { s with opened := s.opened + 1 } := by
  obtain ⟨_, _, h₁, h⟩ := ok_of_bind h
  cases h₁
  obtain ⟨most, s₁, h₁, h⟩ := ok_of_bind h
  cases hl : (src.capacity.limit ">=").mapError Fault.misuse with
  | error f => rw [hl] at h₁; cases h₁
  | ok n =>
    rw [hl] at h₁
    cases h₁
    split at h <;> cases h
    exact ⟨rfl, rfl⟩

theorem Sound.declare (hs : Sound first most s) {r : Nat} {p : Pattern} (place : Position)
    (hr : (s.allowed first).call r) (hp : Tree first p s) :
    let s' := { s with store := s.store.modifyRule r fun rule =>
      { rule with place := place, declared := true, body := some p } }
    Sound first most s' ∧ (s.allowed first).Less (s'.allowed first) ∧
      ∀ r', Declared s' r' ↔ Declared s r' ∨ r' = r := by
  intro s'
  have hl : (s.allowed first).Less (s'.allowed first) :=
    ⟨fun _ h => ⟨h.1, by simpa [s', Store.modifyRule] using h.2⟩, fun _ h => h, fun _ h => h⟩
  refine ⟨⟨hs.names, ?_, fun r' rule hr' hrule => ?_, hs.opened, hs.skip.mono hl, hs.outside⟩, hl,
    fun r' => ?_⟩
  · simpa [s', Store.modifyRule] using hs.size
  · simp only [s', Store.modifyRule, Array.getElem?_modify] at hrule
    split at hrule
    · obtain ⟨old, hold, rfl⟩ := Option.map_eq_some_iff.1 hrule
      refine ⟨(hs.rules r' old hr' hold).proper, fun q hq => ?_, fun _ => ⟨p, rfl⟩⟩
      cases hq
      exact hp.mono hl
    · exact (hs.rules r' rule hr' hrule).mono hl
  · have hlt : r < s.store.rules.size := hr.2
    simp only [Declared, s', Store.modifyRule, Array.getElem?_modify]
    by_cases he : r = r'
    · subst he
      simp [Array.getElem?_eq_getElem hlt]
    · simp [he, Ne.symm he]

/-- What the definitions of rules do: each declares a rule that was not declared before. -/
structure Defines (first : Nat) (s s' : State) (defs : List (Nat × Nat)) : Prop where
  nodup : (defs.map Prod.snd).Nodup
  fresh : ∀ r ∈ defs.map Prod.snd, ¬ Declared s r
  declared : ∀ r, Declared s' r ↔ Declared s r ∨ r ∈ defs.map Prod.snd
  named : ∀ r ∈ defs.map Prod.snd, (s'.allowed first).call r
  allowed : (s.allowed first).Less (s'.allowed first)
  inGrammar : s'.inGrammar = s.inGrammar

theorem Extends.defines (he : Extends first s s') : Defines first s s' [] :=
  ⟨List.nodup_nil, by simp, by simpa using he.declared, by simp, he.allowed, he.inGrammar⟩

theorem Extends.andDefines {defs : List (Nat × Nat)} (he : Extends first s s')
    (h : Defines first s' s'' defs) : Defines first s s'' defs := by
  refine ⟨h.nodup, fun r hr hs => h.fresh r hr ((he.declared r).2 hs), fun r => ?_, h.named,
    he.allowed.trans h.allowed, h.inGrammar.trans he.inGrammar⟩
  rw [h.declared, he.declared]

theorem Defines.cons {defs : List (Nat × Nat)} (id : Nat) {r : Nat} (hr : ¬ Declared s r)
    (hcall : (s.allowed first).call r) (hl : (s.allowed first).Less (s'.allowed first))
    (hd : ∀ r', Declared s' r' ↔ Declared s r' ∨ r' = r) (hg : s'.inGrammar = s.inGrammar)
    (h : Defines first s' s'' defs) : Defines first s s'' ((id, r) :: defs) := by
  refine ⟨?_, fun r' hr' hs => ?_, fun r' => ?_, fun r' hr' => ?_, hl.trans h.allowed,
    h.inGrammar.trans hg⟩
  · refine List.nodup_cons.2 ⟨fun hm => ?_, h.nodup⟩
    exact h.fresh r hm ((hd r).2 (.inr rfl))
  · rcases List.mem_cons.1 hr' with rfl | hm
    · exact hr hs
    · exact h.fresh r' hm ((hd r').2 (.inl hs))
  · rw [h.declared, hd]
    simp only [List.map_cons, List.mem_cons]
    exact or_assoc
  · rcases List.mem_cons.1 hr' with rfl | hm
    · exact (hl.trans h.allowed).call _ hcall
    · exact h.named r' hm

theorem defines_rules {src : Source} (hm : src.Admits most) (room : Nat) (hg : s.inGrammar)
    (hs : Sound first most s) {defs : List (Nat × Nat)} (h : rules src room s = .ok defs s') :
    Sound first most s' ∧ Defines first s s' defs := by
  induction room generalizing s defs with
  | zero =>
    cases h
    exact ⟨hs, (Extends.refl _).defines⟩
  | succ room ih =>
    obtain ⟨t, s₁, h₁, h⟩ := ok_of_bind h
    obtain ⟨hs₁, he₁, -⟩ := soundly_ahead hs t s₁ h₁
    cases t with
    | nil =>
      cases h
      exact ⟨hs₁, he₁.defines⟩
    | cons c t =>
      simp only at h
      cases hh : Token.header? (c :: t) with
      | none => simp only [hh] at h; cases h
      | some head =>
        obtain ⟨name, rest⟩ := head
        simp only [hh] at h
        obtain ⟨r, s₂, h₂, h⟩ := ok_of_bind h
        obtain ⟨hs₂, he₂, hr⟩ := soundly_ruleNamed (he₁.inGrammar ▸ hg) hs₁ r s₂ h₂
        obtain ⟨_, _, h₃, h⟩ := ok_of_bind h
        cases h₃
        by_cases hold : (s₂.store.rules[r]?.map Rule.declared).getD false = true
        · simp only [hold] at h
          cases h
        · simp only [hold] at h
          obtain ⟨_, s₃, h₃, h⟩ := ok_of_bind h
          obtain ⟨hs₃, he₃, -⟩ := soundly_setPlace r (src.place (c :: t)) hs₂ _ s₃ h₃
          obtain ⟨_, s₄, h₄, h⟩ := ok_of_bind h
          obtain ⟨hs₄, he₄, -⟩ := soundly_advance rest hs₃ _ s₄ h₄
          obtain ⟨p, s₅, h₅, h⟩ := ok_of_bind h
          obtain ⟨hs₅, he₅, hp⟩ := (readsSoundly hm (fuel rest)).expression s₄ hs₄ p s₅ h₅
          have he := (he₃.trans he₄).trans he₅
          obtain ⟨_, s₆, h₆, h⟩ := ok_of_bind h
          cases h₆
          obtain ⟨hs₆, hl₆, hd₆⟩ := hs₅.declare (src.place (c :: t)) (he.allowed.call r hr) hp
          obtain ⟨id, s₇, h₇, h⟩ := ok_of_bind h
          obtain ⟨hs₇, he₇, -⟩ := soundly_freshId hs₆ id s₇ h₇
          obtain ⟨ds, s₈, h₈, h⟩ := ok_of_bind h
          cases h
          have hg₇ : s₇.inGrammar :=
            he₇.inGrammar.trans (he.inGrammar.trans (he₂.inGrammar.trans (he₁.inGrammar.trans hg)))
          obtain ⟨hs', hd⟩ := ih hg₇ hs₇ h₈
          have hnew : ¬ Declared s₅ r := by
            rw [he.declared]
            rintro ⟨rule, hrule, hdeclared⟩
            simp [hrule, hdeclared] at hold
          have hrest := Defines.cons id hnew (he.allowed.call r hr) hl₆ hd₆ rfl (he₇.andDefines hd)
          exact ⟨hs', ((he₁.trans he₂).trans he).andDefines hrest⟩

theorem declared_of_checkDeclared {src : Source} {store : Store} {names : List (Text × Nat)}
    (h : checkDeclared src store names = .ok ()) {r : Nat} (hr : r ∈ names.map Prod.snd)
    {rule : Rule} (hrule : store.rules[r]? = some rule) : rule.declared := by
  induction names with
  | nil => simp at hr
  | cons n names ih =>
    obtain ⟨name, k⟩ := n
    simp only [checkDeclared] at h
    rcases List.mem_cons.1 hr with rfl | hr
    · simp only [hrule] at h
      split at h
      · assumption
      · cases h
    · split at h
      · split at h
        · exact ih h hr
        · cases h
      · exact ih h hr

/-- What reading a pattern leads to: one expression without calls, or a grammar in which each rule
that was named is declared exactly once. -/
inductive Compiled (first : Nat) (s : State) : Pattern → Prop where
  | single {p : Pattern} (h : p.Normal { s.allowed first with call := fun _ => False }) :
      Compiled first s p
  | grammar {id : Nat} {start : Nat × Nat} {others : List (Nat × Nat)}
      (nodup : ((start :: others).map Prod.snd).Nodup)
      (declared : ∀ r, (s.allowed first).call r → Declared s r)
      (named : ∀ r, r ∈ (start :: others).map Prod.snd ↔ (s.allowed first).call r) :
      Compiled first s (.grammar id start others)

theorem Compiled.mono {p : Pattern} (h : Compiled first s p)
    (hl : (s.allowed first).Less (s'.allowed first)) (hr : s'.store.rules = s.store.rules) :
    Compiled first s' p := by
  have hcall (r : Nat) : (s'.allowed first).call r ↔ (s.allowed first).call r := by
    simp only [State.allowed, hr]
  cases h with
  | single h => exact .single (h.mono ⟨fun _ h => h, hl.capture, hl.backref⟩)
  | grammar nodup declared named =>
    refine .grammar nodup (fun r h => ?_) fun r => (named r).trans (hcall r).symm
    have := declared r ((hcall r).1 h)
    simpa only [Declared, hr] using this

theorem compiled_grammar {src : Source} (hm : src.Admits most) (hs : Sound first most s)
    (hg : s.inGrammar) (hnone : s.names = []) {p : Pattern} (h : grammar src s = .ok p s') :
    Sound first most s' ∧ Compiled first s' p := by
  obtain ⟨defs, s₁, h₁, h⟩ := ok_of_bind h
  obtain ⟨hs₁, hd⟩ := defines_rules hm _ hg hs h₁
  obtain ⟨_, _, h₂, h⟩ := ok_of_bind h
  cases h₂
  cases hc : checkDeclared src s₁.store s₁.names with
  | error e => simp only [hc] at h; cases h
  | ok =>
    simp only [hc] at h
    have declared (r : Nat) (hr : (s₁.allowed first).call r) : Declared s₁ r := by
      have hlt : r < s₁.store.rules.size := hr.2
      have hrule : s₁.store.rules[r]? = some s₁.store.rules[r] := Array.getElem?_eq_getElem hlt
      exact ⟨_, hrule, declared_of_checkDeclared hc (hs₁.mem_names.2 hr) hrule⟩
    have named (r : Nat) : r ∈ defs.map Prod.snd ↔ (s₁.allowed first).call r := by
      refine ⟨hd.named r, fun hr => ?_⟩
      rcases (hd.declared r).1 (declared r hr) with ⟨rule, hrule, -⟩ | hmem
      · have hsize := hs.size
        rw [hnone] at hsize
        obtain ⟨hlt, -⟩ := Array.getElem?_eq_some_iff.1 hrule
        have := hr.1
        simp at hsize
        omega
      · exact hmem
    cases defs with
    | nil =>
      cases h
      exact ⟨hs₁, .single (.leaf trivial rfl)⟩
    | cons start others =>
      obtain ⟨_, _, h₂, h⟩ := ok_of_bind h
      cases h₂
      obtain ⟨id, s₃, h₃, h⟩ := ok_of_bind h
      cases h₃
      cases h
      have hgrow := hs₁.grow (less_fresh s₁) rfl rfl hs₁.opened rfl rfl
      exact ⟨⟨hgrow.1.names, hgrow.1.size, hgrow.1.rules, hgrow.1.opened, hgrow.1.skip,
        hgrow.1.outside⟩, .grammar hd.nodup declared named⟩

theorem Sound.start (most : Nat) (src : Source) (store : Store) :
    Sound store.rules.size most { rest := src.text, store := store } := by
  refine ⟨rfl, rfl, fun r rule hr hrule => ?_, Nat.zero_le _, .leaf trivial rfl, fun _ => rfl⟩
  obtain ⟨hlt, -⟩ := Array.getElem?_eq_some_iff.1 hrule
  exact absurd hlt (Nat.not_lt.2 hr)

def finish (src : Source) (p : Pattern) : Reader Pattern := do
  match ← ahead with
  | [] =>
    modify fun s => { s with store := s.store.setCount p s.opened }
    return p
  | c :: _ => if c = ')' ∨ c = '}' then fail src (.unbalanced c) else fail src (.endExpected c)

theorem whole_eq (src : Source) : whole src = (do
    let t ← ahead
    if (Token.header? t).isSome then do
      modify fun s => { s with inGrammar := true }
      grammar src >>= finish src
    else expression src (fuel t) >>= finish src) :=
  rfl

theorem compiled_finish {src : Source} {p q : Pattern} (hs : Sound first most s)
    (hp : Compiled first s p) (h : finish src p s = .ok q s') :
    q = p ∧ Sound first most s' ∧ Compiled first s' p ∧ s'.store.count? p = some s'.opened := by
  obtain ⟨t, s₁, h₁, h⟩ := ok_of_bind h
  obtain ⟨hs₁, he, -⟩ := soundly_ahead hs t s₁ h₁
  have hp₁ : Compiled first s₁ p := by
    cases h₁
    exact hp.mono (.refl _) rfl
  cases t with
  | nil =>
    cases h
    exact ⟨rfl, ⟨hs₁.names, hs₁.size, hs₁.rules, hs₁.opened, hs₁.skip, hs₁.outside⟩,
      hp₁.mono (.refl _) rfl, by simp [Store.count?, Store.setCount]⟩
  | cons c t =>
    simp only at h
    split at h <;> cases h

theorem compiled_parse {src : Source} (hm : src.Admits most) {store store' : Store} {p : Pattern}
    {log : List Notice} (h : parse src store = (.ok p, store', log)) :
    ∃ s, s.store = store' ∧ Sound store.rules.size most s ∧ Compiled store.rules.size s p ∧
      store'.count? p = some s.opened := by
  simp only [parse, whole_eq] at h
  split at h
  · next q s hrun =>
    cases h
    obtain ⟨t, s₁, h₁, hrun⟩ := ok_of_bind hrun
    obtain ⟨hs₁, he, -⟩ := soundly_ahead (Sound.start most src store) t s₁ h₁
    have hnone : s₁.names = [] := hs₁.outside he.inGrammar
    by_cases hh : (Token.header? t).isSome
    · simp only [hh, if_true] at hrun
      obtain ⟨_, _, h₂, hrun⟩ := ok_of_bind hrun
      cases h₂
      obtain ⟨p', s₃, h₃, hrun⟩ := ok_of_bind hrun
      obtain ⟨hs₃, hp⟩ := compiled_grammar hm (s := { s₁ with inGrammar := true })
        ⟨hs₁.names, hs₁.size, hs₁.rules, hs₁.opened, hs₁.skip, fun h => by cases h⟩ rfl hnone h₃
      obtain ⟨rfl, hs, hp, hc⟩ := compiled_finish hs₃ hp hrun
      exact ⟨s, rfl, hs, hp, hc⟩
    · simp only [hh] at hrun
      obtain ⟨p', s₃, h₃, hrun⟩ := ok_of_bind hrun
      obtain ⟨hs₃, he₃, htree⟩ := (readsSoundly hm _).expression s₁ hs₁ p' s₃ h₃
      have hnone₃ : s₃.names = [] := hs₃.outside (he₃.inGrammar.trans he.inGrammar)
      have hp : Compiled store.rules.size s₃ p' := by
        refine .single (htree.mono ⟨fun r hr => ?_, fun _ h => h, fun _ h => h⟩)
        have := hs₃.size
        simp only [State.allowed] at hr
        simp [hnone₃] at this
        omega
      obtain ⟨rfl, hs, hp, hc⟩ := compiled_finish hs₃ hp hrun
      exact ⟨s, rfl, hs, hp, hc⟩
  · cases h

end Grammar

end PegMatch

import PegMatch.Proofs.Compiled
import PegMatch.Proofs.Likeness

set_option autoImplicit false

/-! Reading one text with two limits of inlining, in step. The two readers are always at the same
place, fail alike, and return trees that are alike, unless only one of the limits inlines rules and
some rule is empty. -/

namespace PegMatch

def Allowed.pure : Allowed := ⟨fun _ => False, fun _ => False, fun _ => True⟩

namespace Pattern

theorem cost_spec {A : Allowed} {p : Pattern} (h : Normal A p) (below : Nat → Except Fault Int)
    {d : Datum} {limit : Int} (hd : d.int? = some limit) :
    ∃ c : Int, min 0 limit ≤ c ∧ p.costWith below d = .ok c ∧ (c < limit → Normal .pure p) := by
  have hreaches (c : Int) : reaches d c = .ok (decide (limit ≤ c)) := by
    simp [reaches, Datum.limit, hd, bind, Except.bind]
  have hbeyond : beyond d = .ok (limit + 1) := by simp [beyond, Datum.next, hd]
  have each {ps : List Pattern} (hps : ∀ q ∈ ps, ∃ c : Int, min 0 limit ≤ c ∧
      q.costWith below d = .ok c ∧ (c < limit → Normal .pure q)) (total : Int) (h0 : 0 ≤ total) :
      ∃ c : Int, min total limit ≤ c ∧ costEach below d ps total = .ok c ∧
        (c < limit → ∀ q ∈ ps, Normal .pure q) := by
    induction ps generalizing total with
    | nil => exact ⟨total, by omega, rfl, by simp⟩
    | cons q ps ih =>
      obtain ⟨c, hc, hcost, hpure⟩ := hps q (by simp)
      simp only [costEach, hcost, bind, Except.bind, hreaches]
      by_cases hl : limit ≤ total + c
      · exact ⟨total + c, by omega, by simp [hl], by omega⟩
      · obtain ⟨c', hc', hcost', hpure'⟩ :=
          ih (fun r hr => hps r (by simp [hr])) (total + c) (by omega)
        refine ⟨c', by omega, by simpa [hl] using hcost', fun hlt r hr => ?_⟩
        rcases List.mem_cons.1 hr with rfl | hr
        · exact hpure (by omega)
        · exact hpure' hlt r hr
  have single {p q : Pattern} (hcost : p.costWith below d = (q.costWith below d >>= counted d))
      (hnode : p.NormalNode .pure) (honly : p.children = [q]) (hq : ∃ c : Int, min 0 limit ≤ c ∧
        q.costWith below d = .ok c ∧ (c < limit → Normal .pure q)) :
      ∃ c : Int, min 0 limit ≤ c ∧ p.costWith below d = .ok c ∧ (c < limit → Normal .pure p) := by
    obtain ⟨c, hc, hq, hpure⟩ := hq
    refine ⟨c, hc, ?_, fun hlt => .single hnode honly (hpure hlt)⟩
    simp [hcost, hq, counted, hreaches, bind, Except.bind]
  induction h with
  | @node p here below' ih =>
    cases p with
    | empty => exact ⟨0, by omega, rfl, fun _ => .leaf trivial rfl⟩
    | call i r => exact ⟨limit + 1, by omega, hbeyond, by omega⟩
    | capture i q => exact ⟨limit + 1, by omega, hbeyond, by omega⟩
    | capturedSearch i q => exact ⟨limit + 1, by omega, hbeyond, by omega⟩
    | sequence i ps =>
      obtain ⟨c, hc, hcost, hpure⟩ := each ih 0 (by omega)
      exact ⟨c, hc, hcost, fun hlt => .node here (hpure hlt)⟩
    | choice i ps =>
      obtain ⟨c, hc, hcost, hpure⟩ := each ih 0 (by omega)
      exact ⟨c, hc, hcost, fun hlt => .node here (hpure hlt)⟩
    | star i q => exact single rfl here rfl (ih q (by simp [children]))
    | option i q => exact single rfl here rfl (ih q (by simp [children]))
    | peek i q => exact single rfl here rfl (ih q (by simp [children]))
    | not i q => exact single rfl here rfl (ih q (by simp [children]))
    | search i q => exact single rfl here rfl (ih q (by simp [children]))
    | valued i how v => exact here.elim
    | rule i r => exact here.elim
    | grammar i start others => exact here.elim
    | literal i how t => exact ⟨1, by omega, rfl, fun _ => .leaf (by cases how <;> exact here) rfl⟩
    | set i s sense => exact ⟨1, by omega, rfl, fun _ => .leaf here rfl⟩
    | starSet i s sense => exact ⟨1, by omega, rfl, fun _ => .leaf here rfl⟩
    | backref i how slot => exact ⟨1, by omega, rfl, fun _ => .leaf trivial rfl⟩
    | _ => exact ⟨1, by omega, rfl, fun _ => .leaf trivial rfl⟩

end Pattern

namespace Grammar

def head (rule : Rule) : Rule :=
  { rule with body := rule.body.map fun _ => .empty }

def bodyOf (s : State) (r : Nat) : Option Pattern :=
  s.store.rules[r]?.bind Rule.body

def warnings (log : List Notice) : List Notice :=
  log.filter fun
    | .unusedRule .. => true
    | _ => false

/-- The source with a limit of inlining. -/
def Source.inlining (src : Source) (limit : Int) : Source :=
  { src with inline := .int limit }

structure Later (s s' : State) : Prop where
  fresh : s.store.fresh ≤ s'.store.fresh
  slots : ∀ id, id < s.store.fresh → s'.store.slot? id = s.store.slot? id
  bodies : ∀ r p, bodyOf s r = some p → bodyOf s' r = some p

structure Grows (s s' : State) : Prop where
  fresh : s.store.fresh ≤ s'.store.fresh
  slots : ∀ id, id < s.store.fresh → s'.store.slot? id = s.store.slot? id
  bodies : ∀ r, bodyOf s' r = bodyOf s r

theorem Grows.later {s s' : State} (h : Grows s s') : Later s s' :=
  ⟨h.fresh, h.slots, fun r _ hp => (h.bodies r).trans hp⟩

theorem Grows.refl (s : State) : Grows s s :=
  ⟨Nat.le_refl _, fun _ _ => rfl, fun _ => rfl⟩

theorem Grows.trans {s s' s'' : State} (h : Grows s s') (h' : Grows s' s'') : Grows s s'' :=
  ⟨Nat.le_trans h.fresh h'.fresh,
    fun id hid => (h'.slots id (Nat.lt_of_lt_of_le hid h.fresh)).trans (h.slots id hid),
    fun r => (h'.bodies r).trans (h.bodies r)⟩

theorem Grows.of_store {s s' : State} (h : s'.store = s.store) : Grows s s' := by
  refine ⟨Nat.le_of_eq (congrArg Store.fresh h.symm), fun _ _ => by rw [h], fun r => ?_⟩
  simp only [bodyOf, h]

section

variable (first : Nat) (n m : Int)

/-- Some rule is empty, and only one of the limits inlines it. -/
def Spoilt (s t : State) : Prop :=
  ¬ (0 < n ↔ 0 < m) ∧ ∃ r, first ≤ r ∧ (bodyOf s r = some .empty ∨ bodyOf t r = some .empty)

/-- Environments for the two readings: the rules mean the same in both, and are what their bodies in
the second reading mean. -/
structure Views (s t : State) (e f : Env) : Prop where
  unspoilt : ¬ Spoilt first n m s t
  twin : e.Twin f
  call : ∀ r, first ≤ r → e.call r = f.call r
  left : ∀ id, id < s.store.fresh → e.slot id = s.store.slot? id
  right : ∀ id, id < t.store.fresh → f.slot id = t.store.slot? id
  body : ∀ r q, first ≤ r → bodyOf t r = some q → f.call r = q.denote f

structure Like (s t : State) (p q : Pattern) : Prop where
  left : p.Normal .all
  right : q.Normal .all
  alike : ∀ e f, Views first n m s t e f → p.Alike e f q

structure Matched (s t : State) : Prop where
  rest : s.rest = t.rest
  names : s.names = t.names
  inGrammar : s.inGrammar = t.inGrammar
  opened : s.opened = t.opened
  size : s.store.rules.size = t.store.rules.size
  known : first ≤ s.store.rules.size
  heads : ∀ r : Nat, s.store.rules[r]?.map head = t.store.rules[r]?.map head
  log : warnings s.log = warnings t.log
  numbers : ∀ r ∈ s.names.map Prod.snd, first ≤ r
  rules : ∀ (r : Nat) rule, first ≤ r → s.store.rules[r]? = some rule →
    rule.proper ∧ (rule.body.isSome → rule.declared)
  bodies : ∀ r p q, first ≤ r → bodyOf s r = some p → bodyOf t r = some q → Like first n m s t p q
  skip : Like first n m s t s.skip t.skip

/-- The two readers fail alike, or both succeed with results and states that are as told. -/
def InStep {α β : Type} (x : Reader α) (y : Reader β) (s t : State)
    (R : α → State → β → State → Prop) : Prop :=
  Matched first n m s t →
    match x s, y t with
    | .ok a s', .ok b t' => Matched first n m s' t' ∧ Grows s s' ∧ Grows t t' ∧ R a s' b t'
    | .error e _, .error e' _ => e = e'
    | _, _ => False

end

variable {first : Nat} {n m : Int} {s t s' t' : State} {p q : Pattern} {α β γ δ : Type}

theorem Views.of_later {e f : Env} (h : Views first n m s' t' e f) (hs : Later s s')
    (ht : Later t t') : Views first n m s t e f where
  unspoilt := by
    rintro ⟨hn, r, hr, hb⟩
    exact h.unspoilt ⟨hn, r, hr, hb.imp (hs.bodies r _) (ht.bodies r _)⟩
  twin := h.twin
  call := h.call
  left id hid := (h.left id (Nat.lt_of_lt_of_le hid hs.fresh)).trans (hs.slots id hid)
  right id hid := (h.right id (Nat.lt_of_lt_of_le hid ht.fresh)).trans (ht.slots id hid)
  body r q hr hq := h.body r q hr (ht.bodies r q hq)

theorem Like.later (h : Like first n m s t p q) (hs : Later s s') (ht : Later t t') :
    Like first n m s' t' p q :=
  ⟨h.left, h.right, fun e f hv => h.alike e f (hv.of_later hs ht)⟩

theorem Like.grows (h : Like first n m s t p q) (hs : Grows s s') (ht : Grows t t') :
    Like first n m s' t' p q :=
  h.later hs.later ht.later

theorem inStep_bind {x : Reader α} {y : Reader β} {g : α → Reader γ} {k : β → Reader δ}
    {R : α → State → β → State → Prop} {Q : γ → State → δ → State → Prop}
    (hx : InStep first n m x y s t R)
    (hf : ∀ a s' b t', Grows s s' → Grows t t' → R a s' b t' →
      InStep first n m (g a) (k b) s' t' Q) : InStep first n m (x >>= g) (y >>= k) s t Q := by
  intro hm
  have h := hx hm
  simp only [bind, EStateM.bind]
  cases hxs : x s with
  | error e s' =>
    cases hyt : y t with
    | error e' t' => simpa [hxs, hyt] using h
    | ok b t' => simp [hxs, hyt] at h
  | ok a s' =>
    cases hyt : y t with
    | error e' t' => simp [hxs, hyt] at h
    | ok b t' =>
      simp only [hxs, hyt] at h ⊢
      obtain ⟨hm', hs, ht, hr⟩ := h
      have h' := hf a s' b t' hs ht hr hm'
      cases hg : g a s' with
      | error e s'' => cases hk : k b t' <;> simp [hg, hk] at h' ⊢; exact h'
      | ok c s'' =>
        cases hk : k b t' with
        | error e t'' => simp [hg, hk] at h'
        | ok d t'' =>
          simp only [hg, hk] at h' ⊢
          exact ⟨h'.1, hs.trans h'.2.1, ht.trans h'.2.2.1, h'.2.2.2⟩

theorem inStep_pure {a : α} {b : β} {R : α → State → β → State → Prop}
    (h : Matched first n m s t → R a s b t) : InStep first n m (pure a) (pure b) s t R :=
  fun hm => ⟨hm, .refl s, .refl t, h hm⟩

theorem inStep_get {R : State → State → State → State → Prop}
    (h : Matched first n m s t → R s s t t) :
    InStep first n m (get : Reader State) (get : Reader State) s t R :=
  fun hm => ⟨hm, .refl s, .refl t, h hm⟩

theorem inStep_modify {f g : State → State} {R : PUnit → State → PUnit → State → Prop}
    (hf : Matched first n m s t → Matched first n m (f s) (g t) ∧ Grows s (f s) ∧ Grows t (g t))
    (h : Matched first n m s t → R ⟨⟩ (f s) ⟨⟩ (g t)) :
    InStep first n m (modify f : Reader PUnit) (modify g : Reader PUnit) s t R := by
  intro hm
  obtain ⟨hm', hs, ht⟩ := hf hm
  exact ⟨hm', hs, ht, h hm⟩

theorem inStep_set {u v : State} {R : PUnit → State → PUnit → State → Prop}
    (hf : Matched first n m s t → Matched first n m u v ∧ Grows s u ∧ Grows t v)
    (h : Matched first n m s t → R ⟨⟩ u ⟨⟩ v) :
    InStep first n m (set u : Reader PUnit) (set v : Reader PUnit) s t R := by
  intro hm
  obtain ⟨hm', hs, ht⟩ := hf hm
  exact ⟨hm', hs, ht, h hm⟩

theorem inStep_ite {c : Prop} [Decidable c] {x y : Reader α} {x' y' : Reader β}
    {R : α → State → β → State → Prop} (hx : InStep first n m x x' s t R)
    (hy : InStep first n m y y' s t R) :
    InStep first n m (if c then x else y) (if c then x' else y') s t R := by
  split
  · exact hx
  · exact hy

variable {src : Source}

theorem inStep_failAt {rest : Text} {mistake : Mistake} {R : α → State → β → State → Prop} :
    InStep first n m (failAt (src.inlining n) rest mistake)
      (failAt (src.inlining m) rest mistake) s t R :=
  fun _ => rfl

theorem fail_eq (src : Source) (mistake : Mistake) (s : State) :
    (fail src mistake : Reader α) s = failAt src s.rest mistake s :=
  rfl

theorem inStep_fail {mistake : Mistake} {R : α → State → β → State → Prop} :
    InStep first n m (fail (src.inlining n) mistake) (fail (src.inlining m) mistake) s t R := by
  intro hm
  rw [fail_eq, fail_eq, hm.rest]
  rfl

theorem inStep_tooDeep {R : α → State → β → State → Prop} :
    InStep first n m tooDeep tooDeep s t R :=
  fun _ => rfl

/-- The parts of a state that only declarations and `\skip` change. -/
structure Keeps (s s' : State) : Prop where
  rules : s'.store.rules = s.store.rules
  names : s'.names = s.names
  inGrammar : s'.inGrammar = s.inGrammar
  skip : s'.skip = s.skip

theorem Keeps.bodyOf (h : Keeps s s') (r : Nat) : bodyOf s' r = bodyOf s r := by
  simp only [Grammar.bodyOf, h.rules]

theorem Matched.grow (hm : Matched first n m s t) (hs : Grows s s') (ht : Grows t t')
    (ks : Keeps s s') (kt : Keeps t t') (hrest : s'.rest = t'.rest)
    (hopened : s'.opened = t'.opened) (hlog : warnings s'.log = warnings t'.log) :
    Matched first n m s' t' ∧ Grows s s' ∧ Grows t t' where
  left := {
    rest := hrest
    names := by rw [ks.names, kt.names, hm.names]
    inGrammar := by rw [ks.inGrammar, kt.inGrammar, hm.inGrammar]
    opened := hopened
    size := by rw [ks.rules, kt.rules, hm.size]
    known := by rw [ks.rules]; exact hm.known
    heads := by rw [ks.rules, kt.rules]; exact hm.heads
    log := hlog
    numbers := by rw [ks.names]; exact hm.numbers
    rules := by rw [ks.rules]; exact hm.rules
    bodies := by
      intro r p q hr hp hq
      rw [ks.bodyOf] at hp
      rw [kt.bodyOf] at hq
      exact (hm.bodies r p q hr hp hq).grows hs ht
    skip := by rw [ks.skip, kt.skip]; exact hm.skip.grows hs ht }
  right := ⟨hs, ht⟩

theorem Matched.skipping (hm : Matched first n m s t) (h : Like first n m s t p q) :
    Matched first n m { s with skip := p } { t with skip := q } :=
  ⟨hm.rest, hm.names, hm.inGrammar, hm.opened, hm.size, hm.known, hm.heads, hm.log, hm.numbers,
    hm.rules, fun r p q hr hp hq => (hm.bodies r p q hr hp hq).grows (.of_store rfl)
      (.of_store rfl), h.grows (.of_store rfl) (.of_store rfl)⟩

theorem inStep_advance (rest : Text) :
    InStep first n m (advance rest) (advance rest) s t fun _ _ _ _ => True :=
  inStep_modify (fun hm => hm.grow (.of_store rfl) (.of_store rfl) ⟨rfl, rfl, rfl, rfl⟩
    ⟨rfl, rfl, rfl, rfl⟩ rfl hm.opened hm.log) fun _ => trivial

theorem inStep_ahead : InStep first n m ahead ahead s t fun a _ b _ => a = b := by
  refine inStep_bind (inStep_get (R := fun a _ b _ => a.rest = b.rest) fun hm => hm.rest)
    fun a s₁ b t₁ _ _ hab => ?_
  rw [hab]
  refine inStep_bind (inStep_advance _) fun _ s₂ _ t₂ _ _ _ => ?_
  refine inStep_bind (inStep_get (R := fun a _ b _ => a.rest = b.rest) fun hm => hm.rest)
    fun a s₃ b t₃ _ _ hab => inStep_pure fun _ => hab

theorem inStep_read {token : Except Token.Trouble (α × Text)} :
    InStep first n m (read (src.inlining n) token) (read (src.inlining m) token) s t
      fun a _ b _ => a = b := by
  unfold read
  split
  · exact inStep_bind (inStep_advance _) fun _ _ _ _ _ _ _ => inStep_pure fun _ => rfl
  · exact inStep_failAt

theorem inStep_sound {x y : Except Fault α} {R : α → State → α → State → Prop}
    (h : Matched first n m s t → (∃ a b, x = .ok a ∧ y = .ok b ∧ R a s b t) ∨ ∃ f, x = .error f ∧
      y = .error f) : InStep first n m (sound x) (sound y) s t R := by
  intro hm
  rcases h hm with ⟨a, b, rfl, rfl, hr⟩ | ⟨f, rfl, rfl⟩
  · exact ⟨hm, .refl s, .refl t, hr⟩
  · rfl

theorem grows_fresh (s : State) :
    Grows s { s with store := { s.store with fresh := s.store.fresh + 1 } } :=
  ⟨Nat.le_succ _, fun _ _ => rfl, fun _ => rfl⟩

theorem inStep_freshId : InStep first n m freshId freshId s t fun _ _ _ _ => True := by
  intro hm
  obtain ⟨hm', hs, ht⟩ :=
    hm.grow (grows_fresh s) (grows_fresh t) ⟨rfl, rfl, rfl, rfl⟩
      ⟨rfl, rfl, rfl, rfl⟩ hm.rest hm.opened hm.log
  exact ⟨hm', hs, ht, trivial⟩

theorem grows_captureId (s : State) (slot : Nat) :
    Grows s { s with store := ({ s.store with fresh := s.store.fresh + 1 } : Store).setSlot
                       s.store.fresh slot } := by
  refine ⟨Nat.le_succ _, fun id hid => ?_, fun _ => rfl⟩
  have hne : (id == s.store.fresh) = false := by simp; omega
  simp [Store.slot?, Store.setSlot, List.lookup_cons, hne]

/-- The identity is one of a capture with this slot. -/
def Slotted (slot id : Nat) (s : State) : Prop :=
  id < s.store.fresh ∧ s.store.slot? id = some slot

theorem inStep_captureId (slot : Nat) : InStep first n m (captureId slot) (captureId slot) s t
    fun id s' jd t' => Slotted slot id s' ∧ Slotted slot jd t' := by
  intro hm
  obtain ⟨hm', hs, ht⟩ :=
    hm.grow (grows_captureId s slot) (grows_captureId t slot) ⟨rfl, rfl, rfl, rfl⟩
      ⟨rfl, rfl, rfl, rfl⟩ hm.rest hm.opened hm.log
  exact ⟨hm', hs, ht, ⟨Nat.lt_succ_self _, by simp [Store.slot?, Store.setSlot]⟩,
    Nat.lt_succ_self _, by simp [Store.slot?, Store.setSlot]⟩

abbrev Likes (first : Nat) (n m : Int) (ps : List Pattern) (s : State) (qs : List Pattern)
    (t : State) : Prop :=
  List.Forall₂ (Like first n m s t) ps qs

theorem Likes.left {ps qs : List Pattern} (h : Likes first n m ps s qs t) :
    ∀ p ∈ ps, p.Normal .all := by
  induction h with
  | nil => simp
  | cons h _ ih => simpa using ⟨h.left, ih⟩

theorem Likes.right {ps qs : List Pattern} (h : Likes first n m ps s qs t) :
    ∀ q ∈ qs, q.Normal .all := by
  induction h with
  | nil => simp
  | cons h _ ih => simpa using ⟨h.right, ih⟩

theorem like_seq (i j : Nat) {ps qs : List Pattern} (h : Likes first n m ps s qs t) :
    Like first n m s t (.seq i ps) (.seq j qs) :=
  ⟨Pattern.normal_seq i h.left, Pattern.normal_seq j h.right,
    fun e f hv => Pattern.alike_seq i j (h.imp fun _ _ h => h.alike e f hv)⟩

theorem like_alt (i j : Nat) {ps qs : List Pattern} (h : Likes first n m (p :: ps) s (q :: qs) t) :
    Like first n m s t (.alt i p ps) (.alt j q qs) :=
  ⟨Pattern.normal_alt i h.left, Pattern.normal_alt j h.right,
    fun e f hv => Pattern.alike_alt i j (h.imp fun _ _ h => h.alike e f hv)⟩

theorem token_of_empty (h : s.skip = .empty) : token p s = .ok p s := by
  obtain ⟨rest, store, names, inGrammar, opened, skip, log⟩ := s
  subst h
  rfl

theorem token_of_ne_empty (h : s.skip ≠ .empty) :
    token p s = .ok (.seq s.store.fresh [s.skip, p])
      { s with store := { s.store with fresh := s.store.fresh + 1 } } := by
  obtain ⟨rest, store, names, inGrammar, opened, skip, log⟩ := s
  cases skip with
  | empty => exact absurd rfl h
  | _ => rfl

theorem inStep_token (h : Like first n m s t p q) : InStep first n m (token p) (token q) s t
    fun p s' q t' => Like first n m s' t' p q := by
  intro hm
  have none {e f : Env} (hv : Views first n m s t e f)
      (hne : ¬ (s.skip = .empty ↔ t.skip = .empty)) : False :=
    hne (hm.skip.alike e f hv).empty
  by_cases hs : s.skip = .empty
  · rw [token_of_empty hs]
    by_cases ht : t.skip = .empty
    · rw [token_of_empty ht]
      exact ⟨hm, .refl s, .refl t, h⟩
    · rw [token_of_ne_empty ht]
      obtain ⟨hm', gs, gt⟩ :=
        hm.grow (.refl s) (grows_fresh t) ⟨rfl, rfl, rfl, rfl⟩
          ⟨rfl, rfl, rfl, rfl⟩ hm.rest hm.opened hm.log
      refine ⟨hm', gs, gt, h.left, ?_, fun e f hv =>
        (none (hv.of_later gs.later gt.later) (by simp [hs, ht])).elim⟩
      exact (like_seq 0 t.store.fresh (.cons hm.skip (.cons h .nil))).right
  · rw [token_of_ne_empty hs]
    by_cases ht : t.skip = .empty
    · rw [token_of_empty ht]
      obtain ⟨hm', gs, gt⟩ :=
        hm.grow (grows_fresh s) (.refl t) ⟨rfl, rfl, rfl, rfl⟩
          ⟨rfl, rfl, rfl, rfl⟩ hm.rest hm.opened hm.log
      refine ⟨hm', gs, gt, ?_, h.right, fun e f hv =>
        (none (hv.of_later gs.later gt.later) (by simp [hs, ht])).elim⟩
      exact (like_seq s.store.fresh 0 (.cons hm.skip (.cons h .nil))).left
    · rw [token_of_ne_empty ht]
      obtain ⟨hm', gs, gt⟩ :=
        hm.grow (grows_fresh s) (grows_fresh t) ⟨rfl, rfl, rfl, rfl⟩
          ⟨rfl, rfl, rfl, rfl⟩ hm.rest hm.opened hm.log
      exact ⟨hm', gs, gt, (like_seq _ _ (.cons hm.skip (.cons h .nil))).grows gs gt⟩

theorem inStep_sound_same (x : Except Fault α) :
    InStep first n m (sound x) (sound x) s t fun a s' b t' => a = b ∧ s' = s ∧ t' = t := by
  refine inStep_sound fun _ => ?_
  cases x with
  | ok a => exact .inl ⟨a, a, rfl, rfl, rfl, rfl, rfl⟩
  | error f => exact .inr ⟨f, rfl, rfl⟩

theorem inStep_openCapture :
    InStep first n m (openCapture (src.inlining n)) (openCapture (src.inlining m)) s t
      fun a _ b _ => a = b := by
  refine inStep_bind (inStep_get (R := fun a s' b t' => a = s' ∧ b = t' ∧ Matched first n m s' t')
    fun hm => ⟨rfl, rfl, hm⟩) fun a s₁ b t₁ _ _ h => ?_
  obtain ⟨rfl, rfl, hm⟩ := h
  refine inStep_bind (inStep_sound_same _) fun x s₂ y t₂ _ _ h => ?_
  obtain ⟨rfl, rfl, rfl⟩ := h
  rw [hm.opened]
  refine inStep_ite inStep_fail ?_
  refine inStep_bind (inStep_set (R := fun _ _ _ _ => True) (fun hm => ?_) fun _ => trivial)
    fun _ _ _ _ _ _ _ => inStep_pure fun _ => rfl
  exact hm.grow (.of_store rfl) (.of_store rfl) ⟨rfl, rfl, rfl, rfl⟩
    ⟨rfl, rfl, rfl, rfl⟩ hm.rest rfl hm.log

def Known (first r : Nat) (s : State) : Prop :=
  first ≤ r ∧ r ∈ s.names.map Prod.snd

def State.naming (s : State) (name : Text) (place : Position) : State :=
  { s with
    store := (s.store.addRule { name := name, place := place }).2
    names := s.names ++ [(name, s.store.rules.size)] }

theorem bodyOf_naming (s : State) (name : Text) (place : Position) (r : Nat) :
    bodyOf (s.naming name place) r = bodyOf s r := by
  simp only [bodyOf, State.naming, Store.addRule, Array.getElem?_push]
  split
  · next hr => simp [hr]
  · rfl

theorem grows_naming (s : State) (name : Text) (place : Position) : Grows s (s.naming name place) :=
  ⟨Nat.le_refl _, fun _ _ => rfl, bodyOf_naming s name place⟩

theorem Matched.naming (hm : Matched first n m s t) (name : Text) (place : Position) :
    Matched first n m (s.naming name place) (t.naming name place) where
  rest := hm.rest
  names := by simp only [State.naming, hm.names, hm.size]
  inGrammar := hm.inGrammar
  opened := hm.opened
  size := by simp [State.naming, Store.addRule, hm.size]
  known := by have := hm.known; simp [State.naming, Store.addRule]; omega
  heads r := by
    simp only [State.naming, Store.addRule, Array.getElem?_push, hm.size]
    split
    · rfl
    · exact hm.heads r
  log := hm.log
  numbers r hr := by
    simp only [State.naming, List.map_append, List.mem_append, List.map_cons, List.map_nil,
      List.mem_singleton] at hr
    rcases hr with hr | rfl
    · exact hm.numbers r hr
    · exact hm.known
  rules r rule hr hrule := by
    simp only [State.naming, Store.addRule, Array.getElem?_push] at hrule
    split at hrule
    · cases hrule
      simp
    · exact hm.rules r rule hr hrule
  bodies r p q hr hp hq := by
    rw [bodyOf_naming] at hp hq
    exact (hm.bodies r p q hr hp hq).grows (grows_naming s name place) (grows_naming t name place)
  skip := hm.skip.grows (grows_naming s name place) (grows_naming t name place)

theorem inStep_ruleNamed {name start : Text} :
    InStep first n m (ruleNamed (src.inlining n) name start)
      (ruleNamed (src.inlining m) name start) s t fun r s' r' _ => r = r' ∧ Known first r s' := by
  refine inStep_bind (inStep_get (R := fun a s' b t' => a = s' ∧ b = t' ∧ Matched first n m s' t')
    fun hm => ⟨rfl, rfl, hm⟩) fun a s₁ b t₁ _ _ h => ?_
  obtain ⟨rfl, rfl, hm⟩ := h
  have hnames : b.names.lookup name = a.names.lookup name := by rw [hm.names]
  cases hl : a.names.lookup name with
  | some r =>
    rw [hnames, hl]
    refine inStep_pure fun hm => ⟨rfl, ?_⟩
    have := mem_of_lookup hl
    exact ⟨hm.numbers r this, this⟩
  | none =>
    rw [hnames, hl]
    refine inStep_bind
      (inStep_set (R := fun _ s' _ _ => Known first a.store.rules.size s')
        (u := a.naming name (src.place start)) (v := b.naming name (src.place start))
        (fun hm => ⟨hm.naming _ _, grows_naming a _ _, grows_naming b _ _⟩) fun hm =>
        ⟨hm.known, by simp [State.naming]⟩) fun _ _ _ _ _ _ h => inStep_pure fun _ => ⟨hm.size, h⟩

structure Outer (f : Rule → Rule) : Prop where
  head : ∀ rule, head (f rule) = f (head rule)
  body : ∀ rule, (f rule).body = rule.body
  proper : ∀ rule, (f rule).proper = rule.proper
  declared : ∀ rule, (f rule).declared = rule.declared

def State.changing (s : State) (r : Nat) (f : Rule → Rule) : State :=
  { s with store := s.store.modifyRule r f }

theorem getElem?_changing (s : State) (r : Nat) (f : Rule → Rule) (r' : Nat) :
    (s.changing r f).store.rules[r']? =
      if r = r' then s.store.rules[r']?.map f else s.store.rules[r']? := by
  simp only [State.changing, Store.modifyRule, Array.getElem?_modify]

theorem bodyOf_changing (s : State) (r : Nat) {f : Rule → Rule} (hf : Outer f) (r' : Nat) :
    bodyOf (s.changing r f) r' = bodyOf s r' := by
  rw [bodyOf, getElem?_changing, bodyOf]
  split
  · cases s.store.rules[r']? <;> simp [hf.body]
  · rfl

theorem grows_changing (s : State) (r : Nat) {f : Rule → Rule} (hf : Outer f) :
    Grows s (s.changing r f) :=
  ⟨Nat.le_refl _, fun _ _ => rfl, bodyOf_changing s r hf⟩

theorem Matched.changing (hm : Matched first n m s t) (r : Nat) {f : Rule → Rule} (hf : Outer f) :
    Matched first n m (s.changing r f) (t.changing r f) where
  rest := hm.rest
  names := hm.names
  inGrammar := hm.inGrammar
  opened := hm.opened
  size := by simpa [State.changing, Store.modifyRule] using hm.size
  known := by simpa [State.changing, Store.modifyRule] using hm.known
  heads r' := by
    have comm (o : Option Rule) : (o.map f).map head = (o.map head).map f := by
      cases o <;> simp [hf.head]
    rw [getElem?_changing, getElem?_changing]
    split
    · rw [comm, comm, hm.heads]
    · exact hm.heads r'
  log := hm.log
  numbers := hm.numbers
  rules r' rule hr' hrule := by
    rw [getElem?_changing] at hrule
    split at hrule
    · obtain ⟨old, hold, rfl⟩ := Option.map_eq_some_iff.1 hrule
      rw [hf.proper, hf.body, hf.declared]
      exact hm.rules r' old hr' hold
    · exact hm.rules r' rule hr' hrule
  bodies r' p q hr' hp hq := by
    rw [bodyOf_changing _ r hf] at hp hq
    exact (hm.bodies r' p q hr' hp hq).grows (grows_changing s r hf) (grows_changing t r hf)
  skip := hm.skip.grows (grows_changing s r hf) (grows_changing t r hf)

theorem inStep_markUsed (r : Nat) : InStep first n m (markUsed r) (markUsed r) s t
    fun _ s' _ _ => s'.names = s.names := by
  intro hm
  exact ⟨hm.changing r ⟨fun _ => rfl, fun _ => rfl, fun _ => rfl, fun _ => rfl⟩,
    grows_changing s r ⟨fun _ => rfl, fun _ => rfl, fun _ => rfl, fun _ => rfl⟩,
    grows_changing t r ⟨fun _ => rfl, fun _ => rfl, fun _ => rfl, fun _ => rfl⟩, rfl⟩

theorem inStep_setPlace (r : Nat) (place : Position) :
    InStep first n m (setPlace r place) (setPlace r place) s t fun _ s' _ _ =>
      s'.names = s.names := by
  intro hm
  exact ⟨hm.changing r ⟨fun _ => rfl, fun _ => rfl, fun _ => rfl, fun _ => rfl⟩,
    grows_changing s r ⟨fun _ => rfl, fun _ => rfl, fun _ => rfl, fun _ => rfl⟩,
    grows_changing t r ⟨fun _ => rfl, fun _ => rfl, fun _ => rfl, fun _ => rfl⟩, rfl⟩

theorem inlined_spec (limit : Int) {store : Store} {r : Nat} (hb : store.body? r = .ok (some p))
    (hp : p.Normal .all) :
    inlined? store (.int limit) r = .ok (some p) ∧ 0 < limit ∧ p.Normal .pure ∨
      inlined? store (.int limit) r = .ok none ∧ (p = .empty → limit ≤ 0) := by
  obtain ⟨c, hc, hcost, hpure⟩ :=
    Pattern.cost_spec hp (store.costRule (.int limit) store.rules.size) (d := .int limit) rfl
  have hcost' : store.cost (.int limit) p = .ok c := hcost
  by_cases h0 : limit = 0
  · refine .inr ⟨?_, fun _ => by omega⟩
    simp [inlined?, hb, h0, Datum.holds, bind, Except.bind]
  · have hholds : (Datum.int limit).holds = true := by simp [Datum.holds, h0]
    by_cases hlt : c < limit
    · refine .inl ⟨?_, by omega, hpure hlt⟩
      simp [inlined?, hb, hholds, hcost', hlt, bind, Except.bind]
    · refine .inr ⟨?_, ?_⟩
      · simp [inlined?, hb, hholds, hcost', hlt, bind, Except.bind]
      · rintro rfl
        have : c = 0 := (Except.ok.inj hcost).symm
        omega

theorem pure_of_inlined {store : Store} {limit : Datum} {r : Nat}
    (h : inlined? store limit r = .ok (some p)) (hp : p.Normal .all) : p.Normal .pure := by
  have hb := body_of_inlined h
  simp only [inlined?, hb, bind, Except.bind] at h
  split at h
  · cases hl : limit.int? with
    | none =>
      simp only [Datum.limit, hl, mapError_error] at h
      split at h <;> cases h
    | some most =>
      obtain ⟨c, -, hcost, hpure⟩ := Pattern.cost_spec hp (store.costRule limit store.rules.size) hl
      simp only [Store.cost, hcost, Datum.limit, hl, mapError_ok] at h
      split at h
      · next hlt => exact hpure hlt
      · cases h
  · cases h

theorem inlined_of_none {store : Store} {r : Nat} {limit : Int} (hb : store.body? r = .ok none) :
    inlined? store (.int limit) r = .ok none := by
  simp [inlined?, hb, bind, Except.bind]

theorem body?_eq {s : State} {r : Nat} (h : ∀ rule, s.store.rules[r]? = some rule → rule.proper) :
    s.store.body? r = .ok (bodyOf s r) := by
  cases hr : s.store.rules[r]? with
  | none => simp [Store.body?, Store.rule, bodyOf, hr]
  | some rule => simp [Store.body?, Store.rule, bodyOf, hr, h rule hr]

theorem isSome_bodyOf (s : State) (r : Nat) :
    (bodyOf s r).isSome = ((s.store.rules[r]?.map head).bind Rule.body).isSome := by
  cases h : s.store.rules[r]? with
  | none => simp [bodyOf, h]
  | some rule => simp [bodyOf, h, head]

theorem Matched.proper (hm : Matched first n m s t) {r : Nat} (hr : first ≤ r) {rule : Rule}
    (h : t.store.rules[r]? = some rule) : rule.proper := by
  have hh := hm.heads r
  rw [h] at hh
  obtain ⟨rule', hrule', he⟩ := Option.map_eq_some_iff.1 hh
  have hproper : (head rule').proper = (head rule).proper := by rw [he]
  exact hproper ▸ (hm.rules r rule' hr hrule').1

theorem Matched.body (hm : Matched first n m s t) {r : Nat} (hr : first ≤ r) :
    (s.store.body? r = .ok none ∧ t.store.body? r = .ok none) ∨
      ∃ p q, s.store.body? r = .ok (some p) ∧ t.store.body? r = .ok (some q) ∧ bodyOf s r = some p ∧
        bodyOf t r = some q ∧ Like first n m s t p q := by
  rw [body?_eq fun rule h => (hm.rules r rule hr h).1, body?_eq fun rule h => hm.proper hr h]
  have hsome : (bodyOf s r).isSome = (bodyOf t r).isSome := by
    rw [isSome_bodyOf, isSome_bodyOf, hm.heads]
  cases hp : bodyOf s r with
  | none =>
    cases hq : bodyOf t r with
    | none => exact .inl ⟨rfl, rfl⟩
    | some q => simp [hp, hq] at hsome
  | some p =>
    cases hq : bodyOf t r with
    | none => simp [hp, hq] at hsome
    | some q => exact .inr ⟨p, q, rfl, rfl, rfl, rfl, hm.bodies r p q hr hp hq⟩

theorem tame_of_pure {e : Env} (h : p.Normal .pure) : p.Normal e.tame :=
  h.mono ⟨fun _ h => h.elim, fun _ h => h.elim, fun _ _ => trivial⟩

theorem like_call {r i j : Nat} (hr : first ≤ r) : Like first n m s t (.call i r) (.call j r) where
  left := .leaf trivial rfl
  right := .leaf trivial rfl
  alike e f hv := Pattern.alike_plain (hv.call r hr) (.leaf trivial rfl) (.leaf trivial rfl)
    ⟨rfl, by simp⟩ ⟨rfl, by simp⟩

theorem like_body_call {r j : Nat} (hr : first ≤ r) (h : Like first n m s t p q)
    (hp : p.Normal .pure) (hpb : bodyOf s r = some p) (hqb : bodyOf t r = some q) (hn : 0 < n)
    (hm : q = .empty → m ≤ 0) : Like first n m s t p (.call j r) where
  left := h.left
  right := .leaf trivial rfl
  alike e f hv := by
    have ha := h.alike e f hv
    have hcall : f.call r = p.denote e := (hv.body r q hr hqb).trans ha.shape.same.symm
    refine Pattern.alike_tame hcall.symm (tame_of_pure hp) (.leaf ?_ rfl) ?_
    · simp only [Pattern.NormalNode, Env.tame, hcall]
      exact Pattern.keeps_denote (tame_of_pure hp)
    · simp only [reduceCtorEq, iff_false]
      rintro rfl
      have h0 := hm (ha.empty.1 rfl)
      exact hv.unspoilt ⟨by omega, r, hr, .inl hpb⟩

theorem like_call_body {r i : Nat} (hr : first ≤ r) (h : Like first n m s t p q)
    (hq : q.Normal .pure) (hqb : bodyOf t r = some q) (hm : 0 < m) (hn : p = .empty → n ≤ 0) :
    Like first n m s t (.call i r) q where
  left := .leaf trivial rfl
  right := h.right
  alike e f hv := by
    have ha := h.alike e f hv
    have hcall : e.call r = q.denote f := (hv.call r hr).trans (hv.body r q hr hqb)
    refine Pattern.alike_tame hcall (.leaf ?_ rfl) (tame_of_pure hq) ?_
    · simp only [Pattern.NormalNode, Env.tame, hcall]
      exact Pattern.keeps_denote (tame_of_pure hq)
    · simp only [reduceCtorEq, false_iff]
      rintro rfl
      have h0 := hn (ha.empty.2 rfl)
      exact hv.unspoilt ⟨by omega, r, hr, .inr hqb⟩

def mention (name : Text) (r : Nat) : Option Pattern → Reader Pattern
  | some body => do
    modify fun s => { s with log := .inlining name :: s.log }
    return body
  | none => return .call (← freshId) r

theorem inStep_mention {name : Text} {r : Nat} {o o' : Option Pattern}
    (h : ∀ i j, Like first n m s t (o.getD (.call i r)) (o'.getD (.call j r))) :
    InStep first n m (mention name r o) (mention name r o') s t fun p s' q t' =>
      Like first n m s' t' p q := by
  intro hm
  have noted (c : State) : Grows c { c with log := .inlining name :: c.log } := .of_store rfl
  cases o with
  | some p =>
    cases o' with
    | some q =>
      obtain ⟨hm', gs, gt⟩ := hm.grow (noted s) (noted t) ⟨rfl, rfl, rfl, rfl⟩ ⟨rfl, rfl, rfl, rfl⟩
        hm.rest hm.opened hm.log
      exact ⟨hm', gs, gt, (h 0 0).grows gs gt⟩
    | none =>
      obtain ⟨hm', gs, gt⟩ :=
        hm.grow (noted s) (grows_fresh t) ⟨rfl, rfl, rfl, rfl⟩
          ⟨rfl, rfl, rfl, rfl⟩ hm.rest hm.opened hm.log
      exact ⟨hm', gs, gt, (h 0 t.store.fresh).grows gs gt⟩
  | none =>
    cases o' with
    | some q =>
      obtain ⟨hm', gs, gt⟩ :=
        hm.grow (grows_fresh s) (noted t) ⟨rfl, rfl, rfl, rfl⟩
          ⟨rfl, rfl, rfl, rfl⟩ hm.rest hm.opened hm.log
      exact ⟨hm', gs, gt, (h s.store.fresh 0).grows gs gt⟩
    | none =>
      obtain ⟨hm', gs, gt⟩ :=
        hm.grow (grows_fresh s) (grows_fresh t) ⟨rfl, rfl, rfl, rfl⟩
          ⟨rfl, rfl, rfl, rfl⟩ hm.rest hm.opened hm.log
      exact ⟨hm', gs, gt, (h s.store.fresh t.store.fresh).grows gs gt⟩

theorem inStep_inlined {name : Text} {r : Nat} (hr : first ≤ r) :
    InStep first n m (sound (inlined? s.store (.int n) r) >>= mention name r)
      (sound (inlined? t.store (.int m) r) >>= mention name r) s t fun p s' q t' =>
      Like first n m s' t' p q := by
  refine inStep_bind (inStep_sound (R := fun o s' o' t' =>
    ∀ i j, Like first n m s' t' (o.getD (.call i r)) (o'.getD (.call j r))) fun hm => .inl ?_)
    fun o s₁ o' t₁ _ _ h => inStep_mention h
  rcases hm.body hr with ⟨hp, hq⟩ | ⟨p, q, hp, hq, hpb, hqb, hlike⟩
  · exact ⟨none, none, inlined_of_none hp, inlined_of_none hq, fun i j => like_call hr⟩
  · rcases inlined_spec n hp hlike.left with ⟨hl, hn, hpure⟩ | ⟨hl, hn⟩
    · rcases inlined_spec m hq hlike.right with ⟨hl', -, -⟩ | ⟨hl', hm'⟩
      · exact ⟨some p, some q, hl, hl', fun i j => hlike⟩
      · exact ⟨some p, none, hl, hl', fun i j => like_body_call hr hlike hpure hpb hqb hn hm'⟩
    · rcases inlined_spec m hq hlike.right with ⟨hl', hm', hpure⟩ | ⟨hl', -⟩
      · exact ⟨none, some q, hl, hl', fun i j => like_call_body hr hlike hpure hqb hm' hn⟩
      · exact ⟨none, none, hl, hl', fun i j => like_call hr⟩

theorem inStep_reference {name start : Text} :
    InStep first n m (reference (src.inlining n) name start)
      (reference (src.inlining m) name start) s t fun p s' q t' => Like first n m s' t' p q := by
  refine inStep_bind (inStep_get (R := fun a _ b _ => a.inGrammar = b.inGrammar)
    fun hm => hm.inGrammar) fun a s₁ b t₁ _ _ h => ?_
  rw [h]
  refine inStep_ite ?_ inStep_failAt
  refine inStep_bind inStep_ruleNamed fun r s₂ r' t₂ _ _ h => ?_
  obtain ⟨rfl, hr, -⟩ := h
  refine inStep_bind (inStep_markUsed r) fun _ s₃ _ t₃ _ _ _ => ?_
  refine inStep_bind (inStep_get (R := fun a s' b t' => a = s' ∧ b = t') fun _ => ⟨rfl, rfl⟩)
    fun a s₄ b t₄ _ _ h => ?_
  obtain ⟨rfl, rfl⟩ := h
  exact inStep_inlined hr

theorem like_leaf (hp : ∀ A, p.Normal A) (hq : ∀ A, q.Normal A)
    (same : ∀ e f : Env, e.Twin f → p.denote e = q.denote f) (empty : p = .empty ↔ q = .empty) :
    Like first n m s t p q :=
  ⟨hp _, hq _, fun e f hv => Pattern.alike_tame (same e f hv.twin) (hp _) (hq _) empty⟩

/-- A node around another one that a repetition leaves as it is. -/
structure Wraps (w p : Pattern) : Prop where
  normal : w.NormalNode .all
  children : w.children = [p]
  repeatable : w.isRepeatable
  solid : w ≠ .empty

theorem like_wrap {w w' : Pattern} (h : Like first n m s t p q) (hp : Wraps w p) (hq : Wraps w' q)
    (same : ∀ e f, Views first n m s t e f → p.denote e = q.denote f → w.denote e = w'.denote f) :
    Like first n m s t w w' := by
  have left : w.Normal .all := .single hp.normal hp.children h.left
  have right : w'.Normal .all := .single hq.normal hq.children h.right
  exact ⟨left, right, fun e f hv => Pattern.alike_plain (same e f hv (h.alike e f hv).shape.same)
    left right ⟨hp.repeatable, hp.solid⟩ ⟨hq.repeatable, hq.solid⟩⟩

theorem inStep_backReference {how : Comparison} {start : Text} :
    InStep first n m (backReference (src.inlining n) how start)
      (backReference (src.inlining m) how start) s t fun p s' q t' => Like first n m s' t' p q := by
  simp only [backReference]
  refine inStep_ite inStep_failAt ?_
  refine inStep_bind (inStep_sound_same _) fun x s₁ y t₁ _ _ h => ?_
  obtain ⟨rfl, -, -⟩ := h
  refine inStep_bind (inStep_advance _) fun _ s₂ _ t₂ _ _ _ => ?_
  refine inStep_bind (inStep_get (R := fun a _ b _ => a.opened = b.opened) fun hm => hm.opened)
    fun a s₃ b t₃ _ _ h => ?_
  rw [h]
  refine inStep_ite ?_ inStep_failAt
  refine inStep_bind inStep_freshId fun i s₄ j t₄ _ _ _ => inStep_pure fun _ => ?_
  have normal (id : Nat) : (Pattern.backref id how (x - 1)).Normal .all := .leaf trivial rfl
  refine ⟨normal i, normal j, fun e f hv =>
    Pattern.alike_tame ?_ (.leaf trivial rfl) (.leaf trivial rfl) (by simp)⟩
  simp only [Pattern.denote, hv.twin.subject]

theorem like_text (i j : Nat) (how : Comparison) (body : Text) :
    Like first n m s t (.text i how body) (.text j how body) := by
  refine like_leaf (fun A => Pattern.normal_text i how body)
    (fun A => Pattern.normal_text j how body) (fun e f ht => ?_) ?_
  · have loose : (if body.isEmpty then Pattern.empty else .literal i how body).denote e =
        (if body.isEmpty then Pattern.empty else .literal j how body).denote f := by
      split
      · rfl
      · simp only [Pattern.denote, ht.subject]
    cases how with
    | exact =>
      cases body with
      | nil => rfl
      | cons c body =>
        cases body <;> simp only [Pattern.text, Pattern.term, Pattern.denote, ht.subject]
    | ignoreCase => exact loose
    | ignoreStyle => exact loose
  · cases how with
    | exact =>
      cases body with
      | nil => simp [Pattern.text, Pattern.term]
      | cons c body => cases body <;> simp [Pattern.text, Pattern.term]
    | ignoreCase => cases body <;> simp [Pattern.text]
    | ignoreStyle => cases body <;> simp [Pattern.text]

theorem inStep_literal {how : Comparison} {verbatim : Bool} {text : Text} :
    InStep first n m (literal (src.inlining n) how verbatim text)
      (literal (src.inlining m) how verbatim text) s t fun p s' q t' =>
      Like first n m s' t' p q := by
  refine inStep_bind inStep_read fun body s₁ body' t₁ _ _ h => ?_
  subst h
  exact inStep_bind inStep_freshId fun i s₂ j t₂ _ _ _ => inStep_token (like_text i j how body)

theorem like_set (i j : Nat) (members : RuneSet) (negated : Bool) :
    Like first n m s t (.set i members (.ofBool negated)) (.set j members (.ofBool negated)) :=
  like_leaf (fun _ => Pattern.normal_set i _ _) (fun _ => Pattern.normal_set j _ _)
    (fun e f ht => by simp only [Pattern.denote, ht.subject]) (by simp)

theorem inStep_characterClass {start text : Text} :
    InStep first n m (characterClass (src.inlining n) start text)
      (characterClass (src.inlining m) start text) s t fun p s' q t' =>
      Like first n m s' t' p q := by
  refine inStep_bind inStep_read fun body s₁ body' t₁ _ _ h => ?_
  subst h
  exact inStep_bind inStep_freshId fun i s₂ j t₂ _ _ _ => inStep_token (like_set i j _ _)

theorem like_opt (i j : Nat) (h : Like first n m s t p q) :
    Like first n m s t (.opt i p) (.opt j q) :=
  ⟨Pattern.normal_opt i h.left, Pattern.normal_opt j h.right,
    fun e f hv => Pattern.alike_opt i j (h.alike e f hv)⟩

theorem like_repeated (i j : Nat) (h : Like first n m s t p q) :
    Like first n m s t (.repeated i p) (.repeated j q) :=
  ⟨Pattern.normal_repeated i h.left, Pattern.normal_repeated j h.right,
    fun e f hv => Pattern.alike_repeated hv.twin i j (h.alike e f hv)⟩

theorem like_plus (i i' j j' : Nat) (h : Like first n m s t p q) :
    Like first n m s t (.plus i i' p) (.plus j j' q) :=
  ⟨Pattern.normal_plus i i' h.left, Pattern.normal_plus j j' h.right,
    fun e f hv => Pattern.alike_plus hv.twin i i' j j' (h.alike e f hv)⟩

theorem inStep_suffixes (room : Nat) (h : Like first n m s t p q) :
    InStep first n m (suffixes room p) (suffixes room q) s t fun p s' q t' =>
      Like first n m s' t' p q := by
  induction room generalizing p q s t with
  | zero => exact inStep_pure fun _ => h
  | succ room ih =>
    refine inStep_bind inStep_ahead fun a s₁ b t₁ gs gt hab => ?_
    subst hab
    have h := h.grows gs gt
    cases a with
    | nil => exact inStep_pure fun _ => h
    | cons c rest =>
      refine inStep_ite ?_ (inStep_ite ?_ (inStep_ite ?_ (inStep_pure fun _ => h)))
      · refine inStep_bind (inStep_advance _) fun _ s₂ _ t₂ gs gt _ => ?_
        refine inStep_bind inStep_freshId fun i s₃ j t₃ gs' gt' _ => ih ?_
        exact like_opt i j ((h.grows gs gt).grows gs' gt')
      · refine inStep_bind (inStep_advance _) fun _ s₂ _ t₂ gs gt _ => ?_
        refine inStep_bind inStep_freshId fun i s₃ j t₃ gs' gt' _ => ih ?_
        exact like_repeated i j ((h.grows gs gt).grows gs' gt')
      · refine inStep_bind (inStep_advance _) fun _ s₂ _ t₂ gs gt _ => ?_
        refine inStep_bind inStep_freshId fun i s₃ j t₃ gs' gt' _ => ?_
        refine inStep_bind inStep_freshId fun i' s₄ j' t₄ gs'' gt'' _ => ih ?_
        exact like_plus i i' j j' (((h.grows gs gt).grows gs' gt').grows gs'' gt'')

theorem inStep_close {wanted opener : Nat} {start : Text} :
    InStep first n m (close (src.inlining n) wanted opener start)
      (close (src.inlining m) wanted opener start) s t fun _ _ _ _ => True := by
  refine inStep_bind inStep_ahead fun a s₁ b t₁ _ _ hab => ?_
  subst hab
  cases a with
  | nil => exact inStep_failAt
  | cons c rest => exact inStep_ite (inStep_advance _) inStep_fail

def LikeNamed (first : Nat) (n m : Int) (o : Option Pattern) (s : State) (o' : Option Pattern)
    (t : State) : Prop :=
  match o, o' with
  | some p, some q => Like first n m s t p q
  | none, none => True
  | _, _ => False

theorem like_ident (i i' i'' j j' j'' : Nat) :
    Like first n m s t (.ident i i' i'') (.ident j j' j'') := by
  refine like_seq i'' j'' (.cons ?_ (.cons ?_ .nil))
  · exact like_set i j _ false
  · exact like_repeated i' j' (like_set i j _ false)

theorem inStep_named {name : Text} :
    InStep first n m (named? name) (named? name) s t (LikeNamed first n m) := by
  have simple {s t : State} {p : Pattern} (hp : ∀ A, p.Normal A)
      (same : ∀ e f : Env, e.Twin f → p.denote e = p.denote f) :
      InStep first n m (pure (some p)) (pure (some p)) s t (LikeNamed first n m) :=
    inStep_pure fun _ => like_leaf hp hp same .rfl
  have category (c : Category) {s t : State} : InStep first n m (pure (some (.category c)))
      (pure (some (.category c))) s t (LikeNamed first n m) :=
    simple (fun _ => .leaf trivial rfl) fun e f ht => by simp only [Pattern.denote, ht.subject]
  refine inStep_ite (simple (fun _ => .leaf trivial rfl) fun e f ht => ?_) ?_
  · simp only [Pattern.denote, ht.subject]
  cases hset : Pattern.namedSet? name with
  | some p =>
    refine simple (fun _ => Pattern.normal_namedSet hset) fun e f ht => ?_
    unfold Pattern.namedSet? at hset
    split at hset <;> cases hset <;> simp only [Pattern.denote, ht.subject]
  | none =>
    refine inStep_ite (category _)
      (inStep_ite (category _)
        (inStep_ite (category _)
          (inStep_ite (category _)
            (inStep_ite (category _) (inStep_ite ?_ (inStep_pure fun _ => trivial))))))
    refine inStep_bind inStep_freshId fun i s₁ j t₁ _ _ _ => ?_
    refine inStep_bind inStep_freshId fun i' s₂ j' t₂ _ _ _ => ?_
    refine inStep_bind inStep_freshId fun i'' s₃ j'' t₃ _ _ _ => inStep_pure fun _ => ?_
    exact like_ident i i' i'' j j' j''

theorem inStep_builtin {start text : Text} :
    InStep first n m (builtin (src.inlining n) start text) (builtin (src.inlining m) start text) s t
      fun p s' q t' => Like first n m s' t' p q := by
  refine inStep_bind inStep_named fun o s₁ o' t₁ _ _ h => ?_
  cases o with
  | some p =>
    cases o' with
    | none => exact h.elim
    | some q =>
      refine inStep_bind (inStep_advance _) fun _ s₂ _ t₂ gs gt _ => inStep_token ?_
      exact Like.grows h gs gt
  | none =>
    cases o' with
    | some q => exact h.elim
    | none =>
      refine inStep_ite inStep_failAt ?_
      cases Token.escape? text with
      | none => exact inStep_failAt
      | some c =>
        refine inStep_bind (inStep_advance _) fun _ s₂ _ t₂ _ _ _ => ?_
        refine inStep_bind inStep_freshId fun i s₃ j t₃ _ _ _ => inStep_token ?_
        exact like_leaf (fun _ => .leaf trivial rfl) (fun _ => .leaf trivial rfl)
          (fun e f ht => by simp only [Pattern.denote, ht.subject]) (by simp)

structure ReadsInStep (src : Source) (first : Nat) (n m : Int) (fuel : Nat) : Prop where
  expression : ∀ s t, InStep first n m (expression (src.inlining n) fuel)
    (expression (src.inlining m) fuel) s t fun p s' q t' => Like first n m s' t' p q
  alternatives : ∀ s t, InStep first n m (alternatives (src.inlining n) fuel)
    (alternatives (src.inlining m) fuel) s t (Likes first n m)
  sequence : ∀ s t, InStep first n m (sequence (src.inlining n) fuel)
    (sequence (src.inlining m) fuel) s t fun p s' q t' => Like first n m s' t' p q
  items : ∀ s t, InStep first n m (items (src.inlining n) fuel) (items (src.inlining m) fuel) s t
    (Likes first n m)
  prefixed : ∀ s t, InStep first n m (prefixed (src.inlining n) fuel)
    (prefixed (src.inlining m) fuel) s t fun p s' q t' => Like first n m s' t' p q
  primary : ∀ s t, InStep first n m (primary (src.inlining n) fuel)
    (primary (src.inlining m) fuel) s t fun p s' q t' => Like first n m s' t' p q

section

variable (fuel : Nat) (ih : ReadsInStep src first n m fuel)
include ih

theorem inStep_expression :
    InStep first n m (expression (src.inlining n) (fuel + 1))
      (expression (src.inlining m) (fuel + 1)) s t fun p s' q t' => Like first n m s' t' p q := by
  refine inStep_bind (ih.sequence s t) fun p s₁ q t₁ _ _ hp => ?_
  refine inStep_bind (ih.alternatives s₁ t₁) fun ps s₂ qs t₂ gs gt hps => ?_
  refine inStep_bind inStep_freshId fun i s₃ j t₃ gs' gt' _ => inStep_pure fun _ => ?_
  exact (like_alt i j (.cons (hp.grows gs gt) hps)).grows gs' gt'

theorem inStep_alternatives :
    InStep first n m (alternatives (src.inlining n) (fuel + 1))
      (alternatives (src.inlining m) (fuel + 1)) s t (Likes first n m) := by
  refine inStep_bind inStep_ahead fun a s₁ b t₁ _ _ hab => ?_
  subst hab
  split
  · refine inStep_bind (inStep_advance _) fun _ s₂ _ t₂ _ _ _ => ?_
    refine inStep_bind (ih.sequence s₂ t₂) fun p s₃ q t₃ _ _ hp => ?_
    refine inStep_bind (ih.alternatives s₃ t₃) fun ps s₄ qs t₄ gs gt hps => inStep_pure fun _ => ?_
    exact .cons (hp.grows gs gt) hps
  · exact inStep_pure fun _ => .nil

theorem inStep_sequence :
    InStep first n m (sequence (src.inlining n) (fuel + 1))
      (sequence (src.inlining m) (fuel + 1)) s t fun p s' q t' => Like first n m s' t' p q := by
  refine inStep_bind (ih.items s t) fun ps s₁ qs t₁ _ _ hps => ?_
  refine inStep_bind inStep_freshId fun i s₂ j t₂ gs gt _ => inStep_pure fun _ => ?_
  exact (like_seq i j hps).grows gs gt

theorem inStep_items :
    InStep first n m (items (src.inlining n) (fuel + 1)) (items (src.inlining m) (fuel + 1)) s t
      (Likes first n m) := by
  have none {s t : State} : InStep first n m (pure []) (pure []) s t (Likes first n m) :=
    inStep_pure fun _ => .nil
  refine inStep_bind inStep_ahead fun a s₁ b t₁ _ _ hab => ?_
  subst hab
  cases a with
  | nil => exact none
  | cons c rest =>
    refine inStep_ite none ?_
    refine inStep_bind (inStep_get (R := fun a _ b _ => a.inGrammar = b.inGrammar)
      fun hm => hm.inGrammar) fun a s₂ b t₂ _ _ h => ?_
    rw [h]
    refine inStep_ite none ?_
    refine inStep_bind (ih.prefixed s₂ t₂) fun p s₃ q t₃ _ _ hp => ?_
    refine inStep_bind (ih.items s₃ t₃) fun ps s₄ qs t₄ gs gt hps => inStep_pure fun _ => ?_
    exact .cons (hp.grows gs gt) hps

theorem inStep_prefixed :
    InStep first n m (prefixed (src.inlining n) (fuel + 1))
      (prefixed (src.inlining m) (fuel + 1)) s t fun p s' q t' => Like first n m s' t' p q := by
  have wrapped {text : Text} {wrap : Nat → Pattern → Pattern} {s t : State}
      (hw : ∀ i j p q s t, Like first n m s t p q → Like first n m s t (wrap i p) (wrap j q)) :
      InStep first n m
          (do advance text; let p ← prefixed (src.inlining n) fuel; return wrap (← freshId) p)
        (do advance text; let p ← prefixed (src.inlining m) fuel; return wrap (← freshId) p) s t
        fun p s' q t' => Like first n m s' t' p q := by
    refine inStep_bind (inStep_advance _) fun _ s₁ _ t₁ _ _ _ => ?_
    refine inStep_bind (ih.prefixed s₁ t₁) fun p s₂ q t₂ _ _ hp => ?_
    refine inStep_bind inStep_freshId fun i s₃ j t₃ gs gt _ => inStep_pure fun _ => ?_
    exact hw i j p q s₃ t₃ (hp.grows gs gt)
  refine inStep_bind inStep_ahead fun a s₁ b t₁ _ _ hab => ?_
  subst hab
  split
  · refine wrapped fun i j p q s t h =>
      like_wrap h ⟨trivial, rfl, rfl, by simp⟩ ⟨trivial, rfl, rfl, by simp⟩ ?_
    intro e f hv same
    simp only [Pattern.denote, same]
  · refine wrapped fun i j p q s t h =>
      like_wrap h ⟨trivial, rfl, rfl, by simp⟩ ⟨trivial, rfl, rfl, by simp⟩ ?_
    intro e f hv same
    simp only [Pattern.denote, same]
  · refine wrapped fun i j p q s t h =>
      like_wrap h ⟨trivial, rfl, rfl, by simp⟩ ⟨trivial, rfl, rfl, by simp⟩ ?_
    intro e f hv same
    simp only [Pattern.denote, same, hv.twin.subject]
  · refine inStep_bind inStep_openCapture fun slot s₂ slot' t₂ _ _ h => ?_
    subst h
    refine inStep_bind (inStep_advance _) fun _ s₃ _ t₃ _ _ _ => ?_
    refine inStep_bind (ih.prefixed s₃ t₃) fun p s₄ q t₄ _ _ hp => ?_
    refine inStep_bind (inStep_captureId slot) fun i s₅ j t₅ gs gt hslot => inStep_token ?_
    refine like_wrap (hp.grows gs gt) ⟨trivial, rfl, rfl, by simp⟩ ⟨trivial, rfl, rfl, by simp⟩ ?_
    intro e f hv same
    simp only [Pattern.denote, same, hv.twin.subject, hv.left i hslot.1.1, hslot.1.2,
      hv.right j hslot.2.1, hslot.2.2]
  · refine inStep_bind (ih.primary s₁ t₁) fun p s₂ q t₂ _ _ hp => ?_
    refine inStep_bind
      (inStep_get (R := fun a s' b t' => a.rest = b.rest ∧ Like first n m s' t' p q)
        fun hm => ⟨hm.rest, hp⟩) fun a s₃ b t₃ _ _ h => ?_
    rw [h.1]
    exact inStep_suffixes _ h.2

theorem inStep_primary :
    InStep first n m (primary (src.inlining n) (fuel + 1)) (primary (src.inlining m) (fuel + 1)) s t
      fun p s' q t' => Like first n m s' t' p q := by
  have simple {p : Pattern} {text : Text} {s t : State} (hp : ∀ A, p.Normal A)
      (same : ∀ e f : Env, e.Twin f → p.denote e = p.denote f) :
      InStep first n m (do advance text; token p) (do advance text; token p) s t
        fun p s' q t' => Like first n m s' t' p q :=
    inStep_bind (inStep_advance _) fun _ s₁ _ t₁ _ _ _ => inStep_token (like_leaf hp hp same .rfl)
  have reference {how : Comparison} {text : Text} {s t : State} :
      InStep first n m (do token (← backReference (src.inlining n) how text))
        (do token (← backReference (src.inlining m) how text)) s t
        fun p s' q t' => Like first n m s' t' p q :=
    inStep_bind inStep_backReference fun p s₁ q t₁ _ _ hp => inStep_token hp
  refine inStep_bind inStep_ahead fun a s₁ b t₁ _ _ hab => ?_
  subst hab
  cases a with
  | nil => exact inStep_fail
  | cons c rest =>
    refine inStep_ite inStep_literal (inStep_ite inStep_literal (inStep_ite inStep_literal
      (inStep_ite inStep_literal (inStep_ite reference (inStep_ite reference ?_)))))
    refine inStep_ite (inStep_ite reference ?_) ?_
    · refine inStep_bind (inStep_advance _) fun _ s₂ _ t₂ _ _ _ => ?_
      refine inStep_bind inStep_freshId fun i s₃ j t₃ _ _ _ => inStep_token ?_
      exact like_leaf (fun _ => Pattern.normal_endAnchor i) (fun _ => Pattern.normal_endAnchor j)
        (fun e f ht => by simp only [Pattern.endAnchor, Pattern.denote, ht.subject])
        (by simp [Pattern.endAnchor])
    refine inStep_ite ?_ ?_
    · refine inStep_bind (inStep_advance _) fun _ s₂ _ t₂ _ _ _ => ?_
      refine inStep_bind (ih.expression s₂ t₂) fun p s₃ q t₃ _ _ hp => ?_
      exact inStep_bind inStep_close fun _ s₄ _ t₄ gs gt _ => inStep_pure fun _ => hp.grows gs gt
    refine inStep_ite ?_ ?_
    · refine inStep_bind inStep_openCapture fun slot s₂ slot' t₂ _ _ h => ?_
      subst h
      refine inStep_bind (inStep_advance _) fun _ s₃ _ t₃ _ _ _ => ?_
      refine inStep_bind (ih.expression s₃ t₃) fun p s₄ q t₄ _ _ hp => ?_
      refine inStep_bind inStep_close fun _ s₅ _ t₅ gs gt _ => ?_
      refine inStep_bind (inStep_captureId slot) fun i s₆ j t₆ gs' gt' hslot =>
        inStep_pure fun _ => ?_
      refine like_wrap ((hp.grows gs gt).grows gs' gt') ⟨trivial, rfl, rfl, by simp⟩
        ⟨trivial, rfl, rfl, by simp⟩ ?_
      intro e f hv same
      simp only [Pattern.denote, same, hv.left i hslot.1.1, hslot.1.2,
        hv.right j hslot.2.1, hslot.2.2]
    refine inStep_ite inStep_characterClass ?_
    refine inStep_ite (simple (fun _ => .leaf trivial rfl) fun e f ht => ?_) ?_
    · simp only [Pattern.denote, ht.subject]
    refine inStep_ite (simple (fun _ => .leaf trivial rfl) fun e f ht => ?_) ?_
    · simp only [Pattern.denote, ht.subject]
    refine inStep_ite (simple (fun _ => .leaf trivial rfl) fun e f ht => ?_) ?_
    · simp only [Pattern.denote, ht.origin]
    refine inStep_ite (inStep_ite ?_ inStep_builtin) ?_
    · refine inStep_bind (inStep_advance _) fun _ s₂ _ t₂ _ _ _ => ?_
      refine inStep_bind (ih.prefixed s₂ t₂) fun p s₃ q t₃ _ _ hp => ?_
      refine inStep_bind (inStep_modify (R := fun _ _ _ _ => True) (fun hm => ?_) fun _ => trivial)
        fun _ s₄ _ t₄ _ _ _ => inStep_pure fun _ => ?_
      · exact ⟨hm.skipping hp, .of_store rfl, .of_store rfl⟩
      · exact like_leaf (fun _ => .leaf trivial rfl) (fun _ => .leaf trivial rfl)
          (fun _ _ _ => rfl) .rfl
    cases Token.name? (c :: rest) with
    | some name => exact inStep_bind (inStep_advance _) fun _ s₂ _ t₂ _ _ _ => inStep_reference
    | none => exact inStep_ite inStep_fail inStep_fail

end

theorem readsInStep (src : Source) (first : Nat) (n m : Int) (fuel : Nat) :
    ReadsInStep src first n m fuel := by
  induction fuel with
  | zero =>
    exact ⟨fun _ _ => inStep_tooDeep, fun _ _ => inStep_tooDeep, fun _ _ => inStep_tooDeep,
      fun _ _ => inStep_tooDeep, fun _ _ => inStep_tooDeep, fun _ _ => inStep_tooDeep⟩
  | succ fuel ih =>
    exact ⟨fun _ _ => inStep_expression fuel ih, fun _ _ => inStep_alternatives fuel ih,
      fun _ _ => inStep_sequence fuel ih, fun _ _ => inStep_items fuel ih,
      fun _ _ => inStep_prefixed fuel ih, fun _ _ => inStep_primary fuel ih⟩

end Grammar

end PegMatch

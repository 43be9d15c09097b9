import PegMatch.Proofs.Likeness
import PegMatch.Proofs.Rendering
import PegMatch.Proofs.Thinning

set_option autoImplicit false

namespace PegMatch

/-- What a mark is, whichever capture it is: a capture, or a reference to a slot. -/
def Mark.sort : Mark → Option Nat
  | .capture _ => none
  | .reference slot => some slot

namespace Grammar

open Meaning Build Mark

def Lexeme.sort? : Lexeme → Option (Option Nat)
  | .sign .openCapture | .sign .captured => some none
  | .atom (.backref _ number) => some (some (number - 1))
  | _ => none

def sorts (ls : List Lexeme) : List (Option Nat) :=
  ls.filterMap Lexeme.sort?

@[simp] theorem sorts_nil : sorts [] = [] := rfl

@[simp] theorem sorts_cons (l : Lexeme) (ls : List Lexeme) :
    sorts (l :: ls) = l.sort?.toList ++ sorts ls := by
  cases h : l.sort? <;> simp [sorts, h]

@[simp] theorem sorts_append (ls ls' : List Lexeme) : sorts (ls ++ ls') = sorts ls ++ sorts ls' :=
  List.filterMap_append

/-- A name is that of a known rule, and a number is short enough to be read. -/
structure Naming.Accepts (N : Naming) (l : Lexeme) : Prop where
  name : ∀ n, l = .name n → ∃ r, N.known r ∧ n = N.name r
  number : ∀ how k, l = .atom (.backref how k) → 1 ≤ k ∧ (Text.numeral k).length ≤ Text.mostDigits

theorem Naming.accepts_sign (N : Naming) (s : Sign) : N.Accepts (.sign s) :=
  ⟨by simp, by simp⟩

theorem Naming.accepts_between (N : Naming) {ls : List Lexeme} (h : ∀ l ∈ ls, N.Accepts l)
    (s s' : Sign) : ∀ l ∈ .sign s :: (ls ++ [.sign s']), N.Accepts l :=
  List.forall_mem_cons.2 ⟨N.accepts_sign s,
    List.forall_mem_append.2 ⟨h, List.forall_mem_singleton.2 (N.accepts_sign s')⟩⟩

/-- The second bench has more nodes, and those of the first keep their slots. -/
structure Bench.Later (b b' : Bench) : Prop where
  fresh : b.store.fresh ≤ b'.store.fresh
  slots : ∀ id < b.store.fresh, b'.store.slot? id = b.store.slot? id

theorem Bench.Later.refl (b : Bench) : b.Later b :=
  ⟨Nat.le_refl _, fun _ _ => rfl⟩

theorem Bench.Later.trans {b b' b'' : Bench} (h : b.Later b') (h' : b'.Later b'') : b.Later b'' :=
  ⟨Nat.le_trans h.fresh h'.fresh, fun id hid =>
    (h'.slots id (Nat.lt_of_lt_of_le hid h.fresh)).trans (h.slots id hid)⟩

namespace Build

variable {α β : Type}

def Extending (m : Build α) : Prop :=
  ∀ b : Bench, b.Later (m b).2

theorem extending_of_same {m : Build α}
    (h : ∀ b, (m b).2.store.fresh = b.store.fresh ∧ (m b).2.store.slots = b.store.slots) :
    Extending m := by
  intro b
  obtain ⟨hf, hs⟩ := h b
  exact ⟨Nat.le_of_eq hf.symm, fun _ _ => by simp only [Store.slot?, hs]⟩

theorem slot?_setSlot (store : Store) {id id' : Nat} (h : id' ≠ id) (slot : Nat) :
    (store.setSlot id slot).slot? id' = store.slot? id' := by
  have hne : (id' == id) = false := by simpa using h
  simp [Store.slot?, Store.setSlot, List.lookup_cons, hne]

theorem extending : Lasting @Extending where
  pure _ _ := ⟨Nat.le_refl _, fun _ _ => rfl⟩
  bind hm hk b := (hm b).trans (hk _ _)
  get := extending_of_same fun _ => ⟨rfl, rfl⟩
  fresh _ := ⟨Nat.le_succ _, fun _ _ => rfl⟩
  skip _ := extending_of_same fun _ => ⟨rfl, rfl⟩
  openCapture := extending_of_same fun _ => ⟨rfl, rfl⟩
  captureId slot b := ⟨Nat.le_succ _, fun id hid => slot?_setSlot _ (Nat.ne_of_lt hid) slot⟩
  ruleNamed name := by
    refine extending_of_same fun b => ?_
    rcases ruleNamed_cases b name with ⟨r, -, h⟩ | ⟨-, h⟩ <;> rw [h]
    · exact ⟨rfl, rfl⟩
    · exact ⟨rfl, rfl⟩
  used _ := extending_of_same fun _ => ⟨rfl, rfl⟩

def Modest (m : Build α) : Prop :=
  Growing m ∧ Extending m

theorem modest : Lasting @Modest where
  pure a := ⟨growing.pure a, extending.pure a⟩
  bind hm hk := ⟨growing.bind hm.1 fun a => (hk a).1, extending.bind hm.2 fun a => (hk a).2⟩
  get := ⟨growing.get, extending.get⟩
  fresh := ⟨growing.fresh, extending.fresh⟩
  skip p := ⟨growing.skip p, extending.skip p⟩
  openCapture := ⟨growing.openCapture, extending.openCapture⟩
  captureId slot := ⟨growing.captureId slot, extending.captureId slot⟩
  ruleNamed name := ⟨growing.ruleNamed name, extending.ruleNamed name⟩
  used r := ⟨growing.used r, extending.used r⟩

/-- What stands in place of a call is the body of its rule, and captures nothing. -/
structure Spares (inline : Store → Nat → Option Pattern) : Prop where
  inlines : Inlines inline
  pure : ∀ store r p, inline store r = some p → p.Normal .all → p.Normal .pure

/-- An environment for patterns, where quiet rules capture nothing, and one for what is built. -/
structure Serves (N : Naming) (e f : Env) : Prop where
  twin : e.Twin f
  keeps : ∀ r, N.known r → N.quiet r → Meaning.Keeps (e.call r)

structure Facing (N : Naming) (e f : Env) (names : List (Text × Nat)) :
    Prop extends Serves N e f where
  call : ∀ r, N.known r → ∀ k, ((N.name r).text, k) ∈ names → e.call r = f.call k

/-- Nothing is skipped, and rules that have bodies on the bench mean what they should. An empty body
does not stand in place of calls. -/
structure Prepared (N : Naming) (inline : Store → Nat → Option Pattern) (e f : Env) (b : Bench) :
    Prop where
  skip : b.skip = .empty
  bodies : ∀ r, N.known r → ∀ k, ((N.name r).text, k) ∈ b.names → ∀ p, b.bodyOf k = some p →
    p.denote f = e.call r ∧ p.Normal .all ∧ (p = .empty → ∀ store, inline store k ≠ some .empty)

/-- The captures have the slots from the given one on. -/
def Numbered (e : Env) (ms : List Mark) (slot : Nat) : Prop :=
  ∀ k id, (captured ms)[k]? = some id → e.slot id = some (slot + k)

def Follows (f : Env) (b : Bench) : Prop :=
  ∀ id < b.store.fresh, f.slot id = b.store.slot? id

/-- What is built is as told, beside a row of marks. All names are known in the end, the captures of
the row have the slots that are given out, and those that are built have the slots that they got. -/
def Yields (N : Naming) (inline : Store → Nat → Option Pattern) (e f : Env)
    (names : List (Text × Nat)) (ms : List Mark) (m : Build α) (R : α → Prop) : Prop :=
  ∀ b, Prepared N inline e f b → (m b).2.names ⊆ names → Follows f (m b).2 →
    Numbered e ms b.opened → (m b).2.skip = .empty ∧
    (m b).2.opened = b.opened + (captured ms).length ∧ R (m b).1

section

variable {N : Naming} {inline : Store → Nat → Option Pattern} {e f : Env}
  {names : List (Text × Nat)} {ms ws : List Mark} {m : Build α} {k : α → Build β} {R : α → Prop}
  {Q : β → Prop} {b b' : Bench}

theorem Prepared.body (h : Prepared N inline e f b) (hg : b.Grows b') {r k : Nat} (hr : N.known r)
    (hk : ((N.name r).text, k) ∈ b'.names) {p : Pattern} (hp : b.bodyOf k = some p) :
    p.denote f = e.call r ∧ p.Normal .all ∧
      (p = .empty → ∀ store, inline store k ≠ some .empty) := by
  rcases hg.new _ hk with hk | hnone
  · exact h.bodies r hr k hk p hp
  · cases hp.symm.trans hnone

theorem Prepared.grow (h : Prepared N inline e f b) (hg : b.Grows b') (hs : b'.skip = .empty) :
    Prepared N inline e f b' :=
  ⟨hs, fun _ hr k hk _ hp => h.body hg hr hk (hg.bodies k ▸ hp)⟩

theorem Follows.back (h : Follows f b') (hb : b.Later b') : Follows f b :=
  fun id hid => (h id (Nat.lt_of_lt_of_le hid hb.fresh)).trans (hb.slots id hid)

theorem Numbered.left {slot : Nat} (h : Numbered e (ms ++ ws) slot) : Numbered e ms slot := by
  intro k id hk
  obtain ⟨hlt, -⟩ := List.getElem?_eq_some_iff.1 hk
  exact h k id (by rw [captured_append, List.getElem?_append_left hlt, hk])

theorem Numbered.tail {id slot : Nat} (h : Numbered e (.capture id :: ms) slot) :
    Numbered e ms (slot + 1) :=
  fun k id' hk => (h (k + 1) id' hk).trans (by rw [Nat.add_assoc, Nat.add_comm 1 k])

theorem Numbered.right {slot : Nat} (h : Numbered e (ms ++ ws) slot) :
    Numbered e ws (slot + (captured ms).length) := by
  intro k id hk
  have := h ((captured ms).length + k) id (by simpa [List.getElem?_append_right] using hk)
  rw [this, Nat.add_assoc]

theorem yields_pure {a : α} (h : R a) : Yields N inline e f names [] (pure a) R :=
  fun _ hb _ _ _ => ⟨hb.skip, rfl, h⟩

theorem yields_bind (hm : Yields N inline e f names ms m R) (hmod : Modest m)
    (hk : ∀ a, Modest (k a)) (h : ∀ a, R a → Yields N inline e f names ws (k a) Q) :
    Yields N inline e f names (ms ++ ws) (m >>= k) Q := by
  intro b hb hn hf hnum
  have hrest := hk (m b).1
  obtain ⟨hs, ho, ha⟩ :=
    hm b hb (List.Subset.trans (hrest.1.grows _).names hn) (hf.back (hrest.2 _)) hnum.left
  have hnum' : Numbered e ws (m b).2.opened := ho ▸ hnum.right
  obtain ⟨hs', ho', hq⟩ := h _ ha (m b).2 (hb.grow (hmod.1.grows b) hs) hn hf hnum'
  refine ⟨hs', ?_, hq⟩
  change (k (m b).1 (m b).2).2.opened = _
  rw [ho', ho, captured_append, List.length_append, Nat.add_assoc]

theorem yields_then (hm : Yields N inline e f names ms m R) (hmod : Modest m)
    (hk : ∀ a, Modest (k a)) (h : ∀ a, R a → Yields N inline e f names [] (k a) Q) :
    Yields N inline e f names ms (m >>= k) Q := by
  simpa using yields_bind hm hmod hk h

theorem yields_fresh : Yields N inline e f names [] fresh fun _ => True :=
  fun _ hb _ _ _ => ⟨hb.skip, rfl, trivial⟩

theorem yields_one {g : Nat → α} (h : ∀ id, R (g id)) :
    Yields N inline e f names [] (do return g (← fresh)) R :=
  yields_then yields_fresh modest.fresh (fun _ => modest.pure _) fun id _ => yields_pure (h id)

theorem Yields.mono {R' : α → Prop} (h : Yields N inline e f names ms m R) (hR : ∀ a, R a → R' a) :
    Yields N inline e f names ms m R' := by
  intro b hb hn hf hnum
  obtain ⟨hs, ho, ha⟩ := h b hb hn hf hnum
  exact ⟨hs, ho, hR _ ha⟩

theorem yields_skipping {R : Pattern → Prop} {p : Pattern} (h : R p) :
    Yields N inline e f names [] (skipping p) R := by
  intro b hb _ _ _
  obtain ⟨store, known, opened, skip⟩ := b
  obtain rfl : skip = .empty := hb.skip
  exact ⟨rfl, rfl, h⟩

theorem yields_capture {id : Nat} {R : Pattern → Prop} {m : Build Pattern}
    {g : Nat → Pattern → Build Pattern}
    {Q : Pattern → Prop} (hm : Yields N inline e f names ms m R) (hmod : Modest m)
      (hg : ∀ id p, Modest (g id p))
    (h : ∀ id' p, R p → e.slot id = f.slot id' → Yields N inline e f names [] (g id' p) Q) :
    Yields N inline e f names (.capture id :: ms)
      (do let slot ← openCapture; let p ← m; g (← captureId slot) p) Q := by
  intro b hb hn hf hnum
  obtain ⟨b₁, hb₁⟩ : ∃ b₁ : Bench, { b with opened := b.opened + 1 } = b₁ := ⟨_, rfl⟩
  obtain ⟨⟨p, b₂⟩, hb₂⟩ : ∃ x, m b₁ = x := ⟨_, rfl⟩
  obtain ⟨⟨id', b₃⟩, hb₃⟩ : ∃ x, captureId b.opened b₂ = x := ⟨_, rfl⟩
  have hbuild : (do let slot ← openCapture; let p ← m; g (← captureId slot) p : Build Pattern) b =
      g id' p b₃ := by
    simp only [Bind.bind, StateT.bind, openCapture, modifyGet, MonadStateOf.modifyGet,
      StateT.modifyGet, Pure.pure, hb₁, hb₂, hb₃]
  rw [hbuild] at hn hf ⊢
  have hgrows₂ : b₁.Grows b₂ := by simpa [hb₂] using hmod.1.grows b₁
  have hgrows₃ : b₂.Grows b₃ := by simpa [hb₃] using (growing.captureId b.opened).grows b₂
  have hlater₃ : b₂.Later b₃ := by simpa [hb₃] using extending.captureId b.opened b₂
  have hgrows₄ := (hg id' p).1.grows b₃
  have hf₃ := hf.back ((hg id' p).2 b₃)
  have hprep₁ : Prepared N inline e f b₁ := by
    subst hb₁
    exact ⟨hb.skip, hb.bodies⟩
  have hyields := hm b₁ hprep₁
  rw [hb₂] at hyields
  obtain ⟨hs₂, ho₂, hp⟩ :=
    hyields (List.Subset.trans hgrows₃.names (List.Subset.trans hgrows₄.names hn))
      (hf₃.back hlater₃) (by subst hb₁; exact hnum.tail)
  have hslot : f.slot id' = some b.opened := by
    cases hb₃
    rw [hf₃ _ (Nat.lt_succ_self _)]
    simp [Store.slot?, Store.setSlot]
  have hskip₃ : b₃.skip = .empty := by
    cases hb₃
    exact hs₂
  have hopened₃ : b₃.opened = b₂.opened := by
    cases hb₃
    rfl
  have hgiven : e.slot id = some b.opened := hnum 0 id rfl
  obtain ⟨hs, ho, hq⟩ :=
    h id' p hp (hgiven.trans hslot.symm) b₃ ((hprep₁.grow hgrows₂ hs₂).grow hgrows₃ hskip₃) hn hf
      (by simp [Numbered])
  refine ⟨hs, ?_, hq⟩
  rw [ho, hopened₃, ho₂, ← hb₁]
  simp only [captured_capture, captured_nil, List.length_cons, List.length_nil]
  omega

theorem ruleNamed_same (name : Text) (b : Bench) :
    (ruleNamed name b).2.skip = b.skip ∧ (ruleNamed name b).2.opened = b.opened := by
  rcases ruleNamed_cases b name with ⟨k, -, h⟩ | ⟨-, h⟩ <;> rw [h] <;> exact ⟨rfl, rfl⟩

theorem yields_name (h : Facing N e f names) (hi : Spares inline) {r : Nat} (hr : N.known r)
    (i : Nat) :
    Yields N inline e f names [] ((N.name r).build inline) (Pattern.Alike e f (.call i r)) := by
  intro b hb hn _ _
  have hmem := mem_ruleNamed (N.name r).text b
  have hgrows := (growing.ruleNamed (N.name r).text).grows b
  have hsame := ruleNamed_same (N.name r).text b
  obtain ⟨k, b₁, b₂, hk, hused, hbuild⟩ := build_name inline (N.name r) b
  rw [hk] at hmem hgrows hsame
  obtain ⟨hskip, hopened⟩ := hsame
  have hgrows₂ := (growing.used k).grows b₁
  cases hused
  rw [hbuild] at hn ⊢
  cases hbody : inline (b₁.store.modifyRule k fun rule => { rule with used := true }) k with
  | none =>
    rw [hbody] at hn
    have hcall (id : Nat) : Pattern.Alike e f (.call i r) (.call id k) :=
      Pattern.alike_plain (h.call r hr k (hn hmem)) (.leaf trivial rfl) (.leaf trivial rfl)
        ⟨rfl, by simp⟩ ⟨rfl, by simp⟩
    exact ⟨hskip.trans hb.skip, hopened, hcall _⟩
  | some body =>
    rw [hbody] at hn
    have hbodies := (hi.inlines _ k body hbody).symm.trans ((hgrows.trans hgrows₂).bodies k)
    obtain ⟨hmeans, hnormal, hempty⟩ := hb.body hgrows hr hmem hbodies.symm
    have hright : body.Normal f.tame :=
      (hi.pure _ k body hbody hnormal).mono
        ⟨fun _ h => h.elim, fun _ h => h.elim, fun _ _ => trivial⟩
    have hleft : (Pattern.call i r).Normal e.tame := by
      refine .leaf ?_ rfl
      change Meaning.Keeps (e.call r)
      rw [← hmeans]
      exact Pattern.keeps_denote hright
    refine ⟨hskip.trans hb.skip, hopened, Pattern.alike_tame hmeans.symm hleft hright
      ⟨by simp, fun heq => ?_⟩⟩
    obtain rfl : body = .empty := heq
    exact (hempty rfl _ hbody).elim

theorem build_atom (a : Atom) (b : Bench) :
    (a.build b).1 = (a.build { store := b.store }).1 ∧ (a.build b).2.names = b.names ∧
      (a.build b).2.skip = b.skip ∧ (a.build b).2.opened = b.opened := by
  cases a with
  | builtin b => cases b <;> exact ⟨rfl, rfl, rfl, rfl⟩
  | _ => exact ⟨rfl, rfl, rfl, rfl⟩

theorem means_atom (h : e.Twin f) {a : Atom} (ha : (Lexeme.atom a).isPlain) (b : Bench) :
    Means f [] (a.pattern.denote e) (a.build b).1 := by
  have hinterprets : Interprets e f (fun _ => Meaning.never) [] :=
    ⟨h.subject.symm, h.origin.symm, h.right, by simp, by simp⟩
  have hfair : Fair f (fun _ => Meaning.never) [] { store := b.store } :=
    ⟨⟨List.nodup_nil, List.nodup_nil, by simp⟩, rfl, by simp⟩
  obtain ⟨hbuilt, -⟩ := build_atom a b
  rw [hbuilt]
  refine (settles_atom hinterprets a ha _ hfair ?_).2
  rw [(build_atom a { store := b.store }).2.1]
  exact List.Subset.refl _

theorem atom_eq_empty (a : Atom) (b : Bench) : (a.build b).1 = .empty ↔ a.pattern = .empty := by
  have text (how : Comparison) (t : Text) (i j : Nat) :
      Pattern.text i how t = .empty ↔ Pattern.text j how t = .empty := by
    cases how <;> simp only [Pattern.text, Pattern.term] <;> split <;> simp
  cases a with
  | literal how t => exact text how t _ _
  | builtin b =>
    cases b with
    | ident => exact ⟨fun h => by injection h, fun h => by injection h⟩
    | escape e => exact ⟨fun h => by injection h, fun h => by injection h⟩
    | _ => exact .rfl
  | set members negated => exact ⟨fun h => by injection h, fun h => by injection h⟩
  | endAnchor => exact ⟨fun h => by injection h, fun h => by injection h⟩
  | backref how number => exact ⟨fun h => by injection h, fun h => by injection h⟩
  | _ => exact .rfl

theorem yields_atom (h : e.Twin f) {a : Atom} (ha : (Lexeme.atom a).isPlain) {p : Pattern}
    (hp : p.Normal .pure) (hmeans : a.pattern.denote e = p.denote e)
    (hempty : p = .empty ↔ a.pattern = .empty) :
    Yields N inline e f names [] a.build (Pattern.Alike e f p) := by
  intro b hb _ _ _
  obtain ⟨hsame, hnormal⟩ := means_atom h ha b
  obtain ⟨-, -, hskip, hopened⟩ := build_atom a b
  refine ⟨hskip.trans hb.skip, hopened, Pattern.alike_tame (hmeans.symm.trans hsame.symm) ?_ ?_ ?_⟩
  · exact hp.mono ⟨fun _ h => h.elim, fun _ h => h.elim, fun _ _ => trivial⟩
  · exact hnormal.mono ⟨by simp [called], fun _ h => h.elim, fun _ h => h.elim⟩
  · exact hempty.trans (atom_eq_empty a b).symm

theorem yields_backref (h : e.Twin f) (i : Nat) (how : Comparison) (slot : Nat) :
    Yields N inline e f names [.reference slot] (Atom.backref how (slot + 1)).build
      (Pattern.Alike e f (.backref i how slot)) := by
  intro b hb _ _ _
  have hlike (id : Nat) : Pattern.Alike e f (.backref i how slot) (.backref id how slot) :=
    Pattern.alike_tame (by simp only [Pattern.denote, h.subject]) (.leaf trivial rfl)
      (.leaf trivial rfl) (by simp)
  exact ⟨hb.skip, rfl, hlike _⟩

end

end Build

def Suffix.node (starId id : Nat) (p : Pattern) : Suffix → Pattern
  | .opt => .opt id p
  | .star => .repeated id p
  | .plus => .plus starId id p

/-- The text starts neither with a closing brace nor with what a brace before it would make `{@}`
of. -/
def Opening (t : Text) : Prop :=
  ∃ c u, t = c :: u ∧ c ≠ '}'.toNat ∧ (c = '@'.toNat → ∃ d v, u = d :: v ∧ d ≠ '}'.toNat)

namespace Opening

variable {t : Text}

theorem append (h : Opening t) (u : Text) : Opening (t ++ u) := by
  obtain ⟨c, v, rfl, hc, hat⟩ := h
  refine ⟨c, v ++ u, rfl, hc, fun heq => ?_⟩
  obtain ⟨d, w, rfl, hd⟩ := hat heq
  exact ⟨d, w ++ u, rfl, hd⟩

theorem cons {c : Nat} (hc : c ≠ '}'.toNat) (hat : c ≠ '@'.toNat) (t : Text) : Opening (c :: t) :=
  ⟨c, t, rfl, hc, fun heq => absurd heq hat⟩

theorem not_prefix (h : Opening t) (u : Text) : ¬ ['@'.toNat, '}'.toNat] <+: t ++ u := by
  obtain ⟨c, v, rfl, -, hat⟩ := h
  rintro ⟨w, hw⟩
  obtain ⟨rfl, hv⟩ := List.cons.inj hw
  obtain ⟨d, x, rfl, hd⟩ := hat rfl
  exact hd (List.cons.inj hv).1.symm

theorem operator (h : Opening t) (o : Operator) : Opening ((Sign.operator o).text ++ t) := by
  cases o with
  | peek => exact cons (by decide) (by decide) t
  | not => exact cons (by decide) (by decide) t
  | search =>
    obtain ⟨c, u, rfl, hc, -⟩ := h
    exact ⟨_, _, rfl, by decide, fun _ => ⟨c, u, rfl, hc⟩⟩

theorem atom (a : Atom) : Opening a.text := by
  have marked (how : Comparison) {c : Nat} (hc : c ≠ '}'.toNat) (hat : c ≠ '@'.toNat) (t : Text) :
      Opening (Pattern.Comparison.mark how ++ c :: t) := by
    cases how with
    | exact => exact cons hc hat t
    | ignoreCase => exact cons (by decide) (by decide) _
    | ignoreStyle => exact cons (by decide) (by decide) _
  cases a with
  | literal how t => exact marked how (by decide) (by decide) _
  | backref how number => exact marked how (by decide) (by decide) _
  | set members negated => exact cons (by decide) (by decide) _
  | _ => exact cons (by decide) (by decide) _

theorem name (n : Name) : Opening n.text := by
  obtain ⟨c, t, hn, hc, -⟩ := n.eq_cons
  rw [hn]
  refine cons ?_ ?_ t <;> rintro rfl <;> exact absurd hc (by decide)

end Opening

namespace Item.Written

variable {x : Item} {t : Text}

theorem capture (h : x.Written t) (ho : Opening t) :
    (Item.suffixed (.capture x.alone) []).Written ('{'.toNat :: t ++ ['}'.toNat]) where
  spelled := by
    have hclosed := h.spelled.closed (s := .closeCapture) rfl (by decide)
    rw [Item.lexemes, Primary.lexemes, List.map_nil, List.append_nil, Item.lexemes_alone]
    refine hclosed.after (l := .sign .openCapture) rfl fun rest => .inr (.inr ⟨rfl, ?_⟩)
    rw [List.append_assoc]
    exact ho.not_prefix _
  begun := Begun.append (Lexeme.Spells.begun (l := .sign .openCapture) rfl) (t ++ ['}'.toNat])

theorem captured (h : x.Written t) : (Item.captured x).Written ((Sign.captured).text ++ t) where
  spelled := by
    rw [Item.lexemes]
    exact h.spelled.behind (l := .sign .captured) rfl rfl
  begun := Begun.append (Lexeme.Spells.begun (l := .sign .captured) rfl) t

end Item.Written

/-- An item that is written as the text, makes the marks and is built as told. -/
structure Transcript (N : Naming) (inline : Store → Nat → Option Pattern)
    (T : Env → Env → Pattern → Prop) (ms : List Mark) (t : Text) (x : Item) : Prop where
  written : x.Written t
  opening : Opening t
  accepts : ∀ l ∈ x.lexemes, N.Accepts l
  sorts : sorts x.lexemes = ms.map Mark.sort
  built : ∀ {e f : Env} {names : List (Text × Nat)}, Facing N e f names →
    Yields N inline e f names ms (x.build inline) (T e f)

section

variable {N : Naming} {inline : Store → Nat → Option Pattern} {T : Env → Env → Pattern → Prop}
  {ms : List Mark} {t : Text} {x : Item} {p : Pattern}

theorem Transcript.mono {T' : Env → Env → Pattern → Prop} (h : Transcript N inline T ms t x)
    (hT : ∀ e f q, Serves N e f → T e f q → T' e f q) : Transcript N inline T' ms t x :=
  ⟨h.written, h.opening, h.accepts, h.sorts, fun hf => (h.built hf).mono fun q =>
    hT _ _ q hf.toServes⟩

theorem build_suffixed (inline : Store → Nat → Option Pattern) (p : Primary) :
    (Item.suffixed p []).build inline = p.build inline := by
  simp [Item.build]

theorem transcript_atom {a : Atom} (ha : (Lexeme.atom a).isPlain) (hp : p.Normal .pure)
    (hmeans : ∀ e, a.pattern.denote e = p.denote e) (hempty : p = .empty ↔ a.pattern = .empty) :
    Transcript N inline (fun e f => Pattern.Alike e f p) [] a.text (.suffixed (.atom a) []) where
  written := .atom a
  opening := .atom a
  accepts := by
    have hnone : ∀ how k, Lexeme.atom a ≠ .atom (.backref how k) := by
      rintro how k heq
      cases heq
      cases ha
    simpa [Item.lexemes,
      Primary.lexemes] using (⟨by simp, fun how k heq => absurd heq (hnone how k)⟩ :
      N.Accepts (.atom a))
  sorts := by
    cases a with
    | backref how k => cases ha
    | _ => rfl
  built {e f names} h := by
    rw [build_suffixed, Primary.build]
    refine yields_then (yields_atom h.twin ha hp (hmeans e) hempty) (modest.atom a) modest.skipping
      fun q hq => ?_
    exact yields_skipping hq

theorem transcript_backref (i : Nat) (how : Comparison) {slot : Nat}
    (hshort : (Text.numeral (slot + 1)).length ≤ Text.mostDigits) :
    Transcript N inline (fun e f => Pattern.Alike e f (.backref i how slot)) [.reference slot]
      (Atom.backref how (slot + 1)).text (.suffixed (.atom (.backref how (slot + 1))) []) where
  written := .atom _
  opening := .atom _
  accepts := by
    have hnumber : N.Accepts (.atom (.backref how (slot + 1))) := by
      refine ⟨by simp, fun how' k heq => ?_⟩
      cases heq
      exact ⟨Nat.succ_pos slot, hshort⟩
    simpa [Item.lexemes, Primary.lexemes] using hnumber
  sorts := rfl
  built {e f names} h := by
    rw [build_suffixed, Primary.build]
    refine yields_then (yields_backref h.twin i how slot) (modest.atom _) modest.skipping
      fun q hq => ?_
    exact yields_skipping hq

theorem transcript_name (hi : Spares inline) {r : Nat} (hr : N.known r) (i : Nat) :
    Transcript N inline (fun e f => Pattern.Alike e f (.call i r)) [] (N.name r).text
      (.suffixed (.name (N.name r)) []) where
  written := .name _
  opening := .name _
  accepts := by
    have hname : N.Accepts (.name (N.name r)) :=
      ⟨fun _ heq => by cases heq; exact ⟨r, hr, rfl⟩, by simp⟩
    simpa [Item.lexemes, Primary.lexemes] using hname
  sorts := rfl
  built h := by
    rw [build_suffixed, Primary.build]
    exact yields_name h hi hr i

theorem Transcript.suffix (h : Transcript N inline T ms t x) (hx : x.isTight) (s : Suffix) :
    ∃ y, y.isTight ∧ Transcript N inline (fun e f q => ∃ i j y, T e f y ∧ q = s.node i j y) ms
      (t ++ (Sign.suffix s).text) y := by
  cases x with
  | suffixed p ss =>
    refine ⟨.suffixed p (ss ++ [s]), rfl, h.written.suffix s, h.opening.append _, ?_, ?_,
      fun {e f names} hf => ?_⟩
    · rw [Item.Written.lexemes_suffix]
      exact List.forall_mem_append.2 ⟨h.accepts, List.forall_mem_singleton.2 (N.accepts_sign _)⟩
    · rw [Item.Written.lexemes_suffix, sorts_append, h.sorts]
      simp [Lexeme.sort?]
    · have hbuild : (Item.suffixed p (ss ++ [s])).build inline =
          (do s.build (← (Item.suffixed p ss).build inline)) := by
        simp [Item.build, List.foldlM_append]
      rw [hbuild]
      refine yields_then (h.built hf) (modest.item inline _) (fun q => modest.suffix q s)
        fun q hq => ?_
      cases s with
      | opt => exact yields_one fun id => ⟨0, id, q, hq, rfl⟩
      | star => exact yields_one fun id => ⟨0, id, q, hq, rfl⟩
      | plus => exact yields_then yields_fresh modest.fresh (fun _ => modest.one _) fun i _ =>
          yields_one fun j => ⟨i, j, q, hq, rfl⟩
  | _ => cases hx

theorem Transcript.operator (h : Transcript N inline T ms t x) (o : Operator) :
    Transcript N inline (fun e f q => ∃ i y, T e f y ∧ q = o.wrap i y) ms
      ((Sign.operator o).text ++ t) (.operator o x) where
  written := h.written.operator o
  opening := h.opening.operator o
  accepts := by
    rw [Item.lexemes]
    exact List.forall_mem_cons.2 ⟨N.accepts_sign _, h.accepts⟩
  sorts := by simpa [Item.lexemes, Lexeme.sort?] using h.sorts
  built hf := by
    rw [Item.build]
    exact yields_then (h.built hf) (modest.item inline x) (fun q => modest.one _) fun q hq =>
      yields_one fun id => ⟨id, q, hq, rfl⟩

/-- An expression of one item builds what the item does, but for the sequence and the choice around
it. -/
theorem yields_alone {e f : Env} {names : List (Text × Nat)} {R : Pattern → Prop}
    (h : Yields N inline e f names ms (x.build inline) R) :
    Yields N inline e f names ms (x.alone.build inline) fun q => ∃ i j y, R y ∧
      q = .alt i (.seq j [y]) [] := by
  have hbuild : x.alone.build inline = (do
      let q ← x.build inline
      let j ← fresh
      let i ← fresh
      return .alt i (.seq j [q]) []) := by
    simp [Item.alone, Expression.build, buildItems, buildOthers]
  rw [hbuild]
  refine yields_then h (modest.item inline x)
    (fun q => modest.bind modest.fresh fun _ => modest.one _) fun q hq => ?_
  exact yields_then yields_fresh modest.fresh (fun _ => modest.one _) fun j _ =>
    yields_one fun i => ⟨i, j, q, hq, rfl⟩

theorem Transcript.group (h : Transcript N inline (fun e f => Pattern.Alike e f p) ms t x) :
    Transcript N inline (fun e f => Pattern.Alike e f p) ms ('('.toNat :: t ++ [')'.toNat])
      (.suffixed (.group x.alone) []) where
  written := .group (x.lexemes_alone ▸ h.written.spelled)
  opening := .cons (by decide) (by decide) _
  accepts := by
    simp only [Item.lexemes, Primary.lexemes, x.lexemes_alone, List.map_nil, List.append_nil]
    exact N.accepts_between h.accepts _ _
  sorts := by simpa [Item.lexemes, Primary.lexemes, x.lexemes_alone, Lexeme.sort?] using h.sorts
  built {e f names} hf := by
    rw [build_suffixed, Primary.build]
    refine (yields_alone (h.built hf)).mono ?_
    rintro _ ⟨i, j, y, hy, rfl⟩
    exact (hy.seq_one j).alt_one i

theorem Transcript.capture (h : Transcript N inline (fun e f => Pattern.Alike e f p) ms t x)
    (id : Nat) :
    Transcript N inline (fun e f => Pattern.Alike e f (.capture id p)) (.capture id :: ms)
      ('{'.toNat :: t ++ ['}'.toNat]) (.suffixed (.capture x.alone) []) where
  written := h.written.capture h.opening
  opening := .cons (by decide) (by decide) _
  accepts := by
    simp only [Item.lexemes, Primary.lexemes, x.lexemes_alone, List.map_nil, List.append_nil]
    exact N.accepts_between h.accepts _ _
  sorts := by
    simpa [Item.lexemes, Primary.lexemes, x.lexemes_alone, Lexeme.sort?, Mark.sort] using h.sorts
  built {e f names} hf := by
    rw [build_suffixed, Primary.build]
    refine yields_capture (yields_alone (h.built hf)) (modest.expression inline _)
      (fun _ _ => modest.pure _) ?_
    rintro id' _ ⟨i, j, y, hy, rfl⟩ hslot
    have hlike := (hy.seq_one j).alt_one i
    refine yields_pure
      (Pattern.alike_plain ?_ (.single trivial rfl hlike.left) (.single trivial rfl hlike.right)
        ⟨rfl, by simp⟩ ⟨rfl, by simp⟩)
    simp only [Pattern.denote, hslot, hlike.shape.same]

theorem Transcript.captured (h : Transcript N inline (fun e f => Pattern.Alike e f p) ms t x)
    (id : Nat) :
    Transcript N inline (fun e f => Pattern.Alike e f (.capturedSearch id p)) (.capture id :: ms)
      ((Sign.captured).text ++ t) (.captured x) where
  written := h.written.captured
  opening := .cons (by decide) (by decide) _
  accepts := by
    rw [Item.lexemes]
    exact List.forall_mem_cons.2 ⟨N.accepts_sign _, h.accepts⟩
  sorts := by simpa [Item.lexemes, Lexeme.sort?, Mark.sort] using h.sorts
  built {e f names} hf := by
    rw [Item.build]
    refine yields_capture (h.built hf) (modest.item inline x) (fun _ _ => modest.skipping _)
      fun id' q hq hslot => ?_
    refine yields_skipping
      (Pattern.alike_plain ?_ (.single trivial rfl hq.left) (.single trivial rfl hq.right)
        ⟨rfl, by simp⟩ ⟨rfl, by simp⟩)
    simp only [Pattern.denote, hslot, hq.shape.same, hf.twin.subject]

/-- Items one after the other, each with its text, its marks and what is built for it. -/
inductive Transcripts (N : Naming) (inline : Store → Nat → Option Pattern) :
    List (Env → Env → Pattern → Prop) → List Mark → List Text → List Item → Prop where
  | nil : Transcripts N inline [] [] [] []
  | cons {T : Env → Env → Pattern → Prop} {ms ws : List Mark} {t : Text} {x : Item}
      {Ts : List (Env → Env → Pattern → Prop)} {ts : List Text} {xs : List Item}
      (h : Transcript N inline T ms t x) (hs : Transcripts N inline Ts ws ts xs) :
      Transcripts N inline (T :: Ts) (ms ++ ws) (t :: ts) (x :: xs)

namespace Transcripts

variable {Ts : List (Env → Env → Pattern → Prop)} {ws : List Mark} {ts : List Text} {xs : List Item}

theorem written (h : Transcripts N inline Ts ws ts xs) : List.Forall₂ Item.Written xs ts := by
  induction h with
  | nil => exact .nil
  | cons h _ ih => exact .cons h.written ih

theorem accepts (h : Transcripts N inline Ts ws ts xs) :
    ∀ x ∈ xs, ∀ l ∈ x.lexemes, N.Accepts l := by
  induction h with
  | nil => simp
  | cons h _ ih => exact List.forall_mem_cons.2 ⟨h.accepts, ih⟩

theorem mem_itemLexemes {l : Lexeme} (hl : l ∈ itemLexemes xs) : ∃ x ∈ xs, l ∈ x.lexemes := by
  induction xs with
  | nil => cases hl
  | cons x xs ih =>
    rw [itemLexemes] at hl
    rcases List.mem_append.1 hl with hl | hl
    · exact ⟨x, by simp, hl⟩
    · obtain ⟨y, hy, hl⟩ := ih hl
      exact ⟨y, by simp [hy], hl⟩

theorem mem_otherLexemes {l : Lexeme} (hl : l ∈ otherLexemes (xs.map fun x => [x])) :
    l = .sign .slash ∨ ∃ x ∈ xs, l ∈ x.lexemes := by
  induction xs with
  | nil => cases hl
  | cons x xs ih =>
    rw [List.map_cons, otherLexemes, itemLexemes, itemLexemes, List.append_nil] at hl
    rcases List.mem_cons.1 hl with hl | hl
    · exact .inl hl
    · rcases List.mem_append.1 hl with hl | hl
      · exact .inr ⟨x, by simp, hl⟩
      · rcases ih hl with hl | ⟨y, hy, hl⟩
        · exact .inl hl
        · exact .inr ⟨y, by simp [hy], hl⟩

theorem sorts_sequence (h : Transcripts N inline Ts ws ts xs) :
    sorts (itemLexemes xs) = ws.map Mark.sort := by
  induction h with
  | nil => rfl
  | cons h _ ih => rw [itemLexemes, sorts_append, h.sorts, ih, List.map_append]

theorem sorts_others (h : Transcripts N inline Ts ws ts xs) :
    sorts (otherLexemes (xs.map fun x => [x])) = ws.map Mark.sort := by
  induction h with
  | nil => rfl
  | cons h _ ih =>
    rw [List.map_cons, otherLexemes, itemLexemes, itemLexemes, List.append_nil, sorts_cons,
      sorts_append, h.sorts, ih, List.map_append]
    rfl

variable {e f : Env} {names : List (Text × Nat)}

theorem yields_items (h : Transcripts N inline Ts ws ts xs) (hf : Facing N e f names) :
    Yields N inline e f names ws (buildItems inline xs) (List.Forall₂ (fun T q => T e f q) Ts) := by
  induction h with
  | nil =>
    rw [buildItems]
    exact yields_pure .nil
  | @cons _ _ _ _ x _ _ xs h _ ih =>
    rw [buildItems]
    refine yields_bind (h.built hf) (modest.item inline x)
      (fun q => modest.bind (modest.items inline xs) fun _ => modest.pure _) fun q hq => ?_
    exact yields_then ih (modest.items inline xs) (fun _ => modest.pure _) fun qs hqs =>
      yields_pure (.cons hq hqs)

theorem yields_others (h : Transcripts N inline Ts ws ts xs) (hf : Facing N e f names) :
    Yields N inline e f names ws (buildOthers inline (xs.map fun x => [x]))
      (List.Forall₂ (fun T q => ∃ j y, T e f y ∧ q = .seq j [y]) Ts) := by
  induction h with
  | nil =>
    rw [List.map_nil, buildOthers]
    exact yields_pure .nil
  | @cons T ms ws t x Ts ts xs h _ ih =>
    have hbuild : buildOthers inline ((x :: xs).map fun x => [x]) = (do
        let q ← x.build inline
        let j ← fresh
        return .seq j [q] :: (← buildOthers inline (xs.map fun x => [x]))) := by
      simp [buildOthers, buildItems]
    have hmod : ∀ p : Pattern,
        Modest (do return p :: (← buildOthers inline (xs.map fun x => [x]))) :=
      fun p => modest.bind (modest.alternatives inline _) fun _ => modest.pure _
    rw [hbuild]
    refine yields_bind (h.built hf) (modest.item inline x)
      (fun q => modest.bind modest.fresh fun _ => hmod _) fun q hq => ?_
    have hrest (j : Nat) : Yields N inline e f names ws
        (do return .seq j [q] :: (← buildOthers inline (xs.map fun x => [x])))
        (List.Forall₂ (fun T q => ∃ j y, T e f y ∧ q = .seq j [y]) (T :: Ts)) :=
      yields_then ih (modest.alternatives inline _) (fun _ => modest.pure _) fun qs hqs =>
        yields_pure (.cons ⟨j, q, hq, rfl⟩ hqs)
    simpa using yields_bind yields_fresh modest.fresh (fun _ => hmod _) fun j _ => hrest j

theorem accepts_group {y : Expression} (h : ∀ l ∈ y.lexemes, N.Accepts l) :
    ∀ l ∈ (Item.suffixed (.group y) []).lexemes, N.Accepts l := by
  simp only [Item.lexemes, Primary.lexemes, List.map_nil, List.append_nil]
  exact N.accepts_between h _ _

theorem sequence (h : Transcripts N inline Ts ws ts xs) :
    Transcript N inline (fun e f q => ∃ i j qs, List.Forall₂ (fun T q => T e f q) Ts qs ∧
      q = .alt i (.seq j qs) []) ws ('('.toNat :: Pattern.joined [' '.toNat] ts ++ [')'.toNat])
      (.suffixed (.group (.mk xs [])) []) := by
  refine ⟨.group (lexemes_items xs ▸ Item.Written.sequence h.written),
    .cons (by decide) (by decide) _, accepts_group fun l hl => ?_, ?_, fun {e f names} hf => ?_⟩
  · obtain ⟨x, hx, hl⟩ := mem_itemLexemes (lexemes_items xs ▸ hl)
    exact h.accepts x hx l hl
  · simpa [Item.lexemes, Primary.lexemes, lexemes_items, Lexeme.sort?] using h.sorts_sequence
  · have hbuild : (Item.suffixed (.group (.mk xs [])) []).build inline = (do
        let qs ← buildItems inline xs
        let j ← fresh
        let i ← fresh
        return .alt i (.seq j qs) []) := by
      simp [Item.build, Primary.build, Expression.build, buildOthers]
    rw [hbuild]
    refine yields_then (h.yields_items hf) (modest.items inline xs)
      (fun q => modest.bind modest.fresh fun _ => modest.one _) fun qs hqs => ?_
    exact yields_then yields_fresh modest.fresh (fun _ => modest.one _) fun j _ =>
      yields_one fun i => ⟨i, j, qs, hqs, rfl⟩

theorem choice (h : Transcript N inline T ms t x) (hs : Transcripts N inline Ts ws ts xs) :
    Transcript N inline
      (fun e f q => ∃ i p qs, List.Forall₂ (fun T q => ∃ j y, T e f y ∧ q = .seq j [y]) (T :: Ts)
        (p :: qs) ∧ q = .alt i p qs) (ms ++ ws) ('('.toNat :: Pattern.joined (Text.ofString " / ")
        (t :: ts) ++ [')'.toNat]) (.suffixed (.group (.mk [x] (xs.map fun x => [x]))) []) := by
  refine ⟨.group (lexemes_alternatives x xs ▸ h.written.choice hs.written),
    .cons (by decide) (by decide) _, accepts_group fun l hl => ?_, ?_, fun {e f names} hf => ?_⟩
  · rw [lexemes_alternatives] at hl
    rcases List.mem_append.1 hl with hl | hl
    · exact h.accepts l hl
    · rcases mem_otherLexemes hl with rfl | ⟨y, hy, hl⟩
      · exact N.accepts_sign _
      · exact hs.accepts y hy l hl
  · simpa [Item.lexemes, Primary.lexemes, lexemes_alternatives, Lexeme.sort?,
      h.sorts] using hs.sorts_others
  · have hbuild : (Item.suffixed (.group (.mk [x] (xs.map fun x => [x]))) []).build inline = (do
        let q ← x.build inline
        let j ← fresh
        let qs ← buildOthers inline (xs.map fun x => [x])
        return .alt (← fresh) (.seq j [q]) qs) := by
      simp [Item.build, Primary.build, Expression.build, buildItems]
    have hmod (p : Pattern) : Modest (do
        let qs ← buildOthers inline (xs.map fun x => [x])
        return Pattern.alt (← fresh) p qs) :=
      modest.bind (modest.alternatives inline _) fun _ => modest.one _
    rw [hbuild]
    refine yields_bind (h.built hf) (modest.item inline x)
      (fun q => modest.bind modest.fresh fun _ => hmod _) fun q hq => ?_
    have hrest (j : Nat) : Yields N inline e f names ws (do
        let qs ← buildOthers inline (xs.map fun x => [x])
        return Pattern.alt (← fresh) (.seq j [q]) qs) fun r => ∃ i p qs, List.Forall₂
          (fun T q => ∃ j y, T e f y ∧ q = .seq j [y]) (T :: Ts) (p :: qs) ∧ r = .alt i p qs :=
      yields_then (hs.yields_others hf) (modest.alternatives inline _)
        (fun qs => modest.one _) fun qs hqs =>
        yields_one fun i => ⟨i, _, qs, .cons ⟨j, q, hq, rfl⟩ hqs, rfl⟩
    simpa using yields_bind yields_fresh modest.fresh (fun _ => hmod _) fun j _ => hrest j

end Transcripts

end

end Grammar

end PegMatch

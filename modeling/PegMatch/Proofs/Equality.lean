import PegMatch.Pattern.Equality
import PegMatch.Proofs.Compilations
import PegMatch.Proofs.Equivalence

set_option autoImplicit false

/-! Equal patterns match alike. Equality compares calls by the names of their rules and does not
follow them; in two grammars whose rules are equal one after the other, the calls of equal bodies
lead to equal rules again. -/

namespace PegMatch

open Pattern

section

variable {store : Store} {below : Nat → Nat → Except Fault Bool}

theorem equalEach_ok {ps qs : List Pattern} (h : equalEach store below ps qs = .ok true) :
    List.Forall₂ (fun p q => equalWith store below p q = .ok true) ps qs := by
  induction ps generalizing qs with
  | nil =>
    cases qs with
    | nil => exact .nil
    | cons q qs => simp [equalEach] at h
  | cons p ps ih =>
    cases qs with
    | nil => simp [equalEach] at h
    | cons q qs =>
      rw [equalEach] at h
      obtain ⟨b, hb, h⟩ := ok_of_bindExcept h
      cases b with
      | false => cases h
      | true => exact .cons hb (ih h)

def Store.Namesakes (store : Store) (r r' : Nat) : Prop :=
  ∃ name, store.ruleName r = .ok name ∧ store.ruleName r' = .ok name

end

structure Plot where
  lo : Nat
  hi : Nat
  fresh : firstFresh ≤ lo

namespace Plot

def Has (a : Plot) (i : Nat) : Prop :=
  a.lo ≤ i ∧ i < a.hi

def Apart (a b : Plot) : Prop :=
  a.hi ≤ b.lo ∨ b.hi ≤ a.lo

theorem Apart.symm {a b : Plot} (h : a.Apart b) : b.Apart a :=
  Or.symm h

theorem Apart.ne {a b : Plot} (h : a.Apart b) {i j : Nat} (hi : a.Has i) (hj : b.Has j) :
    i ≠ j := by
  rcases h with h | h <;> simp only [Has] at hi hj <;> omega

/-- A tree in normal form that calls some rules only, and whose nodes have identities of the plot,
but for those that exist once. -/
inductive Tree (a : Plot) (calls : Nat → Prop) : Pattern → Prop where
  | node {p : Pattern} (own : p ∈ singles ∨ a.Has p.id)
      (here : p.NormalNode { Allowed.all with call := calls })
      (below : ∀ q ∈ p.children, Tree a calls q) : Tree a calls p

variable {a b : Plot} {A B : Nat → Prop} {p q : Pattern}

theorem Tree.own (h : a.Tree A p) : p ∈ singles ∨ a.Has p.id := by
  cases h with
  | node own _ _ => exact own

theorem Tree.here (h : a.Tree A p) : p.NormalNode { Allowed.all with call := A } := by
  cases h with
  | node _ here _ => exact here

theorem Tree.child (h : a.Tree A p) (hq : q ∈ p.children) : a.Tree A q := by
  cases h with
  | node _ _ below => exact below q hq

theorem not_single_of_has (h : a.Has p.id) : p ∉ singles := by
  intro hp
  have := id_lt_of_mem_singles hp
  have := a.fresh
  simp only [Has] at h
  omega

theorem Tree.eq_of_same (hab : a.Apart b) (hp : a.Tree A p) (hq : b.Tree B q) (h : p.same q) :
    p = q := by
  have hid : p.id = q.id := by simpa [Pattern.same] using h
  rcases hp.own with hp | hp
  · rcases hq.own with hq | hq
    · exact eq_of_mem_singles hp hq hid
    · exact absurd hp (not_single_of_has (hid ▸ hq))
  · rcases hq.own with hq | hq
    · exact absurd hq (not_single_of_has (hid ▸ hp))
    · exact absurd hid (hab.ne hp hq)

end Plot

section

variable {store : Store} {below : Nat → Nat → Except Fault Bool} {a b : Plot} {A B : Nat → Prop}
  {e : Env}

theorem eq_of_sense {x y : Sense} (hx : x = .ofBool x.isNegated) (hy : y = .ofBool y.isNegated)
    (h : x.same y) : x = y := by
  have decided (b c : Bool) (h : (Sense.ofBool b).same (.ofBool c)) :
      Sense.ofBool b = .ofBool c := by
    cases b <;> cases c <;> first | rfl | cases h
  rw [hx, hy] at h ⊢
  exact decided _ _ h

theorem map_denote_of_equal {ps qs : List Pattern} (hp : ∀ p ∈ ps, a.Tree A p)
    (hq : ∀ q ∈ qs, b.Tree B q)
    (ih : ∀ p ∈ ps, ∀ q, a.Tree A p → b.Tree B q → equalWith store below p q = .ok true →
      p.denote e = q.denote e) (h : equalEach store below ps qs = .ok true) :
    ps.map (denote e) = qs.map (denote e) := by
  have hall := equalEach_ok h
  clear h
  induction hall with
  | nil => rfl
  | @cons p q ps qs hpq _ ihl =>
    have head := ih p (by simp) q (hp p (by simp)) (hq q (by simp)) hpq
    have rest := ihl (fun p' h => hp p' (by simp [h])) (fun q' h => hq q' (by simp [h]))
      fun p' h => ih p' (by simp [h])
    rw [List.map_cons, List.map_cons, head, rest]

theorem denote_of_equal (hab : a.Apart b) (hslot : e.slot = store.slot?)
    (hcall : ∀ r r', A r → B r' → store.Namesakes r r' → e.call r = e.call r') {p q : Pattern}
    (hp : a.Tree A p) (hq : b.Tree B q) (h : equalWith store below p q = .ok true) :
    p.denote e = q.denote e := by
  induction p using induction_children generalizing q with
  | node p ih =>
    by_cases hsame : p.same q
    · rw [hp.eq_of_same hab hq hsame]
    rw [equalWith.eq_def, if_neg hsame] at h
    have under {p' q' : Pattern} (hp' : p' ∈ p.children) (hq' : q' ∈ q.children)
        (h : equalWith store below p' q' = .ok true) : p'.denote e = q'.denote e :=
      ih p' hp' (hp.child hp') (hq.child hq') h
    have each {ps qs : List Pattern} (h : equalEach store below ps qs = .ok true)
        (hps : p.children = ps) (hqs : q.children = qs) :
        ps.map (denote e) = qs.map (denote e) := by
      subst hps
      subst hqs
      exact map_denote_of_equal (fun p' h => hp.child h) (fun q' h => hq.child h)
        (fun p' h q' => ih p' h) h
    split at h
    · simp only [Except.ok.injEq, Bool.and_eq_true, beq_iff_eq] at h
      simp only [denote, h]
    · exact hp.here.elim
    · exact hp.here.elim
    · exact hp.here.elim
    · simp only [Except.ok.injEq, beq_iff_eq] at h
      simp only [denote, h]
    · simp only [Except.ok.injEq, Bool.and_eq_true, beq_iff_eq] at h
      simp only [denote, h.1, eq_of_sense hp.here hq.here h.2]
    · obtain ⟨name, hname, h⟩ := ok_of_bindExcept h
      obtain ⟨name', hname', h⟩ := ok_of_bindExcept h
      simp only [Except.ok.injEq, beq_iff_eq] at h
      exact hcall _ _ hp.here hq.here ⟨name, hname, h ▸ hname'⟩
    · rw [denote_sequence, denote_sequence, each h rfl rfl]
    · rw [denote_choice, denote_choice, each h rfl rfl]
    · simp only [denote, under (by simp [children]) (by simp [children]) h]
    · simp only [Except.ok.injEq, beq_iff_eq] at h
      simp only [denote, h]
    · simp only [Except.ok.injEq, Bool.and_eq_true, beq_iff_eq] at h
      simp only [denote, h.1, eq_of_sense hp.here hq.here h.2]
    · simp only [denote, under (by simp [children]) (by simp [children]) h]
    · simp only [denote, under (by simp [children]) (by simp [children]) h]
    · simp only [denote, under (by simp [children]) (by simp [children]) h]
    · simp only [denote, under (by simp [children]) (by simp [children]) h]
    · split at h
      · next hs => simp only [denote, hslot, hs, under (by simp [children]) (by simp [children]) h]
      · cases h
    · split at h
      · next hs => simp only [denote, hslot, hs, under (by simp [children]) (by simp [children]) h]
      · cases h
    · simp only [Except.ok.injEq, Bool.and_eq_true, beq_iff_eq] at h
      simp only [denote, h]
    · exact hp.here.elim
    · exact hp.here.elim
    · cases h

theorem Store.Namesakes.name_eq {r r' : Nat} (h : store.Namesakes r r') :
    (store.rule r).name = (store.rule r').name := by
  obtain ⟨name, hr, hr'⟩ := h
  simp only [Store.ruleName] at hr hr'
  split at hr
  · split at hr'
    · exact (Except.ok.inj hr).trans (Except.ok.inj hr').symm
    · cases hr'
  · cases hr

/-- The rules of two texts go in pairs of one name, whose bodies are equal. -/
structure Paired (store : Store) (a b : Plot) (A B : Nat → Prop) (pair : Nat → Nat → Prop) :
    Prop where
  apart : a.Apart b
  left : ∀ r, A r → ∃ r', pair r r'
  right : ∀ r r', pair r r' → B r'
  names : ∀ r r', pair r r' → store.Namesakes r r'
  bodies : ∀ r r', pair r r' → ∃ p q below, store.body? r = .ok (some p) ∧
    store.body? r' = .ok (some q) ∧ a.Tree A p ∧ b.Tree B q ∧ equalWith store below p q = .ok true
  distinct : ∀ r r', B r → B r' → (store.rule r).name = (store.rule r').name → r = r'

variable {pair : Nat → Nat → Prop} {r r' : Nat}

theorem Paired.of_namesakes (h : Paired store a b A B pair) (hr : A r) (hr' : B r')
    (hn : store.Namesakes r r') : pair r r' := by
  obtain ⟨r'', hpair⟩ := h.left r hr
  have hname : (store.rule r'').name = (store.rule r').name :=
    (h.names r r'' hpair).name_eq.symm.trans hn.name_eq
  rwa [← h.distinct r'' r' (h.right r r'' hpair) hr' hname]

open Matching

theorem Paired.bodyWithin_eq (scene : Scene) (h : Paired scene.store a b A B pair) (depth : Nat)
    (hpair : pair r r') : scene.bodyWithin depth r = scene.bodyWithin depth r' := by
  induction depth generalizing r r' with
  | zero => rfl
  | succ depth ih =>
    obtain ⟨p, q, below, hp, hq, htp, htq, heq⟩ := h.bodies r r' hpair
    rw [Scene.bodyWithin, Scene.bodyWithin, hp, hq]
    refine denote_of_equal h.apart rfl (fun s s' hs hs' hn => ?_) htp htq heq
    have hpair' := h.of_namesakes hs hs' hn
    obtain ⟨p', q', -, hp', hq', -⟩ := h.bodies s s' hpair'
    simp only [Scene.env, hp', hq', ih hpair']

theorem Paired.body_eq (scene : Scene) (h : Paired scene.store a b A B pair) (hpair : pair r r') :
    scene.body r = scene.body r' := by
  refine Meaning.Below.antisymm (fun i t x hx => ?_) fun i t x hx => ?_
  all_goals
    obtain ⟨depth, hd⟩ := Scene.body_eq_some.1 hx
    refine Scene.body_eq_some.2 ⟨depth, ?_⟩
  · rwa [← h.bodyWithin_eq scene depth hpair]
  · rwa [h.bodyWithin_eq scene depth hpair]

/-- What a text was read as stands in the store: a tree without calls, or a grammar of rules with
different names, which call only each other. -/
inductive Plot.Planted (a : Plot) (store : Store) : Pattern → Prop where
  | single {p : Pattern} (tree : a.Tree (fun _ => False) p) : Planted a store p
  | grammar {id : Nat} {d : Nat × Nat} {ds : List (Nat × Nat)} (root : a.Has id)
      (nodes : ∀ e ∈ d :: ds, a.Has e.1)
      (bodies : ∀ e ∈ d :: ds, ∃ body, store.body? e.2 = .ok (some body) ∧
        a.Tree (· ∈ (d :: ds).map Prod.snd) body)
      (distinct : ∀ e ∈ d :: ds, ∀ e' ∈ d :: ds, (store.rule e.2).name = (store.rule e'.2).name →
        e.2 = e'.2) : Planted a store (.grammar id d ds)

theorem Plot.Planted.onto {p : Pattern} (h : a.Planted store p) (new : Store) :
    a.Planted (new.onto store) p := by
  cases h with
  | single tree => exact .single tree
  | @grammar id d ds root nodes bodies distinct =>
    refine .grammar root nodes (fun e he => ?_) fun e he e' he' hname => ?_
    · obtain ⟨q, hq, hn⟩ := bodies e he
      exact ⟨q, Store.body_onto_old hq, hn⟩
    · have hrule {e : Nat × Nat} (he : e ∈ d :: ds) :
          (new.onto store).rule e.2 = store.rule e.2 := by
        obtain ⟨q, hq, -⟩ := bodies e he
        simp only [Store.rule, Store.onto, Array.getElem?_append_left (Store.lt_of_body? hq)]
      rw [hrule he, hrule he'] at hname
      exact distinct e he e' he' hname

theorem bodiesWith_ok {hops : Nat} {p q : Pattern}
    (h : bodiesWith (store.equalBodies hops) store r r' = .ok true)
    (hp : store.body? r = .ok (some p)) (hq : store.body? r' = .ok (some q)) :
    store.Namesakes r r' ∧ ∃ below, equalWith store below p q = .ok true := by
  obtain ⟨name, hname, h⟩ := ok_of_bindExcept h
  obtain ⟨name', hname', h⟩ := ok_of_bindExcept h
  split at h
  · next hnames =>
    refine ⟨⟨name, hname, hnames ▸ hname'⟩, ?_⟩
    simp only [hp, hq, bind, Except.bind] at h
    split at h
    · next hsame => exact ⟨store.equalBodies hops, by rw [equalWith.eq_def, if_pos hsame]⟩
    · cases hops with
      | zero => cases h
      | succ hops =>
        simp only [Store.equalBodies, hp, hq, bind, Except.bind] at h
        exact ⟨_, h⟩
  · cases h

theorem rulesWith_ok {ds es : List (Nat × Nat)} (h : rulesWith below store ds es = .ok true)
    (hne : ∀ d ∈ ds, ∀ e ∈ es, d.1 ≠ e.1) :
    List.Forall₂ (fun d e => bodiesWith below store d.2 e.2 = .ok true) ds es := by
  induction ds generalizing es with
  | nil =>
    cases es with
    | nil => exact .nil
    | cons e es => cases h
  | cons d ds ih =>
    cases es with
    | nil => cases h
    | cons e es =>
      obtain ⟨equal, hequal, h⟩ := ok_of_bindExcept h
      have hid : (d.1 == e.1) = false := beq_false_of_ne (hne d (by simp) e (by simp))
      cases equal with
      | false => simp [hid] at h
      | true =>
        exact .cons hequal
          (ih (by simpa using h) fun d' hd e' he => hne d' (by simp [hd]) e' (by simp [he]))

theorem paired_of_equal {hops : Nat} {id id' : Nat} {d e : Nat × Nat} {ds es : List (Nat × Nat)}
    (hab : a.Apart b) (hp : a.Planted store (.grammar id d ds))
    (hq : b.Planted store (.grammar id' e es))
    (h : rulesWith (store.equalBodies hops) store (d :: ds) (e :: es) = .ok true) :
    Paired store a b (· ∈ (d :: ds).map Prod.snd) (· ∈ (e :: es).map Prod.snd)
      fun r r' => ∃ z ∈ (d :: ds).zip (e :: es), z.1.2 = r ∧ z.2.2 = r' := by
  cases hp with
  | single tree => exact tree.here.elim
  | grammar root nodes bodies distinct =>
    cases hq with
    | single tree => exact tree.here.elim
    | grammar root' nodes' bodies' distinct' =>
      have hall := rulesWith_ok h fun d' hd e' he => hab.ne (nodes d' hd) (nodes' e' he)
      obtain ⟨hlength, hzip⟩ := List.forall₂_iff_zip.1 hall
      have equal {z : (Nat × Nat) × (Nat × Nat)} (hz : z ∈ (d :: ds).zip (e :: es)) :
          store.Namesakes z.1.2 z.2.2 ∧ ∃ p q below, store.body? z.1.2 = .ok (some p) ∧
            store.body? z.2.2 = .ok (some q) ∧ a.Tree (· ∈ (d :: ds).map Prod.snd) p ∧
            b.Tree (· ∈ (e :: es).map Prod.snd) q ∧ equalWith store below p q = .ok true := by
        obtain ⟨hd, he⟩ := List.of_mem_zip (a := z.1) (b := z.2) hz
        obtain ⟨p, hp, htp⟩ := bodies z.1 hd
        obtain ⟨q, hq, htq⟩ := bodies' z.2 he
        obtain ⟨hn, below, heq⟩ := bodiesWith_ok (hzip hz) hp hq
        exact ⟨hn, p, q, below, hp, hq, htp, htq, heq⟩
      refine ⟨hab, fun r hr => ?_, ?_, ?_, ?_, fun r r' hr hr' hname => ?_⟩
      · obtain ⟨d', hd, rfl⟩ := List.mem_map.1 hr
        rw [← List.map_fst_zip (Nat.le_of_eq hlength)] at hd
        obtain ⟨z, hz, rfl⟩ := List.mem_map.1 hd
        exact ⟨z.2.2, z, hz, rfl, rfl⟩
      · rintro _ _ ⟨z, hz, rfl, rfl⟩
        exact List.mem_map_of_mem (List.of_mem_zip (a := z.1) (b := z.2) hz).2
      · rintro _ _ ⟨z, hz, rfl, rfl⟩
        exact (equal hz).1
      · rintro _ _ ⟨z, hz, rfl, rfl⟩
        exact (equal hz).2
      · obtain ⟨e₁, he₁, rfl⟩ := List.mem_map.1 hr
        obtain ⟨e₂, he₂, rfl⟩ := List.mem_map.1 hr'
        exact distinct' e₁ he₁ e₂ he₂ hname

theorem not_equal_grammar {p : Pattern} {id : Nat} {d : Nat × Nat} {ds : List (Nat × Nat)}
    (hab : a.Apart b) (hp : a.Tree A p) (hid : b.Has id) :
    equalWith store below p (.grammar id d ds) ≠ .ok true ∧
      equalWith store below (.grammar id d ds) p ≠ .ok true := by
  have hne : p.id ≠ id := by
    rcases hp.own with hs | hs
    · exact fun he => Plot.not_single_of_has (a := b) (he ▸ hid) hs
    · exact hab.ne hs hid
  have hsame : ¬ p.same (.grammar id d ds) := by simpa [Pattern.same, Pattern.id] using hne
  have hsame' : ¬ (Pattern.grammar id d ds).same p := by
    simpa [Pattern.same, Pattern.id] using hne.symm
  rw [equalWith.eq_def, equalWith.eq_def, if_neg hsame, if_neg hsame']
  cases p with
  | grammar id' d' ds' => exact hp.here.elim
  | _ => simp

theorem meaning_of_equal (scene : Scene) (hab : a.Apart b) {p q : Pattern}
    (hp : a.Planted scene.store p) (hq : b.Planted scene.store q)
    (h : scene.store.equal p q = .ok true) : scene.meaning p = scene.meaning q := by
  rw [Store.equal] at h
  cases hp with
  | single tree =>
    cases hq with
    | single tree' => exact denote_of_equal hab rfl (fun _ _ hr => hr.elim) tree tree' h
    | grammar root' => exact absurd h (not_equal_grammar hab tree root').1
  | @grammar id d ds root nodes bodies distinct =>
    cases hq with
    | single tree' => exact absurd h (not_equal_grammar hab.symm tree' root).2
    | @grammar id' e es root' nodes' bodies' distinct' =>
      have hsame : ¬ (Pattern.grammar id d ds).same (.grammar id' e es) := by
        simpa [Pattern.same, Pattern.id] using hab.ne root root'
      rw [equalWith.eq_def, if_neg hsame] at h
      have hpaired := paired_of_equal hab (.grammar root nodes bodies distinct)
        (.grammar root' nodes' bodies' distinct') h
      obtain ⟨p, hp, -⟩ := bodies d (by simp)
      obtain ⟨q, hq, -⟩ := bodies' e (by simp)
      simp only [Scene.meaning, denote, Scene.env, hp, hq]
      exact hpaired.body_eq scene ⟨(d, e), by simp, rfl, rfl⟩

end

namespace Grammar

variable {src : Source} {old s₀ : Store} {H : Set Pattern} {A : Nat → Prop}

def plot (old s₀ : Store) (hold : firstFresh ≤ old.fresh) : Plot :=
  ⟨old.fresh, (s₀.onto old).fresh, hold⟩

theorem has_plot (hold : firstFresh ≤ old.fresh) {i : Nat} (hi : firstFresh ≤ i ∧ i < s₀.fresh) :
    (plot old s₀ hold).Has (old.behind.id i) := by
  rw [Renaming.id_of_fresh _ hi.1]
  simp only [Plot.Has, plot, Store.onto, Store.behind]
  omega

theorem tree_of_pool (hold : firstFresh ≤ old.fresh) (hpool : Pool H s₀.fresh) {p : Pattern}
    (hp : p ∈ H) (hn : (p.rename old.behind).Normal { Allowed.all with call := A }) :
    (plot old s₀ hold).Tree A (p.rename old.behind) := by
  induction p using induction_children with
  | node p ih =>
    refine .node ?_ hn.here fun q hq => ?_
    · rcases hpool.others p hp with hsingle | hfresh
      · exact .inl (by rwa [rename_single _ hsingle])
      · rw [id_rename]
        exact .inr (has_plot hold ⟨hfresh, hpool.below p hp⟩)
    · have hchild := hn.child hq
      rw [children_rename] at hq
      obtain ⟨q₀, hq₀, rfl⟩ := List.mem_map.1 hq
      exact ih q₀ hq₀ (hpool.closed p hp q₀ hq₀) hchild

theorem original_of_body {r : Nat} {q : Pattern}
    (h : (s₀.onto old).body? (old.behind.rule r) = .ok (some q)) :
    ∃ q₀, s₀.body? r = .ok (some q₀) ∧ q = q₀.rename old.behind := by
  rw [Store.body_onto] at h
  cases hb : s₀.body? r with
  | error f => simp [hb, Except.map] at h
  | ok o =>
    cases o with
    | none => simp [hb, Except.map] at h
    | some q₀ =>
      simp only [hb, Except.map, Option.map_some, Except.ok.injEq, Option.some.injEq] at h
      exact ⟨q₀, rfl, h.symm⟩

/-- What a text is read as stands in the store, with identities that were not taken before. -/
theorem planted_parse (hold : firstFresh ≤ old.fresh) {p₀ : Pattern} {log : List Notice}
    (h : parse src {} = (.ok p₀, s₀, log)) :
    (plot old s₀ hold).Planted (s₀.onto old) (p₀.rename old.behind) := by
  have hparse : parse src old = (.ok (p₀.rename old.behind), s₀.onto old, log) := by
    rw [parse_onto src hold, h]
    rfl
  obtain ⟨s, hs, hsound, hcompiled, -⟩ := compiled_parse (admits_capacity src) hparse
  obtain ⟨_, horderly⟩ := orderly_parse hold hparse
  obtain ⟨H, horderly₀⟩ := orderly_parse (Nat.le_refl _) h
  generalize hp : p₀.rename old.behind = p at hcompiled
  cases hcompiled with
  | single hn =>
    rcases horderly₀.root with ⟨id, d, ds, rfl, -⟩ | hmem
    · rw [← hp] at hn
      exact hn.here.elim
    · rw [← hp] at hn ⊢
      exact .single (tree_of_pool hold horderly₀.pool hmem
        (hn.mono ⟨fun _ h => h, fun _ _ => trivial, fun _ _ => trivial⟩))
  | @grammar id d ds nodup declared named =>
    cases p₀ <;> simp only [rename, reduceCtorEq, Pattern.grammar.injEq] at hp
    case grammar id₀ d₀ ds₀ =>
      obtain ⟨rfl, rfl, rfl⟩ := hp
      obtain ⟨hid, hnodes⟩ := ids_of_grammar h
      have member {e : Nat × Nat} (he : e ∈ old.behind.member d₀ :: ds₀.map old.behind.member) :
          ∃ e₀ ∈ d₀ :: ds₀, e = old.behind.member e₀ := by
        rw [← List.map_cons] at he
        obtain ⟨e₀, he₀, rfl⟩ := List.mem_map.1 he
        exact ⟨e₀, he₀, rfl⟩
      have body {e : Nat × Nat} (he : e ∈ old.behind.member d₀ :: ds₀.map old.behind.member) :
          ∃ q, (s₀.onto old).body? e.2 = .ok (some q) ∧ q.Normal (s.allowed old.rules.size) := by
        have hcall := (named e.2).1 (List.mem_map_of_mem he)
        obtain ⟨q, hq, hn⟩ := hsound.body_of_declared hcall (declared _ hcall)
        exact ⟨q, hs ▸ hq, hn⟩
      refine .grammar (has_plot hold hid) (fun e he => ?_) (fun e he => ?_)
        fun e he e' he' hname => ?_
      · obtain ⟨e₀, he₀, rfl⟩ := member he
        exact has_plot hold (hnodes e₀ he₀)
      · obtain ⟨q, hq, hn⟩ := body he
        refine ⟨q, hq, ?_⟩
        obtain ⟨e₀, he₀, rfl⟩ := member he
        obtain ⟨q₀, hq₀, rfl⟩ := original_of_body hq
        obtain ⟨rule, hrule, hbody⟩ := rule_of_body? hq₀
        exact tree_of_pool hold horderly₀.pool
          ((horderly₀.rules e₀.2 rule (Nat.zero_le _) hrule).2 q₀ hbody)
          (hn.mono ⟨fun r hr => (named r).2 hr, fun _ _ => trivial, fun _ _ => trivial⟩)
      · obtain ⟨q, hq, -⟩ := body he
        obtain ⟨q', hq', -⟩ := body he'
        obtain ⟨rule, hrule, -⟩ := rule_of_body? hq
        obtain ⟨rule', hrule', -⟩ := rule_of_body? hq'
        have hr := (named e.2).1 (List.mem_map_of_mem he)
        have hr' := (named e'.2).1 (List.mem_map_of_mem he')
        simp only [Store.rule, hrule, hrule', Option.getD_some] at hname
        exact horderly.distinct e.2 e'.2 rule rule' hr.1 hr'.1 hrule hrule' hname

end Grammar

namespace Library

/-- What holds of a library and the patterns that were compiled in it: all of them stand in the
store, and two of them are one pattern or were given different identities. -/
structure Planted (l : Library) (ps : List (Plot × Pattern)) : Prop where
  fresh : firstFresh ≤ l.store.fresh
  planted : ∀ x ∈ ps, x.1.Planted l.store x.2 ∧ x.1.hi ≤ l.store.fresh
  apart : ps.Pairwise fun x y => x.1.Apart y.1
  cache : ∀ e ∈ l.cache, ∃ x ∈ ps, x.2 = e.2

variable {l l' : Library} {ps : List (Plot × Pattern)} {key : CacheKey}

theorem Planted.congr (h : Planted l ps) (hs : l'.store = l.store) (hc : l'.cache = l.cache) :
    Planted l' ps := by
  obtain ⟨fresh, planted, apart, cache⟩ := h
  exact ⟨hs ▸ fresh, hs ▸ planted, apart, hc ▸ cache⟩

theorem Planted.read (h : Planted l ps) {src : Grammar.Source} {p : Pattern} {store : Store}
    {notices : List Notice} (hparse : Grammar.parse src l.store = (.ok p, store, notices)) :
    ∃ a, Planted { l with store := store } ((a, p) :: ps) := by
  obtain ⟨p₀, s₀, halone, rfl, rfl⟩ := Grammar.parse_behind h.fresh hparse
  have hfresh : l.store.fresh ≤ (s₀.onto l.store).fresh := by
    have := (Grammar.parse_fresh halone).1
    have := h.fresh
    simp only [Store.onto, Store.behind]
    omega
  refine ⟨Grammar.plot l.store s₀ h.fresh, h.fresh.trans hfresh, ?_, ?_, fun e he => ?_⟩
  · refine List.forall_mem_cons.2
      ⟨⟨Grammar.planted_parse h.fresh halone, Nat.le_refl _⟩, fun x hx => ?_⟩
    obtain ⟨hx, hle⟩ := h.planted x hx
    exact ⟨hx.onto s₀, hle.trans hfresh⟩
  · exact List.pairwise_cons.2 ⟨fun x hx => .inr (h.planted x hx).2, h.apart⟩
  · obtain ⟨x, hx, he⟩ := h.cache e he
    exact ⟨x, List.mem_cons_of_mem _ hx, he⟩

theorem Planted.remember {a : Plot} {p : Pattern} (h : Planted l ((a, p) :: ps)) (size : Int)
    (key : CacheKey) :
    Planted { l with cache := Library.remember size key p l.cache } ((a, p) :: ps) where
  fresh := h.fresh
  planted := h.planted
  apart := h.apart
  cache e he := by
    rcases List.mem_append.1 he with he | he
    · split at he
      · cases he
      · exact h.cache e he
    · obtain rfl := List.mem_singleton.1 he
      exact ⟨(a, p), by simp, rfl⟩

/-- What a call of the compiler returns stands in the store with all that was compiled before. -/
theorem Planted.compile (h : Planted l ps) {p : Pattern} (hr : Compilation key l (.ok p l')) :
    ∃ ps', ps ⊆ ps' ∧ Planted l' ps' ∧ ∃ x ∈ ps', x.2 = p := by
  cases hr with
  | found hmem same => exact ⟨ps, fun _ h => h, h, h.cache _ hmem⟩
  | kept hparse size log =>
    obtain ⟨a, ha⟩ := h.read hparse
    exact ⟨_, List.subset_cons_self _ _, (ha.remember size key).congr rfl rfl, _,
      List.mem_cons_self, rfl⟩

theorem Planted.fail (h : Planted l ps) {e : Failure} (hr : Compilation key l (.error e l')) :
    ∃ ps', ps ⊆ ps' ∧ Planted l' ps' := by
  cases hr with
  | failed e log => exact ⟨ps, fun _ h => h, h.congr rfl rfl⟩
  | unkept hparse e log =>
    obtain ⟨a, ha⟩ := h.read hparse
    exact ⟨_, List.subset_cons_self _ _, ha.congr rfl rfl⟩

theorem Planted.compileAll (h : Planted l ps) (xs : List Request) :
    ∃ ps', ps ⊆ ps' ∧ Planted (Library.compileAll xs l).2 ps' ∧
      ∀ p ∈ (Library.compileAll xs l).1, ∃ x ∈ ps', x.2 = p := by
  induction xs generalizing l ps with
  | nil => exact ⟨ps, fun _ h => h, h, by simp [Library.compileAll]⟩
  | cons x xs ih =>
    have hstep := compilation x l
    simp only [Library.compileAll]
    cases hr : Library.compile x.text x.file x.inline x.config l with
    | ok p l₁ =>
      rw [hr] at hstep
      obtain ⟨ps₁, hsub₁, h₁, y, hy, rfl⟩ := h.compile hstep
      obtain ⟨ps₂, hsub₂, h₂, hall⟩ := ih h₁
      exact ⟨ps₂, fun _ h => hsub₂ (hsub₁ h), h₂, List.forall_mem_cons.2 ⟨⟨y, hsub₂ hy, rfl⟩, hall⟩⟩
    | error e l₁ =>
      rw [hr] at hstep
      obtain ⟨ps₁, hsub₁, h₁⟩ := h.fail hstep
      obtain ⟨ps₂, hsub₂, h₂, hall⟩ := ih h₁
      exact ⟨ps₂, fun _ h => hsub₂ (hsub₁ h), h₂, hall⟩

theorem planted_new (c : Config) (depth : Nat) : Planted { config := c, depth } [] :=
  ⟨Nat.le_refl _, by simp, .nil, by simp⟩

end Library

namespace Matching

/-- Patterns that were compiled from any texts, one after the other, and that are equal match alike:
on every subject, at every position from zero on and from every table both nest without end, or both
return the same and leave the same table. -/
theorem equal_patterns_match_alike (c : Config) (depth : Nat) (xs : List Request) {p q : Pattern}
    (hp : p ∈ (Library.compileAll xs { config := c, depth }).1)
    (hq : q ∈ (Library.compileAll xs { config := c, depth }).1)
    (h : (Library.compileAll xs { config := c, depth }).2.store.equal p q = .ok true) :
    Interchangeable (Library.compileAll xs { config := c, depth }).2.store p
      (Library.compileAll xs { config := c, depth }).2.store q := by
  obtain ⟨ps, -, hplanted, hall⟩ := (Library.planted_new c depth).compileAll xs
  obtain ⟨x, hx, rfl⟩ := hall p hp
  obtain ⟨y, hy, rfl⟩ := hall q hq
  refine interchangeable_iff.2 fun subject origin watch i t _ => ?_
  by_cases hxy : x = y
  · rw [hxy]
  · have hsymm : Std.Symm fun x y : Plot × Pattern => x.1.Apart y.1 := ⟨fun _ _ h => h.symm⟩
    have hapart : x.1.Apart y.1 := hplanted.apart.forall hx hy hxy
    rw [meaning_of_equal ⟨subject, _, origin, watch⟩ hapart (hplanted.planted x hx).1
      (hplanted.planted y hy).1 h]

/-- `S <- 'a' S / 'b'` twice, in other words and with other limits of inlining. -/
def sameRules : List Request :=
  [{ text := Text.ofString "S <- 'a' S / 'b'", inline := some (.int 0) },
    { text := Text.ofString "S<-('a'S)/\"b\"", inline := some (.int 5) }]

/-- The length of the match at the start of a subject. -/
def length? (subject : Subject) (l : Library) (p : Pattern) : Option Nat :=
  match Library.lengthAt p subject 0 l with
  | .ok n _ => n
  | .error _ _ => none

/-- They are equal, and both match the whole of `aab`. -/
theorem sameRules_match_alike :
    let done := Library.compileAll sameRules { config := ⟨Config.defaults⟩ }
    done.1.length = 2 ∧ done.1.map (length? #['a', 'a', 'b'] done.2) = [some 3, some 3] ∧
      ∀ p ∈ done.1, ∀ q ∈ done.1,
        done.2.store.equal p q = .ok true ∧ Interchangeable done.2.store p done.2.store q := by
  have hlengths : (Library.compileAll sameRules { config := ⟨Config.defaults⟩ }).1.map
      (length? #['a', 'a', 'b'] (Library.compileAll sameRules { config := ⟨Config.defaults⟩ }).2) =
      [some 3, some 3] := by decide +kernel
  have hequal : ∀ p ∈ (Library.compileAll sameRules { config := ⟨Config.defaults⟩ }).1,
      ∀ q ∈ (Library.compileAll sameRules { config := ⟨Config.defaults⟩ }).1,
      ((Library.compileAll sameRules { config := ⟨Config.defaults⟩ }).2.store.equal p q).toOption =
      some true := by
    decide +kernel
  have halike := @equal_patterns_match_alike ⟨Config.defaults⟩ usualDepth sameRules
  generalize Library.compileAll sameRules { config := ⟨Config.defaults⟩ } =
    done at hlengths hequal halike ⊢
  refine ⟨by simpa using congrArg List.length hlengths, hlengths, fun p hp q hq => ?_⟩
  have heq := Session.eq_ok_of_toOption (hequal p hp q hq)
  exact ⟨heq, halike hp hq heq⟩

end Matching

end PegMatch

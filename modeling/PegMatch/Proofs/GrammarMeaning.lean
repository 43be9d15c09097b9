import PegMatch.Proofs.Documents
import PegMatch.Proofs.Inlining
import PegMatch.Proofs.SyntaxMeaning

set_option autoImplicit false

namespace PegMatch

namespace Grammar

namespace Build

open Meaning

variable {inline : Store → Nat → Option Pattern} {e₀ e : Env} {rule : Text → Meaning}
  {names : List (Text × Nat)}

def giving (b : Bench) (r : Nat) (p : Pattern) : Bench :=
  { b with store := b.store.modifyRule r fun rule =>
             { rule with declared := true, body := some p } }

theorem bodyOf_giving (b : Bench) {r : Nat} (hr : r < b.store.rules.size) (p : Pattern) (r' : Nat) :
    (giving b r p).bodyOf r' = if r = r' then some p else b.bodyOf r' := by
  simp only [Bench.bodyOf, giving, Store.modifyRule, Array.getElem?_modify]
  split
  · next h =>
    subst h
    rw [Array.getElem?_eq_getElem hr]
    rfl
  · rfl

theorem neat_giving {b : Bench} (hb : b.Neat) (r : Nat) (p : Pattern) : (giving b r p).Neat := by
  refine ⟨hb.names, hb.rules, fun n hn => ?_⟩
  simpa [giving, Store.modifyRule] using hb.known n hn

theorem name_unique {b : Bench} (hb : b.Neat) {n n' : Text} {r : Nat} (hn : (n, r) ∈ b.names)
    (hn' : (n', r) ∈ b.names) : n = n' :=
  congrArg Prod.fst (List.inj_on_of_nodup_map hb.rules hn hn' rfl)

theorem rule_unique {b : Bench} (hb : b.Neat) {n : Text} {r r' : Nat} (hr : (n, r) ∈ b.names)
    (hr' : (n, r') ∈ b.names) : r = r' :=
  congrArg Prod.snd (List.inj_on_of_nodup_map hb.names hr hr' rfl)

/-- What a declaration does to a bench: the rule `r` gets the body `p`. -/
structure Declares (inline : Store → Nat → Option Pattern) (d : Declaration) (b b' : Bench)
    (r : Nat) (p : Pattern) : Prop where
  made : ∃ b₂, d.body.build inline (ruleNamed d.name.text b).2 = (p, b₂) ∧
    b' = (fresh (giving b₂ r p)).2
  names : b.names ⊆ b'.names
  neat : b'.Neat
  named : (d.name.text, r) ∈ b'.names
  bodies : ∀ r', b'.bodyOf r' = if r = r' then some p else b.bodyOf r'
  settles : ∀ {e₀ e : Env} {rule : Text → Meaning} {names : List (Text × Nat)},
    Interprets e₀ e rule names → (∀ l ∈ d.body.lexemes, l.isPlain) → Fair e rule names b →
    b'.names ⊆ names → Means e names (d.body.denote e₀ rule) p ∧
    (p.denote e = rule d.name.text → Fair e rule names b')

theorem declares (hi : Inlines inline) (d : Declaration) {b : Bench} (hb : b.Neat) :
    ∃ p, Declares inline d b (d.build inline b).2 (d.build inline b).1.2 p := by
  have hmem := mem_ruleNamed d.name.text b
  have grow₁ := (growing_ruleNamed d.name.text).grows b
  have neat₁ := (growing_ruleNamed d.name.text).neat b hb
  have fair₁ {e : Env} {rule : Text → Meaning} {names : List (Text × Nat)}
      (hf : Fair e rule names b) :=
    fair_ruleNamed d.name.text hf
  obtain ⟨⟨r, b₁⟩, hr⟩ : ∃ x, ruleNamed d.name.text b = x := ⟨_, rfl⟩
  simp only [hr] at hmem grow₁ neat₁ fair₁
  have grow₂ := (growing.expression inline d.body).grows b₁
  have neat₂ := (growing.expression inline d.body).neat b₁ neat₁
  obtain ⟨⟨p, b₂⟩, hp⟩ : ∃ x, d.body.build inline b₁ = x := ⟨_, rfl⟩
  simp only [hp] at grow₂ neat₂
  have hbuild : d.build inline b = ((b₂.store.fresh, r), (fresh (giving b₂ r p)).2) := by
    simp only [Declaration.build, Bind.bind, StateT.bind, hr, hp]
    rfl
  have hsize : r < b₂.store.rules.size := neat₂.known _ (grow₂.names hmem)
  rw [hbuild]
  refine ⟨p, ⟨b₂, by rw [hr, hp], rfl⟩, List.Subset.trans grow₁.names grow₂.names,
    growing_fresh.neat _ (neat_giving neat₂ r p),
    grow₂.names hmem, fun r' => ?_, fun {e₀ e rule names} h hx hf hn => ?_⟩
  · rw [growing_fresh.grows _ |>.bodies, bodyOf_giving b₂ hsize, grow₂.bodies, grow₁.bodies]
  · have hsettles := settles_expression h hi d.body hx b₁ (fair₁ hf)
    rw [hp] at hsettles
    obtain ⟨hf₂, hmeans⟩ := hsettles hn
    refine ⟨hmeans, fun hrule =>
      (settles_fresh _ ⟨neat_giving neat₂ r p, hf₂.skip, fun n hm q hq => ?_⟩ hn).1⟩
    rw [bodyOf_giving b₂ hsize] at hq
    split at hq
    · next heq =>
      cases hq
      obtain ⟨n, r'⟩ := n
      obtain rfl : r = r' := heq
      rw [name_unique neat₂ hm (grow₂.names hmem)]
      exact ⟨hrule, hmeans.normal⟩
    · exact hf₂.bodies n hm q hq

/-- The bench after declarations. -/
abbrev after (inline : Store → Nat → Option Pattern) (ds : List Declaration) (b : Bench) : Bench :=
  (ds.mapM (Declaration.build inline) b).2

theorem after_cons (d : Declaration) (ds : List Declaration) (b : Bench) :
    after inline (d :: ds) b = after inline ds (d.build inline b).2 := by
  simp only [after, List.mapM_cons]
  rfl

theorem neat_after (hi : Inlines inline) (ds : List Declaration) {b : Bench} (hb : b.Neat) :
    (after inline ds b).Neat ∧ b.names ⊆ (after inline ds b).names := by
  induction ds generalizing b with
  | nil => exact ⟨hb, List.Subset.refl _⟩
  | cons d ds ih =>
    obtain ⟨p, hd⟩ := declares hi d hb
    rw [after_cons]
    exact ⟨(ih hd.neat).1, List.Subset.trans hd.names (ih hd.neat).2⟩

theorem named_after (hi : Inlines inline) (ds : List Declaration) {b : Bench} (hb : b.Neat) :
    ∀ d ∈ ds, ∃ r, (d.name.text, r) ∈ (after inline ds b).names := by
  induction ds generalizing b with
  | nil => simp
  | cons d ds ih =>
    obtain ⟨p, hd⟩ := declares hi d hb
    rw [after_cons]
    exact List.forall_mem_cons.2 ⟨⟨_, (neat_after hi ds hd.neat).2 hd.named⟩, ih hd.neat⟩

theorem bodyOf_after (hi : Inlines inline) (ds : List Declaration) {b : Bench} (hb : b.Neat)
    {n : Text} {r : Nat} {p : Pattern} (hn : (n, r) ∈ b.names) (hnew : ∀ d ∈ ds, d.name.text ≠ n)
    (hp : b.bodyOf r = some p) : (after inline ds b).bodyOf r = some p := by
  induction ds generalizing b with
  | nil => exact hp
  | cons d ds ih =>
    obtain ⟨q, hd⟩ := declares hi d hb
    rw [after_cons]
    refine ih hd.neat (hd.names hn) (fun d' hd' => hnew d' (List.mem_cons_of_mem d hd')) ?_
    rw [hd.bodies, if_neg, hp]
    intro heq
    have hnamed := hd.named
    rw [heq] at hnamed
    exact hnew d (by simp) (name_unique hd.neat hnamed (hd.names hn))

/-- The bodies of declared rules mean what their declarations say. For that, each body must be known
to mean what its name does once it means what its declaration says. -/
theorem fair_after (h : Interprets e₀ e rule names) (hi : Inlines inline) (ds : List Declaration)
    (hnodup : (ds.map fun d => d.name.text).Nodup) (hx : ∀ d ∈ ds, ∀ l ∈ d.body.lexemes, l.isPlain)
    {b : Bench} (hb : Fair e rule names b) (hn : (after inline ds b).names ⊆ names)
    (hjust : ∀ d ∈ ds, ∀ r p, (d.name.text, r) ∈ (after inline ds b).names →
      (after inline ds b).bodyOf r = some p → p.denote e = d.body.denote e₀ rule →
      p.denote e = rule d.name.text) :
    ∀ d ∈ ds, ∃ r p, (d.name.text, r) ∈ (after inline ds b).names ∧
      (after inline ds b).bodyOf r = some p ∧ Means e names (d.body.denote e₀ rule) p := by
  induction ds generalizing b with
  | nil => simp
  | cons d ds ih =>
    obtain ⟨p, hd⟩ := declares hi d hb.neat
    obtain ⟨hnew, hnodup⟩ := List.nodup_cons.1 hnodup
    have hnew (d' : Declaration) (hd' : d' ∈ ds) : d'.name.text ≠ d.name.text := by
      intro heq
      exact hnew (List.mem_map.2 ⟨d', hd', heq⟩)
    simp only [after_cons] at hn hjust ⊢
    obtain ⟨-, hnames⟩ := neat_after hi ds hd.neat
    have hbody := bodyOf_after hi ds hd.neat hd.named hnew (by rw [hd.bodies, if_pos rfl])
    obtain ⟨hmeans, hfair⟩ := hd.settles h (hx d (by simp)) hb (List.Subset.trans hnames hn)
    -- Later declarations may inline this body, so it must mean its name before they are built.
    have hrule := hjust d (by simp) _ p (hnames hd.named) hbody hmeans.same
    have hrest := ih hnodup (fun d' hd' => hx d' (by simp [hd'])) (hfair hrule) hn
      fun d' hd' => hjust d' (by simp [hd'])
    exact List.forall_mem_cons.2 ⟨⟨_, p, hnames hd.named, hbody, hmeans⟩, hrest⟩

end Build

end Grammar

namespace Matching

open Grammar Build Meaning

theorem keeps_body {scene : Scene} {P : Nat → Prop}
    (h : ∀ r, P r → ∃ p, scene.store.body? r = .ok (some p) ∧ p.Normal
      ⟨P, fun _ => False, fun _ => False⟩) {r : Nat} (hr : P r) : Meaning.Keeps (scene.body r) := by
  intro i t n u ha
  refine scene.body_induction (fun r _ t a => P r → ∀ n u, a = .hit n u → u = t) ?_ ha hr n u rfl
  intro body ih r p i t a hp ha hr n u heq
  obtain ⟨q, hq, hnormal⟩ := h r hr
  cases hp.symm.trans hq
  subst heq
  refine Pattern.keeps_denote
    (hnormal.mono ⟨fun r' hr' => ?_, fun _ h => h.elim, fun _ h => h.elim⟩) i t n u ha
  obtain ⟨q', hq', -⟩ := h r' hr'
  simp only [Env.tame, Scene.env, hq']
  exact fun i t n u hb => ih r' i t _ hb hr' n u rfl

variable {ι : Type} {ds : List ι} {left right : ι → Nat} {scene scene' : Scene}

/-- The environment in which the rules that stand for the elements of a list mean something else. -/
def calling (e : Env) (ds : List ι) (left : ι → Nat) (M : ι → Meaning) : Env :=
  { e with
    call := fun r =>
      match ds.find? fun d => left d == r with
      | some d => M d
      | none => e.call r }

theorem find?_eq {β : Type} [BEq β] [LawfulBEq β] {f : ι → β} (h : (ds.map f).Nodup) {d : ι}
    (hd : d ∈ ds) : ds.find? (fun d' => f d' == f d) = some d := by
  cases hfind : ds.find? fun d' => f d' == f d with
  | none => simpa using List.find?_eq_none.1 hfind d hd
  | some d' =>
    have hsame : f d' = f d := by simpa using List.find?_some hfind
    rw [List.inj_on_of_nodup_map h (List.mem_of_find?_eq_some hfind) hd hsame]

theorem call_calling (e : Env) (M : ι → Meaning) (h : (ds.map left).Nodup) {d : ι} (hd : d ∈ ds) :
    (calling e ds left M).call (left d) = M d := by
  simp only [calling, find?_eq h hd]

theorem inside_calling {e : Env} (he : e.Inside) {M : ι → Meaning}
    (hM : ∀ d ∈ ds, Inside e.subject (M d)) : (calling e ds left M).Inside := by
  refine ⟨fun r => ?_, he.rule⟩
  simp only [calling]
  split
  · next d hd => exact hM d (List.mem_of_find?_eq_some hd)
  · exact he.call r

/-- Rules whose bodies mean the rules of another scene, given that they call those, answer no more
than those. -/
theorem body_below
    (hbody : ∀ d ∈ ds, ∃ p, scene.store.body? (left d) = .ok (some p) ∧
      p.denote (calling (scene.env scene.body) ds left fun d => scene'.body (right d)) = scene'.body
        (right d)) {d : ι} (hd : d ∈ ds) : Below (scene.body (left d)) (scene'.body (right d)) := by
  intro i t a ha
  -- The induction is over the approximations of the first rules. Each must stay below its own
  -- limit, too, because the bodies also call rules that stand for no element of the list.
  refine (scene.body_induction (fun r i t a => scene.body r i t = some a ∧
    ∀ d ∈ ds, left d = r → scene'.body (right d) i t = some a) ?_ ha).2 d hd rfl
  intro body ih r p i t a hp ha
  have below (r : Nat) : Below (body r) (scene.body r) := fun i t a h => (ih r i t a h).1
  refine ⟨?_, fun d hd hr => ?_⟩
  · rw [Scene.body_eq_meaning hp]
    exact p.denote_below (scene.env_below below) i t a ha
  · obtain ⟨q, hq, hmeans⟩ := hbody d hd
    rw [hr] at hq
    cases hp.symm.trans hq
    have hbelow : (scene.env body).Below
        (calling (scene.env scene.body) ds left fun d => scene'.body (right d)) := by
      refine ⟨rfl, rfl, rfl, fun r' => ?_, (scene.env_below below).rule⟩
      simp only [calling]
      split
      · next d' hfind =>
        have hd' := List.mem_of_find?_eq_some hfind
        have hr' : left d' = r' := by simpa using List.find?_some hfind
        obtain ⟨q', hq', -⟩ := hbody d' hd'
        rw [hr'] at hq'
        simp only [Scene.env, hq']
        exact fun i t a h => (ih r' i t a h).2 d' hd' hr'
      · exact (scene.env_below below).call r'
    rw [← hmeans]
    exact p.denote_below hbelow i t a ha

def spoken (ds : List Declaration) (M : Declaration → Meaning) (name : Text) : Meaning :=
  match ds.find? fun d => d.name.text == name with
  | some d => M d
  | none => never

/-- Rules of a store that mean what declarations without captures say, whatever the names in them
mean. -/
structure Speaks (store : Store) (ds : List Declaration) (left : Declaration → Nat) : Prop where
  rules : (ds.map left).Nodup
  plain : ∀ d ∈ ds, ∀ l ∈ d.body.lexemes, l.isPlain
  body : ∀ d ∈ ds, ∃ p, store.body? (left d) = .ok (some p) ∧
    p.Normal ⟨fun r => ∃ d ∈ ds, left d = r, fun _ => False, fun _ => False⟩ ∧
    ∀ (e : Env) (rule : Text → Meaning), e.Inside → (∀ d ∈ ds, e.call (left d) = rule d.name.text) →
      (∀ d ∈ ds, Meaning.Keeps (rule d.name.text)) → p.denote e = d.body.denote e rule

structure Realizes (store : Store) (inline : Store → Nat → Option Pattern) (ds : List Declaration)
    (right : Declaration → Nat) (b : Bench) : Prop where
  inlines : Inlines inline
  distinct : (ds.map fun d => d.name.text).Nodup
  start : b.names = [] ∧ b.skip = .empty
  bodies : ∀ r p, (after inline ds b).bodyOf r = some p → store.body? r = .ok (some p)
  declared : ∀ n ∈ (after inline ds b).names, ∃ d ∈ ds, n.1 = d.name.text
  named : ∀ d ∈ ds, (d.name.text, right d) ∈ (after inline ds b).names

section

variable {inline : Store → Nat → Option Pattern} {ds : List Declaration}
  {left right : Declaration → Nat} {b : Bench}

theorem spoken_eq (h : (ds.map fun d => d.name.text).Nodup) (M : Declaration → Meaning)
    {d : Declaration} (hd : d ∈ ds) : spoken ds M d.name.text = M d := by
  simp only [spoken, find?_eq h hd]

theorem call_eq_body {scene : Scene} {r : Nat} {p : Pattern}
    (h : scene.store.body? r = .ok (some p)) : (scene.env scene.body).call r = scene.body r := by
  simp only [Scene.env, h]

theorem Realizes.neat_start (h : Realizes scene'.store inline ds right b) : b.Neat := by
  constructor <;> simp [h.start.1]

theorem Realizes.neat (h : Realizes scene'.store inline ds right b) : (after inline ds b).Neat :=
  (neat_after h.inlines ds h.neat_start).1

theorem Realizes.fair (h : Realizes scene'.store inline ds right b) (e : Env)
    (rule : Text → Meaning) (names : List (Text × Nat)) : Fair e rule names b :=
  ⟨h.neat_start, h.start.2, by simp [h.start.1]⟩

theorem Realizes.mem (h : Realizes scene'.store inline ds right b) {n : Text × Nat}
    (hn : n ∈ (after inline ds b).names) : ∃ d ∈ ds, n = (d.name.text, right d) := by
  obtain ⟨d, hd, hname⟩ := h.declared n hn
  obtain ⟨name, r⟩ := n
  obtain rfl : name = d.name.text := hname
  exact ⟨d, hd, by rw [rule_unique h.neat hn (h.named d hd)]⟩

theorem Realizes.nodup (h : Realizes scene'.store inline ds right b) : (ds.map right).Nodup := by
  refine List.Nodup.map_on (fun d hd d' hd' heq => ?_) h.distinct.of_map
  have hnamed := h.named d' hd'
  rw [← heq] at hnamed
  exact List.inj_on_of_nodup_map h.distinct hd hd' (name_unique h.neat (h.named d hd) hnamed)

theorem Realizes.first {d : Declaration} (h : Realizes scene'.store inline (d :: ds) right b) :
    (d.build inline b).1.2 = right d := by
  obtain ⟨p, hd⟩ := declares h.inlines d h.neat_start
  refine rule_unique h.neat ?_ (h.named d (by simp))
  rw [after_cons]
  exact (neat_after h.inlines ds hd.neat).2 hd.named

theorem Speaks.keeps (h : Speaks scene.store ds left) {d : Declaration} (hd : d ∈ ds) :
    Meaning.Keeps (scene.body (left d)) := by
  refine keeps_body (P := fun r => ∃ d ∈ ds, left d = r) ?_ ⟨d, hd, rfl⟩
  rintro _ ⟨d, hd, rfl⟩
  obtain ⟨p, hp, hnormal, -⟩ := h.body d hd
  exact ⟨p, hp, hnormal⟩

/-- What is built means the rules that the declarations say, given that it calls those. -/
theorem Realizes.means_left (h : Realizes scene'.store inline ds right b)
    (hl : Speaks scene.store ds left) (hs : scene'.subject = scene.subject)
    (ho : scene'.origin = scene.origin) {d : Declaration} (hd : d ∈ ds) :
    ∃ p, scene'.store.body? (right d) = .ok (some p) ∧ p.Normal (called (after inline ds b).names) ∧
      p.denote (calling (scene'.env scene'.body) ds right fun d => scene.body (left d)) =
      scene.body (left d) := by
  have hrule {d : Declaration} (hd : d ∈ ds) :=
    spoken_eq h.distinct (fun d => scene.body (left d)) hd
  have interprets : Interprets (scene.env scene.body)
      (calling (scene'.env scene'.body) ds right fun d => scene.body (left d))
      (spoken ds fun d => scene.body (left d)) (after inline ds b).names := by
    refine ⟨hs, ho, inside_calling (inside_scene scene') fun d _ => ?_, fun n hn => ?_,
      fun n hn => ?_⟩
    · have := scene.inside_body (left d)
      rw [← hs] at this
      exact this
    · obtain ⟨d, hd, rfl⟩ := h.mem hn
      rw [call_calling _ _ h.nodup hd, hrule hd]
    · obtain ⟨d, hd, rfl⟩ := h.mem hn
      rw [hrule hd]
      exact hl.keeps hd
  have hdecl (d : Declaration) (hd : d ∈ ds) : d.body.denote (scene.env scene.body)
      (spoken ds fun d => scene.body (left d)) = scene.body (left d) := by
    obtain ⟨p, hp, -, hmeans⟩ := hl.body d hd
    rw [Scene.body_eq_meaning hp]
    refine (hmeans _ _ (inside_scene scene) (fun d hd => ?_) fun d hd => ?_).symm
    · obtain ⟨q, hq, -⟩ := hl.body d hd
      rw [call_eq_body hq, hrule hd]
    · rw [hrule hd]
      exact hl.keeps hd
  obtain ⟨r, p, hr, hp, hmeans⟩ :=
    fair_after interprets h.inlines ds h.distinct hl.plain (h.fair _ _ _) (List.Subset.refl _)
      (fun d hd r p _ _ hsame => by rw [hsame, hdecl d hd, hrule hd]) d hd
  rw [rule_unique h.neat hr (h.named d hd)] at hp
  exact ⟨p, h.bodies _ p hp, hmeans.normal, hmeans.same.trans (hdecl d hd)⟩

theorem Realizes.keeps (h : Realizes scene'.store inline ds right b)
    (hl : Speaks scene.store ds left) (hs : scene'.subject = scene.subject)
    (ho : scene'.origin = scene.origin) {d : Declaration} (hd : d ∈ ds) :
    Meaning.Keeps (scene'.body (right d)) := by
  refine keeps_body (P := fun r => r ∈ (after inline ds b).names.map Prod.snd) ?_
    (List.mem_map.2 ⟨_, h.named d hd, rfl⟩)
  intro r hr
  obtain ⟨n, hn, rfl⟩ := List.mem_map.1 hr
  obtain ⟨d, hd, rfl⟩ := h.mem hn
  obtain ⟨p, hp, hnormal, -⟩ := h.means_left hl hs ho hd
  exact ⟨p, hp, hnormal⟩

/-- What the declarations say means the rules that are built, given that it calls those. -/
theorem Realizes.means_right (h : Realizes scene'.store inline ds right b)
    (hl : Speaks scene.store ds left) (hs : scene'.subject = scene.subject)
    (ho : scene'.origin = scene.origin) {d : Declaration} (hd : d ∈ ds) :
    ∃ p, scene.store.body? (left d) = .ok (some p) ∧
      p.denote (calling (scene.env scene.body) ds left fun d => scene'.body (right d)) =
      scene'.body (right d) := by
  have hrule {d : Declaration} (hd : d ∈ ds) :=
    spoken_eq h.distinct (fun d => scene'.body (right d)) hd
  have inside : (calling (scene.env scene.body) ds left fun d => scene'.body (right d)).Inside := by
    refine inside_calling (inside_scene scene) fun d _ => ?_
    have := scene'.inside_body (right d)
    rw [hs] at this
    exact this
  have interprets :
      Interprets (calling (scene.env scene.body) ds left fun d => scene'.body (right d))
        (scene'.env scene'.body) (spoken ds fun d => scene'.body (right d))
        (after inline ds b).names := by
    refine ⟨hs, ho, inside_scene scene', fun n hn => ?_, fun n hn => ?_⟩
    · obtain ⟨d, hd, rfl⟩ := h.mem hn
      obtain ⟨p, hp, -⟩ := h.means_left hl hs ho hd
      rw [call_eq_body hp, hrule hd]
    · obtain ⟨d, hd, rfl⟩ := h.mem hn
      rw [hrule hd]
      exact h.keeps hl hs ho hd
  have hbuilt (d : Declaration) (hd : d ∈ ds) (r : Nat) (p : Pattern)
      (hr : (d.name.text, r) ∈ (after inline ds b).names)
      (hp : (after inline ds b).bodyOf r = some p) :
      p.denote (scene'.env scene'.body) = scene'.body (right d) := by
    rw [rule_unique h.neat hr (h.named d hd)] at hp
    exact (Scene.body_eq_meaning (h.bodies _ p hp)).symm
  obtain ⟨r, p, hr, hp, hmeans⟩ :=
    fair_after interprets h.inlines ds h.distinct hl.plain (h.fair _ _ _) (List.Subset.refl _)
      (fun d hd r p hr hp _ => by rw [hbuilt d hd r p hr hp, hrule hd]) d hd
  obtain ⟨q, hq, -, hword⟩ := hl.body d hd
  refine ⟨q, hq, ?_⟩
  rw [hword _ (spoken ds fun d => scene'.body (right d)) inside
    (fun d hd => ?_) fun d hd => ?_, ← hmeans.same]
  · exact hbuilt d hd r p hr hp
  · rw [call_calling _ _ hl.rules hd, hrule hd]
  · rw [hrule hd]
    exact h.keeps hl hs ho hd

/-- Rules that are built from declarations mean what other rules do that mean what the declarations
say. -/
theorem Realizes.body_eq (h : Realizes scene'.store inline ds right b)
    (hl : Speaks scene.store ds left) (hs : scene'.subject = scene.subject)
    (ho : scene'.origin = scene.origin) {d : Declaration} (hd : d ∈ ds) :
    scene.body (left d) = scene'.body (right d) := by
  -- Each side solves the equations of the other, and both are least solutions.
  refine Below.antisymm (body_below (fun d hd => h.means_right hl hs ho hd) hd)
    (body_below (fun d hd => ?_) hd)
  obtain ⟨p, hp, -, hmeans⟩ := h.means_left hl hs ho hd
  exact ⟨p, hp, hmeans⟩

end

end Matching

end PegMatch

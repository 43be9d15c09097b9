import PegMatch.Proofs.Equivalence
import PegMatch.Proofs.Lockstep

set_option autoImplicit false

/-! Inlining against matching. Two readings of one text with different limits of inlining fail alike
or both succeed, with the same captures and the same unused rules. The patterns match alike if both
limits inline small rules or neither does, or if no rule is empty. Otherwise a call of an empty rule
vanishes from one tree alone, and a repetition around it may lose its inner repetition. -/

namespace PegMatch.Grammar

variable {first : Nat} {n m : Int} {s t s' t' : State} {p q : Pattern} {α β γ δ : Type}
  {src : Source}

/-- The two readers fail alike, or both succeed with matching states and results that are as
told. -/
def Beside (first : Nat) (n m : Int) (x : Reader α) (y : Reader β) (s t : State)
    (R : α → State → β → State → Prop) : Prop :=
  Matched first n m s t →
    match x s, y t with
    | .ok a s', .ok b t' => Matched first n m s' t' ∧ R a s' b t'
    | .error e _, .error e' _ => e = e'
    | _, _ => False

theorem InStep.beside {x : Reader α} {y : Reader β} {R : α → State → β → State → Prop}
    (h : InStep first n m x y s t R) :
    Beside first n m x y s t fun a s' b t' => Grows s s' ∧ Grows t t' ∧ R a s' b t' := by
  intro hm
  have := h hm
  cases hx : x s <;> cases hy : y t <;> simp_all

theorem beside_failAt {rest : Text} {mistake : Mistake} {R : α → State → β → State → Prop} :
    Beside first n m (failAt (src.inlining n) rest mistake)
      (failAt (src.inlining m) rest mistake) s t R :=
  fun _ => rfl

theorem beside_fail {mistake : Mistake} {R : α → State → β → State → Prop} :
    Beside first n m (fail (src.inlining n) mistake) (fail (src.inlining m) mistake) s t R := by
  intro hm
  rw [fail_eq, fail_eq, hm.rest]
  rfl

theorem beside_bind {x : Reader α} {y : Reader β} {g : α → Reader γ} {k : β → Reader δ}
    {R : α → State → β → State → Prop} {Q : γ → State → δ → State → Prop}
    (hx : Beside first n m x y s t R)
    (hf : ∀ a s' b t', Matched first n m s' t' → R a s' b t' →
      Beside first n m (g a) (k b) s' t' Q) : Beside first n m (x >>= g) (y >>= k) s t Q := by
  intro hm
  have h := hx hm
  simp only [bind, EStateM.bind]
  cases hxs : x s with
  | error e s' => cases hyt : y t <;> simp_all
  | ok a s' =>
    cases hyt : y t with
    | error e' t' => simp [hxs, hyt] at h
    | ok b t' =>
      simp only [hxs, hyt] at h ⊢
      exact hf a s' b t' h.1 h.2 h.1

theorem beside_pure {a : α} {b : β} {R : α → State → β → State → Prop}
    (h : Matched first n m s t → R a s b t) : Beside first n m (pure a) (pure b) s t R :=
  fun hm => ⟨hm, h hm⟩

def declaring (place : Position) (body : Pattern) (rule : Rule) : Rule :=
  { rule with place := place, declared := true, body := some body }

theorem bodyOf_declaring (s : State) (r : Nat) (place : Position) (p : Pattern) (r' : Nat) :
    bodyOf (s.changing r (declaring place p)) r' =
      if r = r' then s.store.rules[r']?.map fun _ => p else bodyOf s r' := by
  rw [bodyOf, getElem?_changing]
  split
  · cases s.store.rules[r']? <;> rfl
  · rfl

theorem later_declaring (s : State) {r : Nat} (place : Position) (p : Pattern)
    (h : bodyOf s r = none) : Later s (s.changing r (declaring place p)) := by
  refine ⟨Nat.le_refl _, fun _ _ => rfl, fun r' q hq => ?_⟩
  have hne : r ≠ r' := by
    rintro rfl
    simp [h] at hq
  rwa [bodyOf_declaring, if_neg hne]

theorem Matched.declaring (hm : Matched first n m s t) {r : Nat} (place : Position)
    (hs : bodyOf s r = none) (h : Like first n m s t p q) :
    Matched first n m (s.changing r (declaring place p)) (t.changing r (declaring place q)) := by
  have ht : bodyOf t r = none := by
    have := isSome_bodyOf t r
    rw [← hm.heads, ← isSome_bodyOf, hs] at this
    simpa using this
  have later := later_declaring s place p hs
  have later' := later_declaring t place q ht
  refine ⟨hm.rest, hm.names, hm.inGrammar, hm.opened, ?_, ?_, fun r' => ?_, hm.log, hm.numbers,
    fun r' rule hr' hrule => ?_, fun r' p' q' hr' hp' hq' => ?_, hm.skip.later later later'⟩
  · simpa [State.changing, Store.modifyRule] using hm.size
  · simpa [State.changing, Store.modifyRule] using hm.known
  · have comm (o : Option Rule) (p : Pattern) : (o.map (Grammar.declaring place p)).map head =
        (o.map head).map (Grammar.declaring place .empty) := by
      cases o <;> rfl
    rw [getElem?_changing, getElem?_changing]
    split
    · rw [comm, comm, hm.heads]
    · exact hm.heads r'
  · rw [getElem?_changing] at hrule
    split at hrule
    · obtain ⟨old, hold, rfl⟩ := Option.map_eq_some_iff.1 hrule
      exact ⟨(hm.rules r' old hr' hold).1, fun _ => rfl⟩
    · exact hm.rules r' rule hr' hrule
  · rw [bodyOf_declaring] at hp' hq'
    by_cases he : r = r'
    · rw [if_pos he] at hp' hq'
      obtain ⟨_, _, rfl⟩ := Option.map_eq_some_iff.1 hp'
      obtain ⟨_, _, rfl⟩ := Option.map_eq_some_iff.1 hq'
      exact h.later later later'
    · rw [if_neg he] at hp' hq'
      exact (hm.bodies r' p' q' hr' hp' hq').later later later'

theorem beside_declare {r : Nat} {place : Position} (hs : bodyOf s r = none)
    (h : Like first n m s t p q) :
    Beside first n m (declare r place p) (declare r place q) s t fun _ _ _ _ => True :=
  fun hm => ⟨hm.declaring place hs h, trivial⟩

theorem Matched.declared (hm : Matched first n m s t) (r : Nat) :
    s.store.rules[r]?.map Rule.declared = t.store.rules[r]?.map Rule.declared := by
  have := congrArg (Option.map Rule.declared) (hm.heads r)
  rwa [Option.map_map, Option.map_map] at this

theorem Matched.bodiless (hm : Matched first n m s t) {r : Nat} (hr : first ≤ r)
    (hd : ¬ (s.store.rules[r]?.map Rule.declared).getD false = true) : bodyOf s r = none := by
  cases hrule : s.store.rules[r]? with
  | none => simp [bodyOf, hrule]
  | some rule =>
    have hdeclared := (hm.rules r rule hr hrule).2
    cases hb : rule.body with
    | none => simp [bodyOf, hrule, hb]
    | some p => simp [hrule, hdeclared (by simp [hb])] at hd

theorem beside_rules (room : Nat) :
    Beside first n m (rules (src.inlining n) room) (rules (src.inlining m) room) s t
      fun ds _ ds' _ => ds.map Prod.snd = ds'.map Prod.snd ∧ ∀ d ∈ ds, first ≤ d.2 := by
  induction room generalizing s t with
  | zero => exact beside_pure fun _ => ⟨rfl, by simp⟩
  | succ room ih =>
    refine beside_bind inStep_ahead.beside fun a s₁ b t₁ _ h => ?_
    obtain ⟨-, -, rfl⟩ := h
    cases a with
    | nil => exact beside_pure fun _ => ⟨rfl, by simp⟩
    | cons c rest =>
      simp only
      cases Token.header? (c :: rest) with
      | none => exact beside_fail
      | some found =>
        obtain ⟨name, rest'⟩ := found
        refine beside_bind inStep_ruleNamed.beside fun r s₂ r' t₂ hm₂ h => ?_
        obtain ⟨-, -, rfl, hr, -⟩ := h
        refine beside_bind (inStep_get (R := fun a s' b t' => a = s₂ ∧ s' = s₂ ∧ b = t₂ ∧ t' = t₂)
          fun _ => ⟨rfl, rfl, rfl, rfl⟩).beside fun a s₃ b t₃ hm₃ h => ?_
        obtain ⟨-, -, rfl, rfl, rfl, rfl⟩ := h
        rw [← hm₃.declared]
        split
        · exact beside_failAt
        · next hd =>
          refine beside_bind (inStep_setPlace r (src.place (c :: rest))).beside
            fun _ s₄ _ t₄ _ h₄ => ?_
          refine beside_bind (inStep_advance rest').beside fun _ s₅ _ t₅ _ h₅ => ?_
          refine beside_bind ((readsInStep src first n m (fuel rest')).expression s₅ t₅).beside
            fun p s₆ q t₆ hm₆ h₆ => ?_
          have hnone : bodyOf s₆ r = none := by
            rw [h₆.1.bodies, h₅.1.bodies, h₄.1.bodies]
            exact hm₃.bodiless hr hd
          refine beside_bind (beside_declare hnone h₆.2.2) fun _ s₇ _ t₇ _ _ => ?_
          refine beside_bind inStep_freshId.beside fun i s₈ j t₈ _ _ => ?_
          refine beside_bind ih fun ds s₉ ds' t₉ _ h => beside_pure fun _ => ?_
          exact ⟨by simp [h.1], List.forall_mem_cons.2 ⟨hr, h.2⟩⟩

/-- A rule that both readings know has the same name, the same place and the same marks in both. -/
theorem Matched.rule (hm : Matched first n m s t) (r : Nat) :
    (s.store.rules[r]? = none ∧ t.store.rules[r]? = none) ∨ ∃ a b, s.store.rules[r]? = some a ∧
      t.store.rules[r]? = some b ∧ a.name = b.name ∧ a.place = b.place ∧ a.declared = b.declared ∧
      a.used = b.used := by
  have h := hm.heads r
  cases hs : s.store.rules[r]? with
  | none => exact .inl ⟨rfl, by simpa [hs] using h.symm⟩
  | some a =>
    rw [hs] at h
    obtain ⟨b, hb, he⟩ := Option.map_eq_some_iff.1 h.symm
    simp only [head, Rule.mk.injEq] at he
    exact .inr ⟨a, b, rfl, hb, he.1.symm, he.2.2.1.symm, he.2.2.2.1.symm, he.2.2.2.2.1.symm⟩

theorem Matched.checkDeclared (hm : Matched first n m s t) (names : List (Text × Nat)) :
    checkDeclared (src.inlining n) s.store names =
      checkDeclared (src.inlining m) t.store names := by
  induction names with
  | nil => rfl
  | cons d names ih =>
    obtain ⟨name, r⟩ := d
    simp only [Grammar.checkDeclared, ih]
    rcases hm.rule r with ⟨hs, ht⟩ | ⟨a, b, hs, ht, hname, hplace, hdeclared, -⟩
    · rw [hs, ht]
    · simp only [hs, ht, hname, hplace, hdeclared, Source.inlining]

theorem Matched.unused (hm : Matched first n m s t) {ds ds' : List (Nat × Nat)}
    (h : ds.map Prod.snd = ds'.map Prod.snd) :
    unused (src.inlining n) s.store ds = unused (src.inlining m) t.store ds' := by
  induction ds generalizing ds' with
  | nil =>
    cases ds' with
    | nil => rfl
    | cons d' ds' => simp at h
  | cons d ds ih =>
    cases ds' with
    | nil => simp at h
    | cons d' ds' =>
      simp only [List.map_cons, List.cons.injEq] at h
      have ih := ih h.2
      simp only [Grammar.unused] at ih ⊢
      rw [List.filterMap_cons, List.filterMap_cons, ih, h.1]
      rcases hm.rule d'.2 with ⟨hs, ht⟩ | ⟨a, b, hs, ht, hname, hplace, -, hused⟩
      · rw [hs, ht]
      · simp only [hs, ht, hname, hplace, hused, Source.inlining]

/-- What two readings lead to: alike expressions, or grammars of the same rules. -/
inductive Roots (first : Nat) (n m : Int) (s t : State) : Pattern → Pattern → Prop where
  | single {p q : Pattern} (h : Like first n m s t p q) : Roots first n m s t p q
  | grammar {i j : Nat} {d d' : Nat × Nat} {ds ds' : List (Nat × Nat)} (start : d.2 = d'.2)
      (known : first ≤ d.2) :
      Roots first n m s t (.grammar i d ds) (.grammar j d' ds')

theorem Roots.grows (h : Roots first n m s t p q) (gs : Grows s s') (gt : Grows t t') :
    Roots first n m s' t' p q := by
  cases h with
  | single h => exact .single (h.grows gs gt)
  | grammar start known => exact .grammar start known

theorem warnings_append (log log' : List Notice) :
    warnings (log ++ log') = warnings log ++ warnings log' :=
  List.filter_append ..

theorem beside_grammar :
    Beside first n m (grammar (src.inlining n)) (grammar (src.inlining m)) s t
      fun p s' q t' => Roots first n m s' t' p q := by
  refine beside_bind (beside_rules _) fun ds s₁ ds' t₁ hm h => ?_
  refine beside_bind (inStep_get (R := fun a s' b t' => a = s₁ ∧ s' = s₁ ∧ b = t₁ ∧ t' = t₁)
    fun _ => ⟨rfl, rfl, rfl, rfl⟩).beside fun a s₂ b t₂ _ h' => ?_
  obtain ⟨-, -, rfl, rfl, rfl, rfl⟩ := h'
  rw [hm.names, hm.checkDeclared]
  cases checkDeclared (src.inlining m) t₂.store t₂.names with
  | error e => exact fun _ => rfl
  | ok =>
    cases ds with
    | nil =>
      cases ds' with
      | nil => exact beside_pure fun _ => .single (like_leaf (fun _ => .leaf trivial rfl)
          (fun _ => .leaf trivial rfl) (fun _ _ _ => rfl) .rfl)
      | cons d' ds' => simp at h
    | cons d ds =>
      cases ds' with
      | nil => simp at h
      | cons d' ds' =>
        obtain ⟨h, known⟩ := h
        simp only [List.map_cons, List.cons.injEq] at h
        refine beside_bind (inStep_modify (R := fun _ _ _ _ => True) (fun hm => ?_)
          fun _ => trivial).beside fun _ s₃ _ t₃ _ _ => ?_
        · refine hm.grow (.of_store rfl) (.of_store rfl) ⟨rfl, rfl, rfl, rfl⟩
            ⟨rfl, rfl, rfl, rfl⟩ hm.rest hm.opened ?_
          rw [warnings_append, warnings_append, hm.unused h.2, hm.log]
        · refine beside_bind inStep_freshId.beside fun i s₄ j t₄ _ _ => beside_pure fun _ => ?_
          exact .grammar h.1 (known d (by simp))

theorem beside_finish (h : Roots first n m s t p q) :
    Beside first n m (finish (src.inlining n) p) (finish (src.inlining m) q) s t
      fun p s' q t' => Roots first n m s' t' p q ∧ s'.store.count? p = t'.store.count? q := by
  refine beside_bind inStep_ahead.beside fun a s₁ b t₁ hm h₁ => ?_
  obtain ⟨gs, gt, rfl⟩ := h₁
  have h := h.grows gs gt
  cases a with
  | nil =>
    have grow (c : State) (p : Pattern) : Grows c { c with store := c.store.setCount p c.opened } :=
      ⟨Nat.le_refl _, fun _ _ => rfl, fun _ => rfl⟩
    intro hm
    obtain ⟨hm', gs, gt⟩ :=
      hm.grow (grow s₁ p) (grow t₁ q) ⟨rfl, rfl, rfl, rfl⟩
        ⟨rfl, rfl, rfl, rfl⟩ hm.rest hm.opened hm.log
    refine ⟨hm', h.grows gs gt, ?_⟩
    simp [Store.count?, Store.setCount, hm.opened]
  | cons c rest =>
    simp only
    split
    · exact beside_fail
    · exact beside_fail

theorem matched_start (n m : Int) (text : Text) (store : Store) :
    Matched store.rules.size n m { rest := text, store := store }
      { rest := text, store := store } := by
  refine ⟨rfl, rfl, rfl, rfl, rfl, Nat.le_refl _, fun _ => rfl,
    rfl, by simp, fun r rule hr hrule => ?_, fun r p q hr hp _ => ?_, ?_⟩
  · obtain ⟨hlt, -⟩ := Array.getElem?_eq_some_iff.1 hrule
    exact absurd hlt (Nat.not_lt.2 hr)
  · simp [bodyOf, Array.getElem?_eq_none hr] at hp
  · exact like_leaf (fun _ => .leaf trivial rfl) (fun _ => .leaf trivial rfl)
      (fun _ _ _ => rfl) .rfl

theorem beside_whole (src : Source) :
    Beside first n m (whole (src.inlining n)) (whole (src.inlining m)) s t
      fun p s' q t' => Roots first n m s' t' p q ∧ s'.store.count? p = t'.store.count? q := by
  rw [whole_eq, whole_eq]
  refine beside_bind inStep_ahead.beside fun a s₁ b t₁ _ h => ?_
  obtain ⟨-, -, rfl⟩ := h
  split
  · refine beside_bind (R := fun _ _ _ _ => True) (fun hm => ⟨?_, trivial⟩) fun _ s₂ _ t₂ _ _ => ?_
    · exact ⟨hm.rest, hm.names, rfl, hm.opened, hm.size, hm.known, hm.heads, hm.log, hm.numbers,
        hm.rules, fun r p q hr hp hq => (hm.bodies r p q hr hp hq).grows (.of_store rfl)
          (.of_store rfl), hm.skip.grows (.of_store rfl) (.of_store rfl)⟩
    · exact beside_bind beside_grammar fun p s₃ q t₃ _ h => beside_finish h
  · exact beside_bind ((readsInStep src first n m _).expression s₁ t₁).beside fun p s₂ q t₂ _ h =>
      beside_finish (.single h.2.2)

/-- Two readings of one text fail alike, or both succeed with as many captures, the same warnings
and alike trees. -/
theorem parse_inlining (n m : Int) (src : Source) (store : Store) :
    match parse (src.inlining n) store, parse (src.inlining m) store with
    | (.error e, _, _), (.error e', _, _) => e = e'
    | (.ok p, store₁, log), (.ok q, store₂, log') =>
      store₁.count? p = store₂.count? q ∧ warnings log = warnings log' ∧
        ∃ s t, s.store = store₁ ∧ t.store = store₂ ∧ Matched store.rules.size n m s t ∧
          Roots store.rules.size n m s t p q
    | _, _ => False := by
  have h := beside_whole src (matched_start n m src.text store)
  have reverse (log : List Notice) : warnings log.reverse = (warnings log).reverse :=
    (List.filter_reverse ..)
  simp only [parse, EStateM.run]
  simp only [Source.inlining] at h ⊢
  cases hx : whole { src with inline := .int n } { rest := src.text, store := store } with
  | error e s =>
    cases hy : whole { src with inline := .int m } { rest := src.text, store := store } with
    | error e' t => simpa [hx, hy] using h
    | ok q t => simp [hx, hy] at h
  | ok p s =>
    cases hy : whole { src with inline := .int m } { rest := src.text, store := store } with
    | error e' t => simp [hx, hy] at h
    | ok q t =>
      simp only [hx, hy] at h ⊢
      obtain ⟨hm, hroots, hcount⟩ := h
      exact ⟨hcount, by rw [reverse, reverse, hm.log], s, t, rfl, rfl, hm, hroots⟩

end PegMatch.Grammar

namespace PegMatch.Matching

open Grammar

variable {first : Nat} {n m : Int} {s t : Grammar.State} {p q : Pattern} {scene scene' : Scene}

/-- The scene in which calls of the rules from the given one on lead to those of another scene. -/
noncomputable def Scene.borrowing (scene scene' : Scene) (first : Nat) : Env :=
  { scene.env scene.body with
    call := fun r =>
      if first ≤ r then (scene'.env scene'.body).call r else (scene.env scene.body).call r }

theorem inside_scene (scene : Scene) : (scene.env scene.body).Inside :=
  ⟨(Scene.inside_env scene.inside_body).1, (Scene.inside_env scene.inside_body).2⟩

structure Staged (s t : Grammar.State) (scene scene' : Scene) : Prop where
  left : scene.store = s.store
  right : scene'.store = t.store
  subject : scene.subject = scene'.subject
  origin : scene.origin = scene'.origin

theorem body?_of_bodyOf {r : Nat} (h : bodyOf t r = some q) : t.store.body? r = .ok (some q) := by
  obtain ⟨rule, hrule, hbody⟩ := Option.bind_eq_some_iff.1 h
  simp [Store.body?, Store.rule, hrule, hbody]

theorem Staged.views {e : Env} (h : Staged s t scene scene') (hu : ¬ Spoilt first n m s t)
    (twin : e.Twin (scene'.env scene'.body)) (slot : e.slot = scene.store.slot?)
    (call : ∀ r, first ≤ r → e.call r = (scene'.env scene'.body).call r) :
    Views first n m s t e (scene'.env scene'.body) where
  unspoilt := hu
  twin := twin
  call := call
  left id _ := by rw [slot, h.left]
  right id _ := by simp only [Scene.env, h.right]
  body r q _ hq := by
    have hbody : scene'.store.body? r = .ok (some q) := h.right ▸ body?_of_bodyOf hq
    simp only [Scene.env, hbody]
    exact Scene.body_eq_meaning hbody

theorem Staged.borrowing (h : Staged s t scene scene') (hu : ¬ Spoilt first n m s t) :
    Views first n m s t (scene.borrowing scene' first) (scene'.env scene'.body) := by
  refine h.views hu ⟨h.subject, h.origin, ⟨fun r => ?_, (inside_scene scene).rule⟩,
    inside_scene scene'⟩ rfl fun r hr => ?_
  · have hr := (inside_scene scene').call r
    rw [show (scene'.env scene'.body).subject = scene.subject from h.subject.symm] at hr
    simp only [Scene.borrowing]
    split
    · exact hr
    · exact (inside_scene scene).call r
  · simp [Scene.borrowing, hr]

theorem Staged.call_of_none (h : Staged s t scene scene') (hm : Matched first n m s t) {r : Nat}
    (hs : s.store.body? r = .ok none) (ht : t.store.body? r = .ok none) (f g : Nat → Meaning) :
    (scene.env f).call r = (scene'.env g).call r := by
  have hname : (s.store.rule r).name = (t.store.rule r).name := by
    simp only [Store.rule]
    rcases hm.rule r with ⟨hs, ht⟩ | ⟨a, b, hs, ht, hname, -⟩
    · rw [hs, ht]
    · simpa [hs, ht] using hname
  simp only [Scene.env, h.left, h.right, hs, ht, hname]

/-- Every answer of a rule in the first scene is one in the second, where rules are alike. -/
theorem Staged.body_below (h : Staged s t scene scene') (hm : Matched first n m s t)
    (hu : ¬ Spoilt first n m s t) {r : Nat} (hr : first ≤ r) :
    Meaning.Below (scene.body r) (scene'.body r) := by
  intro i u a ha
  refine (scene.body_induction (fun r i u a => scene.body r i u = some a ∧
    (first ≤ r → scene'.body r i u = some a)) ?_ ha).2 hr
  intro body ih r p i u a hp ha
  have below (r : Nat) : Meaning.Below (body r) (scene.body r) := fun i u a h => (ih r i u a h).1
  refine ⟨?_, fun hr => ?_⟩
  · rw [Scene.body_eq_meaning hp]
    exact p.denote_below (scene.env_below below) i u a ha
  · rw [h.left] at hp
    rcases hm.body hr with ⟨hs, -⟩ | ⟨p', q, hs, ht, -, -, hlike⟩
    · cases hp.symm.trans hs
    · cases hp.symm.trans hs
      have same := (hlike.alike _ _ (h.borrowing hu)).shape.same
      rw [← h.right] at ht
      rw [Scene.body_eq_meaning ht, Scene.meaning, ← same]
      have hbelow : (scene.env body).Below (scene.borrowing scene' first) := by
        refine ⟨rfl, rfl, rfl, fun r' => ?_, (scene.env_below below).rule⟩
        simp only [Scene.borrowing]
        split
        · next hr' =>
          rcases hm.body hr' with ⟨hs, ht⟩ | ⟨p', q', hs, ht, -⟩
          · rw [h.call_of_none hm hs ht body scene'.body]
            exact .refl _
          · simp only [Scene.env, h.left, h.right, hs, ht]
            exact fun i u a h => (ih r' i u a h).2 hr'
        · exact (scene.env_below below).call r'
      exact p.denote_below hbelow i u a ha

theorem Staged.call_eq {s' t' : Grammar.State} (h : Staged s t scene scene')
    (h' : Staged t' s' scene' scene) (hm : Matched first n m s t) (hm' : Matched first m n t' s')
    (hu : ¬ Spoilt first n m s t) (hu' : ¬ Spoilt first m n t' s') {r : Nat} (hr : first ≤ r) :
    (scene.env scene.body).call r = (scene'.env scene'.body).call r := by
  rcases hm.body hr with ⟨hs, ht⟩ | ⟨p, q, hs, ht, -⟩
  · exact h.call_of_none hm hs ht _ _
  · simp only [Scene.env, h.left, h.right, hs, ht]
    exact (h.body_below hm hu hr).antisymm (h'.body_below hm' hu' hr)

theorem Staged.meaning_eq {s' t' : Grammar.State} (h : Staged s t scene scene')
    (h' : Staged t' s' scene' scene) (hm : Matched first n m s t) (hm' : Matched first m n t' s')
    (hu : ¬ Spoilt first n m s t) (hu' : ¬ Spoilt first m n t' s')
    (hroots : Roots first n m s t p q) : scene.meaning p = scene'.meaning q := by
  have call (r : Nat) (hr : first ≤ r) := h.call_eq h' hm hm' hu hu' hr
  cases hroots with
  | single hlike =>
    have twin : (scene.env scene.body).Twin (scene'.env scene'.body) :=
      ⟨h.subject, h.origin, inside_scene scene, inside_scene scene'⟩
    exact (hlike.alike _ _ (h.views hu twin rfl call)).shape.same
  | @grammar i j d d' ds ds' start known =>
    simp only [Scene.meaning, Pattern.denote, ← start]
    exact call d.2 known

/-- What reading a text tells before anything is matched: why it failed, or the number of captures
and the warnings of unused rules. -/
def report :
    Except ReadError Pattern × Store × List Notice → Except ReadError (Option Nat × List Notice)
  | (.ok p, store, log) => .ok (store.count? p, warnings log)
  | (.error e, _, _) => .error e

/-- If both readings succeed, their patterns are interchangeable. -/
def MatchAlike (x y : Except ReadError Pattern × Store × List Notice) : Prop :=
  ∀ p store log q store' log', x = (.ok p, store, log) → y = (.ok q, store', log') →
    Interchangeable store p store' q

/-- Among the rules from the given one on there is one that is empty. -/
def HasEmptyRule (first : Nat) (store : Store) : Prop :=
  ∃ r, first ≤ r ∧ store.body? r = .ok (some .empty)

theorem MatchAlike.symm {x y : Except ReadError Pattern × Store × List Notice}
    (h : MatchAlike x y) : MatchAlike y x :=
  fun p store log q store' log' hy hx => (h q store' log' p store log hx hy).symm

theorem MatchAlike.trans {x y z : Except ReadError Pattern × Store × List Notice}
    (h : MatchAlike x y) (h' : MatchAlike y z) (hr : report x = report y) : MatchAlike x z := by
  intro p store log r store'' log'' hx hz
  obtain ⟨result, store', log'⟩ := y
  cases result with
  | error e => simp [hx, report] at hr
  | ok q =>
    exact (h p store log q store' log' hx rfl).trans (h' q store' log' r store'' log'' rfl hz)

theorem report_inlining (n m : Int) (src : Source) (store : Store) :
    report (parse (src.inlining n) store) = report (parse (src.inlining m) store) := by
  have h := parse_inlining n m src store
  generalize parse (src.inlining n) store = x at h ⊢
  generalize parse (src.inlining m) store = y at h ⊢
  obtain ⟨x, store₁, log⟩ := x
  obtain ⟨y, store₂, log'⟩ := y
  cases x with
  | error e =>
    cases y with
    | error e' => exact congrArg Except.error h
    | ok q => exact h.elim
  | ok p =>
    cases y with
    | error e' => exact h.elim
    | ok q => simp only [report, h.1, h.2.1]

theorem hasEmptyRule_of_spoilt (h : Spoilt first n m s t) :
    ¬ (0 < n ↔ 0 < m) ∧ (HasEmptyRule first s.store ∨ HasEmptyRule first t.store) := by
  obtain ⟨hn, r, hr, hb | hb⟩ := h
  · exact ⟨hn, .inl ⟨r, hr, body?_of_bodyOf hb⟩⟩
  · exact ⟨hn, .inr ⟨r, hr, body?_of_bodyOf hb⟩⟩

/-- The patterns match alike if the limits do not differ in whether they inline anything, or if no
rule is empty. -/
theorem matchAlike_inlining (src : Source) (store : Store)
    (h : (0 < n ↔ 0 < m) ∨ (¬ HasEmptyRule store.rules.size (parse (src.inlining n) store).2.1 ∧
      ¬ HasEmptyRule store.rules.size (parse (src.inlining m) store).2.1)) :
    MatchAlike (parse (src.inlining n) store) (parse (src.inlining m) store) := by
  intro p store₁ log q store₂ log' hx hy
  have hp := parse_inlining n m src store
  have hq := parse_inlining m n src store
  rw [hx, hy] at hp h
  rw [hx, hy] at hq
  obtain ⟨-, -, s, t, rfl, rfl, hm, hroots⟩ := hp
  obtain ⟨-, -, t', s', ht, hs, hm', -⟩ := hq
  have hu : ¬ Spoilt store.rules.size n m s t := by
    intro hspoilt
    obtain ⟨hn, hempty⟩ := hasEmptyRule_of_spoilt hspoilt
    rcases h with h | ⟨h₁, h₂⟩
    · exact hn h
    · exact hempty.elim h₁ h₂
  have hu' : ¬ Spoilt store.rules.size m n t' s' := by
    intro hspoilt
    obtain ⟨hn, hempty⟩ := hasEmptyRule_of_spoilt hspoilt
    rw [ht, hs] at hempty
    rcases h with h | ⟨h₁, h₂⟩
    · exact hn h.symm
    · exact hempty.elim h₂ h₁
  refine interchangeable_iff.2 fun subject origin watch i u _ => ?_
  have staged : Staged s t ⟨subject, s.store, origin, watch⟩ ⟨subject, t.store, origin, watch⟩ :=
    ⟨rfl, rfl, rfl, rfl⟩
  have staged' : Staged t' s' ⟨subject, t.store, origin, watch⟩ ⟨subject, s.store, origin, watch⟩ :=
    ⟨ht.symm, hs.symm, rfl, rfl⟩
  rw [staged.meaning_eq staged' hm hm' hu hu' hroots]

/-- A grammar `S <- T`, `B <-`, `T <- ((\d / {$1 \s / &\s})* B)*`. Where the call of the empty rule
stays, the outer repetition goes on as long as the inner one gets further; where it is inlined, the
two are one repetition, which ends when a turn of it consumes nothing. -/
def nested : Source where
  text :=
    ['S', '<', '-', 'T', ' ', 'B', '<', '-', ' ', 'T', '<', '-', '(', '(', '\\', 'd', '/', '{', '$',
      '1', '\\', 's', '/', '&', '\\', 's', '}', ')', '*', 'B', ')', '*']
  file := "pattern"
  inline := .int 0
  capacity := .int 20

def nestedLength (limit : Int) : Option Nat :=
  match parse (nested.inlining limit) {} with
  | (.ok p, store, _) =>
    match attempt ⟨#['1', ' ', ' ', ' '], store, 0, fun _ => {}⟩ 40 p 0
      { table := .ofCapacity 1 } with
    | .hit n _ => some n
    | _ => none
  | _ => none

theorem nestedLength_eq
    (h : MatchAlike (parse (nested.inlining n) {}) (parse (nested.inlining m) {})) {a b : Nat}
    (ha : nestedLength n = some a) (hb : nestedLength m = some b) : a = b := by
  unfold nestedLength at ha hb
  split at ha
  · next p store log hp =>
    split at hb
    · next q store' log' hq =>
      have same :=
        interchangeable_iff.1 (h p store log q store' log' hp hq) #['1', ' ', ' ', ' '] 0
          (fun _ => {}) 0 (Captures.ofCapacity 1).slots (Int.le_refl 0)
      split at ha
      · next k u hu =>
        split at hb
        · next k' v hv =>
          rw [meaning_of_hit (s := { table := .ofCapacity 1 }) (Int.le_refl 0) hu,
            meaning_of_hit (s := { table := .ofCapacity 1 }) (Int.le_refl 0) hv] at same
          cases ha
          cases hb
          exact (Answer.hit.inj (Option.some.inj same)).1
        · cases hb
      · cases ha
    · cases hb
  · cases ha

theorem nestedLength_one : nestedLength 1 = some 1 := by
  decide +kernel

theorem nestedLength_zero : nestedLength 0 = some 4 := by
  decide +kernel

theorem inlining_an_empty_rule :
    ¬ MatchAlike (parse (nested.inlining 5) {}) (parse (nested.inlining 0) {}) := by
  intro h
  have five : nestedLength 5 = some 1 := by decide +kernel
  exact absurd (nestedLength_eq h five nestedLength_zero) (by decide)

/-- Reading a text with another limit of inlining fails in the same way or gives as many captures
and the same warnings. Whatever the text, the two patterns match alike just if both limits inline
small rules or neither does. For limits that differ in that, they still do if no rule is empty. -/
theorem inlining_matches_alike_iff (n m : Int) :
    (∀ (src : Source) store,
      report (parse (src.inlining n) store) = report (parse (src.inlining m) store)) ∧
    ((∀ (src : Source) store,
      MatchAlike (parse (src.inlining n) store) (parse (src.inlining m) store)) ↔ (0 < n ↔ 0 < m)) ∧
    ∀ (src : Source) store,
      ¬ HasEmptyRule store.rules.size (parse (src.inlining n) store).2.1 →
      ¬ HasEmptyRule store.rules.size (parse (src.inlining m) store).2.1 →
      MatchAlike (parse (src.inlining n) store) (parse (src.inlining m) store) := by
  refine ⟨report_inlining n m,
    ⟨fun h => ?_, fun h src store => matchAlike_inlining src store (.inl h)⟩, fun src store h₁ h₂ =>
    matchAlike_inlining src store (.inr ⟨h₁, h₂⟩)⟩
  -- Both limits may be replaced by 1 and 0, for which the grammar above is read and matched.
  have apart {n m : Int} (hn : 0 < n) (hm : m ≤ 0)
      (h : MatchAlike (parse (nested.inlining n) {}) (parse (nested.inlining m) {})) : False := by
    have left : MatchAlike (parse (nested.inlining 1) {}) (parse (nested.inlining n) {}) :=
      matchAlike_inlining nested {} (.inl (by omega))
    have right : MatchAlike (parse (nested.inlining m) {}) (parse (nested.inlining 0) {}) :=
      matchAlike_inlining nested {} (.inl (by omega))
    have all := (left.trans h (report_inlining _ _ _ _)).trans right (report_inlining _ _ _ _)
    exact absurd (nestedLength_eq all nestedLength_one nestedLength_zero) (by decide)
  constructor
  · intro hn
    by_contra hm
    exact apart hn (by omega) (h nested {})
  · intro hm
    by_contra hn
    exact apart hm (by omega) (h nested {}).symm

end PegMatch.Matching

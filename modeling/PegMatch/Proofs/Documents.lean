import Mathlib.Data.List.Nodup
import PegMatch.Proofs.Parsing

set_option autoImplicit false

namespace PegMatch

namespace Store

theorem placeless_place (s : Store) (r : Nat) (place : Position) :
    (s.modifyRule r fun rule => { rule with place := place }).placeless = s.placeless := by
  simp only [placeless, modifyRule, mk.injEq, true_and, and_true]
  apply Array.ext_getElem?
  intro k
  simp only [Array.getElem?_map, Array.getElem?_modify]
  split
  · simp only [Option.map_map]
    rfl
  · rfl

theorem placeless_declare (s : Store) (r : Nat) (place : Position) (p : Pattern) :
    (s.modifyRule r fun rule =>
      { rule with place := place, declared := true, body := some p }).placeless =
      s.placeless.modifyRule r fun rule => { rule with declared := true, body := some p } :=
  s.placeless_modifyRule r fun _ => rfl

end Store

namespace Grammar

open Token

theorem Expression.starts (e : Expression) :
    ∀ l ∈ e.lexemes.head?, l.isStart ∨ l = .sign .slash := by
  cases e with
  | mk first others =>
    rw [Expression.lexemes]
    cases first with
    | cons x xs =>
      obtain ⟨l, ls, hx, hl⟩ := x.lexemes_eq_cons
      rw [itemLexemes, hx]
      rintro _ ⟨rfl⟩
      exact .inl hl
    | nil =>
      rw [itemLexemes]
      cases others with
      | nil => simp [otherLexemes]
      | cons xs others =>
        rw [otherLexemes]
        rintro _ ⟨rfl⟩
        exact .inr rfl

theorem bind_of_ok {α β : Type} {x : Reader α} {f : α → Reader β} {s s' : State} {a : α}
    (h : x s = .ok a s') : (x >>= f) s = f a s' := by
  simp only [Bind.bind, EStateM.bind, h]

def document (src : Source) : Reader Pattern := do
  let t ← ahead
  if (header? t).isSome then do
    modify fun s => { s with inGrammar := true }
    grammar src
  else expression src (fuel t)

theorem whole_eq_document (src : Source) : whole src = document src >>= finish src := by
  rw [whole_eq, document, bind_assoc]
  congr 1
  funext t
  split
  · rw [bind_assoc]
  · rfl

namespace Setting

variable {w : Setting} {s s' : State}

structure Done (w : Setting) (done : List Name) (s : State) : Prop where
  only : ∀ r, w.first ≤ r → Declared s r → ∃ n ∈ done, (n.text, r) ∈ s.names
  all : ∀ n ∈ done, ∃ r, (n.text, r) ∈ s.names ∧ Declared s r

theorem Done.step {done : List Name} (h : w.Done done s) (hs : w.Step s s') : w.Done done s' where
  only r hr hd := by
    obtain ⟨n, hn, hm⟩ := h.only r hr ((hs.grown.declared r).1 hd)
    exact ⟨n, hn, hs.names hm⟩
  all n hn := by
    obtain ⟨r, hm, hd⟩ := h.all n hn
    exact ⟨r, hs.names hm, (hs.grown.declared r).2 hd⟩

theorem mem_of_ruleNamed {src : Source} {name start : Text} {r : Nat}
    (h : ruleNamed src name start s = .ok r s') : (name, r) ∈ s'.names := by
  cases hl : s.names.lookup name with
  | some k =>
    rw [ruleNamed_known hl start] at h
    cases h
    obtain ⟨l₁, l₂, hsplit, -⟩ := List.lookup_eq_some_iff.1 hl
    simp [hsplit]
  | none =>
    rw [ruleNamed_new hl start] at h
    cases h
    simp [State.naming]

theorem Ready.name_unique (h : w.Ready s) {n n' : Text} {r : Nat} (hn : (n, r) ∈ s.names)
    (hn' : (n', r) ∈ s.names) : n = n' := by
  have hnodup : (s.names.map Prod.snd).Nodup := by
    rw [h.sound.names]
    exact List.nodup_range'
  exact congrArg Prod.fst (List.inj_on_of_nodup_map hnodup hn hn' rfl)

theorem Ready.rule_unique (h : w.Ready s) {n : Text} {r r' : Nat} (hr : (n, r) ∈ s.names)
    (hr' : (n, r') ∈ s.names) : r = r' :=
  congrArg Prod.snd (List.inj_on_of_nodup_map h.distinct hr hr' rfl)

theorem Done.fresh {done : List Name} (h : w.Done done s) (hs : w.Ready s) {n : Name}
    (hn : n ∉ done) {r : Nat} (hm : (n.text, r) ∈ s.names) (hr : w.first ≤ r) : ¬ Declared s r := by
  intro hd
  obtain ⟨n', hn', hm'⟩ := h.only r hr hd
  have htext := hs.name_unique hm hm'
  have : n = n' := by
    cases n
    cases n'
    cases htext
    rfl
  exact hn (this ▸ hn')

theorem Ready.declare (h : w.Ready s) {r : Nat} {p : Pattern} (place : Position)
    (hr : (s.allowed w.first).call r) (hp : Tree w.first p s) :
    w.Ready { s with store := s.store.modifyRule r fun rule =>
                       { rule with place := place, declared := true, body := some p } } :=
  ⟨(h.sound.declare place hr hp).1, h.inGrammar, h.distinct, h.named⟩

theorem Done.declare {done : List Name} (h : w.Done done s) (hs : w.Ready s) {n : Name} {r : Nat}
    {p : Pattern} (place : Position) (hm : (n.text, r) ∈ s.names) (hr : (s.allowed w.first).call r)
    (hp : Tree w.first p s) :
    w.Done (done ++ [n])
      { s with store := s.store.modifyRule r fun rule =>
                 { rule with place := place, declared := true, body := some p } } := by
  have hdeclared := (hs.sound.declare place hr hp).2.2
  refine ⟨fun r' hr' hd => ?_, fun n' hn' => ?_⟩
  · rcases (hdeclared r').1 hd with hd | rfl
    · obtain ⟨n', hn', hm'⟩ := h.only r' hr' hd
      exact ⟨n', by simp [hn'], hm'⟩
    · exact ⟨n, by simp, hm⟩
  · rcases List.mem_append.1 hn' with hn' | hn'
    · obtain ⟨r', hm', hd⟩ := h.all n' hn'
      exact ⟨r', hm', (hdeclared r').2 (.inl hd)⟩
    · rw [List.mem_singleton.1 hn']
      exact ⟨r, hm, (hdeclared r).2 (.inr rfl)⟩

theorem runs_setPlace (h : w.Ready s) (r : Nat) (place : Position) :
    w.Runs (setPlace r place) (pure ()) s
      { s with store := s.store.modifyRule r fun rule => { rule with place := place } } := by
  have hsound :=
    h.sound.modifyRule r (f := fun rule => { rule with place := place }) fun _ => ⟨rfl, rfl, rfl⟩
  refine ⟨⟨rfl, ?_⟩, .of_sound h hsound rfl⟩
  simp only [State.bench, Store.placeless_place]
  rfl

theorem afterAll_declarations (ds : List Declaration) (hd : ∀ d ∈ ds, d.name ∈ w.declared) :
    w.AfterAll (ds.flatMap Declaration.lexemes) := by
  cases ds with
  | nil => simp [AfterAll]
  | cons d ds =>
    rintro _ ⟨rfl⟩
    refine ⟨?_, by simp⟩
    intro hnil
    simpa [hnil] using hd d (by simp)

theorem Makes.bind_of {α β : Type} {x : Reader α} {f : α → Reader β} {m : Build α} {k : α → Build β}
    {s₁ s₂ : State} {a : α} (h : Makes x m s s₁) (ha : (m s.bench).1 = a)
    (h' : Makes (f a) (k a) s₁ s₂) : Makes (x >>= f) (m >>= k) s s₂ := by
  subst ha
  exact h.bind h'

theorem makes_declaration {d : Declaration} {more : List Lexeme} {done : List Name} (h : w.Ready s)
    (hdone : w.Done done s) (hnew : d.name ∉ done) (hd : d.name ∈ w.declared)
    (hs : Stream (d.lexemes ++ more) s.rest) (ha : w.AfterAll more)
    (hfit : Fit w.capacity w.declared s.opened d.lexemes) :
    ∃ s₁, w.Ready s₁ ∧ w.Done (done ++ [d.name]) s₁ ∧ Stream more s₁.rest ∧
      s₁.opened = s.opened + opens d.lexemes ∧
      ∀ room b s', Makes (rules w.source room) b s₁ s' →
        Makes (rules w.source (room + 1)) (do
          let a ← d.build w.inline
          return a :: (← b)) s s' := by
  obtain ⟨u, rest, hf⟩ := hs.front
  have hbody : Stream (d.body.lexemes ++ more) rest := hf.more
  have hheader := header?_header hf.spells rest
  obtain ⟨c, v, rfl, -⟩ := hf.spells.eq_cons
  have step₀ := step_rest h (c :: v ++ rest)
  obtain ⟨s₁, run₁, ht₁, ho₁⟩ := quietly_ruleNamed step₀.ready hd (c :: v ++ rest)
  obtain ⟨r, hr⟩ : ∃ r, r = (Build.ruleNamed d.name.text s.bench).1 := ⟨_, rfl⟩
  have hrule : ruleNamed w.source d.name.text (c :: v ++ rest) { s with rest := c :: v ++ rest } =
      .ok r s₁ := by
    rw [hr]
    exact run₁.result
  have hcall : (s₁.allowed w.first).call r := call_of_ruleNamed step₀.ready hd hrule
  have hmem : (d.name.text, r) ∈ s₁.names := mem_of_ruleNamed hrule
  have hundeclared := (hdone.step (step₀.trans run₁.step)).fresh run₁.step.ready hnew hmem hcall.1
  have run₂ := runs_setPlace run₁.step.ready r (w.source.place (c :: v ++ rest))
  have step₃ := step_rest run₂.step.ready rest
  have hfuel : 8 * d.body.lexemes.length + 5 ≤ fuel rest := by
    have := hbody.length_le
    simp only [List.length_append] at this
    simp only [fuel]
    omega
  have hfit₃ : Fit w.capacity w.declared s₁.opened d.body.lexemes := by
    rw [ho₁]
    exact hfit.2
  obtain ⟨s₄, run₄, ho₄, ht₄⟩ :=
    reads_expression d.body (fuel rest) hfuel _ more step₃.ready hbody ha hfit₃
  have htree :=
    ((readsSoundly w.admits (fuel rest)).expression _ step₃.ready.sound _ s₄ run₄.result).2.2
  have step := (run₂.step.trans step₃).trans run₄.step
  have hcall₄ := step.grown.allowed.call _ hcall
  have ready₅ := run₄.step.ready.declare (w.source.place (c :: v ++ rest)) hcall₄ htree
  have done₅ := (hdone.step ((step₀.trans run₁.step).trans step)).declare run₄.step.ready
    (w.source.place (c :: v ++ rest)) (step.names hmem) hcall₄ htree
  have run₆ := runs_freshId ready₅
  refine ⟨_, run₆.step.ready, done₅.step run₆.step, ht₄, ?_, fun room b s' hmakes => ?_⟩
  · have hopens : opens d.lexemes = opens d.body.lexemes := by
      simp [Declaration.lexemes, opens, Lexeme.opens]
    have hopened : s₄.opened = s₁.opened + opens d.body.lexemes := ho₄
    rw [hopens, ← show s₁.opened = s.opened from ho₁]
    exact hopened
  · change Makes _ (do
      let r ← Build.ruleNamed d.name.text
      let p ← d.body.build w.inline
      Build.modifyRule r fun rule => { rule with declared := true, body := some p }
      let id ← Build.fresh
      let ds ← b
      return (id, r) :: ds) s s'
    rw [rules]
    refine .after rfl rfl ?_
    rw [hf.skip]
    simp only [List.cons_append] at hheader ⊢
    rw [hheader]
    refine run₁.toMakes.bind_of hr.symm (.after rfl rfl ?_)
    have hnot : ¬ (s₁.store.rules[r]?.map Rule.declared).getD false = true := by
      intro hd
      cases hrule : s₁.store.rules[r]? with
      | none => simp [hrule] at hd
      | some rule => exact hundeclared ⟨rule, hrule, by simpa [hrule] using hd⟩
    rw [if_neg hnot]
    refine .after run₂.result run₂.bench (.after rfl rfl (run₄.toMakes.bind ?_))
    have hdeclare (p : Pattern) : Makes (declare r (w.source.place (c :: v ++ rest)) p)
        (Build.modifyRule r fun rule => { rule with declared := true, body := some p }) s₄ _ :=
      ⟨rfl, by simp only [State.bench, Store.placeless_declare]; rfl⟩
    exact (hdeclare _).bind (run₆.toMakes.bind (hmakes.bind ⟨rfl, rfl⟩))

theorem ahead_eq (s : State) :
    ahead s = .ok (skipBlanks false s.rest) { s with rest := skipBlanks false s.rest } :=
  rfl

theorem ahead_nil (hs : Stream [] s.rest) : ahead s = .ok [] { s with rest := [] } := by
  rw [ahead_eq, hs.skip_nil]

theorem makes_rules_nil (room : Nat) (hs : Stream [] s.rest) :
    Makes (rules w.source (room + 1)) (pure []) s { s with rest := [] } := by
  rw [rules]
  exact .after (ahead_nil hs) rfl ⟨rfl, rfl⟩

theorem makes_rules (ds : List Declaration) (room : Nat) (hroom : ds.length < room)
    {done : List Name} (h : w.Ready s) (hdone : w.Done done s)
    (hnew : (done ++ ds.map Declaration.name).Nodup) (hd : ∀ d ∈ ds, d.name ∈ w.declared)
    (hs : Stream (ds.flatMap Declaration.lexemes) s.rest)
    (hfit : Fit w.capacity w.declared s.opened (ds.flatMap Declaration.lexemes)) :
    ∃ s', Makes (rules w.source room) (ds.mapM (Declaration.build w.inline)) s s' ∧ w.Ready s' ∧
      w.Done (done ++ ds.map Declaration.name) s' ∧ Stream [] s'.rest ∧
      s'.opened = s.opened + opens (ds.flatMap Declaration.lexemes) := by
  obtain ⟨k, rfl⟩ : ∃ k, room = k + 1 := ⟨room - 1, by omega⟩
  induction ds generalizing s done k with
  | nil =>
    have step := step_rest h []
    refine ⟨{ s with rest := [] }, makes_rules_nil k hs, step.ready, ?_, .nil .nil, rfl⟩
    simpa using hdone.step step
  | cons d ds ih =>
    obtain ⟨j, rfl⟩ : ∃ j, k = j + 1 := ⟨k - 1, by simp only [List.length_cons] at hroom; omega⟩
    rw [List.map_cons] at hnew
    have hnot : d.name ∉ done := fun hmem => List.disjoint_of_nodup_append hnew hmem (by simp)
    obtain ⟨hfit, hfit'⟩ := fit_append.1 hfit
    have hafter := afterAll_declarations ds fun d' hd' => hd d' (List.mem_cons_of_mem d hd')
    obtain ⟨s₁, h₁, hdone₁, hs₁, ho₁, hmakes⟩ :=
      makes_declaration h hdone hnot (hd d (by simp)) hs hafter hfit
    have hnew₁ : (done ++ [d.name] ++ ds.map Declaration.name).Nodup := by simpa using hnew
    obtain ⟨s', hrest, hready, hdone', hs', ho'⟩ := ih (k := j) h₁ hdone₁ hnew₁
      (fun d' hd' => hd d' (List.mem_cons_of_mem d hd')) hs₁ (ho₁ ▸ hfit')
      (by simp only [List.length_cons] at hroom; omega)
    refine ⟨s', ?_, hready, by simpa using hdone', hs', ?_⟩
    · rw [List.mapM_cons]
      exact hmakes (j + 1) _ s' hrest
    · rw [ho', ho₁, List.flatMap_cons, opens_append, Nat.add_assoc]

theorem checkDeclared_ok {store : Store} {names : List (Text × Nat)}
    (h : ∀ n ∈ names, ∀ rule, store.rules[n.2]? = some rule → rule.declared) :
    checkDeclared w.source store names = .ok () := by
  induction names with
  | nil => rfl
  | cons n names ih =>
    obtain ⟨name, r⟩ := n
    have ih := ih fun n' hn' => h n' (List.mem_cons_of_mem _ hn')
    rw [checkDeclared]
    cases hrule : store.rules[r]? with
    | none => exact ih
    | some rule =>
      have hdeclared : rule.declared := h (name, r) (by simp) rule hrule
      simpa [hdeclared] using ih

theorem Done.checkDeclared (h : w.Done w.declared s) (hs : w.Ready s) :
    checkDeclared w.source s.store s.names = .ok () := by
  refine checkDeclared_ok fun n hn rule hrule => ?_
  obtain ⟨d, hd, hname⟩ := hs.named n hn
  obtain ⟨r, hm, rule', hrule', hdeclared⟩ := h.all d hd
  obtain rfl : r = n.2 := hs.rule_unique hm (by rw [← hname]; exact hn)
  rw [hrule] at hrule'
  cases hrule'
  exact hdeclared

def rootOf : List (Nat × Nat) → Build Pattern
  | [] => return .empty
  | start :: others => do return .grammar (← Build.fresh) start others

theorem makes_grammar (start : Declaration) (others : List Declaration)
    (hw : w.declared = (start :: others).map Declaration.name) (hnew : w.declared.Nodup)
    (hroom : (start :: others).length ≤ w.text.length) (h : w.Ready s) (hdone : w.Done [] s)
    (hs : Stream ((start :: others).flatMap Declaration.lexemes) s.rest)
    (hfit : Fit w.capacity w.declared s.opened ((start :: others).flatMap Declaration.lexemes)) :
    ∃ s', Makes (grammar w.source) ((Document.grammar start others).build w.inline) s s' ∧
      Stream [] s'.rest ∧ (∀ n ∈ s'.names, ∃ d ∈ w.declared, n.1 = d.text) ∧
      s'.opened = s.opened + opens ((start :: others).flatMap Declaration.lexemes) := by
  have hd (d : Declaration) (hd : d ∈ start :: others) : d.name ∈ w.declared := by
    rw [hw]
    exact List.mem_map_of_mem hd
  obtain ⟨s₁, hrules, hready, hall, hs₁, ho₁⟩ :=
    makes_rules (start :: others) (w.source.text.length + 1) (by simp only [source]; omega) h hdone
      (by simpa [← hw] using hnew) hd hs hfit
  rw [List.nil_append, ← hw] at hall
  rw [List.mapM_cons] at hrules
  have hbuild : (Document.grammar start others).build w.inline = (do
      let defs ← (do
        let d ← start.build w.inline
        return d :: (← others.mapM (Declaration.build w.inline)))
      rootOf defs) := by
    simp only [Document.build, rootOf, bind_assoc, pure_bind]
  have last (start : Nat × Nat) (others : List (Nat × Nat)) : ∃ s', Makes (do
      modify fun s => { s with log := (unused w.source s.store others).reverse ++ s.log }
      return Pattern.grammar (← freshId) start others)
      (do return .grammar (← Build.fresh) start others) s₁ s' ∧ s'.rest = s₁.rest ∧
        s'.names = s₁.names ∧ s'.opened = s₁.opened :=
    ⟨_, .after rfl rfl ⟨rfl, rfl⟩, rfl, rfl, rfl⟩
  obtain ⟨s', hlast, hrest, hnames, hopened⟩ := last _ _
  rw [hbuild, grammar]
  refine ⟨s', hrules.bind (.after rfl rfl ?_), hrest ▸ hs₁, hnames ▸ hready.named,
    hopened.trans ho₁⟩
  rw [hall.checkDeclared hready]
  exact hlast

theorem finish_nil (hs : Stream [] s.rest) (p : Pattern) :
    finish w.source p s = .ok p { s with rest := [], store := s.store.setCount p s.opened } := by
  simp only [finish, Bind.bind, EStateM.bind, ahead_nil hs]
  rfl

theorem isSome_header? (d : Document) {t : Text} (hs : Stream d.lexemes t) :
    (header? (skipBlanks false t)).isSome = !d.declared.isEmpty := by
  cases d with
  | grammar start others =>
    obtain ⟨u, rest, hf⟩ := hs.front
    rw [hf.skip, header?_header hf.spells]
    rfl
  | expression e =>
    suffices header? (skipBlanks false t) = none by rw [this]; rfl
    rcases hl : e.lexemes with _ | ⟨l, ls⟩
    · rw [Document.lexemes, hl] at hs
      rw [hs.skip_nil]
      rfl
    · rw [Document.lexemes, hl] at hs
      obtain ⟨u, rest, hf⟩ := hs.front
      rw [hf.skip]
      rcases e.starts l (by rw [hl]; rfl) with hstart | rfl
      · exact header?_start hstart hf.spells hf.apart
      · rw [hf.spells]
        exact header?_of_not_letter rfl _

def of (d : Document) (text : Text) (file : String) (limit capacity : Int) (store : Store) :
    Setting where
  text := text
  file := file
  limit := limit
  capacity := capacity
  declared := d.declared
  first := store.rules.size

theorem ready_of (d : Document) (text : Text) (file : String) (limit capacity : Int) (store : Store)
    (rest : Text) :
    (of d text file limit capacity store).Ready
      { rest := rest, store := store, inGrammar := !d.declared.isEmpty } := by
  have hs := Sound.start capacity.toNat
    { text := rest, file := file, inline := .int limit, capacity := .int capacity } store
  exact ⟨⟨hs.names, hs.size, hs.rules, hs.opened, hs.skip, fun _ => rfl⟩, rfl,
    List.nodup_nil, by simp⟩

theorem done_nil (h : s.store.rules.size ≤ w.first) : w.Done [] s := by
  refine ⟨fun r hr ⟨rule, hrule, _⟩ => ?_, by simp⟩
  obtain ⟨hlt, -⟩ := Array.getElem?_eq_some_iff.1 hrule
  omega

theorem length_le_declarations (ds : List Declaration) :
    ds.length ≤ (ds.flatMap Declaration.lexemes).length := by
  induction ds with
  | nil => simp
  | cons d ds ih =>
    simp only [List.flatMap_cons, List.length_append, List.length_cons, Declaration.lexemes]
    omega

theorem makes_document (d : Document) (text : Text) (file : String) (limit capacity : Int)
    (store : Store) (hd : d.Valid capacity) (hs : Stream d.lexemes text) :
    ∃ s', Makes (document (of d text file limit capacity store).source)
      (d.build (inlinedBelow limit)) { rest := text, store := store } s' ∧ Stream [] s'.rest ∧
      (∀ n ∈ s'.names, ∃ m ∈ d.declared, n.1 = m.text) ∧ s'.opened = opens d.lexemes := by
  have hready := ready_of d text file limit capacity store (skipBlanks false text)
  have hheader := isSome_header? d hs
  have hskip := hs.skip
  cases d with
  | expression e =>
    have hfuel : 8 * e.lexemes.length + 5 ≤ fuel (skipBlanks false text) := by
      have := hskip.length_le
      simp only [Document.lexemes] at this
      simp only [fuel]
      omega
    have hstream : Stream (e.lexemes ++ []) (skipBlanks false text) := by
      rw [List.append_nil]
      exact hskip
    obtain ⟨s', hrun, ho', hs'⟩ :=
      reads_expression e _ hfuel _ [] hready hstream (by simp [AfterAll]) hd.fit
    refine ⟨s', .after rfl rfl ?_, hs', hrun.step.ready.named, ho'.trans (Nat.zero_add _)⟩
    change Makes (if (header? (skipBlanks false text)).isSome then _ else _) _ _ _
    rw [hheader]
    exact hrun.toMakes
  | grammar start others =>
    have hroom := Nat.le_trans (length_le_declarations (start :: others)) hs.length_le
    obtain ⟨s', hmakes, hs', hnamed, ho'⟩ :=
      makes_grammar start others rfl hd.distinct hroom hready
        (done_nil (Nat.le_refl _)) hskip hd.fit
    refine ⟨s', .after rfl rfl ?_, hs', hnamed, ho'.trans (Nat.zero_add _)⟩
    change Makes (if (header? (skipBlanks false text)).isSome then _ else _) _ _ _
    rw [hheader]
    exact .after rfl rfl hmakes

end Setting

/-- A text that consists of the tokens of a document is read as the pattern that is built from it.
Only what the document declares is named, and the captures are those that the tokens open. -/
theorem parse_stream (d : Document) {text : Text} {capacity : Int} (hd : d.Valid capacity)
    (hs : Stream d.lexemes text) (file : String) (limit : Int) (store : Store) :
    let built := d.build (inlinedBelow limit) { store := store.placeless }
    ∃ store' log,
      parse { text := text, file := file, inline := .int limit, capacity := .int capacity } store =
        (.ok built.1, store', log) ∧
      store'.placeless = built.2.store.setCount built.1 built.2.opened ∧
      (∀ n ∈ built.2.names, ∃ m ∈ d.declared, n.1 = m.text) ∧ built.2.opened = opens d.lexemes := by
  intro built
  obtain ⟨s', hmakes, hs', hnamed, ho'⟩ :=
    Setting.makes_document d text file limit capacity store hd hs
  have hbench : s'.bench = built.2 := hmakes.bench
  have hwhole :
      whole { text := text, file := file, inline := .int limit, capacity := .int capacity }
        { rest := text, store := store } =
      .ok built.1 { s' with rest := [], store := s'.store.setCount built.1 s'.opened } := by
    rw [whole_eq_document]
    exact (bind_of_ok hmakes.result).trans
      (Setting.finish_nil (w := .of d text file limit capacity store) hs' built.1)
  refine ⟨s'.store.setCount built.1 s'.opened, s'.log.reverse, ?_, ?_, ?_, ?_⟩
  · rw [parse]
    simp only [EStateM.run, hwhole]
  · rw [← hbench]
    rfl
  · rw [← hbench]
    exact hnamed
  · rw [← hbench]
    exact ho'

/-- A document that is printed token by token, with layout between any two tokens, is read back:
with every call left as a call, the pattern is the one that is built from the document. -/
theorem parse_printed (d : Document) (capacity : Int) (hd : d.Valid capacity) (gap text : Text)
    (hgap : Layout gap) (h : Printed d.lexemes text) (file : String) (store : Store) :
    let built := d.build (fun _ _ => none) { store := store.placeless }
    ∃ store' log,
      parse { text := gap ++ text, file := file, inline := .int 0, capacity := .int capacity }
        store = (.ok built.1, store', log) ∧
      store'.placeless = built.2.store.setCount built.1 built.2.opened := by
  rw [← inlinedBelow_zero]
  obtain ⟨store', log, hparse, hstore, -⟩ := parse_stream d hd (h.stream hgap) file 0 store
  exact ⟨store', log, hparse, hstore⟩

theorem Printed.spaced {l : Lexeme} {ls : List Lexeme} (t : Text) {rest : Text}
    (spells : l.Spells t) (more : Printed ls rest) :
    Printed (l :: ls) (t ++ ([' '.toNat] ++ rest)) :=
  .cons spells (.blank rfl .nil) (by simp) more

/-- The letter twice, then once more or not: the document of `s <- { 'a' } $1 s ?`. -/
def pairs : Document :=
  let s : Name := ⟨Text.ofString "s", rfl⟩
  let letter : Item := .suffixed (.atom (.literal .exact (Text.ofString "a"))) []
  .grammar ⟨s, .mk [
    .suffixed (.capture (.mk [letter] [])) [],
    .suffixed (.atom (.backref .exact 1)) [],
    .suffixed (.name s) [.opt]] []⟩ []

def pairsText : Text := Text.ofString "s <- \x7b 'a' \x7d $1 s ?"

theorem pairs_printed : Printed pairs.lexemes pairsText := by
  refine .spaced (Text.ofString "s <-") ⟨[' '.toNat], by decide, rfl⟩ ?_
  refine .spaced (Text.ofString "\x7b") rfl ?_
  refine .spaced (Text.ofString "'a'") rfl ?_
  refine .spaced (Text.ofString "\x7d") rfl ?_
  refine .spaced (Text.ofString "$1")
    (by decide +kernel : Text.ofString "$1" = '$'.toNat :: Text.numeral 1) ?_
  refine .spaced (Text.ofString "s") rfl ?_
  exact .one rfl

theorem pairs_valid : pairs.Valid 1 := by
  have hnumber : 1 ≤ 1 ∧ 1 ≤ 1 ∧ (Text.numeral 1).length ≤ Text.mostDigits := by decide +kernel
  exact ⟨by decide, trivial, Int.zero_lt_one, trivial, trivial, hnumber,
    List.mem_singleton_self _, trivial, trivial⟩

theorem parse_pairs : ∃ p store log,
    parse { text := pairsText, file := "pairs", inline := .int 0, capacity := .int 1 } {} =
      (.ok p, store, log) ∧
    store.count? p = some 1 := by
  obtain ⟨store, log, hparse, hstore⟩ :=
    parse_printed pairs 1 pairs_valid [] pairsText .nil pairs_printed "pairs" {}
  refine ⟨_, store, log, hparse, ?_⟩
  have hopened : (pairs.build (fun _ _ => none) { store := Store.placeless {} }).2.opened = 1 := by
    decide +kernel
  change store.placeless.count? _ = some 1
  rw [hstore, hopened]
  simp [Store.count?, Store.setCount]

end Grammar

end PegMatch

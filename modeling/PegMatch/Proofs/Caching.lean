import PegMatch.Proofs.FreshSlots
import PegMatch.Proofs.Keys

set_option autoImplicit false

/-! The cache. Whatever is done with a library, each entry of its cache is a copy of what a new
compiler makes of the key, and no later use of a tree changes what the tree refers to. So what a
call of the compiler returns depends on the key of the call alone, and when it is found the library
stays as it is. -/

namespace PegMatch

namespace Store

/-- The second store holds the rules and the slots of the first under new names. -/
structure Embeds (ρ : Renaming) (s t : Store) : Prop where
  rules : ∀ (r : Nat) (rule : Rule), s.rules[r]? = some rule →
    t.rules[ρ.rule r]? = some (rule.rename ρ)
  slots : ∀ i slot, s.slot? i = some slot → ρ.id i < t.fresh ∧ t.slot? (ρ.id i) = some slot

/-- The tree is a copy of what the key is read as by itself, and so are the rules and slots that it
refers to. -/
def Holds (store : Store) (key : CacheKey) (p : Pattern) : Prop :=
  ∃ p₀ s₀ log ρ, Grammar.parse key.source {} = (.ok p₀, s₀, log) ∧ p = p₀.rename ρ ∧
    s₀.Embeds ρ store

/-- Rules and slots may come in, and nothing that was there before changes. -/
structure Grows (s t : Store) : Prop where
  fresh : s.fresh ≤ t.fresh
  rules : ∀ (r : Nat) (rule : Rule), s.rules[r]? = some rule → t.rules[r]? = some rule
  slots : ∀ i slot, i < s.fresh → s.slot? i = some slot → t.slot? i = some slot

variable {store store' s t : Store} {p : Pattern} {key key' : CacheKey} {src : Grammar.Source}
  {log : List Notice}

theorem Grows.refl (s : Store) : s.Grows s :=
  ⟨Nat.le_refl _, fun _ _ h => h, fun _ _ _ h => h⟩

theorem Holds.grow (h : store.Holds key p) (hg : store.Grows store') : store'.Holds key p := by
  obtain ⟨p₀, s₀, log, ρ, hparse, rfl, hembeds⟩ := h
  refine ⟨p₀, s₀, log, ρ, hparse, rfl, fun r rule hr => hg.rules _ _ (hembeds.rules r rule hr),
    fun i slot hi => ?_⟩
  obtain ⟨hlt, hslot⟩ := hembeds.slots i slot hi
  exact ⟨Nat.lt_of_lt_of_le hlt hg.fresh, hg.slots _ slot hlt hslot⟩

theorem Holds.of_same (h : store.Holds key p) (hkey : key'.check = .ok ())
    (same : key.same key' = true) : store.Holds key' p := by
  obtain ⟨p₀, s₀, log, ρ, hparse, hp, hembeds⟩ := h
  obtain ⟨log', hparse'⟩ := Grammar.parse_within (CacheKey.within_of_same hkey same) hparse
  exact ⟨p₀, s₀, log', ρ, hparse', hp, hembeds⟩

theorem grows_onto (ht : Pattern.firstFresh ≤ t.fresh)
    (h : Grammar.parse src {} = (.ok p, s, log)) : t.Grows (s.onto t) := by
  obtain ⟨hfresh, hslots, -⟩ := Grammar.parse_fresh h
  refine ⟨?_, fun r rule hr => ?_, fun i slot hi hslot => ?_⟩
  · simp only [onto, behind]
    omega
  · have hlt : r < t.rules.size := (Array.getElem?_eq_some_iff.1 hr).1
    simp only [onto, Array.getElem?_append_left hlt, hr]
  · rw [slot_onto_of_lt ht (fun e he => (hslots e he).1) hi, hslot]

theorem embeds_onto (t : Store) (h : Grammar.parse src {} = (.ok p, s, log)) :
    s.Embeds t.behind (s.onto t) := by
  refine ⟨fun r rule
    hr => by rw [getElem_onto, hr]; rfl, fun i slot hi => ⟨?_, (copies_onto s t).slots i slot hi⟩⟩
  have hlt := ((Grammar.parse_fresh h).2.1 _ (mem_of_lookup_eq_some hi)).2
  simp only [onto, Renaming.id]
  split <;> omega

theorem grows_number {capacity : Datum} {n : Nat} (h : store.number capacity p = .ok (n, store')) :
    store.Grows store' := by
  cases hcount : store.count? p with
  | some m =>
    rw [number, hcount] at h
    cases h
    exact .refl store
  | none =>
    rw [number_eq hcount] at h
    cases hwalk : Numbering.walkRoot store capacity p with
    | error e =>
      rw [hwalk] at h
      cases h
    | ok w =>
      rw [hwalk] at h
      cases h
      refine ⟨Nat.le_refl _, fun r rule hr => hr, fun i slot _ hslot => ?_⟩
      obtain ⟨ms, -, hmeets⟩ := Numbering.encounters_of_walkRoot hwalk
      obtain ⟨-, w', hw', htracks⟩ | ⟨a, m, b, e, -, -, he, -⟩ :=
        (Numbering.tracks_nil store []).run capacity ms
      · cases hmeets.symm.trans hw'
        have hnone : w.given.lookup i = none := by
          refine Option.eq_none_iff_forall_ne_some.2 fun k hk => ?_
          have := ((htracks.given i k).1 hk).1
          rw [hslot] at this
          cases this
        rw [slot?_numbered, hnone, hslot]
        rfl
      · cases hmeets.symm.trans he

end Store

namespace Library

/-- What may be done with a library: a text is compiled, another configuration is put in force, a
new node gets its identity, and a pattern is matched, whatever it was built of. -/
inductive Step where
  | compile (x : Request)
  | configure (c : Config)
  | build
  | matching (subject : Subject) (p : Pattern) (start : Int)

/-- The library that an operation leaves. -/
def left {α : Type} : EStateM.Result Failure Library α → Library
  | .ok _ l => l
  | .error _ l => l

def step (l : Library) : Step → Library
  | .compile x => left (compile x.text x.file x.inline x.config l)
  | .configure c => { l with config := c }
  | .build => left (freshId l)
  | .matching subject p i => left (matching subject p i l)

theorem step_of_compile {x : Request} {l l' : Library} {p : Pattern}
    (h : compile x.text x.file x.inline x.config l = .ok p l') : l.step (.compile x) = l' := by
  simp only [step, h, left]

/-- Each entry of the cache stands for its key, and no key comes twice. -/
structure Sound (l : Library) : Prop where
  fresh : Pattern.firstFresh ≤ l.store.fresh
  entries : ∀ e ∈ l.cache, l.store.Holds e.1 e.2
  distinct : l.cache.Pairwise fun e f => e.1.same f.1 = false

/-- A call that fails leaves the cache as it is: its key is none, or the text is not in the cache
and a new compiler does not read it, or the cache has no size. Otherwise the tree is that of the key
of the call. It was in the cache, and nothing happens, or it comes into the cache, from which all
others may have been dropped. -/
def Answers (x : Request) (l : Library) : EStateM.Result Failure Library Pattern → Prop
  | .error e l' => l'.cache = l.cache ∧
    ((∃ m, (x.key l.config).check = .error m ∧ e = .misuse m) ∨
      (∀ e ∈ l.cache, e.1.same (x.key l.config) = false) ∧
        ((∃ r, (Grammar.parse (x.key l.config).source {}).1 = .error r ∧ e = ofReadError r) ∨
          ∃ m, (x.config.getD l.config).cacheSize.limit ">=" = .error m ∧ e = .misuse m))
  | .ok p l' => l'.store.Holds (x.key l.config) p ∧
    ((∃ e ∈ l.cache, e.1.same (x.key l.config) ∧ e.2 = p ∧ l' = l) ∨
      (∀ e ∈ l.cache, e.1.same (x.key l.config) = false) ∧ (x.key l.config, p) ∈ l'.cache ∧
      ∃ size, (x.config.getD l.config).cacheSize.limit ">=" = .ok size ∧
      (l'.cache.length : Int) ≤ max 1 size)

variable {l l' : Library}

theorem sound_new (c : Config) (depth : Nat) : Sound { config := c, depth } where
  fresh := Nat.le_refl _
  entries := by simp
  distinct := .nil

theorem Sound.grow (h : l.Sound) (hg : l.store.Grows l'.store) (hcache : l'.cache = l.cache) :
    l'.Sound where
  fresh := Nat.le_trans h.fresh hg.fresh
  entries e he := (h.entries e (hcache ▸ he)).grow hg
  distinct := hcache ▸ h.distinct

theorem remember_cases (size : Int) (key : CacheKey) (p : Pattern)
    (cache : List (CacheKey × Pattern)) :
    size ≤ cache.length ∧ remember size key p cache = [(key, p)] ∨ (cache.length : Int) < size ∧
      remember size key p cache = cache ++ [(key, p)] := by
  unfold remember
  split
  · exact .inl ⟨by assumption, rfl⟩
  · exact .inr ⟨by omega, rfl⟩

theorem length_remember (size : Int) (key : CacheKey) (p : Pattern)
    (cache : List (CacheKey × Pattern)) :
    ((remember size key p cache).length : Int) ≤ max 1 size := by
  rcases remember_cases size key p cache with ⟨-, h⟩ | ⟨hlt, h⟩
  · rw [h, List.length_singleton]
    omega
  · rw [h, List.length_append, List.length_singleton]
    omega

theorem Sound.remember (h : l.Sound) {key : CacheKey} {p : Pattern} (hp : l.store.Holds key p)
    (hnew : ∀ e ∈ l.cache, e.1.same key = false) (size : Int) :
    Sound { l with cache := Library.remember size key p l.cache } := by
  rcases remember_cases size key p l.cache with ⟨-, hcache⟩ | ⟨-, hcache⟩
  · rw [hcache]
    exact ⟨h.fresh, by simpa using hp, List.pairwise_singleton _ _⟩
  · rw [hcache]
    refine ⟨h.fresh, fun e he => ?_,
      List.pairwise_append.2 ⟨h.distinct, List.pairwise_singleton _ _, ?_⟩⟩
    · rcases List.mem_append.1 he with he | he
      · exact h.entries e he
      · obtain rfl := List.mem_singleton.1 he
        exact hp
    · intro e he f hf
      obtain rfl := List.mem_singleton.1 hf
      exact hnew e he

/-- A call of the compiler keeps the cache sound, and answers for the key of the call. -/
theorem Sound.compile (h : l.Sound) (x : Request) :
    (left (compile x.text x.file x.inline x.config l)).Sound ∧
      Answers x l (compile x.text x.file x.inline x.config l) := by
  rw [compile_request]
  cases hcheck : (x.key l.config).check with
  | error m => exact ⟨h, rfl, .inl ⟨m, hcheck, rfl⟩⟩
  | ok u =>
    simp only
    cases hfind : l.cache.find? fun e => e.1.same (x.key l.config) with
    | some e =>
      have hmem := List.mem_of_find?_eq_some hfind
      have hsame := List.find?_some hfind
      exact ⟨h, (h.entries e hmem).of_same hcheck hsame, .inl ⟨e, hmem, hsame, rfl, rfl⟩⟩
    | none =>
      have hnew : ∀ e ∈ l.cache, e.1.same (x.key l.config) = false := by
        simpa [List.find?_eq_none] using hfind
      rcases hparse : Grammar.parse (x.key l.config).source l.store with ⟨_ | p, store, notices⟩
      · exact ⟨h.grow (.refl _) rfl, rfl,
          .inr ⟨hnew, .inl ⟨_, Grammar.error_of_parse h.fresh hparse, rfl⟩⟩⟩
      · obtain ⟨p₀, s₀, halone, rfl, rfl⟩ := Grammar.parse_behind h.fresh hparse
        have hgrows := Store.grows_onto h.fresh halone
        have hholds : (s₀.onto l.store).Holds (x.key l.config) (p₀.rename l.store.behind) :=
          ⟨p₀, s₀, _, _, halone, rfl, Store.embeds_onto l.store halone⟩
        have hsound : Sound { l with store := s₀.onto l.store, log := l.log ++ notices } :=
          h.grow hgrows rfl
        simp only
        cases hsize : (x.config.getD l.config).cacheSize.limit ">=" with
        | error m => exact ⟨hsound, rfl, .inr ⟨hnew, .inr ⟨m, hsize, rfl⟩⟩⟩
        | ok size =>
          refine ⟨hsound.remember hholds hnew size, hholds,
            .inr ⟨hnew, ?_, size, hsize, length_remember _ _ _ _⟩⟩
          exact List.mem_append_right _ (List.mem_singleton_self _)

theorem grows_matching (subject : Subject) (p : Pattern) (i : Int) (l : Library) :
    l.store.Grows (left (matching subject p i l)).store ∧
      (left (matching subject p i l)).cache = l.cache := by
  simp only [matching, probe, number_apply, bind, EStateM.bind, get_apply]
  cases hnumber : l.store.number l.config.capacity p with
  | error e => exact ⟨.refl _, rfl⟩
  | ok r =>
    obtain ⟨n, store⟩ := r
    have hgrows := Store.grows_number hnumber
    cases hmake : Captures.make l.config.capacity with
    | error f => exact ⟨hgrows, rfl⟩
    | ok table =>
      simp only [ofExcept, pure, EStateM.pure]
      cases Probe.matchAt { subject, pattern := p, store, table, count := n, depth := l.depth }
        i <;> exact ⟨hgrows, rfl⟩

theorem Sound.step (h : l.Sound) (x : Step) : (l.step x).Sound := by
  cases x with
  | compile x => exact (h.compile x).1
  | configure c => exact h.grow (.refl _) rfl
  | build => exact h.grow ⟨Nat.le_succ _, fun _ _ hr => hr, fun _ _ _ hi => hi⟩ rfl
  | matching subject p i =>
    obtain ⟨hgrows, hcache⟩ := grows_matching subject p i l
    exact h.grow hgrows hcache

theorem Sound.run (h : l.Sound) (steps : List Step) : (steps.foldl Library.step l).Sound := by
  induction steps generalizing l with
  | nil => exact h
  | cons x steps ih => exact ih (h.step x)

/-- Whatever was done with a library, the tree of each entry of its cache is a copy of what a new
compiler makes of the key of the entry, and a call of the compiler answers for its own key. -/
theorem cache_answers (c : Config) (depth : Nat) (steps : List Step) (x : Request) :
    let l : Library := steps.foldl Library.step { config := c, depth }
    (∀ e ∈ l.cache, l.store.Holds e.1 e.2) ∧ l.cache.Pairwise (fun e f => e.1.same f.1 = false) ∧
      Answers x l (compile x.text x.file x.inline x.config l) := by
  have h := (sound_new c depth).run steps
  exact ⟨h.entries, h.distinct, (h.compile x).2⟩

/-- `'a'`. -/
def rune : Request where
  text := ['\'', 'a', '\'']

/-- The first call for a rune puts it into the cache, and the second one finds it there. -/
theorem rune_is_kept_and_found : ∃ p l,
    compile rune.text rune.file rune.inline rune.config { config := .standard } = .ok p l ∧
    (rune.key .standard, p) ∈ l.cache ∧
    ∃ e ∈ l.cache, e.1.same (rune.key .standard) ∧
      compile rune.text rune.file rune.inline rune.config l = .ok e.2 l := by
  have hlength : (compileAll [rune] { config := .standard }).1.length = 1 ∧
      (compileAll [rune, rune] { config := .standard }).1.length = 2 ∧
      (rune.key .standard).same (rune.key .standard) = true := by
    rw [Config.standard_eq]
    decide +kernel
  obtain ⟨hfirst, htwice, hsame⟩ := hlength
  have hanswers := cache_answers .standard Matching.usualDepth
  generalize Config.standard = c at hfirst htwice hsame hanswers ⊢
  have hconfig : ({ config := c } : Library).config = c := rfl
  have hempty : ({ config := c } : Library).cache = [] := rfl
  generalize ({ config := c } : Library) = l₀ at hfirst htwice hconfig hempty hanswers ⊢
  obtain ⟨p, l, hl⟩ := compiles_of_length hfirst
  rw [compileAll_cons hl] at htwice
  obtain ⟨q, l', hl'⟩ := compiles_of_length (Nat.succ.inj htwice)
  obtain ⟨-, -, hinsert⟩ := hanswers [] rune
  obtain ⟨-, -, hhit⟩ := hanswers [.compile rune] rune
  rw [List.foldl_nil, hl] at hinsert
  rw [List.foldl_cons, List.foldl_nil, step_of_compile hl, hl'] at hhit
  obtain ⟨-, ⟨e, he, -⟩ | ⟨-, hkept, -⟩⟩ := hinsert
  · rw [hempty] at he
    cases he
  rw [hconfig] at hkept
  refine ⟨p, l, hl, hkept, ?_⟩
  have hconfig' : l.config = c := (config_of_compile hl).trans hconfig
  obtain ⟨-, ⟨e, he, hkey, rfl, rfl⟩ | ⟨hnew, -⟩⟩ := hhit
  · rw [hconfig'] at hkey
    exact ⟨e, he, hkey, hl'⟩
  · have hother := hnew _ hkept
    rw [hconfig', hsame] at hother
    cases hother

/-- A truth value finds what was compiled with the number one. -/
example :
    (compileAll [{ text := ['.'], inline := some (.int 1) },
      { text := ['.'], inline := some (.bool true) }] { config := .standard }).2.cache.length =
      1 := by
  rw [Config.standard_eq]
  decide +kernel

end Library

end PegMatch

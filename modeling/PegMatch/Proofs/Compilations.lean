import PegMatch.Proofs.History

set_option autoImplicit false

/-! Calls of the compiler, one after the other, with any names of files and limits of inlining. If
all of them are made with one capacity, then whatever they returned matches without a fault in a
table of that capacity, and all its groups can be read. -/

namespace PegMatch

/-- What the text of a key is read with. -/
def CacheKey.source (k : CacheKey) : Grammar.Source where
  text := k.text
  file := k.file.plain.shown.string
  inline := k.inline
  capacity := k.capacity

namespace Request

/-- The capacity of a call, with the configuration in force. -/
def capacity (x : Request) (c : Config) : Datum :=
  (x.config.getD c).capacity

theorem capacity_of_mem_singleton {x : Request} {t : Text} (h : x ∈ [{ text := t }]) (c : Config) :
    x.capacity c = c.capacity := by
  rw [List.mem_singleton.1 h, capacity, Option.getD_none]

/-- What the text of a call is kept under. -/
def key (x : Request) (c : Config) : CacheKey where
  text := x.text
  file := x.file.getD (x.config.getD c).patternFile
  inline := x.inline.getD (x.config.getD c).inlineThreshold
  capacity := x.capacity c

end Request

namespace Library

theorem compileAll_cons {x : Request} {xs : List Request} {l l' : Library} {p : Pattern}
    (h : compile x.text x.file x.inline x.config l = .ok p l') :
    compileAll (x :: xs) l = (p :: (compileAll xs l').1, (compileAll xs l').2) := by
  simp only [compileAll, h]

theorem compiles_of_length {x : Request} {l : Library} (h : (compileAll [x] l).1.length = 1) :
    ∃ p l', compile x.text x.file x.inline x.config l = .ok p l' := by
  unfold compileAll at h
  cases hx : compile x.text x.file x.inline x.config l with
  | ok p l' => exact ⟨p, l', rfl⟩
  | error e l' =>
    rw [hx] at h
    cases h

inductive Compilation (key : CacheKey) (l : Library) :
    EStateM.Result Failure Library Pattern → Prop where
  | failed (e : Failure) (log : List Notice) : Compilation key l (.error e { l with log := log })
  | found {e : CacheKey × Pattern} (h : e ∈ l.cache) (same : e.1.same key) :
      Compilation key l (.ok e.2 l)
  | unkept {p : Pattern} {store : Store} {notices : List Notice}
      (h : Grammar.parse key.source l.store = (.ok p, store, notices)) (e : Failure)
      (log : List Notice) : Compilation key l (.error e { l with store := store, log := log })
  | kept {p : Pattern} {store : Store} {notices : List Notice}
      (h : Grammar.parse key.source l.store = (.ok p, store, notices)) (size : Int)
      (log : List Notice) :
      Compilation key l
        (.ok p { l with store := store, log := log, cache := remember size key p l.cache })

theorem compile_request (x : Request) (l : Library) : compile x.text x.file x.inline x.config l =
    match (x.key l.config).check with
    | .error m => .error (.misuse m) l
    | .ok _ =>
      match l.cache.find? fun e => e.1.same (x.key l.config) with
      | some e => .ok e.2 l
      | none =>
        match Grammar.parse (x.key l.config).source l.store with
        | (.ok p, store, notices) =>
          match (x.config.getD l.config).cacheSize.limit ">=" with
          | .ok size => .ok p
            { l with store := store, log := l.log ++ notices,
                     cache := remember size (x.key l.config) p l.cache }
          | .error m => .error (.misuse m) { l with store := store, log := l.log ++ notices }
        | (.error e, _, notices) => .error (ofReadError e) { l with log := l.log ++ notices } :=
  compile_apply x.text x.file x.inline x.config l

theorem compilation (x : Request) (l : Library) :
    Compilation (x.key l.config) l (compile x.text x.file x.inline x.config l) := by
  rw [compile_request]
  cases (x.key l.config).check with
  | error m => exact .failed (.misuse m) l.log
  | ok u =>
    simp only
    cases hfind : l.cache.find? fun e => e.1.same (x.key l.config) with
    | some e =>
      have hsame := List.find?_some hfind
      exact .found (List.mem_of_find?_eq_some hfind) hsame
    | none =>
      rcases hparse : Grammar.parse (x.key l.config).source l.store with ⟨_ | p, store, notices⟩
      · exact .failed _ _
      · simp only
        cases (x.config.getD l.config).cacheSize.limit ">=" with
        | error m => exact .unkept hparse _ _
        | ok size => exact .kept hparse size _

theorem config_of_compile {x : Request} {l l' : Library} {p : Pattern}
    (h : compile x.text x.file x.inline x.config l = .ok p l') : l'.config = l.config := by
  have hcompilation := compilation x l
  rw [h] at hcompilation
  cases hcompilation <;> rfl

end Library

/-- The pattern is a copy of what a text is read as, with at most so many captures, and at most so
many are counted. -/
structure Store.Carries (store : Store) (most : Nat) (p : Pattern) : Prop where
  copies : ∃ src p₀ s₀ log ρ, Grammar.Source.Admits src most ∧
    Grammar.parse src {} = (.ok p₀, s₀, log) ∧ p = p₀.rename ρ ∧ s₀.Copies ρ store
  counted : ∃ n, store.count? p = some n ∧ n ≤ most

section

variable {store s₀ : Store} {most : Nat} {p p₀ : Pattern} {src : Grammar.Source} {log : List Notice}

theorem Store.carries_onto (hm : src.Admits most) (h : Grammar.parse src {} = (.ok p₀, s₀, log))
    (store : Store) : (s₀.onto store).Carries most (p₀.rename store.behind) := by
  refine ⟨⟨src, p₀, s₀, log, store.behind, hm, h, rfl, Store.copies_onto s₀ store⟩, ?_⟩
  rw [Grammar.count_onto h, Pattern.id_rename, if_pos rfl]
  exact Grammar.count_parse hm h

theorem Store.Carries.onto (hp : store.Carries most p) (hb : store.Bounded) (hm : src.Admits most)
    (h : Grammar.parse src {} = (.ok p₀, s₀, log)) : (s₀.onto store).Carries most p := by
  obtain ⟨src', p', s', log', ρ, hm', h', rfl, hcopies⟩ := hp.copies
  have hslots := (Grammar.parse_fresh h).2.1
  refine ⟨⟨src', p', s', log', ρ, hm', h', rfl, hcopies.onto hb fun e he => (hslots e he).1⟩, ?_⟩
  rw [Grammar.count_onto h]
  split
  · exact Grammar.count_parse hm h
  · exact hp.counted

end

namespace Library

structure Carries (most : Nat) (l : Library) (ps : List Pattern) : Prop where
  store : l.store.Bounded
  patterns : ∀ p ∈ ps, l.store.Carries most p
  cache : ∀ e ∈ l.cache, l.store.Carries most e.2

variable {most : Nat} {l l' : Library} {ps : List Pattern} {p : Pattern} {key : CacheKey}

theorem carries_new (most : Nat) (c : Config) (depth : Nat) :
    Carries most { config := c, depth } [] :=
  ⟨⟨Nat.le_refl _, by simp, by simp⟩, by simp, by simp⟩

theorem Carries.read (h : Carries most l ps) (hm : key.source.Admits most) {store : Store}
    {notices : List Notice} (hparse : Grammar.parse key.source l.store = (.ok p, store, notices)) :
    Carries most { l with store := store } (p :: ps) := by
  obtain ⟨p₀, s₀, halone, rfl, rfl⟩ := Grammar.parse_behind h.store.fresh hparse
  exact ⟨Grammar.bounded_onto h.store halone,
    List.forall_mem_cons.2 ⟨Store.carries_onto hm halone l.store, fun q hq =>
      (h.patterns q hq).onto h.store hm halone⟩, fun e he => (h.cache e he).onto h.store hm halone⟩

theorem Carries.remember (h : Carries most l (p :: ps)) (size : Int) (key : CacheKey) :
    Carries most { l with cache := Library.remember size key p l.cache } (p :: ps) where
  store := h.store
  patterns := h.patterns
  cache e he := by
    rcases List.mem_append.1 he with he | he
    · split at he
      · cases he
      · exact h.cache e he
    · obtain rfl := List.mem_singleton.1 he
      exact h.patterns p (by simp)

/-- What a call of the compiler returns is carried with all that was compiled before. -/
theorem Carries.compile (h : Carries most l ps) (hm : key.source.Admits most)
    (hr : Compilation key l (.ok p l')) :
    Carries most l' (p :: ps) ∧ l'.config = l.config ∧ l'.depth = l.depth := by
  cases hr with
  | found hmem same =>
    exact ⟨⟨h.store, List.forall_mem_cons.2 ⟨h.cache _ hmem, h.patterns⟩, h.cache⟩, rfl, rfl⟩
  | kept hparse size log =>
    have hread := (h.read hm hparse).remember size key
    exact ⟨⟨hread.store, hread.patterns, hread.cache⟩, rfl, rfl⟩

theorem Carries.fail (h : Carries most l ps) (hm : key.source.Admits most) {e : Failure}
    (hr : Compilation key l (.error e l')) :
    Carries most l' ps ∧ l'.config = l.config ∧ l'.depth = l.depth := by
  cases hr with
  | failed e log => exact ⟨⟨h.store, h.patterns, h.cache⟩, rfl, rfl⟩
  | unkept hparse e log =>
    have hread := h.read hm hparse
    exact ⟨⟨hread.store, fun q hq => hread.patterns q (by simp [hq]), hread.cache⟩, rfl, rfl⟩

theorem Carries.compileAll (h : Carries most l ps) (xs : List Request)
    (hm : ∀ x ∈ xs, (x.key l.config).source.Admits most) :
    Carries most (Library.compileAll xs l).2 ((Library.compileAll xs l).1 ++ ps) ∧
      (Library.compileAll xs l).2.config = l.config ∧
      (Library.compileAll xs l).2.depth = l.depth := by
  induction xs generalizing l ps with
  | nil => exact ⟨h, rfl, rfl⟩
  | cons x xs ih =>
    have hstep := compilation x l
    have hx := hm x (by simp)
    simp only [Library.compileAll]
    cases hr : Library.compile x.text x.file x.inline x.config l with
    | ok p l₁ =>
      rw [hr] at hstep
      obtain ⟨h₁, hconfig, hdepth⟩ := h.compile hx hstep
      obtain ⟨h₂, hconfig₂, hdepth₂⟩ := ih h₁ fun y hy => hconfig ▸ hm y (by simp [hy])
      refine ⟨⟨h₂.store, fun q hq => h₂.patterns q ?_, h₂.cache⟩, hconfig₂.trans hconfig,
        hdepth₂.trans hdepth⟩
      simp only [List.cons_append, List.mem_cons, List.mem_append] at hq ⊢
      tauto
    | error e l₁ =>
      rw [hr] at hstep
      obtain ⟨h₁, hconfig, hdepth⟩ := h.fail hx hstep
      obtain ⟨h₂, hconfig₂, hdepth₂⟩ := ih h₁ fun y hy => hconfig ▸ hm y (by simp [hy])
      exact ⟨h₂, hconfig₂.trans hconfig, hdepth₂.trans hdepth⟩

end Library

namespace Probe

variable {q : Probe}

structure Ready (q : Probe) : Prop where
  carries : q.store.Carries q.table.capacity.toNat q.pattern
  count : q.count ≤ q.table.capacity.toNat

theorem serves_reset (t : Captures) : t.reset.slots.Serves t.capacity.toNat := by
  intro slot hslot
  simp only [Captures.reset, Captures.slots, Captures.ofCapacity, Array.size_replicate]
  omega

theorem makeMatch_ok {t : Captures} {most : Nat} (ht : t.slots.Serves most)
    (hcount : q.count ≤ most) (i length : Int) :
    ∃ spans, q.makeMatch i length t =
      .ok { subject := q.subject, start := i, stop := i + length, spans := spans } := by
  have read (n : Nat) (hn : n ≤ most) :
      ∃ spans, ((List.range n).mapM fun k : Nat => t.span k) = .ok spans := by
    induction n with
    | zero => exact ⟨[], rfl⟩
    | succ n ih =>
      obtain ⟨spans, hspans⟩ := ih (by omega)
      have hlt : n < t.spans.size := (ht n (by omega)).2
      have hspan : t.span n = .ok t.spans[n] := by
        simp [Captures.span, show ¬ (n : Int) < 0 by omega, hlt]
      exact ⟨spans ++ [t.spans[n]], by
        simp [List.range_succ, List.mapM_append, hspans, hspan, bind, Except.bind,
          pure, Except.pure]⟩
  obtain ⟨spans, hspans⟩ := read q.count hcount
  exact ⟨spans, by simp only [makeMatch, hspans, bind, Except.bind]⟩

theorem bounds_of_makeMatch {t : Captures} {i length : Int} {m : Match}
    (h : q.makeMatch i length t = .ok m) : m.start = i ∧ m.stop = i + length := by
  simp only [makeMatch, bind, Except.bind] at h
  split at h
  · cases h
  · cases h
    exact ⟨rfl, rfl⟩

/-- An attempt at a position misses, or hits inside of the subject and gives a match, or nests
without end. -/
theorem Ready.tryAt_cases (h : q.Ready) (origin : Int) {i : Int} (hi : 0 ≤ i) :
    q.tryAt origin i = .error .endless ∨ q.tryAt origin i = .ok (none, q.table.reset) ∨
      ∃ n table spans, q.tryAt origin i = .ok (some n, table) ∧ q.subject.Fits i n ∧
      q.makeMatch i n table =
      .ok { subject := q.subject, start := i, stop := i + n, spans := spans } := by
  obtain ⟨src, p₀, s₀, log, ρ, hm, hparse, hpattern, hcopies⟩ := h.carries.copies
  obtain ⟨s, rfl, hs, hp, -⟩ := Grammar.compiled_parse hm hparse
  let scene : Matching.Scene := { subject := q.subject, store := s.store, origin := origin }
  have hrun : Matching.run { subject := q.subject, store := q.store, origin := origin } q.table
      q.pattern i q.depth = Matching.run scene q.table p₀ i q.depth := by
    rw [hpattern]
    exact Matching.attempt_rename hcopies (Grammar.complete_parse hparse) (q.depth + 1) i _
  have hfollows : Matching.Agrees q.table.reset (Matching.run scene q.table p₀ i q.depth)
      (scene.meaning p₀ i q.table.reset.slots) :=
    Matching.follows_attempt scene (q.depth + 1) p₀ i { table := q.table.reset } hi
  have hsafe : (scene.meaning p₀).Safe q.table.capacity.toNat :=
    Matching.safe_meaning hs hp hs.opened rfl
  simp only [tryAt, hrun]
  cases hr : Matching.run scene q.table p₀ i q.depth with
  | miss u =>
    rw [hr] at hfollows
    rw [← hfollows.2]
    exact .inr (.inl rfl)
  | hit n u =>
    rw [hr] at hfollows
    have hfine := hsafe i _ _ hi (serves_reset q.table) hfollows.1
    obtain ⟨spans, hmatch⟩ := makeMatch_ok hfine h.count i n
    exact .inr (.inr ⟨n, u.table, spans, rfl, scene.inside_meaning p₀ i _ n _ hfollows.1, hmatch⟩)
  | fault f u =>
    rw [hr] at hfollows
    rcases hfollows with rfl | hfault
    · exact .inl rfl
    · exact (hsafe i _ _ hi (serves_reset q.table) hfault).elim

end Probe

namespace Library

theorem carries_compileAll (c : Config) (depth : Nat) (xs : List Request)
    (same : ∀ x ∈ xs, x.capacity c = c.capacity) :
    Carries (c.capacity.int?.getD 0).toNat (compileAll xs { config := c, depth }).2
        (compileAll xs { config := c, depth }).1 ∧
      (compileAll xs { config := c, depth }).2.config = c ∧
      (compileAll xs { config := c, depth }).2.depth = depth := by
  have hadmits (x : Request) (hx : x ∈ xs) :
      (x.key c).source.Admits (c.capacity.int?.getD 0).toNat := by
    have hcapacity : (x.key c).source.capacity = c.capacity := same x hx
    rw [← hcapacity]
    exact Grammar.admits_capacity _
  have h := (carries_new _ c depth).compileAll xs hadmits
  rwa [List.append_nil] at h

/-- What is carried can be made ready to be tried on any subject, and this leaves the library as it
is. -/
theorem Carries.probe {l : Library} {ps : List Pattern}
    (h : Carries (l.config.capacity.int?.getD 0).toNat l ps)
    {p : Pattern} (hp : p ∈ ps) {table : Captures}
      (hmake : Captures.make l.config.capacity = .ok table)
    (subject : Subject) : ∃ n, let q : Probe :=
      { subject, pattern := p, store := l.store, table, count := n, depth := l.depth }
      Library.probe subject p l = .ok q l ∧ q.Ready := by
  have hp := h.patterns p hp
  rw [← Captures.capacity_of_make hmake] at hp
  obtain ⟨n, hn, hle⟩ := hp.counted
  refine ⟨n, ?_, hp, hle⟩
  rw [probe_eq hn, hmake]

theorem exists_ready {c : Config} {depth : Nat} {xs : List Request} {p : Pattern}
    (same : ∀ x ∈ xs, x.capacity c = c.capacity) (hp : p ∈ (compileAll xs { config := c, depth }).1)
      {table : Captures}
    (hmake : Captures.make c.capacity = .ok table) (subject : Subject) : ∃ n,
      let q : Probe :=
        { subject, pattern := p, store := (compileAll xs { config := c, depth }).2.store, table,
          count := n, depth }
      Library.probe subject p (compileAll xs { config := c, depth }).2 =
        .ok q (compileAll xs { config := c, depth }).2 ∧ q.Ready := by
  obtain ⟨hcarries, hconfig, hdepth⟩ := carries_compileAll c depth xs same
  generalize (compileAll xs { config := c, depth }).2 = l at hcarries hconfig hdepth ⊢
  subst hconfig hdepth
  exact hcarries.probe hp hmake subject

theorem exists_table : ∃ table, Captures.make Config.standard.capacity = .ok table := by
  have hsome : (Captures.make Config.standard.capacity).toOption.isSome = true := by
    rw [Config.standard_eq]
    decide +kernel
  cases hmake : Captures.make Config.standard.capacity with
  | error f =>
    rw [hmake] at hsome
    cases hsome
  | ok table => exact ⟨table, rfl⟩

end Library

end PegMatch

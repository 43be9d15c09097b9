import PegMatch.Proofs.Compilations

set_option autoImplicit false

/-! Scans of a subject. The matches that a scan gives out lie one behind the other, and at all other
positions that are not inside of one the pattern misses. A row of matches that is so described
determines what the functions return that look for the first match. -/

namespace PegMatch

def Match.bounds (m : Match) : Int × Int :=
  (m.start, m.stop)

namespace Probe

def Misses (q : Probe) (origin i : Int) : Prop :=
  ∃ table, q.tryAt origin i = .ok (none, table)

/-- A new attempt where the match starts gives this match. -/
def Gives (q : Probe) (origin : Int) (m : Match) : Prop :=
  ∃ (n : Nat) (table : Captures), q.tryAt origin m.start = .ok (some n, table) ∧
    q.makeMatch m.start n table = .ok m

/-- Every attempt from a position on misses or gives a match inside of the subject. -/
def Answers (q : Probe) (origin : Int) : Prop :=
  ∀ i, origin ≤ i → i ≤ q.subject.size → q.Misses origin i ∨ ∃ m, m.start = i ∧ q.Gives origin m ∧
    m.stop ≤ q.subject.size

structure Scan (q : Probe) (origin i : Int) (ms : List Match) : Prop where
  gives : ∀ m ∈ ms, q.Gives origin m
  ordered : ms.Pairwise fun m m' => m.start < m'.start ∧ m.stop ≤ m'.start
  inside : ∀ m ∈ ms, i ≤ m.start ∧ m.stop ≤ q.subject.size
  complete : ∀ j, i ≤ j → j ≤ q.subject.size →
    (∀ m ∈ ms, j ≠ m.start ∧ ¬ (m.start < j ∧ j < m.stop)) → q.Misses origin j

variable {q : Probe} {origin i : Int} {ms : List Match} {m : Match}

theorem Gives.le (h : q.Gives origin m) : m.start ≤ m.stop := by
  obtain ⟨n, table, -, hmake⟩ := h
  have := (bounds_of_makeMatch hmake).2
  omega

namespace Scan

theorem nil (hi : q.subject.size < i) : q.Scan origin i [] :=
  ⟨by simp, .nil, by simp, fun j hj hle => by omega⟩

theorem miss (h : q.Scan origin (i + 1) ms) (hmiss : q.Misses origin i) : q.Scan origin i ms where
  gives := h.gives
  ordered := h.ordered
  inside m hm := by
    have := h.inside m hm
    omega
  complete j hj hle hout := by
    rcases eq_or_lt_of_le hj with rfl | hlt
    · exact hmiss
    · exact h.complete j hlt hle hout

theorem hit (h : q.Scan origin (max m.stop (m.start + 1)) ms) (hm : q.Gives origin m)
    (hle : m.stop ≤ q.subject.size) : q.Scan origin m.start (m :: ms) where
  gives := List.forall_mem_cons.2 ⟨hm, h.gives⟩
  ordered := by
    refine List.pairwise_cons.2 ⟨fun m' hm' => ?_, h.ordered⟩
    have := (h.inside m' hm').1
    omega
  inside := by
    refine List.forall_mem_cons.2 ⟨⟨Int.le_refl _, hle⟩, fun m' hm' => ?_⟩
    have := h.inside m' hm'
    omega
  complete j hj hle hout := by
    have hhere := hout m (by simp)
    exact h.complete j (by omega) hle fun m' hm' => hout m' (by simp [hm'])

theorem eq_nil (h : q.Scan origin i ms) (hi : q.subject.size < i) : ms = [] := by
  refine List.eq_nil_iff_forall_not_mem.2 fun m hm => ?_
  have hle := (h.gives m hm).le
  have hinside := h.inside m hm
  omega

theorem first (h : q.Scan origin i ms) (hle : i ≤ q.subject.size) :
    (∃ m rest, ms = m :: rest ∧ m.start = i) ∨ q.Misses origin i ∧ q.Scan origin (i + 1) ms := by
  by_cases hlater : ∀ m ∈ ms, i < m.start
  · refine .inr ⟨h.complete i (Int.le_refl _) hle fun m hm => ?_, h.gives, h.ordered,
      fun m hm => ?_, fun j hj => ?_⟩
    · have := hlater m hm
      omega
    · exact ⟨hlater m hm, (h.inside m hm).2⟩
    · exact h.complete j (by omega)
  · cases ms with
    | nil => simp at hlater
    | cons m rest =>
      refine .inl ⟨m, rest, rfl, ?_⟩
      by_contra hne
      have hinside := (h.inside m (by simp)).1
      refine hlater (List.forall_mem_cons.2 ⟨by omega, fun m' hm' => ?_⟩)
      have := (List.pairwise_cons.1 h.ordered).1 m' hm'
      omega

end Scan

theorem Answers.matchesFrom (h : q.Answers origin) (room : Nat) (hi : origin ≤ i)
    (hroom : Matching.positions q.subject i ≤ room) :
    ∃ ms, (q.matchesFrom origin room i).toList = .ok ms ∧ q.Scan origin i ms := by
  induction room generalizing i with
  | zero =>
    simp only [Matching.positions] at hroom
    exact ⟨[], rfl, .nil (by omega)⟩
  | succ room ih =>
    simp only [Probe.matchesFrom]
    split
    · next hlt => exact ⟨[], rfl, .nil hlt⟩
    · next hle =>
      simp only [Matching.positions] at hroom ih
      rcases h i hi (by omega) with ⟨table, hmiss⟩ | ⟨m, rfl, hgives, hstop⟩
      · obtain ⟨ms, hms, hscan⟩ := ih (show origin ≤ i + 1 by omega) (by omega)
        exact ⟨ms, by simpa only [hmiss] using hms, hscan.miss ⟨table, hmiss⟩⟩
      · obtain ⟨n, table, htry, hmake⟩ := id hgives
        have hbounds := (bounds_of_makeMatch hmake).2
        have hnext : m.start + max n 1 = max m.stop (m.start + 1) := by omega
        obtain ⟨ms, hms, hscan⟩ := ih (i := m.start + max n 1) (by omega) (by omega)
        refine ⟨m :: ms, ?_, (hnext ▸ hscan).hit hgives hstop⟩
        simp only [htry, hmake, Matches.toList, hms, bind, Except.bind]

def Matches.first? : Matches → Except Fault (Option Match)
  | .done => .ok none
  | .fault f => .error f
  | .more m _ => .ok (some m)

theorem Matches.first?_of_toList {found : Matches} (h : found.toList = .ok ms) :
    found.first? = .ok ms.head? := by
  cases found with
  | done =>
    cases h
    rfl
  | fault f => cases h
  | more m rest =>
    simp only [Matches.toList, bind, Except.bind] at h
    split at h <;> cases h
    rfl

theorem first?_matchesFrom (room : Nat) (hroom : Matching.positions q.subject i = room) :
    (q.matchesFrom origin room i).first? =
      q.firstFrom (fun _ n => n.isSome) origin room i >>= q.matchFound := by
  induction room generalizing i with
  | zero => rfl
  | succ room ih =>
    simp only [Matching.positions] at hroom ih
    have hle : ¬ (q.subject.size : Int) < i := by omega
    rw [Probe.matchesFrom, if_neg hle, Probe.firstFrom]
    rcases htry : q.tryAt origin i with f | ⟨_ | n, table⟩
    · rfl
    · exact ih (by omega)
    · simp only [bind, Except.bind, Option.isSome_some, if_true, matchFound]
      cases q.makeMatch i n table <;> rfl

theorem findMatch_eq_first? (q : Probe) (start : Int) :
    q.findMatch start = (q.matchesAll start).first? :=
  (first?_matchesFrom _ rfl).symm

def Heads (q : Probe) : List Match → Option (Int × Option Nat × Captures) → Prop
  | [], found => found = none
  | m :: _, found => ∃ (n : Nat) (table : Captures), found = some (m.start, some n, table) ∧
      q.makeMatch m.start n table = .ok m

theorem Scan.firstFrom (h : q.Scan origin i ms) (room : Nat)
    (hroom : Matching.positions q.subject i = room) :
    ∃ found, q.firstFrom (fun _ n => n.isSome) origin room i = .ok found ∧ q.Heads ms found := by
  induction room generalizing i with
  | zero =>
    simp only [Matching.positions] at hroom
    obtain rfl := h.eq_nil (by omega)
    exact ⟨none, rfl, rfl⟩
  | succ room ih =>
    simp only [Matching.positions] at hroom ih
    rcases h.first (by omega) with ⟨m, rest, rfl, rfl⟩ | ⟨⟨table, hmiss⟩, hscan⟩
    · obtain ⟨n, table, htry, hmake⟩ := h.gives m (by simp)
      refine ⟨some (m.start, some n, table), ?_, n, table, rfl, hmake⟩
      simp [Probe.firstFrom, htry, bind, Except.bind]
    · obtain ⟨found, hfound, hfirst⟩ := ih hscan (by omega)
      refine ⟨found, ?_, hfirst⟩
      simpa [Probe.firstFrom, hmiss, bind, Except.bind] using hfound

/-- What the functions return that look for matches: the matches of one scan, or the first of
them. -/
structure Finds (q : Probe) (start : Int) (ms : List Match) : Prop where
  scan : q.Scan start start ms
  allMatches : q.allMatches start = .ok ms
  find : q.find start = .ok ((ms.head?.map Match.start).getD (-1))
  findMatch : q.findMatch start = .ok ms.head?
  findBounds : q.findBounds start = .ok ((ms.head?.map fun m => (m.start, m.stop)).getD (-1, 0))
  contains : q.contains start = .ok ms.head?.isSome
  findAll : q.findAll start = .ok (ms.map Match.text)

theorem Answers.finds {start : Int} (h : q.Answers start) (hstart : 0 ≤ start) :
    ∃ ms, q.Finds start ms := by
  obtain ⟨ms, hall, hscan⟩ :=
    h.matchesFrom (Matching.positions q.subject start) (Int.le_refl _) (Nat.le_refl _)
  obtain ⟨found, hfirst, hhead⟩ := hscan.firstFrom _ rfl
  have hfirst : q.first (fun _ n => n.isSome) start = .ok found := hfirst
  have hfind : q.find start = .ok ((ms.head?.map Match.start).getD (-1)) := by
    cases ms with
    | nil =>
      obtain rfl := hhead
      simp [Probe.find, hfirst, bind, Except.bind]
    | cons m rest =>
      obtain ⟨n, table, rfl, -⟩ := hhead
      simp [Probe.find, hfirst, bind, Except.bind]
  have hmatch : q.findMatch start = .ok ms.head? := by
    rw [findMatch_eq_first?]
    exact Matches.first?_of_toList hall
  refine ⟨ms, hscan, hall, hfind, hmatch, ?_, ?_, ?_⟩
  · simp only [Probe.findBounds, hmatch, bind, Except.bind]
  · cases ms with
    | nil => simp [Probe.contains, hfind, bind, Except.bind]
    | cons m rest =>
      have := (hscan.inside m (by simp)).1
      have hle : 0 ≤ m.start := by omega
      simp [Probe.contains, hfind, hle, bind, Except.bind]
  · have hall : q.allMatches start = .ok ms := hall
    simp only [Probe.findAll, hall, bind, Except.bind]

theorem Ready.answers (h : q.Ready) (hstart : 0 ≤ origin)
    (ends : ∀ i, origin ≤ i → i ≤ q.subject.size → q.tryAt origin i ≠ .error .endless) :
    q.Answers origin := by
  intro i hi hle
  rcases h.tryAt_cases origin
    (show 0 ≤ i by omega) with hend | hmiss | ⟨n, table, spans, hhit, hfits, hmake⟩
  · exact absurd hend (ends i hi hle)
  · exact .inl ⟨_, hmiss⟩
  · have hgives :
        q.Gives origin { subject := q.subject, start := i, stop := i + n, spans := spans } :=
      ⟨n, table, hhit, hmake⟩
    exact .inr ⟨_, rfl, hgives, hfits.le hle⟩

theorem tryAt_reused {table : Captures} {n : Option Nat} (hi : 0 ≤ i)
    (h : q.tryAt origin i = .ok (n, table)) (origin' j : Int) :
    ({ q with table := table } : Probe).tryAt origin' j = q.tryAt origin' j := by
  have hcapacity : table.capacity = q.table.capacity := by
    have hfollows : Matching.Agrees q.table.reset
        (Matching.run { subject := q.subject, store := q.store, origin := origin } q.table
          q.pattern i q.depth) _ :=
      Matching.follows_attempt _ (q.depth + 1) q.pattern i { table := q.table.reset } hi
    simp only [tryAt] at h
    split at h
    · next hr =>
      rw [hr] at hfollows
      cases h
      exact hfollows.2.capacity
    · next hr =>
      rw [hr] at hfollows
      cases h
      rw [hfollows.2]
      rfl
    · cases h
  simp only [tryAt, Matching.run, Captures.reset, hcapacity]

end Probe

namespace Library

/-- A pattern that was compiled with the capacity in force, and whose attempts from a position on
all end, is found everywhere where it can be: the matches that a scan gives out lie one behind the
other, each is what a new attempt gives, and the pattern misses at all other positions that are not
inside of one. The table may be used again for each attempt. All functions that look for matches
return these matches or the first of them. -/
theorem scanning_finds_all (c : Config) (depth : Nat) (xs : List Request)
    (same : ∀ x ∈ xs, x.capacity c = c.capacity) (p : Pattern)
    (hp : p ∈ (compileAll xs { config := c, depth }).1) (table : Captures)
    (hmake : Captures.make c.capacity = .ok table) (subject : Subject) (start : Int)
    (hstart : 0 ≤ start)
    (ends : ∀ (i : Int) u, start ≤ i → i ≤ subject.size →
      Matching.run
        { subject, store := (compileAll xs { config := c, depth }).2.store, origin := start }
        table p i depth ≠ .fault .endless u) :
    ∃ q, probe subject p (compileAll xs { config := c, depth }).2 =
        .ok q (compileAll xs { config := c, depth }).2 ∧
      q.subject = subject ∧ (∃ ms, q.Finds start ms) ∧
      ∀ (i : Int) n t, 0 ≤ i → q.tryAt start i = .ok (n, t) →
        ∀ j, ({ q with table := t } : Probe).tryAt start j = q.tryAt start j := by
  obtain ⟨n, hprobe, hready⟩ := exists_ready same hp hmake subject
  refine ⟨_, hprobe, rfl, (hready.answers hstart fun i hi hle hend => ?_).finds hstart,
    fun i n t hi h j => Probe.tryAt_reused hi h start j⟩
  simp only [Probe.tryAt] at hend
  split at hend
  · cases hend
  · cases hend
  · next hr =>
    cases hend
    exact ends i _ hi hle hr

def endsEverywhere (c : Config) (depth : Nat) (xs : List Request) (subject : Subject) : Bool :=
  match Captures.make c.capacity with
  | .error _ => false
  | .ok table =>
    (compileAll xs { config := c, depth }).1.all fun p =>
      (List.range (subject.size + 1)).all fun k =>
    match Matching.run
      { subject, store := (compileAll xs { config := c, depth }).2.store, origin := 0 } table p k
      depth with
    | .fault .endless _ => false
    | _ => true

theorem ends_of_endsEverywhere {c : Config} {depth : Nat} {xs : List Request} {subject : Subject}
    (h : endsEverywhere c depth xs subject = true) :
    ∃ table, Captures.make c.capacity = .ok table ∧ ∀ p ∈ (compileAll xs { config := c, depth }).1,
      ∀ (i : Int) u, 0 ≤ i → i ≤ subject.size →
      Matching.run { subject, store := (compileAll xs { config := c, depth }).2.store, origin := 0 }
        table p i depth ≠ .fault .endless u := by
  unfold endsEverywhere at h
  split at h
  · cases h
  · next table hmake =>
    refine ⟨table, hmake, fun p hp i u hi hle hend => ?_⟩
    have hat := List.all_eq_true.1 (List.all_eq_true.1 h p hp) i.toNat (List.mem_range.2 (by omega))
    simp only [Int.toNat_of_nonneg hi, hend] at hat
    cases hat

/-- `{'a'}*`. -/
def starredRune : List Request :=
  [{ text := Text.ofString "\x7b'a'\x7d*" }]

/-- What an operation returns, if it does not fail. -/
def value? {α : Type} (x : Action α) (l : Library) : Option α :=
  match x l with
  | .ok v _ => some v
  | .error _ _ => none

/-- The matches that a scan from the start gives out, if it does. -/
def matches? (subject : Subject) (l : Library) (p : Pattern) : Option (List Match) :=
  (value? (probe subject p) l).bind fun q => (q.allMatches 0).toOption

theorem matches?_of_probe {subject : Subject} {l l' : Library} {p : Pattern} {q : Probe}
    (h : probe subject p l = .ok q l') : matches? subject l p = (q.allMatches 0).toOption := by
  rw [matches?, value?, h]
  rfl

/-- In `ba`, `{'a'}*` is found before the `b`, at the `a` and at the end. -/
theorem starredRune_is_found : ∃ p ∈ (compileAll starredRune { config := .standard }).1, ∃ q ms,
    probe #['b', 'a'] p (compileAll starredRune { config := .standard }).2 =
      .ok q (compileAll starredRune { config := .standard }).2 ∧
    q.Finds 0 ms ∧ ms.map Match.bounds = [(0, 0), (1, 2), (2, 2)] := by
  have hbounds : (compileAll starredRune { config := .standard }).1.map (fun p =>
      (matches? #['b', 'a'] (compileAll starredRune { config := .standard }).2 p).map
        (List.map Match.bounds)) = [some [(0, 0), (1, 2), (2, 2)]] := by
    rw [Config.standard_eq]
    decide +kernel
  have hends : endsEverywhere .standard Matching.usualDepth starredRune #['b', 'a'] = true := by
    rw [Config.standard_eq]
    decide +kernel
  obtain ⟨p, hp, hone⟩ := List.mem_map.1 (hbounds ▸ List.mem_singleton_self _)
  obtain ⟨table, hmake, hends⟩ := ends_of_endsEverywhere hends
  have same (x : Request) (hx : x ∈ starredRune) :
      x.capacity .standard = Config.standard.capacity :=
    Request.capacity_of_mem_singleton hx _
  obtain ⟨q, hprobe, -, ⟨ms, hfinds⟩, -⟩ :=
    scanning_finds_all .standard _ starredRune same p hp table hmake #['b', 'a'] 0
      (Int.le_refl 0) (hends p hp)
  rw [matches?_of_probe hprobe, hfinds.allMatches] at hone
  exact ⟨p, hp, q, ms, hprobe, hfinds, Option.some.inj hone⟩

end Library

end PegMatch

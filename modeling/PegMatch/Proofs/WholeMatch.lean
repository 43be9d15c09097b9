import PegMatch.Proofs.Compilations

set_option autoImplicit false

/-! Matches of the whole rest of a subject. The length of a match is compared with that of the rest,
and a miss has the length -1, which is the length of the rest one position behind the end. So there,
and only there, a miss counts as a match. -/

namespace PegMatch

namespace Probe

variable {q : Probe} {i : Int} {n : Nat} {table : Captures}

theorem matchAt_of_hit (h : q.tryAt i i = .ok (some n, table)) :
    q.matchAt i = (q.makeMatch i n table).map some := by
  simp only [matchAt, h, bind, Except.bind]
  cases q.makeMatch i n table <;> rfl

theorem matchAt_of_miss (h : q.tryAt i i = .ok (none, table)) : q.matchAt i = .ok none := by
  simp [matchAt, h, bind, Except.bind]

theorem fullMatch_of_hit (h : q.tryAt i i = .ok (some n, table)) :
    q.fullMatch i = if i + n = q.subject.size then q.matchAt i else .ok none := by
  have hlength : (n : Int) = q.subject.size - i ↔ i + n = q.subject.size := by omega
  simp only [fullMatch, h, matchAt_of_hit h, bind, Except.bind, Option.elim_some,
    Int.ofNat_eq_natCast, hlength]
  split
  · cases q.makeMatch i n table <;> rfl
  · rfl

theorem fullMatch_of_miss (h : q.tryAt i i = .ok (none, table)) (hi : i ≠ q.subject.size + 1) :
    q.fullMatch i = .ok none := by
  have hne : (-1 : Int) ≠ q.subject.size - i := by omega
  simp [fullMatch, h, bind, Except.bind, hne]

theorem stop_of_matchAt (h : q.tryAt i i = .ok (some n, table)) {m : Match}
    (hm : q.matchAt i = .ok (some m)) : m.stop = i + n := by
  rw [matchAt_of_hit h] at hm
  cases hmake : q.makeMatch i n table with
  | error f => simp [hmake, Except.map] at hm
  | ok m' =>
    simp only [hmake, Except.map, Except.ok.injEq, Option.some.injEq] at hm
    exact hm ▸ (bounds_of_makeMatch hmake).2

/-- One position behind the end, a miss is given out as a match that ends before it starts. -/
theorem Ready.fullMatch_behind_end (h : q.Ready) (hi : i = q.subject.size + 1)
    (hmiss : q.tryAt i i = .ok (none, table)) : ∃ spans, q.fullMatch i =
      .ok (some { subject := q.subject, start := i, stop := i + -1, spans := spans }) := by
  have hreset : table = q.table.reset := by
    obtain hend | hmiss' | ⟨n, t, spans, hhit, -⟩ := h.tryAt_cases i (show 0 ≤ i by omega)
    · cases hmiss.symm.trans hend
    · cases hmiss.symm.trans hmiss'
      rfl
    · cases hmiss.symm.trans hhit
  obtain ⟨spans, hmake⟩ := makeMatch_ok (serves_reset q.table) h.count i (-1)
  have hlength : (-1 : Int) = q.subject.size - i := by omega
  refine ⟨spans, ?_⟩
  simp [fullMatch, hmiss, bind, Except.bind, ← hlength, hreset, hmake]

/-- The matches of the rest of the subject are the matches that reach the end, unless the pattern
misses one position behind the end. -/
theorem Ready.fullMatch_iff (h : q.Ready) (i : Int) :
    (∀ m, q.fullMatch i = .ok (some m) ↔ q.matchAt i = .ok (some m) ∧ m.stop = q.subject.size) ↔
      (i = q.subject.size + 1 → q.matchAt i ≠ .ok none) := by
  rcases htry : q.tryAt i i with f | ⟨_ | n, table⟩
  · have hfull : q.fullMatch i = .error f := by simp [fullMatch, htry, bind, Except.bind]
    have hmatch : q.matchAt i = .error f := by simp [matchAt, htry, bind, Except.bind]
    simp [hfull, hmatch]
  · have hmatch := matchAt_of_miss htry
    by_cases hi : i = q.subject.size + 1
    · obtain ⟨spans, hfull⟩ := h.fullMatch_behind_end hi htry
      refine ⟨fun hall => ?_, fun hne => absurd hmatch (hne hi)⟩
      have hwhole := ((hall _).1 hfull).1
      rw [hmatch] at hwhole
      cases hwhole
    · simp [fullMatch_of_miss htry hi, hmatch, hi]
  · have hnone : q.matchAt i ≠ .ok none := by
      rw [matchAt_of_hit htry]
      cases q.makeMatch i n table <;> simp [Except.map]
    refine ⟨fun _ _ => hnone, fun _ m => ?_⟩
    rw [fullMatch_of_hit htry]
    by_cases hend : i + n = q.subject.size
    · rw [if_pos hend]
      exact ⟨fun hm => ⟨hm, (stop_of_matchAt htry hm).trans hend⟩, fun hm => hm.1⟩
    · rw [if_neg hend]
      refine ⟨fun hm => ?_, fun hm => absurd ((stop_of_matchAt htry hm.1).symm.trans hm.2) hend⟩
      cases hm

end Probe

namespace Library

variable {l l' : Library} {subject : Subject} {p : Pattern} {q : Probe}

theorem result_ofExcept {α ε : Type} (f : ε → Failure) (x : Except ε α) {a : α} :
    ofExcept f x l = .ok a l' ↔ x = .ok a ∧ l' = l := by
  cases x with
  | error e =>
    constructor
    · intro h
      cases h
    · rintro ⟨h, -⟩
      cases h
  | ok b =>
    constructor
    · intro h
      cases h
      exact ⟨rfl, rfl⟩
    · rintro ⟨h, rfl⟩
      cases h
      rfl

theorem matching_of_probe (h : probe subject p l = .ok q l) (i : Int) {r : Option Match} :
    matching subject p i l = .ok r l' ↔ q.matchAt i = .ok r ∧ l' = l := by
  simp only [matching, bind, EStateM.bind, h, result_ofExcept]

theorem fullMatching_of_probe (h : probe subject p l = .ok q l) (i : Int) {r : Option Match} :
    fullMatching subject p i l = .ok r l' ↔ q.fullMatch i = .ok r ∧ l' = l := by
  simp only [fullMatching, bind, EStateM.bind, h, result_ofExcept]

/-- A compiled pattern matches the rest of a subject just if it matches there and reaches the end,
and then the two matches are the same. This holds at every position but the one behind the end, and
there as well if the pattern does not miss. -/
theorem fullMatching_agrees_iff (c : Config) (depth : Nat) (xs : List Request)
    (same : ∀ x ∈ xs, x.capacity c = c.capacity) (p : Pattern)
    (hp : p ∈ (compileAll xs { config := c, depth }).1) (subject : Subject) (i : Int) :
    (∀ m l', fullMatching subject p i (compileAll xs { config := c, depth }).2 = .ok (some m) l' ↔
      matching subject p i (compileAll xs { config := c, depth }).2 = .ok (some m) l' ∧
        m.stop = subject.size) ↔
    (i = subject.size + 1 → ∀ l',
      matching subject p i (compileAll xs { config := c, depth }).2 ≠ .ok none l') := by
  obtain ⟨hcarries, hconfig, -⟩ := carries_compileAll c depth xs same
  generalize (compileAll xs { config := c, depth }).2 = l at hcarries hconfig ⊢
  subst hconfig
  cases hmake : Captures.make l.config.capacity with
  | error f =>
    obtain ⟨n, hn, -⟩ := (hcarries.patterns p hp).counted
    have hprobe : probe subject p l = .error (.fault f) l := by rw [probe_eq hn, hmake]
    simp [fullMatching, matching, bind, EStateM.bind, hprobe]
  | ok table =>
    obtain ⟨n, hprobe, hready⟩ := hcarries.probe hp hmake subject
    simp only [ne_eq, fullMatching_of_probe hprobe, matching_of_probe hprobe]
    constructor
    · intro hall hi l' hnone
      exact (hready.fullMatch_iff i).1 (fun m => by simpa using hall m l) hi hnone.1
    · intro hmiss m l'
      have hwhole := (hready.fullMatch_iff i).2 (fun hi hnone => hmiss hi l ⟨hnone, rfl⟩) m
      rw [hwhole, and_right_comm]

/-- `'a'` matches the rest of `a`. -/
def oneRune : List Request :=
  [{ text := ['\'', 'a', '\''] }]

theorem oneRune_matches_whole :
    ∃ p ∈ (compileAll oneRune { config := .standard }).1, ∀ m l',
      fullMatching #['a'] p 0 (compileAll oneRune { config := .standard }).2 = .ok (some m) l' ↔
      matching #['a'] p 0 (compileAll oneRune { config := .standard }).2 = .ok (some m) l' ∧
        m.stop = 1 := by
  have hlength : 0 < (compileAll oneRune { config := .standard }).1.length := by
    rw [Config.standard_eq]
    decide +kernel
  have same (x : Request) (hx : x ∈ oneRune) : x.capacity .standard = Config.standard.capacity :=
    Request.capacity_of_mem_singleton hx _
  obtain ⟨p, hp⟩ := List.exists_mem_of_length_pos hlength
  exact ⟨p, hp, (fullMatching_agrees_iff .standard _ oneRune same p hp #['a'] 0).2 (by simp)⟩

end Library

namespace Session

/-- Compiles a text and matches it from a position to the end of the subject. -/
def wholeOutcome (s : Session) (t : Text) (subject : Subject) (i : Int) : Outcome :=
  seen ((do Library.fullMatching subject (← Library.compile t none none none) i :
    Action (Option Match)) s.library)

/-- `'a'` misses behind the end of the empty subject, but is said to match the rest of it. -/
theorem miss_behind_end_matches_whole :
    (new .standard).wholeOutcome ['\'', 'a', '\''] #[] 1 = .ok (some ⟨1, 0, []⟩) ∧
    (new .standard).outcome ['\'', 'a', '\''] #[] 1 = .ok none := by
  rw [Config.standard_eq]
  constructor
  · exact eq_ok_of_toOption (by decide +kernel)
  · exact eq_ok_of_toOption (by decide +kernel)

end Session

end PegMatch

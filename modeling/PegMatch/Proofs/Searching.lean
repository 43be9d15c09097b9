import PegMatch.Proofs.Repetition

set_option autoImplicit false

namespace PegMatch

namespace Meaning

variable {subject : Subject} {m : Meaning} {t u : Slots} {i : Int} {n : Nat}

def pass (subject : Subject) (m : Meaning) : Meaning :=
  andThen (not m) fun i t => some (if i < subject.size then .hit 1 t else .miss)

theorem pass_of_none (h : m i t = none) : pass subject m i t = none := by
  simp [pass, andThen, not, h]

theorem pass_of_fault {f : Fault} (h : m i t = some (.fault f)) :
    pass subject m i t = some (.fault f) := by
  simp [pass, andThen, not, h]

theorem pass_of_hit (h : m i t = some (.hit n u)) : pass subject m i t = some .miss := by
  simp [pass, andThen, not, h]

theorem pass_of_miss (h : m i t = some .miss) (hi : i < subject.size) :
    pass subject m i t = some (.hit 1 t) := by
  simp [pass, andThen, not, h, hi]

theorem pass_at_end (h : m i t = some .miss) (hi : subject.size ≤ i) :
    pass subject m i t = some .miss := by
  have hend : ¬ i < subject.size := by omega
  simp [pass, andThen, not, h, hend]

theorem passes_then (times : Nat) (h : m i t = some .miss) (hi : i < subject.size) :
    andThen (within (pass subject m) (times + 1)) m i t =
      (andThen (within (pass subject m) times) m (i + 1) t).map (Answer.after 1) := by
  have hturn : within (pass subject m) (times + 1) i t =
      (within (pass subject m) times (i + 1) t).map (Answer.after 1) := by
    rw [within, pass_of_miss h hi]
    rfl
  simp only [andThen, hturn]
  cases within (pass subject m) times (i + 1) t with
  | none => rfl
  | some a =>
    cases a with
    | miss => rfl
    | fault f => rfl
    | hit n u =>
      have he : i + ((1 + n : Nat) : Int) = i + 1 + n := by omega
      simp only [Option.map_some, Answer.after_hit, Option.map_map, Function.comp_def,
        Answer.after_after, he]

theorem passes_nothing (times : Nat) (h : m i t = some .miss → subject.size ≤ i) :
    andThen (within (pass subject m) (times + 1)) m i t = m i t := by
  rw [andThen, within]
  cases hm : m i t with
  | none => simp only [pass_of_none hm]
  | some a =>
    cases a with
    | miss => simp [pass_at_end hm (h hm), hm]
    | fault f => simp only [pass_of_fault hm]
    | hit n u => simp [pass_of_hit hm, hm]

/-- The loop takes a turn for each position where the operand misses, and the operand is tried again
where it ends. -/
theorem seek_eq_passes (room skipped : Nat) (h : i + skipped + room = subject.size) :
    seek m (fun skipped n t => .hit (skipped + n) t) i t (room + 1) skipped =
      (andThen (within (pass subject m) (room + 1)) m (i + skipped) t).map
        (Answer.after skipped) := by
  -- the loop has one turn more than it needs: at the end of the subject its body misses
  induction room generalizing skipped with
  | zero =>
    rw [passes_nothing 0 fun _ => by omega, seek]
    cases m (i + skipped) t with
    | none => rfl
    | some a => cases a <;> rfl
  | succ room ih =>
    by_cases hm : m (i + skipped) t = some .miss
    · have hpos : i + ((skipped + 1 : Nat) : Int) = i + skipped + 1 := by omega
      rw [passes_then _ hm (by omega), seek, hm, ih (skipped + 1) (by omega), hpos]
      simp only [Option.map_map, Function.comp_def, Answer.after_after]
    · rw [passes_nothing _ fun h => absurd h hm, seek]
      cases hr : m (i + skipped) t with
      | none => rfl
      | some a =>
        cases a with
        | miss => exact absurd hr hm
        | fault f => rfl
        | hit n u => rfl

theorem search_eq_passes (hi : i ≤ subject.size) :
    search subject m i t = andThen (many subject (pass subject m)) m i t := by
  obtain ⟨room, hroom⟩ : ∃ room : Nat, i + room = subject.size :=
    ⟨(subject.size - i).toNat, by omega⟩
  have hpositions : Matching.positions subject i = room + 1 := by
    simp only [Matching.positions]
    omega
  have hturns : subject.room i = room := by
    simp only [Subject.room]
    omega
  have hstart : i + (0 : Nat) + room = subject.size := by omega
  have h := seek_eq_passes (m := m) (t := t) room 0 hstart
  simp only [search, hpositions, andThen, many, hturns] at h ⊢
  simpa using h

/-- What is sought is found at the first position where the operand does not miss, whatever a hit is
made of. -/
theorem seek_cases (m : Meaning) (i : Int) (t : Slots) (count skipped : Nat) :
    (∃ k n u, (∀ l < k, m (i + (skipped + l : Nat)) t = some .miss) ∧
        m (i + (skipped + k : Nat)) t = some (.hit n u) ∧
        ∀ found, seek m found i t count skipped = some (found (skipped + k) n u)) ∨
      ∃ r, (∀ n u, r ≠ some (.hit n u)) ∧ ∀ found, seek m found i t count skipped = r := by
  induction count generalizing skipped with
  | zero => exact .inr ⟨some .miss, by simp, fun found => rfl⟩
  | succ count ih =>
    cases hm : m (i + skipped) t with
    | none => exact .inr ⟨none, by simp, fun found => by rw [seek, hm]⟩
    | some a =>
      cases a with
      | fault f => exact .inr ⟨some (.fault f), by simp, fun found => by rw [seek, hm]⟩
      | hit n u =>
        exact .inl ⟨0, n, u, by simp, by simpa using hm, fun found => by rw [seek, hm]; rfl⟩
      | miss =>
        rcases ih (skipped + 1) with ⟨k, n, u, hmiss, hhit, hfound⟩ | ⟨r, hr, hfound⟩
        · refine .inl ⟨k + 1, n, u, fun l hl => ?_, ?_, fun found => ?_⟩
          · cases l with
            | zero => exact hm
            | succ l =>
              have := hmiss l (by omega)
              rwa [Nat.add_right_comm] at this
          · rwa [Nat.add_right_comm] at hhit
          · rw [seek, hm]
            have := hfound found
            rwa [Nat.add_right_comm] at this
        · exact .inr ⟨r, hr, fun found => by rw [seek, hm]; exact hfound found⟩

end Meaning

namespace Matching

variable {scene : Scene} {p : Pattern} {i : Int} {s : State} {t : Slots} {d k n : Nat}

/-- The result without its state, but for the captures of a hit. -/
def Result.answer : Result → Answer
  | .hit n u => .hit n u.table.slots
  | .miss _ => .miss
  | .fault f _ => .fault f

theorem answer_of_agrees {t : Captures} {r : Result} {a : Option Answer} (h : Agrees t r a)
    (he : ¬ r.Endless) : a = some r.answer := by
  cases r with
  | hit n u => exact h.1
  | miss u => exact h.1
  | fault f u =>
    rcases h with rfl | h
    · exact absurd trivial he
    · exact h

theorem same_of_answer {r r' : Result} (h : r.answer = r'.answer)
    (ht : r.answer = .miss → r.state.table.slots = r'.state.table.slots) : r.Same r' := by
  cases r <;> cases r' <;> simp only [Result.answer, reduceCtorEq] at h
  case hit.hit => exact ⟨(Answer.hit.inj h).1, (Answer.hit.inj h).2⟩
  case miss.miss => exact ht rfl
  case fault.fault => exact Answer.fault.inj h

theorem answer_of_meaning {a : Answer} (hi : 0 ≤ i) (h : scene.meaning p i s.table.slots = some a)
    (he : ¬ (attempt scene d p i s).Endless) : (attempt scene d p i s).answer = a := by
  have hf := follows_attempt scene d p i s hi
  rw [h] at hf
  exact (Option.some.inj (answer_of_agrees hf he)).symm

theorem Result.Endless.answer {r : Result} (h : r.Endless) : r.answer = .fault .endless := by
  unfold Result.Endless at h
  split at h
  · rfl
  · cases h

theorem answer_from (hi : 0 ≤ i) {a : Answer} (h : (attempt scene d p i s).answer = a)
    (ha : a ≠ .fault .endless) : ∃ depth, ∀ d, depth ≤ d → (attempt scene d p i s).answer = a := by
  have hsettled : ¬ (attempt scene d p i s).Endless := fun hend => ha (h.symm.trans hend.answer)
  have hm := answer_of_agrees (follows_attempt scene d p i s hi) hsettled
  rw [h] at hm
  obtain ⟨depth, hd⟩ := settles_of_meaning hi hm
  exact ⟨depth, fun d hle => answer_of_meaning hi hm (hd d hle s rfl)⟩

theorem table_of_miss (hi : 0 ≤ i) (h : (attempt scene d p i s).answer = .miss) :
    (attempt scene d p i s).state.table = s.table := by
  have hf := follows_attempt scene d p i s hi
  cases hr : attempt scene d p i s <;> rw [hr] at h hf <;> cases h
  exact hf.2

theorem fill_ne_miss (slot : Option Nat) (span : Span) (n : Nat) (t : Slots) :
    Meaning.fill slot span n t ≠ .miss := by
  unfold Meaning.fill
  split
  · simp
  · split <;> simp

theorem answer_fill (scene : Scene) (id : Nat) (span : Span) (n : Nat) (s : State) :
    (fill scene id span n s).answer = Meaning.fill (scene.store.slot? id) span n s.table.slots :=
  (Option.some.inj
    (answer_of_agrees (agrees_fill scene id span n .refl)
      (not_endless_fill scene id span n s))).symm

/-- The pattern misses at so many positions from `i` on and hits at the next one, tried from the
state at each. -/
structure HitsAfter (scene : Scene) (d : Nat) (p : Pattern) (i : Int) (s : State) (skipped n : Nat)
    (t : Slots) : Prop where
  misses : ∀ l < skipped, ∃ v, attempt scene d p (i + l) s = .miss v
  hits : ∃ v, attempt scene d p (i + skipped) s = .hit n v ∧ v.table.slots = t

theorem hitsAfter_of_meaning (hi : 0 ≤ i)
    (hmiss : ∀ l < k, scene.meaning p (i + l) s.table.slots = some .miss)
    (hhit : scene.meaning p (i + k) s.table.slots = some (.hit n t)) :
    ∃ depth, ∀ d, depth ≤ d → HitsAfter scene d p i s k n t := by
  have misses : ∃ depth, ∀ d, depth ≤ d → ∀ l < k, ∃ v, attempt scene d p (i + l) s = .miss v := by
    clear hhit
    induction k with
    | zero => exact ⟨0, by simp⟩
    | succ k ih =>
      obtain ⟨depth, hd⟩ := ih fun l hl => hmiss l (by omega)
      obtain ⟨depth', hd'⟩ := settles_of_meaning (by omega) (hmiss k (by omega))
      refine ⟨max depth depth', fun d hle l hl => ?_⟩
      rcases Nat.lt_succ_iff_lt_or_eq.1 hl with hl | rfl
      · exact hd d (by omega) l hl
      · obtain ⟨v, hv, -⟩ :=
          result_of_meaning (by omega) (hmiss l (by omega)) (hd' d (by omega) s rfl)
        exact ⟨v, hv⟩
  obtain ⟨depth, hd⟩ := misses
  obtain ⟨depth', hd'⟩ := settles_of_meaning (by omega) hhit
  exact ⟨max depth depth', fun d hle => ⟨hd d (by omega),
    result_of_meaning (by omega) hhit (hd' d (by omega) s rfl)⟩⟩

/-- What a captured search returns where a search returns the first result: the same, but for a hit,
after which it fills its slot with the code points skipped. -/
def Result.FillsSkipped (scene : Scene) (d : Nat) (p : Pattern) (i : Int) (s : State) (id : Nat) :
    Result → Result → Prop
  | .hit n u, r => ∃ skipped length, n = skipped + length ∧
      HitsAfter scene d p i s skipped length u.table.slots ∧
      (fill scene id ⟨i, skipped⟩ n u).Same r
  | r, r' => r.Same r'

theorem fillsSkipped_of_meaning {id id' : Nat} (hi : 0 ≤ i)
    (h : scene.meaning (.search id p) i s.table.slots = some (.hit (k + n) t))
    (h' : scene.meaning (.capturedSearch id' p) i s.table.slots =
      some (Meaning.fill (scene.store.slot? id') ⟨i, k⟩ (k + n) t))
    (he : ¬ (attempt scene d (.search id p) i s).Endless)
    (he' : ¬ (attempt scene d (.capturedSearch id' p) i s).Endless)
    (hafter : HitsAfter scene d p i s k n t) :
    (attempt scene d (.search id p) i s).FillsSkipped scene d p i s id'
      (attempt scene d (.capturedSearch id' p) i s) := by
  obtain ⟨u, hu, rfl⟩ := result_of_meaning hi h he
  rw [hu]
  refine ⟨k, n, rfl, hafter, same_of_answer ?_ fun hmiss => ?_⟩
  · rw [answer_fill, answer_of_meaning hi h' he']
  · rw [answer_fill] at hmiss
    exact absurd hmiss (fill_ne_miss _ _ _ _)

theorem fillsSkipped_of_no_hit {id id' : Nat} {a : Answer} (hi : 0 ≤ i) (ha : ∀ n t, a ≠ .hit n t)
    (h : scene.meaning (.search id p) i s.table.slots = some a)
    (h' : scene.meaning (.capturedSearch id' p) i s.table.slots = some a)
    (he : ¬ (attempt scene d (.search id p) i s).Endless)
    (he' : ¬ (attempt scene d (.capturedSearch id' p) i s).Endless) :
    (attempt scene d (.search id p) i s).FillsSkipped scene d p i s id'
      (attempt scene d (.capturedSearch id' p) i s) := by
  have hanswer := answer_of_meaning hi h he
  have hanswer' := answer_of_meaning hi h' he'
  have hsame := same_of_answer (hanswer.trans hanswer'.symm) fun hmiss => by
    rw [table_of_miss hi hmiss, table_of_miss hi (hanswer'.trans (hanswer.symm.trans hmiss))]
  cases hresult : attempt scene d (.search id p) i s with
  | hit n u =>
    rw [hresult] at hanswer
    exact absurd hanswer.symm (ha n _)
  | miss u =>
    rw [hresult] at hsame
    exact hsame
  | fault f u =>
    rw [hresult] at hsame
    exact hsame

theorem meaning_passes (id seqId starId pairId notId : Nat) (p : Pattern) (t : Slots)
    (hsize : i ≤ scene.subject.size) : scene.meaning (.search id p) i t = scene.meaning
      (Pattern.seq seqId [.star starId (Pattern.seq pairId [.not notId p, .any]), p]) i t := by
  change Meaning.search scene.subject (scene.meaning p) i t = _
  rw [Meaning.search_eq_passes hsize, Scene.meaning, Scene.meaning, Pattern.denote_seq]
  simp only [List.map_cons, List.map_nil, Meaning.inOrder, List.foldr_cons, List.foldr_nil,
    Meaning.andThen_nothing, Pattern.denote, Pattern.denote_seq]
  rfl

/-- A search is `(!p .)* p`, with the same results and the same captures. Both nest without end, or
a captured search returns from some depth on what the search does and fills its slot, if it has one
in the table, with the code points in front of what was found. -/
theorem search_as_repetition (scene : Scene) (id id' seqId starId pairId notId : Nat) (p : Pattern)
    (i : Int) (hi : 0 ≤ i) (hsize : i ≤ scene.subject.size) (s : State) :
    let search := fun d => attempt scene d (.search id p) i s
    let captured := fun d => attempt scene d (.capturedSearch id' p) i s
    SameAt scene (.search id p)
      (Pattern.seq seqId [.star starId (Pattern.seq pairId [.not notId p, .any]), p]) i s ∧
    ((∀ d, (search d).Endless ∧ (captured d).Endless) ∨
      ∃ depth, ∀ d, depth ≤ d → ¬ (search d).Endless ∧ ¬ (captured d).Endless ∧
        (search d).FillsSkipped scene d p i s id' (captured d)) := by
  intro search captured
  refine ⟨(sameAt_iff_meaning hi).2 (meaning_passes id seqId starId pairId notId p _ hsize), ?_⟩
  rcases Meaning.seek_cases (scene.meaning p) i s.table.slots (positions scene.subject i) 0 with
    ⟨k, n, t, hmiss, hhit, hfound⟩ | ⟨r, hr, hfound⟩
  · simp only [Nat.zero_add] at hmiss hhit hfound
    have hsearch : scene.meaning (.search id p) i s.table.slots = some (.hit (k + n) t) := hfound _
    have hcaptured : scene.meaning (.capturedSearch id' p) i s.table.slots =
        some (Meaning.fill (scene.store.slot? id') ⟨i, k⟩ (k + n) t) := hfound _
    obtain ⟨depth, hd⟩ := settles_of_meaning hi hsearch
    obtain ⟨depth', hd'⟩ := settles_of_meaning hi hcaptured
    obtain ⟨depth'', hafter⟩ := hitsAfter_of_meaning hi hmiss hhit
    refine .inr ⟨max depth (max depth' depth''), fun d hle => ?_⟩
    have he := hd d (by omega) s rfl
    have he' := hd' d (by omega) s rfl
    exact ⟨he, he', fillsSkipped_of_meaning hi hsearch hcaptured he he' (hafter d (by omega))⟩
  · have hsearch : scene.meaning (.search id p) i s.table.slots = r := hfound _
    have hcaptured : scene.meaning (.capturedSearch id' p) i s.table.slots = r := hfound _
    cases r with
    | none => exact .inl fun d => ⟨endless_of_none hi hsearch, endless_of_none hi hcaptured⟩
    | some a =>
      obtain ⟨depth, hd⟩ := settles_of_meaning hi hsearch
      obtain ⟨depth', hd'⟩ := settles_of_meaning hi hcaptured
      refine .inr ⟨max depth depth', fun d hle => ?_⟩
      have he := hd d (by omega) s rfl
      have he' := hd' d (by omega) s rfl
      exact ⟨he, he',
        fillsSkipped_of_no_hit hi (fun n t h => hr n t (congrArg some h)) hsearch hcaptured he he'⟩

/-- `@({'a'} $1)` skips the `a` in front of the `b`, which it captures and then drops. As a captured
search it keeps that two code points were skipped. -/
theorem doubled_rune_is_sought :
    let scene : Scene :=
      { subject := #['a', 'b', 'a', 'a'], store := { slots := [(32, 0), (41, 1)] }, origin := 0 }
    let doubled : Pattern := .sequence 35 [.capture 32 (.char 33 'a'), .backref 34 .exact 0]
    let passing : Pattern :=
      Pattern.seq 37 [.star 38 (Pattern.seq 39 [.not 40 doubled, .any]), doubled]
    let s : State := { table := .ofCapacity 2 }
    (0 : Int) ≤ 0 ∧ (0 : Int) ≤ scene.subject.size ∧ SameAt scene (.search 36 doubled) passing 0 s ∧
      ∃ depth, ∀ d, depth ≤ d → (attempt scene d (.search 36 doubled) 0 s).answer =
      .hit 4 ⟨2, #[some ⟨2, 1⟩, none]⟩ ∧ (attempt scene d passing 0 s).answer =
      .hit 4 ⟨2, #[some ⟨2, 1⟩, none]⟩ ∧ (attempt scene d (.capturedSearch 41 doubled) 0 s).answer =
      .hit 4 ⟨2, #[some ⟨2, 1⟩, some ⟨0, 2⟩]⟩ ∧
      (attempt scene d (.search 36 doubled) 0 s).FillsSkipped scene d doubled 0 s 41
        (attempt scene d (.capturedSearch 41 doubled) 0 s) := by
  intro scene doubled passing s
  obtain ⟨hsame, hcaptured⟩ :=
    search_as_repetition scene 36 41 37 38 39 40 doubled 0 (by decide) (by decide) s
  obtain ⟨depth₁, hsearch⟩ : ∃ depth, ∀ d, depth ≤ d →
      (attempt scene d (.search 36 doubled) 0 s).answer = .hit 4 ⟨2, #[some ⟨2, 1⟩, none]⟩ :=
    answer_from (d := 10) (Int.le_refl 0) (by decide +kernel) (by decide)
  obtain ⟨depth₂, hpassing⟩ : ∃ depth, ∀ d, depth ≤ d →
      (attempt scene d passing 0 s).answer = .hit 4 ⟨2, #[some ⟨2, 1⟩, none]⟩ :=
    answer_from (d := 10) (Int.le_refl 0) (by decide +kernel) (by decide)
  obtain ⟨depth₃, hfilled⟩ : ∃ depth, ∀ d, depth ≤ d →
      (attempt scene d (.capturedSearch 41 doubled) 0 s).answer =
      .hit 4 ⟨2, #[some ⟨2, 1⟩, some ⟨0, 2⟩]⟩ :=
    answer_from (d := 10) (Int.le_refl 0) (by decide +kernel) (by decide)
  refine ⟨by decide, by decide, hsame, ?_⟩
  rcases hcaptured with hend | ⟨depth, hd⟩
  · cases (hsearch depth₁ (Nat.le_refl _)).symm.trans (hend depth₁).1.answer
  · refine ⟨max depth (max depth₁ (max depth₂ depth₃)), fun d hle =>
      ⟨?_, ?_, ?_, (hd d (by omega)).2.2⟩⟩
    · exact hsearch d (by omega)
    · exact hpassing d (by omega)
    · exact hfilled d (by omega)

end Matching

end PegMatch

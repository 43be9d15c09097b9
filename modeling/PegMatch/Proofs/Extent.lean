import PegMatch.Proofs.Meaning

set_option autoImplicit false

namespace PegMatch

namespace Subject

/-- Nothing is consumed, or what is consumed lies in the subject. -/
def Fits (s : Subject) (i : Int) (n : Nat) : Prop :=
  n = 0 ∨ i + n ≤ s.size

theorem holds_le {s : Subject} {t : Text} {k : Nat} (h : s.holds t k = true) :
    t = [] ∨ k + t.length ≤ s.size := by
  induction t generalizing k with
  | nil => exact .inl rfl
  | cons c t ih =>
    simp only [holds, Bool.and_eq_true, beq_iff_eq] at h
    obtain ⟨hc, ht⟩ := h
    obtain ⟨hk, -⟩ := Array.getElem?_eq_some_iff.1 hc
    refine .inr ?_
    rcases ih ht with rfl | hl
    · simp; omega
    · simp only [List.length_cons]; omega

theorem fits_of_startsWith {s : Subject} {t : Text} {i : Int} (h : s.startsWith t i = true) :
    s.Fits i t.length := by
  simp only [startsWith, Bool.and_eq_true, decide_eq_true_eq] at h
  obtain ⟨hle, hh⟩ := h
  rcases holds_le hh with rfl | hl
  · exact .inl rfl
  · refine .inr ?_
    unfold cut at hl
    split at hl <;> omega

theorem fits_of_one {s : Subject} {test : Nat → Bool} {i : Int} {n : Nat}
    (h : s.one test i = .ok (some n)) : s.Fits i n := by
  simp only [one] at h
  split at h
  · split at h
    · cases h
    · split at h
      · cases h; exact .inr (by omega)
      · cases h
  · cases h

theorem fits_of_lineBreak {s : Subject} {i : Int} {n : Nat}
    (h : s.lineBreak i = .ok (some n)) : s.Fits i n := by
  simp only [lineBreak] at h
  split at h
  · next hs => cases h; exact fits_of_startsWith hs
  · exact fits_of_one h

theorem runEnd_le {s : Subject} {test : Nat → Bool} {room : Nat} {i j : Int}
    (h : s.runEnd test room i = .ok j) : i ≤ j ∧ j ≤ i + room := by
  induction room generalizing i with
  | zero => cases h; simp
  | succ room ih =>
    simp only [runEnd] at h
    split at h
    · cases h
    · split at h
      · have := ih h; omega
      · cases h; omega

theorem fits_of_runLength {s : Subject} {test : Nat → Bool} {i : Int} {n : Nat}
    (h : s.runLength test i = .ok n) : s.Fits i n := by
  simp only [runLength, bind, Except.bind] at h
  split at h
  · cases h
  · next j hj =>
    have := runEnd_le hj
    cases h
    simp only [Fits, room] at this ⊢
    omega

theorem styleEnd_le {s : Subject} {t : Text} {j k : Int} (h : s.styleEnd t j = .ok (some k)) :
    j ≤ k ∧ (k = j ∨ k ≤ s.size) := by
  induction t generalizing j with
  | nil => cases h; simp
  | cons a t ih =>
    simp only [styleEnd] at h
    split at h
    · exact ih h
    · simp only [bind, Except.bind] at h
      split at h
      · cases h
      · next l hl =>
        have := runEnd_le hl
        split at h
        · cases h
        · split at h
          · cases h
          · split at h
            · have := ih h; omega
            · cases h

theorem fits_of_compare {s : Subject} {how : Comparison} {i : Int} {t : Text} {n : Nat}
    (h : s.compare how i t = .ok (some n)) : s.Fits i n := by
  cases how with
  | exact =>
    simp only [compare, exactly, Except.ok.injEq] at h
    split at h
    · next hs => cases h; exact fits_of_startsWith hs
    · cases h
  | ignoreCase =>
    simp only [compare, ignoringCase, Except.ok.injEq] at h
    split at h
    · cases h
    · split at h
      · cases h; exact .inr (by omega)
      · cases h
  | ignoreStyle =>
    simp only [compare, ignoringStyle, bind, Except.bind] at h
    split at h
    · cases h
    · next o ho =>
      simp only [Except.ok.injEq, Option.map_eq_some_iff] at h
      obtain ⟨k, rfl, rfl⟩ := h
      have := styleEnd_le ho
      simp only [Fits]
      omega

theorem at?_eq_some {s : Subject} {i : Int} (hi : 0 ≤ i) (h : i < s.size) :
    ∃ c, s.at? i = some c := by
  have hn : i.toNat < s.size := by omega
  exact ⟨s[i.toNat], by simp [at?, hi, hn]⟩

theorem one_ok {s : Subject} {i : Int} (hi : 0 ≤ i) (test : Nat → Bool) :
    ∃ o, s.one test i = .ok o := by
  simp only [one]
  split
  · next h =>
    obtain ⟨c, hc⟩ := at?_eq_some hi h
    simp [hc]
  · exact ⟨none, rfl⟩

theorem lineBreak_ok {s : Subject} {i : Int} (hi : 0 ≤ i) : ∃ o, s.lineBreak i = .ok o := by
  simp only [lineBreak]
  split
  · exact ⟨_, rfl⟩
  · exact one_ok hi _

theorem runEnd_ok {s : Subject} {i : Int} (hi : 0 ≤ i) (test : Nat → Bool) {room : Nat}
    (hr : room ≤ s.room i) : ∃ j, s.runEnd test room i = .ok j := by
  induction room generalizing i with
  | zero => exact ⟨i, rfl⟩
  | succ room ih =>
    simp only [Subject.room] at hr
    obtain ⟨c, hc⟩ := at?_eq_some (s := s) hi (by omega)
    simp only [runEnd, hc]
    split
    · exact ih (by omega) (by simp only [Subject.room]; omega)
    · exact ⟨i, rfl⟩

theorem runLength_ok {s : Subject} {i : Int} (hi : 0 ≤ i) (test : Nat → Bool) :
    ∃ n, s.runLength test i = .ok n := by
  obtain ⟨j, hj⟩ := runEnd_ok hi test (Nat.le_refl (s.room i))
  exact ⟨_, by simp only [runLength, hj]; rfl⟩

theorem styleEnd_ok {s : Subject} {j : Int} (hj : 0 ≤ j) (t : Text) :
    ∃ o, s.styleEnd t j = .ok o := by
  induction t generalizing j with
  | nil => exact ⟨_, rfl⟩
  | cons a t ih =>
    simp only [styleEnd]
    split
    · exact ih hj
    · obtain ⟨k, hk⟩ := runEnd_ok hj (· == '_'.toNat) (Nat.le_refl (s.room j))
      have hjk := runEnd_le hk
      simp only [hk, bind, Except.bind]
      split
      · exact ⟨_, rfl⟩
      · obtain ⟨c, hc⟩ := at?_eq_some (s := s) (i := k) (by omega) (by omega)
        simp only [hc]
        split
        · exact ih (by omega)
        · exact ⟨_, rfl⟩

theorem compare_ok {s : Subject} {i : Int} (hi : 0 ≤ i) (how : Comparison) (t : Text) :
    ∃ o, s.compare how i t = .ok o := by
  cases how with
  | exact => exact ⟨_, rfl⟩
  | ignoreCase => exact ⟨_, rfl⟩
  | ignoreStyle =>
    obtain ⟨o, ho⟩ := styleEnd_ok (s := s) hi t
    exact ⟨_, by simp only [compare, ignoringStyle, ho]; rfl⟩

end Subject

namespace Meaning

def Inside (s : Subject) (m : Meaning) : Prop :=
  ∀ i t n u, m i t = some (.hit n u) → s.Fits i n

variable {s : Subject} {m k : Meaning}

theorem inside_nothing : Inside s nothing := by
  intro i t n u h
  cases h
  exact .inl rfl

theorem inside_never : Inside s never := by
  intro i t n u h
  cases h

theorem inside_wrong (f : Fault) : Inside s (wrong f) := by
  intro i t n u h
  cases h

theorem inside_ofComparison {x : Int → Except Fault (Option Nat)}
    (hx : ∀ i n, x i = .ok (some n) → s.Fits i n) : Inside s (ofComparison x) := by
  intro i t n u h
  simp only [ofComparison] at h
  split at h
  · next hn => cases h; exact hx i n hn
  · cases h
  · cases h

theorem inside_andThen (hm : Inside s m) (hk : Inside s k) : Inside s (andThen m k) := by
  intro i t n u h
  simp only [andThen] at h
  split at h
  · next l v hl =>
    obtain ⟨a, ha, he⟩ := Option.map_eq_some_iff.1 h
    cases a with
    | miss => cases he
    | fault f => cases he
    | hit n' v' =>
      cases he
      have h1 := hm i t l v hl
      have h2 := hk (i + l) v n' _ ha
      simp only [Subject.Fits] at h1 h2 ⊢
      omega
  · exact hm i t n u h

theorem inside_orElse (hm : Inside s m) (hk : Inside s k) : Inside s (orElse m k) := by
  intro i t n u h
  simp only [orElse] at h
  split at h
  · exact hk i t n u h
  · exact hm i t n u h

theorem inside_inOrder {ms : List Meaning} (h : ∀ m ∈ ms, Inside s m) : Inside s (inOrder ms) := by
  induction ms with
  | nil => exact inside_nothing
  | cons m ms ih => exact inside_andThen (h m (by simp)) (ih fun k hk => h k (by simp [hk]))

theorem inside_firstOf {ms : List Meaning} (h : ∀ m ∈ ms, Inside s m) : Inside s (firstOf ms) := by
  induction ms with
  | nil => exact inside_never
  | cons m ms ih => exact inside_orElse (h m (by simp)) (ih fun k hk => h k (by simp [hk]))

theorem inside_peek (m : Meaning) : Inside s (peek m) := by
  intro i t n u h
  obtain ⟨a, -, he⟩ := Option.map_eq_some_iff.1 h
  cases a <;> cases he
  exact .inl rfl

theorem inside_not (m : Meaning) : Inside s (not m) := by
  intro i t n u h
  obtain ⟨a, -, he⟩ := Option.map_eq_some_iff.1 h
  cases a <;> cases he
  exact .inl rfl

theorem inside_within (hm : Inside s m) (times : Nat) : Inside s (within m times) := by
  induction times with
  | zero =>
    intro i t n u h
    cases h
  | succ times ih =>
    intro i t n u h
    simp only [within] at h
    split at h
    · cases h; exact .inl rfl
    · next l v hl =>
      obtain ⟨a, ha, he⟩ := Option.map_eq_some_iff.1 h
      cases a with
      | miss => cases he
      | fault f => cases he
      | hit n' v' =>
        cases he
        have h1 := hm i t _ v hl
        have h2 := ih _ v n' _ ha
        simp only [Subject.Fits] at h1 h2 ⊢
        omega
    · cases h; exact .inl rfl
    · exact hm i t n u h

theorem length_of_fill {slot : Option Nat} {span : Span} {length n : Nat} {t u : Slots}
    (h : fill slot span length t = .hit n u) : n = length := by
  simp only [fill] at h
  split at h
  · cases h
  · split at h
    · cases h; rfl
    · cases h

theorem inside_capture (slot : Option Nat) (hm : Inside s m) : Inside s (capture slot m) := by
  intro i t n u h
  obtain ⟨a, ha, he⟩ := Option.map_eq_some_iff.1 h
  cases a with
  | miss => cases he
  | fault f => cases he
  | hit l v =>
    have hn := length_of_fill he
    subst hn
    exact hm i t _ v ha

/-- Whatever a search makes of its find, it consumes what it skipped and what it found. -/
theorem fits_of_seek (hm : Inside s m) {found : Nat → Nat → Slots → Answer}
    (hf : ∀ skipped l t n u, found skipped l t = .hit n u → n = skipped + l) {i : Int} {t u : Slots}
    {n count skipped : Nat} (hc : i + skipped + count ≤ s.size + 1)
    (h : seek m found i t count skipped = some (.hit n u)) : s.Fits i n := by
  induction count generalizing skipped with
  | zero => cases h
  | succ count ih =>
    simp only [seek] at h
    split at h
    · next l v hl =>
      have h1 := hm _ t l v hl
      have h2 := hf _ _ _ _ _ (Option.some.inj h)
      simp only [Subject.Fits] at h1 ⊢
      omega
    · exact ih (by omega) h
    · next hn _ => exact (hn n u h).elim

theorem positions_le {i : Int} {count : Nat} (hi : 0 < Matching.positions s i)
    (hc : count = Matching.positions s i) : i + count ≤ s.size + 1 := by
  simp only [Matching.positions] at hi hc
  omega

theorem inside_seek (hm : Inside s m) (found : Int → Nat → Nat → Slots → Answer)
    (hf : ∀ i skipped l t n u, found i skipped l t = .hit n u → n = skipped + l) :
    Inside s fun i t => seek m (found i) i t (Matching.positions s i) 0 := by
  intro i t n u h
  rcases Nat.eq_zero_or_pos (Matching.positions s i) with h0 | hp
  · simp [h0, seek] at h
  · have := positions_le hp rfl
    exact fits_of_seek hm (hf i) (by simpa using this) h

end Meaning

namespace Pattern

open Meaning

theorem inside_denote (env : Env) (hc : ∀ r, Inside env.subject (env.call r))
    (hr : ∀ r, Inside env.subject (env.rule r)) (p : Pattern) :
    Inside env.subject (p.denote env) := by
  induction p using induction_children with
  | node p ih =>
    have below {ps : List Pattern} (hp : ∀ q ∈ ps, Inside env.subject (q.denote env)) :
        ∀ m ∈ denoteEach env ps, Inside env.subject m := by
      simp only [denoteEach_eq_map, List.mem_map]
      rintro m ⟨q, hq, rfl⟩
      exact hp q hq
    have char : Inside env.subject (Pattern.any.denote env) := by
      intro i t n u h
      simp only [denote, Option.some.injEq] at h
      split at h
      · cases h; exact .inr (by omega)
      · cases h
    cases p with
    | empty => exact inside_nothing
    | any => exact char
    | anyRune => exact char
    | newline => exact inside_ofComparison fun i n h => Subject.fits_of_lineBreak h
    | startAnchor =>
      intro i t n u h
      simp only [denote, Option.some.injEq] at h
      split at h
      · cases h; exact .inl rfl
      · cases h
    | category c => exact inside_ofComparison fun i n h => Subject.fits_of_one h
    | literal id how t => exact inside_ofComparison fun i n h => Subject.fits_of_compare h
    | valued id how v => cases how <;> exact inside_wrong _
    | char id c => exact inside_ofComparison fun i n h => Subject.fits_of_one h
    | set id members sense => exact inside_ofComparison fun i n h => Subject.fits_of_one h
    | call id r => exact hc r
    | rule id r => exact hr r
    | grammar id start others => exact hc start.2
    | sequence id items => exact inside_inOrder (below ih)
    | choice id items => exact inside_firstOf (below ih)
    | star id p =>
      exact fun i => inside_within (ih p (by simp [children])) (env.subject.room i + 1) i
    | starChar id c =>
      refine inside_ofComparison fun i n h => ?_
      cases hl : env.subject.runLength (· == c) i with
      | error f => simp [hl, Except.map] at h
      | ok l => simp [hl, Except.map] at h; exact Subject.fits_of_runLength (h ▸ hl)
    | starSet id members sense =>
      refine inside_ofComparison fun i n h => ?_
      cases hl : env.subject.runLength (fun c => sense.admits (members.contains c)) i with
      | error f => simp [hl, Except.map] at h
      | ok l => simp [hl, Except.map] at h; exact Subject.fits_of_runLength (h ▸ hl)
    | starAny =>
      intro i t n u h
      cases h
      simp only [Subject.Fits, Subject.room]
      omega
    | option id p => exact inside_orElse (ih p (by simp [children])) inside_nothing
    | peek id p => exact inside_peek _
    | not id p => exact inside_not _
    | search id p =>
      exact inside_seek (ih p (by simp [children])) (fun _ skipped n t => .hit (skipped + n) t)
        fun _ _ _ _ _ _ h => by cases h; rfl
    | capture id p => exact inside_capture _ (ih p (by simp [children]))
    | capturedSearch id p =>
      exact inside_seek (ih p (by simp [children]))
        (fun i skipped n t => fill (env.slot id) ⟨i, skipped⟩ (skipped + n) t)
        fun _ _ _ _ _ _ h => length_of_fill h
    | backref id how slot =>
      intro i t n u h
      simp only [denote, Meaning.backref] at h
      split at h
      · cases h
      · exact inside_ofComparison (fun i n h => Subject.fits_of_compare h) i t n u h
      · cases h

end Pattern

namespace Matching.Scene

open Meaning

theorem inside_env {scene : Scene} {body : Nat → Meaning} (h : ∀ r, Inside scene.subject (body r)) :
    (∀ r, Inside scene.subject ((scene.env body).call r)) ∧
      ∀ r, Inside scene.subject ((scene.env body).rule r) := by
  refine ⟨fun r => ?_, fun r => ?_⟩
  · simp only [env]
    split
    · exact h r
    · exact inside_wrong _
    · exact inside_wrong _
  · simp only [env]
    split
    · exact h r
    · exact inside_wrong _
    · exact inside_wrong _

theorem inside_body (scene : Scene) (r : Nat) : Inside scene.subject (scene.body r) := by
  intro i t n u h
  refine scene.body_induction
    (fun _ i _ a => ∀ n u, a = .hit n u → scene.subject.Fits i n) ?_ h n u rfl
  intro body ih r p i t a _ h n u ha
  have hbody (r : Nat) : Inside scene.subject (body r) :=
    fun i t n u hb => ih r i t _ hb n u rfl
  obtain ⟨hc, hr⟩ := inside_env hbody
  exact p.inside_denote (scene.env body) hc hr i t n u (ha ▸ h)

theorem inside_meaning (scene : Scene) (p : Pattern) : Inside scene.subject (scene.meaning p) :=
  p.inside_denote (scene.env scene.body) (inside_env scene.inside_body).1
    (inside_env scene.inside_body).2

end Matching.Scene

end PegMatch

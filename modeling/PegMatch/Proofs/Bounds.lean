import PegMatch.Proofs.Construction
import PegMatch.Proofs.Termination

set_option autoImplicit false

/-! Where matches and captures lie. A match ends inside the subject, and what is captured on the way
lies between its start and the end of the subject. Only a predicate can capture what lies behind the
end of the match. -/

namespace PegMatch

namespace Span

/-- The span lies between two positions. -/
def Within (lo hi : Int) (span : Span) : Prop :=
  lo ≤ span.start ∧ 0 ≤ span.length ∧ span.stop ≤ hi

theorem Within.mono {lo hi lo' hi' : Int} {span : Span} (h : span.Within lo hi) (hlo : lo' ≤ lo)
    (hhi : hi ≤ hi') : span.Within lo' hi' := by
  simp only [Within] at h ⊢
  omega

end Span

namespace Slots

/-- Every slot of the second table is as in the first or was filled with a span between the
positions. -/
def Filled (lo hi : Int) (t u : Slots) : Prop :=
  ∀ k : Nat, u.spans[k]? = t.spans[k]? ∨ ∃ span, u.spans[k]? = some (some span) ∧ span.Within lo hi

variable {lo hi lo' hi' : Int} {t u v : Slots}

theorem Filled.refl (lo hi : Int) (t : Slots) : Filled lo hi t t :=
  fun _ => .inl rfl

theorem Filled.mono (h : Filled lo hi t u) (hlo : lo' ≤ lo) (hhi : hi ≤ hi') :
    Filled lo' hi' t u := by
  intro k
  rcases h k with h | ⟨span, hs, hw⟩
  · exact .inl h
  · exact .inr ⟨span, hs, hw.mono hlo hhi⟩

theorem Filled.trans (h : Filled lo hi t u) (h' : Filled lo hi u v) : Filled lo hi t v := by
  intro k
  rcases h' k with hv | hv
  · rw [hv]
    exact h k
  · exact .inr hv

theorem filled_set {slot : Nat} {span : Span} (h : t.set slot span = .ok u)
    (hw : span.Within lo hi) : Filled lo hi t u := by
  simp only [set] at h
  split at h
  · cases h
    intro k
    by_cases hk : slot = k
    · subst hk
      by_cases hlt : slot < t.spans.size
      · exact .inr ⟨span, by simp [hlt], hw⟩
      · left
        rw [Array.setIfInBounds_eq_of_size_le (by omega)]
    · left
      simp [hk]
  · cases h

end Slots

namespace Subject

/-- How far captures may reach in a match of length `n` at `i`: to its end if it is tight, and else
to the end of the subject. -/
def reach (s : Subject) (tight : Bool) (i : Int) (n : Nat) : Int :=
  if tight then i + n else s.size

variable {s : Subject} {tight : Bool} {i : Int}

theorem le_reach {n : Nat} (h : i + n ≤ s.size) : i + n ≤ s.reach tight i n := by
  unfold reach
  split <;> omega

theorem reach_mono {n n' : Nat} (h : n ≤ n') : s.reach tight i n ≤ s.reach tight i n' := by
  unfold reach
  split <;> omega

theorem reach_add (n n' : Nat) : s.reach tight (i + n) n' = s.reach tight i (n + n') := by
  unfold reach
  split <;> omega

theorem Fits.le {n : Nat} (h : s.Fits i n) (hi : i ≤ s.size) : i + n ≤ s.size := by
  simp only [Fits] at h
  omega

end Subject

namespace Meaning

/-- What a match captures lies between its start and as far as captures may reach. -/
def Bounded (s : Subject) (tight : Bool) (m : Meaning) : Prop :=
  ∀ (i : Int) (t : Slots) (n : Nat) (u : Slots), i ≤ s.size → m i t = some (.hit n u) →
    t.Filled i (s.reach tight i n) u

variable {s : Subject} {tight : Bool} {m k : Meaning}

theorem bounded_of_keeps (h : Keeps m) : Bounded s tight m := by
  intro i t n u _ hit
  rw [h i t n u hit]
  exact .refl _ _ _

theorem filled_after {i : Int} {t u v : Slots} {n n' : Nat} (h : t.Filled i (s.reach tight i n) u)
    (h' : u.Filled (i + n) (s.reach tight (i + n) n') v) :
    t.Filled i (s.reach tight i (n + n')) v := by
  have hfirst := h.mono (Int.le_refl i) (Subject.reach_mono (Nat.le_add_right n n'))
  have hle : i ≤ i + n := by omega
  have hsecond := h'.mono hle (Int.le_of_eq (Subject.reach_add n n'))
  exact hfirst.trans hsecond

theorem bounded_andThen (hin : Inside s m) (hm : Bounded s tight m) (hk : Bounded s tight k) :
    Bounded s tight (andThen m k) := by
  intro i t n u hi hit
  simp only [andThen] at hit
  split at hit
  · next l v hl =>
    obtain ⟨a, ha, he⟩ := Option.map_eq_some_iff.1 hit
    cases a <;> cases he
    have hle := (hin i t l v hl).le hi
    exact filled_after (hm i t l v hi hl) (hk _ v _ _ hle ha)
  · exact hm i t n u hi hit

theorem bounded_orElse (hm : Bounded s tight m) (hk : Bounded s tight k) :
    Bounded s tight (orElse m k) := by
  intro i t n u hi hit
  simp only [orElse] at hit
  split at hit
  · exact hk i t n u hi hit
  · exact hm i t n u hi hit

theorem bounded_inOrder {ms : List Meaning} (hin : ∀ m ∈ ms, Inside s m)
    (h : ∀ m ∈ ms, Bounded s tight m) : Bounded s tight (inOrder ms) := by
  induction ms with
  | nil => exact bounded_of_keeps keeps_nothing
  | cons m ms ih =>
    have hrest := ih (fun k hk => hin k (by simp [hk])) fun k hk => h k (by simp [hk])
    exact bounded_andThen (hin m (by simp)) (h m (by simp)) hrest

theorem bounded_firstOf {ms : List Meaning} (h : ∀ m ∈ ms, Bounded s tight m) :
    Bounded s tight (firstOf ms) := by
  induction ms with
  | nil => intro i t n u _ hit; cases hit
  | cons m ms ih => exact bounded_orElse (h m (by simp)) (ih fun k hk => h k (by simp [hk]))

theorem bounded_peek (hm : Bounded s tight m) (h : tight = true → Keeps m) :
    Bounded s tight (peek m) := by
  intro i t n u hi hit
  obtain ⟨a, ha, he⟩ := Option.map_eq_some_iff.1 hit
  cases a <;> cases he
  cases tight with
  | false => exact (hm i t _ _ hi ha).mono (Int.le_refl i) (Int.le_refl s.size)
  | true =>
    rw [h rfl i t _ _ ha]
    exact .refl _ _ _

theorem bounded_within (hin : Inside s m) (hm : Bounded s tight m) (times : Nat) :
    Bounded s tight (within m times) := by
  induction times with
  | zero => intro i t n u _ hit; cases hit
  | succ times ih =>
    intro i t n u hi hit
    simp only [within] at hit
    split at hit
    · next v hv =>
      cases hit
      exact hm i t 0 u hi hv
    · next l v hl =>
      obtain ⟨a, ha, he⟩ := Option.map_eq_some_iff.1 hit
      cases a <;> cases he
      have hle := (hin i t _ v hl).le hi
      exact filled_after (hm i t _ v hi hl) (ih _ v _ _ hle ha)
    · cases hit
      exact .refl _ _ _
    · exact hm i t n u hi hit

theorem filled_fill {slot : Option Nat} {span : Span} {length n : Nat} {lo hi : Int} {t u : Slots}
    (hw : span.Within lo hi) (h : fill slot span length t = .hit n u) : t.Filled lo hi u := by
  simp only [fill] at h
  split at h
  · cases h
  · split at h
    · next hset =>
      cases h
      exact Slots.filled_set hset hw
    · cases h

theorem bounded_capture (slot : Option Nat) (hin : Inside s m) (hm : Bounded s tight m) :
    Bounded s tight (capture slot m) := by
  intro i t n u hi hit
  obtain ⟨a, ha, he⟩ := Option.map_eq_some_iff.1 hit
  cases a with
  | miss => cases he
  | fault f => cases he
  | hit l v =>
    have hn := length_of_fill he
    subst hn
    have hle := (hin i t n v ha).le hi
    have hw : Span.Within i (s.reach tight i n) ⟨i, n⟩ := by
      have : i + n ≤ s.reach tight i n := Subject.le_reach hle
      simp only [Span.Within, Span.stop]
      omega
    exact (hm i t n v hi ha).trans (filled_fill hw he)

theorem filled_of_seek (hin : Inside s m) (hm : Bounded s tight m)
    {found : Nat → Nat → Slots → Answer} {i : Int} {t u : Slots} {n count skipped : Nat}
    (hc : i + skipped + count ≤ s.size + 1)
    (hf : ∀ (skipped l : Nat) (v : Slots), i + skipped + l ≤ s.size → found skipped l v = .hit n u →
      n = skipped + l ∧ v.Filled i (s.reach tight i n) u)
    (hit : seek m found i t count skipped = some (.hit n u)) :
    t.Filled i (s.reach tight i n) u := by
  induction count generalizing skipped with
  | zero => cases hit
  | succ count ih =>
    simp only [seek] at hit
    split at hit
    · next l v hl =>
      have hle := (hin _ t l v hl).le (by omega)
      obtain ⟨rfl, hfill⟩ := hf skipped l v hle (Option.some.inj hit)
      have hbelow := hm _ t l v (by omega) hl
      rw [Subject.reach_add] at hbelow
      exact (hbelow.mono (by omega) (Int.le_refl _)).trans hfill
    · exact ih (by omega) hit
    · next hno _ => exact (hno n u hit).elim

theorem bounded_seek (hin : Inside s m) (hm : Bounded s tight m)
    (found : Int → Nat → Nat → Slots → Answer)
    (hf : ∀ (i : Int) (skipped l : Nat) (v : Slots) (n : Nat) (u : Slots),
      i + skipped + l ≤ s.size → found i skipped l v = .hit n u → n = skipped + l ∧
      v.Filled i (s.reach tight i n) u) :
    Bounded s tight fun i t => seek m (found i) i t (Matching.positions s i) 0 := by
  intro i t n u hi hit
  have hc : i + (0 : Nat) + Matching.positions s i ≤ s.size + 1 := by
    simp only [Matching.positions]
    omega
  exact filled_of_seek hin hm hc (fun skipped l v => hf i skipped l v n u) hit

end Meaning

namespace Store

/-- The nodes that matching a pattern may come to. -/
inductive Leads (store : Store) (p : Pattern) : Pattern → Prop where
  | self : Leads store p p
  | child {q q' : Pattern} (h : Leads store p q) (hq : q' ∈ q.children) : Leads store p q'
  | enter {q body : Pattern} {r : Nat} (h : Leads store p q) (hr : q.entered? = some r)
      (hb : store.body? r = .ok (some body)) : Leads store p body

theorem Leads.trans {store : Store} {p q q' : Pattern} (h : store.Leads p q)
    (h' : store.Leads q q') : store.Leads p q' := by
  induction h' with
  | self => exact h
  | child _ hq ih => exact .child ih hq
  | enter _ hr hb ih => exact .enter ih hr hb

/-- The call that a grammar stands for leads to nothing that the grammar does not lead to. -/
theorem Leads.of_call {store : Store} {id : Nat} {d : Nat × Nat} {q : Pattern}
    (h : store.Leads (.call id d.2) q) (ds : List (Nat × Nat)) :
    q = .call id d.2 ∨ store.Leads (.grammar id d ds) q := by
  induction h with
  | self => exact .inl rfl
  | child _ hq ih =>
    rcases ih with rfl | ih
    · simp [Pattern.children] at hq
    · exact .inr (.child ih hq)
  | enter _ hr hb ih =>
    rcases ih with rfl | ih
    · exact .inr (.enter .self hr hb)
    · exact .inr (.enter ih hr hb)

end Store

namespace Pattern

def isCapture : Pattern → Bool
  | .capture .. | .capturedSearch .. => true
  | _ => false

/-- Matching the pattern comes to no capture. -/
def Captureless (store : Store) (p : Pattern) : Prop :=
  ∀ q, store.Leads p q → ¬ q.isCapture

/-- No capture that matching may come to lies under an and-predicate. -/
def PeeksPlainly (store : Store) (p : Pattern) : Prop :=
  ∀ id q, store.Leads p (.peek id q) → q.Captureless store

open Meaning Matching

variable {scene : Scene} {body : Nat → Meaning} {tight : Bool}

theorem keeps_of_captureless
    (hbody : ∀ r q, scene.store.body? r = .ok (some q) → q.Captureless scene.store → Keeps (body r))
    (p : Pattern) (hp : p.Captureless scene.store) : Keeps (p.denote (scene.env body)) := by
  have entered {p : Pattern} {r : Nat} (hr : p.entered? = some r) (hp : p.Captureless scene.store) :
      Keeps (p.denote (scene.env body)) := by
    rcases denote_entered scene body hr with ⟨⟨q, hq⟩, he⟩ | ⟨f, he⟩
    · rw [he]
      exact hbody r q hq fun q' hq' => hp q' ((Store.Leads.enter .self hr hq).trans hq')
    · rw [he]
      intro i t n u h
      cases h
  have step {c : Prop} [Decidable c] {k n : Nat} {t u : Slots}
      (h : some (if c then Answer.hit k t else .miss) = some (.hit n u)) : u = t := by
    split at h <;> cases h
    rfl
  induction p using induction_children with
  | node p ih =>
    have below {q : Pattern} (hq : q ∈ p.children) : Keeps (q.denote (scene.env body)) :=
      ih q hq fun q' hq' => hp q' ((Store.Leads.child .self hq).trans hq')
    cases p with
    | empty => exact keeps_nothing
    | any => exact fun i t n u h => step h
    | anyRune => exact fun i t n u h => step h
    | startAnchor => exact fun i t n u h => step h
    | starAny => intro i t n u h; cases h; rfl
    | valued id how v => intro i t n u h; cases how <;> cases h
    | call id r => exact entered rfl hp
    | rule id r => exact entered rfl hp
    | grammar id start others => exact entered rfl hp
    | sequence id items =>
      rw [denote_sequence]
      refine keeps_inOrder fun m hm => ?_
      obtain ⟨q, hq, rfl⟩ := List.mem_map.1 hm
      exact below hq
    | choice id items =>
      rw [denote_choice]
      refine keeps_firstOf fun m hm => ?_
      obtain ⟨q, hq, rfl⟩ := List.mem_map.1 hm
      exact below hq
    | star id q => exact keeps_many (below (by simp [children]))
    | option id q => exact keeps_orElse (below (by simp [children])) keeps_nothing
    | peek id q => exact keeps_peek (below (by simp [children]))
    | not id q => exact keeps_not _
    | search id q => exact keeps_search (below (by simp [children]))
    | capture id q => exact absurd rfl (hp _ .self)
    | capturedSearch id q => exact absurd rfl (hp _ .self)
    | backref id how slot =>
      intro i t n u h
      simp only [denote, Meaning.backref] at h
      split at h
      · cases h
      · exact keeps_ofComparison _ i t n u h
      · cases h
    | _ => exact keeps_ofComparison _

theorem keeps_meaning {p : Pattern} (hp : p.Captureless scene.store) : Keeps (scene.meaning p) := by
  refine keeps_of_captureless (fun r q hq hc i t n u h => ?_) p hp
  refine scene.body_induction (fun r _ t a => ∀ q, scene.store.body? r = .ok (some q) →
    q.Captureless scene.store → ∀ n u, a = .hit n u → u = t) ?_ h q hq hc n u rfl
  intro body ih r q i t a hq h q' hq' hc n u ha
  cases hq.symm.trans hq'
  exact keeps_of_captureless (fun r q hq hc i t n u hb => ih r i t _ hb q hq hc n u rfl) q hc i
    t n u (ha ▸ h)

theorem bounded_denote (below : ∀ r, Below (body r) (scene.body r))
    (hbody : ∀ r q, scene.store.body? r = .ok (some q) →
      (tight = true → q.PeeksPlainly scene.store) → Bounded scene.subject tight (body r))
    (p : Pattern) (hp : tight = true → p.PeeksPlainly scene.store) :
    Bounded scene.subject tight (p.denote (scene.env body)) := by
  have hlow := scene.env_below below
  have hin (p : Pattern) : Inside scene.subject (p.denote (scene.env body)) :=
    fun i t n u h => scene.inside_meaning p i t n u (p.denote_below hlow i t _ h)
  have entered {p : Pattern} {r : Nat} (hr : p.entered? = some r)
      (hp : tight = true → p.PeeksPlainly scene.store) :
      Bounded scene.subject tight (p.denote (scene.env body)) := by
    rcases denote_entered scene body hr with ⟨⟨q, hq⟩, he⟩ | ⟨f, he⟩
    · rw [he]
      exact hbody r q hq fun ht id q' hq' => hp ht id q' ((Store.Leads.enter .self hr hq).trans hq')
    · rw [he]
      intro i t n u _ h
      cases h
  have step {c : Prop} [Decidable c] {k n : Nat} {t u : Slots} {i lo hi : Int}
      (_ : i ≤ scene.subject.size)
      (h : some (if c then Answer.hit k t else .miss) = some (.hit n u)) : t.Filled lo hi u := by
    split at h <;> cases h
    exact .refl _ _ _
  induction p using induction_children with
  | node p ih =>
    have below {q : Pattern} (hq : q ∈ p.children) :
        Bounded scene.subject tight (q.denote (scene.env body)) :=
      ih q hq fun ht id q' hq' => hp ht id q' ((Store.Leads.child .self hq).trans hq')
    cases p with
    | empty => exact bounded_of_keeps keeps_nothing
    | any => exact fun i t n u hi h => step hi h
    | anyRune => exact fun i t n u hi h => step hi h
    | startAnchor => exact fun i t n u hi h => step hi h
    | starAny => intro i t n u _ h; cases h; exact .refl _ _ _
    | valued id how v => intro i t n u _ h; cases how <;> cases h
    | call id r => exact entered rfl hp
    | rule id r => exact entered rfl hp
    | grammar id start others => exact entered rfl hp
    | sequence id items =>
      rw [denote_sequence]
      refine bounded_inOrder (fun m hm => ?_) fun m hm => ?_
      · obtain ⟨q, -, rfl⟩ := List.mem_map.1 hm
        exact hin q
      · obtain ⟨q, hq, rfl⟩ := List.mem_map.1 hm
        exact below hq
    | choice id items =>
      rw [denote_choice]
      refine bounded_firstOf fun m hm => ?_
      obtain ⟨q, hq, rfl⟩ := List.mem_map.1 hm
      exact below hq
    | star id q =>
      have hq := below (q := q) (by simp [children])
      exact fun i t n u hi h => bounded_within (hin q) hq _ i t n u hi h
    | option id q =>
      exact bounded_orElse (below (by simp [children])) (bounded_of_keeps keeps_nothing)
    | peek id q =>
      refine bounded_peek (below (by simp [children])) fun ht i t n u h => ?_
      exact keeps_meaning (hp ht id q .self) i t n u (q.denote_below hlow i t _ h)
    | not id q => exact bounded_of_keeps (keeps_not _)
    | search id q =>
      refine bounded_seek (hin q) (below (by simp [children]))
        (fun _ skipped n t => .hit (skipped + n) t) ?_
      intro i skipped l v n u _ h
      cases h
      exact ⟨rfl, .refl _ _ _⟩
    | capture id q => exact bounded_capture _ (hin q) (below (by simp [children]))
    | capturedSearch id q =>
      refine bounded_seek (hin q) (below (by simp [children]))
        (fun i skipped n t => fill (scene.store.slot? id) ⟨i, skipped⟩ (skipped + n) t) ?_
      intro i skipped l v n u hle h
      have hn := length_of_fill h
      have hreach : i + (n : Int) ≤ scene.subject.reach tight i n := Subject.le_reach (by omega)
      refine ⟨hn, filled_fill ?_ h⟩
      simp only [Span.Within, Span.stop]
      omega
    | backref id how slot =>
      intro i t n u hi h
      simp only [denote, Meaning.backref] at h
      split at h
      · cases h
      · exact bounded_of_keeps (keeps_ofComparison _) i t n u hi h
      · cases h
    | _ => exact bounded_of_keeps (keeps_ofComparison _)

theorem bounded_meaning (tight : Bool) (p : Pattern)
    (hp : tight = true → p.PeeksPlainly scene.store) :
    Bounded scene.subject tight (scene.meaning p) := by
  refine bounded_denote (fun r => .refl _) (fun r q hq hplain i t n u hi h => ?_) p hp
  -- An approximation of the rules must also stay below them, to be known to match inside the
  -- subject.
  refine (scene.body_induction
    (fun r i t a => scene.body r i t = some a ∧ ∀ q, scene.store.body? r = .ok (some q) →
      (tight = true → q.PeeksPlainly scene.store) → ∀ n u, a = .hit n u → i ≤ scene.subject.size →
      t.Filled i (scene.subject.reach tight i n) u) ?_ h).2 q hq hplain n u rfl hi
  intro body ih r q i t a hq h
  have below (r : Nat) : Below (body r) (scene.body r) := fun i t a h => (ih r i t a h).1
  refine ⟨?_, fun q' hq' hplain n u ha hi => ?_⟩
  · rw [Scene.body_eq_meaning hq]
    exact q.denote_below (scene.env_below below) i t a h
  · cases hq.symm.trans hq'
    exact bounded_denote below (fun r q hq hplain i t n u hi hb =>
      (ih r i t _ hb).2 q hq hplain n u rfl hi) q hplain i t n u hi (ha ▸ h)

end Pattern

namespace Matching

open Pattern

theorem slots_reset (table : Captures) (k : Nat) (span : Span) :
    table.reset.slots.spans[k]? ≠ some (some span) := by
  simp only [Captures.reset, Captures.slots, Captures.ofCapacity, Array.getElem?_replicate]
  split <;> simp

theorem within_of_filled {table : Captures} {u : Slots} {lo hi : Int}
    (h : table.reset.slots.Filled lo hi u) {k : Nat} {span : Span}
    (hs : u.spans[k]? = some (some span)) : span.Within lo hi := by
  rcases h k with hk | ⟨span', hspan', hw⟩
  · exact absurd (hk ▸ hs) (slots_reset table k span)
  · rw [hs] at hspan'
    cases hspan'
    exact hw

/-- Where a new match lies that starts inside the subject. It ends inside the subject, and every
slot that it fills holds a span between its start and the end of the subject, or even the end of the
match, if no capture lies under an and-predicate. A miss leaves all slots empty. -/
theorem match_lies_inside (scene : Scene) (table : Captures) (p : Pattern) (i : Int) (hi : 0 ≤ i)
    (hsize : i ≤ scene.subject.size) (depth : Nat) :
    (∀ n u, attempt scene depth p i { table := table.reset } = .hit n u →
      i + n ≤ scene.subject.size ∧
      (∀ (k : Nat) span, u.table.spans[k]? = some (some span) → span.Within i scene.subject.size) ∧
      (p.PeeksPlainly scene.store →
        ∀ (k : Nat) span, u.table.spans[k]? = some (some span) → span.Within i (i + n))) ∧
    ∀ u, attempt scene depth p i { table := table.reset } = .miss u →
      ∀ (k : Nat) span, u.table.spans[k]? ≠ some (some span) := by
  have hfollows := follows_attempt scene depth p i { table := table.reset } hi
  refine ⟨fun n u hit => ?_, fun u miss => ?_⟩
  · rw [hit] at hfollows
    obtain ⟨hm, -⟩ := hfollows
    refine ⟨(scene.inside_meaning p i _ n _ hm).le hsize, fun k span hs => ?_,
      fun hp k span hs => ?_⟩
    · have hloose := bounded_meaning false p (by simp) i _ n _ hsize hm
      exact within_of_filled hloose hs
    · have htight := bounded_meaning true p (fun _ => hp) i _ n _ hsize hm
      exact within_of_filled htight hs
  · rw [miss] at hfollows
    intro k span hs
    have hreset : u.table = table.reset := hfollows.2
    exact slots_reset table k span (hreset ▸ hs)

theorem peeksPlainly_capture_char (store : Store) (id id' : Nat) (c : Char) :
    Pattern.PeeksPlainly store (.capture id (.char id' c)) := by
  have leads {q : Pattern} (h : store.Leads (.capture id (.char id' c)) q) :
      q = .capture id (.char id' c) ∨ q = .char id' c := by
    induction h with
    | self => exact .inl rfl
    | child _ hq ih => rcases ih with rfl | rfl <;> simp_all [children]
    | enter _ hr _ ih => rcases ih with rfl | rfl <;> simp [entered?] at hr
  intro id q h
  rcases leads h with h | h <;> cases h

theorem captured_second_rune :
    let scene : Scene :=
      { subject := #['a', 'b', 'c'], store := { slots := [(32, 0)] }, origin := 1 }
    let p : Pattern := .capture 32 (.char 33 'b')
    (0 : Int) ≤ 1 ∧ (1 : Int) ≤ scene.subject.size ∧ p.PeeksPlainly scene.store ∧
      ∃ u, attempt scene 2 p 1 { table := (Captures.ofCapacity 1).reset } = .hit 1 u ∧
        u.table.spans = #[some ⟨1, 1⟩] ∧ Span.Within 1 (1 + (1 : Nat)) ⟨1, 1⟩ := by
  intro scene p
  have plain := peeksPlainly_capture_char scene.store 32 33 'b'
  have inside := (match_lies_inside scene (.ofCapacity 1) p 1 (by decide) (by decide) 2).1 1 _ rfl
  exact ⟨by decide, by decide, plain, _, rfl, rfl, inside.2.2 plain 0 ⟨1, 1⟩ rfl⟩

end Matching

end PegMatch

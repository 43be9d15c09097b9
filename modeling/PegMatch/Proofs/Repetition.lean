import PegMatch.Proofs.Bounds
import PegMatch.Proofs.Equivalence
import PegMatch.Pattern.Build

set_option autoImplicit false

/-! A repetition of a repetition. The constructor of repetitions returns an operand that is a
repetition itself. That is the loop over it, unless the last turn of the inner loop, which consumes
nothing, fills a slot that changes what the next turn does. -/

namespace PegMatch

namespace Slots

variable {W : Nat → Prop} {t t' u u' v v' : Slots}

structure Apart (W : Nat → Prop) (t u : Slots) : Prop where
  capacity : t.capacity = u.capacity
  size : t.spans.size = u.spans.size
  spans : ∀ k, ¬ W k → t.spans[k]? = u.spans[k]?

theorem Apart.refl (W : Nat → Prop) (t : Slots) : Apart W t t :=
  ⟨rfl, rfl, fun _ _ => rfl⟩

theorem Apart.symm (h : Apart W t u) : Apart W u t :=
  ⟨h.capacity.symm, h.size.symm, fun k hk => (h.spans k hk).symm⟩

theorem Apart.trans (h : Apart W t u) (h' : Apart W u v) : Apart W t v :=
  ⟨h.capacity.trans h'.capacity, h.size.trans h'.size, fun k hk =>
    (h.spans k hk).trans (h'.spans k hk)⟩

theorem apart_set {slot : Nat} {span : Span} (hw : W slot) (h : t.set slot span = .ok u) :
    Apart W t u := by
  unfold set at h
  split at h
  · cases h
    refine ⟨rfl, by simp, fun k hk => ?_⟩
    have hne : slot ≠ k := fun he => hk (he ▸ hw)
    simp [hne]
  · cases h

/-- Two steps from `t` and `t'` that change the same slots, and to the same. -/
structure Parallel (W : Nat → Prop) (t t' u u' : Slots) : Prop where
  left : Apart W t u
  right : Apart W t' u'
  alike : ∀ k : Nat, u.spans[k]? = u'.spans[k]? ∨ u.spans[k]? = t.spans[k]? ∧
    u'.spans[k]? = t'.spans[k]?

theorem Parallel.refl (W : Nat → Prop) (t t' : Slots) : Parallel W t t' t t' :=
  ⟨.refl W t, .refl W t', fun _ => .inr ⟨rfl, rfl⟩⟩

theorem Parallel.trans (h : Parallel W t t' u u') (h' : Parallel W u u' v v') :
    Parallel W t t' v v' := by
  refine ⟨h.left.trans h'.left, h.right.trans h'.right, fun k => ?_⟩
  rcases h'.alike k with hv | ⟨hv, hv'⟩
  · exact .inl hv
  · rw [hv, hv']
    exact h.alike k

theorem Parallel.apart (h : Parallel W t t' u u') (ht : Apart W t t') : Apart W u u' :=
  (h.left.symm.trans ht).trans h.right

theorem Parallel.eq_of_repeated (h : Parallel W t u u v) : v = u := by
  obtain ⟨capacity, spans⟩ := u
  obtain ⟨capacity', spans'⟩ := v
  obtain rfl : capacity = capacity' := h.right.capacity
  congr
  refine Array.ext_getElem? fun k => ?_
  rcases h.alike k with he | ⟨-, he⟩
  · exact he.symm
  · exact he

end Slots

namespace Answer

open Slots

variable {W : Nat → Prop} {t t' u u' : Slots} {a a' : Answer}

/-- The answers from two tables are of one kind, and change the tables in the same way. -/
def Alike (W : Nat → Prop) (t t' : Slots) : Answer → Answer → Prop
  | .hit n u, .hit n' u' => n = n' ∧ Parallel W t t' u u'
  | .miss, .miss => True
  | .fault f, .fault f' => f = f'
  | _, _ => False

theorem Alike.before (h : Parallel W t t' u u') {a a' : Answer} (ha : Alike W u u' a a') (n : Nat) :
    Alike W t t' (a.after n) (a'.after n) := by
  cases a <;> cases a' <;> simp only [Alike, after] at ha ⊢
  case hit.hit => exact ⟨by rw [ha.1], h.trans ha.2⟩
  case fault.fault => exact ha

end Answer

namespace Meaning

open Slots Answer

/-- What the meaning answers, and what it does to the table, does not depend on the slots in `W`,
which are the only ones that it fills. -/
def Steady (W : Nat → Prop) (m : Meaning) : Prop :=
  ∀ i t t' a, Apart W t t' → m i t = some a → ∃ a', m i t' = some a' ∧ Alike W t t' a a'

variable {W : Nat → Prop} {m k : Meaning}

theorem steady_nothing : Steady W nothing := by
  intro i t t' a _ h
  cases h
  exact ⟨.hit 0 t', rfl, rfl, .refl W t t'⟩

theorem steady_wrong (f : Fault) : Steady W (wrong f) := by
  intro i t t' a _ h
  cases h
  exact ⟨.fault f, rfl, rfl⟩

theorem steady_test (c : Int → Prop) [DecidablePred c] (n : Int → Nat) :
    Steady W fun i t => some (if c i then .hit (n i) t else .miss) := by
  intro i t t' a _ h
  refine ⟨_, rfl, ?_⟩
  cases h
  split
  · exact ⟨rfl, .refl W t t'⟩
  · trivial

theorem steady_ofComparison (x : Int → Except Fault (Option Nat)) : Steady W (ofComparison x) := by
  intro i t t' a _ h
  simp only [ofComparison] at h ⊢
  split at h
  · cases h
    exact ⟨_, rfl, rfl, .refl W t t'⟩
  · cases h
    exact ⟨_, rfl, trivial⟩
  · cases h
    exact ⟨_, rfl, rfl⟩

theorem steady_andThen (hm : Steady W m) (hk : Steady W k) : Steady W (andThen m k) := by
  intro i t t' a ht h
  simp only [andThen] at h ⊢
  cases hr : m i t with
  | none => simp [hr] at h
  | some b =>
    obtain ⟨b', hb', hb⟩ := hm i t t' b ht hr
    rw [hr] at h
    rw [hb']
    cases b <;> cases b' <;> simp only [Alike] at hb
    case miss.miss => cases h; exact ⟨_, rfl, trivial⟩
    case fault.fault => cases h; exact ⟨_, rfl, hb⟩
    case hit.hit n u n' u' =>
      obtain ⟨rfl, hp⟩ := hb
      obtain ⟨c, hc, rfl⟩ := Option.map_eq_some_iff.1 h
      obtain ⟨c', hc', ha⟩ := hk _ u u' c (hp.apart ht) hc
      exact ⟨c'.after n, by simp [hc'], ha.before hp n⟩

theorem steady_orElse (hm : Steady W m) (hk : Steady W k) : Steady W (orElse m k) := by
  intro i t t' a ht h
  simp only [orElse] at h ⊢
  cases hr : m i t with
  | none => simp [hr] at h
  | some b =>
    obtain ⟨b', hb', hb⟩ := hm i t t' b ht hr
    rw [hr] at h
    rw [hb']
    cases b <;> cases b' <;> simp only [Alike] at hb
    case miss.miss => exact hk i t t' a ht h
    case fault.fault => cases h; exact ⟨_, rfl, hb⟩
    case hit.hit => cases h; exact ⟨_, rfl, hb⟩

theorem steady_inOrder {ms : List Meaning} (h : ∀ m ∈ ms, Steady W m) : Steady W (inOrder ms) := by
  induction ms with
  | nil => exact steady_nothing
  | cons m ms ih => exact steady_andThen (h m (by simp)) (ih fun k hk => h k (by simp [hk]))

theorem steady_firstOf {ms : List Meaning} (h : ∀ m ∈ ms, Steady W m) : Steady W (firstOf ms) := by
  induction ms with
  | nil =>
    intro i t t' a _ h
    cases h
    exact ⟨.miss, rfl, trivial⟩
  | cons m ms ih => exact steady_orElse (h m (by simp)) (ih fun k hk => h k (by simp [hk]))

theorem steady_map {F : Int → Slots → Answer → Answer} (hm : Steady W m)
    (hF : ∀ i t t' a a', Apart W t t' → Alike W t t' a a' → Alike W t t' (F i t a) (F i t' a')) :
    Steady W fun i t => (m i t).map (F i t) := by
  intro i t t' a ht h
  obtain ⟨b, hb, rfl⟩ := Option.map_eq_some_iff.1 h
  obtain ⟨b', hb', ha⟩ := hm i t t' b ht hb
  exact ⟨F i t' b', by simp [hb'], hF i t t' b b' ht ha⟩

theorem steady_peek (hm : Steady W m) : Steady W (peek m) := by
  refine steady_map hm fun i t t' a a' _ ha => ?_
  cases a <;> cases a' <;> simp only [Alike] at ha ⊢
  case hit.hit => exact ⟨trivial, ha.2⟩
  case fault.fault => exact ha

theorem steady_not (hm : Steady W m) : Steady W (not m) := by
  refine steady_map hm fun i t t' a a' _ ha => ?_
  cases a <;> cases a' <;> simp only [Alike] at ha ⊢
  case miss.miss => exact ⟨trivial, .refl W t t'⟩
  case fault.fault => exact ha

theorem steady_within (hm : Steady W m) (times : Nat) : Steady W (within m times) := by
  induction times with
  | zero =>
    intro i t t' a _ h
    cases h
  | succ times ih =>
    intro i t t' a ht h
    simp only [within] at h ⊢
    cases hr : m i t with
    | none => simp [hr] at h
    | some b =>
      obtain ⟨b', hb', hb⟩ := hm i t t' b ht hr
      rw [hr] at h
      rw [hb']
      cases b <;> cases b' <;> simp only [Alike] at hb
      case miss.miss => cases h; exact ⟨_, rfl, rfl, .refl W t t'⟩
      case fault.fault => cases h; exact ⟨_, rfl, hb⟩
      case hit.hit n u n' u' =>
        obtain ⟨rfl, hp⟩ := hb
        cases n with
        | zero => cases h; exact ⟨_, rfl, rfl, hp⟩
        | succ n =>
          obtain ⟨c, hc, rfl⟩ := Option.map_eq_some_iff.1 h
          obtain ⟨c', hc', ha⟩ := ih _ u u' c (hp.apart ht) hc
          exact ⟨c'.after (n + 1), Option.map_eq_some_iff.2 ⟨c', hc', rfl⟩, ha.before hp (n + 1)⟩

theorem steady_seek (hm : Steady W m) {found : Nat → Nat → Slots → Answer} {i : Int} {t t' : Slots}
    (ht : Apart W t t') (hf : ∀ skipped n u u', Parallel W t t' u u' →
      Alike W t t' (found skipped n u) (found skipped n u')) {count skipped : Nat} {a : Answer}
    (h : seek m found i t count skipped = some a) :
    ∃ a', seek m found i t' count skipped = some a' ∧ Alike W t t' a a' := by
  induction count generalizing skipped with
  | zero =>
    cases h
    exact ⟨.miss, rfl, trivial⟩
  | succ count ih =>
    simp only [seek] at h ⊢
    cases hr : m (i + skipped) t with
    | none => simp [hr] at h
    | some b =>
      obtain ⟨b', hb', hb⟩ := hm _ t t' b ht hr
      rw [hr] at h
      rw [hb']
      cases b <;> cases b' <;> simp only [Alike] at hb
      case miss.miss => exact ih h
      case fault.fault => cases h; exact ⟨_, rfl, hb⟩
      case hit.hit n u n' u' =>
        obtain ⟨rfl, hp⟩ := hb
        cases h
        exact ⟨_, rfl, hf skipped n u u' hp⟩

theorem steady_search (s : Subject) (hm : Steady W m) : Steady W (search s m) := by
  intro i t t' a ht h
  refine steady_seek hm ht ?_ h
  exact fun skipped n u u' hp => ⟨rfl, hp⟩

theorem alike_fill {slot : Option Nat} (hs : ∀ k, slot = some k → W k) {t t' u u' : Slots}
    (ht : Apart W t t') (hp : Parallel W t t' u u') (span : Span) (n : Nat) :
    Alike W t t' (fill slot span n u) (fill slot span n u') := by
  have hu := hp.apart ht
  cases slot with
  | none => exact rfl
  | some slot =>
    by_cases hc : (slot : Int) < u.capacity
    · have hset : u.set slot span =
          .ok { u with spans := u.spans.setIfInBounds slot (some span) } := by
        simp [Slots.set, hc]
      have hset' : u'.set slot span =
          .ok { u' with spans := u'.spans.setIfInBounds slot (some span) } := by
        simp [Slots.set, ← hu.capacity, hc]
      simp only [fill, hset, hset']
      refine ⟨rfl,
        hp.trans ⟨apart_set (hs slot rfl) hset, apart_set (hs slot rfl) hset', fun k => ?_⟩⟩
      by_cases hk : slot = k
      · subst hk
        exact .inl (by simp [Array.getElem?_setIfInBounds, hu.size])
      · exact .inr (by simp [hk])
    · simp [fill, Slots.set, ← hu.capacity, hc, Alike]

theorem steady_capture {slot : Option Nat} (hs : ∀ k, slot = some k → W k) (hm : Steady W m) :
    Steady W (capture slot m) := by
  refine steady_map hm fun i t t' a a' ht ha => ?_
  cases a <;> cases a' <;> simp only [Alike] at ha ⊢
  case hit.hit n u n' u' =>
    obtain ⟨rfl, hp⟩ := ha
    exact alike_fill hs ht hp _ n
  case fault.fault => exact ha

theorem steady_capturedSearch (s : Subject) {slot : Option Nat} (hs : ∀ k, slot = some k → W k)
    (hm : Steady W m) : Steady W (capturedSearch s slot m) := by
  intro i t t' a ht h
  refine steady_seek hm ht ?_ h
  exact fun skipped n u u' hp => alike_fill hs ht hp _ _

theorem steady_backref (s : Subject) (how : Comparison) {slot : Nat} (hs : ¬ W slot) :
    Steady W (backref s how slot) := by
  intro i t t' a ht h
  have hspan := ht.spans slot hs
  simp only [backref, Slots.text, ← hspan] at h ⊢
  split at h
  · cases h
    exact ⟨.miss, rfl, trivial⟩
  · exact steady_ofComparison _ i t t' a ht h
  · cases h
    exact ⟨_, rfl, rfl⟩

end Meaning

namespace Pattern

open Meaning Matching

/-- Matching the pattern fills slots in `W` only, and refers to other slots only. -/
structure Confined (store : Store) (W : Nat → Prop) (p : Pattern) : Prop where
  fills : ∀ q k, store.Leads p q → q.isCapture → store.slot? q.id = some k → W k
  refers : ∀ id how k, store.Leads p (.backref id how k) → ¬ W k

theorem Confined.of_leads {store : Store} {W : Nat → Prop} {p q : Pattern} (h : Confined store W p)
    (hq : store.Leads p q) : Confined store W q :=
  ⟨fun q' k hq' => h.fills q' k (hq.trans hq'), fun id how k hk => h.refers id how k (hq.trans hk)⟩

variable {scene : Scene} {body : Nat → Meaning} {W : Nat → Prop}

theorem steady_of_confined
    (hbody : ∀ r q, scene.store.body? r = .ok (some q) → q.Confined scene.store W →
      Steady W (body r)) (p : Pattern) (hp : p.Confined scene.store W) :
    Steady W (p.denote (scene.env body)) := by
  have entered {p : Pattern} {r : Nat} (hr : p.entered? = some r) (hp : p.Confined scene.store W) :
      Steady W (p.denote (scene.env body)) := by
    rcases denote_entered scene body hr with ⟨⟨q, hq⟩, he⟩ | ⟨f, he⟩
    · rw [he]
      exact hbody r q hq (hp.of_leads (.enter .self hr hq))
    · rw [he]
      exact steady_wrong f
  induction p using induction_children with
  | node p ih =>
    have below {q : Pattern} (hq : q ∈ p.children) : Steady W (q.denote (scene.env body)) :=
      ih q hq (hp.of_leads (.child .self hq))
    cases p with
    | empty => exact steady_nothing
    | any => exact steady_test (· < scene.subject.size) fun _ => 1
    | anyRune => exact steady_test (· < scene.subject.size) fun _ => 1
    | startAnchor => exact steady_test (· = scene.origin) fun _ => 0
    | starAny =>
      intro i t t' a _ h
      cases h
      exact ⟨_, rfl, rfl, .refl W t t'⟩
    | valued id how v => cases how <;> exact steady_wrong _
    | call id r => exact entered rfl hp
    | rule id r => exact entered rfl hp
    | grammar id start others => exact entered rfl hp
    | sequence id items =>
      rw [denote_sequence]
      refine steady_inOrder fun m hm => ?_
      obtain ⟨q, hq, rfl⟩ := List.mem_map.1 hm
      exact below hq
    | choice id items =>
      rw [denote_choice]
      refine steady_firstOf fun m hm => ?_
      obtain ⟨q, hq, rfl⟩ := List.mem_map.1 hm
      exact below hq
    | star id q => exact fun i => steady_within (below (by simp [children])) _ i
    | option id q => exact steady_orElse (below (by simp [children])) steady_nothing
    | peek id q => exact steady_peek (below (by simp [children]))
    | not id q => exact steady_not (below (by simp [children]))
    | search id q => exact steady_search _ (below (by simp [children]))
    | capture id q =>
      exact steady_capture (fun k hk => hp.fills _ k .self rfl hk) (below (by simp [children]))
    | capturedSearch id q =>
      exact steady_capturedSearch _ (fun k hk => hp.fills _ k .self rfl hk)
        (below (by simp [children]))
    | backref id how slot => exact steady_backref _ how (hp.refers id how slot .self)
    | _ => exact steady_ofComparison _

theorem steady_bodyWithin (scene : Scene) (depth : Nat) {r : Nat} {q : Pattern}
    (hr : scene.store.body? r = .ok (some q)) (hq : q.Confined scene.store W) :
    Steady W (scene.bodyWithin depth r) := by
  induction depth generalizing r q with
  | zero =>
    intro i t t' a _ h
    cases h
  | succ depth ih =>
    rw [Scene.bodyWithin, hr]
    exact steady_of_confined (fun r q hr hq => ih hr hq) q hq

theorem steady_meaning {p : Pattern} (hp : p.Confined scene.store W) :
    Steady W (scene.meaning p) := by
  refine steady_of_confined (fun r q hr hq i t t' a ht h => ?_) p hp
  obtain ⟨depth, hd⟩ := Scene.body_eq_some.1 h
  obtain ⟨a', hd', ha⟩ := steady_bodyWithin scene depth hr hq i t t' a ht hd
  exact ⟨a', Scene.body_eq_some.2 ⟨depth, hd'⟩, ha⟩

/-- A back reference that matching the pattern may come to refers to a slot that it may fill. -/
def RefersToItself (store : Store) (p : Pattern) : Prop :=
  ∃ q id how slot, store.Leads p q ∧ q.isCapture ∧ store.slot? q.id = some slot ∧
    store.Leads p (.backref id how slot)

theorem confined_of_not_refersToItself {store : Store} {p : Pattern}
    (h : ¬ p.RefersToItself store) :
    p.Confined store fun k => ∃ q, store.Leads p q ∧ q.isCapture ∧ store.slot? q.id = some k where
  fills q _ hq hc hs := ⟨q, hq, hc, hs⟩
  refers id how k hk := fun ⟨q, hq, hc, hs⟩ => h ⟨q, id, how, k, hq, hc, hs, hk⟩

end Pattern

namespace Meaning

variable {m : Meaning} {s : Subject}

/-- A further turn at `i` would miss, or consume nothing and leave the table as it is. -/
def Rests (m : Meaning) (i : Int) (t : Slots) : Prop :=
  m i t = some .miss ∨ m i t = some (.hit 0 t)

theorem last_of_within {times : Nat} {i : Int} {t u : Slots} {n : Nat}
    (h : within m times i t = some (.hit n u)) :
    m (i + n) u = some .miss ∨ ∃ v, m (i + n) v = some (.hit 0 u) := by
  induction times generalizing i t n with
  | zero => cases h
  | succ times ih =>
    simp only [within] at h
    cases hr : m i t with
    | none => simp [hr] at h
    | some a =>
      rw [hr] at h
      cases a with
      | miss =>
        cases h
        exact .inl (by simpa using hr)
      | fault f => cases h
      | hit k v =>
        cases k with
        | zero =>
          cases h
          exact .inr ⟨t, by simpa using hr⟩
        | succ k =>
          obtain ⟨a, ha, he⟩ := Option.map_eq_some_iff.1 h
          cases a <;> cases he
          next l =>
          have hpos : i + ((k + 1 + l : Nat) : Int) = i + (k + 1 : Nat) + l := by omega
          rw [hpos]
          exact ih ha

theorem rests_iff (times : Nat) {i : Int} {t : Slots} :
    within m (times + 1) i t = some (.hit 0 t) ↔ Rests m i t := by
  simp only [Rests, within]
  cases hr : m i t with
  | none => simp
  | some a =>
    cases a with
    | miss => simp
    | fault f => simp
    | hit n u =>
      cases n with
      | zero => simp
      | succ n =>
        simp only [Option.map_eq_some_iff, Option.some.injEq, reduceCtorEq, Answer.hit.injEq,
          false_and, or_self, iff_false, not_exists, not_and]
        intro a _
        cases a <;> simp [Answer.after]

/-- A repetition of a repetition is the repetition just where the first turn of the outer one
consumes nothing or another turn at its end would change nothing. -/
theorem many_many_iff (hin : Inside s m) {i : Int} {t : Slots} :
    many s (many s m) i t = many s m i t ↔
      ∀ n u, many s m i t = some (.hit (n + 1) u) → Rests m (i + (n + 1 : Nat)) u := by
  change within (many s m) (s.room i + 1) i t = many s m i t ↔ _
  rw [within]
  cases hr : many s m i t with
  | none => simp
  | some a =>
    cases a with
    | miss => exact absurd hr (within_ne_miss _ i t)
    | fault f => simp
    | hit n u =>
      cases n with
      | zero => simp
      | succ n =>
        obtain ⟨room, hroom⟩ : ∃ room, s.room i = room + 1 := by
          have hfits := inside_within hin _ _ _ _ _ hr
          refine ⟨s.room i - 1, ?_⟩
          simp only [Subject.Fits, Subject.room] at hfits ⊢
          omega
        -- The outer loop goes on behind what the inner one consumed, and has to stop there at once.
        have hstop : (within (many s m) (room + 1) (i + (n + 1 : Nat)) u).map
            (Answer.after (n + 1)) = some (.hit (n + 1) u) ↔
            within (many s m) (room + 1) (i + (n + 1 : Nat)) u = some (.hit 0 u) := by
          cases hw : within (many s m) (room + 1) (i + (n + 1 : Nat)) u with
          | none => simp
          | some a => cases a <;> simp
        have hinner : Rests (many s m) (i + (n + 1 : Nat)) u ↔ Rests m (i + (n + 1 : Nat)) u := by
          rw [← rests_iff (m := m) (s.room (i + (n + 1 : Nat)))]
          exact or_iff_right (within_ne_miss _ _ _)
        rw [hroom, hstop, rests_iff, hinner]
        refine ⟨fun h n' u' he => ?_, fun h => h n u rfl⟩
        cases he
        exact h

theorem rests_of_consumes (hc : Consumes m) {times : Nat} {i : Int} {t u : Slots} {n : Nat}
    (h : within m times i t = some (.hit n u)) : Rests m (i + n) u := by
  rcases last_of_within h with hmiss | ⟨v, hv⟩
  · exact .inl hmiss
  · exact absurd (hc _ _ _ _ hv) (Nat.lt_irrefl 0)

theorem rests_of_steady {W : Nat → Prop} (hs : Steady W m) {times : Nat} {i : Int} {t u : Slots}
    {n : Nat} (h : within m times i t = some (.hit n u)) : Rests m (i + n) u := by
  rcases last_of_within h with hmiss | ⟨v, hv⟩
  · exact .inl hmiss
  · -- Compare the last turn, which changes `v` to `u`, with one that starts from `u`.
    obtain ⟨a, -, ha⟩ := hs _ v v _ (.refl W v) hv
    have hvu : Slots.Apart W v u := by
      cases a <;> simp only [Answer.Alike] at ha
      exact ha.2.left
    obtain ⟨b, hb, hab⟩ := hs _ v u _ hvu hv
    cases b <;> simp only [Answer.Alike] at hab
    obtain ⟨rfl, hp⟩ := hab
    rw [hp.eq_of_repeated] at hb
    exact .inr hb

end Meaning

namespace Matching

variable {scene : Scene} {p q : Pattern} {i : Int} {s : State}

/-- Tried from the same state, the two patterns both nest without end, or from some depth on both
return the same. -/
def SameAt (scene : Scene) (p q : Pattern) (i : Int) (s : State) : Prop :=
  (∀ depth, (attempt scene depth p i s).Endless ∧ (attempt scene depth q i s).Endless) ∨
    ∃ depth, ∀ d, depth ≤ d → ¬ (attempt scene d p i s).Endless ∧
    ¬ (attempt scene d q i s).Endless ∧ (attempt scene d p i s).Same (attempt scene d q i s)

theorem sameAt_iff_meaning (hi : 0 ≤ i) :
    SameAt scene p q i s ↔ scene.meaning p i s.table.slots = scene.meaning q i s.table.slots :=
  alike_iff_meaning hi

/-- The result is a miss, or consumes nothing and has the captures of the state. -/
def Result.Idle (s : State) : Result → Prop
  | .miss _ => True
  | .hit n u => n = 0 ∧ u.table.slots = s.table.slots
  | .fault _ _ => False

theorem idle_iff_rests (hi : 0 ≤ i) :
    (∃ depth, (attempt scene depth p i s).Idle s) ↔ (scene.meaning p).Rests i s.table.slots := by
  constructor
  · rintro ⟨depth, h⟩
    have hf := follows_attempt scene depth p i s hi
    cases hr : attempt scene depth p i s with
    | miss u =>
      rw [hr] at hf
      exact .inl hf.1
    | hit n u =>
      rw [hr] at hf h
      obtain ⟨rfl, hu⟩ := h
      exact .inr (hu ▸ hf.1)
    | fault f u =>
      rw [hr] at h
      exact h.elim
  · rintro (h | h)
    all_goals
      obtain ⟨depth, hd⟩ := settles_of_meaning hi h
      have hr := result_of_meaning hi h (hd depth (Nat.le_refl _) s rfl)
      refine ⟨depth, ?_⟩
    · obtain ⟨u, hu, -⟩ := hr
      simp [hu, Result.Idle]
    · obtain ⟨u, hu, he⟩ := hr
      simp [hu, Result.Idle, he]

/-- The loop over a repetition against the repetition that the constructor returns in its place.
They give the same just where, after a repetition that consumed something, one more turn of it would
be idle. That is so everywhere if each turn consumes something, and if no back reference in it
refers to what it captures. -/
theorem repeated_repetition_iff (scene : Scene) (id id' : Nat) (p : Pattern) (i : Int) (hi : 0 ≤ i)
    (s : State) :
    let loop := Pattern.star id p
    (SameAt scene (Pattern.repeated id' loop) (.star id' loop) i s ↔
      ∀ depth n u, attempt scene depth loop i s = .hit (n + 1) u →
        ∃ d, (attempt scene d p (i + (n + 1 : Nat)) u).Idle u) ∧
    (¬ p.Nullable scene.store ∨ ¬ p.RefersToItself scene.store →
      SameAt scene (Pattern.repeated id' loop) (.star id' loop) i s) := by
  intro loop
  have hloop : scene.meaning loop = Meaning.many scene.subject (scene.meaning p) := rfl
  have hsame : SameAt scene (Pattern.repeated id' loop) (.star id' loop) i s ↔
      ∀ n u, scene.meaning loop i s.table.slots = some (.hit (n + 1) u) →
        (scene.meaning p).Rests (i + (n + 1 : Nat)) u := by
    rw [sameAt_iff_meaning hi, hloop, ← Meaning.many_many_iff (scene.inside_meaning p)]
    exact eq_comm
  refine ⟨hsame.trans ⟨fun h depth n u hu => ?_, fun h n u hu => ?_⟩, fun h =>
    hsame.2 fun n u hu => ?_⟩
  · exact (idle_iff_rests (by omega)).2 (h n _ (meaning_of_hit hi hu))
  · obtain ⟨depth, hd⟩ := settles_of_meaning hi hu
    obtain ⟨v, hv, rfl⟩ := result_of_meaning hi hu (hd depth (Nat.le_refl _) s rfl)
    exact (idle_iff_rests (by omega)).1 (h depth n v hv)
  · rcases h with h | h
    · exact Meaning.rests_of_consumes (Pattern.consumes_meaning scene h) hu
    · exact Meaning.rests_of_steady
        (Pattern.steady_meaning (Pattern.confined_of_not_refersToItself h)) hu

theorem not_refersToItself_capture_option (store : Store) (id id' id'' c : Nat) :
    ¬ (Pattern.capture id (.option id' (.char id'' c))).RefersToItself store := by
  rintro ⟨-, idr, how, slot, -, -, -, h⟩
  have leads {q : Pattern} (h : store.Leads (.capture id (.option id' (.char id'' c))) q) :
      q = .capture id (.option id' (.char id'' c)) ∨ q = .option id' (.char id'' c) ∨
      q = .char id'' c := by
    induction h with
    | self => exact .inl rfl
    | child _ hq ih => rcases ih with rfl | rfl | rfl <;> simp_all [Pattern.children]
    | enter _ hr _ ih => rcases ih with rfl | rfl | rfl <;> cases hr
  rcases leads h with h | h | h <;> cases h

/-- `({'a'?})*` captures in its last turn, which consumes nothing, and may be repeated all the
same. -/
theorem repeated_optional_capture :
    let scene : Scene := { subject := #['a', 'b'], store := { slots := [(32, 0)] }, origin := 0 }
    let turn : Pattern := .capture 32 (.option 33 (.char 34 'a'))
    (0 : Int) ≤ 0 ∧ ¬ turn.RefersToItself scene.store ∧
      SameAt scene (.star 35 turn) (.star 36 (.star 35 turn)) 0 { table := .ofCapacity 1 } := by
  intro scene turn
  have hturn := not_refersToItself_capture_option scene.store 32 33 34 'a'
  exact ⟨by decide, hturn,
    (repeated_repetition_iff scene 35 36 turn 0 (by decide) _).2 (.inr hturn)⟩

/-- One turn of `('a' / {$1 'b' / &'b'})*`. Before the first `b` it captures the empty text, and
after that each time what was captured before and one more `b`. -/
def growing : Pattern :=
  .choice 32 [.char 33 'a', .capture 34
    (.choice 35 [.sequence 36 [.backref 37 .exact 0, .char 38 'b'], .peek 39 (.char 40 'b')])]

/-- The length of a hit and the spans captured. -/
def Result.captured? : Result → Option (Nat × Array (Option Span))
  | .hit n s => some (n, s.table.spans)
  | _ => none

theorem captured?_eq_some {r : Result} {n : Nat} {spans : Array (Option Span)} :
    r.captured? = some (n, spans) ↔ ∃ u, r = .hit n u ∧ u.table.spans = spans := by
  cases r <;> simp [Result.captured?]

theorem repeated_repetition_stops_early :
    let scene : Scene :=
      { subject := #['a', 'b', 'b', 'b'], store := { slots := [(34, 0)] }, origin := 0 }
    let start : State := { table := .ofCapacity 1 }
    let loop := Pattern.star 41 growing
    (attempt scene 20 (Pattern.repeated 42 loop) 0 start).captured? = some (1, #[some ⟨1, 0⟩]) ∧
    (attempt scene 20 (.star 42 loop) 0 start).captured? = some (4, #[some ⟨2, 2⟩]) ∧
    ¬ SameAt scene (Pattern.repeated 42 loop) (.star 42 loop) 0 start := by
  intro scene start loop
  have hinner : (attempt scene 20 (Pattern.repeated 42 loop) 0 start).captured? =
      some (1, #[some ⟨1, 0⟩]) := by
    decide +kernel
  have houter : (attempt scene 20 (.star 42 loop) 0 start).captured? =
      some (4, #[some ⟨2, 2⟩]) := by
    decide +kernel
  refine ⟨hinner, houter, fun h => ?_⟩
  obtain ⟨u, hu, -⟩ := captured?_eq_some.1 hinner
  obtain ⟨v, hv, -⟩ := captured?_eq_some.1 houter
  have he := (sameAt_iff_meaning (Int.le_refl 0)).1 h
  rw [meaning_of_hit (Int.le_refl 0) hu, meaning_of_hit (Int.le_refl 0) hv] at he
  cases he

end Matching

end PegMatch

import PegMatch.Proofs.Journal

set_option autoImplicit false

/-! A match does not depend on what stands to the left of where it starts. If a text is put in front
of the subject, the match that starts as much further to the right is the same, with every span
moved along. -/

namespace PegMatch

namespace Subject

variable {s : Subject} {i j : Int} (u : Subject)

theorem at?_append (hi : 0 ≤ i) : at? (u ++ s) (i + u.size) = s.at? i := by
  have hle : u.size ≤ (i + u.size).toNat := by omega
  have hsub : (i + u.size).toNat - u.size = i.toNat := by omega
  simp only [at?, hi, if_true,
    show (0 : Int) ≤ i + u.size by omega, Array.getElem?_append_right hle, hsub]

theorem room_append : room (u ++ s) (i + u.size) = s.room i := by
  simp only [room, Array.size_append]
  omega

theorem cut_append (hi : 0 ≤ i) : cut (u ++ s).size (i + u.size) = cut s.size i + u.size := by
  simp only [cut, hi, if_true, show (0 : Int) ≤ i + u.size by omega, Array.size_append]
  omega

theorem slice_append (hi : 0 ≤ i) (hj : 0 ≤ j) :
    slice (u ++ s) (i + u.size) (j + u.size) = s.slice i j := by
  simp only [slice, cut_append u hi, cut_append u hj, Array.extract_append, Nat.add_sub_cancel]
  have hnil : u.extract (cut s.size i + u.size) (cut s.size j + u.size) = #[] := by
    simp
  rw [hnil, Array.empty_append]

theorem holds_append (t : Text) (k : Nat) : holds (u ++ s) t (k + u.size) = s.holds t k := by
  induction t generalizing k with
  | nil => rfl
  | cons c t ih =>
    have hnext : k + u.size + 1 = k + 1 + u.size := by omega
    simp only [holds, hnext, ih, Array.getElem?_append_right (Nat.le_add_left u.size k),
      Nat.add_sub_cancel]

theorem startsWith_append (hi : 0 ≤ i) (t : Text) :
    startsWith (u ++ s) t (i + u.size) = s.startsWith t i := by
  have hle : (i + u.size ≤ (u ++ s).size) ↔ i ≤ s.size := by
    rw [Array.size_append]
    omega
  simp only [startsWith, cut_append u hi, holds_append, hle]

theorem one_append (hi : 0 ≤ i) (test : Nat → Bool) :
    one (u ++ s) test (i + u.size) = s.one test i := by
  have hlt : (i + u.size < (u ++ s).size) ↔ i < s.size := by
    rw [Array.size_append]
    omega
  simp only [one, hlt, at?_append u hi]
  split
  · next h =>
    obtain ⟨c, hc⟩ := at?_eq_some hi h
    simp only [hc]
  · rfl

theorem lineBreak_append (hi : 0 ≤ i) : lineBreak (u ++ s) (i + u.size) = s.lineBreak i := by
  simp only [lineBreak, startsWith_append u hi, one_append u hi]

/-- Runs end as much further to the right. No look of theirs is past the end of the subject, where
the fault would tell the position. -/
theorem runEnd_append (hi : 0 ≤ i) (test : Nat → Bool) {room : Nat} (hr : room ≤ s.room i) :
    runEnd (u ++ s) test room (i + u.size) = (s.runEnd test room i).map (· + (u.size : Int)) := by
  induction room generalizing i with
  | zero => rfl
  | succ room ih =>
    simp only [Subject.room] at hr
    obtain ⟨c, hc⟩ := at?_eq_some (s := s) hi (by omega)
    have hnext : i + u.size + 1 = i + 1 + u.size := by omega
    simp only [runEnd, at?_append u hi, hc, hnext]
    split
    · exact ih (by omega) (by simp only [Subject.room]; omega)
    · rfl

theorem runLength_append (hi : 0 ≤ i) (test : Nat → Bool) :
    runLength (u ++ s) test (i + u.size) = s.runLength test i := by
  obtain ⟨j, hj⟩ := runEnd_ok hi test (Nat.le_refl (s.room i))
  have hlength : j + u.size - (i + u.size) = j - i := by omega
  simp only [runLength, room_append, runEnd_append u hi test (Nat.le_refl _), hj, Except.map, bind,
    Except.bind, hlength]

theorem styleEnd_append (hj : 0 ≤ j) (t : Text) :
    styleEnd (u ++ s) t (j + u.size) = (s.styleEnd t j).map (Option.map (· + (u.size : Int))) := by
  induction t generalizing j with
  | nil => rfl
  | cons a t ih =>
    simp only [styleEnd]
    split
    · exact ih hj
    · obtain ⟨k, hk⟩ := runEnd_ok hj (· == '_'.toNat) (Nat.le_refl (s.room j))
      have hjk := (runEnd_le hk).1
      have hle : ((u ++ s).size ≤ k + u.size) ↔ s.size ≤ k := by
        rw [Array.size_append]
        omega
      simp only [room_append, runEnd_append u hj _ (Nat.le_refl _), hk, Except.map, bind,
        Except.bind, hle]
      split
      · rfl
      · next hsize =>
        obtain ⟨b, hb⟩ := at?_eq_some (s := s) (i := k) (by omega) (by omega)
        have hnext : k + u.size + 1 = k + 1 + u.size := by omega
        simp only [at?_append u (show 0 ≤ k by omega), hb, hnext]
        split
        · exact ih (by omega)
        · rfl

theorem compare_append (hi : 0 ≤ i) (how : Comparison) (t : Text) :
    compare (u ++ s) how (i + u.size) t = s.compare how i t := by
  cases how with
  | exact => simp only [compare, exactly, startsWith_append u hi]
  | ignoreCase =>
    have hstop : i + u.size + t.length = i + t.length + u.size := by omega
    have hlt : ((u ++ s).size < i + t.length + u.size) ↔ s.size < i + t.length := by
      rw [Array.size_append]
      omega
    simp only [compare, ignoringCase, hstop, hlt,
      slice_append u hi (show 0 ≤ i + t.length by omega)]
  | ignoreStyle =>
    obtain ⟨o, ho⟩ := styleEnd_ok (s := s) hi t
    have hlength (j : Int) : j + u.size - (i + u.size) = j - i := by omega
    simp only [compare, ignoringStyle, styleEnd_append u hi, ho, Except.map, bind, Except.bind,
      Option.map_map, Function.comp_def, hlength]

end Subject

namespace Span

def shift (k : Int) (s : Span) : Span := { s with start := s.start + k }

def Forward (s : Span) : Prop := 0 ≤ s.start ∧ 0 ≤ s.length

end Span

namespace Captures

variable {t v : Captures} {k : Int}

def shift (k : Int) (t : Captures) : Captures where
  capacity := t.capacity
  spans := t.spans.map (Option.map (Span.shift k))
  journal := t.journal.map fun e => (e.1, e.2.map (Span.shift k))

/-- Every span in the table or its journal lies at position zero or to the right of it. -/
structure Forward (t : Captures) : Prop where
  spans : ∀ (n : Nat) span, t.spans[n]? = some (some span) → span.Forward
  journal : ∀ e ∈ t.journal, ∀ span, e.2 = some span → span.Forward

@[simp] theorem mark_shift (t : Captures) : (t.shift k).mark = t.mark := by
  simp [shift, mark]

theorem undo_shift (t : Captures) : (t.shift k).undo = t.undo.shift k := by
  simp only [undo, shift, Array.back?_map]
  cases t.journal.back? with
  | none => rfl
  | some e => simp [Array.map_pop]

theorem rollback_shift (t : Captures) (mark : Nat) :
    (t.shift k).rollback mark = (t.rollback mark).shift k := by
  have times (n : Nat) (t : Captures) : undoTimes n (t.shift k) = (undoTimes n t).shift k := by
    induction n generalizing t with
    | zero => rfl
    | succ n ih => rw [undoTimes, undo_shift, ih, undoTimes]
  have hsize : (t.shift k).journal.size = t.journal.size := by simp [shift]
  rw [rollback, hsize, times, rollback]

theorem Forward.undo (h : t.Forward) : t.undo.Forward := by
  unfold Captures.undo
  split
  · next n old hback =>
    refine ⟨fun m span hm => ?_, fun e he => ?_⟩
    · rw [Array.getElem?_setIfInBounds] at hm
      split at hm
      · split at hm
        · cases hm
          exact h.journal _ (Array.mem_of_back? hback) span rfl
        · cases hm
      · exact h.spans m span hm
    · rw [← Array.mem_toList_iff, Array.toList_pop] at he
      exact h.journal e (Array.mem_toList_iff.1 (List.dropLast_subset _ he))
  · exact h

theorem Forward.rollback (h : t.Forward) (mark : Nat) : (t.rollback mark).Forward := by
  have times (n : Nat) {t : Captures} (h : t.Forward) : (undoTimes n t).Forward := by
    induction n generalizing t with
    | zero => exact h
    | succ n ih => exact ih h.undo
  exact times _ h

theorem set_shift (t : Captures) (slot : Int) (span : Span) :
    (t.shift k).set slot (span.shift k) = (t.set slot span).map (shift k) := by
  have hold : ((t.spans.map (Option.map (Span.shift k)))[slot.toNat]?).join =
      ((t.spans[slot.toNat]?).join).map (Span.shift k) := by
    rw [Array.getElem?_map]
    cases t.spans[slot.toNat]? <;> rfl
  by_cases hslot : 0 ≤ slot ∧ slot < t.capacity
  · simp only [set, shift, hslot, and_self, if_true, hold, Except.map, Array.map_setIfInBounds,
      Option.map_some, Array.map_push]
  · simp only [set, shift, hslot, if_false, Except.map]

theorem Forward.set (h : t.Forward) {slot : Int} {span : Span} (hs : span.Forward)
    (hset : t.set slot span = .ok v) : v.Forward := by
  simp only [Captures.set] at hset
  split at hset
  · cases hset
    refine ⟨fun m span' hm => ?_, fun e he span' hspan => ?_⟩
    · rw [Array.getElem?_setIfInBounds] at hm
      split at hm
      · split at hm
        · cases hm
          exact hs
        · cases hm
      · exact h.spans m span' hm
    · rcases Array.mem_push.1 he with he | rfl
      · exact h.journal e he span' hspan
      · exact h.spans slot.toNat span' (Option.join_eq_some_iff.1 hspan)
  · cases hset

theorem span_shift (t : Captures) (slot : Int) :
    (t.shift k).span slot = (t.span slot).map (Option.map (Span.shift k)) := by
  simp only [span, shift, Array.size_map, Array.getElem?_map]
  generalize (if slot < 0 then (t.spans.size : Int) + slot else slot) = n
  split
  · rfl
  · cases t.spans[n.toNat]? <;> rfl

theorem Forward.span (h : t.Forward) {slot : Int} {span : Span}
    (hs : t.span slot = .ok (some span)) : span.Forward := by
  simp only [Captures.span] at hs
  generalize (if slot < 0 then (t.spans.size : Int) + slot else slot) = n at hs
  split at hs
  · cases hs
  · split at hs
    · next o ho => cases hs; exact h.spans _ span ho
    · cases hs

theorem text_shift (h : t.Forward) (u s : Subject) (slot : Int) :
    (t.shift u.size).text (u ++ s) slot = t.text s slot := by
  simp only [text, span_shift, bind, Except.bind]
  cases hs : t.span slot with
  | error f => rfl
  | ok o =>
    cases o with
    | none => rfl
    | some span =>
      obtain ⟨hstart, hlength⟩ := h.span hs
      have hstop : (span.shift u.size).stop = span.stop + u.size := by
        simp only [Span.shift, Span.stop]
        omega
      simp only [Except.map, Option.map_some, hstop]
      rw [show (span.shift u.size).start = span.start + u.size from rfl,
        Subject.slice_append u hstart (by simp only [Span.stop]; omega)]

theorem shift_reset (t : Captures) : t.reset.shift k = t.reset := by
  simp [reset, ofCapacity, shift]

theorem forward_reset (t : Captures) : t.reset.Forward := by
  refine ⟨fun n span h => ?_, fun e he => ?_⟩
  · simp only [reset, ofCapacity, Array.getElem?_replicate] at h
    split at h <;> simp at h
  · simp [reset, ofCapacity] at he

end Captures

def Event.shift (k : Int) : Event → Event
  | .enter p i => .enter p (i + k)
  | .leave p i length => .leave p (i + k) length

namespace Matching

variable {k : Int} {s : State}

def State.shift (k : Int) (s : State) : State where
  table := s.table.shift k
  events := s.events.map (Event.shift k)

/-- The same result with all positions moved. -/
def Result.shift (k : Int) : Result → Result
  | .miss s => .miss (s.shift k)
  | .hit n s => .hit n (s.shift k)
  | .fault f s => .fault f (s.shift k)

def Found.shift (k : Int) : Found → Found
  | .nothing s => .nothing (s.shift k)
  | .found skipped n s => .found skipped n (s.shift k)
  | .fault f s => .fault f (s.shift k)

def Found.state : Found → State
  | .nothing s | .found _ _ s | .fault _ s => s

@[simp] theorem mark_shift (s : State) : (s.shift k).mark = s.mark :=
  Captures.mark_shift s.table

theorem rollback_shift (s : State) (mark : Nat) :
    (s.shift k).rollback mark = (s.rollback mark).shift k := by
  simp only [State.rollback, State.shift, Captures.rollback_shift]

theorem record_shift (s : State) (wanted : Bool) (e : Event) :
    (s.shift k).record wanted (e.shift k) = (s.record wanted e).shift k := by
  cases wanted <;> simp [State.record, State.shift]

/-- The result is the other one moved, and all spans stay at position zero or to the right of it. -/
structure Moved (k : Int) (r r' : Result) : Prop where
  shift : r' = r.shift k
  forward : r.state.table.Forward

/-- The second attempt does on moved positions what the first does. -/
def Moves (k : Int) (attempt attempt' : Attempt) : Prop :=
  ∀ p i s, 0 ≤ i → s.table.Forward → Moved k (attempt p i s) (attempt' p (i + k) (s.shift k))

theorem moved_hit (n : Nat) (h : s.table.Forward) : Moved k (.hit n s) (.hit n (s.shift k)) :=
  ⟨rfl, h⟩

theorem moved_miss (h : s.table.Forward) : Moved k (.miss s) (.miss (s.shift k)) := ⟨rfl, h⟩

theorem moved_fault (f : Fault) (h : s.table.Forward) :
    Moved k (.fault f s) (.fault f (s.shift k)) := ⟨rfl, h⟩

theorem moved_compared (h : s.table.Forward) {x y : Except Fault (Option Nat)} (hxy : y = x) :
    Moved k (compared s x) (compared (s.shift k) y) := by
  subst hxy
  cases y with
  | error f => exact moved_fault f h
  | ok o =>
    cases o with
    | none => exact moved_miss h
    | some n => exact moved_hit n h

theorem moved_fill (scene scene' : Scene) (hstore : scene'.store = scene.store) (id : Nat) {i : Int}
    (hi : 0 ≤ i) (m n : Nat) (h : s.table.Forward) :
    Moved k (fill scene id ⟨i, m⟩ n s) (fill scene' id ⟨i + k, m⟩ n (s.shift k)) := by
  simp only [fill, hstore]
  cases scene.store.slot? id with
  | none => exact moved_fault _ h
  | some slot =>
    have hset := Captures.set_shift (k := k) s.table slot ⟨i, m⟩
    simp only [Span.shift] at hset
    simp only [State.shift, hset]
    cases hv : s.table.set slot ⟨i, m⟩ with
    | error f => exact moved_fault f h
    | ok v => exact moved_hit n (s := { s with table := v }) (h.set ⟨hi, Int.natCast_nonneg m⟩ hv)

section

variable {attempt attempt' : Attempt} (h : Moves k attempt attempt') {i : Int} (hi : 0 ≤ i)
include h hi

theorem moved_inOrder (ps : List Pattern) (n : Nat) (hs : s.table.Forward) :
    Moved k (inOrder attempt i ps n s) (inOrder attempt' (i + k) ps n (s.shift k)) := by
  induction ps generalizing n s with
  | nil => exact moved_hit n hs
  | cons p ps ih =>
    obtain ⟨hshift, hforward⟩ := h p (i + n) s (by omega) hs
    have hpos : i + k + n = i + n + k := by omega
    simp only [inOrder, hpos, hshift]
    cases hr : attempt p (i + n) s with
    | hit m v => rw [hr] at hforward; exact ih (n + m) hforward
    | miss v => rw [hr] at hforward; exact moved_miss hforward
    | fault f v => rw [hr] at hforward; exact moved_fault f hforward

theorem moved_firstOf (mark : Nat) (ps : List Pattern) (hs : s.table.Forward) :
    Moved k (firstOf attempt mark i ps s) (firstOf attempt' mark (i + k) ps (s.shift k)) := by
  induction ps generalizing s with
  | nil => exact moved_miss hs
  | cons p ps ih =>
    obtain ⟨hshift, hforward⟩ := h p i s hi hs
    simp only [firstOf, hshift]
    cases hr : attempt p i s with
    | hit m v => rw [hr] at hforward; exact moved_hit m hforward
    | miss v =>
      rw [hr] at hforward
      simp only [Result.shift, rollback_shift]
      exact ih (hforward.rollback mark)
    | fault f v => rw [hr] at hforward; exact moved_fault f hforward

theorem moved_repeatedly (p : Pattern) (times n : Nat) (hs : s.table.Forward) :
    Moved k (repeatedly attempt p i times n s)
      (repeatedly attempt' p (i + k) times n (s.shift k)) := by
  induction times generalizing n s with
  | zero => exact moved_fault .endless hs
  | succ times ih =>
    obtain ⟨hshift, hforward⟩ := h p (i + n) s (by omega) hs
    have hpos : i + k + n = i + n + k := by omega
    simp only [repeatedly, hpos, hshift]
    cases hr : attempt p (i + n) s with
    | hit m v =>
      rw [hr] at hforward
      cases m with
      | zero => exact moved_hit n hforward
      | succ m => exact ih _ hforward
    | miss v => rw [hr] at hforward; exact moved_hit n hforward
    | fault f v => rw [hr] at hforward; exact moved_fault f hforward

theorem moved_scan (mark : Nat) (p : Pattern) (count skipped : Nat) (hs : s.table.Forward) :
    scan attempt' mark p (i + k) count skipped (s.shift k) =
      (scan attempt mark p i count skipped s).shift k ∧
      (scan attempt mark p i count skipped s).state.table.Forward := by
  induction count generalizing skipped s with
  | zero => exact ⟨rfl, hs⟩
  | succ count ih =>
    obtain ⟨hshift, hforward⟩ := h p (i + skipped) s (by omega) hs
    have hpos : i + k + skipped = i + skipped + k := by omega
    simp only [scan, hpos, hshift]
    cases hr : attempt p (i + skipped) s with
    | hit m v => rw [hr] at hforward; exact ⟨rfl, hforward⟩
    | miss v =>
      rw [hr] at hforward
      simp only [Result.shift, rollback_shift]
      exact ih (skipped + 1) (hforward.rollback mark)
    | fault f v => rw [hr] at hforward; exact ⟨rfl, hforward⟩

end

/-- The scene with a text in front of the subject. -/
def Scene.behind (u : Subject) (scene : Scene) : Scene :=
  { scene with subject := u ++ scene.subject, origin := scene.origin + u.size }

theorem moved_step (u : Subject) (scene : Scene) {attempt attempt' : Attempt}
    (h : Moves u.size attempt attempt') (p : Pattern) {i : Int} (hi : 0 ≤ i)
    (hs : s.table.Forward) :
    Moved u.size (step scene attempt p i s)
      (step (scene.behind u) attempt' p (i + u.size) (s.shift u.size)) := by
  have hlt : (i + u.size < (u ++ scene.subject).size) ↔ i < scene.subject.size := by
    rw [Array.size_append]
    omega
  have hroom : (u ++ scene.subject).room (i + u.size) = scene.subject.room i :=
    Subject.room_append u
  have hpositions : positions (u ++ scene.subject) (i + u.size) = positions scene.subject i := by
    simp only [positions, Array.size_append]
    omega
  have below {q : Pattern} {j : Int} {v : State} (hj : 0 ≤ j) (hv : v.table.Forward) :=
    h q j v hj hv
  cases p with
  | empty => exact moved_hit 0 hs
  | any =>
    simp only [step, Scene.behind, hlt]
    split
    · exact moved_hit 1 hs
    · exact moved_miss hs
  | anyRune =>
    simp only [step, Scene.behind, hlt]
    split
    · exact moved_hit 1 hs
    · exact moved_miss hs
  | startAnchor =>
    have horigin : (i + u.size = scene.origin + u.size) ↔ i = scene.origin := by omega
    simp only [step, Scene.behind, horigin]
    split
    · exact moved_hit 0 hs
    · exact moved_miss hs
  | newline => exact moved_compared hs (Subject.lineBreak_append u hi)
  | category c => exact moved_compared hs (Subject.one_append u hi _)
  | literal id how t => exact moved_compared hs (Subject.compare_append u hi how t)
  | valued id how v => cases how <;> exact moved_fault _ hs
  | char id c => exact moved_compared hs (Subject.one_append u hi _)
  | set id members sense => exact moved_compared hs (Subject.one_append u hi _)
  | starChar id c => exact moved_compared hs (congrArg _ (Subject.runLength_append u hi _))
  | starSet id members sense =>
    exact moved_compared hs (congrArg _ (Subject.runLength_append u hi _))
  | starAny =>
    simp only [step, Scene.behind, hroom]
    exact moved_hit _ hs
  | call id r =>
    simp only [step, Scene.behind]
    cases scene.store.body? r with
    | error f => exact moved_fault f hs
    | ok o =>
      cases o with
      | none => exact moved_fault _ hs
      | some body => exact below hi hs
  | rule id r =>
    simp only [step, Scene.behind]
    cases scene.store.body? r with
    | error f => exact moved_fault f hs
    | ok o =>
      cases o with
      | none => exact moved_fault _ hs
      | some body => exact below hi hs
  | grammar id start others => exact below hi hs
  | sequence id items =>
    obtain ⟨hshift, hforward⟩ := moved_inOrder h hi items 0 hs
    simp only [step, hshift, mark_shift]
    cases hr : inOrder attempt i items 0 s with
    | hit n v => rw [hr] at hforward; exact moved_hit n hforward
    | miss v =>
      rw [hr] at hforward
      simp only [Result.shift, Result.orRollback, rollback_shift]
      exact moved_miss (hforward.rollback _)
    | fault f v => rw [hr] at hforward; exact moved_fault f hforward
  | choice id items =>
    simp only [step, mark_shift]
    exact moved_firstOf h hi s.mark items hs
  | star id body =>
    simp only [step, Scene.behind, hroom]
    exact moved_repeatedly h hi body _ 0 hs
  | option id body =>
    obtain ⟨hshift, hforward⟩ := below (q := body) hi hs
    simp only [step, hshift]
    cases hr : attempt body i s with
    | hit n v => rw [hr] at hforward; exact moved_hit n hforward
    | miss v => rw [hr] at hforward; exact moved_hit 0 hforward
    | fault f v => rw [hr] at hforward; exact moved_fault f hforward
  | peek id body =>
    obtain ⟨hshift, hforward⟩ := below (q := body) hi hs
    simp only [step, hshift, mark_shift]
    cases hr : attempt body i s with
    | hit n v => rw [hr] at hforward; exact moved_hit 0 hforward
    | miss v =>
      rw [hr] at hforward
      simp only [Result.shift, rollback_shift]
      exact moved_miss (hforward.rollback _)
    | fault f v => rw [hr] at hforward; exact moved_fault f hforward
  | not id body =>
    obtain ⟨hshift, hforward⟩ := below (q := body) hi hs
    simp only [step, hshift, mark_shift]
    cases hr : attempt body i s with
    | hit n v =>
      rw [hr] at hforward
      simp only [Result.shift, rollback_shift]
      exact moved_miss (hforward.rollback _)
    | miss v =>
      rw [hr] at hforward
      simp only [Result.shift, rollback_shift]
      exact moved_hit 0 (hforward.rollback _)
    | fault f v => rw [hr] at hforward; exact moved_fault f hforward
  | capture id body =>
    obtain ⟨hshift, hforward⟩ := below (q := body) hi hs
    simp only [step, hshift]
    cases hr : attempt body i s with
    | hit n v => rw [hr] at hforward; exact moved_fill scene (scene.behind u) rfl id hi n n hforward
    | miss v => rw [hr] at hforward; exact moved_miss hforward
    | fault f v => rw [hr] at hforward; exact moved_fault f hforward
  | search id body =>
    obtain ⟨hshift, hforward⟩ := moved_scan h hi s.mark body (positions scene.subject i) 0 hs
    simp only [step, Scene.behind, hpositions, mark_shift, hshift]
    cases hr : scan attempt s.mark body i (positions scene.subject i) 0 s with
    | nothing v => rw [hr] at hforward; exact moved_miss hforward
    | found skipped n v => rw [hr] at hforward; exact moved_hit (skipped + n) hforward
    | fault f v => rw [hr] at hforward; exact moved_fault f hforward
  | capturedSearch id body =>
    obtain ⟨hshift, hforward⟩ := moved_scan h hi s.mark body (positions scene.subject i) 0 hs
    simp only [step, Scene.behind, hpositions, mark_shift, hshift]
    cases hr : scan attempt s.mark body i (positions scene.subject i) 0 s with
    | nothing v => rw [hr] at hforward; exact moved_miss hforward
    | found skipped n v =>
      rw [hr] at hforward
      exact moved_fill scene (scene.behind u) rfl id hi skipped (skipped + n) hforward
    | fault f v => rw [hr] at hforward; exact moved_fault f hforward
  | backref id how slot =>
    simp only [step, Scene.behind, State.shift, Captures.text_shift hs u]
    cases s.table.text scene.subject slot with
    | error f => exact moved_fault f hs
    | ok o =>
      cases o with
      | none => exact moved_miss hs
      | some t => exact moved_compared hs (Subject.compare_append u hi how t)

theorem moved_leave (watch : Watch) (p : Pattern) (i : Int) {r r' : Result} (h : Moved k r r') :
    Moved k (leave watch p i r) (leave watch p (i + k) r') := by
  obtain ⟨rfl, hforward⟩ := h
  have table (v : State) (e : Event) (hv : v.table.Forward) :
      (v.record watch.leave e).table.Forward := by
    rw [State.table_record]
    exact hv
  cases r with
  | hit n v =>
    exact ⟨congrArg (Result.hit n) (record_shift v _ (.leave p i (some n))), table v _ hforward⟩
  | miss v => exact ⟨congrArg Result.miss (record_shift v _ (.leave p i none)), table v _ hforward⟩
  | fault f v => exact ⟨rfl, hforward⟩

theorem moves_attempt (u : Subject) (scene : Scene) (depth : Nat) :
    Moves u.size (attempt scene depth) (attempt (scene.behind u) depth) := by
  induction depth with
  | zero => exact fun p i s _ hs => moved_fault .endless hs
  | succ depth ih =>
    intro p i s hi hs
    have henter := record_shift (k := u.size) s (scene.watch p.kind).enter (.enter p i)
    have hforward : (s.record (scene.watch p.kind).enter (.enter p i)).table.Forward := by
      rw [State.table_record]
      exact hs
    simp only [attempt]
    refine moved_leave _ p i ?_
    rw [show (Event.enter p (i + u.size)) = (Event.enter p i).shift u.size from rfl]
    rw [show (scene.behind u).watch = scene.watch from rfl, henter]
    exact moved_step u scene ih p hi hforward

/-- A new match that starts behind a text put in front of the subject is the match without that
text: it returns the same, and fills the same slots with spans of the same lengths, each of which
starts further to the right by the length of the text. So nothing depends on what stands to the left
of the start. -/
theorem match_translates (store : Store) (watch : Kind → Watch) (table : Captures) (p : Pattern)
    (depth : Nat) :
    (∀ (u s : Subject) (i : Int), 0 ≤ i →
      attempt ⟨u ++ s, store, i + u.size, watch⟩ depth p (i + u.size) { table := table.reset } =
        (attempt ⟨s, store, i, watch⟩ depth p i { table := table.reset }).shift u.size) ∧
    ∀ left left' rest : Subject, left.size = left'.size →
      attempt ⟨left ++ rest, store, left.size, watch⟩ depth p left.size { table := table.reset } =
        attempt ⟨left' ++ rest, store, left.size, watch⟩ depth p left.size
          { table := table.reset } := by
  have behind (u s : Subject) (i : Int) (hi : 0 ≤ i) :
      attempt ⟨u ++ s, store, i + u.size, watch⟩ depth p (i + u.size) { table := table.reset } =
        (attempt ⟨s, store, i, watch⟩ depth p i { table := table.reset }).shift u.size := by
    have hempty : State.shift u.size { table := table.reset } = { table := table.reset } := by
      simp [State.shift, Captures.shift_reset]
    have h :=
      moves_attempt u ⟨s, store, i, watch⟩ depth p i { table := table.reset } hi table.forward_reset
    rw [hempty] at h
    exact h.shift
  refine ⟨behind, fun left left' rest hsize => ?_⟩
  have h := behind left rest 0 (Int.le_refl 0)
  have h' := behind left' rest 0 (Int.le_refl 0)
  rw [← hsize, Int.zero_add] at h'
  rw [Int.zero_add] at h
  rw [h, h']

/-- A capture and a reference back to it, `{.} $1`, at the start and behind either of two
characters. -/
theorem doubled_rune_translates :
    let p : Pattern := .sequence 34 [.capture 32 .any, .backref 33 .exact 0]
    let behind (u : Subject) (i : Int) : Result :=
      attempt ⟨u ++ (#['a', 'a'] : Subject), { slots := [(32, 0)] }, i, fun _ => {}⟩ 3 p i
        { table := (Captures.ofCapacity 1).reset }
    (0 : Int) ≤ 0 ∧ (#['x'] : Subject).size = (#['y'] : Subject).size ∧
      behind #['x'] 1 = behind #['y'] 1 ∧ ∃ v, behind #[] 0 = .hit 2 v ∧
      v.table.spans = #[some ⟨0, 1⟩] ∧ behind #['x'] 1 = .hit 2 (v.shift 1) := by
  intro p behind
  have h := match_translates { slots := [(32, 0)] } (fun _ => {}) (.ofCapacity 1) p 3
  exact ⟨by decide, rfl, h.2 #['x'] #['y'] #['a', 'a'] rfl, _, rfl, rfl,
    h.1 #['x'] #['a', 'a'] 0 (by decide)⟩

end Matching

end PegMatch

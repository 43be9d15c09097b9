import PegMatch.Library
import PegMatch.Proofs.Compiled
import PegMatch.Proofs.Journal

set_option autoImplicit false

/-! The events of a match. Watching does not change what a match returns, and what is recorded is
the full record less what is not watched. The full record of a match that returns is that of a
visit: entering a node, visiting nodes inside, and leaving it with the length that the engine gives
for it there. -/

namespace PegMatch

/-- Whether an event is recorded. -/
def Event.wanted (watch : Kind → Watch) : Event → Bool
  | .enter p _ => (watch p.kind).enter
  | .leave p _ _ => (watch p.kind).leave

namespace Matching

variable {watch : Kind → Watch}

def Scene.watchAll (scene : Scene) : Scene :=
  { scene with watch := fun _ => ⟨true, true⟩ }

def Scene.unwatched (scene : Scene) : Scene :=
  { scene with watch := fun _ => {} }

def State.through (watch : Kind → Watch) (s : State) : State where
  table := s.table
  events := s.events.filter (Event.wanted watch)

def Result.through (watch : Kind → Watch) : Result → Result
  | .miss s => .miss (s.through watch)
  | .hit n s => .hit n (s.through watch)
  | .fault f s => .fault f (s.through watch)

def Found.through (watch : Kind → Watch) : Found → Found
  | .nothing s => .nothing (s.through watch)
  | .found skipped n s => .found skipped n (s.through watch)
  | .fault f s => .fault f (s.through watch)

@[simp] theorem table_through (s : State) : (s.through watch).table = s.table := rfl

@[simp] theorem mark_through (s : State) : (s.through watch).mark = s.mark := rfl

@[simp] theorem rollback_through (s : State) (mark : Nat) :
    (s.through watch).rollback mark = (s.rollback mark).through watch := rfl

theorem record_through (s : State) (e : Event) :
    (s.through watch).record (e.wanted watch) e = (s.record true e).through watch := by
  by_cases he : e.wanted watch = true <;> simp [State.record, State.through, he]

theorem leave_through (p : Pattern) (i : Int) (r : Result) :
    leave (watch p.kind) p i (r.through watch) = (leave ⟨true, true⟩ p i r).through watch := by
  cases r with
  | miss s => exact congrArg Result.miss (record_through s (.leave p i none))
  | hit n s => exact congrArg (Result.hit n) (record_through s (.leave p i (some n)))
  | fault f s => rfl

/-- The second attempt does the same, and records what is wanted of what the first does. -/
def Records (watch : Kind → Watch) (attempt attempt' : Attempt) : Prop :=
  ∀ p i s, attempt' p i (s.through watch) = (attempt p i s).through watch

section

variable {attempt attempt' : Attempt} (h : Records watch attempt attempt')
include h

theorem inOrder_through (i : Int) (ps : List Pattern) (n : Nat) (s : State) :
    inOrder attempt' i ps n (s.through watch) = (inOrder attempt i ps n s).through watch := by
  induction ps generalizing n s with
  | nil => rfl
  | cons p ps ih =>
    simp only [inOrder, h p (i + n) s]
    cases attempt p (i + n) s with
    | hit k u => exact ih (n + k) u
    | miss u => rfl
    | fault f u => rfl

theorem firstOf_through (mark : Nat) (i : Int) (ps : List Pattern) (s : State) :
    firstOf attempt' mark i ps (s.through watch) = (firstOf attempt mark i ps s).through watch := by
  induction ps generalizing s with
  | nil => rfl
  | cons p ps ih =>
    simp only [firstOf, h p i s]
    cases attempt p i s with
    | hit k u => rfl
    | miss u => exact ih (u.rollback mark)
    | fault f u => rfl

theorem repeatedly_through (p : Pattern) (i : Int) (times n : Nat) (s : State) :
    repeatedly attempt' p i times n (s.through watch) =
      (repeatedly attempt p i times n s).through watch := by
  induction times generalizing n s with
  | zero => rfl
  | succ times ih =>
    simp only [repeatedly, h p (i + n) s]
    cases attempt p (i + n) s with
    | hit k u =>
      cases k with
      | zero => rfl
      | succ k => exact ih (n + (k + 1)) u
    | miss u => rfl
    | fault f u => rfl

theorem scan_through (mark : Nat) (p : Pattern) (i : Int) (count skipped : Nat) (s : State) :
    scan attempt' mark p i count skipped (s.through watch) =
      (scan attempt mark p i count skipped s).through watch := by
  induction count generalizing skipped s with
  | zero => rfl
  | succ count ih =>
    simp only [scan, h p (i + skipped) s]
    cases attempt p (i + skipped) s with
    | hit k u => rfl
    | miss u => exact ih (skipped + 1) (u.rollback mark)
    | fault f u => rfl

end

theorem compared_through (s : State) (x : Except Fault (Option Nat)) :
    compared (s.through watch) x = (compared s x).through watch := by
  cases x with
  | error f => rfl
  | ok o => cases o <;> rfl

theorem fill_through (scene scene' : Scene) (hs : scene'.store = scene.store) (id : Nat)
    (span : Span) (n : Nat) (s : State) :
    fill scene' id span n (s.through watch) = (fill scene id span n s).through watch := by
  simp only [fill, hs, table_through]
  cases scene.store.slot? id with
  | none => rfl
  | some slot =>
    simp only
    cases s.table.set slot span <;> rfl

theorem orRollback_through (mark : Nat) (r : Result) :
    (r.through watch).orRollback mark = (r.orRollback mark).through watch := by
  cases r <;> rfl

theorem step_through (scene : Scene) {attempt attempt' : Attempt}
    (h : Records watch attempt attempt') (p : Pattern) (i : Int) (s : State) :
    step { scene with watch := watch } attempt' p i (s.through watch) =
      (step scene.watchAll attempt p i s).through watch := by
  have test {c : Prop} [Decidable c] (n : Nat) :
      (if c then Result.hit n (s.through watch) else .miss (s.through watch)) =
      (if c then Result.hit n s else .miss s).through watch := by
    split <;> rfl
  cases p with
  | any => exact test 1
  | anyRune => exact test 1
  | startAnchor => exact test 0
  | valued id how v => cases how <;> rfl
  | sequence id items =>
    simp only [step, mark_through, inOrder_through h, orRollback_through]
  | choice id items => exact firstOf_through h _ i items s
  | star id body => exact repeatedly_through h body i _ 0 s
  | option id body =>
    simp only [step, h body i s]
    cases attempt body i s <;> rfl
  | peek id body =>
    simp only [step, h body i s]
    cases attempt body i s <;> rfl
  | not id body =>
    simp only [step, h body i s]
    cases attempt body i s <;> rfl
  | capture id body =>
    simp only [step, h body i s]
    cases attempt body i s with
    | hit n u => exact fill_through scene.watchAll _ rfl id _ n u
    | miss u => rfl
    | fault f u => rfl
  | search id body =>
    simp only [step, Scene.watchAll, mark_through, scan_through h]
    cases scan attempt s.mark body i (positions scene.subject i) 0 s <;> rfl
  | capturedSearch id body =>
    simp only [step, Scene.watchAll, mark_through, scan_through h]
    cases scan attempt s.mark body i (positions scene.subject i) 0 s with
    | found skipped n u => exact fill_through scene.watchAll _ rfl id _ _ u
    | nothing u => rfl
    | fault f u => rfl
  | call id r =>
    simp only [step, Scene.watchAll]
    split
    · exact h _ i s
    · rfl
    · rfl
  | rule id r =>
    simp only [step, Scene.watchAll]
    split
    · exact h _ i s
    · rfl
    · rfl
  | grammar id start others => exact h _ i s
  | backref id how slot =>
    simp only [step, table_through, Scene.watchAll]
    split
    · rfl
    · exact compared_through s _
    · rfl
  | empty => rfl
  | starAny => rfl
  | _ => exact compared_through s _

/-- A watched match goes like the fully watched one, and records what is wanted of its events. -/
theorem attempt_through (scene : Scene) (depth : Nat) :
    Records watch (attempt scene.watchAll depth) (attempt { scene with watch := watch } depth) := by
  induction depth with
  | zero => exact fun p i s => rfl
  | succ depth ih =>
    intro p i s
    simp only [attempt]
    rw [show (watch p.kind).enter = (Event.enter p i).wanted watch from rfl, record_through,
      step_through scene ih, leave_through]
    rfl

end Matching

/-- What happens at a node: it is entered at a position, nodes are visited inside, and it is left
with the length matched. -/
inductive Visit where
  | mk (node : Pattern) (start : Int) (inside : List Visit) (length : Option Nat)

namespace Visit

mutual

/-- The events of a visit. Those of the visits inside stand between its own two. -/
def events : Visit → List Event
  | .mk node start inside length =>
    .enter node start :: (eventsEach inside ++ [.leave node start length])

def eventsEach : List Visit → List Event
  | [] => []
  | v :: vs => v.events ++ eventsEach vs

end

end Visit

namespace Matching

/-- The length and the state with which a match ended that did not fail. -/
def Result.ended? : Result → Option (Option Nat × State)
  | .hit n s => some (some n, s)
  | .miss s => some (none, s)
  | .fault _ _ => none

theorem ended?_leave {p : Pattern} {i : Int} {r : Result} {n : Option Nat} {u : State}
    (h : (leave ⟨true, true⟩ p i r).ended? = some (n, u)) :
    ∃ v, r.ended? = some (n, v) ∧ u = v.record true (.leave p i n) := by
  cases r <;> cases h
  all_goals exact ⟨_, rfl, rfl⟩

end Matching

namespace Visit

open Matching

mutual

/-- From the table `t`, the engine returns the length of the visit for its node and leaves the table
`u`. So it is for the visits inside: the first one starts from the table of the node, and each of
the others from the one that was left before it. -/
inductive Faithful (scene : Scene) : Captures → Visit → Captures → Prop where
  | mk {t u : Captures} {node : Pattern} {start : Int} {inside : List Visit} {length : Option Nat}
      (depth : Nat)
      (ended : (attempt scene depth node start { table := t }).ended? =
        some (length, { table := u })) (each : FaithfulEach scene t inside) :
      Faithful scene t (.mk node start inside length) u

inductive FaithfulEach (scene : Scene) : Captures → List Visit → Prop where
  | nil {t : Captures} : FaithfulEach scene t []
  | cons {t u : Captures} {v : Visit} {vs : List Visit} (h : Faithful scene t v u)
      (hs : FaithfulEach scene u vs) : FaithfulEach scene t (v :: vs)

end

end Visit

namespace Matching

variable {scene : Scene} {p : Pattern} {i : Int} {s t u : State}

/-- From `s` to `u`, all that was recorded is a faithful visit of the node. -/
def Visited (scene : Scene) (p : Pattern) (i : Int) (s : State) (length : Option Nat) (u : State) :
    Prop :=
  ∃ inside, let v := Visit.mk p i inside length
    v.Faithful scene s.table u.table ∧ u.events.toList = s.events.toList ++ v.events

def Tells (scene : Scene) (s u : State) : Prop :=
  ∃ vs, Visit.FaithfulEach scene s.table vs ∧
    u.events.toList = s.events.toList ++ Visit.eventsEach vs

theorem tells_of_events (h : u.events = s.events) : Tells scene s u :=
  ⟨[], .nil, by simp [h, Visit.eventsEach]⟩

theorem Tells.after {n : Option Nat} (h : Tells scene t u) (hv : Visited scene p i s n t) :
    Tells scene s u := by
  obtain ⟨vs, hvs, he⟩ := h
  obtain ⟨inside, hv, he'⟩ := hv
  exact ⟨_ :: vs, .cons hv hvs, by rw [he, he', Visit.eventsEach, List.append_assoc]⟩

theorem Visited.tells {n : Option Nat} (hv : Visited scene p i s n t) (h : u.events = t.events) :
    Tells scene s u :=
  (tells_of_events h).after hv

/-- Unless it failed, all that was recorded since `s` is faithful visits. -/
def Result.Told (scene : Scene) (s : State) : Result → Prop
  | .hit _ u | .miss u => Tells scene s u
  | .fault _ _ => True

def Found.Told (scene : Scene) (s : State) : Found → Prop
  | .found _ _ u | .nothing u => Tells scene s u
  | .fault _ _ => True

theorem Result.Told.after {r : Result} {n : Option Nat} (h : r.Told scene t)
    (hv : Visited scene p i s n t) : r.Told scene s := by
  cases r with
  | hit k u => exact Tells.after h hv
  | miss u => exact Tells.after h hv
  | fault f u => trivial

theorem tells_of_ended {r : Result} {n : Option Nat} (h : r.Told scene s)
    (he : r.ended? = some (n, u)) : Tells scene s u := by
  cases r <;> cases he
  · exact h
  · exact h

theorem Found.Told.after {r : Found} {n : Option Nat} (h : r.Told scene t)
    (hv : Visited scene p i s n t) : r.Told scene s := by
  cases r with
  | found k l u => exact Tells.after h hv
  | nothing u => exact Tells.after h hv
  | fault f u => trivial

/-- What an attempt records is a faithful visit, and a miss leaves the table as it was. -/
def Narrates (scene : Scene) (attempt : Attempt) : Prop :=
  ∀ p i s n u, 0 ≤ i → (attempt p i s).ended? = some (n, u) →
    Visited scene p i s n u ∧ (n = none → u.table = s.table)

theorem Narrates.hit {attempt : Attempt} (h : Narrates scene attempt) (hi : 0 ≤ i) {n : Nat}
    (hr : attempt p i s = .hit n u) : Visited scene p i s (some n) u :=
  (h p i s (some n) u hi (by rw [hr]; rfl)).1

theorem Narrates.miss {attempt : Attempt} (h : Narrates scene attempt) (hi : 0 ≤ i)
    (hr : attempt p i s = .miss u) : Visited scene p i s none u ∧ u.table = s.table := by
  obtain ⟨hv, htable⟩ := h p i s none u hi (by rw [hr]; rfl)
  exact ⟨hv, htable rfl⟩

theorem rollback_eq_self (h : u.table = s.table) : u.rollback s.mark = u := by
  simp only [State.rollback, State.mark, ← h, Captures.rollback_mark]

theorem mark_eq (h : u.table = s.table) : u.mark = s.mark := by
  simp only [State.mark, h]

section

variable {attempt : Attempt} (h : Narrates scene attempt) (hi : 0 ≤ i)
include h hi

theorem told_inOrder (ps : List Pattern) (n : Nat) : (inOrder attempt i ps n s).Told scene s := by
  induction ps generalizing n s with
  | nil => exact tells_of_events rfl
  | cons p ps ih =>
    simp only [inOrder]
    cases hr : attempt p (i + n) s with
    | hit k u => exact (ih (n + k)).after (h.hit (by omega) hr)
    | miss u => exact (h.miss (by omega) hr).1.tells rfl
    | fault f u => trivial

theorem told_firstOf (ps : List Pattern) : (firstOf attempt s.mark i ps s).Told scene s := by
  induction ps generalizing s with
  | nil => exact tells_of_events rfl
  | cons p ps ih =>
    simp only [firstOf]
    cases hr : attempt p i s with
    | hit k u => exact (h.hit hi hr).tells rfl
    | miss u =>
      obtain ⟨hv, htable⟩ := h.miss hi hr
      simp only
      rw [rollback_eq_self htable, ← mark_eq htable]
      exact ih.after hv
    | fault f u => trivial

theorem told_repeatedly (p : Pattern) (times n : Nat) :
    (repeatedly attempt p i times n s).Told scene s := by
  induction times generalizing n s with
  | zero => trivial
  | succ times ih =>
    simp only [repeatedly]
    cases hr : attempt p (i + n) s with
    | hit k u =>
      have hv := h.hit (by omega) hr
      cases k with
      | zero => exact hv.tells rfl
      | succ k => exact (ih _).after hv
    | miss u => exact (h.miss (by omega) hr).1.tells rfl
    | fault f u => trivial

theorem told_scan (p : Pattern) (count skipped : Nat) :
    (scan attempt s.mark p i count skipped s).Told scene s := by
  induction count generalizing skipped s with
  | zero => exact tells_of_events rfl
  | succ count ih =>
    simp only [scan]
    cases hr : attempt p (i + skipped) s with
    | hit k u => exact (h.hit (by omega) hr).tells rfl
    | miss u =>
      obtain ⟨hv, htable⟩ := h.miss (by omega) hr
      simp only
      rw [rollback_eq_self htable, ← mark_eq htable]
      exact (ih _).after hv
    | fault f u => trivial

end

theorem told_compared (x : Except Fault (Option Nat)) : (compared s x).Told scene s := by
  cases x with
  | error f => trivial
  | ok o => cases o <;> exact tells_of_events rfl

theorem told_fill (scene' : Scene) (id : Nat) (span : Span) (n : Nat) (h : Tells scene s u) :
    (fill scene' id span n u).Told scene s := by
  simp only [fill]
  cases scene'.store.slot? id with
  | none => trivial
  | some slot =>
    simp only
    cases u.table.set slot span with
    | error f => trivial
    | ok table => exact h

/-- What one node records inside is faithful visits if what the nodes below it record is. -/
theorem told_step (scene' : Scene) {attempt : Attempt} (h : Narrates scene attempt) (p : Pattern)
    (hi : 0 ≤ i) : (step scene' attempt p i s).Told scene s := by
  have test {c : Prop} [Decidable c] (n : Nat) :
      (if c then Result.hit n s else .miss s).Told scene s := by
    split <;> exact tells_of_events rfl
  have only (q : Pattern) : (attempt q i s).Told scene s := by
    cases hr : attempt q i s with
    | hit n u => exact (h.hit hi hr).tells rfl
    | miss u => exact (h.miss hi hr).1.tells rfl
    | fault f u => trivial
  cases p with
  | empty => exact tells_of_events rfl
  | starAny => exact tells_of_events rfl
  | any => exact test 1
  | anyRune => exact test 1
  | startAnchor => exact test 0
  | valued id how v => cases how <;> trivial
  | sequence id items =>
    have hin := told_inOrder h hi (s := s) items 0
    simp only [step]
    cases hr : inOrder attempt i items 0 s <;> rw [hr] at hin <;> exact hin
  | choice id items => exact told_firstOf h hi items
  | star id body => exact told_repeatedly h hi body _ 0
  | option id body =>
    have hb := only body
    simp only [step]
    cases hr : attempt body i s <;> rw [hr] at hb <;> exact hb
  | peek id body =>
    have hb := only body
    simp only [step]
    cases hr : attempt body i s <;> rw [hr] at hb <;> exact hb
  | not id body =>
    have hb := only body
    simp only [step]
    cases hr : attempt body i s <;> rw [hr] at hb <;> exact hb
  | capture id body =>
    have hb := only body
    simp only [step]
    cases hr : attempt body i s with
    | hit n u => rw [hr] at hb; exact told_fill scene' id _ n hb
    | miss u => rw [hr] at hb; exact hb
    | fault f u => trivial
  | search id body =>
    have hf := told_scan h hi (s := s) body (positions scene'.subject i) 0
    simp only [step]
    cases hr : scan attempt s.mark body i (positions scene'.subject i) 0 s <;>
      rw [hr] at hf <;> exact hf
  | capturedSearch id body =>
    have hf := told_scan h hi (s := s) body (positions scene'.subject i) 0
    simp only [step]
    cases hr : scan attempt s.mark body i (positions scene'.subject i) 0 s with
    | found skipped n u => rw [hr] at hf; exact told_fill scene' id _ _ hf
    | nothing u => rw [hr] at hf; exact hf
    | fault f u => trivial
  | call id r =>
    simp only [step]
    split
    · exact only _
    · trivial
    · trivial
  | rule id r =>
    simp only [step]
    split
    · exact only _
    · trivial
    · trivial
  | grammar id start others => exact only _
  | backref id how slot =>
    simp only [step]
    split
    · exact tells_of_events rfl
    · exact told_compared _
    · trivial
  | _ => exact told_compared _

theorem ended?_unwatched (scene : Scene) (depth : Nat) (p : Pattern) (i : Int) (s : State) :
    (attempt scene.unwatched depth p i { table := s.table }).ended? =
      (attempt scene.watchAll depth p i s).ended?.map fun e => (e.1, { table := e.2.table }) := by
  have unseen (s : State) : s.through (fun _ => {}) = { table := s.table } := by
    have hnone : Event.wanted (fun _ => {}) = fun _ => false := by
      funext e
      cases e <;> rfl
    simp [State.through, hnone]
  rw [← unseen s, Scene.unwatched, attempt_through scene depth p i s]
  cases attempt scene.watchAll depth p i s <;> simp [Result.through, Result.ended?, unseen]

theorem narrates_attempt (scene : Scene) (depth : Nat) :
    Narrates scene.unwatched (attempt scene.watchAll depth) := by
  induction depth with
  | zero => exact fun p i s n u _ h => by cases h
  | succ depth ih =>
    intro p i s n u hi h
    have hu := ended?_unwatched scene (depth + 1) p i s
    rw [h] at hu
    obtain ⟨v, hv, rfl⟩ := ended?_leave h
    have hstep := told_step scene.watchAll ih p hi (s := s.record true (.enter p i))
    obtain ⟨vs, hvs, he⟩ := tells_of_ended hstep hv
    refine ⟨⟨vs, .mk (depth + 1) hu hvs, ?_⟩, fun hn => ?_⟩
    · simp [State.record, he, Visit.events]
    · have hf := follows_attempt scene.watchAll (depth + 1) p i s hi
      subst hn
      cases hr : attempt scene.watchAll (depth + 1) p i s <;> rw [hr] at h <;> cases h
      rw [hr] at hf
      exact hf.2

theorem run_through (scene : Scene) (watch : Kind → Watch) (table : Captures) (p : Pattern)
    (i : Int) (depth : Nat) :
    run { scene with watch := watch } table p i depth =
      (run scene.watchAll table p i depth).through watch :=
  attempt_through scene (depth + 1) p i { table := table.reset }

end Matching

namespace Library

open Matching

/-- How parsing goes on when the captures are numbered. -/
def ending (l : Library) : Result → EStateM.Result Failure Library (Option Nat × List Event)
  | .hit n s => .ok (some n, s.events.toList) l
  | .miss s => .ok (none, s.events.toList) l
  | .fault f _ => .error (.fault f) l

theorem ending_eq_ok {l l' : Library} {r : Result} {n : Option Nat} {es : List Event} :
    ending l r = .ok (n, es) l' ↔ ∃ u, r.ended? = some (n, u) ∧ es = u.events.toList ∧ l' = l := by
  constructor
  · intro h
    cases r <;> cases h <;> exact ⟨_, rfl, rfl, rfl⟩
  · rintro ⟨u, hu, rfl, rfl⟩
    cases r <;> cases hu <;> rfl

theorem parseEvents_eq (watch : Kind → Watch) (p : Pattern) (subject : Subject) (start : Int)
    (l : Library) :
    parseEvents watch p subject start l =
      match number l.config.capacity p l with
      | .error e l' => .error e l'
      | .ok _ l' =>
        match Captures.make l.config.capacity with
        | .error f => .error (.fault f) l'
        | .ok table =>
          ending l' (run ⟨subject, l'.store, start, watch⟩ table p start l'.depth) := by
  simp only [parseEvents, runWatched, bind, EStateM.bind, get_apply]
  cases number l.config.capacity p l with
  | error e l' => rfl
  | ok n l' =>
    cases Captures.make l.config.capacity with
    | error f => rfl
    | ok table =>
      simp only [ofExcept, pure, EStateM.pure]
      cases run ⟨subject, l'.store, start, watch⟩ table p start l'.depth <;> rfl

theorem lengthAt_eq (p : Pattern) (subject : Subject) (start : Int) (l : Library) :
    lengthAt p subject start l =
      match number l.config.capacity p l with
      | .error e l' => .error e l'
      | .ok _ l' =>
        match Captures.make l.config.capacity with
        | .error f => .error (.fault f) l'
        | .ok table =>
          match run ⟨subject, l'.store, start, fun _ => {}⟩ table p start l'.depth with
          | .hit n _ => .ok (some n) l'
          | .miss _ => .ok none l'
          | .fault f _ => .error (.fault f) l' := by
  simp only [lengthAt, probe, bind, EStateM.bind, get_apply]
  cases number l.config.capacity p l with
  | error e l' => rfl
  | ok n l' =>
    cases Captures.make l.config.capacity with
    | error f => rfl
    | ok table =>
      simp only [ofExcept, pure, EStateM.pure, Probe.matchLength, Probe.tryAt, bind, Except.bind]
      cases run ⟨subject, l'.store, start, fun _ => {}⟩ table p start l'.depth <;> rfl

theorem fst_parseEvents (watch : Kind → Watch) (p : Pattern) (subject : Subject) (start : Int) :
    Prod.fst <$> parseEvents watch p subject start = lengthAt p subject start := by
  funext l
  have hmap : (Prod.fst <$> parseEvents watch p subject start) l =
      match parseEvents watch p subject start l with
      | .ok a l' => .ok a.1 l'
      | .error e l' => .error e l' := by
    simp only [Functor.map, EStateM.map]
    cases parseEvents watch p subject start l <;> rfl
  rw [hmap, parseEvents_eq, lengthAt_eq]
  cases number l.config.capacity p l with
  | error e l' => rfl
  | ok n l' =>
    cases Captures.make l.config.capacity with
    | error f => rfl
    | ok table =>
      simp only [run_through ⟨subject, l'.store, start, fun _ => {}⟩ watch table p start l'.depth,
        run_through ⟨subject, l'.store, start, fun _ => {}⟩ (fun _ => {}) table p start l'.depth]
      cases run (Scene.watchAll ⟨subject, l'.store, start, fun _ => {}⟩) table p start
        l'.depth <;> rfl

/-- An event parser returns the length of the match, or fails as the match does. If it returns, what
it records of every node is the events of a faithful visit of the pattern, and what it records of
some kinds of nodes is those of these events that are wanted. -/
theorem events_of_faithful_visit (p : Pattern) (subject : Subject) (start : Int) (hs : 0 ≤ start) :
    (∀ watch, Prod.fst <$> parseEvents watch p subject start = lengthAt p subject start) ∧
    ∀ l n es l', parseEvents (fun _ => ⟨true, true⟩) p subject start l = .ok (n, es) l' →
      (∃ inside table left, let v := Visit.mk p start inside n
        Captures.make l.config.capacity = .ok table ∧
        v.Faithful { subject := subject, store := l'.store, origin := start } table.reset left ∧
        es = v.events) ∧
      ∀ watch, parseEvents watch p subject start l =
        .ok (n, es.filter (Event.wanted watch)) l' := by
  refine ⟨fun watch => fst_parseEvents watch p subject start, fun l n es l' h => ?_⟩
  simp only [parseEvents_eq] at h ⊢
  cases hn : number l.config.capacity p l with
  | error e l'' => simp [hn] at h
  | ok k l'' =>
    rw [hn] at h
    cases ht : Captures.make l.config.capacity with
    | error f => simp [ht] at h
    | ok table =>
      simp only [ht] at h ⊢
      let scene : Scene := { subject := subject, store := l''.store, origin := start }
      obtain ⟨u, hu, rfl, rfl⟩ :=
        ending_eq_ok.1 (show ending l'' (run scene.watchAll table p start l''.depth) = _ from h)
      refine ⟨?_, fun watch => ?_⟩
      · obtain ⟨⟨inside, hv, he⟩, -⟩ := narrates_attempt scene (l'.depth + 1) p start _ n u hs hu
        exact ⟨inside, table, u.table, rfl, hv, by simpa using he⟩
      · rw [show run ⟨subject, l'.store, start, watch⟩ table p start l'.depth = _ from
          run_through scene watch table p start l'.depth]
        refine ending_eq_ok.2 ⟨u.through watch, ?_, by simp [State.through], rfl⟩
        cases hr : run scene.watchAll table p start l'.depth <;> rw [hr] at hu <;> cases hu <;> rfl

/-- The first branch of `{'a'} 'c' / 'a'` is left without a match, and the second one matches. -/
theorem events_of_failed_branch :
    let l : Library := { config := ⟨[(Text.ofString "MAX_SUBPATTERNS", .int 1)]⟩ }
    let a : Pattern := .char 33 'a'
    let c : Pattern := .char 34 'c'
    let first : Pattern := .sequence 35 [.capture 32 a, c]
    let both : Pattern := .choice 36 [first, a]
    let es : List Event :=
      [.enter both 0, .enter first 0, .enter (.capture 32 a) 0, .enter a 0, .leave a 0 (some 1),
      .leave (.capture 32 a) 0 (some 1), .enter c 1, .leave c 1 none,
        .leave first 0 none, .enter a 0,
      .leave a 0 (some 1), .leave both 0 (some 1)]
    (0 : Int) ≤ 0 ∧
    ∃ l', parseEvents (fun _ => ⟨true, true⟩) both #['a', 'b'] 0 l = .ok (some 1, es) l' ∧
      (∃ inside table left, Captures.make l.config.capacity = .ok table ∧
        (Visit.mk both 0 inside (some 1)).Faithful
          { subject := #['a', 'b'], store := l'.store, origin := 0 } table.reset left ∧
        es = (Visit.mk both 0 inside (some 1)).events) ∧
      parseEvents (fun k => if k = .sequence then ⟨false, true⟩ else {}) both #['a', 'b'] 0 l =
      .ok (some 1, [.leave first 0 none]) l' := by
  intro l a c first both es
  have hes : parseEvents (fun _ => ⟨true, true⟩) both #['a', 'b'] 0 l = .ok (some 1, es)
      { l with store := { slots := [(32, 0)], counts := [(36, 1)] } } := by
    rw [parseEvents_eq]
    rfl
  obtain ⟨-, h⟩ := events_of_faithful_visit both #['a', 'b'] 0 (by decide)
  obtain ⟨hv, hw⟩ := h _ _ _ _ hes
  exact ⟨by decide, _, hes, hv, hw _⟩

end Library

end PegMatch

import Mathlib.Data.List.Induction
import PegMatch.Pattern.Numbering
import PegMatch.Proofs.Lockstep
import PegMatch.Proofs.Safety

set_option autoImplicit false

/-! The order of captures. A tree is read from left to right as a row of marks, its captures and its
back references, and numbering a compiled pattern goes through this row once: a capture takes the
number of different captures that stand before it as its slot. -/

namespace PegMatch

/-- A capture node, or a back reference to a slot. -/
inductive Mark where
  | capture (id : Nat)
  | reference (slot : Nat)
  deriving Repr, DecidableEq

namespace Mark

def capture? : Mark → Option Nat
  | .capture id => some id
  | .reference _ => none

/-- The captures in a row of marks. -/
def captured (ms : List Mark) : List Nat :=
  ms.filterMap capture?

/-- The different captures, each where it is first met. -/
def order (ms : List Mark) : List Nat :=
  (captured ms).eraseDups

variable {a b ms : List Mark} {id k n : Nat}

@[simp] theorem captured_nil : captured [] = [] := rfl

@[simp] theorem captured_capture : captured (.capture id :: ms) = id :: captured ms := rfl

@[simp] theorem captured_reference : captured (.reference k :: ms) = captured ms := rfl

@[simp] theorem captured_append (a b : List Mark) : captured (a ++ b) = captured a ++ captured b :=
  List.filterMap_append

theorem mem_captured : id ∈ captured ms ↔ .capture id ∈ ms := by
  simp only [captured, List.mem_filterMap]
  constructor
  · rintro ⟨m, hm, hid⟩
    cases m with
    | capture j => cases hid; exact hm
    | reference k => cases hid
  · exact fun h => ⟨_, h, rfl⟩

theorem mem_order : id ∈ order ms ↔ id ∈ captured ms :=
  List.mem_eraseDups

@[simp] theorem order_nil : order [] = [] := rfl

theorem order_append_of_apart (h : ∀ id ∈ captured b, id ∉ captured a) :
    order (a ++ b) = order a ++ order b := by
  have hall : (captured b).removeAll (captured a) = captured b :=
    List.filter_eq_self.2 fun id hid => by simpa using h id hid
  rw [order, captured_append, List.eraseDups_append, hall, order, order]

theorem order_append_of_within (h : ∀ id ∈ captured b, id ∈ captured a) :
    order (a ++ b) = order a := by
  have hnone : (captured b).removeAll (captured a) = [] :=
    List.filter_eq_nil_iff.2 fun id hid => by simpa using h id hid
  simp [order, List.eraseDups_append, hnone]

theorem order_cons_of_new (h : id ∉ captured ms) : order (.capture id :: ms) = id :: order ms :=
  order_append_of_apart (a := [.capture id]) fun _ hj hid => h (List.mem_singleton.1 hid ▸ hj)

theorem order_concat_of_new (h : id ∉ captured ms) :
    order (ms ++ [.capture id]) = order ms ++ [id] :=
  order_append_of_apart (by simpa using h)

theorem order_concat_cases (ms : List Mark) (m : Mark) :
    (∃ id, m = .capture id ∧ id ∉ captured ms ∧ order (ms ++ [m]) = order ms ++ [id]) ∨
      order (ms ++ [m]) = order ms := by
  by_cases hnew : ∃ id, m = .capture id ∧ id ∉ captured ms
  · obtain ⟨id, rfl, hid⟩ := hnew
    exact .inl ⟨id, rfl, hid, order_concat_of_new hid⟩
  · refine .inr (order_append_of_within fun id hid => ?_)
    by_contra hout
    exact hnew ⟨id, (List.mem_singleton.1 (mem_captured.1 hid)).symm, hout⟩

theorem isPrefix_order (a b : List Mark) : order a <+: order (a ++ b) := by
  simp [order, List.eraseDups_append]

theorem length_order_lt (hsplit : ms = a ++ .capture id :: b) (h : id ∉ captured a) :
    (order a).length < (order ms).length := by
  have hle := (isPrefix_order (a ++ [.capture id]) b).length_le
  rw [order_concat_of_new h, List.length_append,
    List.length_singleton, ← List.append_cons, ← hsplit] at hle
  exact hle

theorem exists_last_new (h : 0 < (order ms).length) :
    ∃ a id b, ms = a ++ .capture id :: b ∧ id ∉ captured a ∧
      (order ms).length = (order a).length + 1 := by
  induction ms using List.reverseRecOn with
  | nil => simp at h
  | append_singleton ms m ih =>
    rcases order_concat_cases ms m with ⟨id, rfl, hid, hmore⟩ | hsame
    · exact ⟨ms, id, [], rfl, hid, by simp [hmore]⟩
    · rw [hsame] at h ⊢
      obtain ⟨a, id, b, rfl, hid, hlength⟩ := ih h
      exact ⟨a, id, b ++ [m], by simp, hid, hlength⟩

/-- With `n` captures before the row, every back reference refers to one that stands before it. -/
def Backed (n : Nat) (ms : List Mark) : Prop :=
  ∀ before k after, ms = before ++ .reference k :: after → k < n + (order before).length

theorem backed_nil (n : Nat) : Backed n [] := by
  intro before k after h
  simp at h

theorem Backed.left (h : Backed n (a ++ b)) : Backed n a := by
  intro before k after ha
  exact h before k (after ++ b) (by simp [ha])

/-- Marks behind others, where each reference is looked at together with all that stands before
it. -/
theorem Backed.append (h : Backed n a) (hb : ∀ before k after, b = before ++ .reference k :: after →
    k < n + (order (a ++ before)).length) : Backed n (a ++ b) := by
  intro before k after hab
  rcases List.append_eq_append_iff.1 hab with ⟨c, rfl, hc⟩ | ⟨c, rfl, hc⟩
  · exact hb c k after hc
  · cases c with
    | nil =>
      have := hb [] k after (by simpa using hc.symm)
      simpa using this
    | cons m c =>
      obtain ⟨rfl, rfl⟩ := List.cons.inj hc
      exact h before _ c rfl

theorem Backed.append_of_apart (h : Backed n a) (hb : Backed (n + (order a).length) b)
    (ha : ∀ id ∈ captured b, id ∉ captured a) : Backed n (a ++ b) := by
  refine h.append fun before k after hsplit => ?_
  have hk := hb before k after hsplit
  have hbefore : order (a ++ before) = order a ++ order before :=
    order_append_of_apart fun id hid => ha id (by simp [hsplit, hid])
  rw [hbefore, List.length_append]
  omega

theorem Backed.again (h : Backed n (a ++ b)) : Backed n (a ++ (b ++ b)) := by
  rw [← List.append_assoc]
  refine h.append fun before k after hsplit => ?_
  have hk := h (a ++ before) k after (by simp [hsplit])
  have hbefore : order (a ++ b ++ before) = order (a ++ b) :=
    order_append_of_within fun id hid => by simp [hsplit, hid]
  have hle := (isPrefix_order (a ++ before) (.reference k :: after)).length_le
  rw [List.append_assoc, ← hsplit] at hle
  rw [hbefore]
  omega

theorem backed_of_references (h : ∀ k, .reference k ∈ ms → k < n) : Backed n ms := by
  intro before k after hsplit
  have := h k (by simp [hsplit])
  omega

end Mark

namespace Pattern

mutual

/-- The captures and back references of a tree from left to right, a capture before what it
holds. -/
def marks : Pattern → List Mark
  | .capture id p => .capture id :: marks p
  | .capturedSearch id p => .capture id :: marks p
  | .backref _ _ slot => [.reference slot]
  | .sequence _ ps => marksEach ps
  | .choice _ ps => marksEach ps
  | .star _ p => marks p
  | .option _ p => marks p
  | .peek _ p => marks p
  | .not _ p => marks p
  | .search _ p => marks p
  | _ => []

def marksEach : List Pattern → List Mark
  | [] => []
  | p :: ps => marks p ++ marksEach ps

end

theorem marksEach_eq_flatMap (ps : List Pattern) : marksEach ps = ps.flatMap marks := by
  induction ps with
  | nil => rfl
  | cons p ps ih =>
    rw [List.flatMap_cons, ← ih]
    rfl

variable {p : Pattern}

theorem marks_sequenceItems (p : Pattern) : p.sequenceItems.flatMap marks = p.marks := by
  cases p with
  | sequence id ps => exact (marksEach_eq_flatMap ps).symm
  | empty => rfl
  | _ => exact List.append_nil _

theorem marks_choiceItems (p : Pattern) : p.choiceItems.flatMap marks = p.marks := by
  cases p with
  | choice id ps => exact (marksEach_eq_flatMap ps).symm
  | _ => exact List.append_nil _

@[simp] theorem marks_seq (id : Nat) (ps : List Pattern) :
    (seq id ps).marks = ps.flatMap marks := by
  have hitems : (ps.flatMap sequenceItems).flatMap marks = ps.flatMap marks := by
    simp only [List.flatMap_assoc, marks_sequenceItems]
  rw [← hitems]
  unfold seq
  split
  · next h => rw [h]; rfl
  · next h => simp [h]
  · exact marksEach_eq_flatMap _

theorem marks_of_characters {s : RuneSet} (h : p.characters? = some s) : p.marks = [] := by
  cases p with
  | char id c => rfl
  | set id members sense => rfl
  | _ => cases h

@[simp] theorem marks_alt (id : Nat) (p : Pattern) (ps : List Pattern) :
    (alt id p ps).marks = (p :: ps).flatMap marks := by
  have hitems : ((p :: ps).flatMap choiceItems).flatMap marks = (p :: ps).flatMap marks := by
    simp only [List.flatMap_assoc, marks_choiceItems]
  rw [← hitems]
  unfold alt
  split
  · next h => simp [h]
  · split
    · next sets h =>
      refine (List.flatMap_eq_nil_iff.2 fun q hq => ?_).symm
      obtain ⟨s, hs⟩ := mapM_characters.1 ⟨sets, h⟩ q hq
      exact marks_of_characters hs
    · exact marksEach_eq_flatMap _

@[simp] theorem marks_repeated (id : Nat) (p : Pattern) : (repeated id p).marks = p.marks := by
  induction p using induction_children with
  | node p ih =>
    cases p with
    | option i q => exact ih q (by simp [children])
    | _ => rfl

@[simp] theorem marks_plus (starId id : Nat) (p : Pattern) :
    (plus starId id p).marks = p.marks ++ p.marks := by
  simp [plus]

@[simp] theorem marks_opt (id : Nat) (p : Pattern) : (opt id p).marks = p.marks := by
  cases p <;> rfl

@[simp] theorem marks_text (id : Nat) (how : Comparison) (t : Text) :
    (text id how t).marks = [] := by
  cases how <;> simp only [text, term] <;> split <;> rfl

theorem marks_namedSet {name : Text} (h : namedSet? name = some p) : p.marks = [] := by
  unfold namedSet? at h
  split at h <;> cases h <;> rfl

@[simp] theorem marks_ident (setId starId id : Nat) : (ident setId starId id).marks = [] := by
  rw [ident, marks_seq]
  rfl

theorem marks_subset_of_child {q : Pattern} (hq : q ∈ p.children) : q.marks ⊆ p.marks := by
  have each {ps : List Pattern} (hq : q ∈ ps) : q.marks ⊆ marksEach ps := by
    rw [marksEach_eq_flatMap]
    exact fun m hm => List.mem_flatMap.2 ⟨q, hq, hm⟩
  cases p <;> simp only [children, List.mem_singleton, List.not_mem_nil] at hq
  case sequence id ps => exact each hq
  case choice id ps => exact each hq
  case capture id r => subst hq; exact List.subset_cons_self _ _
  case capturedSearch id r => subst hq; exact List.subset_cons_self _ _
  all_goals subst hq; exact fun m hm => hm

end Pattern

namespace Store

def bodyMarks (store : Store) (r : Nat) : List Mark :=
  (store.rule r).body.elim [] Pattern.marks

/-- The marks of a compiled pattern. Those of a grammar are the marks of its rules, as they
stand. -/
def marks (store : Store) : Pattern → List Mark
  | .grammar _ start others => (start :: others).flatMap fun d => store.bodyMarks d.2
  | p => p.marks

/-- The store without slots and counts. -/
def unnumbered (store : Store) : Store :=
  { store with slots := [], counts := [] }

/-- How many slots captures take that are met in this order: one that has none takes the next. -/
def taken (store : Store) (ids : List Nat) : Nat :=
  ids.foldl (fun n id => (store.slot? id).elim (n + 1) fun slot => max n (slot + 1)) 0

section

variable {store : Store} {ids : List Nat} {id : Nat}

@[simp] theorem taken_nil : store.taken [] = 0 := rfl

theorem taken_concat : store.taken (ids ++ [id]) =
    (store.slot? id).elim (store.taken ids + 1) fun slot => max (store.taken ids) (slot + 1) := by
  simp [taken]

theorem taken_le_append (store : Store) (ids ids' : List Nat) :
    store.taken ids ≤ store.taken (ids ++ ids') := by
  induction ids' generalizing ids with
  | nil => simp
  | cons id ids' ih =>
    have hle : store.taken ids ≤ store.taken (ids ++ [id]) := by
      rw [taken_concat]
      cases store.slot? id with
      | none => exact Nat.le_succ _
      | some slot => exact Nat.le_max_left _ _
    rw [List.append_cons]
    exact Nat.le_trans hle (ih (ids ++ [id]))

theorem taken_take_mono (store : Store) (ids : List Nat) {i j : Nat} (h : i ≤ j) :
    store.taken (ids.take i) ≤ store.taken (ids.take j) := by
  have hsplit := List.take_append_drop i (ids.take j)
  rw [List.take_take, Nat.min_eq_left h] at hsplit
  rw [← hsplit]
  exact taken_le_append store _ _

theorem slot_lt_taken (store : Store) {i j : Nat} (hij : i < j) (hi : ids[i]? = some id) :
    (store.slot? id).getD (store.taken (ids.take i)) < store.taken (ids.take j) := by
  refine Nat.lt_of_lt_of_le ?_ (taken_take_mono store ids (Nat.succ_le_of_lt hij))
  rw [List.take_add_one, hi, Option.toList_some, taken_concat]
  cases store.slot? id with
  | none => exact Nat.lt_succ_self _
  | some slot => exact Nat.lt_of_lt_of_le (Nat.lt_succ_self slot) (Nat.le_max_right _ _)

theorem taken_eq_length (h : ∀ id ∈ ids, store.slot? id = none) : store.taken ids = ids.length := by
  have counted (n : Nat) :
      ids.foldl (fun n id => (store.slot? id).elim (n + 1) fun slot => max n (slot + 1)) n =
      n + ids.length := by
    induction ids generalizing n with
    | nil => rfl
    | cons id ids ih =>
      rw [List.foldl_cons, h id (by simp), ih (fun i hi => h i (by simp [hi])), List.length_cons]
      simp only [Option.elim_none]
      omega
  simpa [taken] using counted 0

theorem getElem?_iff_taken (h : ∀ id ∈ ids, store.slot? id = none) {k : Nat} :
    (∃ j, ids[j]? = some id ∧ k = store.taken (ids.take j)) ↔ ids[k]? = some id := by
  have hplace {j : Nat} (hj : ids[j]? = some id) : store.taken (ids.take j) = j := by
    obtain ⟨hlt, -⟩ := List.getElem?_eq_some_iff.1 hj
    rw [taken_eq_length fun i hi => h i (List.mem_of_mem_take hi), List.length_take,
      Nat.min_eq_left (Nat.le_of_lt hlt)]
  constructor
  · rintro ⟨j, hj, rfl⟩
    rwa [hplace hj]
  · exact fun hk => ⟨k, hk, (hplace hk).symm⟩

/-- A capture that is met last does not change which slots were taken where another one was met. -/
theorem taken_take_concat {i j k : Nat} (hne : i ≠ id) :
    (ids[j]? = some i ∧ k = store.taken (ids.take j)) ↔
      (ids ++ [id])[j]? = some i ∧ k = store.taken ((ids ++ [id]).take j) := by
  by_cases hj : j < ids.length
  · rw [List.getElem?_append_left hj, List.take_append_of_le_length (Nat.le_of_lt hj)]
  · have hout : ids[j]? = none := List.getElem?_eq_none (Nat.le_of_not_lt hj)
    have hout' : (ids ++ [id])[j]? ≠ some i := by grind
    simp [hout, hout']

end

theorem bodyMarks_of_body {store : Store} {r : Nat} {p : Pattern}
    (h : store.body? r = .ok (some p)) : store.bodyMarks r = p.marks := by
  simp only [body?] at h
  split at h
  · simp [bodyMarks, Except.ok.inj h]
  · cases h

end Store

namespace Numbering

variable {store : Store} {capacity : Datum} {w w' : Walk} {ms : List Mark}

def meet (store : Store) (capacity : Datum) (w : Walk) : Mark → Except Trouble Walk
  | .capture id => meetCapture store capacity id w
  | .reference slot => meetReference slot w

theorem visit_eq {A : Allowed} {p : Pattern} (h : p.Normal A)
    (enter : Bool → Nat → Walk → Except Trouble Walk) {follow : Bool}
    (hc : follow = false ∨ ∀ r, ¬ A.call r) (w : Walk) :
    visit store capacity enter follow p w = p.marks.foldlM (meet store capacity) w := by
  have each {ps : List Pattern}
      (hps : ∀ q ∈ ps, ∀ w, visit store capacity enter follow q w = q.marks.foldlM
        (meet store capacity) w) (w : Walk) : visitEach store capacity enter follow ps w =
      (Pattern.marksEach ps).foldlM (meet store capacity) w := by
    induction ps generalizing w with
    | nil => rfl
    | cons q ps ih =>
      simp only [visitEach, Pattern.marksEach, List.foldlM_append, hps q (by simp)]
      exact bind_congr fun w' => ih (fun r hr => hps r (by simp [hr])) w'
  induction h generalizing w with
  | @node p here below ih =>
    cases p with
    | capture id q =>
      simp only [visit, Pattern.marks, List.foldlM_cons, meet]
      exact bind_congr fun w' => ih q (by simp [Pattern.children]) w'
    | capturedSearch id q =>
      simp only [visit, Pattern.marks, List.foldlM_cons, meet]
      exact bind_congr fun w' => ih q (by simp [Pattern.children]) w'
    | backref id how slot => simp [visit, Pattern.marks, meet]
    | call id r =>
      rcases hc with rfl | hc
      · rfl
      · exact absurd here (hc r)
    | sequence id ps => exact each ih w
    | choice id ps => exact each ih w
    | star id q => exact ih q (by simp [Pattern.children]) w
    | option id q => exact ih q (by simp [Pattern.children]) w
    | peek id q => exact ih q (by simp [Pattern.children]) w
    | not id q => exact ih q (by simp [Pattern.children]) w
    | search id q => exact ih q (by simp [Pattern.children]) w
    | valued id how v => exact here.elim
    | rule id r => exact here.elim
    | grammar id start others => exact here.elim
    | _ => rfl

def Fits (capacity : Datum) (n : Nat) : Prop :=
  ∀ k < n, ∃ most, capacity.int? = some most ∧ (k : Int) < most

/-- The walk has gone through the marks. Where it first met a capture without a slot, it gave the
next one. -/
structure Tracks (store : Store) (w : Walk) (ms : List Mark) : Prop where
  count : w.count = store.taken (Mark.order ms)
  given : ∀ id k, w.given.lookup id = some k ↔ store.slot? id = none ∧
    ∃ j, (Mark.order ms)[j]? = some id ∧ k = store.taken ((Mark.order ms).take j)

theorem tracks_nil (store : Store) (seen : List Nat) : Tracks store { seen := seen } [] :=
  ⟨rfl, by simp⟩

theorem Tracks.of_order (h : Tracks store w ms) {ms' : List Mark}
    (ho : Mark.order ms' = Mark.order ms) : Tracks store w ms' :=
  ⟨by rw [ho]; exact h.count, by rw [ho]; exact h.given⟩

theorem Tracks.slot_of_mem (h : Tracks store w ms) {id : Nat} (hid : id ∈ Mark.captured ms) :
    ∃ slot, w.slot? store id = some slot ∧ slot < w.count := by
  obtain ⟨j, hj⟩ := List.mem_iff_getElem?.1 (Mark.mem_order.2 hid)
  obtain ⟨hlt, -⟩ := List.getElem?_eq_some_iff.1 hj
  refine ⟨(store.slot? id).getD (store.taken ((Mark.order ms).take j)), ?_, ?_⟩
  · cases hslot : store.slot? id with
    | some slot => simp [Walk.slot?, hslot]
    | none => simp [Walk.slot?, hslot, (h.given id _).2 ⟨hslot, j, hj, rfl⟩]
  · have htaken := Store.slot_lt_taken store hlt hj
    rwa [List.take_length, ← h.count] at htaken

/-- A walk that has met the marks goes on at the next one: a capture has a slot or gets one within
the capacity, and a back reference refers to a slot that is taken. -/
def Passes (store : Store) (capacity : Datum) (ms : List Mark) : Mark → Prop
  | .capture id => store.slot? id = none → id ∉ Mark.captured ms →
      ∃ most, capacity.int? = some most ∧ (store.taken (Mark.order ms) : Int) < most
  | .reference k => k < store.taken (Mark.order ms)

/-- What is wrong where a walk does not go on. -/
def Blames (capacity : Datum) : Mark → Trouble → Prop
  | .capture _, e => ∀ most, capacity.int? = some most → e = .tooMany most
  | .reference k, e => e = .badReference (k + 1)

theorem Tracks.give (h : Tracks store w ms) {id : Nat} (hslot : store.slot? id = none)
    (hid : id ∉ Mark.captured ms) :
    Tracks store { w with count := w.count + 1, given := (id, w.count) :: w.given }
      (ms ++ [.capture id]) := by
  have horder := Mark.order_concat_of_new hid
  refine ⟨by simp [horder, Store.taken_concat, hslot, h.count], fun i k => ?_⟩
  rw [horder, List.lookup_cons]
  by_cases hi : i = id
  · subst hi
    have hnone (j : Nat) : (Mark.order ms)[j]? ≠ some i := fun hj =>
      hid (Mark.mem_order.1 (List.mem_of_getElem? hj))
    simp only [BEq.rfl, Option.some.injEq, hslot, true_and, h.count]
    constructor
    · rintro rfl
      exact ⟨(Mark.order ms).length, by simp, by simp⟩
    · rintro ⟨j, hj, rfl⟩
      obtain rfl : j = (Mark.order ms).length := by
        have := hnone j
        grind
      simp
  · rw [beq_false_of_ne hi, h.given]
    exact and_congr_right fun _ => exists_congr fun j => Store.taken_take_concat hi

theorem Tracks.count_slot (h : Tracks store w ms) {id slot : Nat}
    (hslot : store.slot? id = some slot) (hid : id ∉ Mark.captured ms) :
    Tracks store { w with count := max w.count (slot + 1) } (ms ++ [.capture id]) := by
  have horder := Mark.order_concat_of_new hid
  refine ⟨by simp [horder, Store.taken_concat, hslot, h.count], fun i k => ?_⟩
  rw [horder, h.given]
  refine and_congr_right fun hi => exists_congr fun j => Store.taken_take_concat ?_
  rintro rfl
  rw [hslot] at hi
  cases hi

theorem Tracks.meet (h : Tracks store w ms) (capacity : Datum) (m : Mark) :
    (Passes store capacity ms m ∧ ∃ w', meet store capacity w m = .ok w' ∧
      Tracks store w' (ms ++ [m])) ∨
      (¬ Passes store capacity ms m ∧ ∃ e, meet store capacity w m = .error e ∧
        Blames capacity m e) := by
  cases m with
  | reference k =>
    simp only [Numbering.meet, meetReference, Passes, Blames, h.count]
    by_cases hk : k < store.taken (Mark.order ms)
    · refine .inl ⟨hk, w, by simp [hk], h.of_order ?_⟩
      exact Mark.order_append_of_within (by simp)
    · exact .inr ⟨hk, _, by simp [Nat.le_of_not_lt hk], rfl⟩
  | capture id =>
    simp only [Numbering.meet, Passes, Blames]
    by_cases hid : id ∈ Mark.captured ms
    · -- The capture was met before, so its slot is one of those that are taken.
      obtain ⟨slot, hslot, hlt⟩ := h.slot_of_mem hid
      refine .inl ⟨fun _ hnew => absurd hid hnew, w, ?_, h.of_order ?_⟩
      · simp only [meetCapture, hslot, Nat.max_eq_left (Nat.succ_le_of_lt hlt)]
      · exact Mark.order_append_of_within (by simpa using hid)
    · have hnew : w.given.lookup id = none := by
        refine Option.eq_none_iff_forall_ne_some.2 fun k hk => hid ?_
        obtain ⟨-, j, hj, -⟩ := (h.given id k).1 hk
        exact Mark.mem_order.1 (List.mem_of_getElem? hj)
      cases hslot : store.slot? id with
      | some slot =>
        refine .inl ⟨nofun, _, ?_, h.count_slot hslot hid⟩
        simp [meetCapture, Walk.slot?, hslot]
      | none =>
        have hw : w.slot? store id = none := by simp [Walk.slot?, hslot, hnew]
        simp only [meetCapture, hw, Datum.limit, ← h.count, hid, not_false_eq_true, forall_const]
        cases hc : capacity.int? with
        | none => exact .inr ⟨by simp, _, rfl, by simp⟩
        | some most =>
          by_cases hlt : (w.count : Int) < most
          · exact .inl ⟨⟨most, rfl, hlt⟩, _, by simp [bind, Except.bind, hlt], h.give hslot hid⟩
          · refine .inr ⟨by simpa using hlt, .tooMany most, ?_, by simp⟩
            simp [bind, Except.bind, Int.not_lt.1 hlt]

/-- A walk through marks passes them all, or ends at the first one that it does not pass. -/
theorem Tracks.run {before : List Mark} (h : Tracks store w before) (capacity : Datum)
    (after : List Mark) :
    ((∀ a m b, after = a ++ m :: b → Passes store capacity (before ++ a) m) ∧
      ∃ w', after.foldlM (Numbering.meet store capacity) w = .ok w' ∧
      Tracks store w' (before ++ after)) ∨ ∃ a m b e, after = a ++ m :: b ∧
      ¬ Passes store capacity (before ++ a) m ∧
      after.foldlM (Numbering.meet store capacity) w = .error e ∧ Blames capacity m e := by
  induction after generalizing w before with
  | nil => exact .inl ⟨by simp, w, rfl, by simpa using h⟩
  | cons m after ih =>
    rw [List.foldlM_cons]
    obtain ⟨hm, w₁, hw₁, h₁⟩ | ⟨hm, e, he, hblames⟩ := h.meet capacity m
    · rw [hw₁]
      obtain ⟨hall, w', hw', h'⟩ | ⟨a, m', b, e, rfl, hm', he, hblames⟩ := ih h₁
      · refine .inl ⟨fun a m' b hsplit => ?_, w', hw', by simpa using h'⟩
        cases a with
        | nil =>
          obtain ⟨rfl, -⟩ := List.cons.inj hsplit
          simpa using hm
        | cons n a =>
          obtain ⟨rfl, hrest⟩ := List.cons.inj hsplit
          simpa using hall a m' b hrest
      · exact .inr ⟨m :: a, m', b, e, rfl, by simpa using hm', he, hblames⟩
    · exact .inr ⟨[], m, after, e, rfl, by simpa using hm, by rw [he]; rfl, hblames⟩

end Numbering

namespace Grammar

open PegMatch.Numbering

variable {first most : Nat} {s : State} {p q : Pattern}

theorem marks_of_normal {A : Allowed} (store : Store) (h : p.Normal A) :
    store.marks p = p.marks := by
  cases p with
  | grammar id start others => exact h.here.elim
  | _ => rfl

theorem marks_subset_of_node {store : Store} (h : Node store p q) : q.marks ⊆ store.marks p := by
  induction h with
  | root =>
    cases p with
    | grammar id start others => exact List.nil_subset _
    | _ => exact fun m hm => hm
  | child _ hq ih => exact List.Subset.trans (Pattern.marks_subset_of_child hq) ih
  | @body id start others d q hroot hd hq =>
    subst hroot
    rw [← Store.bodyMarks_of_body hq]
    exact fun m hm => List.mem_flatMap.2 ⟨d, hd, hm⟩

theorem walkRoot_eq (hs : Sound first most s) (hp : Compiled first s p) (capacity : Datum) :
    ∃ seen, walkRoot s.store.unnumbered capacity p =
      (s.store.marks p).foldlM (meet s.store.unnumbered capacity) { seen := seen } := by
  cases hp with
  | single h =>
    rw [marks_of_normal s.store h]
    exact ⟨[], visit_eq h _ (.inr fun _ h => h) _⟩
  | @grammar id start others nodup declared named =>
    obtain ⟨hops, hhops⟩ : ∃ hops, (s.store.rules.size + 1) * (s.store.rules.size + 1) = hops + 1 :=
      Nat.exists_eq_succ_of_ne_zero (by simp)
    have enter (d : Nat × Nat) (hd : d ∈ start :: others) (w : Walk) :
        enterRule s.store.unnumbered capacity (hops + 1) false d.2 w =
          (s.store.bodyMarks d.2).foldlM (meet s.store.unnumbered capacity) w := by
      have hcall := (named d.2).1 (List.mem_map_of_mem hd)
      obtain ⟨body, hbody, htree⟩ := hs.body_of_declared hcall (declared d.2 hcall)
      have hbody' : s.store.unnumbered.body? d.2 = .ok (some body) := hbody
      rw [Store.bodyMarks_of_body hbody]
      simp only [enterRule, hbody']
      exact visit_eq htree _ (.inl rfl) w
    have each {ds : List (Nat × Nat)} (hds : ∀ d ∈ ds, d ∈ start :: others) (w : Walk) :
        (ds.map Prod.snd).foldlM
          (fun w r => enterRule s.store.unnumbered capacity (hops + 1) false r w) w =
        (ds.flatMap fun d => s.store.bodyMarks d.2).foldlM
          (meet s.store.unnumbered capacity) w := by
      induction ds generalizing w with
      | nil => rfl
      | cons d ds ih =>
        simp only [List.map_cons, List.foldlM_cons, List.flatMap_cons, List.foldlM_append,
          enter d (hds d (by simp))]
        exact bind_congr fun w' => ih (fun d' hd' => hds d' (by simp [hd'])) w'
    refine ⟨(start :: others).map Prod.snd ++ [], ?_⟩
    rw [walkRoot, show s.store.unnumbered.rules = s.store.rules from rfl, hhops]
    exact each (fun _ h => h) _

/-- What numbering makes of a compiled pattern without its slots: each capture gets its place in the
order of captures, unless a back reference has too few captures before it. -/
theorem number_unnumbered (hs : Sound first most s) (hp : Compiled first s p) {capacity : Datum}
    (hfits : Fits capacity (Mark.order (s.store.marks p)).length) :
    (Mark.Backed 0 (s.store.marks p) → ∃ store,
      s.store.unnumbered.number capacity p = .ok ((Mark.order (s.store.marks p)).length, store) ∧
      ∀ id k, store.slot? id = some k ↔ (Mark.order (s.store.marks p))[k]? = some id) ∧
    (¬ Mark.Backed 0 (s.store.marks p) →
      ∃ number, s.store.unnumbered.number capacity p = .error (.badReference number)) := by
  obtain ⟨seen, hwalk⟩ := walkRoot_eq hs hp capacity
  have hfresh (id : Nat) : s.store.unnumbered.slot? id = none := rfl
  have hlength (ids : List Nat) : s.store.unnumbered.taken ids = ids.length :=
    Store.taken_eq_length fun id _ => hfresh id
  have hnone : s.store.unnumbered.count? p = none := rfl
  obtain ⟨hall, w, hw, htracks⟩ | ⟨a, m, b, e, hsplit, hm, he, hblames⟩ :=
    (tracks_nil s.store.unnumbered seen).run capacity (s.store.marks p)
  · refine ⟨fun _ =>
      ⟨({ s.store.unnumbered with slots := w.given ++ s.store.unnumbered.slots } : Store).setCount p
        w.count, ?_, fun id k => ?_⟩, fun hb => ?_⟩
    · simp [Store.number, hnone, hwalk, hw, htracks.count, hlength, bind, Except.bind]
    · simp only [Store.slot?, Store.setCount, Store.unnumbered, List.append_nil]
      rw [htracks.given, List.nil_append, Store.getElem?_iff_taken fun id _ => hfresh id]
      simp [hfresh]
    · refine absurd (fun before k after hsplit => ?_) hb
      simpa [Passes, hlength] using hall before (.reference k) after hsplit
  · -- Captures fit into the capacity, so the walk ended at a back reference.
    cases m with
    | capture id =>
      refine absurd (fun _ hnew => ?_) hm
      rw [hlength]
      exact hfits _ (Mark.length_order_lt hsplit hnew)
    | reference k =>
      refine ⟨fun hb => absurd (hb a k b hsplit) ?_, fun _ => ⟨k + 1, ?_⟩⟩
      · simpa [Passes, hlength] using hm
      · obtain rfl := hblames
        simp [Store.number, hnone, hwalk, he, bind, Except.bind]

end Grammar

end PegMatch

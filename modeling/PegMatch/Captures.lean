import PegMatch.Datum.Arithmetic
import PegMatch.Fault

set_option autoImplicit false

/-! Capture tables. Every change is written to a journal, so that a failed branch of a match can be
undone: a mark is the length of the journal, and rolling back to it restores what was overwritten
since. -/

namespace PegMatch

structure Span where
  start : Int
  length : Int
  deriving Repr, DecidableEq

namespace Span

def stop (s : Span) : Int := s.start + s.length

def display (s : Span) : String :=
  s!"({s.start}, {s.length})"

end Span

structure Captures where
  capacity : Int
  spans : Array (Option Span)
  journal : Array (Nat × Option Span) := #[]
  deriving Repr

namespace Captures

def ofCapacity (capacity : Int) : Captures where
  capacity := capacity
  spans := Array.replicate capacity.toNat none

/-- More slots than this fit into no memory. -/
def mostSlots : Int := Int.ofNat (Nat.pow 2 40)

def make (capacity : Datum) : Except Fault Captures :=
  match capacity.int? with
  | none => .error (.misuse (.notTimes capacity.sort))
  | some n =>
    if !Fault.isIndex n then .error .uncountable
    else if mostSlots < n then .error .outOfMemory
    else .ok (ofCapacity n)

def reset (t : Captures) : Captures :=
  ofCapacity t.capacity

def set (t : Captures) (slot : Int) (span : Span) : Except Fault Captures :=
  if 0 ≤ slot ∧ slot < t.capacity then
    let k := slot.toNat
    let old := (t.spans[k]?).join
    .ok { t with spans := t.spans.setIfInBounds k (some span), journal := t.journal.push (k, old) }
  else .error (.slotOutside slot)

def mark (t : Captures) : Nat :=
  t.journal.size

def undo (t : Captures) : Captures :=
  match t.journal.back? with
  | some (k, old) => { t with spans := t.spans.setIfInBounds k old, journal := t.journal.pop }
  | none => t

def undoTimes : Nat → Captures → Captures
  | 0, t => t
  | n + 1, t => undoTimes n t.undo

def rollback (t : Captures) (mark : Nat) : Captures :=
  undoTimes (t.journal.size - mark) t

/-- Rolls back to any integer. A negative mark empties the journal and then fails. -/
def rollbackTo (t : Captures) (mark : Int) : Captures × Option Fault :=
  (t.rollback mark.toNat, if mark < 0 then some .journalEmpty else none)

def span (t : Captures) (slot : Int) : Except Fault (Option Span) :=
  let k := if slot < 0 then t.spans.size + slot else slot
  if k < 0 then .error (.ofSlot slot)
  else
    match t.spans[k.toNat]? with
    | some s => .ok s
    | none => .error (.ofSlot slot)

def text (t : Captures) (subject : Subject) (slot : Int) : Except Fault (Option Text) := do
  .ok ((← t.span slot).map fun s => subject.slice s.start s.stop)

/-- The texts of the first slots, all of which must exist; unset ones are `none`. -/
def texts (t : Captures) (subject : Subject) (count : Int) : Except Fault (List (Option Text)) :=
  if t.spans.size < count then .error .noSuchSlot
  else (List.range count.toNat).mapM fun k : Nat => t.text subject k

def size (t : Captures) : Except Fault Int :=
  if t.capacity < 0 then .error .negativeCapacity else .ok t.capacity

def display (t : Captures) : String :=
  let set := (t.spans.toList.filterMap fun s => s).map Span.display
  "<Captures [" ++ String.intercalate ", " set ++ "]>"

theorem mark_set {t u : Captures} {slot : Int} {s : Span} (h : t.set slot s = .ok u) :
    u.mark = t.mark + 1 := by
  simp only [set] at h
  split at h
  · cases h; simp [mark]
  · cases h

theorem undo_set {t u : Captures} {slot : Int} {s : Span} (h : t.set slot s = .ok u) :
    u.undo = t := by
  simp only [set] at h
  split at h
  · cases h
    obtain ⟨capacity, spans, journal⟩ := t
    simp only [undo, Array.back?_push, Array.pop_push, mk.injEq, true_and, and_true]
    apply Array.ext_getElem?
    intro k
    rw [Array.getElem?_setIfInBounds, Array.size_setIfInBounds, Array.getElem?_setIfInBounds]
    by_cases he : slot.toNat = k
    · subst he
      by_cases hk : slot.toNat < spans.size <;> simp [hk]
    · simp [he]
  · cases h

theorem rollback_of_mark_le {t : Captures} {m : Nat} (h : t.mark ≤ m) : t.rollback m = t := by
  rw [mark] at h
  rw [rollback, Nat.sub_eq_zero_of_le h, undoTimes]

@[simp] theorem rollback_mark (t : Captures) : t.rollback t.mark = t :=
  rollback_of_mark_le (Nat.le_refl _)

theorem rollback_of_set {t u : Captures} {slot : Int} {s : Span} {m : Nat}
    (h : t.set slot s = .ok u) (hm : m ≤ t.mark) : u.rollback m = t.rollback m := by
  have hsize := mark_set h
  rw [mark, mark] at hsize
  rw [mark] at hm
  rw [rollback, hsize, Nat.sub_add_comm hm, undoTimes, undo_set h, rollback]

end Captures

end PegMatch

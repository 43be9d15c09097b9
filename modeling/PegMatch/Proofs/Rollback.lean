import PegMatch.Proofs.Journal

set_option autoImplicit false

namespace PegMatch.Captures

/-- A call that may change a table, or may be answered with what a later call is told. -/
inductive Call where
  | set (slot : Int) (span : Span)
  | mark
  | rollback (mark : Int)
  | reset
  deriving Repr, DecidableEq

/-- The table after a call, and what the call returns, which is something only for a mark. -/
def call (t : Captures) : Call → Captures × Except Fault (Option Nat)
  | .set slot span =>
    match t.set slot span with
    | .ok u => (u, .ok none)
    | .error f => (t, .error f)
  | .mark => (t, .ok (some t.mark))
  | .rollback mark => ((t.rollbackTo mark).1, (t.rollbackTo mark).2.elim (.ok none) .error)
  | .reset => (t.reset, .ok none)

/-- The table after some calls, those that fail included. -/
def run (t : Captures) (calls : List Call) : Captures :=
  calls.foldl (fun u c => (u.call c).1) t

/-- Goes back no further than to a mark. -/
def Call.StaysAbove (mark : Nat) : Call → Prop
  | .set _ _ | .mark => True
  | .rollback m => mark ≤ m
  | .reset => False

variable {t u v : Captures} {slot : Int} {span : Span} {mark : Nat}

theorem Later.rollback_later (h : Later t u) (hm : t.mark ≤ mark) : Later t (u.rollback mark) := by
  induction h with
  | refl =>
    rw [rollback_of_mark_le hm]
    exact .refl
  | @set u v slot span hl hs ih =>
    -- Either the last change stays, or it is taken back and the rest is as before it.
    rcases Nat.lt_or_ge u.mark mark with hlt | hge
    · have hv := mark_set hs
      rw [rollback_of_mark_le (by omega)]
      exact .set hl hs
    · rw [rollback_of_set hs hge]
      exact ih

theorem Later.call (h : Later t u) {c : Call} (hc : c.StaysAbove t.mark) :
    Later t (u.call c).1 := by
  cases c with
  | set slot span =>
    rw [Captures.call]
    split
    · next v hs => exact .set h hs
    · exact h
  | mark => exact h
  | rollback m =>
    have hle : (t.mark : Int) ≤ m := hc
    exact h.rollback_later (by omega)
  | reset => exact hc.elim

theorem Later.run (h : Later t u) {calls : List Call} (hc : ∀ c ∈ calls, c.StaysAbove t.mark) :
    Later t (u.run calls) := by
  induction calls generalizing u with
  | nil => exact h
  | cons c calls ih =>
    obtain ⟨hfirst, hrest⟩ := List.forall_mem_cons.1 hc
    exact ih (h.call hfirst) hrest

/-- Going back to a mark undoes any history since, and does not fail: all slots and the journal are
as they were. -/
theorem rollback_undoes_history (t : Captures) (calls : List Call)
    (h : ∀ c ∈ calls, c.StaysAbove t.mark) : (t.run calls).rollbackTo t.mark = (t, none) := by
  have hlater : Later t (t.run calls) := Later.run .refl h
  rw [rollbackTo, Int.toNat_natCast, hlater.rollback, if_neg (by omega)]

/-- A table with a slot that is set. -/
def oneSet : Captures :=
  (ofCapacity 3).run [.set 0 ⟨1, 2⟩]

/-- The slot is set again twice, with a change taken back in between, and a slot that does not exist
is set. -/
def overwriting : List Call :=
  [.set 1 ⟨3, 1⟩, .set 0 ⟨5, 1⟩, .set 3 ⟨0, 1⟩, .mark, .rollback 2, .set 0 ⟨7, 1⟩]

theorem oneSet_is_restored : (∀ c ∈ overwriting, c.StaysAbove oneSet.mark) ∧
    (oneSet.run overwriting).spans = #[some ⟨7, 1⟩, some ⟨3, 1⟩, none] ∧
    (oneSet.run overwriting).rollbackTo oneSet.mark = (oneSet, none) := by
  have habove : ∀ c ∈ overwriting, c.StaysAbove oneSet.mark := by
    have hmark : oneSet.mark = 1 := by decide
    simp [overwriting, Call.StaysAbove, hmark]
  exact ⟨habove, by decide, rollback_undoes_history oneSet overwriting habove⟩

end PegMatch.Captures

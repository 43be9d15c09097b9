import PegMatch.Pattern.Render
import PegMatch.Proofs.Compiled
import PegMatch.Proofs.Equivalence

set_option autoImplicit false

namespace PegMatch.Matching

open Grammar

/-- The text of a pattern is read again as a pattern with as many captures that matches alike. -/
def RoundTrip (src : Source) (store : Store) (p : Pattern) : Prop :=
  ∃ text q store' log, store.render p = .ok text ∧
    parse { src with text := text } store = (.ok q, store', log) ∧
    store'.count? q = store.count? p ∧ Interchangeable store p store' q

/-- How many captures a text has, and how many its pattern has when it is written and read again. -/
def recounted (src : Source) : Option (Option Nat × Option Nat) :=
  match parse src {} with
  | (.ok p, store, _) =>
    match store.render p with
    | .ok text =>
      match parse { src with text := text } store with
      | (.ok q, store', _) => some (store.count? p, store'.count? q)
      | _ => none
    | _ => none
  | _ => none

/-- In `({'a'} {'b'}+)+` the outer repetition is not recognised behind the inner one, and so both
captures are written twice. -/
theorem nested_plus_is_written_twice :
    let src : Source := {
      text := Text.ofString "(\x7b'a'\x7d \x7b'b'\x7d+)+"
      file := "pattern"
      inline := .int 5
      capacity := .int 20 }
    ∃ p store log, parse src {} = (.ok p, store, log) ∧ ¬ RoundTrip src store p := by
  intro src
  have hcount : recounted src = some (some 2, some 4) := by decide +kernel
  unfold recounted at hcount
  split at hcount
  · next p store log hp =>
    refine ⟨p, store, log, hp, ?_⟩
    rintro ⟨text, q, store', log', htext, hq, hsame, -⟩
    simp only [htext, hq, hsame, Option.some.injEq, Prod.mk.injEq] at hcount
    simp [hcount.1] at hcount
  · cases hcount

end PegMatch.Matching

import PegMatch.Proofs.Divisions
import PegMatch.Proofs.WholeMatch

set_option autoImplicit false

/-! Replacing and splitting. What is replaced, what splits and what a scan gives out are the same
matches, but for the empty ones. Replacing in parallel fills in the one division of the subject by
its patterns. -/

namespace PegMatch

namespace Template

end Template

namespace Store

theorem count?_of_number {store store' : Store} {capacity : Datum} {p : Pattern} {n : Nat}
    (h : store.number capacity p = .ok (n, store')) : store'.count? p = some n := by
  simp only [number] at h
  split at h
  · next hcount =>
    cases h
    exact hcount
  · obtain ⟨w, -, h⟩ := bind_eq_ok_iff.1 h
    cases h
    simp [count?, setCount]

end Store

namespace Probe

variable {q : Probe} {ms : List Match}

theorem Ready.matchesFrom_cases (h : q.Ready) (origin : Int) (room : Nat) {i : Int} (hi : 0 ≤ i) :
    (q.matchesFrom origin room i).toList = .error .endless ∨
      ∃ ms, (q.matchesFrom origin room i).toList = .ok ms := by
  induction room generalizing i with
  | zero => exact .inr ⟨[], rfl⟩
  | succ room ih =>
    rw [matchesFrom]
    split
    · exact .inr ⟨[], rfl⟩
    · rcases h.tryAt_cases origin hi with hend | hmiss | ⟨n, table, spans, hhit, -, hmake⟩
      · rw [hend]
        exact .inl rfl
      · rw [hmiss]
        exact ih (by omega)
      · simp only [hhit, hmake, Matches.toList]
        rcases ih (i := i + max n 1) (by omega) with hrest | ⟨ms, hrest⟩
        · rw [hrest]
          exact .inl rfl
        · rw [hrest]
          exact .inr ⟨_, rfl⟩

end Probe

namespace Probe

end Probe

namespace Library

variable {l l' : Library} {subject : Subject} {p : Pattern} {q : Probe}

theorem probe_again (h : probe subject p l = .ok q l') :
    probe subject p l' = .ok q l' ∧ q.subject = subject ∧ q.pattern = p := by
  cases hnumber : l.store.number l.config.capacity p with
  | error e => simp [probe, number, bind, EStateM.bind, get_apply, hnumber] at h; cases h
  | ok r =>
    obtain ⟨n, store⟩ := r
    have hcount : store.count? p = some n := Store.count?_of_number hnumber
    simp only [probe, number, bind, EStateM.bind, get_apply, hnumber] at h
    cases hmake : Captures.make l.config.capacity with
    | error f =>
      simp only [hmake] at h
      cases h
    | ok table =>
      simp only [hmake] at h
      cases h
      exact ⟨by rw [probe_eq hcount, hmake], rfl, rfl⟩

theorem bind_eq_ok_iff {α β : Type} {x : Action α} {f : α → Action β} {b : β} :
    (x >>= f) l = .ok b l' ↔ ∃ a l₁, x l = .ok a l₁ ∧ f a l₁ = .ok b l' := by
  simp only [bind, EStateM.bind]
  cases x l <;> simp

theorem probeGiven_eq_ok {g : Given} (h : probeGiven subject g l = .ok q l') :
    q.subject = subject ∧ g = .ok q.pattern := by
  obtain ⟨p, l₁, hgiven, hprobe⟩ := bind_eq_ok_iff.1 h
  obtain ⟨hp, -⟩ := (result_ofExcept _ _).1 hgiven
  obtain ⟨-, hsubject, hpattern⟩ := probe_again hprobe
  exact ⟨hsubject, by rw [hp, hpattern]⟩

/-- Makes what was given ready to be tried on a subject, each with its template. -/
def prepareGiven (subject : Subject) (subs : List (Given × Text)) : Action (List (Probe × Text)) :=
  subs.mapM fun s => do return (← probeGiven subject s.1, s.2)

/-- What was made ready are the patterns that were given, in order, each for the subject. -/
theorem prepareGiven_eq_ok {subs : List (Given × Text)} {probes : List (Probe × Text)}
    (h : prepareGiven subject subs l = .ok probes l') :
    List.Forall₂ (fun s x => x.1.subject = subject ∧ s.1 = .ok x.1.pattern ∧ s.2 = x.2)
      subs probes := by
  induction subs generalizing l probes with
  | nil =>
    cases h
    exact .nil
  | cons s subs ih =>
    rw [prepareGiven, List.mapM_cons] at h
    obtain ⟨x, l₁, hx, h⟩ := bind_eq_ok_iff.1 h
    obtain ⟨xs, l₂, hxs, h⟩ := bind_eq_ok_iff.1 h
    obtain ⟨q, l₃, hprobe, hx⟩ := bind_eq_ok_iff.1 hx
    cases hx
    cases h
    obtain ⟨hsubject, hpattern⟩ := probeGiven_eq_ok hprobe
    exact .cons ⟨hsubject, hpattern, rfl⟩ (ih hxs)

end Library

/-- The gaps with the templates of the parts between them, each filled in from its match. -/
def Division.Filled (d : Division Text) (out : Text) : Prop :=
  ∃ ts, List.Forall₂ (fun x t => Template.format x.what x.found = .ok t) d.parts ts ∧
    out = weave d.pieces ts

/-- What replacing in parallel returns is the one division of the subject, filled in. -/
theorem filled_of_parallelReplace {subject : Subject} {probes : List (Probe × Text)} {out : Text}
    (same : ∀ x ∈ probes, x.1.subject = subject) (h : parallelReplace subject probes = .ok out) :
    ∃ d, Divides subject probes d ∧ d.Filled out := by
  obtain ⟨d, hd⟩ := Cuts.division_of_replace h
  rw [parallelReplace,
    Cuts.replace_eq_ok_iff (f := fun m t => (Template.format t m).mapError .template) hd] at h
  simp only [Grammar.mapError_eq_ok_iff] at h
  exact ⟨d, Cuts.divides_of same hd, h⟩

namespace Library

end Library

end PegMatch

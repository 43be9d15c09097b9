import PegMatch.Proofs.Journal

set_option autoImplicit false

namespace PegMatch.Matching

def Result.Same : Result → Result → Prop
  | .hit n u, .hit k v => n = k ∧ u.table.slots = v.table.slots
  | .miss u, .miss v => u.table.slots = v.table.slots
  | .fault f _, .fault g _ => f = g
  | _, _ => False

/-- Wherever the two patterns are tried, either both nest without end, or from some depth on both
return the same. -/
def Interchangeable (store : Store) (p : Pattern) (store' : Store) (q : Pattern) : Prop :=
  ∀ (subject : Subject) (origin : Int) (watch : Kind → Watch) (i : Int) (s : State), 0 ≤ i →
    let left := fun depth => attempt ⟨subject, store, origin, watch⟩ depth p i s
    let right := fun depth => attempt ⟨subject, store', origin, watch⟩ depth q i s
    (∀ depth, (left depth).Endless ∧ (right depth).Endless) ∨
      ∃ depth, ∀ d, depth ≤ d → ¬ (left d).Endless ∧ ¬ (right d).Endless ∧ (left d).Same (right d)

variable {scene scene' : Scene} {p q : Pattern} {i : Int} {s : State} {d : Nat}

theorem endless_of_none (hi : 0 ≤ i) (h : scene.meaning p i s.table.slots = none) :
    (attempt scene d p i s).Endless := by
  have hf := follows_attempt scene d p i s hi
  cases hr : attempt scene d p i s with
  | hit n u => simp [hr, Agrees, h] at hf
  | miss u => simp [hr, Agrees, h] at hf
  | fault f u =>
    simp only [hr, Agrees, h, reduceCtorEq, or_false] at hf
    subst hf
    trivial

theorem meaning_of_hit {n : Nat} {u : State} (hi : 0 ≤ i) (h : attempt scene d p i s = .hit n u) :
    scene.meaning p i s.table.slots = some (.hit n u.table.slots) := by
  have hf := follows_attempt scene d p i s hi
  rw [h] at hf
  exact hf.1

theorem isSome_of_not_endless (hi : 0 ≤ i) (h : ¬ (attempt scene d p i s).Endless) :
    ∃ a, scene.meaning p i s.table.slots = some a := by
  cases ha : scene.meaning p i s.table.slots with
  | none => exact absurd (endless_of_none hi ha) h
  | some a => exact ⟨a, rfl⟩

theorem same_iff_meaning (hi : 0 ≤ i) (h : ¬ (attempt scene d p i s).Endless)
    (h' : ¬ (attempt scene' d q i s).Endless) :
    (attempt scene d p i s).Same (attempt scene' d q i s) ↔
      scene.meaning p i s.table.slots = scene'.meaning q i s.table.slots := by
  obtain ⟨a, ha⟩ := isSome_of_not_endless hi h
  obtain ⟨b, hb⟩ := isSome_of_not_endless hi h'
  have hr := result_of_meaning hi ha h
  have hr' := result_of_meaning hi hb h'
  rw [ha, hb]
  cases a with
  | hit n t =>
    obtain ⟨u, hu, rfl⟩ := hr
    cases b with
    | hit k t => obtain ⟨v, hv, rfl⟩ := hr'; simp [hu, hv, Result.Same]
    | miss => obtain ⟨v, hv, -⟩ := hr'; simp [hu, hv, Result.Same]
    | fault g => obtain ⟨v, hv, -⟩ := hr'; simp [hu, hv, Result.Same]
  | miss =>
    obtain ⟨u, hu, he⟩ := hr
    cases b with
    | hit k t => obtain ⟨v, hv, rfl⟩ := hr'; simp [hu, hv, Result.Same]
    | miss => obtain ⟨v, hv, he'⟩ := hr'; simp [hu, hv, Result.Same, he, he']
    | fault g => obtain ⟨v, hv, -⟩ := hr'; simp [hu, hv, Result.Same]
  | fault f =>
    obtain ⟨u, hu, -⟩ := hr
    cases b with
    | hit k t => obtain ⟨v, hv, rfl⟩ := hr'; simp [hu, hv, Result.Same]
    | miss => obtain ⟨v, hv, -⟩ := hr'; simp [hu, hv, Result.Same]
    | fault g => obtain ⟨v, hv, -⟩ := hr'; simp [hu, hv, Result.Same]

theorem none_of_endless (hi : 0 ≤ i) (h : ∀ depth, (attempt scene depth p i s).Endless) :
    scene.meaning p i s.table.slots = none := by
  cases ha : scene.meaning p i s.table.slots with
  | none => rfl
  | some a =>
    obtain ⟨depth, hd⟩ := settles_of_meaning hi ha
    exact absurd (h depth) (hd depth (Nat.le_refl _) s rfl)

/-- Tried from one state, two patterns both nest without end, or from some depth on both return the
same, just where they mean the same. -/
theorem alike_iff_meaning (hi : 0 ≤ i) :
    ((∀ depth, (attempt scene depth p i s).Endless ∧ (attempt scene' depth q i s).Endless) ∨
      ∃ depth, ∀ d, depth ≤ d → ¬ (attempt scene d p i s).Endless ∧
      ¬ (attempt scene' d q i s).Endless ∧ (attempt scene d p i s).Same (attempt scene' d q i s)) ↔
      scene.meaning p i s.table.slots = scene'.meaning q i s.table.slots := by
  constructor
  · rintro (h | ⟨depth, h⟩)
    · rw [none_of_endless hi fun depth => (h depth).1, none_of_endless hi fun depth => (h depth).2]
    · obtain ⟨hl, hr, hs⟩ := h depth (Nat.le_refl _)
      exact (same_iff_meaning hi hl hr).1 hs
  · intro he
    cases ha : scene.meaning p i s.table.slots with
    | none => exact .inl fun d => ⟨endless_of_none hi ha, endless_of_none hi (he.symm.trans ha)⟩
    | some a =>
      obtain ⟨depth, hd⟩ := settles_of_meaning hi ha
      obtain ⟨depth', hd'⟩ := settles_of_meaning hi (he.symm.trans ha)
      refine .inr ⟨max depth depth', fun d hle => ?_⟩
      have hl := hd d (by omega) s rfl
      have hr := hd' d (by omega) s rfl
      exact ⟨hl, hr, (same_iff_meaning hi hl hr).2 he⟩

/-- Patterns are interchangeable just if they mean the same at every position from zero on. -/
theorem interchangeable_iff {store store' : Store} :
    Interchangeable store p store' q ↔
      ∀ (subject : Subject) (origin : Int) (watch : Kind → Watch) (i : Int) (t : Slots), 0 ≤ i →
      Scene.meaning ⟨subject, store, origin, watch⟩ p i t =
      Scene.meaning ⟨subject, store', origin, watch⟩ q i t := by
  refine ⟨fun h subject origin watch i t hi => ?_, fun h subject origin watch i s hi => ?_⟩
  · let s : State := { table := { capacity := t.capacity, spans := t.spans } }
    exact (alike_iff_meaning hi).1 (h subject origin watch i s hi)
  · exact (alike_iff_meaning hi).2 (h subject origin watch i s.table.slots hi)

theorem Interchangeable.symm {store store' : Store} (h : Interchangeable store p store' q) :
    Interchangeable store' q store p := by
  rw [interchangeable_iff] at h ⊢
  exact fun subject origin watch i t hi => (h subject origin watch i t hi).symm

theorem Interchangeable.trans {store store' store'' : Store} {r : Pattern}
    (h : Interchangeable store p store' q) (h' : Interchangeable store' q store'' r) :
    Interchangeable store p store'' r := by
  rw [interchangeable_iff] at h h' ⊢
  exact fun subject origin watch i t hi =>
    (h subject origin watch i t hi).trans (h' subject origin watch i t hi)

end PegMatch.Matching

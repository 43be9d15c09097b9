import Mathlib.Data.List.Forall2
import PegMatch.Proofs.Construction

set_option autoImplicit false

namespace PegMatch

def Allowed.all : Allowed := ⟨fun _ => True, fun _ => True, fun _ => True⟩

theorem Allowed.less_all (A : Allowed) : A.Less .all :=
  ⟨fun _ _ => trivial, fun _ _ => trivial, fun _ _ => trivial⟩

/-- The same subject, and rules that match inside it. -/
structure Env.Twin (e f : Env) : Prop where
  subject : e.subject = f.subject
  origin : e.origin = f.origin
  left : e.Inside
  right : f.Inside

namespace Pattern

/-- The two mean the same. If one is a repetition or an option that captures something, so is the
other. -/
inductive AlikeAt (e f : Env) : Pattern → Pattern → Prop where
  | tame {p q : Pattern} (same : p.denote e = q.denote f) (left : Normal e.tame p)
      (right : Normal f.tame q) : AlikeAt e f p q
  | star {i j : Nat} {p q : Pattern}
      (same : (Pattern.star i p).denote e = (Pattern.star j q).denote f) :
      AlikeAt e f (.star i p) (.star j q)
  | option {i j : Nat} {p q : Pattern} (inner : AlikeAt e f p q) :
      AlikeAt e f (.option i p) (.option j q)
  | plain {p q : Pattern} (same : p.denote e = q.denote f) (left : p.isRepeatable)
      (right : q.isRepeatable) : AlikeAt e f p q

structure Alike (e f : Env) (p q : Pattern) : Prop where
  shape : AlikeAt e f p q
  empty : p = .empty ↔ q = .empty
  left : Normal .all p
  right : Normal .all q

variable {e f : Env} {p q : Pattern} {ps qs : List Pattern}

theorem AlikeAt.same (h : AlikeAt e f p q) : p.denote e = q.denote f := by
  induction h with
  | tame same _ _ => exact same
  | star same => exact same
  | option _ ih => simp only [denote, ih]
  | plain same _ _ => exact same

theorem map_denote (h : List.Forall₂ (Alike e f) ps qs) :
    ps.map (denote e) = qs.map (denote f) := by
  induction h with
  | nil => rfl
  | cons hp _ ih => simp only [List.map_cons, hp.shape.same, ih]

theorem normal_left (h : List.Forall₂ (Alike e f) ps qs) : ∀ p ∈ ps, Normal .all p := by
  induction h with
  | nil => simp
  | cons hp _ ih => simpa using ⟨hp.left, ih⟩

theorem normal_right (h : List.Forall₂ (Alike e f) ps qs) : ∀ q ∈ qs, Normal .all q := by
  induction h with
  | nil => simp
  | cons hp _ ih => simpa using ⟨hp.right, ih⟩

def solid (ps : List Pattern) : List Pattern :=
  ps.filter fun p => !p.sequenceItems.isEmpty

theorem sequenceItems_eq_nil (h : Normal .all p) : p.sequenceItems = [] ↔ p = .empty := by
  cases p with
  | sequence i items =>
    have := h.here.1
    simp only [sequenceItems, reduceCtorEq, iff_false]
    rintro rfl
    simp at this
  | _ => simp [sequenceItems]

theorem flatMap_solid (ps : List Pattern) :
    (solid ps).flatMap sequenceItems = ps.flatMap sequenceItems := by
  induction ps with
  | nil => rfl
  | cons p ps ih =>
    by_cases hp : p.sequenceItems = []
    · simp [solid, hp] at ih ⊢
      exact ih
    · simp [solid, hp] at ih ⊢
      exact ih

theorem seq_solid (id : Nat) (ps : List Pattern) : seq id (solid ps) = seq id ps := by
  simp only [seq, flatMap_solid]

theorem sequenceItems_of_mem_solid (h : p ∈ solid ps) : p.sequenceItems ≠ [] := by
  simpa using (List.mem_filter.1 h).2

theorem alike_solid (h : List.Forall₂ (Alike e f) ps qs) :
    List.Forall₂ (fun p q => Alike e f p q ∧ p ≠ .empty) (solid ps) (solid qs) := by
  induction h with
  | nil => exact .nil
  | @cons p q ps qs hp _ ih =>
    by_cases he : p = .empty
    · have hq := hp.empty.1 he
      simpa [solid, he, hq, sequenceItems] using ih
    · have hq : q ≠ .empty := fun hq => he (hp.empty.2 hq)
      have hp' : p.sequenceItems ≠ [] := fun h => he ((sequenceItems_eq_nil hp.left).1 h)
      have hq' : q.sequenceItems ≠ [] := fun h => hq ((sequenceItems_eq_nil hp.right).1 h)
      simpa [solid, hp', hq'] using ⟨⟨hp, he⟩, ih⟩

theorem seq_single (id : Nat) (h : Normal .all p) (hne : p ≠ .empty) :
    seq id [p] = p ∨ ∃ i items, p = .sequence i items ∧ seq id [p] = .sequence id items := by
  cases p with
  | sequence i items =>
    have := h.here.1
    refine .inr ⟨i, items, rfl, ?_⟩
    match items with
    | [] => simp at this
    | [_] => simp at this
    | _ :: _ :: _ => simp [seq, sequenceItems]
  | empty => exact absurd rfl hne
  | _ => exact .inl (by simp [seq, sequenceItems])

theorem seq_of_two {ps : List Pattern} (id : Nat) (hl : 2 ≤ ps.length)
    (h : ∀ p ∈ ps, p.sequenceItems ≠ []) : ∃ items, seq id ps = .sequence id items := by
  match ps with
  | [] => simp at hl
  | [_] => simp at hl
  | p :: q :: ps =>
    have hp := h p (by simp)
    have hq := h q (by simp)
    unfold seq
    split
    · next hn => simp [hp] at hn
    · next r hr =>
      have := congrArg List.length hr
      have h1 := List.length_pos_of_ne_nil hp
      have h2 := List.length_pos_of_ne_nil hq
      simp at this
      omega
    · exact ⟨_, rfl⟩

/-- What makes nothing new of a part that is a repetition or an option keeps likeness. -/
theorem AlikeAt.carry {p' q' : Pattern} (h : AlikeAt e f p q) (same : p'.denote e = q'.denote f)
    (left : p' = p ∨ p.isRepeatable ∧ p'.isRepeatable)
    (right : q' = q ∨ q.isRepeatable ∧ q'.isRepeatable) (hp : Normal e.tame p → Normal e.tame p')
    (hq : Normal f.tame q → Normal f.tame q') : AlikeAt e f p' q' := by
  cases h with
  | tame _ hl hr => exact .tame same (hp hl) (hq hr)
  | star h =>
    rcases left with rfl | ⟨hn, -⟩
    · rcases right with rfl | ⟨hn, -⟩
      · exact .star h
      · cases hn
    · cases hn
  | option h =>
    rcases left with rfl | ⟨hn, -⟩
    · rcases right with rfl | ⟨hn, -⟩
      · exact .option h
      · cases hn
    · cases hn
  | plain _ hl hr =>
    refine .plain same ?_ ?_
    · rcases left with rfl | ⟨-, h⟩
      · exact hl
      · exact h
    · rcases right with rfl | ⟨-, h⟩
      · exact hr
      · exact h

theorem alike_seq (i j : Nat) (h : List.Forall₂ (Alike e f) ps qs) :
    Alike e f (seq i ps) (seq j qs) := by
  have same : (seq i ps).denote e = (seq j qs).denote f := by
    rw [denote_seq, denote_seq, map_denote h]
  have left := normal_seq i (normal_left h)
  have right := normal_seq j (normal_right h)
  have hsolid := alike_solid h
  have hps (p : Pattern) (h : p ∈ solid ps) := sequenceItems_of_mem_solid h
  have hqs (q : Pattern) (h : q ∈ solid qs) := sequenceItems_of_mem_solid h
  rw [← seq_solid i ps] at same left ⊢
  rw [← seq_solid j qs] at same right ⊢
  generalize solid ps = ps at same left hsolid hps ⊢
  generalize solid qs = qs at same right hsolid hqs ⊢
  cases hsolid with
  | nil => exact ⟨.tame rfl (.leaf trivial rfl) (.leaf trivial rfl), .rfl, left, right⟩
  | @cons p q ps qs hp hrest =>
    obtain ⟨hp, hne⟩ := hp
    have hne' : q ≠ .empty := fun hq => hne (hp.empty.2 hq)
    cases hrest with
    | nil =>
      have hl := seq_single i hp.left hne
      have hr := seq_single j hp.right hne'
      refine ⟨hp.shape.carry same ?_ ?_ (fun h => normal_seq i (by simpa using h))
        (fun h => normal_seq j (by simpa using h)), ?_, left, right⟩
      · rcases hl with hl | ⟨k, items, rfl, hl⟩
        · exact .inl hl
        · exact .inr ⟨rfl, by rw [hl]; rfl⟩
      · rcases hr with hr | ⟨k, items, rfl, hr⟩
        · exact .inl hr
        · exact .inr ⟨rfl, by rw [hr]; rfl⟩
      · have hl' : seq i [p] ≠ .empty := by
          rcases hl with hl | ⟨k, items, -, hl⟩ <;> simp [hl, hne]
        have hr' : seq j [q] ≠ .empty := by
          rcases hr with hr | ⟨k, items, -, hr⟩ <;> simp [hr, hne']
        simp [hl', hr']
    | @cons p' q' ps qs hp' hrest =>
      obtain ⟨items, hl⟩ := seq_of_two i (by simp) hps
      obtain ⟨items', hr⟩ := seq_of_two j (by simp) hqs
      rw [hl] at same left ⊢
      rw [hr] at same right ⊢
      exact ⟨.plain same rfl rfl, by simp, left, right⟩

theorem alt_single (id : Nat) (h : Normal .all p) :
    alt id p [] = p ∨ ∃ i items, p = .choice i items ∧ alt id p [] = .choice id items := by
  cases p with
  | choice i items =>
    obtain ⟨hl, -, hnone⟩ := h.here
    refine .inr ⟨i, items, rfl, ?_⟩
    match items with
    | [] => simp at hl
    | [_] => simp at hl
    | _ :: _ :: _ => simp [alt, choiceItems, hnone]
  | _ => exact .inl (by simp [alt, choiceItems])

theorem mapM_characters {ps : List Pattern} :
    (∃ sets, ps.mapM characters? = some sets) ↔ ∀ p ∈ ps, ∃ set, p.characters? = some set := by
  induction ps with
  | nil => simp
  | cons p ps ih =>
    refine ⟨fun ⟨sets, h⟩ q hq => ?_, fun h => ?_⟩
    · obtain ⟨set, rest, hset, hrest, -⟩ := mapM_characters_cons h
      rcases List.mem_cons.1 hq with rfl | hq
      · exact ⟨set, hset⟩
      · exact ih.1 ⟨rest, hrest⟩ q hq
    · obtain ⟨set, hset⟩ := h p (by simp)
      obtain ⟨sets, hsets⟩ := ih.2 fun q hq => h q (by simp [hq])
      exact ⟨set :: sets, by simp [hset, hsets]⟩

theorem characters_of_flatMap {sets : List RuneSet} (h : ∀ p ∈ ps, Normal .all p)
    (hs : (ps.flatMap choiceItems).mapM characters? = some sets) (hp : p ∈ ps) :
    ∃ set, p.characters? = some set := by
  have each := mapM_characters.1 ⟨sets, hs⟩
  by_cases hc : p.isChoice
  · cases p with
    | choice i items =>
      obtain ⟨-, -, hnone⟩ := (h _ hp).here
      obtain ⟨sets, hsets⟩ := mapM_characters.2 fun q hq => each q (List.mem_flatMap.2 ⟨_, hp, hq⟩)
      cases hnone.symm.trans hsets
    | _ => cases hc
  · exact each p (List.mem_flatMap.2 ⟨p, hp, by simp [choiceItems_of_not_isChoice hc]⟩)

theorem alt_of_two {first second : Pattern} {others : List Pattern} (id : Nat)
    (h : ∀ p ∈ first :: second :: others, Normal .all p) :
    (∃ items, alt id first (second :: others) = .choice id items) ∨
      (∃ set, alt id first (second :: others) = .set id set .members) ∧
        ∀ p ∈ first :: second :: others, ∃ set, p.characters? = some set := by
  have h1 := List.length_pos_of_ne_nil (choiceItems_ne_nil (h first (by simp)))
  have h2 := List.length_pos_of_ne_nil (choiceItems_ne_nil (h second (by simp)))
  unfold alt
  split
  · next p hp =>
    have := congrArg List.length hp
    simp at this
    omega
  · split
    · next sets hsets => exact .inr ⟨⟨_, rfl⟩, fun p hp => characters_of_flatMap h hsets hp⟩
    · exact .inl ⟨_, rfl⟩

theorem AlikeAt.tame_of_characters {set : RuneSet} (h : AlikeAt e f p q)
    (hp : p.characters? = some set ∨ q.characters? = some set) :
    Normal e.tame p ∧ Normal f.tame q := by
  cases h with
  | tame _ hl hr => exact ⟨hl, hr⟩
  | star => simp [characters?] at hp
  | option => simp [characters?] at hp
  | plain _ hl hr =>
    rcases hp with hp | hp
    · cases (characters?_of_isRepeatable hl).symm.trans hp
    · cases (characters?_of_isRepeatable hr).symm.trans hp

theorem tame_of_alike (h : List.Forall₂ (Alike e f) ps qs)
    (hc : (∀ p ∈ ps, ∃ set, p.characters? = some set) ∨ ∀ q ∈ qs, ∃ set, q.characters? = some set) :
    (∀ p ∈ ps, Normal e.tame p) ∧ ∀ q ∈ qs, Normal f.tame q := by
  induction h with
  | nil => simp
  | @cons p q ps qs hp _ ih =>
    have here : Normal e.tame p ∧ Normal f.tame q := by
      rcases hc with hc | hc
      · obtain ⟨set, hset⟩ := hc p (by simp)
        exact hp.shape.tame_of_characters (.inl hset)
      · obtain ⟨set, hset⟩ := hc q (by simp)
        exact hp.shape.tame_of_characters (.inr hset)
    have rest := ih (hc.imp (fun h r hr => h r (by simp [hr])) fun h r hr => h r (by simp [hr]))
    simpa using ⟨⟨here.1, rest.1⟩, here.2, rest.2⟩

theorem alike_alt (i j : Nat) (h : List.Forall₂ (Alike e f) (p :: ps) (q :: qs)) :
    Alike e f (alt i p ps) (alt j q qs) := by
  have same : (alt i p ps).denote e = (alt j q qs).denote f := by
    rw [denote_alt (normal_left h), denote_alt (normal_right h), map_denote h]
  have left := normal_alt i (normal_left h)
  have right := normal_alt j (normal_right h)
  cases h with
  | cons hp hrest =>
    cases hrest with
    | nil =>
      have hl := alt_single i hp.left
      have hr := alt_single j hp.right
      refine ⟨hp.shape.carry same ?_ ?_ (fun h => normal_alt i (by simpa using h))
        (fun h => normal_alt j (by simpa using h)), ?_, left, right⟩
      · rcases hl with hl | ⟨k, items, rfl, hl⟩
        · exact .inl hl
        · exact .inr ⟨rfl, by rw [hl]; rfl⟩
      · rcases hr with hr | ⟨k, items, rfl, hr⟩
        · exact .inl hr
        · exact .inr ⟨rfl, by rw [hr]; rfl⟩
      · have hl' : alt i p [] = .empty ↔ p = .empty := by
          rcases hl with hl | ⟨k, items, rfl, hl⟩ <;> simp [hl]
        have hr' : alt j q [] = .empty ↔ q = .empty := by
          rcases hr with hr | ⟨k, items, rfl, hr⟩ <;> simp [hr]
        rw [hl', hr', hp.empty]
    | @cons p' q' ps qs hp' hrest =>
      have h : List.Forall₂ (Alike e f) (p :: p' :: ps) (q :: q' :: qs) :=
        .cons hp (.cons hp' hrest)
      have hl := alt_of_two i (normal_left h)
      have hr := alt_of_two j (normal_right h)
      have hempty : alt i p (p' :: ps) = .empty ↔ alt j q (q' :: qs) = .empty := by
        rcases hl with ⟨items, hl⟩ | ⟨⟨set, hl⟩, -⟩ <;>
          rcases hr with ⟨items, hr⟩ | ⟨⟨set, hr⟩, -⟩ <;> simp [hl, hr]
      have tame (hc : (∀ r ∈ p :: p' :: ps, ∃ set, r.characters? = some set) ∨
          ∀ r ∈ q :: q' :: qs, ∃ set, r.characters? = some set) :
          AlikeAt e f (alt i p (p' :: ps)) (alt j q (q' :: qs)) := by
        obtain ⟨ht, ht'⟩ := tame_of_alike h hc
        exact .tame same (normal_alt i ht) (normal_alt j ht')
      refine ⟨?_, hempty, left, right⟩
      rcases hl with ⟨items, hl⟩ | ⟨-, hc⟩
      · rcases hr with ⟨items', hr⟩ | ⟨-, hc⟩
        · rw [hl, hr] at same ⊢
          exact .plain same rfl rfl
        · exact tame (.inr hc)
      · exact tame (.inl hc)

theorem repeated_ne_empty (id : Nat) (p : Pattern) : repeated id p ≠ .empty := by
  induction p using induction_children with
  | node p ih =>
    cases p with
    | option i q => exact ih q (by simp [children])
    | _ => simp [repeated]

theorem opt_ne_empty (id : Nat) (p : Pattern) : opt id p ≠ .empty := by
  cases p <;> simp [opt, isRepeat]

theorem alike_repeated (ht : e.Twin f) (i j : Nat) (h : Alike e f p q) :
    Alike e f (repeated i p) (repeated j q) := by
  refine ⟨?_, by simp [repeated_ne_empty], normal_repeated i h.left, normal_repeated j h.right⟩
  have shape := h.shape
  clear h
  induction shape with
  | tame same left right =>
    refine .tame ?_ (normal_repeated i left) (normal_repeated j right)
    rw [denote_repeated ht.left i left, denote_repeated ht.right j right, same, ht.subject]
  | star same => exact .star same
  | option _ ih => exact ih
  | plain same left right =>
    rw [repeated_of_isRepeatable i left, repeated_of_isRepeatable j right]
    refine .star ?_
    simp only [denote, same, ht.subject]

theorem alike_opt (i j : Nat) (h : Alike e f p q) : Alike e f (opt i p) (opt j q) := by
  refine ⟨?_, by simp [opt_ne_empty], normal_opt i h.left, normal_opt j h.right⟩
  cases h.shape with
  | tame same left right =>
    refine .tame ?_ (normal_opt i left) (normal_opt j right)
    rw [denote_opt, denote_opt, same]
  | star same => exact .star same
  | option inner => exact .option inner
  | plain same left right =>
    rw [opt_of_not (not_isOption_of_isRepeatable left) (not_isRepeat_of_isRepeatable left),
      opt_of_not (not_isOption_of_isRepeatable right) (not_isRepeat_of_isRepeatable right)]
    exact .option (.plain same left right)

theorem alike_plus (ht : e.Twin f) (i i' j j' : Nat) (h : Alike e f p q) :
    Alike e f (plus i i' p) (plus j j' q) :=
  alike_seq i' j' (.cons h (.cons (alike_repeated ht i j h) .nil))

theorem alike_plain (same : p.denote e = q.denote f) (left : Normal .all p) (right : Normal .all q)
    (hp : p.isRepeatable ∧ p ≠ .empty) (hq : q.isRepeatable ∧ q ≠ .empty) : Alike e f p q :=
  ⟨.plain same hp.1 hq.1, by simp [hp.2, hq.2], left, right⟩

theorem alike_tame (same : p.denote e = q.denote f) (left : Normal e.tame p)
    (right : Normal f.tame q) (empty : p = .empty ↔ q = .empty) : Alike e f p q :=
  ⟨.tame same left right, empty, left.mono (Allowed.less_all _), right.mono (Allowed.less_all _)⟩

theorem Alike.seq_one (h : Alike e f p q) (j : Nat) : Alike e f p (seq j [q]) := by
  by_cases hq : q = .empty
  · subst hq
    exact h
  · have hs := seq_single j h.right hq
    have hright : seq j [q] = q ∨ q.isRepeatable ∧ (seq j [q]).isRepeatable := by
      rcases hs with hs | ⟨k, items, rfl, hs⟩
      · exact .inl hs
      · exact .inr ⟨rfl, by rw [hs]; rfl⟩
    have hempty : seq j [q] ≠ .empty := by
      rcases hs with hs | ⟨k, items, -, hs⟩ <;> simp [hs, hq]
    have hsame : p.denote e = (seq j [q]).denote f := by
      rw [denote_seq, h.shape.same]
      simp [Meaning.inOrder]
    refine ⟨h.shape.carry hsame (.inl rfl) hright (fun hn => hn) fun hn => normal_seq j
      (by simpa using hn), ?_, h.left, normal_seq j (by simpa using h.right)⟩
    simp [h.empty, hq, hempty]

theorem Alike.alt_one (h : Alike e f p q) (j : Nat) : Alike e f p (alt j q []) := by
  have hs := alt_single j h.right
  have hright : alt j q [] = q ∨ q.isRepeatable ∧ (alt j q []).isRepeatable := by
    rcases hs with hs | ⟨k, items, rfl, hs⟩
    · exact .inl hs
    · exact .inr ⟨rfl, by rw [hs]; rfl⟩
  have hempty : alt j q [] = .empty ↔ q = .empty := by
    rcases hs with hs | ⟨k, items, rfl, hs⟩ <;> simp [hs]
  have hsame : p.denote e = (alt j q []).denote f := by
    rw [denote_alt (A := .all) (by simpa using h.right), h.shape.same]
    simp [Meaning.firstOf]
  exact ⟨h.shape.carry hsame (.inl rfl) hright (fun hn => hn) fun hn => normal_alt j
    (by simpa using hn), h.empty.trans hempty.symm, h.left, normal_alt j (by simpa using h.right)⟩

theorem Alike.star (ht : e.Twin f) (h : Alike e f p q) {i : Nat} (hp : p.isRepeatable) (j : Nat) :
    Alike e f (.star i p) (repeated j q) := by
  rw [← repeated_of_isRepeatable i hp]
  exact alike_repeated ht i j h

theorem Alike.option (h : Alike e f p q) {i : Nat} (ho : ¬ p.isOption) (hr : ¬ p.isRepeat)
    (j : Nat) : Alike e f (.option i p) (opt j q) := by
  rw [← opt_of_not ho hr]
  exact alike_opt i j h

theorem alike_choice {i : Nat} (hp : Normal .all (.choice i ps)) (j : Nat)
    (h : List.Forall₂ (Alike e f) ps (q :: qs)) : Alike e f (.choice i ps) (alt j q qs) := by
  obtain ⟨hl, hitems, hnone⟩ := hp.here
  have hflat : ps.flatMap choiceItems = ps := by
    have each (p : Pattern) (hm : p ∈ ps) : p.choiceItems = [p] :=
      choiceItems_of_not_isChoice (hitems p hm)
    rw [List.flatMap_def, List.map_congr_left each, ← List.flatMap_def, List.flatMap_singleton']
  cases ps with
  | nil => simp at hl
  | cons p ps =>
    have heq : alt i p ps = .choice i (p :: ps) := by
      unfold alt
      rw [hflat]
      split
      · next heq => simp [heq] at hl
      · simp [hnone]
    rw [← heq]
    exact alike_alt i j h

end Pattern

end PegMatch

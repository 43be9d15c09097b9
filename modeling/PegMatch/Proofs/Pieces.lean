import PegMatch.Pattern.Render
import PegMatch.Proofs.Construction
import PegMatch.Proofs.Identity

set_option autoImplicit false

namespace PegMatch

def Allowed.sparing (quiet : Nat → Prop) : Allowed where
  call := quiet
  capture _ := False
  backref _ := True

namespace Meaning

variable {m : Meaning} {s : Subject}

theorem many_andThen_many (hm : Keeps m) : andThen (many s m) (many s m) = many s m := by
  funext i t
  simp only [andThen]
  cases hr : many s m i t with
  | none => rfl
  | some a =>
    cases a with
    | miss => rfl
    | fault f => rfl
    | hit n u =>
      obtain ⟨rfl, hstop⟩ := stop_of_within hm hr
      have hrest : many s m (i + n) u = some (.hit 0 u) := by
        rcases hstop with hstop | hstop <;> simp only [many, within, hstop]
      simp only [hrest, Option.map_some, Answer.after_hit, Nat.add_zero]

theorem inOrder_replicate (h : andThen m m = m) (n : Nat) :
    inOrder (List.replicate (n + 1) m) = m := by
  induction n with
  | zero => exact andThen_nothing m
  | succ n ih => exact (congrArg (andThen m) ih).trans h

end Meaning

open Meaning

theorem Pattern.denote_of_isRepeat {e : Env} (he : e.Inside) {p : Pattern} (hp : p.Normal e.tame)
    (hr : p.isRepeat) : ∃ m, Keeps m ∧ Inside e.subject m ∧ p.denote e = many e.subject m := by
  have one (test : Nat → Bool) : Keeps (ofComparison (e.subject.one test)) ∧
      Inside e.subject (ofComparison (e.subject.one test)) :=
    ⟨keeps_ofComparison _, inside_ofComparison fun _ _ h => Subject.fits_of_one h⟩
  cases p with
  | star i q =>
    have hq := hp.child (q := q) (by simp [children])
    exact ⟨_, keeps_denote hq, q.inside_denote e he.call he.rule, rfl⟩
  | starChar i c => exact ⟨_, (one _).1, (one _).2, (many_one _).symm⟩
  | starSet i s sense => exact ⟨_, (one _).1, (one _).2, (many_one _).symm⟩
  | starAny =>
    exact ⟨Pattern.any.denote e, keeps_denote (.leaf trivial rfl),
      Pattern.any.inside_denote e he.call he.rule, (many_any _).symm⟩
  | _ => cases hr

namespace Pattern

theorem denote_plus (e : Env) (starId id : Nat) (p : Pattern) :
    (plus starId id p).denote e = andThen (p.denote e) ((repeated starId p).denote e) := by
  rw [plus, denote_seq]
  simp [inOrder]

/-- Three nodes in a row that are written as one piece: nothing is left of the last one. -/
inductive Thrice : Pattern → Pattern → Pattern → Prop where
  | same {p : Pattern} (hr : p.isRepeat) : Thrice p p p
  | option (i j k : Nat) (p : Pattern) : Thrice (.option i p) (.star j p) (.star k p)

/-- Only nodes in the normal form stand three times in a row. -/
def Untripled (A : Allowed) (ps : List Pattern) : Prop :=
  ∀ p q r, [p, q, r] <:+: ps → Thrice p q r → p.Normal A

theorem Untripled.mono {A B : Allowed} {ps qs : List Pattern} (h : Untripled A ps) (hq : qs <:+: ps)
    (hAB : A.Less B) : Untripled B qs :=
  fun p q r hin ht => (h p q r (hin.trans hq) ht).mono hAB

end Pattern

/-- Trees in normal form with all that stands below them, where an identity tells the node. -/
structure Family (A : Allowed) (K : Set Pattern) : Prop where
  unique : ∀ p ∈ K, ∀ q ∈ K, p.id = q.id → p = q
  closed : ∀ p ∈ K, ∀ q ∈ p.children, q ∈ K
  normal : ∀ p ∈ K, p.Normal A

theorem Pool.family {H : Set Pattern} {n : Nat} (h : Pool H n) (A : Allowed) :
    Family A { p | p ∈ H ∧ p.Normal A } where
  unique p hp q hq := h.unique p hp.1 q hq.1
  closed p hp q hq := ⟨h.closed p hp.1 q hq, hp.2.child hq⟩
  normal _ hp := hp.2

namespace Family

variable {A : Allowed} {K : Set Pattern} {p q : Pattern}

theorem eq_of_same (h : Family A K) (hp : p ∈ K) (hq : q ∈ K) (hs : p.same q) : p = q :=
  h.unique p hp q hq (by simpa [Pattern.same] using hs)

end Family

namespace Piece

open Pattern

inductive StandsFor : Piece × Bool → List Pattern → Prop where
  | once (p : Piece) : StandsFor (p, false) [p.node]
  | again (p : Piece) (hr : p.node.isRepeat) (n : Nat) :
      StandsFor (p, true) (List.replicate (n + 2) p.node)
  | option (p : Piece) {i : Nat} {b : Pattern} (ho : p.node = .option i b) (hb : b.isRepeatable)
      (j : Nat) (js : List Nat) : StandsFor (p, true) (p.node :: (j :: js).map fun j => .star j b)
  | body (p : Piece) (hp : p.node.isRepeatable) (j : Nat) :
      StandsFor (p, true) (parts p.node ++ [.star j p.node])

/-- The nodes that pieces stand for, the newest of which comes first. -/
inductive Covers : List (Piece × Bool) → List Pattern → Prop where
  | nil : Covers [] []
  | cons {w : Piece × Bool} {ws : List (Piece × Bool)} {ps qs : List Pattern} (hs : Covers ws ps)
      (h : StandsFor w qs) : Covers (w :: ws) (ps ++ qs)

/-- The pattern that a piece is written for. -/
def pattern (w : Piece × Bool) : Pattern :=
  if w.2 then .plus 0 0 w.1.node else w.1.node

theorem inOrder_parts (e : Env) (p : Pattern) :
    inOrder ((parts p).map (Pattern.denote e)) = p.denote e := by
  cases p with
  | sequence i items => exact (Pattern.denote_sequence e i items).symm
  | _ => simp [parts, inOrder]

variable {A : Allowed} {K : Set Pattern} {e : Env} {p q body : Piece} {again : Bool}
  {w : Piece × Bool} {ws : List (Piece × Bool)} {ps qs : List Pattern}

/-- Where a piece stands for nodes that are much the same, it means what they mean one after the
other. -/
theorem StandsFor.denote_eq (he : e.Inside) (h : StandsFor w qs) (ht : Untripled e.tame qs) :
    (pattern w).denote e = inOrder (qs.map (Pattern.denote e)) := by
  cases h with
  | once p => simp [pattern, inOrder]
  | again p hr n =>
    have htwo : (pattern (p, true)).denote e = andThen (p.node.denote e) (p.node.denote e) := by
      rw [pattern, if_pos rfl, denote_plus, repeated_of_isRepeat 0 hr]
    cases n with
    | zero => simp [htwo, inOrder]
    | succ n =>
      have hin : [p.node, p.node, p.node] <:+: List.replicate (n + 1 + 2) p.node :=
        ⟨List.replicate n p.node, [], by simp [← List.replicate_append_replicate (n := n) (m := 3)]⟩
      obtain ⟨m, hm, -, heq⟩ := denote_of_isRepeat he (ht _ _ _ hin (.same hr)) hr
      have hself : andThen (p.node.denote e) (p.node.denote e) = p.node.denote e := by
        rw [heq]
        exact many_andThen_many hm
      rw [htwo, hself, List.map_replicate, inOrder_replicate hself]
  | @option p i b ho hb j js =>
    have hone : (pattern (p, true)).denote e = andThen (p.node.denote e)
        (many e.subject (b.denote e)) := by
      rw [pattern, if_pos rfl, denote_plus, ho, repeated, repeated_of_isRepeatable 0 hb]
      rfl
    have hmap : (p.node :: (j :: js).map fun j => Pattern.star j b).map (Pattern.denote e) =
        p.node.denote e :: List.replicate (js.length + 1) (many e.subject (b.denote e)) := by
      simp [Function.comp_def, Pattern.denote, List.map_const']
      rfl
    rw [hone, hmap]
    refine congrArg (andThen _) ?_
    cases js with
    | nil => exact (andThen_nothing _).symm
    | cons k js =>
      rw [ho] at ht
      have hin : [.option i b, .star j b, .star k b] <:+: .option i b :: (j :: k :: js).map fun j =>
          Pattern.star j b :=
        ⟨[], js.map fun j => .star j b, by simp⟩
      have hkeeps :=
        keeps_denote ((ht _ _ _ hin (.option i j k b)).child (q := b) (by simp [children]))
      exact (inOrder_replicate (many_andThen_many hkeeps) _).symm
  | body p hp j =>
    rw [pattern, if_pos rfl, denote_plus, repeated_of_isRepeatable 0 hp, List.map_append,
      inOrder_append, inOrder_parts]
    simp [inOrder, Pattern.denote]

theorem Covers.denote_eq (he : e.Inside) (h : Covers ws ps) (ht : Untripled e.tame ps) :
    inOrder ((ws.reverse.map pattern).map (Pattern.denote e)) =
      inOrder (ps.map (Pattern.denote e)) := by
  induction h with
  | nil => rfl
  | @cons w ws ps qs hs h ih =>
    have hps := ht.mono ⟨[], qs, rfl⟩ (.refl _)
    have hqs : Untripled e.tame qs := ht.mono ⟨ps, [], by simp⟩ (.refl _)
    rw [List.reverse_cons, List.map_append, List.map_append, inOrder_append, List.map_append,
      inOrder_append, ih hps, ← h.denote_eq he hqs]
    simp [inOrder]

theorem StandsFor.repeat (h : StandsFor (q, again) qs) (hq : q.node = p.node)
    (hr : p.node.isRepeat) : StandsFor (p, true) (qs ++ [p.node]) := by
  cases h with
  | once q => exact hq ▸ StandsFor.again p hr 0
  | again q hr' n =>
    rw [hq, ← List.replicate_succ']
    exact .again p hr (n + 1)
  | option q ho =>
    rw [← hq, ho] at hr
    cases hr
  | body q hq' =>
    rw [hq] at hq'
    exact absurd hr (not_isRepeat_of_isRepeatable hq')

theorem StandsFor.optional (h : StandsFor (q, again) qs) {i : Nat} {b : Pattern}
    (hq : q.node = .option i b) (hb : b.isRepeatable) (j : Nat) :
    StandsFor (q, true) (qs ++ [.star j b]) := by
  cases h with
  | once q => exact .option q hq hb j []
  | again q hr =>
    rw [hq] at hr
    cases hr
  | @option q i' b' ho hb' j' js =>
    obtain ⟨rfl, rfl⟩ := Pattern.option.inj (hq.symm.trans ho)
    simpa using StandsFor.option q ho hb' j' (js ++ [j])
  | body q hq' =>
    rw [hq] at hq'
    cases hq'

theorem mem_parts (hK : Family A K) {p : Pattern} (hp : p ∈ K) : ∀ q ∈ parts p, q ∈ K := by
  intro q hq
  cases p with
  | sequence i items => exact hK.closed _ hp q hq
  | _ => simpa [parts] using (List.mem_singleton.1 hq).symm ▸ hp

theorem Covers.endsWith (hK : Family A K) (hw : ∀ w ∈ ws, w.1.node ∈ K) (hq : ∀ q ∈ qs, q ∈ K)
    (h : Covers ws ps) (he : endsWith ws qs) :
    ∃ ps', Covers (ws.drop qs.length) ps' ∧ ps = ps' ++ qs.reverse := by
  induction qs generalizing ws ps with
  | nil => exact ⟨ps, h, by simp⟩
  | cons q qs ih =>
    cases h with
    | nil => cases he
    | @cons w ws ps gs hs h =>
      obtain ⟨w, again⟩ := w
      simp only [Piece.endsWith, Bool.and_eq_true, Bool.not_eq_true'] at he
      obtain ⟨⟨rfl, hsame⟩, he⟩ := he
      -- Only identities were compared, but in a family they tell the node.
      have hnode : w.node = q := hK.eq_of_same (hw (w, false) (by simp)) (hq q (by simp)) hsame
      obtain ⟨ps', hps', rfl⟩ :=
        ih (fun w hm => hw w (by simp [hm])) (fun q hm => hq q (by simp [hm])) hs he
      cases h
      exact ⟨ps', hps', by simp [hnode]⟩

/-- Pieces hold of all that is written what they hold of what was written before and of the new
one. -/
theorem forall_append {P : Piece → Prop} (hw : ∀ w ∈ ws, P w.1) (hp : P p) :
    ∀ w ∈ append ws p, P w.1 := by
  match ws with
  | [] => simpa [append] using hp
  | (q, again) :: ws =>
    simp only [List.forall_mem_cons] at hw
    simp only [append]
    split
    · exact List.forall_mem_cons.2 ⟨hp, hw.2⟩
    · exact List.forall_mem_cons.2 ⟨hp, List.forall_mem_cons.2 hw⟩

theorem forall_appendStar {P : Piece → Prop} (hw : ∀ w ∈ ws, P w.1) (hp : P p) (hb : P body) :
    ∀ w ∈ appendStar ws p body, P w.1 := by
  match ws with
  | [] => simpa [appendStar] using hp
  | (q, again) :: ws =>
    have hold := List.forall_mem_cons.1 hw
    simp only [appendStar]
    split
    · exact List.forall_mem_cons.2 ⟨hp, hold.2⟩
    · split
      · exact List.forall_mem_cons.2 ⟨hold.1, hold.2⟩
      · split
        · exact List.forall_mem_cons.2 ⟨hb, fun w hm => hw w (List.mem_of_mem_drop hm)⟩
        · exact List.forall_mem_cons.2 ⟨hp, hw⟩

section

variable (hK : Family A K) (hw : ∀ w ∈ ws, w.1.node ∈ K) (hp : p.node ∈ K) (h : Covers ws ps)
include hK hw hp h

theorem covers_append : Covers (append ws p) (ps ++ [p.node]) := by
  cases h with
  | nil => exact .cons .nil (.once p)
  | @cons w ws ps qs hs h =>
    obtain ⟨q, again⟩ := w
    simp only [append]
    split
    · next hsame =>
      obtain ⟨hr, hsame⟩ := Bool.and_eq_true_iff.1 hsame
      rw [List.append_assoc]
      exact .cons hs (h.repeat (hK.eq_of_same (hw (q, again) (by simp)) hp hsame) hr)
    · exact .cons (.cons hs h) (.once p)

theorem covers_appendStar {i : Nat} (hstar : p.node = .star i body.node) :
    Covers (appendStar ws p body) (ps ++ [p.node]) := by
  have hb : body.node ∈ K := hK.closed _ hp _ (by simp [hstar, children])
  have hrep : body.node.isRepeatable := by
    have := (hK.normal _ hp).here
    rwa [hstar] at this
  cases h with
  | nil => exact .cons .nil (.once p)
  | @cons w ws ps qs hs h =>
    obtain ⟨q, again⟩ := w
    have hq : q.node ∈ K := hw (q, again) (by simp)
    simp only [appendStar]
    split
    · next hsame =>
      rw [List.append_assoc]
      exact .cons hs (h.repeat (hK.eq_of_same hq hp hsame) (by rw [hstar]; rfl))
    · split
      · next ho =>
        unfold isOptionOf at ho
        split at ho
        · next j b hnode =>
          have hbody : b = body.node :=
            hK.eq_of_same (hK.closed _ hq b (by simp [hnode, children])) hb ho
          subst hbody
          rw [List.append_assoc, hstar]
          exact .cons hs (h.optional hnode hrep i)
        · cases ho
      · split
        · next hends =>
          have hparts (r : Pattern) (hr : r ∈ (parts body.node).reverse) : r ∈ K :=
            mem_parts hK hb r (List.mem_reverse.1 hr)
          obtain ⟨ps', hps', heq⟩ := (Covers.cons hs h).endsWith hK hw hparts hends
          rw [List.length_reverse] at hps'
          rw [heq, List.reverse_reverse, List.append_assoc, hstar]
          exact .cons hps' (.body body hrep i)
        · exact .cons (.cons hs h) (.once p)

end

end Piece

namespace Pattern

open Piece

/-- The pattern can be written, and what is told holds of it and its text. -/
def Worded (store : Store) (below : Nat → Except Fault Text) (P : Piece → Prop) (p : Pattern) :
    Prop :=
  ∃ t, p.renderWith store below = .ok t ∧ P ⟨p, t⟩

variable {store : Store} {below : Nat → Except Fault Text} {A : Allowed} {K : Set Pattern}
  {P : Piece → Prop}

theorem renderItems_cons {p : Pattern} (h : ∀ i q, p ≠ .star i q) (ps : List Pattern)
    (ws : List (Piece × Bool)) :
    renderItems store below (p :: ps) ws = (do
      let t ← renderWith store below p
      renderItems store below ps (Piece.append ws ⟨p, t⟩)) := by
  cases p with
  | star i q => exact absurd rfl (h i q)
  | _ => rfl

theorem covers_items (hK : Family A K) (ps : List Pattern)
    (hps : ∀ p ∈ ps, p ∈ K ∧ ∀ q ∈ p :: p.children, Worded store below P q)
    (ws : List (Piece × Bool)) (hw : ∀ w ∈ ws, w.1.node ∈ K ∧ P w.1) {pre : List Pattern}
    (h : Covers ws pre) :
    ∃ ws', renderItems store below ps ws = .ok ws' ∧ (∀ w ∈ ws', w.1.node ∈ K ∧ P w.1) ∧
      Covers ws' (pre ++ ps) := by
  induction ps generalizing ws pre with
  | nil => exact ⟨ws, rfl, hw, by simpa using h⟩
  | cons p ps ih =>
    obtain ⟨hp, hworded⟩ := hps p (by simp)
    have hrest := fun q hq => hps q (List.mem_cons_of_mem p hq)
    have hnodes := fun w hm => (hw w hm).1
    obtain ⟨t, ht, hP⟩ := hworded p (by simp)
    rw [List.append_cons]
    -- A repetition is written from its body, which is why the children must be known to be written
    -- too.
    by_cases hstar : ∃ i q, p = .star i q
    · obtain ⟨i, q, rfl⟩ := hstar
      obtain ⟨u, hu, hQ⟩ := hworded q (by simp [children])
      have hbody : (⟨q, u⟩ : Piece).node ∈ K ∧ P ⟨q, u⟩ :=
        ⟨hK.closed _ hp q (by simp [children]), hQ⟩
      simp only [renderWith, hu, bind, Except.bind, Except.ok.injEq] at ht
      subst ht
      obtain ⟨ws', hws', hall, hcovers⟩ := ih hrest _
        (forall_appendStar (P := fun w => w.node ∈ K ∧ P w) hw ⟨hp, hP⟩ hbody)
        (covers_appendStar hK hnodes hp h rfl)
      exact ⟨ws', by simp only [renderItems, hu, bind, Except.bind, hws'], hall, hcovers⟩
    · have hne (i : Nat) (q : Pattern) : p ≠ .star i q := fun heq => hstar ⟨i, q, heq⟩
      obtain ⟨ws', hws', hall, hcovers⟩ :=
        ih hrest _ (forall_append (P := fun w => w.node ∈ K ∧ P w) (p := ⟨p, t⟩) hw ⟨hp, hP⟩)
          (covers_append hK hnodes hp h)
      exact ⟨ws', by simp only [renderItems_cons hne, ht, bind, Except.bind, hws'], hall, hcovers⟩

end Pattern

end PegMatch

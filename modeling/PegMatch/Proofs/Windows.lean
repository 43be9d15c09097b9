import PegMatch.Proofs.Lockstep
import PegMatch.Proofs.Pieces

set_option autoImplicit false

/-! The identities of a tree that is woven from text. A node that was not there before has one from
the time when it was read. So what stands in a sequence three times in a row was there before, and
is as all that was. -/

namespace PegMatch

namespace Pattern

variable {A : Allowed} {lo mid hi lo' hi' id : Nat} {p q r : Pattern} {ps qs : List Pattern}

/-- A node is one that may be shared, or its identity comes from a window, as do those below it. In
a sequence only nodes that may be shared stand three times in a row. -/
inductive Woven (A : Allowed) (lo hi : Nat) : Pattern → Prop where
  | shared {p : Pattern} (h : p.Normal A) : Woven A lo hi p
  | node {p : Pattern} (first : lo ≤ p.id) (last : p.id < hi)
      (row : ∀ i items, p = .sequence i items → Untripled A items)
      (below : ∀ q ∈ p.children, Woven A lo hi q) : Woven A lo hi p

theorem Untripled.of_normal (h : ∀ p ∈ ps, p.Normal A) : Untripled A ps :=
  fun p _ _ hin _ => h p (hin.subset (by simp))

theorem Untripled.of_short (h : ps.length ≤ 2) : Untripled A ps := fun p q r hin _ => by
  have := hin.length_le
  simp only [List.length_cons, List.length_nil] at this
  omega

namespace Woven

theorem mono (h : Woven A lo hi p) (hlo : lo' ≤ lo) (hhi : hi ≤ hi') : Woven A lo' hi' p := by
  induction h with
  | shared h => exact .shared h
  | node first last row _ ih =>
    exact .node (Nat.le_trans hlo first) (Nat.lt_of_lt_of_le last hhi) row ih

theorem child (h : Woven A lo hi p) (hq : q ∈ p.children) : Woven A lo hi q := by
  cases h with
  | shared h => exact .shared (h.child hq)
  | node _ _ _ below => exact below q hq

theorem untripled {i : Nat} (h : Woven A lo hi (.sequence i ps)) : Untripled A ps := by
  cases h with
  | shared h => exact .of_normal fun p hp => h.child hp
  | node _ _ row _ => exact row i ps rfl

theorem shared_of_apart (h : Woven A lo mid p) (h' : Woven A mid hi p) : p.Normal A := by
  cases h with
  | shared h => exact h
  | node _ last _ _ =>
    cases h' with
    | shared h' => exact h'
    | node first _ _ _ => exact absurd first (Nat.not_le.2 last)

theorem leaf (first : lo ≤ p.id) (last : p.id < hi) (h : p.children = []) : Woven A lo hi p := by
  refine .node first last (fun i items heq => ?_) (by simp [h])
  subst heq
  obtain rfl : items = [] := h
  exact .of_short (by simp)

theorem single (first : lo ≤ p.id) (last : p.id < hi) (hp : p.isItem) (h : p.children = [q])
    (hq : Woven A lo hi q) : Woven A lo hi p := by
  refine .node first last (fun i items heq => ?_) (by simpa [h] using hq)
  subst heq
  cases hp

end Woven

/-- Nodes that are written as one piece have something in common, and so they are not from two
windows apart. -/
theorem Thrice.shared_of_apart (h : Thrice p q r) (hp : Woven A lo mid p) (hr : Woven A mid hi r)
    (hn : p.Normal .all) : p.Normal A := by
  cases h with
  | same => exact hp.shared_of_apart hr
  | option i j k p =>
    have hbody : p.Normal A :=
      (hp.child (q := p) (by simp [children])).shared_of_apart (hr.child (by simp [children]))
    exact .single hn.here rfl hbody

structure Row (A : Allowed) (lo hi : Nat) (ps : List Pattern) : Prop where
  woven : ∀ p ∈ ps, Woven A lo hi p
  untripled : Untripled A ps

namespace Row

theorem nil : Row A lo hi [] :=
  ⟨by simp, .of_short (by simp)⟩

theorem of_shared (h : ∀ p ∈ ps, p.Normal A) : Row A lo hi ps :=
  ⟨fun p hp => .shared (h p hp), .of_normal h⟩

theorem mono (h : Row A lo hi ps) (hlo : lo' ≤ lo) (hhi : hi ≤ hi') : Row A lo' hi' ps :=
  ⟨fun p hp => (h.woven p hp).mono hlo hhi, h.untripled⟩

theorem append (h : Row A lo mid ps) (h' : Row A mid hi qs) (hlo : lo ≤ mid) (hhi : mid ≤ hi)
    (hn : ∀ p ∈ ps, p.Normal .all) : Row A lo hi (ps ++ qs) := by
  refine ⟨fun p hp => ?_, fun p q r hin ht => ?_⟩
  · rcases List.mem_append.1 hp with hp | hp
    · exact (h.woven p hp).mono (Nat.le_refl _) hhi
    · exact (h'.woven p hp).mono hlo (Nat.le_refl _)
  · rcases List.infix_append_iff_ne_nil.1 hin with hin | hin | ⟨l, l', hl, hl', heq, hps, hqs⟩
    · exact h.untripled p q r hin ht
    · exact h'.untripled p q r hin ht
    · have hp : p ∈ ps := hps.subset (by
        cases l with
        | nil => exact absurd rfl hl
        | cons a l => simp [(List.cons.inj heq).1])
      have hr : r ∈ qs := hqs.subset (by
        have hlast := congrArg List.getLast? heq
        rw [List.getLast?_append_of_ne_nil _ hl'] at hlast
        exact List.mem_of_getLast? hlast.symm)
      exact ht.shared_of_apart (h.woven p hp) (h'.woven r hr) (hn p hp)

end Row

namespace Woven

theorem row (h : Woven A lo hi p) : Row A lo hi p.sequenceItems := by
  cases p with
  | sequence i items => exact ⟨fun q hq => h.child hq, h.untripled⟩
  | empty => exact .nil
  | _ => exact ⟨by simpa [sequenceItems] using h, .of_short (by simp [sequenceItems])⟩

theorem seq (h : Row A lo hi (ps.flatMap sequenceItems)) (first : lo ≤ id) (last : id < hi) :
    Woven A lo hi (seq id ps) := by
  unfold Pattern.seq
  split
  · exact .shared (.leaf trivial rfl)
  · next p hp => exact h.woven p (by simp [hp])
  · refine .node first last (fun i items heq => ?_) h.woven
    cases heq
    exact h.untripled

theorem alt {others : List Pattern} (h : ∀ q ∈ p :: others, Woven A lo hi q) (first : lo ≤ id)
    (last : id < hi) : Woven A lo hi (alt id p others) := by
  have items (q : Pattern) (hq : q ∈ (p :: others).flatMap choiceItems) : Woven A lo hi q := by
    obtain ⟨r, hr, hq⟩ := List.mem_flatMap.1 hq
    cases r <;> simp only [choiceItems, List.mem_singleton] at hq
    case choice i items => exact (h _ hr).child hq
    all_goals subst hq; exact h _ hr
  unfold Pattern.alt
  split
  · next q hq => exact items q (by simp [hq])
  · split
    · exact .leaf first last rfl
    · exact .node first last (fun i items heq => by cases heq) items

theorem opt (h : Woven A lo hi p) (first : lo ≤ id) (last : id < hi) :
    Woven A lo hi (opt id p) := by
  rcases opt_cases id p with heq | ⟨-, heq⟩ <;> rw [heq]
  · exact h
  · exact .single first last rfl rfl h

theorem repeated (h : Woven A lo hi p) (first : lo ≤ id) (last : id < hi) :
    Woven A lo hi (repeated id p) := by
  induction p using induction_children with
  | node p ih =>
    by_cases hr : p.isRepeatable
    · rw [repeated_of_isRepeatable id hr]
      exact .single first last rfl rfl h
    · cases p with
      | char i c => exact .leaf first last rfl
      | set i s sense => exact .leaf first last rfl
      | any => exact .shared (.leaf trivial rfl)
      | anyRune => exact .shared (.leaf trivial rfl)
      | star i q => exact h
      | starChar i c => exact h
      | starSet i s sense => exact h
      | starAny => exact h
      | option i q => exact ih q (by simp [children]) (h.child (by simp [children]))
      | _ => simp [isRepeatable] at hr

end Woven

theorem sequenceItems_repeated (id : Nat) (p : Pattern) :
    (repeated id p).sequenceItems = [repeated id p] := by
  induction p using induction_children with
  | node p ih =>
    cases p with
    | option i q => exact ih q (by simp [children])
    | _ => rfl

/-- What is repeated one time or more often may be a repetition, which then stands there twice, but
no more. -/
theorem untripled_plus (h : Untripled A p.sequenceItems) (starId : Nat) :
    Untripled A (p.sequenceItems ++ [repeated starId p]) := by
  cases p with
  | sequence i items =>
    refine fun p q r hin ht => ?_
    rcases List.infix_concat_iff.1 hin with hin | hin
    · -- The repetition is larger than the items of what it repeats, and so it is none of them.
      obtain ⟨l, hl, hsuffix⟩ := (List.suffix_concat_iff.1 hin).resolve_left (by simp)
      obtain ⟨rfl, hr⟩ := List.append_inj' (show [p, q] ++ [r] = l ++ [_] from hl) rfl
      obtain rfl : r = .star starId (.sequence i items) := (List.singleton_inj.1 hr)
      have hp : p ∈ items := hsuffix.subset (by simp)
      have hlt := List.sizeOf_lt_of_mem hp
      cases ht with
      | same => simp at hlt; omega
      | option => simp at hlt; omega
    · exact h p q r hin ht
  | _ => exact .of_short (by simp [sequenceItems])

theorem Woven.plus {starId : Nat} (h : Woven A lo hi p) (first : lo ≤ starId) (last : starId < hi)
    (first' : lo ≤ id) (last' : id < hi) : Woven A lo hi (plus starId id p) := by
  have hitems : [p, Pattern.repeated starId p].flatMap sequenceItems =
      p.sequenceItems ++ [Pattern.repeated starId p] := by
    simp [sequenceItems_repeated]
  refine .seq ?_ first' last'
  rw [hitems]
  refine ⟨fun q hq => ?_, untripled_plus h.row.untripled starId⟩
  rcases List.mem_append.1 hq with hq | hq
  · exact h.row.woven q hq
  · rw [List.mem_singleton.1 hq]
    exact h.repeated first last

end Pattern

end PegMatch

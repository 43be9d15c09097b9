import PegMatch.Proofs.Blueprints
import PegMatch.Proofs.Inlining

set_option autoImplicit false

/-! The constructors of patterns simplify what they are given. The node that they return matches
like the plain node that it stands for, at every position and with every table of captures: a
flattened sequence or choice like the nested one, a set of characters like the choice between them,
a run of characters like the repetition of one. -/

namespace PegMatch

namespace Pattern

/-- Patterns that are put together by the constructors. -/
inductive Built : Pattern → Prop where
  | single {p : Pattern} (h : p ∈ singles) : Built p
  | text (id : Nat) (how : Comparison) (t : Text) : Built (text id how t)
  | char (id c : Nat) : Built (.char id c)
  | set (id : Nat) (members : RuneSet) (negated : Bool) : Built (.set id members (.ofBool negated))
  | ident (setId starId id : Nat) : Built (ident setId starId id)
  | endAnchor (id : Nat) : Built (endAnchor id)
  | backref (id : Nat) (how : Comparison) (slot : Nat) : Built (.backref id how slot)
  | call (id r : Nat) : Built (.call id r)
  | rule (id r : Nat) : Built (.rule id r)
  | grammar (id : Nat) (start : Nat × Nat) (others : List (Nat × Nat)) :
      Built (.grammar id start others)
  | seq (id : Nat) {ps : List Pattern} (h : ∀ p ∈ ps, Built p) : Built (seq id ps)
  | alt (id : Nat) {first : Pattern} {others : List Pattern} (h : ∀ p ∈ first :: others, Built p) :
      Built (alt id first others)
  | repeated (id : Nat) {p : Pattern} (h : Built p) : Built (repeated id p)
  | plus (starId id : Nat) {p : Pattern} (h : Built p) : Built (plus starId id p)
  | opt (id : Nat) {p : Pattern} (h : Built p) : Built (opt id p)
  | peek (id : Nat) {p : Pattern} (h : Built p) : Built (.peek id p)
  | not (id : Nat) {p : Pattern} (h : Built p) : Built (.not id p)
  | search (id : Nat) {p : Pattern} (h : Built p) : Built (.search id p)
  | capture (id : Nat) {p : Pattern} (h : Built p) : Built (.capture id p)
  | capturedSearch (id : Nat) {p : Pattern} (h : Built p) : Built (.capturedSearch id p)

/-- What the constructors keep to, whatever the operands refer to: sets are told by a truth value
whether they are negated, a choice has alternatives, and no option is one of an option or a
repetition. -/
def RegularNode : Pattern → Prop
  | .set _ _ sense => sense = .ofBool sense.isNegated
  | .choice _ items => items ≠ []
  | .option _ p => ¬ p.isOption ∧ ¬ p.isRepeat
  | _ => True

inductive Regular : Pattern → Prop where
  | node {p : Pattern} (here : p.RegularNode) (below : ∀ q ∈ p.children, Regular q) : Regular p

variable {p q : Pattern} {ps : List Pattern}

theorem Regular.here (h : Regular p) : p.RegularNode := by
  cases h with
  | node here _ => exact here

theorem Regular.child (h : Regular p) (hq : q ∈ p.children) : Regular q := by
  cases h with
  | node _ below => exact below q hq

theorem Regular.leaf (here : p.RegularNode) (hc : p.children = []) : Regular p :=
  .node here (by simp [hc])

theorem Regular.single (here : p.RegularNode) (hc : p.children = [q]) (hq : Regular q) :
    Regular p :=
  .node here (by simp [hc, hq])

theorem NormalNode.regular {A : Allowed} (h : p.NormalNode A) : p.RegularNode := by
  cases p with
  | set i members sense => exact h
  | option i q => exact h
  | choice i items =>
    rintro rfl
    simp [NormalNode] at h
  | _ => trivial

theorem Normal.regular {A : Allowed} (h : Normal A p) : Regular p := by
  induction h with
  | node here _ ih => exact .node here.regular ih

theorem RegularNode.told (h : p.RegularNode) : p.Told := by
  cases p with
  | set i members sense => exact h
  | _ => trivial

theorem Regular.sequenceItems (h : Regular p) (hq : q ∈ p.sequenceItems) : Regular q := by
  cases p <;> simp only [Pattern.sequenceItems, List.mem_singleton, List.not_mem_nil] at hq
  case sequence i items => exact h.child hq
  all_goals subst hq; exact h

theorem Regular.choiceItems (h : Regular p) (hq : q ∈ p.choiceItems) : Regular q := by
  cases p <;> simp only [Pattern.choiceItems, List.mem_singleton] at hq
  case choice i items => exact h.child hq
  all_goals subst hq; exact h

theorem Regular.choiceItems_ne_nil (h : Regular p) : p.choiceItems ≠ [] := by
  cases p with
  | choice i items => exact h.here
  | _ => simp [Pattern.choiceItems]

theorem flatMap_choiceItems_ne_nil {first : Pattern} {others : List Pattern} (h : Regular first) :
    (first :: others).flatMap choiceItems ≠ [] := by
  simp [h.choiceItems_ne_nil]

theorem regular_seq (id : Nat) (h : ∀ p ∈ ps, Regular p) : Regular (seq id ps) := by
  have items (q : Pattern) (hq : q ∈ ps.flatMap sequenceItems) : Regular q := by
    obtain ⟨p, hp, hq⟩ := List.mem_flatMap.1 hq
    exact (h p hp).sequenceItems hq
  unfold seq
  split
  · exact .leaf trivial rfl
  · next q hq => exact items q (by simp [hq])
  · exact .node trivial items

theorem regular_alt (id : Nat) {first : Pattern} {others : List Pattern}
    (h : ∀ p ∈ first :: others, Regular p) : Regular (alt id first others) := by
  have items (q : Pattern) (hq : q ∈ (first :: others).flatMap choiceItems) : Regular q := by
    obtain ⟨p, hp, hq⟩ := List.mem_flatMap.1 hq
    exact (h p hp).choiceItems hq
  unfold alt
  split
  · next q hq => exact items q (by simp [hq])
  · split
    · exact .leaf rfl rfl
    · exact .node (flatMap_choiceItems_ne_nil (h first (by simp))) items

theorem regular_repeated (id : Nat) (h : Regular p) : Regular (repeated id p) := by
  induction h with
  | @node p here below ih =>
    by_cases hr : p.isRepeatable
    · rw [repeated_of_isRepeatable id hr]
      exact .single trivial rfl (.node here below)
    · cases p with
      | star i q => exact .node here below
      | option i q => exact ih q (by simp [children])
      | char i c => exact .leaf trivial rfl
      | set i s sense => exact .leaf trivial rfl
      | any => exact .leaf trivial rfl
      | anyRune => exact .leaf trivial rfl
      | starChar i c => exact .leaf trivial rfl
      | starSet i s sense => exact .leaf trivial rfl
      | starAny => exact .leaf trivial rfl
      | _ => simp [isRepeatable] at hr

theorem regular_opt (id : Nat) (h : Regular p) : Regular (opt id p) := by
  rcases opt_cases id p with heq | ⟨hnot, heq⟩ <;> rw [heq]
  · exact h
  · exact .single hnot rfl h

theorem Built.regular (h : Built p) : Regular p := by
  have free {p : Pattern} (h : Normal ⟨fun _ => True, fun _ => True, fun _ => True⟩ p) :
      Regular p := h.regular
  induction h with
  | single hp => exact free (normal_of_mem_singles _ hp)
  | text id how t => exact free (normal_text id how t)
  | char id c => exact .leaf trivial rfl
  | set id members negated => exact free (normal_set id members negated)
  | ident setId starId id => exact free (normal_ident setId starId id)
  | endAnchor id => exact free (normal_endAnchor id)
  | backref id how slot => exact .leaf trivial rfl
  | call id r => exact .leaf trivial rfl
  | rule id r => exact .leaf trivial rfl
  | grammar id start others => exact .leaf trivial rfl
  | seq id _ ih => exact regular_seq id ih
  | alt id _ ih => exact regular_alt id ih
  | repeated id _ ih => exact regular_repeated id ih
  | plus starId id _ ih =>
    refine regular_seq id fun q hq => ?_
    simp only [List.mem_cons, List.not_mem_nil, or_false] at hq
    rcases hq with rfl | rfl
    · exact ih
    · exact regular_repeated starId ih
  | opt id _ ih => exact regular_opt id ih
  | peek id _ ih => exact .single trivial rfl ih
  | not id _ ih => exact .single trivial rfl ih
  | search id _ ih => exact .single trivial rfl ih
  | capture id _ ih => exact .single trivial rfl ih
  | capturedSearch id _ ih => exact .single trivial rfl ih

variable {e : Env}

theorem Regular.denote_alt {id : Nat} {first : Pattern} {others : List Pattern}
    (h : ∀ p ∈ first :: others, Regular p) :
    (alt id first others).denote e = Meaning.firstOf ((first :: others).map (denote e)) := by
  refine denote_alt_of_told (flatMap_choiceItems_ne_nil (h first (by simp))) fun q hq => ?_
  obtain ⟨p, hp, hq⟩ := List.mem_flatMap.1 hq
  exact ((h p hp).choiceItems hq).here.told

/-- A repetition means its operand as often as possible, whatever is captured, unless the operand
itself tries a pattern again and again. -/
theorem Regular.denote_repeated (he : e.Inside) (id : Nat) (h : Regular p) (hs : ¬ p.isStar) :
    (repeated id p).denote e = Meaning.many e.subject (p.denote e) := by
  cases p with
  | option i q =>
    have hq := h.here
    have hstar : ¬ q.isStar := by
      cases q with
      | star j r => simp [RegularNode, isRepeat] at hq
      | _ => simp [isStar]
    exact denote_repeated_option id i (denote_repeated_of_not he id hstar hq.1)
  | _ => exact denote_repeated_of_not he id hs (by simp [isOption])

theorem denote_char (id id' c : Nat) {i : Int} (hi : 0 ≤ i) (t : Slots) :
    (Pattern.char id c).denote e i t = (Pattern.literal id' .exact [c]).denote e i t := by
  have same : e.subject.one (· == c) i = .ok (e.subject.exactly i [c]) := by
    by_cases hlt : i < e.subject.size
    · obtain ⟨d, hd⟩ := Subject.at?_eq_some hi hlt
      have hle : i ≤ e.subject.size := by omega
      have hcut : Subject.cut e.subject.size i = i.toNat := by
        simp only [Subject.cut, hi, if_true]
        omega
      have hget : e.subject[i.toNat]? = some d := by simpa [Subject.at?, hi] using hd
      simp [Subject.one, hlt, hd, Subject.exactly, Subject.startsWith, hle, hcut,
        Subject.holds, hget]
    · have hcut : Subject.cut e.subject.size i = e.subject.size := by
        simp only [Subject.cut, hi, if_true]
        omega
      simp [Subject.one, hlt, Subject.exactly, Subject.startsWith, hcut, Subject.holds]
  simp only [denote, Meaning.ofComparison, same, Subject.compare]

end Pattern

namespace Matching

open Pattern

theorem interchangeable_of_denote {store : Store} {p q : Pattern}
    (h : ∀ e : Env, e.Inside → ∀ i t, 0 ≤ i → p.denote e i t = q.denote e i t) :
    Interchangeable store p store q :=
  interchangeable_iff.2 fun _ _ _ i t hi => h _ (inside_scene _) i t hi

/-- What the constructors return matches like the plain node that it stands for: it returns the same
at every position from zero on, and leaves the same table. A term of one character stands for its
text, sequences and choices for those of the operands as they were given, a repetition for the loop
over its operand, one or more times for the operand and the loop behind it, and an option for the
operand or nothing. Only a repetition of a node that is such a loop itself is not meant. -/
theorem constructors_keep_meaning (store : Store) :
    (∀ id id' c, Interchangeable store (term id [c]) store (.literal id' .exact [c])) ∧
    (∀ id id' ps, Interchangeable store (seq id ps) store (.sequence id' ps)) ∧
    (∀ id id' first others, (∀ p ∈ first :: others, Built p) →
      Interchangeable store (alt id first others) store (.choice id' (first :: others))) ∧
    (∀ id id' p, Built p → ¬ p.isStar → Interchangeable store (repeated id p) store (.star id' p)) ∧
    (∀ starId id starId' id' p, Built p → ¬ p.isStar →
      Interchangeable store (plus starId id p) store (.sequence id' [p, .star starId' p])) ∧
    ∀ id id' p, Interchangeable store (opt id p) store (.option id' p) := by
  refine ⟨fun id id' c => ?_, fun id id' ps => ?_, fun id id' first others h => ?_,
    fun id id' p h hs => ?_, fun starId id starId' id' p h hs => ?_, fun id id' p => ?_⟩
  · exact interchangeable_of_denote fun e _ i t hi => denote_char id id' c hi t
  · refine interchangeable_of_denote fun e _ i t _ => ?_
    rw [denote_seq, denote_sequence]
  · refine interchangeable_of_denote fun e _ i t _ => ?_
    rw [Regular.denote_alt fun p hp => (h p hp).regular, denote_choice]
  · refine interchangeable_of_denote fun e he i t _ => ?_
    rw [h.regular.denote_repeated he id hs]
    rfl
  · refine interchangeable_of_denote fun e he i t _ => ?_
    rw [plus, denote_seq, denote_sequence]
    simp only [List.map_cons, List.map_nil, h.regular.denote_repeated he starId hs]
    rfl
  · refine interchangeable_of_denote fun e _ i t _ => ?_
    rw [denote_opt]
    rfl

/-- The choice between a character and a set, and what is there one or more times though it is an
option of a capture. -/
theorem merged_and_repeated_keep_meaning :
    let letter : Pattern := .char 32 'a'
    let digit : Pattern := .set 11 digits .members
    let maybe : Pattern := opt 34 (.capture 33 letter)
    (∀ p ∈ [letter, digit], Built p) ∧ Built maybe ∧ ¬ maybe.isStar ∧
      Interchangeable {}
        (.set 35 ((RuneSet.empty.union (RuneSet.empty.insert 'a')).union digits) .members)
        {} (.choice 36 [letter, digit]) ∧
      Interchangeable {} (.star 37 (.capture 33 letter)) {} (.star 38 maybe) ∧
      Interchangeable {} (.sequence 39 [maybe, .star 37 (.capture 33 letter)])
        {} (.sequence 40 [maybe, .star 38 maybe]) := by
  intro letter digit maybe
  have hletter : Built letter := .char 32 'a'
  have hdigit : Built digit := .single (by simp [digit, singles])
  have hpair : ∀ p ∈ [letter, digit], Built p := by simpa using ⟨hletter, hdigit⟩
  have hmaybe : Built maybe := .opt 34 (.capture 33 hletter)
  have hstar : ¬ maybe.isStar := by simp [maybe, opt, isRepeat, isStar]
  have h := constructors_keep_meaning {}
  exact ⟨hpair, hmaybe, hstar, h.2.2.1 35 36 letter [digit] hpair,
    h.2.2.2.1 37 38 maybe hmaybe hstar, h.2.2.2.2.1 37 39 38 40 maybe hmaybe hstar⟩

end Matching

end PegMatch

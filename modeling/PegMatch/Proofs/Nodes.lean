import PegMatch.Pattern.Build
import PegMatch.Pattern.Cost
import PegMatch.Proofs.Meaning

set_option autoImplicit false

namespace PegMatch

/-- The calls, captures and back references that may stand in a tree. Captures are told apart by
their identity. -/
structure Allowed where
  call : Nat → Prop
  capture : Nat → Prop
  backref : Nat → Prop

structure Allowed.Less (A B : Allowed) : Prop where
  call : ∀ r, A.call r → B.call r
  capture : ∀ id, A.capture id → B.capture id
  backref : ∀ slot, A.backref slot → B.backref slot

theorem Allowed.Less.refl (A : Allowed) : A.Less A :=
  ⟨fun _ h => h, fun _ h => h, fun _ h => h⟩

theorem Allowed.Less.trans {A B C : Allowed} (h : A.Less B) (h' : B.Less C) : A.Less C :=
  ⟨fun r hr => h'.call r (h.call r hr), fun id hid => h'.capture id (h.capture id hid),
    fun k hk => h'.backref k (h.backref k hk)⟩

namespace Pattern

/-- Whether a repetition of the node is a node of its own around it. -/
def isRepeatable : Pattern → Bool
  | .char .. | .set .. | .any | .anyRune | .star .. | .starChar .. | .starSet .. | .starAny
  | .option .. => false
  | _ => true

def isItem : Pattern → Bool
  | .sequence .. | .empty => false
  | _ => true

def isChoice : Pattern → Bool
  | .choice .. => true
  | _ => false

def isOption : Pattern → Bool
  | .option .. => true
  | _ => false

/-- Whether the node is a repetition that tries any pattern again and again. -/
def isStar : Pattern → Bool
  | .star .. => true
  | _ => false

/-- What normal form and the allowed references say of a node by itself. -/
def NormalNode (A : Allowed) : Pattern → Prop
  | .literal _ .exact t => 2 ≤ t.length
  | .literal _ _ t => t ≠ []
  | .set _ _ sense | .starSet _ _ sense => sense = .ofBool sense.isNegated
  | .sequence _ items => 2 ≤ items.length ∧ ∀ p ∈ items, p.isItem
  | .choice _ items =>
    2 ≤ items.length ∧ (∀ p ∈ items, ¬ p.isChoice) ∧ items.mapM characters? = none
  | .star _ p => p.isRepeatable
  | .option _ p => ¬ p.isOption ∧ ¬ p.isRepeat
  | .call _ r => A.call r
  | .capture id _ | .capturedSearch id _ => A.capture id
  | .backref _ _ slot => A.backref slot
  | .valued .. | .rule .. | .grammar .. => False
  | _ => True

/-- The tree is in normal form. -/
inductive Normal (A : Allowed) : Pattern → Prop where
  | node {p : Pattern} (here : p.NormalNode A) (below : ∀ q ∈ p.children, Normal A q) : Normal A p

variable {A B : Allowed} {p : Pattern}

theorem Normal.here (h : Normal A p) : p.NormalNode A := by
  cases h with
  | node here _ => exact here

theorem Normal.child (h : Normal A p) {q : Pattern} (hq : q ∈ p.children) : Normal A q := by
  cases h with
  | node _ below => exact below q hq

theorem NormalNode.mono (h : p.NormalNode A) (hAB : A.Less B) : p.NormalNode B := by
  cases p with
  | literal i how t => cases how <;> exact h
  | call i r => exact hAB.call r h
  | capture i q => exact hAB.capture i h
  | capturedSearch i q => exact hAB.capture i h
  | backref i how slot => exact hAB.backref slot h
  | _ => exact h

theorem Normal.mono (h : Normal A p) (hAB : A.Less B) : Normal B p := by
  induction h with
  | node here _ ih => exact .node (here.mono hAB) ih

theorem Normal.leaf (here : p.NormalNode A) (none : p.children = []) : Normal A p :=
  .node here (by simp [none])

theorem Normal.single {q : Pattern} (here : p.NormalNode A) (only : p.children = [q])
    (hq : Normal A q) : Normal A p :=
  .node here (by simp [only, hq])

theorem mem_sequenceItems {q : Pattern} (h : Normal A p) (hq : q ∈ p.sequenceItems) :
    q.isItem ∧ Normal A q := by
  cases p <;> simp only [sequenceItems, List.mem_singleton, List.not_mem_nil] at hq
  case sequence i items => exact ⟨h.here.2 q hq, h.child hq⟩
  all_goals subst hq; exact ⟨rfl, h⟩

theorem mem_choiceItems {q : Pattern} (h : Normal A p) (hq : q ∈ p.choiceItems) :
    ¬ q.isChoice ∧ Normal A q := by
  cases p <;> simp only [choiceItems, List.mem_singleton] at hq
  case choice i items => exact ⟨h.here.2.1 q hq, h.child hq⟩
  all_goals subst hq; exact ⟨by simp [isChoice], h⟩

theorem normal_seq (id : Nat) {ps : List Pattern} (h : ∀ p ∈ ps, Normal A p) :
    Normal A (seq id ps) := by
  have items (q : Pattern) (hq : q ∈ ps.flatMap sequenceItems) : q.isItem ∧ Normal A q := by
    obtain ⟨p, hp, hq⟩ := List.mem_flatMap.1 hq
    exact mem_sequenceItems (h p hp) hq
  unfold seq
  split
  · exact .leaf trivial rfl
  · next p hp => exact (items p (by simp [hp])).2
  · next qs hne hsingle =>
    refine .node ⟨?_, fun q hq => (items q hq).1⟩ fun q hq => (items q hq).2
    match hm : ps.flatMap sequenceItems with
    | [] => exact absurd hm hne
    | [q] => exact absurd hm (hsingle q)
    | _ :: _ :: _ => simp

theorem choiceItems_ne_nil (h : Normal A p) : p.choiceItems ≠ [] := by
  cases p with
  | choice i items =>
    have := h.here.1
    intro hn
    simp only [choiceItems] at hn
    simp [hn] at this
  | _ => simp [choiceItems]

theorem normal_alt (id : Nat) {first : Pattern} {others : List Pattern}
    (h : ∀ p ∈ first :: others, Normal A p) : Normal A (alt id first others) := by
  have items (q : Pattern) (hq : q ∈ (first :: others).flatMap choiceItems) :
      ¬ q.isChoice ∧ Normal A q := by
    obtain ⟨p, hp, hq⟩ := List.mem_flatMap.1 hq
    exact mem_choiceItems (h p hp) hq
  have hne : (first :: others).flatMap choiceItems ≠ [] := by
    have := choiceItems_ne_nil (h first (by simp))
    simp [this]
  unfold alt
  split
  · next p hp => exact (items p (by simp [hp])).2
  · next hsingle =>
    split
    · exact .leaf rfl rfl
    · next hnone =>
      refine .node ⟨?_, fun q hq => (items q hq).1, hnone⟩ fun q hq => (items q hq).2
      match hm : (first :: others).flatMap choiceItems with
      | [] => exact absurd hm hne
      | [q] => exact absurd hm (hsingle q)
      | _ :: _ :: _ => simp

theorem repeated_of_isRepeatable (id : Nat) (h : p.isRepeatable) : repeated id p = .star id p := by
  cases p <;> first | rfl | cases h

theorem repeated_of_isRepeat (id : Nat) (h : p.isRepeat) : repeated id p = p := by
  cases p <;> first | rfl | cases h

theorem not_isRepeat_of_isRepeatable (h : p.isRepeatable) : ¬ p.isRepeat := by
  cases p <;> first | exact Bool.false_ne_true | cases h

theorem not_isOption_of_isRepeatable (h : p.isRepeatable) : ¬ p.isOption := by
  cases p <;> first | exact Bool.false_ne_true | cases h

theorem characters?_of_isRepeatable (h : p.isRepeatable) : p.characters? = none := by
  cases p <;> first | rfl | cases h

theorem choiceItems_of_not_isChoice (h : ¬ p.isChoice) : p.choiceItems = [p] := by
  cases p <;> first | rfl | exact absurd rfl h

theorem normal_repeated (id : Nat) (h : Normal A p) : Normal A (repeated id p) := by
  induction h with
  | @node p here below ih =>
    by_cases hr : p.isRepeatable
    · rw [repeated_of_isRepeatable id hr]
      exact .single hr rfl (.node here below)
    · cases p with
      | char i c => exact .leaf trivial rfl
      | set i s sense => exact .leaf here rfl
      | any => exact .leaf trivial rfl
      | anyRune => exact .leaf trivial rfl
      | star i p => exact .node here below
      | starChar i c => exact .node here below
      | starSet i s sense => exact .node here below
      | starAny => exact .node here below
      | option i q => exact ih q (by simp [children])
      | _ => simp [isRepeatable] at hr

theorem normal_plus (starId id : Nat) (h : Normal A p) : Normal A (plus starId id p) := by
  refine normal_seq id fun q hq => ?_
  simp only [List.mem_cons, List.not_mem_nil, or_false] at hq
  rcases hq with rfl | rfl
  · exact h
  · exact normal_repeated starId h

theorem opt_of_not {id : Nat} (ho : ¬ p.isOption) (hr : ¬ p.isRepeat) :
    opt id p = .option id p := by
  cases p <;> first | rfl | exact absurd rfl ho | exact absurd rfl hr

theorem opt_cases (id : Nat) (p : Pattern) :
    opt id p = p ∨ (¬ p.isOption ∧ ¬ p.isRepeat) ∧ opt id p = .option id p := by
  by_cases h : ¬ p.isOption ∧ ¬ p.isRepeat
  · exact .inr ⟨h, opt_of_not h.1 h.2⟩
  · refine .inl ?_
    cases p <;> first | rfl | exact absurd ⟨Bool.false_ne_true, Bool.false_ne_true⟩ h

theorem normal_opt (id : Nat) (h : Normal A p) : Normal A (opt id p) := by
  rcases opt_cases id p with heq | ⟨hnot, heq⟩ <;> rw [heq]
  · exact h
  · exact .single hnot rfl h

theorem normal_term (id : Nat) (t : Text) : Normal A (term id t) := by
  unfold term
  split
  · exact .leaf trivial rfl
  · exact .leaf trivial rfl
  · next hne hsingle =>
    refine .leaf ?_ rfl
    match t with
    | [] => exact absurd rfl hne
    | [c] => exact absurd rfl (hsingle c)
    | _ :: _ :: _ => simp [NormalNode]

theorem normal_text (id : Nat) (how : Comparison) (t : Text) : Normal A (text id how t) := by
  have loose (h : how ≠ .exact) : Normal A (if t.isEmpty then .empty else .literal id how t) := by
    split
    · exact .leaf trivial rfl
    · next ht =>
      refine .leaf ?_ rfl
      cases how <;> simp_all [NormalNode]
  cases how with
  | exact => exact normal_term id t
  | ignoreCase => exact loose (by simp)
  | ignoreStyle => exact loose (by simp)

theorem normal_set (id : Nat) (members : RuneSet) (negated : Bool) :
    Normal A (.set id members (.ofBool negated)) := by
  refine .leaf ?_ rfl
  cases negated <;> rfl

theorem normal_ident (setId starId id : Nat) : Normal A (ident setId starId id) := by
  refine normal_seq id fun q hq => ?_
  simp only [List.mem_cons, List.not_mem_nil, or_false] at hq
  rcases hq with rfl | rfl
  · exact normal_set setId _ false
  · exact normal_repeated starId (normal_set setId _ false)

theorem normal_endAnchor (id : Nat) : Normal A (endAnchor id) :=
  .single trivial rfl (.leaf trivial rfl)

theorem normal_namedSet {name : Text} (h : namedSet? name = some p) : Normal A p := by
  unfold namedSet? at h
  split at h <;> cases h <;> exact .leaf rfl rfl

end Pattern

end PegMatch

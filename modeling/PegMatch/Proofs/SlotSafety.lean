import PegMatch.Blueprint
import PegMatch.Proofs.Journal
import PegMatch.Proofs.Numbering

set_option autoImplicit false

namespace PegMatch

/-- Whether a fault is that of a capture or a back reference without a slot in the table. -/
def Fault.isOfSlot : Fault → Bool
  | .unnumbered | .slotOutside _ | .noSuchSlot => true
  | _ => false

@[simp] theorem Fault.isOfSlot_ofPosition (i : Int) : (Fault.ofPosition i).isOfSlot = false := by
  unfold ofPosition
  split <;> rfl

namespace Subject

variable {s : Subject} {test : Nat → Bool} {i : Int} {f : Fault}

theorem isOfSlot_of_runEnd {room : Nat} (h : s.runEnd test room i = .error f) :
    f.isOfSlot = false := by
  induction room generalizing i with
  | zero => cases h
  | succ room ih =>
    simp only [runEnd] at h
    split at h
    · cases h; simp
    · split at h
      · exact ih h
      · cases h

theorem isOfSlot_of_runLength (h : s.runLength test i = .error f) : f.isOfSlot = false := by
  simp only [runLength, bind, Except.bind] at h
  split at h
  · next hr => cases h; exact isOfSlot_of_runEnd hr
  · cases h

theorem isOfSlot_of_one (h : s.one test i = .error f) : f.isOfSlot = false := by
  simp only [one] at h
  split at h
  · split at h
    · cases h; simp
    · cases h
  · cases h

theorem isOfSlot_of_lineBreak (h : s.lineBreak i = .error f) : f.isOfSlot = false := by
  simp only [lineBreak] at h
  split at h
  · cases h
  · exact isOfSlot_of_one h

theorem isOfSlot_of_styleEnd {t : Text} (h : s.styleEnd t i = .error f) : f.isOfSlot = false := by
  induction t generalizing i with
  | nil => cases h
  | cons a t ih =>
    simp only [styleEnd, bind, Except.bind] at h
    split at h
    · exact ih h
    · split at h
      · next hr => cases h; exact isOfSlot_of_runEnd hr
      · split at h
        · cases h
        · split at h
          · cases h; simp
          · split at h
            · exact ih h
            · cases h

theorem isOfSlot_of_compare {how : Comparison} {t : Text} (h : s.compare how i t = .error f) :
    f.isOfSlot = false := by
  cases how with
  | exact => cases h
  | ignoreCase => cases h
  | ignoreStyle =>
    simp only [compare, ignoringStyle, bind, Except.bind] at h
    split at h
    · next hr => cases h; exact isOfSlot_of_styleEnd hr
    · cases h

end Subject

namespace Captures

def HasSlots (t : Captures) (n : Nat) : Prop :=
  ∀ slot, slot < n → (slot : Int) < t.capacity ∧ slot < t.spans.size

variable {t u : Captures} {n : Nat}

theorem hasSlots_ofCapacity {c : Int} (h : n ≤ c.toNat) : (ofCapacity c).HasSlots n := by
  intro slot hs
  simp only [ofCapacity, Array.size_replicate]
  omega

theorem HasSlots.undo (h : t.HasSlots n) : t.undo.HasSlots n := by
  unfold Captures.undo
  split
  · simpa [HasSlots] using h
  · exact h

theorem HasSlots.rollback (h : t.HasSlots n) (mark : Nat) : (t.rollback mark).HasSlots n := by
  have times (k : Nat) : ∀ t : Captures, t.HasSlots n → (undoTimes k t).HasSlots n := by
    induction k with
    | zero => exact fun t h => h
    | succ k ih => exact fun t h => ih t.undo h.undo
  exact times _ t h

theorem HasSlots.set (h : t.HasSlots n) {slot : Nat} (hs : slot < n) (span : Span) :
    ∃ u, t.set slot span = .ok u ∧ u.HasSlots n := by
  have hlt := (h slot hs).1
  simp only [Captures.set, hlt, Int.natCast_nonneg, and_self, if_true]
  exact ⟨_, rfl, by simpa [HasSlots] using h⟩

theorem HasSlots.text (h : t.HasSlots n) {slot : Nat} (hs : slot < n) (subject : Subject) :
    ∃ o, t.text subject slot = .ok o := by
  rw [slots_text]
  simp only [Slots.text, slots, Array.getElem?_eq_getElem (h slot hs).2]
  exact ⟨_, rfl⟩

end Captures

namespace Matching

/-- The table keeps its slots, and there is no fault because of one. -/
def Result.Secure (n : Nat) : Result → Prop
  | .hit _ s | .miss s => s.table.HasSlots n
  | .fault f _ => f.isOfSlot = false

def Secures (attempt : Attempt) (n : Nat) (p : Pattern) : Prop :=
  ∀ i s, s.table.HasSlots n → (attempt p i s).Secure n

section

variable {attempt : Attempt} {n : Nat} {p : Pattern} {s : State}

theorem secure_compared {x : Except Fault (Option Nat)}
    (hx : ∀ f, x = .error f → f.isOfSlot = false) (hs : s.table.HasSlots n) :
    (compared s x).Secure n := by
  match x, hx with
  | .ok (some _), _ => exact hs
  | .ok none, _ => exact hs
  | .error f, hx => exact hx f rfl

theorem secure_inOrder {ps : List Pattern} (h : ∀ p ∈ ps, Secures attempt n p) (i : Int) (k : Nat)
    (hs : s.table.HasSlots n) : (inOrder attempt i ps k s).Secure n := by
  induction ps generalizing k s with
  | nil => exact hs
  | cons p ps ih =>
    have hp := h p (by simp) (i + k) s hs
    simp only [inOrder]
    split
    · next l u hr =>
      rw [hr] at hp
      exact ih (fun q hq => h q (by simp [hq])) _ hp
    · exact hp

theorem secure_firstOf {ps : List Pattern} (h : ∀ p ∈ ps, Secures attempt n p) (mark : Nat)
    (i : Int) (hs : s.table.HasSlots n) : (firstOf attempt mark i ps s).Secure n := by
  induction ps generalizing s with
  | nil => exact hs
  | cons p ps ih =>
    have hp := h p (by simp) i s hs
    simp only [firstOf]
    split
    · next u hr =>
      rw [hr] at hp
      exact ih (fun q hq => h q (by simp [hq])) (Captures.HasSlots.rollback hp mark)
    · exact hp

theorem secure_repeatedly (h : Secures attempt n p) (i : Int) (times k : Nat)
    (hs : s.table.HasSlots n) : (repeatedly attempt p i times k s).Secure n := by
  induction times generalizing k s with
  | zero => rfl
  | succ times ih =>
    have hp := h (i + k) s hs
    simp only [repeatedly]
    split
    all_goals next hr => rw [hr] at hp; first | exact hp | exact ih _ hp

def Found.Secure (n : Nat) : Found → Prop
  | .nothing s | .found _ _ s => s.table.HasSlots n
  | .fault f _ => f.isOfSlot = false

theorem secure_scan (h : Secures attempt n p) (mark : Nat) (i : Int) (count skipped : Nat)
    (hs : s.table.HasSlots n) : (scan attempt mark p i count skipped s).Secure n := by
  induction count generalizing skipped s with
  | zero => exact hs
  | succ count ih =>
    have hp := h (i + skipped) s hs
    simp only [scan]
    split
    all_goals next hr =>
      rw [hr] at hp; first | exact hp | exact ih _ (Captures.HasSlots.rollback hp mark)

theorem secure_fill {scene : Scene} {id : Nat}
    (h : ∃ slot, scene.store.slot? id = some slot ∧ slot < n) (span : Span) (length : Nat)
    (hs : s.table.HasSlots n) : (fill scene id span length s).Secure n := by
  obtain ⟨slot, hslot, hlt⟩ := h
  obtain ⟨u, hu, hslots⟩ := hs.set hlt span
  simp only [fill, hslot, hu]
  exact hslots

end

theorem isOfSlot_of_body? {store : Store} {r : Nat} {f : Fault} (h : store.body? r = .error f) :
    f.isOfSlot = false := by
  simp only [Store.body?] at h
  split at h <;> cases h
  rfl

variable {scene : Scene} {n : Nat}

/-- A node does not fail because of slots if its own are there and the nodes that it leads to do
not. -/
theorem secure_step (scene : Scene) {attempt : Attempt} {p : Pattern}
    (here : p.Slotted scene.store n) (below : ∀ q ∈ p.children, Secures attempt n q)
    (entered : ∀ r body, p.entered? = some r → scene.store.body? r = .ok (some body) →
      Secures attempt n body)
    (start : ∀ id d ds, p = .grammar id d ds → Secures attempt n (.call id d.2)) (i : Int)
    {s : State} (hs : s.table.HasSlots n) : (step scene attempt p i s).Secure n := by
  have only {q : Pattern} (hq : q ∈ p.children) : (attempt q i s).Secure n := below q hq i s hs
  have whether {c : Prop} [Decidable c] {k : Nat} :
      (if c then Result.hit k s else .miss s).Secure n := by
    split <;> exact hs
  have scanned {q : Pattern} (hq : q ∈ p.children) :
      (scan attempt s.mark q i (positions scene.subject i) 0 s).Secure n :=
    secure_scan (below q hq) _ _ _ _ hs
  cases p with
  | empty => exact hs
  | any => exact whether
  | anyRune => exact whether
  | startAnchor => exact whether
  | newline => exact secure_compared (fun f h => Subject.isOfSlot_of_lineBreak h) hs
  | category c => exact secure_compared (fun f h => Subject.isOfSlot_of_one h) hs
  | literal id how t => exact secure_compared (fun f h => Subject.isOfSlot_of_compare h) hs
  | valued id how v => cases how <;> exact rfl
  | char id c => exact secure_compared (fun f h => Subject.isOfSlot_of_one h) hs
  | set id members sense => exact secure_compared (fun f h => Subject.isOfSlot_of_one h) hs
  | call id r =>
    simp only [step]
    split
    · next body hb => exact entered r body rfl hb i s hs
    · rfl
    · next f hb => exact isOfSlot_of_body? hb
  | rule id r =>
    simp only [step]
    split
    · next body hb => exact entered r body rfl hb i s hs
    · rfl
    · next f hb => exact isOfSlot_of_body? hb
  | grammar id d ds => exact start id d ds rfl i s hs
  | sequence id items =>
    have h := secure_inOrder below i 0 hs
    simp only [Pattern.children] at h
    simp only [step, Result.orRollback]
    split
    · next hr =>
      rw [hr] at h
      exact Captures.HasSlots.rollback h _
    · exact h
  | choice id items => exact secure_firstOf below _ i hs
  | star id q => exact secure_repeatedly (below q (by simp [Pattern.children])) i _ 0 hs
  | starChar id c =>
    refine secure_compared (fun f h => ?_) hs
    cases hr : scene.subject.runLength (· == c) i with
    | error g => rw [hr] at h; cases h; exact Subject.isOfSlot_of_runLength hr
    | ok k => rw [hr] at h; cases h
  | starSet id members sense =>
    refine secure_compared (fun f h => ?_) hs
    cases hr : scene.subject.runLength (fun c => sense.admits (members.contains c)) i with
    | error g => rw [hr] at h; cases h; exact Subject.isOfSlot_of_runLength hr
    | ok k => rw [hr] at h; cases h
  | starAny => exact hs
  | option id q =>
    have h := only (q := q) (by simp [Pattern.children])
    simp only [step]
    split
    · next hr => rw [hr] at h; exact h
    · exact h
  | peek id q =>
    have h := only (q := q) (by simp [Pattern.children])
    simp only [step]
    split
    · next hr => rw [hr] at h; exact h
    · next hr => rw [hr] at h; exact Captures.HasSlots.rollback h _
    · exact h
  | not id q =>
    have h := only (q := q) (by simp [Pattern.children])
    simp only [step]
    split
    · next hr => rw [hr] at h; exact Captures.HasSlots.rollback h _
    · next hr => rw [hr] at h; exact Captures.HasSlots.rollback h _
    · exact h
  | search id q =>
    have h := scanned (q := q) (by simp [Pattern.children])
    simp only [step]
    split
    all_goals next hr => rw [hr] at h; exact h
  | capture id q =>
    have h := only (q := q) (by simp [Pattern.children])
    simp only [step]
    split
    · next hr => rw [hr] at h; exact secure_fill here _ _ h
    · exact h
  | capturedSearch id q =>
    have h := scanned (q := q) (by simp [Pattern.children])
    simp only [step]
    split
    · next hr => rw [hr] at h; exact h
    · next hr => rw [hr] at h; exact secure_fill here _ _ h
    · next hr => rw [hr] at h; exact h
  | backref id how slot =>
    obtain ⟨o, ho⟩ := hs.text here scene.subject
    simp only [step, ho]
    cases o with
    | none => exact hs
    | some t => exact secure_compared (fun f h => Subject.isOfSlot_of_compare h) hs

theorem secures_attempt {p : Pattern} (h : ∀ q, scene.store.Leads p q → q.Slotted scene.store n)
    (depth : Nat) : Secures (attempt scene depth) n p := by
  induction depth generalizing p with
  | zero => exact fun _ _ _ => rfl
  | succ depth ih =>
    intro i s hs
    have hstep := secure_step scene (h p .self)
      (fun q hq => ih fun q' hq' => h q' ((Store.Leads.child .self hq).trans hq'))
      (fun r body hr hb => ih fun q' hq' => h q' ((Store.Leads.enter .self hr hb).trans hq'))
      (fun id d ds hp => ih fun q' hq' => ?_) i
      (s := s.record (scene.watch p.kind).enter (.enter p i)) (by simpa using hs)
    · simp only [attempt, leave]
      split
      all_goals next hr => rw [hr] at hstep; simpa [Result.Secure] using hstep
    · subst hp
      rcases hq'.of_call ds with rfl | hq'
      · trivial
      · exact h q' hq'

/-- With a table of some capacity, every capture that matching may come to has a slot in it, and no
match fails because of a slot. -/
def SlotSafe (store : Store) (c : Int) (root : Pattern) : Prop :=
  (∀ id q, store.Leads root (.capture id q) ∨ store.Leads root (.capturedSearch id q) →
    ∃ slot, store.slot? id = some slot ∧ (slot : Int) < c) ∧
  ∀ (scene : Scene) (depth : Nat) (i : Int) (f : Fault) (u : State), scene.store = store →
    run scene (.ofCapacity c) root i depth = .fault f u → f.isOfSlot = false

theorem slotSafe_of_slotted {store : Store} {root : Pattern} {c : Int} (hn : n ≤ c.toNat)
    (h : ∀ q, store.Leads root q → q.Slotted store n) : SlotSafe store c root := by
  refine ⟨fun id q hq => ?_, fun scene depth i f u hstore hrun => ?_⟩
  · obtain ⟨slot, hslot, hlt⟩ : ∃ slot, store.slot? id = some slot ∧ slot < n := by
      rcases hq with hq | hq
      · exact h _ hq
      · exact h _ hq
    exact ⟨slot, hslot, by omega⟩
  · subst hstore
    have hsecure :=
      secures_attempt h (depth + 1) i { table := .ofCapacity c } (Captures.hasSlots_ofCapacity hn)
    have hrun : attempt scene (depth + 1) root i { table := .ofCapacity c } = .fault f u := hrun
    rw [hrun] at hsecure
    exact hsecure

/-- Numbering a pattern that has not been numbered, and in whose grammars only their own rules are
called, gives a number of slots that suffices: each capture and back reference that matching may
come to has a slot below it, and a table with so many slots is safe. They fit into the capacity just
if the slots do that captures had before. -/
theorem numbering_is_slot_safe (store store' : Store) (c : Int) (root : Pattern) (n : Nat)
    (unnumbered : store.count? root = none) (closed : store.Closed root)
    (h : store.number (.int c) root = .ok (n, store')) :
    (∀ q, store'.Leads root q → q.Slotted store' n) ∧
      (∀ c' : Int, n ≤ c'.toNat → SlotSafe store' c' root) ∧
      (n ≤ c.toNat ↔ ∀ id slot, store.Meets root id → store.slot? id = some slot →
        (slot : Int) < c) := by
  obtain ⟨hslotted, hfits⟩ := Store.slotted_number unnumbered closed h
  exact ⟨hslotted, fun c' hc' => slotSafe_of_slotted hc' hslotted, hfits⟩

/-- `A <- {'a'} A / 'b'`. -/
def captureChain : Store where
  fresh := 40
  rules := #[{
    name := ['A'], declared := true, used := true
    body := some
      (.choice 37 [.sequence 36 [.capture 33 (.char 32 'a'), .call 34 0], .char 35 'b']) }]

theorem closed_captureChain : captureChain.Closed (.grammar 39 (38, 0) []) := by
  have within {known : Option (List Nat)} {p : Pattern}
      (h : captureChain.Within (.grammar 39 (38, 0) []) known p) :
      known = none ∧ p = .grammar 39 (38, 0) [] ∨ known = some [0] ∧ p ∈
        [.choice 37 [.sequence 36 [.capture 33 (.char 32 'a'), .call 34 0], .char 35 'b'],
          .sequence 36 [.capture 33 (.char 32 'a'), .call 34 0], .capture 33 (.char 32 'a'),
          .char 32 'a', .call 34 0, .char 35 'b'] := by
    induction h with
    | root => exact .inl ⟨rfl, rfl⟩
    | child _ hq ih =>
      rcases ih with ⟨-, rfl⟩ | ⟨rfl, hp⟩
      · simp [Pattern.children] at hq
      · refine .inr ⟨rfl, ?_⟩
        simp only [List.mem_cons, List.not_mem_nil, or_false] at hp ⊢
        rcases hp with rfl | rfl | rfl | rfl | rfl | rfl <;> simp [Pattern.children] at hq <;> grind
    | call _ _ ih => simp at ih
    | rule _ _ ih => simp at ih
    | member _ hr hb ih =>
      obtain ⟨rfl, hp⟩ | ⟨-, hp⟩ := ih
      · cases hp
        obtain rfl := List.mem_singleton.1 hr
        cases hb
        exact .inr ⟨rfl, by simp⟩
      · simp at hp
  intro known id r h
  have := within h
  simp at this
  simp [this]

/-- The slot of a capture in a rule that calls itself is the only one. -/
theorem captureChain_is_slot_safe :
    ∃ store', captureChain.count? (.grammar 39 (38, 0) []) = none ∧
      captureChain.Closed (.grammar 39 (38, 0) []) ∧
      captureChain.number (.int 1) (.grammar 39 (38, 0) []) = .ok (1, store') ∧
      SlotSafe store' 1 (.grammar 39 (38, 0) []) := by
  obtain ⟨store', h⟩ : ∃ store',
    captureChain.number (.int 1) (.grammar 39 (38, 0) []) = .ok (1, store') := ⟨_, rfl⟩
  have safe := numbering_is_slot_safe captureChain store' 1 _ 1 rfl closed_captureChain h
  exact ⟨store', rfl, closed_captureChain, h, safe.2.1 1 (by decide)⟩

/-- The fault at which a match stops whose pattern is built, numbered for a capacity and then tried
in a table with that capacity. -/
def faultAfterNumbering (b : Blueprint) (c : Int) (subject : Subject) : Option Fault :=
  match Blueprint.build b {} with
  | .ok (.pattern root) l =>
    match l.store.number (.int c) root with
    | .ok (_, store) =>
      match run { subject := subject, store := store, origin := 0 } (.ofCapacity c) root 0 with
      | .fault f _ => some f
      | _ => none
    | .error _ => none
  | _ => none

theorem not_slotSafe_of_fault {b : Blueprint} {c : Int} (subject : Subject) {f : Fault}
    (h : faultAfterNumbering b c subject = some f) (hf : f.isOfSlot) :
    ∃ root l n store', Blueprint.build b {} = .ok (.pattern root) l ∧
      l.store.number (.int c) root = .ok (n, store') ∧ ¬ SlotSafe store' c root := by
  unfold faultAfterNumbering at h
  split at h
  · next root l hbuild =>
    split at h
    · next n store' hnumber =>
      split at h
      · next g u hrun =>
        cases h
        refine ⟨root, l, n, store', hbuild, hnumber, fun hsafe => ?_⟩
        simp [hsafe.2 _ _ 0 f u rfl hrun] at hf
      · cases h
    · cases h
  · cases h

/-- Numbering succeeds for a capacity of one, and yet a table with one slot is not safe, for the
compiled pattern `{'a'} {'b'}`, whose number of captures is known, and for that pattern followed by
`c`, whose captures have slots. For a grammar that calls a rule outside of it, no table is safe. -/
theorem numbering_overlooks_slots :
    let pair : Blueprint :=
      .source (.value (.text ['{', '\'', 'a', '\'', '}', '{', '\'', 'b', '\'', '}']))
    let outside : Blueprint :=
      .bind "b" (.define ['B'] (.capture (.value (.text ['x']))))
        (.grammar [.define ['A'] (.call ['B'])])
    let overlooked (b : Blueprint) (c : Int) : Prop := ∃ root l n store',
      Blueprint.build b {} = .ok (.pattern root) l ∧
          l.store.number (.int c) root = .ok (n, store') ∧
      ¬ SlotSafe store' c root
    overlooked (.sequence [pair, .value (.text ['c'])]) 1 ∧ overlooked pair 1 ∧
      overlooked outside 20 := by
  have hlibrary : ({} : Library) = { config := ⟨Config.defaults⟩ } := by rw [← Config.standard_eq]
  refine ⟨not_slotSafe_of_fault #['a', 'b', 'c'] (f := .slotOutside 1) ?_ rfl,
    not_slotSafe_of_fault #['a', 'b'] (f := .slotOutside 1) ?_ rfl,
    not_slotSafe_of_fault #['x'] (f := .unnumbered) ?_ rfl⟩ <;>
  · rw [faultAfterNumbering, hlibrary]
    decide +kernel

end Matching

end PegMatch

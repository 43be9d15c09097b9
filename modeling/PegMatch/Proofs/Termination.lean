import Mathlib.Data.Fintype.Card
import Mathlib.Data.Set.Finite.Basic
import Mathlib.Logic.Relation
import Mathlib.Order.Interval.Finset.Nat
import PegMatch.Proofs.Journal

set_option autoImplicit false

/-! Where matching ends. A node that cannot succeed without consuming something moves the position
on, so a rule comes back to itself at the same position only through nodes before which everything
is nullable. Where no rule does, every match ends. -/

namespace PegMatch

namespace Pattern

def entered? : Pattern → Option Nat
  | .call _ r | .rule _ r => some r
  | .grammar _ start _ => some start.2
  | _ => none

/-- Whether the text is matched where nothing is consumed. -/
def Vanishes : Comparison → Text → Prop
  | .ignoreStyle, t => ∀ c ∈ t, c = '_'.toNat
  | _, t => t = []

/-- The node may succeed without consuming anything. -/
inductive Nullable (store : Store) : Pattern → Prop where
  | empty : Nullable store .empty
  | startAnchor : Nullable store .startAnchor
  | literal {id : Nat} {how : Comparison} {t : Text} (h : Vanishes how t) :
      Nullable store (.literal id how t)
  | repetition {p : Pattern} (h : p.isRepeat) : Nullable store p
  | option {id : Nat} {p : Pattern} : Nullable store (.option id p)
  | peek {id : Nat} {p : Pattern} : Nullable store (.peek id p)
  | not {id : Nat} {p : Pattern} : Nullable store (.not id p)
  | backref {id : Nat} {how : Comparison} {slot : Nat} : Nullable store (.backref id how slot)
  | sequence {id : Nat} {items : List Pattern} (h : ∀ p ∈ items, Nullable store p) :
      Nullable store (.sequence id items)
  | choice {id : Nat} {items : List Pattern} {p : Pattern} (hp : p ∈ items) (h : Nullable store p) :
      Nullable store (.choice id items)
  | capture {id : Nat} {p : Pattern} (h : Nullable store p) : Nullable store (.capture id p)
  | search {id : Nat} {p : Pattern} (h : Nullable store p) : Nullable store (.search id p)
  | capturedSearch {id : Nat} {p : Pattern} (h : Nullable store p) :
      Nullable store (.capturedSearch id p)
  | enters {p body : Pattern} {r : Nat} (hr : p.entered? = some r)
      (hb : store.body? r = .ok (some body)) (h : Nullable store body) : Nullable store p

/-- A node in the tree enters the rule. -/
inductive Mentions : Pattern → Nat → Prop where
  | here {p : Pattern} {r : Nat} (h : p.entered? = some r) : Mentions p r
  | child {p q : Pattern} {r : Nat} (hq : q ∈ p.children) (h : Mentions q r) : Mentions p r

def isSequence : Pattern → Bool
  | .sequence .. => true
  | _ => false

/-- A node enters the rule, and all that stands before it in the sequences around it is nullable. -/
inductive MentionsLeft (store : Store) : Pattern → Nat → Prop where
  | here {p : Pattern} {r : Nat} (h : p.entered? = some r) : MentionsLeft store p r
  | item {id : Nat} {before after : List Pattern} {p : Pattern} {r : Nat}
      (hb : ∀ q ∈ before, q.Nullable store) (h : MentionsLeft store p r) :
      MentionsLeft store (.sequence id (before ++ p :: after)) r
  | child {p q : Pattern} {r : Nat} (hp : ¬ p.isSequence) (hq : q ∈ p.children)
      (h : MentionsLeft store q r) : MentionsLeft store p r

theorem MentionsLeft.mentions {store : Store} {p : Pattern} {r : Nat} (h : p.MentionsLeft store r) :
    p.Mentions r := by
  induction h with
  | here h => exact .here h
  | item _ _ ih => exact .child (by simp [children]) ih
  | child _ hq _ ih => exact .child hq ih

theorem MentionsLeft.leaf {store : Store} {p : Pattern} {r : Nat} (h : p.MentionsLeft store r)
    (hp : p.children = []) : p.entered? = some r := by
  cases h with
  | here h => exact h
  | item _ _ => simp [children] at hp
  | child _ hq _ => simp [hp] at hq

theorem mentionsLeft_cons {store : Store} {id r : Nat} {p : Pattern} {ps : List Pattern}
    (h : (Pattern.sequence id (p :: ps)).MentionsLeft store r) :
    p.MentionsLeft store r ∨ p.Nullable store ∧ (Pattern.sequence id ps).MentionsLeft store r := by
  generalize hq : Pattern.sequence id (p :: ps) = q at h
  cases h with
  | here h => subst hq; cases h
  | child hs _ _ => subst hq; simp [isSequence] at hs
  | @item id' before after q _ hb h =>
    cases before with
    | nil =>
      simp only [List.nil_append, sequence.injEq, List.cons.injEq] at hq
      obtain ⟨-, rfl, -⟩ := hq
      exact .inl h
    | cons p' before =>
      simp only [List.cons_append, sequence.injEq, List.cons.injEq] at hq
      obtain ⟨-, rfl, rfl⟩ := hq
      exact .inr ⟨hb p (by simp), .item (fun q hq => hb q (by simp [hq])) h⟩

end Pattern

namespace Store

def LeftReaches (store : Store) (r r' : Nat) : Prop :=
  ∃ body, store.body? r = .ok (some body) ∧ body.MentionsLeft store r'

inductive Reachable (store : Store) (p : Pattern) : Nat → Prop where
  | mention {r : Nat} (h : p.Mentions r) : Reachable store p r
  | body {r r' : Nat} {q : Pattern} (h : Reachable store p r) (hb : store.body? r = .ok (some q))
      (hq : q.Mentions r') : Reachable store p r'

theorem lt_of_body? {store : Store} {r : Nat} {p : Pattern} (h : store.body? r = .ok (some p)) :
    r < store.rules.size := by
  by_contra hr
  have hnone : store.rules[r]? = none := Array.getElem?_eq_none (Nat.le_of_not_lt hr)
  simp [body?, rule, hnone] at h

end Store

namespace Subject

theorem styleEnd_lt {s : Subject} {t : Text} {j k : Int} (ht : ¬ ∀ c ∈ t, c = '_'.toNat)
    (h : s.styleEnd t j = .ok (some k)) : j < k := by
  induction t generalizing j with
  | nil => simp at ht
  | cons a t ih =>
    by_cases ha : a = '_'.toNat
    · have ht' : ¬ ∀ c ∈ t, c = '_'.toNat := by simpa [ha] using ht
      have hrest : s.styleEnd t j = .ok (some k) := by simpa [styleEnd, ha] using h
      exact ih ht' hrest
    · simp only [styleEnd, ha, if_false, bind, Except.bind] at h
      split at h
      · cases h
      · next l hl =>
        have hjl := runEnd_le hl
        split at h
        · cases h
        · split at h
          · cases h
          · split at h
            · have hlk := styleEnd_le h
              omega
            · cases h

theorem pos_of_one {s : Subject} {test : Nat → Bool} {i : Int} {n : Nat}
    (h : s.one test i = .ok (some n)) : 0 < n := by
  simp only [one] at h
  split at h
  · split at h
    · cases h
    · split at h
      · cases h; omega
      · cases h
  · cases h

theorem pos_of_lineBreak {s : Subject} {i : Int} {n : Nat} (h : s.lineBreak i = .ok (some n)) :
    0 < n := by
  simp only [lineBreak] at h
  split at h
  · cases h; omega
  · exact pos_of_one h

theorem pos_of_compare {s : Subject} {how : Comparison} {i : Int} {t : Text} {n : Nat}
    (ht : ¬ Pattern.Vanishes how t) (h : s.compare how i t = .ok (some n)) : 0 < n := by
  cases how with
  | exact =>
    have hne : t ≠ [] := ht
    have hlen := List.length_pos_of_ne_nil hne
    simp only [compare, exactly, Except.ok.injEq] at h
    split at h
    · cases h; omega
    · cases h
  | ignoreCase =>
    have hne : t ≠ [] := ht
    have hlen := List.length_pos_of_ne_nil hne
    simp only [compare, ignoringCase, Except.ok.injEq] at h
    split at h
    · cases h
    · split at h
      · cases h; omega
      · cases h
  | ignoreStyle =>
    simp only [compare, ignoringStyle, bind, Except.bind] at h
    split at h
    · cases h
    · next o ho =>
      simp only [Except.ok.injEq, Option.map_eq_some_iff] at h
      obtain ⟨k, rfl, rfl⟩ := h
      have := styleEnd_lt ht ho
      omega

theorem room_lt {s : Subject} {i : Int} {n : Nat} (h : s.Fits i n) (hn : 0 < n) :
    s.room (i + n) < s.room i := by
  simp only [Fits, room] at h ⊢
  omega

end Subject

namespace Meaning

variable {m k : Meaning} {s : Subject} {i : Int}

def Consumes (m : Meaning) : Prop :=
  ∀ i t n u, m i t = some (.hit n u) → 0 < n

theorem consumes_ofComparison {x : Int → Except Fault (Option Nat)}
    (hx : ∀ i n, x i = .ok (some n) → 0 < n) : Consumes (ofComparison x) := by
  intro i t n u h
  simp only [ofComparison] at h
  split at h
  · next hn => cases h; exact hx i n hn
  · cases h
  · cases h

theorem consumes_inOrder {ms : List Meaning} (hm : m ∈ ms) (h : Consumes m) :
    Consumes (inOrder ms) := by
  induction ms with
  | nil => cases hm
  | cons m' ms ih =>
    intro i t n u hit
    simp only [inOrder, List.foldr_cons, andThen] at hit
    split at hit
    · next l v hl =>
      obtain ⟨a, ha, he⟩ := Option.map_eq_some_iff.1 hit
      cases a <;> cases he
      rcases List.mem_cons.1 hm with rfl | hm
      · have := h i t l v hl
        omega
      · have := ih hm _ v _ _ ha
        omega
    · next hno => exact (hno n u hit).elim

theorem consumes_firstOf {ms : List Meaning} (h : ∀ m ∈ ms, Consumes m) :
    Consumes (firstOf ms) := by
  induction ms with
  | nil =>
    intro i t n u hit
    cases hit
  | cons m ms ih =>
    intro i t n u hit
    simp only [firstOf, List.foldr_cons, orElse] at hit
    split at hit
    · exact ih (fun k hk => h k (by simp [hk])) i t n u hit
    · exact h m (by simp) i t n u hit

theorem consumes_capture (slot : Option Nat) (h : Consumes m) : Consumes (capture slot m) := by
  intro i t n u hit
  obtain ⟨a, ha, he⟩ := Option.map_eq_some_iff.1 hit
  cases a with
  | miss => cases he
  | fault f => cases he
  | hit l v =>
    have hn := length_of_fill he
    subst hn
    exact h i t n v ha

theorem pos_of_seek (h : Consumes m) {found : Nat → Nat → Slots → Answer}
    (hf : ∀ skipped l t n u, found skipped l t = .hit n u → n = skipped + l) {t u : Slots}
    {n count skipped : Nat} (hit : seek m found i t count skipped = some (.hit n u)) : 0 < n := by
  induction count generalizing skipped with
  | zero => cases hit
  | succ count ih =>
    simp only [seek] at hit
    split at hit
    · next l v hl =>
      have hl' := h _ t l v hl
      have hn := hf _ _ _ _ _ (Option.some.inj hit)
      omega
    · exact ih hit
    · next hno _ => exact (hno n u hit).elim

/-- There is an answer at the position, whatever the table. -/
def Answers (m : Meaning) (i : Int) : Prop :=
  ∀ t, ∃ a, m i t = some a

theorem answers_ofComparison (x : Int → Except Fault (Option Nat)) :
    Answers (ofComparison x) i := by
  intro t
  simp only [ofComparison]
  split <;> exact ⟨_, rfl⟩

theorem answers_map (F : Int → Slots → Answer → Answer) (hm : Answers m i) :
    Answers (fun i t => (m i t).map (F i t)) i := by
  intro t
  obtain ⟨a, ha⟩ := hm t
  exact ⟨F i t a, by simp [ha]⟩

theorem answers_andThen (hm : Answers m i)
    (hk : ∀ t n u, m i t = some (.hit n u) → Answers k (i + n)) : Answers (andThen m k) i := by
  intro t
  obtain ⟨a, ha⟩ := hm t
  simp only [andThen, ha]
  cases a with
  | miss => exact ⟨_, rfl⟩
  | fault f => exact ⟨_, rfl⟩
  | hit n u =>
    obtain ⟨b, hb⟩ := hk t n u ha u
    exact ⟨b.after n, by simp [hb]⟩

theorem answers_orElse (hm : Answers m i) (hk : Answers k i) : Answers (orElse m k) i := by
  intro t
  obtain ⟨a, ha⟩ := hm t
  simp only [orElse, ha]
  cases a with
  | miss => exact hk t
  | fault f => exact ⟨_, rfl⟩
  | hit n u => exact ⟨_, rfl⟩

theorem answers_firstOf {ms : List Meaning} (h : ∀ m ∈ ms, Answers m i) :
    Answers (firstOf ms) i := by
  induction ms with
  | nil => exact fun t => ⟨_, rfl⟩
  | cons m ms ih => exact answers_orElse (h m (by simp)) (ih fun k hk => h k (by simp [hk]))

/-- A repetition goes on only while something is consumed, so less and less room is left. -/
theorem answers_within (hin : Inside s m) (hi : 0 ≤ i) (here : Answers m i)
    (later : ∀ j, 0 ≤ j → s.room j < s.room i → Answers m j) {times : Nat} (ht : s.room i < times) :
    Answers (within m times) i := by
  induction times generalizing i with
  | zero => omega
  | succ times ih =>
    intro t
    obtain ⟨a, ha⟩ := here t
    simp only [within, ha]
    cases a with
    | miss => exact ⟨_, rfl⟩
    | fault f => exact ⟨_, rfl⟩
    | hit n u =>
      cases n with
      | zero => exact ⟨_, rfl⟩
      | succ n =>
        have hfits := hin i t (n + 1) u ha
        have hroom := Subject.room_lt hfits (by omega)
        have hnext := later (i + (n + 1 : Nat)) (by omega) hroom
        have hrest := ih (by omega) hnext (fun j hj hlt => later j hj (by omega)) (by omega)
        obtain ⟨b, hb⟩ := hrest u
        exact ⟨b.after (n + 1), Option.map_eq_some_iff.2 ⟨b, hb, rfl⟩⟩

/-- A search moves on by one position at a time, and not beyond the end of the subject. -/
theorem answers_seek (found : Nat → Nat → Slots → Answer) {count skipped : Nat}
    (h : ∀ j < count, Answers m (i + (skipped + j : Nat))) (t : Slots) :
    ∃ a, seek m found i t count skipped = some a := by
  induction count generalizing skipped with
  | zero => exact ⟨_, rfl⟩
  | succ count ih =>
    obtain ⟨a, ha⟩ := h 0 (by omega) t
    simp only [Nat.add_zero] at ha
    simp only [seek, ha]
    cases a with
    | hit n u => exact ⟨_, rfl⟩
    | fault f => exact ⟨_, rfl⟩
    | miss =>
      refine ih fun j hj => ?_
      have hnext := h (j + 1) (by omega)
      have he : skipped + (j + 1) = skipped + 1 + j := by omega
      rwa [he] at hnext

theorem answers_positions (here : Answers m i)
    (later : ∀ j, 0 ≤ j → s.room j < s.room i → Answers m j) (hi : 0 ≤ i) (j : Nat)
    (hj : j < Matching.positions s i) : Answers m (i + (0 + j : Nat)) := by
  simp only [Matching.positions] at hj
  cases j with
  | zero => simpa using here
  | succ j =>
    refine later _ (by omega) ?_
    simp only [Subject.room]
    omega

end Meaning

namespace Pattern

open Meaning Matching

variable {scene : Scene} {body : Nat → Meaning}

theorem denote_entered (scene : Scene) (body : Nat → Meaning) {p : Pattern} {r : Nat}
    (hr : p.entered? = some r) :
    (∃ q, scene.store.body? r = .ok (some q)) ∧ p.denote (scene.env body) = body r ∨
      ∃ f, p.denote (scene.env body) = .wrong f := by
  cases hb : scene.store.body? r with
  | error f =>
    refine .inr ⟨f, ?_⟩
    cases p <;> simp only [entered?, Option.some.injEq, reduceCtorEq] at hr
    all_goals subst hr; simp only [denote, Scene.env, hb]
  | ok o =>
    cases o with
    | none =>
      right
      cases p <;> simp only [entered?, Option.some.injEq, reduceCtorEq] at hr
      all_goals subst hr; simp only [denote, Scene.env, hb]; exact ⟨_, rfl⟩
    | some q =>
      refine .inl ⟨⟨q, rfl⟩, ?_⟩
      cases p <;> simp only [entered?, Option.some.injEq, reduceCtorEq] at hr
      all_goals subst hr; simp only [denote, Scene.env, hb]

theorem consumes_denote
    (hbody : ∀ r q, scene.store.body? r = .ok (some q) → ¬ q.Nullable scene.store →
      Consumes (body r)) (p : Pattern) (hp : ¬ p.Nullable scene.store) :
    Consumes (p.denote (scene.env body)) := by
  have entered {p : Pattern} {r : Nat} (hr : p.entered? = some r) (hp : ¬ p.Nullable scene.store) :
      Consumes (p.denote (scene.env body)) := by
    rcases denote_entered scene body hr with ⟨⟨q, hq⟩, he⟩ | ⟨f, he⟩
    · rw [he]
      exact hbody r q hq fun hn => hp (.enters hr hq hn)
    · rw [he]
      intro i t n u h
      cases h
  have char : Consumes (Pattern.any.denote (scene.env body)) := by
    intro i t n u h
    simp only [denote, Option.some.injEq] at h
    split at h
    · cases h; omega
    · cases h
  induction p using induction_children with
  | node p ih =>
    cases p with
    | empty => exact absurd .empty hp
    | startAnchor => exact absurd .startAnchor hp
    | any => exact char
    | anyRune => exact char
    | newline => exact consumes_ofComparison fun i n h => Subject.pos_of_lineBreak h
    | category c => exact consumes_ofComparison fun i n h => Subject.pos_of_one h
    | literal id how t =>
      have ht : ¬ Vanishes how t := fun h => hp (.literal h)
      exact consumes_ofComparison fun i n h => Subject.pos_of_compare ht h
    | valued id how v =>
      intro i t n u h
      cases how <;> cases h
    | char id c => exact consumes_ofComparison fun i n h => Subject.pos_of_one h
    | set id members sense => exact consumes_ofComparison fun i n h => Subject.pos_of_one h
    | call id r => exact entered rfl hp
    | rule id r => exact entered rfl hp
    | grammar id start others => exact entered rfl hp
    | sequence id items =>
      have hex : ∃ q ∈ items, ¬ q.Nullable scene.store := by
        by_contra hno
        push Not at hno
        exact hp (.sequence hno)
      obtain ⟨q, hq, hn⟩ := hex
      have hc := ih q hq hn
      simp only [denote, denoteEach_eq_map]
      exact consumes_inOrder (List.mem_map_of_mem hq) hc
    | choice id items =>
      simp only [denote, denoteEach_eq_map]
      refine consumes_firstOf fun m hm => ?_
      obtain ⟨q, hq, rfl⟩ := List.mem_map.1 hm
      exact ih q hq fun hn => hp (.choice hq hn)
    | star id q => exact absurd (.repetition rfl) hp
    | starChar id c => exact absurd (.repetition rfl) hp
    | starSet id members sense => exact absurd (.repetition rfl) hp
    | starAny => exact absurd (.repetition rfl) hp
    | option id q => exact absurd .option hp
    | peek id q => exact absurd .peek hp
    | not id q => exact absurd .not hp
    | backref id how slot => exact absurd .backref hp
    | capture id q =>
      exact consumes_capture _ (ih q (by simp [children]) fun hn => hp (.capture hn))
    | search id q =>
      have hq := ih q (by simp [children]) fun hn => hp (.search hn)
      intro i t n u h
      exact pos_of_seek hq (fun _ _ _ _ _ h => by cases h; rfl) h
    | capturedSearch id q =>
      have hq := ih q (by simp [children]) fun hn => hp (.capturedSearch hn)
      intro i t n u h
      exact pos_of_seek hq (fun _ _ _ _ _ h => length_of_fill h) h

theorem consumes_meaning (scene : Scene) {p : Pattern} (hp : ¬ p.Nullable scene.store) :
    Consumes (scene.meaning p) := by
  refine consumes_denote (fun r q hq hn i t n u h => ?_) p hp
  refine scene.body_induction (fun r _ _ a => ∀ q, scene.store.body? r = .ok (some q) →
    ¬ q.Nullable scene.store → ∀ n u, a = .hit n u → 0 < n) ?_ h q hq hn n u rfl
  intro body ih r q i t a hq h q' hq' hn n u ha
  cases hq.symm.trans hq'
  exact consumes_denote (fun r q hq hn i t n u hb => ih r i t _ hb q hq hn n u rfl) q hn i
    t n u (ha ▸ h)

def Ends (scene : Scene) (r : Nat) (i : Int) : Prop :=
  ∀ q, scene.store.body? r = .ok (some q) → Answers (scene.body r) i

theorem answers_inOrder {ps : List Pattern} {i : Int} (hi : 0 ≤ i)
    (ih : ∀ p ∈ ps, ∀ i, 0 ≤ i → (∀ r, p.MentionsLeft scene.store r → Ends scene r i) →
      (∀ r, p.Mentions r → ∀ j, 0 ≤ j → scene.subject.room j < scene.subject.room i →
        Ends scene r j) → Answers (scene.meaning p) i)
    (left : ∀ before p after, ps = before ++ p :: after → (∀ q ∈ before, q.Nullable scene.store) →
      ∀ r, p.MentionsLeft scene.store r → Ends scene r i)
    (later : ∀ p ∈ ps, ∀ r, p.Mentions r → ∀ j, 0 ≤ j → scene.subject.room j <
      scene.subject.room i → Ends scene r j) : Answers (inOrder (ps.map scene.meaning)) i := by
  induction ps generalizing i with
  | nil => exact fun t => ⟨_, rfl⟩
  | cons p ps ihps =>
    have hp := ih p (by simp) i hi (left [] p ps rfl (by simp)) (later p (by simp))
    refine answers_andThen hp fun t n u hit => ?_
    have rest (j : Int) (hj : 0 ≤ j) (left' : ∀ before q after, ps = before ++ q :: after →
        (∀ q ∈ before, q.Nullable scene.store) → ∀ r, q.MentionsLeft scene.store r → Ends scene r j)
        (hroom : scene.subject.room j ≤ scene.subject.room i) :
        Answers (inOrder (ps.map scene.meaning)) j :=
      ihps hj (fun q hq => ih q (by simp [hq])) left'
        fun q hq r hr k hk hlt => later q (by simp [hq]) r hr k hk (by omega)
    rcases Nat.eq_zero_or_pos n with rfl | hn
    · -- Nothing was consumed, so the first item is nullable and the next one stands at the left.
      have hnull : p.Nullable scene.store := by
        by_contra hno
        have := consumes_meaning scene hno i t 0 u hit
        omega
      have he : i + ((0 : Nat) : Int) = i := by simp
      rw [he]
      refine rest i hi (fun before q after hps hb r hr => ?_) (Nat.le_refl _)
      refine left (p :: before) q after (by simp [hps]) ?_ r hr
      simpa using ⟨hnull, hb⟩
    · have hroom := Subject.room_lt (scene.inside_meaning p i t n u hit) hn
      refine rest (i + n) (by omega) (fun before q after hps _ r hr => ?_) (Nat.le_of_lt hroom)
      exact later q (by simp [hps]) r hr.mentions _ (by omega) hroom

/-- A pattern has an answer at a position if the rules that it enters at the left have one there,
and all rules that it enters have one wherever less room is left. -/
theorem answers_meaning (p : Pattern) :
    ∀ i, 0 ≤ i → (∀ r, p.MentionsLeft scene.store r → Ends scene r i) →
      (∀ r, p.Mentions r → ∀ j, 0 ≤ j → scene.subject.room j < scene.subject.room i →
        Ends scene r j) → Answers (scene.meaning p) i := by
  have entered {p : Pattern} {r : Nat} {i : Int} (hr : p.entered? = some r)
      (left : ∀ r, p.MentionsLeft scene.store r → Ends scene r i) :
      Answers (scene.meaning p) i := by
    rcases denote_entered scene scene.body hr with ⟨⟨q, hq⟩, he⟩ | ⟨f, he⟩
    · simp only [Scene.meaning, he]
      exact left r (.here hr) q hq
    · simp only [Scene.meaning, he]
      exact fun t => ⟨_, rfl⟩
  induction p using induction_children with
  | node p ih =>
    intro i hi left later
    -- The only node below `p`, at this position and wherever less room is left.
    have only {q : Pattern} (hp : ¬ p.isSequence) (hq : q ∈ p.children) :
        Answers (scene.meaning q) i ∧ ∀ j, 0 ≤ j → scene.subject.room j < scene.subject.room i →
        Answers (scene.meaning q) j := by
      refine ⟨ih q hq i hi (fun r hr => left r (.child hp hq hr))
        fun r hr => later r (.child hq hr), fun j hj hlt =>
        ih q hq j hj (fun r hr => later r (.child hq hr.mentions) j hj hlt) ?_⟩
      intro r hr k hk hlt'
      exact later r (.child hq hr) k hk (by omega)
    cases p with
    | empty => exact fun t => ⟨_, rfl⟩
    | any => exact fun t => ⟨_, rfl⟩
    | anyRune => exact fun t => ⟨_, rfl⟩
    | startAnchor => exact fun t => ⟨_, rfl⟩
    | newline => exact answers_ofComparison _
    | category c => exact answers_ofComparison _
    | literal id how t => exact answers_ofComparison _
    | valued id how v => cases how <;> exact fun t => ⟨_, rfl⟩
    | char id c => exact answers_ofComparison _
    | set id members sense => exact answers_ofComparison _
    | starChar id c => exact answers_ofComparison _
    | starSet id members sense => exact answers_ofComparison _
    | starAny => exact fun t => ⟨_, rfl⟩
    | call id r => exact entered rfl left
    | rule id r => exact entered rfl left
    | grammar id start others => exact entered rfl left
    | sequence id items =>
      simp only [Scene.meaning, denote, denoteEach_eq_map]
      refine answers_inOrder hi ih (fun before p after hps hb r hr => ?_) fun p hp r hr =>
        later r (.child hp hr)
      subst hps
      exact left r (.item hb hr)
    | choice id items =>
      simp only [Scene.meaning, denote, denoteEach_eq_map]
      refine answers_firstOf fun m hm => ?_
      obtain ⟨q, hq, rfl⟩ := List.mem_map.1 hm
      exact (only (by simp [isSequence]) hq).1
    | star id q =>
      obtain ⟨here, rest⟩ := only (q := q) (by simp [isSequence]) (by simp [children])
      exact answers_within (scene.inside_meaning q) hi here rest (Nat.lt_succ_self _)
    | option id q =>
      exact answers_orElse (only (by simp [isSequence]) (by simp [children])).1 fun t => ⟨_, rfl⟩
    | peek id q => exact answers_map _ (only (by simp [isSequence]) (by simp [children])).1
    | not id q => exact answers_map _ (only (by simp [isSequence]) (by simp [children])).1
    | capture id q => exact answers_map _ (only (by simp [isSequence]) (by simp [children])).1
    | search id q =>
      obtain ⟨here, rest⟩ := only (q := q) (by simp [isSequence]) (by simp [children])
      exact answers_seek _ (answers_positions here rest hi)
    | capturedSearch id q =>
      obtain ⟨here, rest⟩ := only (q := q) (by simp [isSequence]) (by simp [children])
      exact answers_seek _ (answers_positions here rest hi)
    | backref id how slot =>
      intro t
      simp only [Scene.meaning, denote, Meaning.backref]
      split
      · exact ⟨_, rfl⟩
      · exact answers_ofComparison _ t
      · exact ⟨_, rfl⟩

end Pattern

namespace Store

/-- No rule that the pattern may enter reaches itself from its left end. -/
def Grounded (store : Store) (p : Pattern) : Prop :=
  ∀ r, store.Reachable p r → ¬ Relation.TransGen store.LeftReaches r r

/-- There are only so many rules, so no chain of calls at the left ends goes on forever. -/
theorem Grounded.wellFounded {store : Store} {p : Pattern} (h : store.Grounded p) :
    WellFounded fun x y : { r // store.Reachable p r ∧ r < store.rules.size } =>
      Relation.TransGen store.LeftReaches y.1 x.1 := by
  have finite : Finite { r // store.Reachable p r ∧ r < store.rules.size } :=
    Set.Finite.subset (Set.finite_lt_nat store.rules.size) fun _ hr => hr.2
  have trans : IsTrans { r // store.Reachable p r ∧ r < store.rules.size } fun x y =>
      Relation.TransGen store.LeftReaches y.1 x.1 := ⟨fun _ _ _ hxy hyz => hyz.trans hxy⟩
  have irrefl : Std.Irrefl fun x y : { r // store.Reachable p r ∧ r < store.rules.size } =>
      Relation.TransGen store.LeftReaches y.1 x.1 := ⟨fun x => h x.1 x.2.1⟩
  exact Finite.wellFounded_of_trans_of_irrefl _

end Store

namespace Matching

open Pattern

/-- Every rule that a grounded pattern may enter has an answer: by induction on the room that is
left and, where nothing was consumed, on the chain of calls at the left ends. -/
theorem ends_of_grounded {scene : Scene} {p : Pattern} (h : scene.store.Grounded p) (room : Nat)
    (i : Int) (hi : 0 ≤ i) (hroom : scene.subject.room i = room) (r : Nat)
    (hr : scene.store.Reachable p r) : Ends scene r i := by
  induction room using Nat.strong_induction_on generalizing i r with
  | _ room ihroom =>
    intro q hq
    have hlt := Store.lt_of_body? hq
    obtain ⟨x, rfl⟩ :
        ∃ x : { r // scene.store.Reachable p r ∧ r < scene.store.rules.size }, x.1 = r :=
      ⟨⟨r, hr, hlt⟩, rfl⟩
    induction x using h.wellFounded.induction generalizing q with
    | _ x ihrule =>
      rw [Scene.body_eq_meaning hq]
      refine answers_meaning q i hi (fun r' hr' q' hq' => ?_) fun r' hr' j hj hlt' => ?_
      -- At the same position the chain of calls goes on, and behind it there is less room.
      · have hstep : scene.store.LeftReaches x.1 r' := ⟨q, hq, hr'⟩
        have hreach := hr.body hq hr'.mentions
        have hlt' := Store.lt_of_body? hq'
        exact ihrule ⟨r', hreach, hlt'⟩ (.single hstep) q' hreach hq' hlt'
      · exact ihroom _ (hroom ▸ hlt') j hj rfl r' (hr.body hq hr')

theorem grounded_of_callless {store : Store} {p : Pattern} (h : ∀ r, ¬ p.Mentions r) :
    store.Grounded p := by
  intro r hr
  have none (r : Nat) : ¬ store.Reachable p r := by
    intro hr
    induction hr with
    | mention hm => exact h _ hm
    | body _ _ _ ih => exact ih
  exact absurd hr (none r)

/-- Matching ends where there is no left recursion. If no rule that a pattern may enter reaches
itself through calls before which everything is nullable, then at every position from zero on and
with every table the pattern has an answer, and from some depth on the engine returns. A pattern
without calls is such a pattern. -/
theorem terminates_without_left_recursion (scene : Scene) (p : Pattern) (i : Int) (hi : 0 ≤ i)
    (s : State) :
    ((∀ r, ¬ p.Mentions r) → scene.store.Grounded p) ∧
      (scene.store.Grounded p → (∃ a, scene.meaning p i s.table.slots = some a) ∧
        ∃ depth, ∀ d, depth ≤ d → ¬ (attempt scene d p i s).Endless) := by
  refine ⟨grounded_of_callless, fun grounded => ?_⟩
  have reach (r : Nat) (hr : p.Mentions r) (j : Int) (hj : 0 ≤ j) : Ends scene r j :=
    ends_of_grounded grounded _ j hj rfl r (.mention hr)
  obtain ⟨a, ha⟩ := answers_meaning p i hi (fun r hr => reach r hr.mentions i hi)
    (fun r hr j hj _ => reach r hr j hj) s.table.slots
  obtain ⟨depth, hd⟩ := settles_of_meaning hi ha
  exact ⟨⟨a, ha⟩, depth, fun d hle => hd d hle s rfl⟩

/-- The grammar `S <- A 'b'`, `A <- 'a' S / ''`, in which `S` calls `A` at its left end, but not the
other way round. -/
def balanced : Store where
  fresh := 40
  rules := #[
    { name := ['S'], declared := true, body := some (.sequence 34 [.call 32 1, .char 33 'b']) },
    { name := ['A'], declared := true
      body := some (.choice 38 [.sequence 37 [.char 35 'a', .call 36 0], .empty]) }]

theorem leftReaches_balanced {r r' : Nat} (h : balanced.LeftReaches r r') : r = 0 ∧ r' = 1 := by
  obtain ⟨body, hbody, h⟩ := h
  have hlt := Store.lt_of_body? hbody
  have hr : r = 0 ∨ r = 1 := by
    have : balanced.rules.size = 2 := rfl
    omega
  rcases hr with rfl | rfl
  · cases hbody
    refine ⟨rfl, ?_⟩
    rcases mentionsLeft_cons h with h | ⟨-, h⟩
    · have := h.leaf rfl
      simpa [entered?] using this.symm
    · rcases mentionsLeft_cons h with h | ⟨-, h⟩
      · have := h.leaf rfl
        simp [entered?] at this
      · have := h.leaf rfl
        simp [entered?] at this
  · cases hbody
    cases h with
    | here h => simp [entered?] at h
    | child _ hq h =>
      simp only [children, List.mem_cons, List.not_mem_nil, or_false] at hq
      rcases hq with rfl | rfl
      · rcases mentionsLeft_cons h with h | ⟨hn, -⟩
        · have := h.leaf rfl
          simp [entered?] at this
        · cases hn with
          | repetition h => simp [isRepeat] at h
          | enters h => simp [entered?] at h
      · have := h.leaf rfl
        simp [entered?] at this

theorem balanced_terminates :
    let scene : Scene := { subject := #['a', 'a', 'b', 'b'], store := balanced, origin := 0 }
    (0 : Int) ≤ 0 ∧ balanced.Grounded (.grammar 39 (40, 0) [(41, 1)]) ∧
      ∃ depth, ∀ d, depth ≤ d →
        ¬ (attempt scene d (.grammar 39 (40, 0) [(41, 1)]) 0
          { table := .ofCapacity 0 }).Endless := by
  intro scene
  have reaches {r r' : Nat} (h : Relation.TransGen balanced.LeftReaches r r') : r = 0 ∧ r' = 1 := by
    induction h with
    | single h => exact leftReaches_balanced h
    | tail _ h ih => exact ⟨ih.1, (leftReaches_balanced h).2⟩
  have grounded : balanced.Grounded (.grammar 39 (40, 0) [(41, 1)]) := by
    intro r _ h
    have := reaches h
    omega
  exact ⟨by decide, grounded, ((terminates_without_left_recursion scene
    (.grammar 39 (40, 0) [(41, 1)]) 0 (by decide) { table := .ofCapacity 0 }).2 grounded).2⟩

end Matching

end PegMatch

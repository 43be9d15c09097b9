import PegMatch.Matching.Engine

set_option autoImplicit false

/-! What a pattern means, without a journal. The table of captures is a value that is handed on: a
miss hands on none, so that whoever tries something else still has the table from before. A meaning
gives no answer where calls lead into each other without end. -/

namespace PegMatch

/-- A capture table without its journal. -/
structure Slots where
  capacity : Int
  spans : Array (Option Span)
  deriving DecidableEq

namespace Slots

def set (t : Slots) (slot : Nat) (span : Span) : Except Fault Slots :=
  if (slot : Int) < t.capacity then
    .ok { t with spans := t.spans.setIfInBounds slot (some span) }
  else .error (.slotOutside slot)

/-- The text in a slot, and `none` if the slot is unset. -/
def text (t : Slots) (subject : Subject) (slot : Nat) : Except Fault (Option Text) :=
  match t.spans[slot]? with
  | some span => .ok (span.map fun s => subject.slice s.start s.stop)
  | none => .error (.ofSlot slot)

end Slots

inductive Answer where
  | miss
  | hit (length : Nat) (slots : Slots)
  | fault (f : Fault)
  deriving DecidableEq

/-- The answer of what began after `n` code points were matched. -/
def Answer.after (n : Nat) : Answer → Answer
  | .hit k t => .hit (n + k) t
  | a => a

@[simp] theorem Answer.after_miss (n : Nat) : Answer.miss.after n = .miss := rfl

@[simp] theorem Answer.after_hit (n k : Nat) (t : Slots) :
    (Answer.hit k t).after n = .hit (n + k) t := rfl

@[simp] theorem Answer.after_fault (n : Nat) (f : Fault) : (Answer.fault f).after n = .fault f :=
  rfl

@[simp] theorem Answer.after_zero (a : Answer) : a.after 0 = a := by
  cases a <;> simp

@[simp] theorem Answer.map_after_zero (o : Option Answer) : o.map (Answer.after 0) = o := by
  cases o <;> simp

theorem Answer.after_after (n k : Nat) (a : Answer) : (a.after k).after n = a.after (n + k) := by
  cases a <;> simp [Nat.add_assoc]

abbrev Meaning := Int → Slots → Option Answer

namespace Meaning

def nothing : Meaning := fun _ t => some (.hit 0 t)

def never : Meaning := fun _ _ => some .miss

def wrong (f : Fault) : Meaning := fun _ _ => some (.fault f)

def ofComparison (x : Int → Except Fault (Option Nat)) : Meaning := fun i t =>
  match x i with
  | .ok (some n) => some (.hit n t)
  | .ok none => some .miss
  | .error f => some (.fault f)

def andThen (m k : Meaning) : Meaning := fun i t =>
  match m i t with
  | some (.hit n t) => (k (i + n) t).map (Answer.after n)
  | r => r

/-- Both start from the same table. -/
def orElse (m k : Meaning) : Meaning := fun i t =>
  match m i t with
  | some .miss => k i t
  | r => r

def inOrder (ms : List Meaning) : Meaning := ms.foldr andThen nothing

def firstOf (ms : List Meaning) : Meaning := ms.foldr orElse never

def peek (m : Meaning) : Meaning := fun i t =>
  (m i t).map fun
    | .hit _ t => .hit 0 t
    | a => a

def not (m : Meaning) : Meaning := fun i t =>
  (m i t).map fun
    | .hit _ _ => .miss
    | .miss => .hit 0 t
    | a => a

/-- As often as something is consumed. There is no answer if that is so `times` times. -/
def within (m : Meaning) : Nat → Meaning
  | 0, _, _ => none
  | times + 1, i, t =>
    match m i t with
    | some (.hit 0 t) => some (.hit 0 t)
    | some (.hit (n + 1) t) => (within m times (i + (n + 1 : Nat)) t).map (Answer.after (n + 1))
    | some .miss => some (.hit 0 t)
    | r => r

def many (subject : Subject) (m : Meaning) : Meaning := fun i t =>
  within m (subject.room i + 1) i t

/-- The first of `count` positions with a match; all of them start from the same table. -/
def seek (m : Meaning) (found : Nat → Nat → Slots → Answer) (i : Int) (t : Slots) :
    Nat → Nat → Option Answer
  | 0, _ => some .miss
  | count + 1, skipped =>
    match m (i + skipped) t with
    | some (.hit n t) => some (found skipped n t)
    | some .miss => seek m found i t count (skipped + 1)
    | r => r

def search (subject : Subject) (m : Meaning) : Meaning := fun i t =>
  seek m (fun skipped n t => .hit (skipped + n) t) i t (Matching.positions subject i) 0

def fill (slot : Option Nat) (span : Span) (length : Nat) (t : Slots) : Answer :=
  match slot with
  | none => .fault .unnumbered
  | some slot =>
    match t.set slot span with
    | .ok t => .hit length t
    | .error f => .fault f

def capture (slot : Option Nat) (m : Meaning) : Meaning := fun i t =>
  (m i t).map fun
    | .hit n t => fill slot ⟨i, n⟩ n t
    | a => a

def capturedSearch (subject : Subject) (slot : Option Nat) (m : Meaning) : Meaning := fun i t =>
  seek m (fun skipped n t => fill slot ⟨i, skipped⟩ (skipped + n) t) i t
    (Matching.positions subject i) 0

def backref (subject : Subject) (how : Comparison) (slot : Nat) : Meaning := fun i t =>
  match t.text subject slot with
  | .ok none => some .miss
  | .ok (some text) => ofComparison (fun i => subject.compare how i text) i t
  | .error f => some (.fault f)

end Meaning

/-- What the nodes of a pattern refer to: the subject, the slots of captures, and what rules mean
where they are called and where they stand. -/
structure Env where
  subject : Subject
  origin : Int
  slot : Nat → Option Nat
  call : Nat → Meaning
  rule : Nat → Meaning

namespace Pattern

mutual

def denote (env : Env) : Pattern → Meaning
  | .empty => .nothing
  | .any | .anyRune => fun i t => some (if i < env.subject.size then .hit 1 t else .miss)
  | .newline => .ofComparison env.subject.lineBreak
  | .startAnchor => fun i t => some (if i = env.origin then .hit 0 t else .miss)
  | .category c => .ofComparison (env.subject.one c.has)
  | .literal _ how t => .ofComparison fun i => env.subject.compare how i t
  | .valued _ .ignoreStyle v => .wrong (.misuse (.notIterable v.sort))
  | .valued _ _ v => .wrong (.misuse (.unsized v.sort))
  | .char _ c => .ofComparison (env.subject.one (· == c))
  | .set _ members sense =>
    .ofComparison (env.subject.one fun c => sense.admits (members.contains c))
  | .call _ r => env.call r
  | .rule _ r => env.rule r
  | .grammar _ start _ => env.call start.2
  | .sequence _ items => .inOrder (denoteEach env items)
  | .choice _ items => .firstOf (denoteEach env items)
  | .star _ body => .many env.subject (denote env body)
  | .starChar _ c => .ofComparison fun i => (env.subject.runLength (· == c) i).map some
  | .starSet _ members sense => .ofComparison fun i =>
    (env.subject.runLength (fun c => sense.admits (members.contains c)) i).map some
  | .starAny => fun i t => some (.hit (env.subject.room i) t)
  | .option _ body => .orElse (denote env body) .nothing
  | .peek _ body => .peek (denote env body)
  | .not _ body => .not (denote env body)
  | .search _ body => .search env.subject (denote env body)
  | .capture id body => .capture (env.slot id) (denote env body)
  | .capturedSearch id body => .capturedSearch env.subject (env.slot id) (denote env body)
  | .backref _ how slot => .backref env.subject how slot

def denoteEach (env : Env) : List Pattern → List Meaning
  | [] => []
  | p :: ps => denote env p :: denoteEach env ps

end

theorem denoteEach_eq_map (env : Env) (ps : List Pattern) :
    denoteEach env ps = ps.map (denote env) := by
  induction ps with
  | nil => rfl
  | cons p ps ih => simp [denoteEach, ih]

end Pattern

namespace Pattern

def children : Pattern → List Pattern
  | .sequence _ items | .choice _ items => items
  | .star _ p | .option _ p | .peek _ p | .not _ p | .search _ p | .capture _ p
  | .capturedSearch _ p => [p]
  | _ => []

theorem sizeOf_lt_of_mem_children {p q : Pattern} (h : q ∈ p.children) : sizeOf q < sizeOf p := by
  cases p <;> simp only [children, List.mem_singleton, List.not_mem_nil] at h
  case sequence i items => have := List.sizeOf_lt_of_mem h; simp only [sequence.sizeOf_spec]; omega
  case choice i items => have := List.sizeOf_lt_of_mem h; simp only [choice.sizeOf_spec]; omega
  all_goals
    subst h
    simp only [star.sizeOf_spec, option.sizeOf_spec, peek.sizeOf_spec, not.sizeOf_spec,
      search.sizeOf_spec, capture.sizeOf_spec, capturedSearch.sizeOf_spec]
    omega

@[elab_as_elim]
theorem induction_children {P : Pattern → Prop} (p : Pattern)
    (node : ∀ p, (∀ q ∈ p.children, P q) → P p) : P p :=
  node p fun q hq =>
    have := sizeOf_lt_of_mem_children hq
    induction_children q node
termination_by sizeOf p

end Pattern

namespace Meaning

/-- Every answer of the first is one of the second. -/
def Below (m k : Meaning) : Prop :=
  ∀ i t a, m i t = some a → k i t = some a

theorem Below.refl (m : Meaning) : Below m m :=
  fun _ _ _ h => h

theorem Below.trans {m k l : Meaning} (h : Below m k) (h' : Below k l) : Below m l :=
  fun i t a ha => h' i t a (h i t a ha)

theorem Below.antisymm {m k : Meaning} (h : Below m k) (h' : Below k m) : m = k := by
  funext i t
  cases hm : m i t with
  | some a => exact (h i t a hm).symm
  | none =>
    cases hk : k i t with
    | some a => exact hm.symm.trans (h' i t a hk)
    | none => rfl

theorem andThen_below {m m' k k' : Meaning} (hm : Below m m') (hk : Below k k') :
    Below (andThen m k) (andThen m' k') := by
  intro i t a h
  simp only [andThen] at h ⊢
  cases hr : m i t with
  | none => simp [hr] at h
  | some b =>
    rw [hm i t b hr]
    rw [hr] at h
    cases b with
    | miss => exact h
    | fault f => exact h
    | hit n u =>
      obtain ⟨c, hc, rfl⟩ := Option.map_eq_some_iff.1 h
      simp [hk _ _ _ hc]

theorem orElse_below {m m' k k' : Meaning} (hm : Below m m') (hk : Below k k') :
    Below (orElse m k) (orElse m' k') := by
  intro i t a h
  simp only [orElse] at h ⊢
  cases hr : m i t with
  | none => simp [hr] at h
  | some b =>
    rw [hm i t b hr]
    rw [hr] at h
    cases b with
    | miss => exact hk i t a h
    | fault f => exact h
    | hit n u => exact h

theorem inOrder_below {α : Type} {f g : α → Meaning} {as : List α}
    (h : ∀ a ∈ as, Below (f a) (g a)) : Below (inOrder (as.map f)) (inOrder (as.map g)) := by
  induction as with
  | nil => exact Below.refl _
  | cons a as ih => exact andThen_below (h a (by simp)) (ih fun b hb => h b (by simp [hb]))

theorem firstOf_below {α : Type} {f g : α → Meaning} {as : List α}
    (h : ∀ a ∈ as, Below (f a) (g a)) : Below (firstOf (as.map f)) (firstOf (as.map g)) := by
  induction as with
  | nil => exact Below.refl _
  | cons a as ih => exact orElse_below (h a (by simp)) (ih fun b hb => h b (by simp [hb]))

theorem map_below {m m' : Meaning} (F : Int → Slots → Answer → Answer) (hm : Below m m') :
    Below (fun i t => (m i t).map (F i t)) (fun i t => (m' i t).map (F i t)) := by
  intro i t a h
  obtain ⟨b, hb, rfl⟩ := Option.map_eq_some_iff.1 h
  simp [hm i t b hb]

theorem peek_below {m m' : Meaning} (hm : Below m m') : Below (peek m) (peek m') :=
  map_below _ hm

theorem not_below {m m' : Meaning} (hm : Below m m') : Below (not m) (not m') :=
  map_below _ hm

theorem capture_below {m m' : Meaning} (slot : Option Nat) (hm : Below m m') :
    Below (capture slot m) (capture slot m') :=
  map_below _ hm

theorem within_below {m m' : Meaning} (hm : Below m m') (times : Nat) :
    Below (within m times) (within m' times) := by
  induction times with
  | zero => exact Below.refl _
  | succ times ih =>
    intro i t a h
    simp only [within] at h ⊢
    cases hr : m i t with
    | none => simp [hr] at h
    | some b =>
      rw [hm i t b hr]
      rw [hr] at h
      cases b with
      | miss => exact h
      | fault f => exact h
      | hit n u =>
        cases n with
        | zero => exact h
        | succ n =>
          obtain ⟨c, hc, rfl⟩ := Option.map_eq_some_iff.1 h
          exact Option.map_eq_some_iff.2 ⟨c, ih _ _ _ hc, rfl⟩

theorem many_below {m m' : Meaning} (subject : Subject) (hm : Below m m') :
    Below (many subject m) (many subject m') :=
  fun i t a h => within_below hm _ i t a h

theorem seek_below {m m' : Meaning} {found : Nat → Nat → Slots → Answer} {i : Int} {t : Slots}
    {a : Answer} (hm : Below m m') {count skipped : Nat}
    (h : seek m found i t count skipped = some a) : seek m' found i t count skipped = some a := by
  induction count generalizing skipped with
  | zero => exact h
  | succ count ih =>
    simp only [seek] at h ⊢
    cases hr : m (i + skipped) t with
    | none => simp [hr] at h
    | some b =>
      rw [hm _ t b hr]
      rw [hr] at h
      cases b with
      | miss => exact ih h
      | fault f => exact h
      | hit n u => exact h

end Meaning

namespace Meaning

/-- Every answer of the meaning is one of the sequence from some place on. -/
def Reaches (ms : Nat → Meaning) (m : Meaning) : Prop :=
  ∀ i t a, m i t = some a → ∃ k, ∀ l, k ≤ l → ms l i t = some a

theorem reaches_same (m : Meaning) : Reaches (fun _ => m) m :=
  fun _ _ _ h => ⟨0, fun _ _ => h⟩

theorem reaches_andThen {ms ks : Nat → Meaning} {m k : Meaning} (hm : Reaches ms m)
    (hk : Reaches ks k) : Reaches (fun l => andThen (ms l) (ks l)) (andThen m k) := by
  intro i t a h
  simp only [andThen] at h ⊢
  cases hr : m i t with
  | none => simp [hr] at h
  | some b =>
    obtain ⟨n, hn⟩ := hm i t b hr
    rw [hr] at h
    cases b with
    | miss => exact ⟨n, fun l hl => by rw [hn l hl]; exact h⟩
    | fault f => exact ⟨n, fun l hl => by rw [hn l hl]; exact h⟩
    | hit length u =>
      obtain ⟨c, hc, rfl⟩ := Option.map_eq_some_iff.1 h
      obtain ⟨n', hn'⟩ := hk _ _ _ hc
      refine ⟨max n n', fun l hl => ?_⟩
      rw [hn l (by omega)]
      simp [hn' l (by omega)]

theorem reaches_orElse {ms ks : Nat → Meaning} {m k : Meaning} (hm : Reaches ms m)
    (hk : Reaches ks k) : Reaches (fun l => orElse (ms l) (ks l)) (orElse m k) := by
  intro i t a h
  simp only [orElse] at h ⊢
  cases hr : m i t with
  | none => simp [hr] at h
  | some b =>
    obtain ⟨n, hn⟩ := hm i t b hr
    rw [hr] at h
    cases b with
    | miss =>
      obtain ⟨n', hn'⟩ := hk i t a h
      refine ⟨max n n', fun l hl => ?_⟩
      rw [hn l (by omega)]
      exact hn' l (by omega)
    | fault f => exact ⟨n, fun l hl => by rw [hn l hl]; exact h⟩
    | hit length u => exact ⟨n, fun l hl => by rw [hn l hl]; exact h⟩

theorem reaches_inOrder {α : Type} {fs : Nat → α → Meaning} {f : α → Meaning} {as : List α}
    (h : ∀ a ∈ as, Reaches (fun l => fs l a) (f a)) :
    Reaches (fun l => inOrder (as.map (fs l))) (inOrder (as.map f)) := by
  induction as with
  | nil => exact reaches_same _
  | cons a as ih => exact reaches_andThen (h a (by simp)) (ih fun b hb => h b (by simp [hb]))

theorem reaches_firstOf {α : Type} {fs : Nat → α → Meaning} {f : α → Meaning} {as : List α}
    (h : ∀ a ∈ as, Reaches (fun l => fs l a) (f a)) :
    Reaches (fun l => firstOf (as.map (fs l))) (firstOf (as.map f)) := by
  induction as with
  | nil => exact reaches_same _
  | cons a as ih => exact reaches_orElse (h a (by simp)) (ih fun b hb => h b (by simp [hb]))

theorem reaches_map {ms : Nat → Meaning} {m : Meaning} (F : Int → Slots → Answer → Answer)
    (hm : Reaches ms m) :
    Reaches (fun l i t => (ms l i t).map (F i t)) (fun i t => (m i t).map (F i t)) := by
  intro i t a h
  obtain ⟨b, hb, rfl⟩ := Option.map_eq_some_iff.1 h
  obtain ⟨n, hn⟩ := hm i t b hb
  exact ⟨n, fun l hl => by simp [hn l hl]⟩

theorem reaches_within {ms : Nat → Meaning} {m : Meaning} (hm : Reaches ms m) (times : Nat) :
    Reaches (fun l => within (ms l) times) (within m times) := by
  induction times with
  | zero => exact reaches_same _
  | succ times ih =>
    intro i t a h
    simp only [within] at h ⊢
    cases hr : m i t with
    | none => simp [hr] at h
    | some b =>
      obtain ⟨k, hk⟩ := hm i t b hr
      rw [hr] at h
      cases b with
      | miss => exact ⟨k, fun l hl => by rw [hk l hl]; exact h⟩
      | fault f => exact ⟨k, fun l hl => by rw [hk l hl]; exact h⟩
      | hit n u =>
        cases n with
        | zero => exact ⟨k, fun l hl => by rw [hk l hl]; exact h⟩
        | succ n =>
          obtain ⟨c, hc, rfl⟩ := Option.map_eq_some_iff.1 h
          obtain ⟨k', hk'⟩ := ih _ _ _ hc
          refine ⟨max k k', fun l hl => ?_⟩
          rw [hk l (by omega)]
          exact Option.map_eq_some_iff.2 ⟨c, hk' l (by omega), rfl⟩

theorem reaches_many {ms : Nat → Meaning} {m : Meaning} (subject : Subject) (hm : Reaches ms m) :
    Reaches (fun l => many subject (ms l)) (many subject m) :=
  fun i t a h => reaches_within hm _ i t a h

theorem reaches_seek {ms : Nat → Meaning} {m : Meaning} {found : Nat → Nat → Slots → Answer}
    {i : Int} {t : Slots} {a : Answer} (hm : Reaches ms m) {count skipped : Nat}
    (h : seek m found i t count skipped = some a) :
    ∃ k, ∀ l, k ≤ l → seek (ms l) found i t count skipped = some a := by
  induction count generalizing skipped with
  | zero => exact ⟨0, fun _ _ => h⟩
  | succ count ih =>
    simp only [seek] at h ⊢
    cases hr : m (i + skipped) t with
    | none => simp [hr] at h
    | some b =>
      obtain ⟨k, hk⟩ := hm _ t b hr
      rw [hr] at h
      cases b with
      | miss =>
        obtain ⟨k', hk'⟩ := ih h
        refine ⟨max k k', fun l hl => ?_⟩
        rw [hk l (by omega)]
        exact hk' l (by omega)
      | fault f => exact ⟨k, fun l hl => by rw [hk l hl]; exact h⟩
      | hit n u => exact ⟨k, fun l hl => by rw [hk l hl]; exact h⟩

end Meaning

structure Env.Below (e f : Env) : Prop where
  subject : e.subject = f.subject
  origin : e.origin = f.origin
  slot : e.slot = f.slot
  call : ∀ r, Meaning.Below (e.call r) (f.call r)
  rule : ∀ r, Meaning.Below (e.rule r) (f.rule r)

namespace Pattern

theorem denote_below {e f : Env} (h : e.Below f) (p : Pattern) :
    Meaning.Below (p.denote e) (p.denote f) := by
  obtain ⟨es, eo, el, ec, er⟩ := e
  obtain ⟨fs, fo, fl, fc, fr⟩ := f
  obtain ⟨rfl, rfl, rfl, hc, hr⟩ := h
  induction p using induction_children with
  | node p ih =>
    cases p with
    | call i r => exact hc r
    | rule i r => exact hr r
    | grammar i start others => exact hc start.2
    | sequence i items =>
      simp only [denote, denoteEach_eq_map]
      exact Meaning.inOrder_below ih
    | choice i items =>
      simp only [denote, denoteEach_eq_map]
      exact Meaning.firstOf_below ih
    | star i p => exact Meaning.many_below _ (ih p (by simp [children]))
    | option i p => exact Meaning.orElse_below (ih p (by simp [children])) (.refl _)
    | peek i p => exact Meaning.peek_below (ih p (by simp [children]))
    | not i p => exact Meaning.not_below (ih p (by simp [children]))
    | capture i p => exact Meaning.capture_below _ (ih p (by simp [children]))
    | search i p => exact fun i t a h => Meaning.seek_below (ih p (by simp [children])) h
    | capturedSearch i p => exact fun i t a h => Meaning.seek_below (ih p (by simp [children])) h
    | valued i how v => cases how <;> exact Meaning.Below.refl _
    | _ => exact Meaning.Below.refl _

theorem reaches_denote {e : Env} {calls rules : Nat → Nat → Meaning}
    (hc : ∀ r, Meaning.Reaches (fun l => calls l r) (e.call r))
    (hr : ∀ r, Meaning.Reaches (fun l => rules l r) (e.rule r)) (p : Pattern) :
    Meaning.Reaches (fun l => p.denote { e with call := calls l, rule := rules l })
      (p.denote e) := by
  induction p using induction_children with
  | node p ih =>
    cases p with
    | call i r => exact hc r
    | rule i r => exact hr r
    | grammar i start others => exact hc start.2
    | sequence i items =>
      simp only [denote, denoteEach_eq_map]
      exact Meaning.reaches_inOrder ih
    | choice i items =>
      simp only [denote, denoteEach_eq_map]
      exact Meaning.reaches_firstOf ih
    | star i p => exact Meaning.reaches_many _ (ih p (by simp [children]))
    | option i p =>
      exact Meaning.reaches_orElse (ih p (by simp [children])) (Meaning.reaches_same _)
    | peek i p => exact Meaning.reaches_map _ (ih p (by simp [children]))
    | not i p => exact Meaning.reaches_map _ (ih p (by simp [children]))
    | capture i p => exact Meaning.reaches_map _ (ih p (by simp [children]))
    | search i p => exact fun i t a h => Meaning.reaches_seek (ih p (by simp [children])) h
    | capturedSearch i p => exact fun i t a h => Meaning.reaches_seek (ih p (by simp [children])) h
    | valued i how v => cases how <;> exact Meaning.reaches_same _
    | _ => exact Meaning.reaches_same _

end Pattern

namespace Matching.Scene

def env (scene : Scene) (body : Nat → Meaning) : Env where
  subject := scene.subject
  origin := scene.origin
  slot := scene.store.slot?
  call r :=
    match scene.store.body? r with
    | .ok (some _) => body r
    | .ok none => .wrong (.undefinedRule (scene.store.rule r).name)
    | .error f => .wrong f
  rule r :=
    match scene.store.body? r with
    | .ok (some _) => body r
    | .ok none => .wrong .bodiless
    | .error f => .wrong f

theorem env_below (scene : Scene) {f g : Nat → Meaning} (h : ∀ r, Meaning.Below (f r) (g r)) :
    (scene.env f).Below (scene.env g) where
  subject := rfl
  origin := rfl
  slot := rfl
  call r := by
    simp only [env]
    split
    · exact h r
    · exact .refl _
    · exact .refl _
  rule r := by
    simp only [env]
    split
    · exact h r
    · exact .refl _
    · exact .refl _

theorem reaches_env (scene : Scene) {fs : Nat → Nat → Meaning} {f : Nat → Meaning}
    (h : ∀ r, Meaning.Reaches (fun l => fs l r) (f r)) :
    (∀ r, Meaning.Reaches (fun l => (scene.env (fs l)).call r) ((scene.env f).call r)) ∧
      ∀ r, Meaning.Reaches (fun l => (scene.env (fs l)).rule r) ((scene.env f).rule r) := by
  refine ⟨fun r => ?_, fun r => ?_⟩
  · simp only [env]
    split
    · exact h r
    · exact Meaning.reaches_same _
    · exact Meaning.reaches_same _
  · simp only [env]
    split
    · exact h r
    · exact Meaning.reaches_same _
    · exact Meaning.reaches_same _

/-- What the body of a rule means where calls lead into each other less than `depth` times. -/
def bodyWithin (scene : Scene) : Nat → Nat → Meaning
  | 0, _ => fun _ _ => none
  | depth + 1, r =>
    match scene.store.body? r with
    | .ok (some p) => p.denote (scene.env (scene.bodyWithin depth))
    | _ => fun _ _ => none

theorem bodyWithin_below (scene : Scene) (depth r : Nat) :
    Meaning.Below (scene.bodyWithin depth r) (scene.bodyWithin (depth + 1) r) := by
  induction depth generalizing r with
  | zero =>
    intro i t a h
    cases h
  | succ depth ih =>
    rw [bodyWithin, bodyWithin]
    split
    · next p _ => exact p.denote_below (scene.env_below ih)
    · exact .refl _

theorem bodyWithin_mono (scene : Scene) {depth depth' : Nat} (h : depth ≤ depth') (r : Nat) :
    Meaning.Below (scene.bodyWithin depth r) (scene.bodyWithin depth' r) := by
  induction h with
  | refl => exact .refl _
  | step _ ih => exact ih.trans (scene.bodyWithin_below _ r)

open Classical in
/-- What the body of a rule means: the answer that it gives at some depth. -/
noncomputable def body (scene : Scene) (r : Nat) : Meaning := fun i t =>
  if h : ∃ a depth, scene.bodyWithin depth r i t = some a then some h.choose else none

theorem body_eq_some {scene : Scene} {r : Nat} {i : Int} {t : Slots} {a : Answer} :
    scene.body r i t = some a ↔ ∃ depth, scene.bodyWithin depth r i t = some a := by
  have unique {depth depth' : Nat} {a b : Answer} (ha : scene.bodyWithin depth r i t = some a)
      (hb : scene.bodyWithin depth' r i t = some b) : a = b := by
    have ha := scene.bodyWithin_mono (Nat.le_max_left depth depth') r i t a ha
    have hb := scene.bodyWithin_mono (Nat.le_max_right depth depth') r i t b hb
    exact Option.some.inj (ha.symm.trans hb)
  simp only [body]
  constructor
  · intro h
    split at h
    · next hex =>
      cases h
      exact hex.choose_spec
    · cases h
  · rintro ⟨depth, hd⟩
    have hex : ∃ a depth, scene.bodyWithin depth r i t = some a := ⟨a, depth, hd⟩
    obtain ⟨depth', hd'⟩ := hex.choose_spec
    rw [dif_pos hex, unique hd' hd]

theorem reaches_body (scene : Scene) (r : Nat) :
    Meaning.Reaches (fun depth => scene.bodyWithin depth r) (scene.body r) := by
  intro i t a h
  obtain ⟨depth, hd⟩ := body_eq_some.1 h
  exact ⟨depth, fun d hle => scene.bodyWithin_mono hle r i t a hd⟩

/-- What holds of every answer of a rule if it does for what the rules that it calls answer. -/
theorem body_induction (scene : Scene) (P : Nat → Int → Slots → Answer → Prop)
    (step : ∀ f : Nat → Meaning, (∀ r i t a, f r i t = some a → P r i t a) → ∀ r p i t a,
      scene.store.body? r = .ok (some p) → p.denote (scene.env f) i t = some a → P r i t a)
    {r : Nat} {i : Int} {t : Slots} {a : Answer} (h : scene.body r i t = some a) : P r i t a := by
  obtain ⟨depth, hd⟩ := body_eq_some.1 h
  induction depth generalizing r i t a with
  | zero => cases hd
  | succ depth ih =>
    cases hb : scene.store.body? r with
    | error f => simp [bodyWithin, hb] at hd
    | ok o =>
      cases o with
      | none => simp [bodyWithin, hb] at hd
      | some p =>
        rw [bodyWithin, hb] at hd
        exact step _ (fun r i t a h => ih (body_eq_some.2 ⟨depth, h⟩) h) r p i t a hb hd

/-- What a pattern means in a scene. -/
noncomputable def meaning (scene : Scene) (p : Pattern) : Meaning :=
  p.denote (scene.env scene.body)

theorem body_eq_meaning {scene : Scene} {r : Nat} {p : Pattern}
    (h : scene.store.body? r = .ok (some p)) : scene.body r = scene.meaning p := by
  refine Meaning.Below.antisymm (fun i t a ha => ?_) fun i t a ha => ?_
  · obtain ⟨depth, hd⟩ := body_eq_some.1 ha
    cases depth with
    | zero => cases hd
    | succ depth =>
      rw [bodyWithin, h] at hd
      refine p.denote_below (scene.env_below fun r i t a h => ?_) i t a hd
      exact body_eq_some.2 ⟨depth, h⟩
  · obtain ⟨hc, hr⟩ := scene.reaches_env scene.reaches_body
    obtain ⟨depth, hd⟩ := p.reaches_denote hc hr i t a ha
    refine body_eq_some.2 ⟨depth + 1, ?_⟩
    rw [bodyWithin, h]
    exact hd depth (Nat.le_refl _)

end Matching.Scene

end PegMatch

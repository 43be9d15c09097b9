import PegMatch.Proofs.Compiled
import PegMatch.Proofs.Journal

set_option autoImplicit false

namespace PegMatch

/-- The table has at least so many slots. -/
structure Slots.Holds (t : Slots) (count : Nat) : Prop where
  capacity : (count : Int) ≤ t.capacity
  spans : count ≤ t.spans.size

def Slots.Serves (t : Slots) (count : Nat) : Prop :=
  ∀ slot < count, (slot : Int) < t.capacity ∧ slot < t.spans.size

theorem Slots.Holds.serves {t : Slots} {count : Nat} (h : t.Holds count) : t.Serves count := by
  intro slot hslot
  have hcapacity := h.capacity
  have hspans := h.spans
  omega

def Answer.Fine (count : Nat) : Answer → Prop
  | .miss => True
  | .hit _ t => t.Serves count
  | .fault _ => False

theorem Answer.Fine.after {count n : Nat} {a : Answer} (h : a.Fine count) :
    (a.after n).Fine count := by
  cases a <;> exact h

namespace Meaning

def Safe (count : Nat) (m : Meaning) : Prop :=
  ∀ i t a, 0 ≤ i → t.Serves count → m i t = some a → a.Fine count

variable {count : Nat} {m k : Meaning}

theorem safe_nothing : Safe count nothing := by
  intro i t a _ ht h
  cases h
  exact ht

theorem safe_never : Safe count never := by
  intro i t a _ ht h
  cases h
  trivial

theorem safe_ofComparison {x : Int → Except Fault (Option Nat)}
    (hx : ∀ i, 0 ≤ i → ∃ o, x i = .ok o) : Safe count (ofComparison x) := by
  intro i t a hi ht h
  obtain ⟨o, ho⟩ := hx i hi
  simp only [ofComparison, ho] at h
  cases o with
  | none => cases h; trivial
  | some n => cases h; exact ht

theorem safe_andThen (hm : Safe count m) (hk : Safe count k) : Safe count (andThen m k) := by
  intro i t a hi ht h
  simp only [andThen] at h
  cases hr : m i t with
  | none => simp [hr] at h
  | some b =>
    have hb := hm i t b hi ht hr
    rw [hr] at h
    cases b with
    | miss => cases h; trivial
    | fault f => exact hb.elim
    | hit n u =>
      obtain ⟨c, hc, rfl⟩ := Option.map_eq_some_iff.1 h
      exact (hk (i + n) u c (by omega) hb hc).after

theorem safe_orElse (hm : Safe count m) (hk : Safe count k) : Safe count (orElse m k) := by
  intro i t a hi ht h
  simp only [orElse] at h
  cases hr : m i t with
  | none => simp [hr] at h
  | some b =>
    have hb := hm i t b hi ht hr
    rw [hr] at h
    cases b with
    | miss => exact hk i t a hi ht h
    | fault f => exact hb.elim
    | hit n u => cases h; exact hb

theorem safe_inOrder {ms : List Meaning} (h : ∀ m ∈ ms, Safe count m) :
    Safe count (inOrder ms) := by
  induction ms with
  | nil => exact safe_nothing
  | cons m ms ih => exact safe_andThen (h m (by simp)) (ih fun k hk => h k (by simp [hk]))

theorem safe_firstOf {ms : List Meaning} (h : ∀ m ∈ ms, Safe count m) :
    Safe count (firstOf ms) := by
  induction ms with
  | nil => exact safe_never
  | cons m ms ih => exact safe_orElse (h m (by simp)) (ih fun k hk => h k (by simp [hk]))

theorem safe_peek (hm : Safe count m) : Safe count (peek m) := by
  intro i t a hi ht h
  obtain ⟨b, hb, rfl⟩ := Option.map_eq_some_iff.1 h
  have := hm i t b hi ht hb
  cases b <;> exact this

theorem safe_not (hm : Safe count m) : Safe count (not m) := by
  intro i t a hi ht h
  obtain ⟨b, hb, rfl⟩ := Option.map_eq_some_iff.1 h
  have := hm i t b hi ht hb
  cases b with
  | miss => exact ht
  | hit n u => trivial
  | fault f => exact this

theorem safe_within (hm : Safe count m) (times : Nat) : Safe count (within m times) := by
  induction times with
  | zero => intro i t a _ _ h; cases h
  | succ times ih =>
    intro i t a hi ht h
    simp only [within] at h
    cases hr : m i t with
    | none => simp [hr] at h
    | some b =>
      have hb := hm i t b hi ht hr
      rw [hr] at h
      cases b with
      | miss => cases h; exact ht
      | fault f => exact hb.elim
      | hit n u =>
        cases n with
        | zero => cases h; exact hb
        | succ n =>
          obtain ⟨c, hc, rfl⟩ := Option.map_eq_some_iff.1 h
          exact (ih _ u c (by omega) hb hc).after

theorem safe_many (subject : Subject) (hm : Safe count m) : Safe count (many subject m) :=
  fun i t a hi ht h => safe_within hm _ i t a hi ht h

theorem fine_seek {found : Nat → Nat → Slots → Answer} (hm : Safe count m)
    (hf : ∀ skipped n u, u.Serves count → (found skipped n u).Fine count) {i : Int} {t : Slots}
    {a : Answer} (hi : 0 ≤ i) (ht : t.Serves count) {room skipped : Nat}
    (h : seek m found i t room skipped = some a) : a.Fine count := by
  induction room generalizing skipped with
  | zero => cases h; trivial
  | succ room ih =>
    simp only [seek] at h
    cases hr : m (i + skipped) t with
    | none => simp [hr] at h
    | some b =>
      have hb := hm _ t b (by omega) ht hr
      rw [hr] at h
      cases b with
      | miss => exact ih h
      | fault f => exact hb.elim
      | hit n u => cases h; exact hf skipped n u hb

theorem safe_search (subject : Subject) (hm : Safe count m) : Safe count (search subject m) := by
  intro i t a hi ht h
  refine fine_seek hm (fun skipped n u hu => ?_) hi ht h
  exact hu

theorem fine_fill {slot : Nat} (hs : slot < count) (span : Span) (length : Nat) {t : Slots}
    (ht : t.Serves count) : (fill (some slot) span length t).Fine count := by
  have hlt : (slot : Int) < t.capacity := (ht slot hs).1
  simp only [fill, Slots.set, hlt, if_true]
  simpa [Answer.Fine, Slots.Serves] using ht

theorem safe_capture {slot : Nat} (hs : slot < count) (hm : Safe count m) :
    Safe count (capture (some slot) m) := by
  intro i t a hi ht h
  obtain ⟨b, hb, rfl⟩ := Option.map_eq_some_iff.1 h
  have := hm i t b hi ht hb
  cases b with
  | miss => trivial
  | hit n u => exact fine_fill hs _ _ this
  | fault f => exact this

theorem safe_capturedSearch (subject : Subject) {slot : Nat} (hs : slot < count)
    (hm : Safe count m) : Safe count (capturedSearch subject (some slot) m) :=
  fun _ _ _ hi ht h => fine_seek hm (fun _ _ _ hu => fine_fill hs _ _ hu) hi ht h

theorem safe_backref (subject : Subject) (how : Comparison) {slot : Nat} (hs : slot < count) :
    Safe count (backref subject how slot) := by
  intro i t a hi ht h
  have hlt : slot < t.spans.size := (ht slot hs).2
  simp only [backref, Slots.text, Array.getElem?_eq_getElem hlt] at h
  cases hspan : t.spans[slot] with
  | none => simp only [hspan, Option.map_none] at h; cases h; trivial
  | some span =>
    simp only [hspan, Option.map_some] at h
    exact safe_ofComparison (fun i hi => Subject.compare_ok hi how _) i t a hi ht h

end Meaning

/-- What the meaning of a tree refers to: rules whose bodies never fail, and slots of the table. -/
def Env.safe (env : Env) (count : Nat) : Allowed where
  call r := (env.call r).Safe count
  capture id := ∃ slot, env.slot id = some slot ∧ slot < count
  backref slot := slot < count

theorem Pattern.safe_denote {env : Env} {count : Nat} {p : Pattern}
    (h : p.Normal (env.safe count)) : (p.denote env).Safe count := by
  have step {c : Prop} [Decidable c] {n : Nat} {i : Int} {t : Slots} {a : Answer}
      (ht : t.Serves count) (h : some (if c then .hit n t else .miss) = some a) : a.Fine count := by
    split at h <;> cases h
    · exact ht
    · trivial
  induction h with
  | @node p here below ih =>
    cases p with
    | empty => exact Meaning.safe_nothing
    | any => exact fun i t a _ ht h => step (i := i) ht h
    | anyRune => exact fun i t a _ ht h => step (i := i) ht h
    | startAnchor => exact fun i t a _ ht h => step (i := i) ht h
    | newline => exact Meaning.safe_ofComparison fun i hi => Subject.lineBreak_ok hi
    | category c => exact Meaning.safe_ofComparison fun i hi => Subject.one_ok hi _
    | literal id how t => exact Meaning.safe_ofComparison fun i hi => Subject.compare_ok hi how t
    | char id c => exact Meaning.safe_ofComparison fun i hi => Subject.one_ok hi _
    | set id members sense => exact Meaning.safe_ofComparison fun i hi => Subject.one_ok hi _
    | starChar id c =>
      refine Meaning.safe_ofComparison fun i hi => ?_
      obtain ⟨n, hn⟩ := Subject.runLength_ok (s := env.subject) hi (· == c)
      exact ⟨some n, by rw [hn]; rfl⟩
    | starSet id members sense =>
      refine Meaning.safe_ofComparison fun i hi => ?_
      obtain ⟨n, hn⟩ :=
        Subject.runLength_ok (s := env.subject) hi fun c => sense.admits (members.contains c)
      exact ⟨some n, by rw [hn]; rfl⟩
    | starAny => intro i t a _ ht h; cases h; exact ht
    | call id r => exact here
    | sequence id items =>
      simp only [denote, denoteEach_eq_map]
      refine Meaning.safe_inOrder fun m hm => ?_
      obtain ⟨q, hq, rfl⟩ := List.mem_map.1 hm
      exact ih q hq
    | choice id items =>
      simp only [denote, denoteEach_eq_map]
      refine Meaning.safe_firstOf fun m hm => ?_
      obtain ⟨q, hq, rfl⟩ := List.mem_map.1 hm
      exact ih q hq
    | star id q => exact Meaning.safe_many _ (ih q (by simp [children]))
    | option id q => exact Meaning.safe_orElse (ih q (by simp [children])) Meaning.safe_nothing
    | peek id q => exact Meaning.safe_peek (ih q (by simp [children]))
    | not id q => exact Meaning.safe_not (ih q (by simp [children]))
    | search id q => exact Meaning.safe_search _ (ih q (by simp [children]))
    | capture id q =>
      obtain ⟨slot, hslot, hlt⟩ := here
      simp only [denote, hslot]
      exact Meaning.safe_capture hlt (ih q (by simp [children]))
    | capturedSearch id q =>
      obtain ⟨slot, hslot, hlt⟩ := here
      simp only [denote, hslot]
      exact Meaning.safe_capturedSearch _ hlt (ih q (by simp [children]))
    | backref id how slot => exact Meaning.safe_backref _ how here
    | valued id how v => exact here.elim
    | rule id r => exact here.elim
    | grammar id start others => exact here.elim

namespace Grammar

/-- The nodes of a tree: those below its root and, if the root is a grammar, the bodies of its
rules. -/
inductive Node (store : Store) (root : Pattern) : Pattern → Prop where
  | root : Node store root root
  | child {p q : Pattern} (h : Node store root p) (hq : q ∈ p.children) : Node store root q
  | body {id : Nat} {start : Nat × Nat} {others : List (Nat × Nat)} {d : Nat × Nat} {p : Pattern}
      (h : root = .grammar id start others) (hd : d ∈ start :: others)
      (hp : store.body? d.2 = .ok (some p)) : Node store root p

variable {first most : Nat} {s : State} {p : Pattern}

theorem Sound.body_of_declared (hs : Sound first most s) {r : Nat} (hr : (s.allowed first).call r)
    (hd : Declared s r) : ∃ q, s.store.body? r = .ok (some q) ∧ Tree first q s := by
  obtain ⟨rule, hrule, hdeclared⟩ := hd
  obtain ⟨q, hq⟩ := (hs.rules r rule hr.1 hrule).declared hdeclared
  have hbody : s.store.body? r = .ok (some q) := by simp [Store.body?, Store.rule, hrule, hq]
  exact ⟨q, hbody, hs.body hr hbody⟩

/-- Every node of a compiled tree is the root of a grammar or refers only to what exists. -/
theorem Compiled.node (h : Compiled first s p) (hs : Sound first most s) {q : Pattern}
    (hq : Node s.store p q) :
    (∃ id start others, q = .grammar id start others) ∨ Tree first q s := by
  induction hq with
  | root =>
    cases h with
    | single h => exact .inr (h.mono ⟨fun _ h => h.elim, fun _ h => h, fun _ h => h⟩)
    | grammar => exact .inl ⟨_, _, _, rfl⟩
  | @child p q _ hq ih =>
    rcases ih with ⟨id, start, others, rfl⟩ | ih
    · simp [Pattern.children] at hq
    · exact .inr (ih.child hq)
  | @body id start others d q hroot hd hp =>
    subst hroot
    cases h with
    | single h => exact h.here.elim
    | grammar nodup declared named =>
      exact .inr (hs.body ((named d.2).1 (List.mem_map_of_mem hd)) hp)

/-- Every call in a compiled tree is one of a rule that its grammar declares exactly once. -/
theorem Compiled.call (h : Compiled first s p) (hs : Sound first most s) {id r : Nat}
    (hq : Node s.store p (.call id r)) : ∃ gid start others, p = .grammar gid start others ∧
      ((start :: others).map Prod.snd).count r = 1 ∧ (s.store.rule r).declared ∧
      ∃ body, s.store.body? r = .ok (some body) := by
  cases h with
  | @single p h =>
    -- No call stands below the root, and a root that is no grammar has no rules.
    have none {q : Pattern} (hq : Node s.store p q) :
        q.Normal { s.allowed first with call := fun _ => False } := by
      induction hq with
      | root => exact h
      | child _ hq ih => exact ih.child hq
      | body hroot => subst hroot; exact h.here.elim
    exact (none hq).here.elim
  | @grammar gid start others nodup declared named =>
    have hc := Compiled.node (.grammar nodup declared named) hs hq
    simp only [reduceCtorEq, exists_false, false_or] at hc
    have hcall : (s.allowed first).call r := hc.here
    obtain ⟨rule, hrule, hd⟩ := declared r hcall
    obtain ⟨body, hbody, -⟩ := hs.body_of_declared hcall ⟨rule, hrule, hd⟩
    refine ⟨gid, start, others,
      rfl, by rw [nodup.count, if_pos ((named r).2 hcall)], ?_, body, hbody⟩
    simpa [Store.rule, hrule] using hd

end Grammar

namespace Matching

open Grammar

theorem safe_body {scene : Scene} {first most count : Nat} {s : Grammar.State}
    (hs : Sound first most s) (hcount : s.opened ≤ count) (hstore : scene.store = s.store)
    (declared : ∀ r, (s.allowed first).call r → Declared s r) {r : Nat}
    (hr : (s.allowed first).call r) : Meaning.Safe count (scene.body r) := by
  intro i t a hi ht h
  refine scene.body_induction
    (fun r i t a => (s.allowed first).call r → 0 ≤ i → t.Serves count → a.Fine count) ?_ h hr hi ht
  intro f ih r p i t a hbody h hr hi ht
  obtain ⟨q, hq, htree⟩ := hs.body_of_declared hr (declared r hr)
  rw [hstore] at hbody
  cases hbody.symm.trans hq
  refine Pattern.safe_denote
    (htree.mono ⟨fun r' hr' => ?_, fun id hid => ?_, fun _ h => Nat.lt_of_lt_of_le h hcount⟩) i t a
    hi ht h
  · obtain ⟨q, hq, -⟩ := hs.body_of_declared hr' (declared r' hr')
    simp only [Env.safe, Scene.env, hstore, hq]
    exact fun i t a hi ht h => ih r' i t a h hr' hi ht
  · obtain ⟨slot, hslot, hlt⟩ := hid.2
    simp only [Env.safe, Scene.env, hstore]
    exact ⟨slot, hslot, Nat.lt_of_lt_of_le hlt hcount⟩

theorem safe_meaning {scene : Scene} {first most count : Nat} {s : Grammar.State} {p : Pattern}
    (hs : Sound first most s) (hp : Compiled first s p) (hcount : s.opened ≤ count)
    (hstore : scene.store = s.store) : (scene.meaning p).Safe count := by
  cases hp with
  | single h =>
    refine Pattern.safe_denote
      (h.mono ⟨fun _ h => h.elim, fun id hid => ?_, fun _ h => Nat.lt_of_lt_of_le h hcount⟩)
    obtain ⟨slot, hslot, hlt⟩ := hid.2
    simp only [Env.safe, Scene.env, hstore]
    exact ⟨slot, hslot, Nat.lt_of_lt_of_le hlt hcount⟩
  | @grammar id start others nodup declared named =>
    have hr := (named start.2).1 (by simp)
    obtain ⟨q, hq, -⟩ := hs.body_of_declared hr (declared _ hr)
    have hsafe := safe_body hs hcount hstore declared hr
    intro i t a hi ht h
    simp only [Scene.meaning, Pattern.denote, Scene.env, hstore, hq] at h
    exact hsafe i t a hi ht h

/-- What a compiled pattern refers to exists, and matching it never fails. Every call in its tree is
one of a rule that its grammar declares exactly once and that has a body, every capture and every
back reference has a slot below the number of captures, and that number is within the capacity,
where a negative one counts as zero. So the only way for a match not to return is that it does not
end. -/
theorem compiled_never_fails (src : Source) (store store' : Store) (p : Pattern) (log : List Notice)
    (capacity : Int) (hc : src.capacity = .int capacity)
    (h : parse src store = (.ok p, store', log)) :
    ∃ count, store'.count? p = some count ∧ count ≤ capacity.toNat ∧
      (∀ id r, Node store' p (.call id r) → ∃ gid start others, p = .grammar gid start others ∧
        ((start :: others).map Prod.snd).count r = 1 ∧ (store'.rule r).declared ∧
        ∃ body, store'.body? r = .ok (some body)) ∧
      (∀ id q, Node store' p (.capture id q) ∨ Node store' p (.capturedSearch id q) →
        ∃ slot, store'.slot? id = some slot ∧ slot < count) ∧
      (∀ id how slot, Node store' p (.backref id how slot) → slot < count) ∧
      ∀ (scene : Scene) (i : Int) (s : State) (depth : Nat), scene.store = store' → 0 ≤ i →
        s.table.slots.Holds count →
        (∃ u, attempt scene depth p i s = .miss u) ∨ (∃ n u, attempt scene depth p i s = .hit n u) ∨
          ∃ u, attempt scene depth p i s = .fault .endless u := by
  have hm : src.Admits capacity.toNat := by
    intro c hint
    simp only [hc, Datum.int?] at hint
    cases hint
    exact Nat.le_refl _
  obtain ⟨s, rfl, hs, hp, hcount⟩ := compiled_parse hm h
  refine ⟨s.opened, hcount, hs.opened, fun id r hq => hp.call hs hq, fun id q hq => ?_,
    fun id how slot hq => ?_, fun scene i u depth hstore hi ht => ?_⟩
  · rcases hq with hq | hq
    · have := hp.node hs hq
      simp only [reduceCtorEq, exists_false, false_or] at this
      exact this.here.2
    · have := hp.node hs hq
      simp only [reduceCtorEq, exists_false, false_or] at this
      exact this.here.2
  · have := hp.node hs hq
    simp only [reduceCtorEq, exists_false, false_or] at this
    exact this.here
  · have hagrees := follows_attempt scene depth p i u hi
    cases hr : attempt scene depth p i u with
    | miss v => exact .inl ⟨v, rfl⟩
    | hit n v => exact .inr (.inl ⟨n, v, rfl⟩)
    | fault f v =>
      rw [hr] at hagrees
      rcases hagrees with rfl | hfault
      · exact .inr (.inr ⟨v, rfl⟩)
      · exact (safe_meaning hs hp (Nat.le_refl _) hstore i _ _ hi ht.serves hfault).elim

/-- A rule that calls itself behind a capture, or refers back to it: `A <- {.} A / $1`. -/
theorem recursive_rule_never_fails :
    let src : Source := {
      text :=
        ['A', '<', '-', '{', '.', '}', 'A', '/', '$', '1'], file := "pattern", inline := .int 5
      capacity := .int 20 }
    ∃ p store' log count, src.capacity = .int 20 ∧ parse src {} = (.ok p, store', log) ∧
      store'.count? p = some count ∧ count ≤ 20 ∧
      ∀ (scene : Scene) (i : Int) (s : State) (depth : Nat), scene.store = store' → 0 ≤ i →
        s.table.slots.Holds count →
        (∃ u, attempt scene depth p i s = .miss u) ∨ (∃ n u, attempt scene depth p i s = .hit n u) ∨
          ∃ u, attempt scene depth p i s = .fault .endless u := by
  intro src
  have hok : (parse src {}).1.isOk = true := by decide +kernel
  obtain ⟨⟨result, store', log⟩, hparse⟩ : ∃ r, parse src {} = r := ⟨_, rfl⟩
  cases result with
  | error e => simp [hparse, Except.isOk, Except.toBool] at hok
  | ok p =>
    obtain ⟨count, hcount, hle, -, -, -, hmatch⟩ :=
      compiled_never_fails src {} store' p log 20 rfl hparse
    exact ⟨p, store', log, count, rfl, hparse, hcount, hle, hmatch⟩

end Matching

end PegMatch

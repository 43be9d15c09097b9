import PegMatch.Proofs.Bounds
import PegMatch.Proofs.Replay
import PegMatch.Proofs.Safety

set_option autoImplicit false

namespace PegMatch

namespace Store

/-- The second store holds the rules and slots of the first under new names. -/
structure Copies (ρ : Renaming) (s t : Store) : Prop where
  bodies : ∀ r p, s.body? r = .ok (some p) → t.body? (ρ.rule r) = .ok (some (p.rename ρ))
  slots : ∀ i slot, s.slot? i = some slot → t.slot? (ρ.id i) = some slot

structure Bounded (s : Store) : Prop where
  fresh : Pattern.firstFresh ≤ s.fresh
  slots : ∀ e ∈ s.slots, e.1 < s.fresh
  counts : ∀ e ∈ s.counts, e.1 < s.fresh

variable {ρ : Renaming} {s t new : Store}

theorem copies_onto (s t : Store) : s.Copies t.behind (s.onto t) where
  bodies r p hp := by
    rw [body_onto, hp]
    rfl
  slots i slot hs := by
    have happend : (s.onto t).slot? (t.behind.id i) =
        ((s.slots.map fun e => (t.behind.id e.1, e.2)).lookup (t.behind.id i)).or
          (t.slots.lookup (t.behind.id i)) :=
      List.lookup_append
    rw [happend, lookup_map_id]
    simp only [slot?] at hs
    simp [hs]

theorem mem_of_lookup_eq_some {es : List (Nat × Nat)} {i v : Nat} (h : es.lookup i = some v) :
    (i, v) ∈ es := by
  induction es with
  | nil => cases h
  | cons e es ih =>
    obtain ⟨j, w⟩ := e
    rw [List.lookup_cons] at h
    split at h
    · next he =>
      cases h
      simp [eq_of_beq he]
    · exact List.mem_cons_of_mem _ (ih h)

theorem lookup_eq_none_of_lt {es : List (Nat × Nat)} {i fresh : Nat} (h : ∀ e ∈ es, fresh ≤ e.1)
    (hi : i < fresh) : es.lookup i = none := by
  cases hl : es.lookup i with
  | none => rfl
  | some v =>
    have := h _ (mem_of_lookup_eq_some hl)
    omega

theorem fresh_le_behind (ht : Pattern.firstFresh ≤ t.fresh) {i : Nat}
    (hi : Pattern.firstFresh ≤ i) : t.fresh ≤ t.behind.id i := by
  rw [Renaming.id_of_fresh _ hi]
  simp only [behind]
  omega

theorem slot_onto_of_lt (ht : Pattern.firstFresh ≤ t.fresh)
    (hnew : ∀ e ∈ new.slots, Pattern.firstFresh ≤ e.1) {i : Nat} (hi : i < t.fresh) :
    (new.onto t).slot? i = t.slot? i := by
  have hnone : (new.slots.map fun e => (t.behind.id e.1, e.2)).lookup i = none := by
    refine lookup_eq_none_of_lt (fun e he => ?_) hi
    obtain ⟨e', he', rfl⟩ := List.mem_map.1 he
    exact fresh_le_behind ht (hnew e' he')
  have happend : (new.onto t).slot? i =
      ((new.slots.map fun e => (t.behind.id e.1, e.2)).lookup i).or (t.slots.lookup i) :=
    List.lookup_append
  rw [happend, hnone]
  rfl

theorem slot_onto_old (ht : t.Bounded) (hnew : ∀ e ∈ new.slots, Pattern.firstFresh ≤ e.1)
    {i slot : Nat} (h : t.slot? i = some slot) : (new.onto t).slot? i = some slot :=
  (slot_onto_of_lt ht.fresh hnew (ht.slots _ (mem_of_lookup_eq_some h))).trans h

theorem body_onto_old {r : Nat} {p : Pattern} (h : t.body? r = .ok (some p)) :
    (new.onto t).body? r = .ok (some p) := by
  have hrule : (new.onto t).rule r = t.rule r := by
    simp only [rule, onto, Array.getElem?_append_left (lt_of_body? h)]
  simpa only [body?, hrule] using h

theorem Copies.onto (h : s.Copies ρ t) (ht : t.Bounded)
    (hnew : ∀ e ∈ new.slots, Pattern.firstFresh ≤ e.1) : s.Copies ρ (new.onto t) :=
  ⟨fun r p hp => body_onto_old (h.bodies r p hp), fun i slot hs =>
    slot_onto_old ht hnew (h.slots i slot hs)⟩

structure Supports (store : Store) (q : Pattern) : Prop where
  slot : q.isCapture → ∃ slot, store.slot? q.id = some slot
  body : ∀ r, q.entered? = some r → ∃ body, store.body? r = .ok (some body)

def Complete (store : Store) (p : Pattern) : Prop :=
  ∀ q, store.Leads p q → store.Supports q

end Store

namespace Matching

section

variable {attempt attempt' : Attempt} {ρ : Renaming}

def SameAttempt (attempt' attempt : Attempt) (ρ : Renaming) (p : Pattern) : Prop :=
  ∀ i s, attempt' (p.rename ρ) i s = attempt p i s

theorem inOrder_rename {ps : List Pattern} (h : ∀ p ∈ ps, SameAttempt attempt' attempt ρ p)
    (i : Int) (n : Nat) (s : State) :
    inOrder attempt' i (ps.map (Pattern.rename ρ)) n s = inOrder attempt i ps n s := by
  induction ps generalizing n s with
  | nil => rfl
  | cons p ps ih =>
    simp only [List.map_cons, inOrder, h p (by simp) _ s]
    split
    · exact ih (fun q hq => h q (by simp [hq])) _ _
    · rfl

theorem firstOf_rename {ps : List Pattern} (h : ∀ p ∈ ps, SameAttempt attempt' attempt ρ p)
    (mark : Nat) (i : Int) (s : State) :
    firstOf attempt' mark i (ps.map (Pattern.rename ρ)) s = firstOf attempt mark i ps s := by
  induction ps generalizing s with
  | nil => rfl
  | cons p ps ih =>
    simp only [List.map_cons, firstOf, h p (by simp) _ s]
    split
    · exact ih (fun q hq => h q (by simp [hq])) _
    · rfl

variable {p : Pattern} (h : SameAttempt attempt' attempt ρ p)
include h

theorem repeatedly_rename (i : Int) (times n : Nat) (s : State) :
    repeatedly attempt' (p.rename ρ) i times n s = repeatedly attempt p i times n s := by
  induction times generalizing n s with
  | zero => rfl
  | succ times ih =>
    simp only [repeatedly, h _ s, ih]

theorem scan_rename (mark : Nat) (i : Int) (count skipped : Nat) (s : State) :
    scan attempt' mark (p.rename ρ) i count skipped s = scan attempt mark p i count skipped s := by
  induction count generalizing skipped s with
  | zero => rfl
  | succ count ih =>
    simp only [scan, h _ s, ih]

end

variable {scene : Scene} {store : Store} {ρ : Renaming}

theorem fill_rename (hc : scene.store.Copies ρ store) {i : Nat}
    (hi : ∃ slot, scene.store.slot? i = some slot) (span : Span) (length : Nat) (s : State) :
    fill { scene with store := store } (ρ.id i) span length s = fill scene i span length s := by
  obtain ⟨slot, hs⟩ := hi
  simp only [fill, hs, hc.slots i slot hs]

theorem step_rename (scene : Scene) {attempt attempt' : Attempt} (hc : scene.store.Copies ρ store)
    {p : Pattern} (here : scene.store.Supports p)
    (below : ∀ q ∈ p.children, SameAttempt attempt' attempt ρ q)
    (entered : ∀ r body, p.entered? = some r → scene.store.body? r = .ok (some body) →
      SameAttempt attempt' attempt ρ body)
    (start : ∀ id d ds, p = .grammar id d ds → SameAttempt attempt' attempt ρ (.call id d.2))
    (i : Int) (s : State) :
    step { scene with store := store } attempt' (p.rename ρ) i s = step scene attempt p i s := by
  have only {q : Pattern} (hq : q ∈ p.children) : attempt' (q.rename ρ) i s = attempt q i s :=
    below q hq i s
  cases p with
  | valued id how v => cases how <;> rfl
  | call id r =>
    obtain ⟨body, hb⟩ := here.body r rfl
    simp only [Pattern.rename, step, hb, hc.bodies r body hb]
    exact entered r body rfl hb i s
  | rule id r =>
    obtain ⟨body, hb⟩ := here.body r rfl
    simp only [Pattern.rename, step, hb, hc.bodies r body hb]
    exact entered r body rfl hb i s
  | grammar id d ds => exact start id d ds rfl i s
  | sequence id items =>
    have hitems : ∀ q ∈ items, SameAttempt attempt' attempt ρ q := below
    simp only [Pattern.rename_sequence, step, inOrder_rename hitems]
  | choice id items =>
    have hitems : ∀ q ∈ items, SameAttempt attempt' attempt ρ q := below
    simp only [Pattern.rename_choice, step, firstOf_rename hitems]
  | star id q =>
    simp only [Pattern.rename, step, repeatedly_rename (below q (by simp [Pattern.children]))]
  | option id q => simp only [Pattern.rename, step, only (q := q) (by simp [Pattern.children])]
  | peek id q => simp only [Pattern.rename, step, only (q := q) (by simp [Pattern.children])]
  | not id q => simp only [Pattern.rename, step, only (q := q) (by simp [Pattern.children])]
  | search id q =>
    simp only [Pattern.rename, step, scan_rename (below q (by simp [Pattern.children]))]
  | capture id q =>
    have hfill := fill_rename hc (here.slot rfl)
    simp only [Pattern.id] at hfill
    simp only [Pattern.rename, step, only (q := q) (by simp [Pattern.children]), hfill]
  | capturedSearch id q =>
    have hfill := fill_rename hc (here.slot rfl)
    simp only [Pattern.id] at hfill
    simp only [Pattern.rename, step, scan_rename (below q (by simp [Pattern.children])), hfill]
  | _ => rfl

theorem attempt_rename {subject : Subject} {origin : Int} {s t : Store} (hc : s.Copies ρ t)
    {p : Pattern} (hp : s.Complete p) (depth : Nat) :
    SameAttempt (attempt { subject := subject, store := t, origin := origin } depth)
      (attempt { subject := subject, store := s, origin := origin } depth) ρ p := by
  induction depth generalizing p with
  | zero => exact fun _ _ => rfl
  | succ depth ih =>
    intro i u
    have unwatched (q : Pattern) (r : Result) : leave {} q i r = r := by
      cases r <;> rfl
    have hstep := step_rename { subject := subject, store := s, origin := origin } hc (hp p .self)
      (fun q hq => ih fun q' hq' => hp q' ((Store.Leads.child .self hq).trans hq'))
      (fun r body hr hb => ih fun q' hq' => hp q' ((Store.Leads.enter .self hr hb).trans hq'))
      (fun id d ds hg => ih fun q' hq' => ?_) i u
    · simp only [attempt, unwatched]
      exact hstep
    · subst hg
      rcases hq'.of_call ds with rfl | hq'
      · exact ⟨by simp [Pattern.isCapture], (hp _ .self).body⟩
      · exact hp q' hq'

end Matching

namespace Grammar

variable {src : Source} {store store' s : Store} {p q : Pattern} {log : List Notice}

/-- A grammar that stands in a compiled tree is its root, and its first rule has a body. -/
theorem Compiled.grammar_node {first most : Nat} {s : State} (h : Compiled first s p)
    (hs : Sound first most s) {id : Nat} {start : Nat × Nat} {others : List (Nat × Nat)}
    (hq : Node s.store p (.grammar id start others)) :
    p = .grammar id start others ∧ ∃ body, s.store.body? start.2 = .ok (some body) := by
  have hroot : p = .grammar id start others := by
    cases hq with
    | root => rfl
    | child hp hq =>
      rcases h.node hs hp with ⟨_, _, _, rfl⟩ | htree
      · simp [Pattern.children] at hq
      · exact (htree.child hq).here.elim
    | body hroot hd hp =>
      subst hroot
      cases h with
      | single h => exact h.here.elim
      | grammar nodup declared named =>
        exact (hs.body ((named _).1 (List.mem_map_of_mem hd)) hp).here.elim
  subst hroot
  refine ⟨rfl, ?_⟩
  cases h with
  | single h => exact h.here.elim
  | grammar nodup declared named =>
    have hstart := (named start.2).1 (by simp)
    obtain ⟨body, hbody, -⟩ := hs.body_of_declared hstart (declared _ hstart)
    exact ⟨body, hbody⟩

theorem Compiled.not_rule {first most : Nat} {s : State} (h : Compiled first s p)
    (hs : Sound first most s) {id r : Nat} (hq : Node s.store p (.rule id r)) : False := by
  have := h.node hs hq
  simp only [reduceCtorEq, exists_false, false_or] at this
  exact this.here

theorem node_of_leads {first most : Nat} {s : State} (h : Compiled first s p)
    (hs : Sound first most s) {q : Pattern} (hq : s.store.Leads p q) : Node s.store p q := by
  induction hq with
  | self => exact .root
  | child _ hq ih => exact .child ih hq
  | @enter q body r hlead hr hb ih =>
    cases q <;> simp only [Pattern.entered?, reduceCtorEq, Option.some.injEq] at hr
    case call id r' =>
      subst hr
      obtain ⟨gid, start, others, rfl, hcount, -⟩ := h.call hs ih
      have hmem : r' ∈ (start :: others).map Prod.snd := List.count_pos_iff.1 (by omega)
      obtain ⟨d, hd, rfl⟩ := List.mem_map.1 hmem
      exact .body rfl hd hb
    case rule id r' => exact (h.not_rule hs ih).elim
    case grammar id start others =>
      subst hr
      exact .body (h.grammar_node hs ih).1 (by simp) hb

theorem complete_parse (h : parse src store = (.ok p, store', log)) : store'.Complete p := by
  obtain ⟨s, rfl, hs, hp, -⟩ := compiled_parse (admits_capacity src) h
  intro q hq
  have hnode := node_of_leads hp hs hq
  refine ⟨fun hcapture => ?_, fun r hr => ?_⟩
  · have := hp.node hs hnode
    cases q <;> simp only [Pattern.isCapture, Bool.false_eq_true] at hcapture
    all_goals
      simp only [reduceCtorEq, exists_false, false_or] at this
      exact this.here.2.imp fun _ h => h.1
  · cases q <;> simp only [Pattern.entered?, reduceCtorEq, Option.some.injEq] at hr
    case call id r' =>
      subst hr
      obtain ⟨_, _, _, -, -, -, hbody⟩ := hp.call hs hnode
      exact hbody
    case rule id r' => exact (hp.not_rule hs hnode).elim
    case grammar id start others =>
      subst hr
      exact (hp.grammar_node hs hnode).2

theorem count_parse {most : Nat} (hm : src.Admits most) (h : parse src {} = (.ok q, s, log)) :
    ∃ n, s.count? q = some n ∧ n ≤ most := by
  obtain ⟨state, -, hs, -, hcount⟩ := compiled_parse hm h
  exact ⟨state.opened, hcount, hs.opened⟩

theorem count_onto (h : parse src {} = (.ok q, s, log)) (p : Pattern) : (s.onto store).count? p =
    if p.id = store.behind.id q.id then s.count? q else store.count? p := by
  obtain ⟨-, -, n, hn⟩ := parse_fresh h
  simp only [Store.count?, Store.onto, hn, List.map_cons, List.map_nil, List.cons_append,
    List.nil_append, List.lookup_cons, beq_self_eq_true]
  by_cases hid : p.id = store.behind.id q.id
  · simp [hid]
  · simp [hid, beq_false_of_ne hid]

theorem bounded_onto (hb : store.Bounded) (h : parse src {} = (.ok q, s, log)) :
    (s.onto store).Bounded := by
  obtain ⟨hfresh, hslots, n, hn⟩ := parse_fresh h
  have hid := id_lt_fresh h
  have hold := hb.fresh
  have moved {i : Nat} (hi : i < s.fresh) : store.behind.id i < (s.onto store).fresh := by
    simp only [Store.onto, Renaming.id]
    split <;> omega
  have kept {i : Nat} (hi : i < store.fresh) : i < (s.onto store).fresh := by
    simp only [Store.onto, Store.behind]
    omega
  refine ⟨?_, fun e he => ?_, fun e he => ?_⟩
  · simp only [Store.onto]
    omega
  · rcases List.mem_append.1 he with he | he
    · obtain ⟨e', he', rfl⟩ := List.mem_map.1 he
      exact moved (hslots e' he').2
    · exact kept (hb.slots e he)
  · rcases List.mem_append.1 he with he | he
    · obtain ⟨e', he', rfl⟩ := List.mem_map.1 he
      simp only [hn, List.mem_singleton] at he'
      subst he'
      exact moved hid
    · exact kept (hb.counts e he)

end Grammar

end PegMatch

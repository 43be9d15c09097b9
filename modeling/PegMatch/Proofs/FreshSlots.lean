import PegMatch.Blueprint
import PegMatch.Proofs.SlotSafety
import PegMatch.Proofs.Traversal

set_option autoImplicit false

/-! Which slots a numbering gives. A capture without a slot gets the number of slots that are taken
where the walk first meets it. In a tree where no capture has a slot, the slots are the places in
the order of captures. A capture that has one keeps it, and then it may be the same as that of a
capture met before it. -/

namespace PegMatch

namespace Store

open PegMatch.Numbering

variable {store : Store} {capacity : Datum} {root : Pattern} {ms : List Mark} {w : Walk}

def numbered (store : Store) (root : Pattern) (w : Walk) : Store :=
  { store with slots := w.given ++ store.slots }.setCount root w.count

theorem number_eq (uncounted : store.count? root = none) (capacity : Datum) :
    store.number capacity root = (walkRoot store capacity root).map fun w =>
      (w.count, store.numbered root w) := by
  simp only [number, uncounted, bind, Except.bind]
  cases walkRoot store capacity root <;> rfl

theorem slot?_numbered (store : Store) (root : Pattern) (w : Walk) (id : Nat) :
    (store.numbered root w).slot? id = (w.given.lookup id).or (store.slot? id) :=
  List.lookup_append

theorem slot?_of_tracks (h : Tracks store w ms) {j id : Nat} (hj : (Mark.order ms)[j]? = some id) :
    (store.numbered root w).slot? id =
      some ((store.slot? id).getD (store.taken ((Mark.order ms).take j))) := by
  rw [slot?_numbered]
  cases hslot : store.slot? id with
  | some slot =>
    have hnone : w.given.lookup id = none := by
      refine Option.eq_none_iff_forall_ne_some.2 fun k hk => ?_
      rw [((h.given id k).1 hk).1] at hslot
      cases hslot
    simp [hnone]
  | none =>
    rw [(h.given id _).2 ⟨hslot, j, hj, rfl⟩]
    rfl

theorem slot?_of_not_met (h : Tracks store w ms) {id : Nat} (hid : id ∉ Mark.order ms) :
    (store.numbered root w).slot? id = store.slot? id := by
  have hnone : w.given.lookup id = none := by
    refine Option.eq_none_iff_forall_ne_some.2 fun k hk => hid ?_
    obtain ⟨-, j, hj, -⟩ := (h.given id k).1 hk
    exact List.mem_of_getElem? hj
  rw [slot?_numbered, hnone]
  rfl

theorem count?_numbered (store : Store) (root p : Pattern) (w : Walk) :
    (store.numbered root w).count? p = if p.id = root.id then some w.count else store.count? p := by
  simp only [numbered, setCount, count?, List.lookup_cons]
  by_cases h : p.id = root.id <;> simp [h, beq_false_of_ne]

end Store

namespace Numbering

/-- Where no capture has a slot, a walk passes all marks if the captures fit into the capacity and
the back references refer to captures before them. -/
theorem passes_iff {store : Store} {ms : List Mark}
    (fresh : ∀ id ∈ Mark.captured ms, store.slot? id = none) (c : Int) :
    (∀ a m b, ms = a ++ m :: b → Passes store (.int c) a m) ↔ (Mark.order ms).length ≤ c.toNat ∧
      Mark.Backed 0 ms := by
  have htaken {a b : List Mark} (hsplit : ms = a ++ b) :
      store.taken (Mark.order a) = (Mark.order a).length := by
    refine Store.taken_eq_length fun id hid => fresh id ?_
    rw [hsplit, Mark.captured_append]
    exact List.mem_append_left _ (Mark.mem_order.1 hid)
  constructor
  · intro h
    refine ⟨?_, fun before k after hsplit => ?_⟩
    · by_contra hmore
      obtain ⟨a, id, b, hsplit, hid, hlength⟩ :=
        Mark.exists_last_new (show 0 < (Mark.order ms).length by omega)
      obtain ⟨most, hmost, hlt⟩ := h a (.capture id) b hsplit (fresh id (by simp [hsplit])) hid
      obtain rfl : c = most := Option.some.inj hmost
      rw [htaken hsplit] at hlt
      omega
    · have hk := h before (.reference k) after hsplit
      simpa only [Passes, htaken hsplit, Nat.zero_add] using hk
  · rintro ⟨hlength, hbacked⟩ a m b hsplit
    cases m with
    | reference k =>
      have hk := hbacked a k b hsplit
      simpa only [Passes, htaken hsplit, Nat.zero_add] using hk
    | capture id =>
      intro _ hid
      have hlt := Mark.length_order_lt hsplit hid
      refine ⟨c, rfl, ?_⟩
      rw [htaken hsplit]
      omega

/-- A walk that does not pass a mark complains about the captures or about a back reference. -/
theorem grammar_of_blames {c : Int} {m : Mark} {e : Trouble} (h : Blames (.int c) m e) :
    ∃ error, Failure.ofTrouble e = .grammar error := by
  cases m with
  | capture id =>
    obtain rfl := h c rfl
    exact ⟨_, rfl⟩
  | reference k =>
    obtain rfl := h
    exact ⟨_, rfl⟩

end Numbering

namespace Library

open PegMatch.Numbering

/-- What a numbering changes: the captures get their places as slots, and their number is remembered
at the root. -/
structure Numbered (l : Library) (root : Pattern) (ids : List Nat) (l' : Library) : Prop where
  slot : ∀ k id, ids[k]? = some id → l'.store.slot? id = some k
  otherSlot : ∀ id, id ∉ ids → l'.store.slot? id = l.store.slot? id
  count : l'.store.count? root = some ids.length
  otherCount : ∀ p, p.id ≠ root.id → l'.store.count? p = l.store.count? p
  rest : l' = { l with store := { l.store with slots := l'.store.slots,
                                               counts := l'.store.counts } }

theorem number_apply (capacity : Datum) (root : Pattern) (l : Library) : number capacity root l =
    match l.store.number capacity root with
    | .ok (n, store) => .ok n { l with store := store }
    | .error e => .error (.ofTrouble e) l := by
  simp only [number, bind, EStateM.bind, get_apply]
  split
  · next h => rw [h]; rfl
  · next h => rw [h]; rfl

theorem numbered_of_tracks {l : Library} {root : Pattern} {ms : List Mark} {w : Walk}
    (fresh : ∀ id ∈ Mark.captured ms, l.store.slot? id = none) (h : Tracks l.store w ms) :
    Numbered l root (Mark.order ms) { l with store := l.store.numbered root w } := by
  have hnone (id : Nat) (hid : id ∈ Mark.order ms) : l.store.slot? id = none :=
    fresh id (Mark.mem_order.1 hid)
  have hcount : w.count = (Mark.order ms).length := h.count.trans (Store.taken_eq_length hnone)
  refine ⟨fun k id hk => ?_, fun id hid => Store.slot?_of_not_met h hid, ?_, fun p hp => ?_, rfl⟩
  · obtain ⟨j, hj, hplace⟩ := (Store.getElem?_iff_taken hnone).2 hk
    rw [Store.slot?_of_tracks h hj, hnone id (List.mem_of_getElem? hj), hplace]
    rfl
  · simp [Store.count?_numbered, hcount]
  · simp [Store.count?_numbered, hp]

/-- A tree is numbered for the first time. Where its captures fit into the capacity and each back
reference refers to a capture before it, the captures get their places as slots. Otherwise the tree
is rejected and nothing changes. A negative capacity has room for as many captures as zero. -/
theorem numbering_of_fresh_tree (l : Library) (root : Pattern) (built : l.store.Built root)
    (fresh : ∀ id, l.store.Meets root id → l.store.slot? id = none)
    (uncounted : l.store.count? root = none) :
    ∃ ms, (∀ ms', l.store.Encounters root ms' ↔ ms' = ms) ∧ ∀ c : Int,
      ((Mark.order ms).length ≤ c.toNat ∧ Mark.Backed 0 ms →
        ∃ l', number (.int c) root l = .ok (Mark.order ms).length l' ∧
          Numbered l root (Mark.order ms) l') ∧
      (¬ ((Mark.order ms).length ≤ c.toNat ∧ Mark.Backed 0 ms) →
        ∃ error, number (.int c) root l = .error (.grammar error) l) := by
  obtain ⟨ms, -, henc, -⟩ := walkRoot_of_built built (.int 0)
  have hfresh (id : Nat) (hid : id ∈ Mark.captured ms) : l.store.slot? id = none :=
    fresh id (henc.meets hid)
  refine ⟨ms, fun ms' => ⟨fun h => henc.unique h, fun h => h ▸ henc⟩, fun c => ?_⟩
  -- The capacity has no influence on what the walk meets, only on where it ends.
  obtain ⟨ms', seen, henc', hwalk⟩ := walkRoot_of_built built (.int c)
  obtain rfl := henc.unique henc'
  rw [number_apply, Store.number_eq uncounted, hwalk, ← passes_iff hfresh]
  obtain ⟨hall, w, hw, htracks⟩ | ⟨a, m, b, e, hsplit, hm, he, hblames⟩ :=
    (tracks_nil l.store []).run (.int c) ms'
  · have hthere : Tracks l.store (w.having seen) ms' := ⟨htracks.count, htracks.given⟩
    have hnumbered : Numbered l root (Mark.order ms')
        { l with store := l.store.numbered root (w.having seen) } :=
      numbered_of_tracks hfresh hthere
    have hcount : w.count = (Mark.order ms').length := by
      simpa [Store.count?_numbered] using hnumbered.count
    refine ⟨fun _ => ⟨_, ?_, hnumbered⟩, fun hnot => absurd hall hnot⟩
    rw [← hcount, hw]
    rfl
  · obtain ⟨error, herror⟩ := grammar_of_blames hblames
    refine ⟨fun hall => absurd (hall a m b hsplit) hm, fun _ => ⟨error, ?_⟩⟩
    rw [he, ← herror]
    rfl

end Library

namespace Store

variable {store : Store} {root : Pattern}

/-- A tree without rules and grammars, where all nodes are given that a walk comes to. -/
theorem built_of_closed {nodes : List Pattern} (hroot : root ∈ nodes)
    (plain : ∀ p ∈ nodes, p.members = []) (below : ∀ p ∈ nodes, p.children ⊆ nodes)
    (called : ∀ id r, .call id r ∈ nodes → ∃ body ∈ nodes, store.body? r = .ok (some body)) :
    store.Built root := by
  have within {known : Option (List Nat)} {q : Pattern} (h : store.Within root known q) :
      q ∈ nodes := by
    induction h with
    | root => exact hroot
    | child _ hq ih => exact below _ ih hq
    | call _ hb ih =>
      obtain ⟨body, hbody, hb'⟩ := called _ _ ih
      cases hb.symm.trans hb'
      exact hbody
    | rule _ _ ih => cases plain _ ih
    | member _ _ _ ih => cases plain _ ih
  refine ⟨fun known q h r hr => ?_, fun known q h => ?_⟩
  · cases q with
    | call id r' =>
      obtain rfl := List.mem_singleton.1 hr
      obtain ⟨body, -, hb⟩ := called id r (within h)
      exact ⟨some body, hb⟩
    | _ => simp [Pattern.named, plain _ (within h)] at hr
  · induction q using Pattern.induction_children with
    | node q ih =>
      refine ⟨q, fun p hp => ?_⟩
      rcases hp with hp | ⟨r, hr, -⟩
      · exact ih p hp (.child h hp)
      · simp [plain q (within h)] at hr

end Store

namespace Library

open PegMatch.Matching PegMatch.Numbering

/-- `A {'x'} {'x'} $2` with one node for both captures of `'x'`. -/
def sharedCapture : Pattern :=
  .sequence 41
    [.call 38 0, .capture 39 (.char 40 'x'), .capture 39 (.char 40 'x'), .backref 42 .exact 1]

/-- `A <- {'a'} A / 'b'`. -/
def chained : Library where
  store := { captureChain with fresh := 43 }

theorem built_sharedCapture : chained.store.Built sharedCapture := by
  let nodes : List Pattern :=
    [sharedCapture, .call 38 0, .capture 39 (.char 40 'x'), .char 40 'x', .backref 42 .exact 1,
    .choice 37 [.sequence 36 [.capture 33 (.char 32 'a'), .call 34 0], .char 35 'b'],
    .sequence 36 [.capture 33 (.char 32 'a'), .call 34 0], .capture 33 (.char 32 'a'),
      .char 32 'a', .call 34 0,
    .char 35 'b']
  have called (id r : Nat) (h : .call id r ∈ nodes) :
      ∃ body ∈ nodes, chained.store.body? r = .ok (some body) := by
    obtain rfl : r = 0 := by simp [nodes, sharedCapture] at h; omega
    exact ⟨_, by simp [nodes], rfl⟩
  have hroot : sharedCapture ∈ nodes := by simp [nodes]
  refine Store.built_of_closed hroot ?_ ?_ called
  · simp [nodes, sharedCapture, Pattern.members]
  · simp [nodes, sharedCapture, Pattern.children]

theorem encounters_sharedCapture : chained.store.Encounters sharedCapture
    [.capture 33, .capture 39, .capture 39, .reference 1] := by
  refine ⟨[0], ?_⟩
  iterate 13 refine .node ?_
  exact .done _

theorem backed_sharedCapture :
    Mark.Backed 0 [.capture 33, .capture 39, .capture 39, .reference 1] := by
  intro before k after h
  match before, h with
  | [_, _, _], h =>
    simp only [List.cons_append, List.nil_append, List.cons.injEq, Mark.reference.injEq] at h
    obtain ⟨rfl, rfl, rfl, rfl, -⟩ := h
    decide
  | _ :: _ :: _ :: _ :: _, h => simp at h

/-- Two captures take two slots, however often the walk comes to them, and a capacity of one is too
small. -/
theorem sharedCapture_is_numbered :
    (∃ l', number (.int 2) sharedCapture chained = .ok 2 l' ∧
      Numbered chained sharedCapture [33, 39] l') ∧
    ∃ error, number (.int 1) sharedCapture chained = .error (.grammar error) chained := by
  obtain ⟨ms, hms, h⟩ :=
    numbering_of_fresh_tree chained sharedCapture built_sharedCapture (fun _ _ => rfl) rfl
  obtain rfl := (hms _).1 encounters_sharedCapture
  exact ⟨(h 2).1 ⟨by decide, backed_sharedCapture⟩, (h 1).2 fun hfits => absurd hfits.1 (by decide)⟩

end Library

namespace Store

open PegMatch.Numbering

variable {store : Store} {root : Pattern} {ms : List Mark} {w : Walk}

/-- No capture that a numbering gave a slot shares it with another of the captures. -/
def FreshApart (store store' : Store) (ids : List Nat) : Prop :=
  ∀ id ∈ ids, ∀ other ∈ ids, store.slot? id = none →
    store'.slot? other = store'.slot? id → other = id

/-- A capture without a slot is met, and later one whose slot was the next to be given. -/
def Clashes (store : Store) (ids : List Nat) : Prop :=
  ∃ i j id other, i < j ∧ ids[i]? = some id ∧ ids[j]? = some other ∧ store.slot? id = none ∧
    store.slot? other = some (store.taken (ids.take i))

/-- Only a capture that is met later, and has a slot, can share the slot that another one is
given. -/
theorem freshApart_iff (h : Tracks store w ms) :
    store.FreshApart (store.numbered root w) (Mark.order ms) ↔ ¬ store.Clashes (Mark.order ms) := by
  constructor
  · rintro hapart ⟨i, j, id, other, hij, hi, hj, hfresh, hother⟩
    have hsame : other = id := by
      refine hapart id (List.mem_of_getElem? hi) other (List.mem_of_getElem? hj) hfresh ?_
      rw [slot?_of_tracks h hi, slot?_of_tracks h hj, hfresh, hother]
      rfl
    rw [hsame, hfresh] at hother
    cases hother
  · intro hclash id hid other hother hfresh hsame
    obtain ⟨i, hi⟩ := List.mem_iff_getElem?.1 hid
    obtain ⟨j, hj⟩ := List.mem_iff_getElem?.1 hother
    rw [slot?_of_tracks h hi, slot?_of_tracks h hj, hfresh, Option.getD_none,
      Option.some.injEq] at hsame
    rcases Nat.lt_trichotomy i j with hij | rfl | hji
    · cases hold : store.slot? other with
      | some slot =>
        rw [hold] at hsame
        exact absurd ⟨i, j, id, other, hij, hi, hj, hfresh, by rw [hold, ← hsame]; rfl⟩ hclash
      | none =>
        have hlt := slot_lt_taken store hij hi
        rw [hfresh] at hlt
        rw [hold] at hsame
        simp only [Option.getD_none] at hlt hsame
        omega
    · exact Option.some.inj (hj.symm.trans hi)
    · have hlt := slot_lt_taken store hji hj
      omega

theorem tracks_of_walkRoot {capacity : Datum} (h : walkRoot store capacity root = .ok w) :
    ∃ ms, store.Encounters root ms ∧ Tracks store w ms := by
  obtain ⟨ms, henc, hmeet⟩ := encounters_of_walkRoot h
  obtain ⟨-, w', hw', htracks⟩ | ⟨a, m, b, e, -, -, he, -⟩ := (tracks_nil store []).run capacity ms
  · cases hw'.symm.trans hmeet
    exact ⟨ms, henc, htracks.count, htracks.given⟩
  · cases he.symm.trans hmeet

/-- The slots that a numbering gives are apart from all others, unless a capture that has a slot is
met behind one that takes the same. -/
theorem fresh_slots_apart_iff (store store' : Store) (capacity : Datum) (root : Pattern) (n : Nat)
    (uncounted : store.count? root = none) (h : store.number capacity root = .ok (n, store')) :
    ∃ ms, store.Encounters root ms ∧
      (∀ id ∈ Mark.order ms, ∃ slot < n, store'.slot? id = some slot ∧
        ∀ old, store.slot? id = some old → slot = old) ∧
      (store.FreshApart store' (Mark.order ms) ↔ ¬ store.Clashes (Mark.order ms)) := by
  rw [number_eq uncounted] at h
  cases hwalk : walkRoot store capacity root with
  | error e =>
    rw [hwalk] at h
    cases h
  | ok w =>
    rw [hwalk] at h
    cases h
    obtain ⟨ms, henc, htracks⟩ := tracks_of_walkRoot hwalk
    refine ⟨ms, henc, fun id hid => ?_, freshApart_iff htracks⟩
    obtain ⟨j, hj⟩ := List.mem_iff_getElem?.1 hid
    obtain ⟨hlt, -⟩ := List.getElem?_eq_some_iff.1 hj
    have hplace := slot_lt_taken store hlt hj
    rw [List.take_length, ← htracks.count] at hplace
    exact ⟨_, hplace, slot?_of_tracks htracks hj, fun old hold => by simp [hold]⟩

theorem encounters_pair (store : Store) (root id other a b c d : Nat) :
    store.Encounters (.sequence root [.capture id (.char a c), .capture other (.char b d)])
      [.capture id, .capture other] := by
  refine ⟨[], ?_⟩
  iterate 5 refine .node ?_
  exact .done _

/-- A store in which one capture has a slot. -/
def halfNumbered : Store where
  fresh := 37
  slots := [(33, 0)]

/-- A capture behind one that has a slot takes the next. -/
theorem halfNumbered_apart :
    ∃ store', halfNumbered.number (.int 2)
      (.sequence 36 [.capture 33 (.char 32 'a'), .capture 35 (.char 34 'x')]) = .ok (2, store') ∧
      halfNumbered.FreshApart store' [33, 35] := by
  obtain ⟨store', h⟩ : ∃ store',
      halfNumbered.number (.int 2)
        (.sequence 36 [.capture 33 (.char 32 'a'), .capture 35 (.char 34 'x')]) = .ok (2, store') :=
    ⟨_, rfl⟩
  refine ⟨store', h, ?_⟩
  obtain ⟨ms, henc, -, hiff⟩ := fresh_slots_apart_iff halfNumbered store' (.int 2) _ 2 rfl h
  obtain rfl := (encounters_pair halfNumbered 36 33 35 32 34 'a' 'x').unique henc
  refine hiff.2 ?_
  rintro ⟨i, j, id, other, hij, hi, hj, hfresh, -⟩
  match i, j, hij with
  | 0, _, _ =>
    cases hi
    cases hfresh
  | i + 1, j + 2, _ => cases hj

/-- Whether a sequence of two captures is built of which the first has no slot, and the numbering
gives it that of the second. -/
def sharesSlot (b : Blueprint) (c : Int) : Bool :=
  match Blueprint.build b {} with
  | .ok (.pattern (.sequence root [.capture id (.char a x), .capture other (.char b y)])) l =>
    let pair : Pattern := .sequence root [.capture id (.char a x), .capture other (.char b y)]
    match l.store.number (.int c) pair with
    | .ok (_, store') =>
      (l.store.count? pair).isNone && (l.store.slot? id).isNone && other != id &&
        store'.slot? other == store'.slot? id
    | .error _ => false
  | _ => false

theorem not_freshApart_of_sharesSlot {b : Blueprint} {c : Int} (h : sharesSlot b c = true) :
    ∃ root l n store' ms, Blueprint.build b {} = .ok (.pattern root) l ∧
      l.store.count? root = none ∧ l.store.number (.int c) root = .ok (n, store') ∧
      l.store.Encounters root ms ∧ ¬ l.store.FreshApart store' (Mark.order ms) := by
  unfold sharesSlot at h
  split at h
  · next root id a x other b y l hbuild =>
    simp only at h
    split at h
    · next n store' hnumber =>
      simp only [Bool.and_eq_true, Option.isNone_iff_eq_none, bne_iff_ne, beq_iff_eq] at h
      obtain ⟨⟨⟨hcount, hfresh⟩, hne⟩, hsame⟩ := h
      refine ⟨_, l, n, store', _, hbuild, hcount, hnumber,
        encounters_pair l.store root id other a b x y, ?_⟩
      exact fun hapart =>
        hne (hapart id (by simp [Mark.mem_order]) other (by simp [Mark.mem_order]) hfresh hsame)
    · cases h
  · cases h

/-- A capture before the compiled pattern `{'a'}` gets the slot of the capture in it. -/
theorem fresh_slot_is_shared :
    ∃ root l n store' ms,
      Blueprint.build
        (.sequence [.capture (.value (.text ['x'])),
          .source (.value (.text ['{', '\'', 'a', '\'', '}']))]) {} = .ok (.pattern root) l ∧
      l.store.count? root = none ∧ l.store.number (.int 20) root = .ok (n, store') ∧
      l.store.Encounters root ms ∧ ¬ l.store.FreshApart store' (Mark.order ms) := by
  refine not_freshApart_of_sharesSlot ?_
  have hlibrary : ({} : Library) = { config := ⟨Config.defaults⟩ } := by rw [← Config.standard_eq]
  rw [sharesSlot, hlibrary]
  decide +kernel

end Store

end PegMatch

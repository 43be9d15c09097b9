import Mathlib.Data.Finset.Card
import Mathlib.Logic.Relation
import PegMatch.Proofs.CaptureOrder
import PegMatch.Proofs.Numbering

set_option autoImplicit false

/-! Traversals: the way of a numbering through a tree, whatever the numbering does at captures and
back references. Nodes are taken from the left, and the nodes below a node come before those to its
right. A rule is entered where it is first called, but not from inside a grammar, whose rules are
walked where it stands. -/

namespace PegMatch

namespace Pattern

def ownMarks : Pattern → List Mark
  | .capture id _ | .capturedSearch id _ => [.capture id]
  | .backref _ _ slot => [.reference slot]
  | _ => []

def named : Pattern → List Nat
  | .call _ r => [r]
  | p => p.members

/-- The rules to whose bodies a walk goes from the node. A call leads to its rule only where calls
are followed and only if the rule was not seen before. -/
def leadsTo (follow : Bool) (seen : List Nat) : Pattern → List Nat
  | .call _ r => if follow && !seen.contains r then [r] else []
  | p => p.members

def sights (follow : Bool) (seen : List Nat) : Pattern → List Nat
  | .rule .. => []
  | p => p.leadsTo follow seen

def followed (follow : Bool) : Pattern → Bool
  | .grammar .. => false
  | _ => follow

theorem followed_of_child {p q : Pattern} (h : q ∈ p.children) (follow : Bool) :
    p.followed follow = follow := by
  cases p with
  | grammar id start others => cases h
  | _ => rfl

theorem member_or_call {follow : Bool} {seen : List Nat} {p : Pattern} {r : Nat}
    (h : r ∈ p.leadsTo follow seen) :
    r ∈ p.members ∨ ∃ id, p = .call id r ∧ follow = true ∧ r ∉ seen := by
  cases p with
  | call id r' =>
    simp only [leadsTo] at h
    split at h
    · next hc =>
      obtain rfl := List.mem_singleton.1 h
      exact .inr ⟨id, rfl, by simpa using hc⟩
    · cases h
  | _ => exact .inl h

theorem leadsTo_subset_named (follow : Bool) (seen : List Nat) (p : Pattern) :
    p.leadsTo follow seen ⊆ p.named := by
  cases p with
  | call id r =>
    simp only [leadsTo, named]
    split <;> simp
  | _ => exact List.Subset.refl _

end Pattern

namespace Store

/-- The body of a rule, if it has one. -/
def inside (store : Store) (follow : Bool) (r : Nat) : List (Bool × Pattern) :=
  (store.rule r).body.toList.map (follow, ·)

/-- Where a walk goes from a node, and whether it follows calls there. -/
def ahead (store : Store) (follow : Bool) (seen : List Nat) (p : Pattern) : List (Bool × Pattern) :=
  p.children.map (p.followed follow, ·) ++ (p.leadsTo follow seen).flatMap
    (store.inside (p.followed follow))

/-- A traversal of nodes that are still to be walked, with the rules seen so far. It meets the
marks, and then the rules seen are those at the end. -/
inductive Traverses (store : Store) :
    List (Bool × Pattern) → List Nat → List Mark → List Nat → Prop where
  | done (seen : List Nat) : Traverses store [] seen [] seen
  | node {follow : Bool} {p : Pattern} {todo : List (Bool × Pattern)} {seen seen' : List Nat}
      {ms : List Mark}
      (h : Traverses store (store.ahead follow seen p ++ todo) (p.sights follow seen ++ seen) ms
        seen') : Traverses store ((follow, p) :: todo) seen (p.ownMarks ++ ms) seen'

/-- The marks that a walk of a tree meets. -/
def Encounters (store : Store) (root : Pattern) (ms : List Mark) : Prop :=
  ∃ seen, store.Traverses [(true, root)] [] ms seen

variable {store : Store} {a b : List (Bool × Pattern)} {seen seen' seen'' : List Nat}
  {ms ms' : List Mark}

theorem Traverses.append (h : store.Traverses a seen ms seen')
    (h' : store.Traverses b seen' ms' seen'') :
    store.Traverses (a ++ b) seen (ms ++ ms') seen'' := by
  induction h with
  | done seen => exact h'
  | node _ ih =>
    rw [List.cons_append, List.append_assoc]
    refine .node ?_
    rw [← List.append_assoc]
    exact ih h'

theorem Traverses.subset (h : store.Traverses a seen ms seen') : seen ⊆ seen' := by
  induction h with
  | done seen => exact List.Subset.refl _
  | node _ ih => exact fun r hr => ih (List.mem_append_right _ hr)

theorem Traverses.unique (h : store.Traverses a seen ms seen')
    (h' : store.Traverses a seen ms' seen'') : ms' = ms ∧ seen'' = seen' := by
  induction h generalizing ms' with
  | done seen =>
    cases h'
    exact ⟨rfl, rfl⟩
  | node _ ih =>
    cases h' with
    | node h' =>
      obtain ⟨rfl, rfl⟩ := ih h'
      exact ⟨rfl, rfl⟩

theorem Encounters.unique {root : Pattern} (h : store.Encounters root ms)
    (h' : store.Encounters root ms') : ms' = ms := by
  obtain ⟨seen, h⟩ := h
  obtain ⟨seen', h'⟩ := h'
  exact (h.unique h').1

theorem body_of_body? {r : Nat} {o : Option Pattern} (h : store.body? r = .ok o) :
    (store.rule r).body = o := by
  simp only [body?] at h
  split at h
  · exact Except.ok.inj h
  · cases h

end Store

namespace Numbering

variable {store : Store} {capacity : Datum} {w w' w'' : Walk}

def Walk.having (w : Walk) (seen : List Nat) : Walk :=
  { w with seen := seen }

@[simp] theorem Walk.seen_having (w : Walk) (seen : List Nat) : (w.having seen).seen = seen := rfl

@[simp] theorem Walk.count_having (w : Walk) (seen : List Nat) : (w.having seen).count = w.count :=
  rfl

@[simp] theorem Walk.given_having (w : Walk) (seen : List Nat) : (w.having seen).given = w.given :=
  rfl

@[simp] theorem Walk.having_having (w : Walk) (seen seen' : List Nat) :
    (w.having seen).having seen' = w.having seen' :=
  rfl

@[simp] theorem Walk.having_seen (w : Walk) : w.having w.seen = w := rfl

theorem meet_having (w : Walk) (seen : List Nat) (m : Mark) :
    meet store capacity (w.having seen) m = (meet store capacity w m).map (·.having seen) := by
  cases m with
  | reference k =>
    simp only [meet, meetReference, Walk.count_having]
    by_cases hk : w.count ≤ k <;> simp [hk, Except.map]
  | capture id =>
    have hslot : (w.having seen).slot? store id = w.slot? store id := rfl
    simp only [meet, meetCapture, hslot]
    cases w.slot? store id with
    | some slot => rfl
    | none =>
      simp only [bind, Except.bind]
      cases (capacity.limit ">=").mapError fun m => Trouble.fault (.misuse m) with
      | error e => rfl
      | ok most =>
        by_cases hmost : most ≤ w.count <;> simp [hmost, Except.map, Walk.having]

theorem meetAll_having (w : Walk) (seen : List Nat) (ms : List Mark) :
    ms.foldlM (meet store capacity) (w.having seen) = (ms.foldlM (meet store capacity) w).map
      (·.having seen) := by
  induction ms generalizing w with
  | nil => rfl
  | cons m ms ih =>
    rw [List.foldlM_cons, List.foldlM_cons, meet_having]
    cases meet store capacity w m with
    | error e => rfl
    | ok w₁ => exact ih w₁

theorem seen_of_meetAll {ms : List Mark} (h : ms.foldlM (meet store capacity) w = .ok w') :
    w'.seen = w.seen := by
  have hself : ms.foldlM (meet store capacity) (w.having w.seen) = _ := meetAll_having w w.seen ms
  rw [Walk.having_seen, h] at hself
  have := Except.ok.inj hself
  rw [this]
  rfl

section

variable {enter : Bool → Nat → Walk → Except Trouble Walk} {follow : Bool}

theorem visitEach_eq_foldlM (ps : List Pattern) (w : Walk) :
    visitEach store capacity enter follow ps w =
      ps.foldlM (fun w q => visit store capacity enter follow q w) w := by
  induction ps generalizing w with
  | nil => rfl
  | cons p ps ih =>
    rw [List.foldlM_cons]
    exact bind_congr fun w' => ih w'

/-- At any node a walk meets the mark of the node, and then goes on to what is ahead of it. -/
theorem visit_eq_bind (p : Pattern) (w : Walk) : visit store capacity enter follow p w =
    p.ownMarks.foldlM (meet store capacity) w >>= fun w₁ =>
      p.children.foldlM (fun w q => visit store capacity enter (p.followed follow) q w)
        (w₁.having (p.sights follow w₁.seen ++ w₁.seen)) >>= fun w₂ =>
          (p.leadsTo follow w₁.seen).foldlM (fun w r => enter (p.followed follow) r w) w₂ := by
  cases p with
  | call id r =>
    simp only [visit, Pattern.ownMarks, Pattern.children, Pattern.leadsTo, Pattern.sights,
      Pattern.followed, List.foldlM_nil, pure_bind]
    split
    · simp [Walk.having]
    · rfl
  | capture id q =>
    simp [visit, meet, Pattern.ownMarks, Pattern.children, Pattern.leadsTo, Pattern.members,
      Pattern.sights, Pattern.followed]
  | capturedSearch id q =>
    simp [visit, meet, Pattern.ownMarks, Pattern.children, Pattern.leadsTo, Pattern.members,
      Pattern.sights, Pattern.followed]
  | backref id how slot =>
    simp [visit, meet, Pattern.ownMarks, Pattern.children, Pattern.leadsTo, Pattern.members,
      Pattern.sights]
  | sequence id ps =>
    simp [visit, visitEach_eq_foldlM, Pattern.ownMarks, Pattern.children, Pattern.leadsTo,
      Pattern.members, Pattern.sights, Pattern.followed]
  | choice id ps =>
    simp [visit, visitEach_eq_foldlM, Pattern.ownMarks, Pattern.children, Pattern.leadsTo,
      Pattern.members, Pattern.sights, Pattern.followed]
  | _ =>
    simp [visit, Pattern.ownMarks, Pattern.children, Pattern.leadsTo, Pattern.members,
      Pattern.sights, Pattern.followed] <;> rfl

end

/-- The step of a walk goes through what is to be walked with these rules seen: it meets the marks
on the way, in their order, and does nothing else. -/
def Performs (store : Store) (capacity : Datum) (x : Walk → Except Trouble Walk)
    (todo : List (Bool × Pattern)) (seen : List Nat) : Prop :=
  ∃ ms seen', store.Traverses todo seen ms seen' ∧
    ∀ w, w.seen = seen → x w = (ms.foldlM (meet store capacity) w).map (·.having seen')

section

variable {x y : Walk → Except Trouble Walk} {a b : List (Bool × Pattern)} {seen : List Nat}

theorem performs_nothing (seen : List Nat) : Performs store capacity .ok [] seen := by
  refine ⟨[], seen, .done seen, fun w hw => ?_⟩
  subst hw
  rfl

theorem performs_bind (hx : Performs store capacity x a seen)
    (hy : ∀ seen', seen ⊆ seen' → Performs store capacity y b seen') :
    Performs store capacity (fun w => x w >>= y) (a ++ b) seen := by
  obtain ⟨ms, seen', ht, hx⟩ := hx
  obtain ⟨ms', seen'', ht', hy⟩ := hy seen' ht.subset
  refine ⟨ms ++ ms', seen'', ht.append ht', fun w hw => ?_⟩
  simp only [hx w hw, List.foldlM_append]
  cases ms.foldlM (meet store capacity) w with
  | error e => rfl
  | ok w₁ =>
    have hrest := hy (w₁.having seen') rfl
    rw [meetAll_having] at hrest
    simp only [Except.map, bind, Except.bind] at hrest ⊢
    rw [hrest]
    cases ms'.foldlM (meet store capacity) w₁ <;> rfl

theorem performs_foldlM {α : Type} {step : Walk → α → Except Trouble Walk}
    {todo : α → List (Bool × Pattern)} {items : List α}
    (h : ∀ i ∈ items, ∀ seen', seen ⊆ seen' → Performs store capacity (step · i) (todo i) seen') :
    Performs store capacity (items.foldlM step) (items.flatMap todo) seen := by
  induction items generalizing seen with
  | nil => exact performs_nothing seen
  | cons i items ih =>
    refine performs_bind (h i (by simp) seen (List.Subset.refl _)) fun seen' hs =>
      ih fun j hj seen'' hs' => ?_
    exact h j (by simp [hj]) seen'' (List.Subset.trans hs hs')

theorem performs_visit {enter : Bool → Nat → Walk → Except Trouble Walk} {follow : Bool}
    {p : Pattern}
    (below : ∀ q ∈ p.children, ∀ seen', seen ⊆ seen' →
      Performs store capacity (visit store capacity enter (p.followed follow) q)
        [(p.followed follow, q)] seen')
    (inside : ∀ r ∈ p.leadsTo follow seen, ∀ seen', p.sights follow seen ++ seen ⊆ seen' →
      Performs store capacity (enter (p.followed follow) r)
        (store.inside (p.followed follow) r) seen') :
    Performs store capacity (visit store capacity enter follow p) [(follow, p)] seen := by
  have hbelow : Performs store capacity
      (p.children.foldlM fun w q => visit store capacity enter (p.followed follow) q w)
      (p.children.flatMap fun q => [(p.followed follow, q)]) (p.sights follow seen ++ seen) :=
    performs_foldlM fun q hq seen' hs =>
      below q hq seen' (List.Subset.trans (List.subset_append_right _ _) hs)
  have hinside (seen' : List Nat) (hs : p.sights follow seen ++ seen ⊆ seen') :
      Performs store capacity
        ((p.leadsTo follow seen).foldlM fun w r => enter (p.followed follow) r w)
        ((p.leadsTo follow seen).flatMap (store.inside (p.followed follow))) seen' :=
    performs_foldlM fun r hr seen'' hs' => inside r hr seen'' (List.Subset.trans hs hs')
  obtain ⟨ms, seen', ht, hwalk⟩ := performs_bind hbelow hinside
  refine ⟨p.ownMarks ++ ms, seen', .node ?_, fun w hw => ?_⟩
  · rw [List.append_nil, Store.ahead, List.map_eq_flatMap]
    exact ht
  · rw [visit_eq_bind, List.foldlM_append]
    cases hown : p.ownMarks.foldlM (meet store capacity) w with
    | error e => rfl
    | ok w₁ =>
      have hseen : w₁.seen = seen := (seen_of_meetAll hown).trans hw
      have hrest := hwalk (w₁.having (p.sights follow seen ++ seen)) rfl
      rw [meetAll_having] at hrest
      simp only [bind, Except.bind, hseen] at hrest ⊢
      rw [hrest]
      cases ms.foldlM (meet store capacity) w₁ <;> rfl

end

/-- From one walk to the other, marks were met as in a traversal of what was to be walked. -/
def Follows (store : Store) (capacity : Datum) (todo : List (Bool × Pattern)) (w w' : Walk) :
    Prop :=
  ∃ ms, store.Traverses todo w.seen ms w'.seen ∧
    ms.foldlM (meet store capacity) w = .ok (w'.having w.seen)

section

variable {a b : List (Bool × Pattern)}

theorem Follows.refl (w : Walk) : Follows store capacity [] w w :=
  ⟨[], .done _, rfl⟩

theorem Follows.trans (h : Follows store capacity a w w') (h' : Follows store capacity b w' w'') :
    Follows store capacity (a ++ b) w w'' := by
  obtain ⟨ms, ht, hm⟩ := h
  obtain ⟨ms', ht', hm'⟩ := h'
  refine ⟨ms ++ ms', ht.append ht', ?_⟩
  rw [List.foldlM_append, hm]
  exact (meetAll_having w' w.seen ms').trans (by rw [hm']; rfl)

theorem follows_foldlM {α : Type} {step : Walk → α → Except Trouble Walk}
    {todo : α → List (Bool × Pattern)} {items : List α}
    (h : ∀ i ∈ items, ∀ w w', step w i = .ok w' → Follows store capacity (todo i) w w')
    (hw : items.foldlM step w = .ok w') : Follows store capacity (items.flatMap todo) w w' := by
  induction items generalizing w with
  | nil =>
    cases hw
    exact .refl w'
  | cons i items ih =>
    rw [List.foldlM_cons] at hw
    obtain ⟨w₁, h₁, hw⟩ := ok_of_bindExcept hw
    exact (h i (by simp) w w₁ h₁).trans (ih (fun j hj => h j (by simp [hj])) hw)

theorem follows_visit {enter : Bool → Nat → Walk → Except Trouble Walk}
    (he : ∀ follow r w w', enter follow r w = .ok w' →
      Follows store capacity (store.inside follow r) w w') (follow : Bool) (p : Pattern)
    (h : visit store capacity enter follow p w = .ok w') :
    Follows store capacity [(follow, p)] w w' := by
  induction p using Pattern.induction_children generalizing follow w w' with
  | node p ih =>
    rw [visit_eq_bind] at h
    obtain ⟨w₁, hown, h⟩ := ok_of_bindExcept h
    obtain ⟨w₂, hbelow, hinside⟩ := ok_of_bindExcept h
    have hseen := seen_of_meetAll hown
    have hahead :=
      (follows_foldlM (fun q hq w w' hv => ih q hq (p.followed follow) hv) hbelow).trans
        (follows_foldlM (fun r _ w w' hv => he (p.followed follow) r w w' hv) hinside)
    obtain ⟨ms, ht, hm⟩ := hahead
    refine ⟨p.ownMarks ++ ms, .node ?_, ?_⟩
    · rw [List.append_nil, Store.ahead, List.map_eq_flatMap, ← hseen]
      exact ht
    · rw [meetAll_having] at hm
      rw [List.foldlM_append, hown]
      cases hrest : ms.foldlM (meet store capacity) w₁ with
      | error e => simp [hrest, Except.map] at hm
      | ok w₃ =>
        have hseen' := (seen_of_meetAll hrest).trans hseen
        simp only [hrest, Except.map, Except.ok.injEq] at hm
        have heq := congrArg (·.having w.seen) hm
        simp only [Walk.having_having, ← hseen', Walk.having_seen] at heq
        rw [← hseen', ← heq]
        exact hrest

theorem follows_enterRule (hops : Nat) (follow : Bool) (r : Nat)
    (h : enterRule store capacity hops follow r w = .ok w') :
    Follows store capacity (store.inside follow r) w w' := by
  induction hops generalizing follow r w w' with
  | zero => cases h
  | succ hops ih =>
    simp only [enterRule] at h
    split at h
    · cases h
    · next hb =>
      cases h
      simp only [Store.inside, Store.body_of_body? hb]
      exact .refl w
    · next body hb =>
      simp only [Store.inside, Store.body_of_body? hb]
      exact follows_visit (fun follow r w w' hr => ih follow r hr) follow body h

theorem encounters_of_walkRoot {root : Pattern} (h : walkRoot store capacity root = .ok w) :
    ∃ ms, store.Encounters root ms ∧ ms.foldlM (meet store capacity) {} = .ok (w.having []) := by
  obtain ⟨ms, ht, hm⟩ :=
    follows_visit (fun follow r w w' hr => follows_enterRule _ follow r hr) true root h
  exact ⟨ms, ⟨w.seen, ht⟩, hm⟩

end

end Numbering

namespace Store

/-- The node stands right below another one: it is one of its children, or the body of a rule that
is walked where the other one stands. Nothing stands below a call. -/
def Under (store : Store) (q p : Pattern) : Prop :=
  q ∈ p.children ∨ ∃ r ∈ p.members, store.body? r = .ok (some q)

/-- What can be built of nodes: only rules are named, and what stands below a node is finite, so
that a tree is recursive through calls only. -/
structure Built (store : Store) (root : Pattern) : Prop where
  proper : ∀ known q, store.Within root known q → ∀ r ∈ q.named, ∃ body, store.body? r = .ok body
  finite : ∀ known q, store.Within root known q → Acc store.Under q

def unseen (store : Store) (seen : List Nat) : Finset Nat :=
  Finset.range store.rules.size \ seen.toFinset

/-- Rules whose bodies were entered one inside the other, the last of them on the way to the
node. -/
structure Path (store : Store) (rs : List Nat) (p : Pattern) : Prop where
  nodup : rs.Nodup
  above : ∀ r ∈ rs, ∃ body, store.body? r = .ok (some body) ∧
    Relation.ReflTransGen store.Under p body

variable {store : Store} {root p q body : Pattern} {r : Nat} {rs seen seen' : List Nat}
  {known : Option (List Nat)}

theorem lt_size_of_body (h : store.body? r = .ok (some body)) : r < store.rules.size := by
  have hbody := body_of_body? h
  by_contra hlt
  simp [rule, Array.getElem?_eq_none (Nat.le_of_not_lt hlt)] at hbody

theorem not_under_itself (h : Acc store.Under p) : ¬ Relation.TransGen store.Under p p := by
  replace h := h.transGen
  induction h with
  | intro p _ ih => exact fun hp => ih p hp hp

theorem card_unseen_le (h : seen ⊆ seen') :
    (store.unseen seen').card ≤ (store.unseen seen).card := by
  refine Finset.card_le_card (Finset.sdiff_subset_sdiff (Finset.Subset.refl _) fun r hr => ?_)
  simp only [List.mem_toFinset] at hr ⊢
  exact h hr

theorem card_unseen_lt (hr : r < store.rules.size) (hnew : r ∉ seen) (h : r :: seen ⊆ seen') :
    (store.unseen seen').card < (store.unseen seen).card := by
  refine Finset.card_lt_card (Finset.ssubset_iff_of_subset ?_ |>.2 ⟨r, ?_, ?_⟩)
  · refine Finset.sdiff_subset_sdiff (Finset.Subset.refl _) fun r hr => ?_
    simp only [List.mem_toFinset] at hr ⊢
    exact h (List.mem_cons_of_mem _ hr)
  · simp [unseen, hr, hnew]
  · simp [unseen, h (List.mem_cons_self ..)]

namespace Path

theorem length_le (h : store.Path rs p) : rs.length ≤ store.rules.size := by
  have hsub : rs ⊆ List.range store.rules.size := by
    intro r hr
    obtain ⟨body, hbody, -⟩ := h.above r hr
    exact List.mem_range.2 (lt_size_of_body hbody)
  simpa using (h.nodup.subperm hsub).length_le

theorem start (h : store.body? r = .ok (some body)) : store.Path [r] body where
  nodup := List.nodup_singleton r
  above r' hr' := by
    obtain rfl := List.mem_singleton.1 hr'
    exact ⟨body, h, .refl⟩

theorem child (h : store.Path rs p) (hq : q ∈ p.children) : store.Path rs q where
  nodup := h.nodup
  above r hr := by
    obtain ⟨body, hbody, hp⟩ := h.above r hr
    exact ⟨body, hbody, .head (.inl hq) hp⟩

theorem member (h : store.Path rs p) (hr : r ∈ p.members) (hbody : store.body? r = .ok (some body))
    (finite : Acc store.Under body) : store.Path (r :: rs) body := by
  have hunder : store.Under body p := .inr ⟨r, hr, hbody⟩
  refine ⟨List.nodup_cons.2 ⟨fun hmem => ?_, h.nodup⟩, fun r' hr' => ?_⟩
  · obtain ⟨body', hbody', hp⟩ := h.above r hmem
    cases hbody.symm.trans hbody'
    exact not_under_itself finite (.head' hunder hp)
  · rcases List.mem_cons.1 hr' with rfl | hr'
    · exact ⟨body, hbody, .refl⟩
    · obtain ⟨body', hbody', hp⟩ := h.above r' hr'
      exact ⟨body', hbody', .head hunder hp⟩

end Path

/-- Where a walk comes to in the body of a rule that is walked where the node stands. -/
theorem Within.inside (h : store.Within root known p) (hr : r ∈ p.members)
    (hbody : store.body? r = .ok (some body)) :
    ∃ known' : Option (List Nat), known'.isNone = p.followed known.isNone ∧
      store.Within root known' body := by
  cases p with
  | rule id r' =>
    obtain rfl := List.mem_singleton.1 hr
    exact ⟨known, rfl, .rule h hbody⟩
  | grammar id start others => exact ⟨_, rfl, .member h hr hbody⟩
  | _ => cases hr

theorem body?_of_mem_inside {follow : Bool} {t : Bool × Pattern} (h : t ∈ store.inside follow r) :
    t.1 = follow ∧ store.body? r = .ok (some t.2) := by
  obtain ⟨q, hq, rfl⟩ := List.mem_map.1 h
  have hbody : (store.rule r).body = some q := by simpa using hq
  exact ⟨rfl, by simp [body?, hbody]⟩

theorem Within.ahead (h : store.Within root known p) {t : Bool × Pattern}
    (ht : t ∈ store.ahead known.isNone seen p) :
    ∃ known' : Option (List Nat), known'.isNone = t.1 ∧ store.Within root known' t.2 := by
  rcases List.mem_append.1 ht with ht | ht
  · obtain ⟨q, hq, rfl⟩ := List.mem_map.1 ht
    exact ⟨known, (Pattern.followed_of_child hq _).symm, .child h hq⟩
  · obtain ⟨r, hr, ht⟩ := List.mem_flatMap.1 ht
    obtain ⟨hfollow, hbody⟩ := body?_of_mem_inside ht
    rcases Pattern.member_or_call hr with hr | ⟨id, rfl, hnone, -⟩
    · obtain ⟨known', hknown, hin⟩ := h.inside hr hbody
      exact ⟨known', hknown.trans hfollow.symm, hin⟩
    · obtain rfl := Option.isNone_iff_eq_none.1 hnone
      exact ⟨none, hfollow.symm, .call h hbody⟩

theorem Traverses.meets {todo : List (Bool × Pattern)} {ms : List Mark}
    (h : store.Traverses todo seen ms seen')
    (hin : ∀ t ∈ todo, ∃ known : Option (List Nat), known.isNone = t.1 ∧
      store.Within root known t.2) {id : Nat} (hid : id ∈ Mark.captured ms) :
    store.Meets root id := by
  induction h with
  | done seen => cases hid
  | @node follow p todo seen seen' ms _ ih =>
    obtain ⟨known, hknown, hp⟩ := hin (follow, p) (by simp)
    have hnext (t : Bool × Pattern) (ht : t ∈ store.ahead follow seen p ++ todo) :
        ∃ known : Option (List Nat), known.isNone = t.1 ∧ store.Within root known t.2 := by
      rcases List.mem_append.1 ht with ht | ht
      · subst hknown
        exact hp.ahead ht
      · exact hin t (by simp [ht])
    rw [Mark.captured_append] at hid
    rcases List.mem_append.1 hid with hid | hid
    · cases p with
      | capture id' q =>
        obtain rfl := List.mem_singleton.1 hid
        exact ⟨known, q, .inl hp⟩
      | capturedSearch id' q =>
        obtain rfl := List.mem_singleton.1 hid
        exact ⟨known, q, .inr hp⟩
      | _ => cases hid
    · exact ih hnext hid

theorem Encounters.meets {ms : List Mark} (h : store.Encounters root ms) {id : Nat}
    (hid : id ∈ Mark.captured ms) : store.Meets root id := by
  obtain ⟨seen, h⟩ := h
  refine h.meets (fun t ht => ?_) hid
  obtain rfl := List.mem_singleton.1 ht
  exact ⟨none, rfl, .root⟩

end Store

namespace Numbering

variable {store : Store} {capacity : Datum} {root : Pattern}

theorem performs_enterRule {hops : Nat} {follow : Bool} {r : Nat} {seen : List Nat}
    {o : Option Pattern} (ho : store.body? r = .ok o)
    (h : ∀ body, o = some body →
      Performs store capacity (visit store capacity (enterRule store capacity hops) follow body)
        [(follow, body)] seen) :
    Performs store capacity (enterRule store capacity (hops + 1) follow r)
      (store.inside follow r) seen := by
  simp only [Store.inside, Store.body_of_body? ho]
  cases o with
  | none =>
    have hok : enterRule store capacity (hops + 1) follow r = .ok := by
      funext w
      simp [enterRule, ho]
    rw [hok]
    exact performs_nothing seen
  | some body =>
    have hvisit : enterRule store capacity (hops + 1) follow r =
        visit store capacity (enterRule store capacity hops) follow body := by
      funext w
      simp [enterRule, ho]
    rw [hvisit]
    exact h body rfl

/-- How far a walk can still go: to the rules not seen yet by calls, and from each of them, as from
the node itself, through bodies inside each other. -/
theorem performs_within (built : store.Built root) (capacity : Datum) (hops : Nat)
    (known : Option (List Nat)) (p : Pattern) (seen rs : List Nat) (hp : store.Within root known p)
    (path : store.Path rs p)
    (enough : 1 + (store.rules.size - rs.length) + (store.rules.size + 1) *
      (store.unseen seen).card ≤ hops) :
    Performs store capacity (visit store capacity (enterRule store capacity hops) known.isNone p)
      [(known.isNone, p)] seen := by
  induction hops generalizing known p seen rs with
  | zero => omega
  | succ hops ih =>
    induction p using Pattern.induction_children generalizing known seen with
    | node p ihBelow =>
      have fewer {seen' : List Nat} (hs : seen ⊆ seen') : (store.rules.size + 1) *
          (store.unseen seen').card ≤ (store.rules.size + 1) * (store.unseen seen).card :=
        Nat.mul_le_mul_left _ (Store.card_unseen_le hs)
      refine performs_visit (fun q hq seen' hs => ?_) fun r hr seen' hs => ?_
      · rw [Pattern.followed_of_child hq]
        have := fewer hs
        exact ihBelow q hq known seen' (.child hp hq) (path.child hq) (by omega)
      · obtain ⟨o, ho⟩ := built.proper known p hp r (Pattern.leadsTo_subset_named _ _ _ hr)
        refine performs_enterRule ho fun body hbody => ?_
        subst hbody
        have hlt := Store.lt_size_of_body ho
        rcases Pattern.member_or_call hr with hr | ⟨id, rfl, hnone, hnew⟩
        · obtain ⟨known', hknown, hin⟩ := hp.inside hr ho
          have hpath := path.member hr ho (built.finite known' body hin)
          have hlength := hpath.length_le
          have := fewer (List.Subset.trans (List.subset_append_right _ _) hs)
          rw [← hknown]
          refine ih known' body seen' (r :: rs) hin hpath ?_
          simp only [List.length_cons] at hlength ⊢
          omega
        · -- Calls are followed outside grammars only, and from here on the rule is seen.
          obtain rfl := Option.isNone_iff_eq_none.1 hnone
          have hless :=
            Store.card_unseen_lt hlt hnew
              (by simpa [Pattern.sights, Pattern.leadsTo, hnew] using hs)
          have := Nat.mul_le_mul_left (store.rules.size + 1) (Nat.succ_le_of_lt hless)
          rw [Nat.mul_succ] at this
          refine ih none body seen' [r] (.call hp ho) (.start ho) ?_
          simp only [List.length_singleton]
          omega

/-- The walk of a tree that can be built ends. It meets the marks of the traversal in their
order. -/
theorem walkRoot_of_built (built : store.Built root) (capacity : Datum) :
    ∃ ms seen, store.Encounters root ms ∧
      walkRoot store capacity root = (ms.foldlM (meet store capacity) {}).map (·.having seen) := by
  have hunseen : (store.unseen []).card = store.rules.size := by simp [Store.unseen]
  obtain ⟨ms, seen, ht, hwalk⟩ :=
    performs_within built capacity ((store.rules.size + 1) * (store.rules.size + 1)) none root []
      [] .root ⟨List.nodup_nil, by simp⟩
      (by rw [hunseen, Nat.mul_succ]; simp only [List.length_nil]; omega)
  exact ⟨ms, seen, ⟨seen, ht⟩, hwalk {} rfl⟩

end Numbering

end PegMatch

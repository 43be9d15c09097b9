import PegMatch.Pattern.Numbering
import PegMatch.Proofs.Bounds

set_option autoImplicit false

/-! What the numbering of captures gives. The walk from a root comes to every node that matching may
come to, provided that inside a grammar only its own rules are called. Each capture then has a slot
below the number returned. -/

namespace PegMatch

namespace Store

/-- Where a walk from a root comes to. Outside grammars, where `known` is `none`, it follows calls.
Inside, where it does not, the rules of the grammars around are known. -/
inductive Within (store : Store) (root : Pattern) : Option (List Nat) → Pattern → Prop where
  | root : Within store root none root
  | child {known : Option (List Nat)} {p q : Pattern} (h : Within store root known p)
      (hq : q ∈ p.children) : Within store root known q
  | call {id r : Nat} {body : Pattern} (h : Within store root none (.call id r))
      (hb : store.body? r = .ok (some body)) : Within store root none body
  | rule {known : Option (List Nat)} {id r : Nat} {body : Pattern}
      (h : Within store root known (.rule id r)) (hb : store.body? r = .ok (some body)) :
      Within store root known body
  | member {known : Option (List Nat)} {id r : Nat} {start : Nat × Nat} {others : List (Nat × Nat)}
      {body : Pattern} (h : Within store root known (.grammar id start others))
      (hr : r ∈ (start :: others).map Prod.snd) (hb : store.body? r = .ok (some body)) :
      Within store root (some ((start :: others).map Prod.snd ++ known.getD [])) body

/-- Inside a grammar only its rules are called and those of the grammars around it. -/
def Closed (store : Store) (root : Pattern) : Prop :=
  ∀ known id r, store.Within root (some known) (.call id r) → r ∈ known

/-- The walk from the root meets a capture with this identity. -/
def Meets (store : Store) (root : Pattern) (id : Nat) : Prop :=
  ∃ known q, store.Within root known (.capture id q) ∨
    store.Within root known (.capturedSearch id q)

end Store

/-- The rules that are walked where the node stands. -/
def Pattern.members : Pattern → List Nat
  | .rule _ r => [r]
  | .grammar _ start others => (start :: others).map Prod.snd
  | _ => []

namespace Numbering

def Noted (store : Store) (w : Walk) : Pattern → Prop
  | .capture id _ | .capturedSearch id _ => ∃ slot, w.slot? store id = some slot ∧ slot < w.count
  | .backref _ _ slot => slot < w.count
  | .call _ r => r ∈ w.seen
  | _ => True

inductive Met (store : Store) (w : Walk) : Pattern → Prop where
  | node {p : Pattern} (here : Noted store w p) (below : ∀ q ∈ p.children, Met store w q)
      (members : ∀ r ∈ p.members, ∀ body, store.body? r = .ok (some body) → Met store w body) :
      Met store w p

structure Grows (store : Store) (capacity : Datum) (root : Pattern) (w w' : Walk) : Prop where
  count : w.count ≤ w'.count
  seen : ∀ r ∈ w.seen, r ∈ w'.seen
  slot : ∀ id slot, w.slot? store id = some slot → w'.slot? store id = some slot
  entered : ∀ r ∈ w'.seen, r ∈ w.seen ∨ ∀ body, store.body? r = .ok (some body) → Met store w' body
  given : ∀ id slot, w'.given.lookup id = some slot → w.given.lookup id = some slot ∨
    store.slot? id = none ∧ ∃ most, capacity.int? = some most ∧ (slot : Int) < most
  /-- Slots are counted only up to the last one of a capture that is met. -/
  least : ∀ c, w.count ≤ c →
    (∀ id slot, store.Meets root id → w'.slot? store id = some slot → slot < c) → w'.count ≤ c

variable {store : Store} {capacity : Datum} {root : Pattern} {w w' w'' : Walk} {p : Pattern}

theorem Noted.mono (h : Noted store w p) (hg : Grows store capacity root w w') :
    Noted store w' p := by
  have slotted {id : Nat} (h : ∃ slot, w.slot? store id = some slot ∧ slot < w.count) :
      ∃ slot, w'.slot? store id = some slot ∧ slot < w'.count := by
    obtain ⟨slot, hslot, hlt⟩ := h
    exact ⟨slot, hg.slot id slot hslot, Nat.lt_of_lt_of_le hlt hg.count⟩
  cases p with
  | capture id q => exact slotted h
  | capturedSearch id q => exact slotted h
  | backref id how slot => exact Nat.lt_of_lt_of_le h hg.count
  | call id r => exact hg.seen r h
  | _ => trivial

theorem Met.mono (h : Met store w p) (hg : Grows store capacity root w w') : Met store w' p := by
  induction h with
  | node here _ _ ihBelow ihMembers => exact .node (here.mono hg) ihBelow ihMembers

theorem Grows.refl (w : Walk) : Grows store capacity root w w :=
  ⟨Nat.le_refl _, fun _ h => h, fun _ _ h => h, fun _ h => .inl h, fun _ _ h => .inl h,
    fun _ h _ => h⟩

theorem Grows.trans (h : Grows store capacity root w w') (h' : Grows store capacity root w' w'') :
    Grows store capacity root w w'' where
  count := Nat.le_trans h.count h'.count
  seen r hr := h'.seen r (h.seen r hr)
  slot id slot hs := h'.slot id slot (h.slot id slot hs)
  entered r hr := by
    rcases h'.entered r hr with hr | hmet
    · rcases h.entered r hr with hr | hmet
      · exact .inl hr
      · exact .inr fun body hb => (hmet body hb).mono h'
    · exact .inr hmet
  given id slot hs := (h'.given id slot hs).elim (h.given id slot) .inr
  least c hc hslots :=
    h'.least c (h.least c hc fun id slot hid hs => hslots id slot hid (h'.slot id slot hs)) hslots

theorem grows_meetCapture {id : Nat} (hid : store.Meets root id)
    (h : meetCapture store capacity id w = .ok w') : Grows store capacity root w w' ∧
      ∃ slot, w'.slot? store id = some slot ∧ slot < w'.count := by
  unfold meetCapture at h
  cases hslot : w.slot? store id with
  | some slot =>
    simp only [hslot] at h
    cases h
    refine ⟨⟨Nat.le_max_left _ _, fun _ h => h, fun _ _ h => h, fun _ h => .inl h,
      fun _ _ h => .inl h, ?_⟩, slot, hslot, Nat.le_max_right _ _⟩
    intro c hc hslots
    exact Nat.max_le.2 ⟨hc, hslots id slot hid hslot⟩
  | none =>
    simp only [hslot, bind, Except.bind] at h
    obtain ⟨hold, hnew⟩ : store.slot? id = none ∧ w.given.lookup id = none := by
      simpa [Walk.slot?] using hslot
    cases hc : capacity.int? with
    | none => simp [Datum.limit, hc, Except.mapError] at h
    | some most =>
      simp only [Datum.limit, hc, Except.mapError] at h
      split at h
      · cases h
      · next hlt =>
        cases h
        have hgiven : Walk.slot? { w with count := w.count + 1, given := (id, w.count) :: w.given }
            store id = some w.count := by
          simp [Walk.slot?, hold]
        refine ⟨⟨Nat.le_succ _, fun _ h => h, fun id' slot hs => ?_, fun _ h => .inl h,
          fun id' slot hs => ?_, ?_⟩, w.count, hgiven, Nat.lt_succ_self _⟩
        · have hne : id' ≠ id := by
            rintro rfl
            simp [hslot] at hs
          simpa [Walk.slot?, List.lookup_cons, beq_false_of_ne hne] using hs
        · by_cases he : id' = id
          · subst he
            simp only [List.lookup_cons_self, Option.some.injEq] at hs
            exact .inr ⟨hold, most, hc, by omega⟩
          · rw [List.lookup_cons, beq_false_of_ne he] at hs
            exact .inl hs
        · intro c _ hslots
          exact hslots id w.count hid hgiven

def Knows (known : Option (List Nat)) (w : Walk) : Prop :=
  ∀ r ∈ known.getD [], r ∈ w.seen

theorem Knows.mono {known : Option (List Nat)} (h : Knows known w)
    (hg : Grows store capacity root w w') : Knows known w' :=
  fun r hr => hg.seen r (h r hr)

def Walks (store : Store) (capacity : Datum) (root : Pattern)
    (enter : Bool → Nat → Walk → Except Trouble Walk) (p : Pattern) : Prop :=
  ∀ known w w', store.Within root known p → Knows known w → visit store capacity enter known.isNone
    p w = .ok w' → Grows store capacity root w w' ∧ Met store w' p

def Enters (store : Store) (capacity : Datum) (root : Pattern)
    (enter : Bool → Nat → Walk → Except Trouble Walk) : Prop :=
  ∀ known r w w', (∀ body, store.body? r = .ok (some body) → store.Within root known body) →
    Knows known w → enter known.isNone r w = .ok w' → Grows store capacity root w w' ∧
    ∀ body, store.body? r = .ok (some body) → Met store w' body

section

variable {enter : Bool → Nat → Walk → Except Trouble Walk}

theorem walks_each {ps : List Pattern} (h : ∀ p ∈ ps, Walks store capacity root enter p)
    {known : Option (List Nat)} (hps : ∀ p ∈ ps, store.Within root known p) (hk : Knows known w)
    (hv : visitEach store capacity enter known.isNone ps w = .ok w') :
    Grows store capacity root w w' ∧ ∀ p ∈ ps, Met store w' p := by
  induction ps generalizing w with
  | nil =>
    cases hv
    exact ⟨.refl _, by simp⟩
  | cons p ps ih =>
    simp only [visitEach, bind, Except.bind] at hv
    split at hv
    · cases hv
    · next w₁ h₁ =>
      obtain ⟨hg₁, hm₁⟩ := h p (by simp) known w w₁ (hps p (by simp)) hk h₁
      obtain ⟨hg, hm⟩ :=
        ih (fun q hq => h q (by simp [hq])) (fun q hq => hps q (by simp [hq])) (hk.mono hg₁) hv
      refine ⟨hg₁.trans hg, fun q hq => ?_⟩
      rcases List.mem_cons.1 hq with rfl | hq
      · exact hm₁.mono hg
      · exact hm q hq

theorem walks_members (he : Enters store capacity root enter) {known : Option (List Nat)}
    (hin : known.isNone = false) {rs : List Nat}
    (hrs : ∀ r ∈ rs, ∀ body, store.body? r = .ok (some body) → store.Within root known body)
    (hk : Knows known w) (hv : rs.foldlM (fun w r => enter false r w) w = .ok w') :
    Grows store capacity root w w' ∧ ∀ r ∈ rs, ∀ body, store.body? r = .ok (some body) →
      Met store w' body := by
  induction rs generalizing w with
  | nil =>
    cases hv
    exact ⟨.refl _, by simp⟩
  | cons r rs ih =>
    simp only [List.foldlM_cons, bind, Except.bind] at hv
    split at hv
    · cases hv
    · next w₁ h₁ =>
      obtain ⟨hg₁, hm₁⟩ := he known r w w₁ (hrs r (by simp)) hk (hin ▸ h₁)
      obtain ⟨hg, hm⟩ := ih (fun r' hr' => hrs r' (by simp [hr'])) (hk.mono hg₁) hv
      refine ⟨hg₁.trans hg, fun r' hr' body hb => ?_⟩
      rcases List.mem_cons.1 hr' with rfl | hr'
      · exact (hm₁ body hb).mono hg
      · exact hm r' hr' body hb

theorem Grows.ofSeen (rs : List Nat)
    (hg : Grows store capacity root { w with seen := rs ++ w.seen } w')
    (hm : ∀ r ∈ rs, ∀ body, store.body? r = .ok (some body) → Met store w' body) :
    Grows store capacity root w w' where
  count := hg.count
  seen r hr := hg.seen r (List.mem_append_right rs hr)
  slot := hg.slot
  entered r hr := by
    rcases hg.entered r hr with hr | hmet
    · rcases List.mem_append.1 hr with hr | hr
      · exact .inr (hm r hr)
      · exact .inl hr
    · exact .inr hmet
  given := hg.given
  least := hg.least

theorem walks_visit (closed : store.Closed root) (he : Enters store capacity root enter)
    (p : Pattern) : Walks store capacity root enter p := by
  induction p using Pattern.induction_children with
  | node p ih =>
    intro known w w' hp hk h
    have below {q : Pattern} (hq : q ∈ p.children) {w : Walk} (hk : Knows known w)
        (h : visit store capacity enter known.isNone q w = .ok w') :
        Grows store capacity root w w' ∧ Met store w' q :=
      ih q hq known w w' (.child hp hq) hk h
    -- A node that is noted by nothing but a walk of the one node below it.
    have only {q : Pattern} (hq : p.children = [q]) (hn : ∀ w, Noted store w p)
        (hm : p.members = []) (h : visit store capacity enter known.isNone q w = .ok w') :
        Grows store capacity root w w' ∧ Met store w' p := by
      obtain ⟨hg, hmet⟩ := below (by simp [hq]) hk h
      exact ⟨hg, .node (hn w') (by simpa [hq] using hmet) (by simp [hm])⟩
    have captured {id : Nat} {q : Pattern} (hid : store.Meets root id) (hq : p.children = [q])
        (hn : ∀ w, (∃ slot, w.slot? store id = some slot ∧ slot < w.count) → Noted store w p)
        (hm : p.members = [])
        (h : (meetCapture store capacity id w >>= visit store capacity enter known.isNone q) =
          .ok w') : Grows store capacity root w w' ∧ Met store w' p := by
      simp only [bind, Except.bind] at h
      split at h
      · cases h
      · next w₁ h₁ =>
        obtain ⟨hg₁, slot, hslot, hlt⟩ := grows_meetCapture hid h₁
        obtain ⟨hg, hmet⟩ := below (by simp [hq]) (hk.mono hg₁) h
        refine ⟨hg₁.trans hg, .node (hn w' ?_) (by simpa [hq] using hmet) (by simp [hm])⟩
        exact ⟨slot, hg.slot id slot hslot, Nat.lt_of_lt_of_le hlt hg.count⟩
    have each {ps : List Pattern} (hps : p.children = ps) (hn : ∀ w, Noted store w p)
        (hm : p.members = []) (h : visitEach store capacity enter known.isNone ps w = .ok w') :
        Grows store capacity root w w' ∧ Met store w' p := by
      subst hps
      obtain ⟨hg, hmet⟩ := walks_each ih (fun q hq => .child hp hq) hk h
      exact ⟨hg, .node (hn w') hmet (by simp [hm])⟩
    have leaf (hw : w' = w) (hc : p.children = []) (hn : Noted store w p) (hm : p.members = []) :
        Grows store capacity root w w' ∧ Met store w' p := by
      subst hw
      exact ⟨.refl w', .node hn (by simp [hc]) (by simp [hm])⟩
    cases p with
    | capture id q => exact captured ⟨known, q, .inl hp⟩ rfl (fun _ h => h) rfl h
    | capturedSearch id q => exact captured ⟨known, q, .inr hp⟩ rfl (fun _ h => h) rfl h
    | sequence id ps => exact each rfl (fun _ => trivial) rfl h
    | choice id ps => exact each rfl (fun _ => trivial) rfl h
    | star id q => exact only rfl (fun _ => trivial) rfl h
    | option id q => exact only rfl (fun _ => trivial) rfl h
    | peek id q => exact only rfl (fun _ => trivial) rfl h
    | not id q => exact only rfl (fun _ => trivial) rfl h
    | search id q => exact only rfl (fun _ => trivial) rfl h
    | backref id how slot =>
      simp only [visit, meetReference] at h
      split at h
      · cases h
      · next hlt => exact leaf (by cases h; rfl) rfl (Nat.lt_of_not_le hlt) rfl
    | call id r =>
      simp only [visit] at h
      split at h
      · next hc =>
        -- The call is followed, so the walk is outside grammars and the rule is new.
        obtain ⟨hnone, -⟩ : known.isNone = true ∧ _ := by simpa using hc
        obtain rfl := Option.isNone_iff_eq_none.1 hnone
        obtain ⟨hg, hm⟩ :=
          he none r { w with seen := r :: w.seen } w' (fun body hb => .call hp hb)
            (by simp [Knows]) h
        refine ⟨Grows.ofSeen [r] hg (by simpa using hm), .node ?_ (by simp [Pattern.children]) ?_⟩
        · exact hg.seen r (by simp)
        · simp [Pattern.members]
      · next hc =>
        refine leaf (by cases h; rfl) rfl ?_ rfl
        cases known with
        | none => simpa [Noted] using hc
        | some rs => exact hk r (closed rs id r hp)
    | rule id r =>
      obtain ⟨hg, hm⟩ := he known r w w' (fun body hb => .rule hp hb) hk h
      exact ⟨hg, .node trivial (by simp [Pattern.children]) (by simpa [Pattern.members] using hm)⟩
    | grammar id start others =>
      have hk' : Knows (some ((start :: others).map Prod.snd ++ known.getD []))
          { w with seen := (start :: others).map Prod.snd ++ w.seen } := by
        intro r hr
        rcases List.mem_append.1 hr with hr | hr
        · exact List.mem_append_left _ hr
        · exact List.mem_append_right _ (hk r hr)
      obtain ⟨hg, hm⟩ := walks_members he rfl (fun r hr body hb => .member hp hr hb) hk' h
      exact ⟨.ofSeen _ hg hm, .node trivial (by simp [Pattern.children]) hm⟩
    | _ => exact leaf (by cases h; rfl) rfl trivial rfl

end

theorem enters_enterRule (closed : store.Closed root) (hops : Nat) :
    Enters store capacity root (enterRule store capacity hops) := by
  induction hops with
  | zero => intro known r w w' _ _ h; cases h
  | succ hops ih =>
    intro known r w w' hbody hk h
    simp only [enterRule] at h
    split at h
    · cases h
    · next hb =>
      cases h
      exact ⟨.refl w, fun body hb' => by rw [hb] at hb'; cases hb'⟩
    · next body hb =>
      obtain ⟨hg, hm⟩ := walks_visit closed ih body known w w' (hbody body hb) hk h
      refine ⟨hg, fun body' hb' => ?_⟩
      rw [hb] at hb'
      cases hb'
      exact hm

theorem Met.here (h : Met store w p) : Noted store w p := by
  cases h with
  | node here _ _ => exact here

theorem Met.child (h : Met store w p) {q : Pattern} (hq : q ∈ p.children) : Met store w q := by
  cases h with
  | node _ below _ => exact below q hq

theorem Met.member (h : Met store w p) {r : Nat} (hr : r ∈ p.members) {body : Pattern}
    (hb : store.body? r = .ok (some body)) : Met store w body := by
  cases h with
  | node _ _ members => exact members r hr body hb

/-- The walk from a root notes every node that it comes to, and every node that matching may come
to. -/
theorem met_walkRoot (closed : store.Closed root) (h : walkRoot store capacity root = .ok w) :
    Grows store capacity root {} w ∧ (∀ known q, store.Within root known q → Met store w q) ∧
      ∀ q, store.Leads root q → Met store w q := by
  obtain ⟨hg, hroot⟩ :=
    walks_visit closed (enters_enterRule closed _) root none {} w .root (by simp [Knows]) h
  have called {id r : Nat} {body : Pattern} (hm : Met store w (.call id r))
      (hb : store.body? r = .ok (some body)) : Met store w body :=
    (hg.entered r hm.here).elim (fun h => by simp at h) fun hm => hm body hb
  refine ⟨hg, fun known q hq => ?_, fun q hq => ?_⟩
  · induction hq with
    | root => exact hroot
    | child _ hq ih => exact ih.child hq
    | call _ hb ih => exact called ih hb
    | rule _ hb ih => exact ih.member (by simp [Pattern.members]) hb
    | member _ hr hb ih => exact ih.member hr hb
  · induction hq with
    | self => exact hroot
    | child _ hq ih => exact ih.child hq
    | @enter q body r _ hr hb ih =>
      cases q <;> simp only [Pattern.entered?, reduceCtorEq, Option.some.injEq] at hr
      case call id r' => subst hr; exact called ih hb
      all_goals subst hr; exact ih.member (by simp [Pattern.members]) hb

end Numbering

/-- The slots that the node takes or refers to are below a bound. -/
def Pattern.Slotted (store : Store) (n : Nat) : Pattern → Prop
  | .capture id _ | .capturedSearch id _ => ∃ slot, store.slot? id = some slot ∧ slot < n
  | .backref _ _ slot => slot < n
  | _ => True

namespace Store

open PegMatch.Numbering

variable {store store' : Store} {capacity : Datum} {root : Pattern} {n : Nat}

theorem Leads.congr {p q : Pattern} (h : store'.Leads p q) (hb : store'.body? = store.body?) :
    store.Leads p q := by
  induction h with
  | self => exact .self
  | child _ hq ih => exact .child ih hq
  | enter _ hr hbody ih => exact .enter ih hr (hb ▸ hbody)

/-- What numbering gives to a pattern that was not numbered before. The slots taken fit into the
capacity just if those fit that captures had before. -/
theorem slotted_number {c : Int} (unnumbered : store.count? root = none)
    (closed : store.Closed root) (h : store.number (.int c) root = .ok (n, store')) :
    (∀ q, store'.Leads root q → q.Slotted store' n) ∧
      (n ≤ c.toNat ↔ ∀ id slot, store.Meets root id → store.slot? id = some slot →
        (slot : Int) < c) := by
  simp only [number, unnumbered, bind, Except.bind] at h
  split at h
  · cases h
  · next w hw =>
    cases h
    obtain ⟨hg, hwithin, hleads⟩ := met_walkRoot closed hw
    have hnew (id slot : Nat) (hs : w.given.lookup id = some slot) :
        store.slot? id = none ∧ (slot : Int) < c := by
      rcases hg.given id slot hs with h | ⟨hnone, most, hmost, hlt⟩
      · simp at h
      · cases hmost
        exact ⟨hnone, hlt⟩
    have hslot (id : Nat) :
        (({ store with slots := w.given ++ store.slots } : Store).setCount root w.count).slot? id =
        w.slot? store id := by
      have happend : (w.given ++ store.slots).lookup id = (w.given.lookup id).or (store.slot? id) :=
        List.lookup_append
      simp only [setCount, slot?, Walk.slot?] at happend ⊢
      rw [happend]
      cases hs : w.given.lookup id with
      | none => simp
      | some slot =>
        have := (hnew id slot hs).1
        simp only [slot?] at this
        simp [this]
    refine ⟨fun q hq => ?_, fun hle id slot hid hs => ?_, fun hold => ?_⟩
    · have := (hleads q (hq.congr rfl)).here
      cases q with
      | capture id q => simpa only [Pattern.Slotted, hslot, Noted] using this
      | capturedSearch id q => simpa only [Pattern.Slotted, hslot, Noted] using this
      | backref id how slot => exact this
      | _ => trivial
    · obtain ⟨slot', hs', hlt⟩ : ∃ slot', w.slot? store id = some slot' ∧ slot' < w.count := by
        obtain ⟨known, q, hq | hq⟩ := hid
        · exact (hwithin known _ hq).here
        · exact (hwithin known _ hq).here
      simp only [Walk.slot?, hs, Option.some_or, Option.some.injEq] at hs'
      omega
    · refine hg.least c.toNat (Nat.zero_le _) fun id slot hid hs => ?_
      rcases Option.or_eq_some_iff.1 hs with hs | ⟨-, hs⟩
      · have := hold id slot hid hs
        omega
      · have := (hnew id slot hs).2
        omega

end Store

end PegMatch

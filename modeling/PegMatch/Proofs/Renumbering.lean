import PegMatch.Proofs.CaptureOrder
import PegMatch.Proofs.Inlining
import PegMatch.Proofs.Replay

set_option autoImplicit false

/-! Reading gives a capture its slot where it is opened, numbering where a walk of the finished tree
meets it. The two agree as long as what is skipped before tokens holds no captures. But a text that
is skipped may hold a back reference, and then it can come to stand before the capture that it
refers to. -/

namespace PegMatch

open Mark

namespace Grammar

variable {α β : Type}

/-- What is found after something was read, and nothing if it cannot be read. -/
def after (x : Reader α) (s : State) (find : α → State → List β) : List β :=
  match x s with
  | .ok a s' => find a s'
  | .error _ _ => []

theorem after_eq {x : Reader α} {s s' : State} {a : α} (h : x s = .ok a s')
    (find : α → State → List β) : after x s find = find a s' := by
  simp [after, h]

section

variable (src : Source)

mutual

/-- The operands of `\skip` that are met while an expression is read. -/
def expressionSkips : Nat → State → List Pattern
  | 0, _ => []
  | fuel + 1, s =>
    sequenceSkips fuel s ++ after (sequence src fuel) s fun _ s => alternativesSkips fuel s

def alternativesSkips : Nat → State → List Pattern
  | 0, _ => []
  | fuel + 1, s => after ahead s fun t s =>
    match t with
    | '/' :: t =>
      let s := { s with rest := t }
      sequenceSkips fuel s ++ after (sequence src fuel) s fun _ s => alternativesSkips fuel s
    | _ => []

def sequenceSkips : Nat → State → List Pattern
  | 0, _ => []
  | fuel + 1, s => itemsSkips fuel s

def itemsSkips : Nat → State → List Pattern
  | 0, _ => []
  | fuel + 1, s => after ahead s fun t s =>
    match t with
    | [] => []
    | c :: t =>
      if c = '/' ∨ c = ')' ∨ c = '}' then []
      else if s.inGrammar && (Token.header? (c :: t)).isSome then []
      else prefixedSkips fuel s ++ after (prefixed src fuel) s fun _ s => itemsSkips fuel s

def prefixedSkips : Nat → State → List Pattern
  | 0, _ => []
  | fuel + 1, s => after ahead s fun t s =>
    match t with
    | '&' :: t => prefixedSkips fuel { s with rest := t }
    | '!' :: t => prefixedSkips fuel { s with rest := t }
    | '@' :: t => prefixedSkips fuel { s with rest := t }
    | '{' :: '@' :: '}' :: t =>
      after (openCapture src) s fun _ s => prefixedSkips fuel { s with rest := t }
    | _ => primarySkips fuel s

def primarySkips : Nat → State → List Pattern
  | 0, _ => []
  | fuel + 1, s => after ahead s fun t s =>
    match t with
    | [] => []
    | c :: t =>
      if c = '(' then expressionSkips fuel { s with rest := t }
      else if c = '{' then after (openCapture src) s fun _ s =>
        expressionSkips fuel { s with rest := t }
      else if c = '\\' ∧ t.takeWhile Token.isLetter = Text.ofString "skip" then
        let s := { s with rest := t.drop 4 }
        prefixedSkips fuel s ++ after (prefixed src fuel) s fun p _ => [p]
      else []

end

def rulesSkips : Nat → State → List Pattern
  | 0, _ => []
  | room + 1, s => after ahead s fun t s =>
    match Token.header? t with
    | none => []
    | some (name, rest) =>
      after (ruleNamed src name t) s fun r s => after (setPlace r (src.place t)) s fun _ s =>
      after (advance rest) s fun _ s =>
        expressionSkips src (fuel rest) s ++ after (expression src (fuel rest)) s fun p s =>
          after (declare r (src.place t) p) s fun _ s =>
            after freshId s fun _ s => rulesSkips room s

/-- The operands of `\skip` in a whole text. -/
def skips (store : Store) : List Pattern :=
  after ahead (start src store) fun t s =>
    if (Token.header? t).isSome then rulesSkips src (src.text.length + 1)
      { s with inGrammar := true }
    else expressionSkips src (fuel t) s

end

variable {strict : Prop} {s₀ s s' s'' : State} {a b ms pre : List Mark} {p : Pattern}

/-- The pattern holds no captures and, if `strict`, no back references either. -/
structure Blank (strict : Prop) (p : Pattern) : Prop where
  captureless : captured p.marks = []
  markless : strict → p.marks = []

/-- From one state to the other, captures got the next slots in the order of the marks. If `strict`,
each back reference is to a slot that was given out before it. -/
structure Numbers (strict : Prop) (s : State) (ms : List Mark) (s' : State) : Prop where
  fresh : s.store.fresh ≤ s'.store.fresh
  kept : ∀ id < s.store.fresh, s'.store.slot? id = s.store.slot? id
  opened : s'.opened = s.opened + (order ms).length
  made : ∀ id ∈ captured ms, s.store.fresh ≤ id ∧ id < s'.store.fresh
  given : ∀ (k id : Nat), (order ms)[k]? = some id → s'.store.slot? id = some (s.opened + k)
  backed : strict → Backed s.opened ms

namespace Numbers

theorem refl (s : State) : Numbers strict s [] s :=
  ⟨Nat.le_refl _, fun _ _ => rfl, rfl, by simp, by simp, fun _ => backed_nil _⟩

theorem trans (h : Numbers strict s a s') (h' : Numbers strict s' b s'') :
    Numbers strict s (a ++ b) s'' := by
  have apart (id : Nat) (hb : id ∈ captured b) (ha : id ∈ captured a) : False := by
    have := (h.made id ha).2
    have := (h'.made id hb).1
    omega
  have horder := order_append_of_apart apart
  refine ⟨Nat.le_trans h.fresh h'.fresh, fun id hid => ?_, ?_, fun id hid => ?_,
    fun k id hk => ?_, fun hs => ?_⟩
  · rw [h'.kept id (Nat.lt_of_lt_of_le hid h.fresh), h.kept id hid]
  · rw [horder, List.length_append, h'.opened, h.opened]
    omega
  · rcases List.mem_append.1 (captured_append a b ▸ hid) with ha | hb
    · exact ⟨(h.made id ha).1, Nat.lt_of_lt_of_le (h.made id ha).2 h'.fresh⟩
    · exact ⟨Nat.le_trans h.fresh (h'.made id hb).1, (h'.made id hb).2⟩
  · rw [horder, List.getElem?_append] at hk
    split at hk
    · have hmem := mem_order.1 (List.mem_of_getElem? hk)
      rw [h'.kept id (h.made id hmem).2, h.given k id hk]
    · have := h.opened
      rw [h'.given _ id hk]
      congr 1
      omega
  · exact (h.backed hs).append_of_apart (h.opened ▸ h'.backed hs) apart

theorem congr (h : Numbers strict s a s') (ho : order b = order a)
    (hb : strict → Backed s.opened b) : Numbers strict s b s' where
  fresh := h.fresh
  kept := h.kept
  opened := ho ▸ h.opened
  made id hid := h.made id (mem_order.1 (ho ▸ mem_order.2 hid))
  given := ho ▸ h.given
  backed := hb

theorem again (h : Numbers strict s (a ++ b) s') : Numbers strict s (a ++ (b ++ b)) s' := by
  refine h.congr ?_ fun hs => (h.backed hs).again
  rw [← List.append_assoc]
  exact order_append_of_within fun id hid => by simp [hid]

theorem skipping (h : Numbers strict s (a ++ b) s') (hp : Blank strict p) :
    Numbers strict s (a ++ (p.marks ++ b)) s' := by
  refine h.congr ?_ fun hs => by simpa [hp.markless hs] using h.backed hs
  simp [order, hp.captureless]

theorem dropping (h : Numbers strict s (a ++ p.marks) s') (hp : Blank strict p) :
    Numbers strict s a s' := by
  refine h.congr ?_ fun hs => (h.backed hs).left
  simp [order, hp.captureless]

theorem references (h : Numbers strict s pre s') (hn : captured ms = [])
    (hk : ∀ k, .reference k ∈ ms → k < s'.opened) : Numbers strict s (pre ++ ms) s' := by
  have horder : order ms = [] := by simp [order, hn]
  refine h.trans
    ⟨Nat.le_refl _, fun _ _ => rfl, by simp [horder], by simp [hn], by simp [horder], fun _ => ?_⟩
  exact backed_of_references hk

/-- A capture takes the slot that is open before what it holds, and its identity after that. -/
theorem capture {id : Nat} (h : Numbers strict { s with opened := s.opened + 1 } ms s')
    (hc : captureId s.opened s' = .ok id s'') : Numbers strict s (.capture id :: ms) s'' := by
  cases hc
  have hnew : s'.store.fresh ∉ captured ms := fun hid => absurd (h.made _ hid).2 (Nat.lt_irrefl _)
  have horder := order_cons_of_new hnew
  have hold := (grows_captureId s' s.opened).slots
  have hfresh := h.fresh
  refine ⟨Nat.le_succ_of_le hfresh, fun id hid => ?_, ?_, fun id hid => ?_,
    fun k id hk => ?_, fun hs => ?_⟩
  · exact (hold id (Nat.lt_of_lt_of_le hid hfresh)).trans (h.kept id hid)
  · have := h.opened
    rw [horder, List.length_cons]
    simp only at this ⊢
    omega
  · rcases List.mem_cons.1 hid with rfl | hid
    · exact ⟨hfresh, Nat.lt_succ_self _⟩
    · exact ⟨(h.made id hid).1, Nat.lt_succ_of_lt (h.made id hid).2⟩
  · rw [horder] at hk
    cases k with
    | zero =>
      cases hk
      simp [Store.slot?, Store.setSlot]
    | succ k =>
      have hmem := mem_order.1 (List.mem_of_getElem? hk)
      rw [hold id (h.made id hmem).2, h.given k id hk]
      simp only [Option.some.injEq]
      omega
  · refine Backed.append_of_apart (a := [.capture s'.store.fresh]) ?_ (h.backed hs) fun id hid => ?_
    · exact backed_of_references (by simp)
    · rintro (_ | ⟨_, ⟨⟩⟩)
      exact hnew hid

end Numbers

theorem captured_of_normal {A : Allowed} (hA : ∀ id, ¬ A.capture id) (h : p.Normal A) :
    captured p.marks = [] := by
  have each {ps : List Pattern} (hps : ∀ q ∈ ps, captured q.marks = []) :
      captured (Pattern.marksEach ps) = [] := by
    induction ps with
    | nil => rfl
    | cons q ps ih => simp [Pattern.marksEach, hps q, ih fun r hr => hps r (by simp [hr])]
  induction h with
  | @node p here below ih =>
    cases p with
    | capture id q => exact absurd here (hA id)
    | capturedSearch id q => exact absurd here (hA id)
    | sequence id ps => exact each ih
    | choice id ps => exact each ih
    | star id q => exact ih q (by simp [Pattern.children])
    | option id q => exact ih q (by simp [Pattern.children])
    | peek id q => exact ih q (by simp [Pattern.children])
    | not id q => exact ih q (by simp [Pattern.children])
    | search id q => exact ih q (by simp [Pattern.children])
    | _ => rfl

/-- What reading keeps: what is skipped is blank, and the rules with a body refer to slots that are
given out. -/
structure Apt (strict : Prop) (s : State) : Prop where
  skip : Blank strict s.skip
  bodies : ∀ r ∈ s.names.map Prod.snd, ∀ p, bodyOf s r = some p →
    p.Normal .all ∧ ∀ k, .reference k ∈ p.marks → k < s.opened

structure Quiet (s s' : State) : Prop extends Grows s s' where
  opened : s'.opened = s.opened
  skip : s'.skip = s.skip
  names : ∀ r ∈ s'.names.map Prod.snd, r ∈ s.names.map Prod.snd ∨ bodyOf s' r = none

theorem Apt.grow (h : Apt strict s) (hk : Blank strict s'.skip) (ho : s.opened ≤ s'.opened)
    (hb : ∀ r, bodyOf s' r = bodyOf s r)
    (hn : ∀ r ∈ s'.names.map Prod.snd, r ∈ s.names.map Prod.snd ∨ bodyOf s' r = none) :
    Apt strict s' := by
  refine ⟨hk, fun r hr p hp => ?_⟩
  rcases hn r hr with hr | hnone
  · obtain ⟨hnormal, hrefs⟩ := h.bodies r hr p (hb r ▸ hp)
    exact ⟨hnormal, fun k hk => Nat.lt_of_lt_of_le (hrefs k hk) ho⟩
  · rw [hnone] at hp
    cases hp

theorem Apt.quietly (h : Apt strict s) (hq : Quiet s s') : Apt strict s' :=
  h.grow (hq.skip ▸ h.skip) (Nat.le_of_eq hq.opened.symm) hq.bodies hq.names

theorem Quiet.numbers (h : Quiet s s') : Numbers strict s [] s' :=
  ⟨h.fresh, h.slots, h.opened, by simp, by simp, fun _ => backed_nil _⟩

theorem Quiet.trans (h : Quiet s s') (h' : Quiet s' s'') : Quiet s s'' := by
  refine ⟨h.toGrows.trans h'.toGrows, h'.opened.trans h.opened, h'.skip.trans h.skip,
    fun r hr => ?_⟩
  rcases h'.names r hr with hr | hnone
  · exact (h.names r hr).imp_right fun hnone => (h'.bodies r).trans hnone
  · exact .inr hnone

theorem Numbers.quietly (h : Numbers strict s ms s') (hq : Quiet s' s'') :
    Numbers strict s ms s'' := by
  simpa using h.trans hq.numbers

theorem quiet_of_same (hs : s'.store = s.store) (ho : s'.opened = s.opened) (hk : s'.skip = s.skip)
    (hn : s'.names = s.names) : Quiet s s' :=
  ⟨.of_store hs, ho, hk, fun _ hr => .inl (hn ▸ hr)⟩

theorem quiet_ahead {t : Text} (h : ahead s = .ok t s') : Quiet s s' := by
  cases h
  exact quiet_of_same rfl rfl rfl rfl

theorem quiet_advance {rest : Text} (h : advance rest s = .ok () s') : Quiet s s' := by
  cases h
  exact quiet_of_same rfl rfl rfl rfl

theorem quiet_freshId {id : Nat} (h : freshId s = .ok id s') : Quiet s s' := by
  cases h
  exact ⟨grows_fresh s, rfl, rfl, fun _ hr => .inl hr⟩

/-- The reader keeps the state apt. It is told what was read so far since another state, and tells
what was read when it is done. -/
def Goes (strict : Prop) (s₀ : State) (pre : List Mark) (x : Reader α) (s : State)
    (read : α → List Mark) : Prop :=
  Apt strict s → Numbers strict s₀ pre s → ∀ a s', x s = .ok a s' →
    Apt strict s' ∧ (∀ r, bodyOf s' r = bodyOf s r) ∧ Numbers strict s₀ (read a) s'

theorem goes_bind {x : Reader α} {f : α → Reader β} {l : α → List Mark} {l' : β → List Mark}
    (hx : Goes strict s₀ pre x s l)
    (hf : ∀ a s', x s = .ok a s' → Goes strict s₀ (l a) (f a) s' l') :
    Goes strict s₀ pre (x >>= f) s l' := by
  intro hapt hn b s'' h
  obtain ⟨a, s', ha, hb⟩ := ok_of_bind h
  obtain ⟨hapt', hbodies, hn'⟩ := hx hapt hn a s' ha
  obtain ⟨hapt'', hbodies', hn''⟩ := hf a s' ha hapt' hn' b s'' hb
  exact ⟨hapt'', fun r => (hbodies' r).trans (hbodies r), hn''⟩

theorem goes_pure {a : α} {l : α → List Mark} (h : l a = pre) :
    Goes strict s₀ pre (pure a) s l := by
  intro hapt hn b s' hb
  cases hb
  exact ⟨hapt, fun _ => rfl, h ▸ hn⟩

theorem goes_failAt {src : Source} {rest : Text} {m : Mistake} {l : α → List Mark} :
    Goes strict s₀ pre (failAt src rest m) s l :=
  fun _ _ _ _ h => by cases h

theorem goes_fail {src : Source} {m : Mistake} {l : α → List Mark} :
    Goes strict s₀ pre (fail src m) s l :=
  fun _ _ _ _ h => by cases h

theorem goes_tooDeep {l : α → List Mark} : Goes strict s₀ pre tooDeep s l :=
  fun _ _ _ _ h => by cases h

theorem goes_ite {c : Prop} [Decidable c] {x y : Reader α} {l : α → List Mark}
    (hx : c → Goes strict s₀ pre x s l) (hy : ¬ c → Goes strict s₀ pre y s l) :
    Goes strict s₀ pre (if c then x else y) s l := by
  split
  · next h => exact hx h
  · next h => exact hy h

theorem goes_quiet {x : Reader α} (h : ∀ a s', x s = .ok a s' → Quiet s s') :
    Goes strict s₀ pre x s fun _ => pre := by
  intro hapt hn a s' ha
  have hq := h a s' ha
  exact ⟨hapt.quietly hq, hq.bodies, hn.quietly hq⟩

theorem goes_advance (rest : Text) : Goes strict s₀ pre (advance rest) s fun _ => pre :=
  goes_quiet fun _ _ => quiet_advance

theorem goes_ahead : Goes strict s₀ pre ahead s fun _ => pre :=
  goes_quiet fun _ _ => quiet_ahead

theorem goes_get : Goes strict s₀ pre (get : Reader State) s fun _ => pre :=
  goes_quiet fun _ _ h => by cases h; exact quiet_of_same rfl rfl rfl rfl

theorem goes_sound {e : Except Fault α} : Goes strict s₀ pre (sound e) s fun _ => pre := by
  refine goes_quiet fun a s' h => ?_
  cases e with
  | ok a => cases h; exact quiet_of_same rfl rfl rfl rfl
  | error f => cases h

theorem goes_freshId : Goes strict s₀ pre freshId s fun _ => pre :=
  goes_quiet fun _ _ => quiet_freshId

theorem goes_read {src : Source} {token : Except Token.Trouble (α × Text)} :
    Goes strict s₀ pre (read src token) s fun _ => pre := by
  unfold read
  split
  · exact goes_bind (goes_advance _) fun _ _ _ => goes_pure rfl
  · exact goes_failAt

theorem goes_close {src : Source} {wanted opener : Nat} {start : Text} :
    Goes strict s₀ pre (close src wanted opener start) s fun _ => pre := by
  refine goes_bind goes_ahead fun t s₁ _ => ?_
  split
  · exact goes_failAt
  · exact goes_ite (fun _ => goes_advance _) fun _ => goes_fail

theorem goes_made {k : Nat → Pattern} {l : Pattern → List Mark} (h : ∀ id, l (k id) = pre) :
    Goes strict s₀ pre (do return k (← freshId)) s l :=
  goes_bind goes_freshId fun id _ _ => goes_pure (h id)

theorem goes_token : Goes strict s₀ (pre ++ p.marks) (token p) s fun q => pre ++ q.marks := by
  intro hapt hn q s' h
  by_cases hs : s.skip = .empty
  · rw [token_of_empty hs] at h
    cases h
    exact ⟨hapt, fun _ => rfl, hn⟩
  · have hq : Quiet s { s with store := { s.store with fresh := s.store.fresh + 1 } } :=
      quiet_freshId rfl
    rw [token_of_ne_empty hs] at h
    cases h
    refine ⟨hapt.quietly hq, fun _ => rfl, ?_⟩
    simpa using (hn.skipping hapt.skip).quietly hq

theorem goes_newToken {k : Nat → Pattern} (h : ∀ id, (k id).marks = []) :
    Goes strict s₀ pre (do token (k (← freshId))) s fun q => pre ++ q.marks := by
  refine goes_bind goes_freshId fun id s' _ => ?_
  have ht : Goes strict s₀ (pre ++ (k id).marks) (token (k id)) s' fun q => pre ++ q.marks :=
    goes_token
  rwa [h id, List.append_nil] at ht

variable {src : Source}

theorem goes_literal {how : Comparison} {verbatim : Bool} {t : Text} :
    Goes strict s₀ pre (literal src how verbatim t) s fun q => pre ++ q.marks :=
  goes_bind goes_read fun body _ _ => goes_newToken fun id => Pattern.marks_text id how body

theorem goes_characterClass {start t : Text} :
    Goes strict s₀ pre (characterClass src start t) s fun q => pre ++ q.marks :=
  goes_bind goes_read fun _ _ _ => goes_newToken fun _ => rfl

theorem goes_backReference {how : Comparison} {start : Text} :
    Goes strict s₀ pre (backReference src how start) s fun q => pre ++ q.marks := by
  simp only [backReference]
  refine goes_ite (fun _ => goes_failAt) fun _ => ?_
  refine goes_bind goes_sound fun number s₁ _ => ?_
  refine goes_bind (goes_advance _) fun _ s₂ _ => ?_
  refine goes_bind goes_get fun _ s₃ h => ?_
  cases h
  refine goes_ite (fun hn => ?_) fun _ => goes_failAt
  intro hapt hnum q s' h
  obtain ⟨hapt', hbodies, hnum'⟩ := goes_freshId hapt hnum _ _ (by rfl)
  cases h
  refine ⟨hapt', hbodies, hnum'.references rfl fun k hk => ?_⟩
  simp only [Pattern.marks, List.mem_singleton, Mark.reference.injEq] at hk
  simp only
  omega

theorem quiet_ruleNamed {name start : Text} {r : Nat} (h : ruleNamed src name start s = .ok r s') :
    Quiet s s' ∧ r ∈ s'.names.map Prod.snd := by
  cases hl : s.names.lookup name with
  | some k =>
    rw [Setting.ruleNamed_known hl start] at h
    cases h
    exact ⟨quiet_of_same rfl rfl rfl rfl, mem_of_lookup hl⟩
  | none =>
    rw [Setting.ruleNamed_new hl start] at h
    cases h
    refine ⟨⟨grows_naming s _ _, rfl, rfl, fun r hr => ?_⟩, by simp [State.naming]⟩
    simp only [State.naming, List.map_append, List.map_cons, List.map_nil, List.mem_append,
      List.mem_singleton] at hr
    refine hr.imp_right fun hr => ?_
    rw [bodyOf_naming, hr]
    simp [bodyOf]

theorem quiet_changing (s : State) (r : Nat) {f : Rule → Rule} (hf : Outer f) :
    Quiet s (s.changing r f) :=
  ⟨grows_changing s r hf, rfl, rfl, fun _ hr => .inl hr⟩

theorem quiet_markUsed {r : Nat} (h : markUsed r s = .ok () s') :
    Quiet s s' ∧ s'.names = s.names := by
  cases h
  exact ⟨quiet_changing s r ⟨fun _ => rfl, fun _ => rfl, fun _ => rfl, fun _ => rfl⟩, rfl⟩

theorem quiet_setPlace {r : Nat} {place : Position} (h : setPlace r place s = .ok () s') :
    Quiet s s' := by
  cases h
  exact quiet_changing s r ⟨fun _ => rfl, fun _ => rfl, fun _ => rfl, fun _ => rfl⟩

/-- The body of a rule in place of its call: no captures, and only references to slots given out. -/
theorem Numbers.inlined (h : Numbers strict s₀ pre s) (hapt : Apt strict s) {r : Nat}
    (hr : r ∈ s.names.map Prod.snd) {limit : Datum} (hi : inlined? s.store limit r = .ok (some p)) :
    Numbers strict s₀ (pre ++ p.marks) s := by
  obtain ⟨rule, hrule, hbody⟩ := rule_of_body? (body_of_inlined hi)
  obtain ⟨hnormal, hrefs⟩ := hapt.bodies r hr p (by simp [bodyOf, hrule, hbody])
  exact h.references (captured_of_normal (fun _ h => h) (pure_of_inlined hi hnormal)) hrefs

theorem goes_reference {name start : Text} :
    Goes strict s₀ pre (reference src name start) s fun q => pre ++ q.marks := by
  refine goes_bind goes_get fun _ s₁ h => ?_
  cases h
  refine goes_ite (fun _ => ?_) fun _ => goes_failAt
  refine goes_bind (goes_quiet fun _ _ h => (quiet_ruleNamed h).1) fun r s₂ hr => ?_
  refine goes_bind (goes_quiet fun _ _ h => (quiet_markUsed h).1) fun _ s₃ hu => ?_
  refine goes_bind goes_get fun _ s₄ h => ?_
  cases h
  have hmem : r ∈ s₃.names.map Prod.snd := (quiet_markUsed hu).2 ▸ (quiet_ruleNamed hr).2
  intro hapt hnum q s' h
  obtain ⟨o, s₄, ho, h⟩ := ok_of_bind h
  cases hi : inlined? s₃.store src.inline r with
  | error f => rw [hi] at ho; cases ho
  | ok o' =>
    rw [hi] at ho
    cases ho
    cases o with
    | some body =>
      cases h
      have hq : Quiet s₃ { s₃ with log := .inlining name :: s₃.log } :=
        quiet_of_same rfl rfl rfl rfl
      exact ⟨hapt.quietly hq, fun _ => rfl, (hnum.inlined hapt hmem hi).quietly hq⟩
    | none =>
      have hcall : Goes strict s₀ pre (do return Pattern.call (← freshId) r) s₃
          fun q => pre ++ q.marks :=
        goes_made fun _ => by simp [Pattern.marks]
      exact hcall hapt hnum q s' h

theorem goes_suffixes (room : Nat) :
    Goes strict s₀ (pre ++ p.marks) (suffixes room p) s fun q => pre ++ q.marks := by
  induction room generalizing p s with
  | zero => exact goes_pure rfl
  | succ room ih =>
    refine goes_bind goes_ahead fun t s₁ _ => ?_
    split
    · refine goes_ite (fun _ => ?_) fun _ => goes_ite (fun _ => ?_) fun _ =>
        goes_ite (fun _ => ?_) fun _ => goes_pure rfl
      · refine goes_bind (goes_advance _) fun _ s₂ _ => goes_bind goes_freshId fun id s₃ _ => ?_
        simpa only [Pattern.marks_opt] using ih (p := .opt id p)
      · refine goes_bind (goes_advance _) fun _ s₂ _ => goes_bind goes_freshId fun id s₃ _ => ?_
        simpa only [Pattern.marks_repeated] using ih (p := .repeated id p)
      · refine goes_bind (goes_advance _) fun _ s₂ _ => goes_bind goes_freshId fun starId s₃ _ => ?_
        refine goes_bind goes_freshId fun id s₄ _ => ?_
        -- The operand now stands in the tree twice.
        intro hapt hnum
        exact ih hapt (by simpa using hnum.again)
    · exact goes_pure rfl

theorem goes_named {name : Text} :
    Goes strict s₀ pre (named? name) s fun o => pre ++ o.elim [] Pattern.marks := by
  have simple {p : Pattern} (h : p.marks = []) : Goes strict s₀ pre (pure (some p)) s
      fun o => pre ++ o.elim [] Pattern.marks :=
    goes_pure (by simp [h])
  unfold named?
  split
  · exact simple rfl
  · split
    · next hset => exact simple (Pattern.marks_namedSet hset)
    · refine goes_ite (fun _ => simple rfl) fun _ => ?_
      refine goes_ite (fun _ => simple rfl) fun _ => ?_
      refine goes_ite (fun _ => simple rfl) fun _ => ?_
      refine goes_ite (fun _ => simple rfl) fun _ => ?_
      refine goes_ite (fun _ => simple rfl) fun _ => ?_
      refine goes_ite (fun _ => ?_) fun _ => goes_pure (by simp)
      refine goes_bind goes_freshId fun setId s₁ _ => goes_bind goes_freshId fun starId s₂ _ => ?_
      exact goes_bind goes_freshId fun id s₃ _ => goes_pure (by simp)

theorem goes_builtin {start t : Text} :
    Goes strict s₀ pre (builtin src start t) s fun q => pre ++ q.marks := by
  refine goes_bind goes_named fun o s₁ _ => ?_
  split
  · exact goes_bind (goes_advance _) fun _ s₂ _ => goes_token
  · refine goes_ite (fun _ => goes_failAt) fun _ => ?_
    split
    · exact goes_failAt
    · rw [Option.elim_none, List.append_nil]
      exact goes_bind (goes_advance _) fun _ s₂ _ => goes_newToken fun _ => rfl

theorem goes_setSkip (hp : Blank strict p) :
    Goes strict s₀ (pre ++ p.marks) (modify fun s => { s with skip := p } : Reader PUnit) s
      fun _ => pre := by
  intro hapt hnum _ s' h
  cases h
  refine ⟨hapt.grow hp (Nat.le_refl _) (fun _ => rfl) fun _ hr => .inl hr, fun _ => rfl, ?_⟩
  have hdrop := hnum.dropping hp
  exact ⟨hdrop.fresh, hdrop.kept, hdrop.opened, hdrop.made, hdrop.given, hdrop.backed⟩

def Marks (strict : Prop) (x : Reader α) (s : State) (marks : α → List Mark) : Prop :=
  ∀ s₀ pre, Goes strict s₀ pre x s fun a => pre ++ marks a

abbrev marksOf (ps : List Pattern) : List Mark :=
  ps.flatMap Pattern.marks

theorem goes_capturing {x : Reader Pattern} {f : Nat → Pattern → Reader Pattern}
    (hx : openCapture src s = .ok s.opened { s with opened := s.opened + 1 } →
      Marks strict x { s with opened := s.opened + 1 } Pattern.marks)
    (hf : ∀ id p s', Goes strict s₀ (pre ++ .capture id :: p.marks) (f id p) s'
      fun q => pre ++ q.marks) :
    Goes strict s₀ pre (do let slot ← openCapture src; let p ← x; f (← captureId slot) p) s
      fun q => pre ++ q.marks := by
  intro hapt hnum q s' h
  obtain ⟨slot, s₁, ho, h⟩ := ok_of_bind h
  obtain ⟨rfl, rfl⟩ := openCapture_eq ho
  obtain ⟨p, s₂, hp, h⟩ := ok_of_bind h
  obtain ⟨id, s₃, hid, h⟩ := ok_of_bind h
  have hapt₁ : Apt strict { s with opened := s.opened + 1 } :=
    hapt.grow hapt.skip (Nat.le_succ _) (fun _ => rfl) fun _ hr => .inl hr
  obtain ⟨hapt₂, hbodies₂, hnum₂⟩ := hx ho _ _ hapt₁ (.refl _) p s₂ hp
  have hnum₃ : Numbers strict s (.capture id :: p.marks) s₃ := hnum₂.capture hid
  have hapt₃ : Apt strict s₃ := by
    cases hid
    exact hapt₂.grow hapt₂.skip (Nat.le_refl _) (fun _ => rfl) fun _ hr => .inl hr
  obtain ⟨hapt', hbodies', hnum'⟩ := hf id p s₃ hapt₃ (hnum.trans hnum₃) q s' h
  refine ⟨hapt', fun r => (hbodies' r).trans ?_, hnum'⟩
  cases hid
  exact hbodies₂ r

/-- The readers that call each other, with the given fuel, where all that they make skipped is
blank. -/
structure ReadsMarks (strict : Prop) (src : Source) (fuel : Nat) : Prop where
  expression : ∀ s, (∀ q ∈ expressionSkips src fuel s, Blank strict q) →
    Marks strict (expression src fuel) s Pattern.marks
  alternatives : ∀ s, (∀ q ∈ alternativesSkips src fuel s, Blank strict q) →
    Marks strict (alternatives src fuel) s marksOf
  sequence : ∀ s, (∀ q ∈ sequenceSkips src fuel s, Blank strict q) →
    Marks strict (sequence src fuel) s Pattern.marks
  items : ∀ s, (∀ q ∈ itemsSkips src fuel s, Blank strict q) →
    Marks strict (items src fuel) s marksOf
  prefixed : ∀ s, (∀ q ∈ prefixedSkips src fuel s, Blank strict q) →
    Marks strict (prefixed src fuel) s Pattern.marks
  primary : ∀ s, (∀ q ∈ primarySkips src fuel s, Blank strict q) →
    Marks strict (primary src fuel) s Pattern.marks

theorem goes_cons {x : Reader (List Pattern)} (h : Marks strict x s marksOf) :
    Goes strict s₀ (pre ++ p.marks) (do return p :: (← x)) s fun ps => pre ++ marksOf ps :=
  goes_bind (h s₀ _) fun _ _ _ => goes_pure (by simp [marksOf])

section

variable (fuel : Nat) (ih : ReadsMarks strict src fuel)
include ih

theorem marks_expression (h : ∀ q ∈ expressionSkips src (fuel + 1) s, Blank strict q) :
    Marks strict (expression src (fuel + 1)) s Pattern.marks := by
  intro s₀ pre
  simp only [expressionSkips, List.mem_append] at h
  refine goes_bind (ih.sequence s (fun q hq => h q (.inl hq)) s₀ pre) fun p s₁ h₁ => ?_
  rw [after_eq h₁] at h
  refine goes_bind (ih.alternatives s₁ (fun q hq => h q (.inr hq)) s₀ _) fun ps s₂ _ => ?_
  exact goes_made fun id => by simp [marksOf]

theorem marks_alternatives (h : ∀ q ∈ alternativesSkips src (fuel + 1) s, Blank strict q) :
    Marks strict (alternatives src (fuel + 1)) s marksOf := by
  intro s₀ pre
  simp only [alternativesSkips] at h
  refine goes_bind goes_ahead fun t s₁ h₁ => ?_
  rw [after_eq h₁] at h
  split
  · simp only [List.mem_append] at h
    refine goes_bind (goes_advance _) fun _ s₂ h₂ => ?_
    cases h₂
    refine goes_bind (ih.sequence _ (fun q hq => h q (.inl hq)) s₀ pre) fun p s₃ h₃ => ?_
    rw [after_eq h₃] at h
    exact goes_cons (ih.alternatives s₃ fun q hq => h q (.inr hq))
  · exact goes_pure (by simp [marksOf])

theorem marks_sequence (h : ∀ q ∈ sequenceSkips src (fuel + 1) s, Blank strict q) :
    Marks strict (sequence src (fuel + 1)) s Pattern.marks := by
  intro s₀ pre
  refine goes_bind (ih.items s h s₀ pre) fun ps s₁ _ => ?_
  exact goes_made fun id => by simp [marksOf]

theorem marks_items (h : ∀ q ∈ itemsSkips src (fuel + 1) s, Blank strict q) :
    Marks strict (items src (fuel + 1)) s marksOf := by
  intro s₀ pre
  have none {s : State} : Goes strict s₀ pre (pure []) s fun ps => pre ++ marksOf ps :=
    goes_pure (by simp [marksOf])
  simp only [itemsSkips] at h
  refine goes_bind goes_ahead fun t s₁ h₁ => ?_
  rw [after_eq h₁] at h
  split
  · exact none
  · refine goes_ite (fun _ => none) fun hend => ?_
    refine goes_bind goes_get fun _ s₂ h₂ => ?_
    cases h₂
    refine goes_ite (fun _ => none) fun hhead => ?_
    simp only [hend, hhead, if_false, Bool.false_eq_true, List.mem_append] at h
    refine goes_bind (ih.prefixed s₁ (fun q hq => h q (.inl hq)) s₀ pre) fun p s₂ h₂ => ?_
    rw [after_eq h₂] at h
    exact goes_cons (ih.items s₂ fun q hq => h q (.inr hq))

theorem marks_prefixed (h : ∀ q ∈ prefixedSkips src (fuel + 1) s, Blank strict q) :
    Marks strict (prefixed src (fuel + 1)) s Pattern.marks := by
  intro s₀ pre
  have wrapped {t : Text} {wrap : Nat → Pattern → Pattern} {s : State}
      (hw : ∀ id p, (wrap id p).marks = p.marks)
      (h : ∀ q ∈ prefixedSkips src fuel { s with rest := t }, Blank strict q) :
      Goes strict s₀ pre (do advance t; let p ← prefixed src fuel; return wrap (← freshId) p) s
        fun q => pre ++ q.marks := by
    refine goes_bind (goes_advance _) fun _ s₁ h₁ => ?_
    cases h₁
    refine goes_bind (ih.prefixed _ h s₀ pre) fun p s₂ _ => ?_
    exact goes_made fun id => by rw [hw]
  simp only [prefixedSkips] at h
  refine goes_bind goes_ahead fun t s₁ h₁ => ?_
  rw [after_eq h₁] at h
  split
  · exact wrapped (fun _ _ => rfl) h
  · exact wrapped (fun _ _ => rfl) h
  · exact wrapped (fun _ _ => rfl) h
  · next t =>
    have hcapture : Goes strict s₀ pre (do
        let slot ← openCapture src
        let p ← (do advance t; prefixed src fuel)
        token (.capturedSearch (← captureId slot) p)) s₁ fun q => pre ++ q.marks := by
      refine goes_capturing (fun ho s₀ pre => ?_) fun id p s' =>
        goes_token (p := .capturedSearch id p)
      simp only [after_eq ho] at h
      refine goes_bind (goes_advance _) fun _ s₂ h₂ => ?_
      cases h₂
      exact ih.prefixed _ h s₀ pre
    simpa only [bind_assoc] using hcapture
  · next hpeek hnot hsearch hcapture =>
    have hprimary : ∀ q ∈ primarySkips src fuel s₁, Blank strict q := by
      split at h
      · exact absurd rfl (hpeek _)
      · exact absurd rfl (hnot _)
      · exact absurd rfl (hsearch _)
      · exact absurd rfl (hcapture _)
      · exact h
    refine goes_bind (ih.primary s₁ hprimary s₀ pre) fun p s₂ _ => ?_
    exact goes_bind goes_get fun _ s₃ _ => goes_suffixes _

theorem marks_primary (h : ∀ q ∈ primarySkips src (fuel + 1) s, Blank strict q) :
    Marks strict (primary src (fuel + 1)) s Pattern.marks := by
  intro s₀ pre
  have simple {p : Pattern} {t : Text} {s : State} (hp : p.marks = []) :
      Goes strict s₀ pre (do advance t; token p) s fun q => pre ++ q.marks := by
    refine goes_bind (goes_advance _) fun _ s₁ _ => ?_
    have ht : Goes strict s₀ (pre ++ p.marks) (token p) s₁ fun q => pre ++ q.marks := goes_token
    rwa [hp, List.append_nil] at ht
  have reference {how : Comparison} {t : Text} {s : State} :
      Goes strict s₀ pre (do token (← backReference src how t)) s fun q => pre ++ q.marks :=
    goes_bind goes_backReference fun p s₁ _ => goes_token
  simp only [primarySkips] at h
  refine goes_bind goes_ahead fun t s₁ h₁ => ?_
  rw [after_eq h₁] at h
  split
  · exact goes_fail
  · next c t =>
    refine goes_ite (fun _ => goes_literal) fun _ => ?_
    refine goes_ite (fun _ => goes_literal) fun _ => ?_
    refine goes_ite (fun _ => goes_literal) fun _ => ?_
    refine goes_ite (fun _ => goes_literal) fun _ => ?_
    refine goes_ite (fun _ => reference) fun _ => ?_
    refine goes_ite (fun _ => reference) fun _ => ?_
    refine goes_ite (fun _ => goes_ite (fun _ => reference) fun _ => ?_) fun _ => ?_
    · exact goes_bind (goes_advance _) fun _ s₂ _ => goes_newToken fun _ => rfl
    refine goes_ite (fun hc => ?_) fun hgroup => ?_
    · simp only [hc, if_true] at h
      refine goes_bind (goes_advance _) fun _ s₂ h₂ => ?_
      cases h₂
      refine goes_bind (ih.expression _ h s₀ pre) fun p s₃ _ => ?_
      exact goes_bind goes_close fun _ s₄ _ => goes_pure rfl
    refine goes_ite (fun hc => ?_) fun hcapture => ?_
    · have hcapture : Goes strict s₀ pre (do
          let slot ← openCapture src
          let p ← (do advance t; let p ← expression src fuel; close src '}' '{' (c :: t); return p)
          return Pattern.capture (← captureId slot) p) s₁ fun q => pre ++ q.marks := by
        refine goes_capturing (fun ho s₀ pre => ?_) fun id p s' => goes_pure rfl
        simp only [if_neg hgroup, if_pos hc, after_eq ho] at h
        refine goes_bind (goes_advance _) fun _ s₂ h₂ => ?_
        cases h₂
        refine goes_bind (ih.expression _ h s₀ pre) fun p s₃ _ => ?_
        exact goes_bind goes_close fun _ s₄ _ => goes_pure rfl
      simpa only [bind_assoc, pure_bind] using hcapture
    refine goes_ite (fun _ => goes_characterClass) fun _ => ?_
    refine goes_ite (fun _ => simple rfl) fun _ => ?_
    refine goes_ite (fun _ => simple rfl) fun _ => ?_
    refine goes_ite (fun _ => simple rfl) fun _ => ?_
    refine goes_ite (fun hc => goes_ite (fun hname => ?_) fun _ => goes_builtin) fun _ => ?_
    · simp only [if_neg hgroup, if_neg hcapture, if_pos (And.intro hc hname), List.mem_append] at h
      refine goes_bind (goes_advance _) fun _ s₂ h₂ => ?_
      cases h₂
      refine goes_bind (ih.prefixed _ (fun q hq => h q (.inl hq)) s₀ pre) fun p s₃ h₃ => ?_
      rw [after_eq h₃] at h
      exact goes_bind (goes_setSkip (h p (.inr (by simp)))) fun _ s₄ _ =>
        goes_pure (by simp [Pattern.marks])
    split
    · exact goes_bind (goes_advance _) fun _ s₂ _ => goes_reference
    · exact goes_ite (fun _ => goes_fail) fun _ => goes_fail

end

theorem readsMarks (strict : Prop) (src : Source) (fuel : Nat) : ReadsMarks strict src fuel := by
  induction fuel with
  | zero =>
    exact ⟨fun _ _ _ _ => goes_tooDeep, fun _ _ _ _ => goes_tooDeep, fun _ _ _ _ => goes_tooDeep,
      fun _ _ _ _ => goes_tooDeep, fun _ _ _ _ => goes_tooDeep, fun _ _ _ _ => goes_tooDeep⟩
  | succ fuel ih =>
    exact ⟨fun _ => marks_expression fuel ih, fun _ => marks_alternatives fuel ih,
      fun _ => marks_sequence fuel ih, fun _ => marks_items fuel ih,
      fun _ => marks_prefixed fuel ih, fun _ => marks_primary fuel ih⟩

variable {first most : Nat}

theorem bodyMarks_eq (s : State) (r : Nat) :
    s.store.bodyMarks r = (bodyOf s r).elim [] Pattern.marks := by
  cases h : s.store.rules[r]? <;> simp [Store.bodyMarks, Store.rule, bodyOf, h]

theorem reference_lt {A : Allowed} (h : p.Normal A) {k : Nat} (hk : .reference k ∈ p.marks) :
    A.backref k := by
  have each {ps : List Pattern} (hps : ∀ q ∈ ps, .reference k ∈ q.marks → A.backref k)
      (hk : .reference k ∈ Pattern.marksEach ps) : A.backref k := by
    obtain ⟨q, hq, hk⟩ := List.mem_flatMap.1 (Pattern.marksEach_eq_flatMap ps ▸ hk)
    exact hps q hq hk
  induction h with
  | @node p here below ih =>
    cases p with
    | backref id how slot =>
      cases List.mem_singleton.1 hk
      exact here
    | capture id q =>
      exact ih q (by simp [Pattern.children]) ((List.mem_cons.1 hk).resolve_left (by simp))
    | capturedSearch id q =>
      exact ih q (by simp [Pattern.children]) ((List.mem_cons.1 hk).resolve_left (by simp))
    | sequence id ps => exact each ih hk
    | choice id ps => exact each ih hk
    | star id q => exact ih q (by simp [Pattern.children]) hk
    | option id q => exact ih q (by simp [Pattern.children]) hk
    | peek id q => exact ih q (by simp [Pattern.children]) hk
    | not id q => exact ih q (by simp [Pattern.children]) hk
    | search id q => exact ih q (by simp [Pattern.children]) hk
    | _ => exact absurd hk List.not_mem_nil

theorem Sound.apt (hs : Sound first most s) (hk : Blank strict s.skip) : Apt strict s := by
  refine ⟨hk, fun r hr p hp => ?_⟩
  have htree := hs.body (hs.mem_names.1 hr) (Matching.body?_of_bodyOf hp)
  exact ⟨htree.mono (Allowed.less_all _), fun k hk => reference_lt htree hk⟩

theorem numbers_rule (hs : Sound first most s) (hk : Blank strict s.skip) {fuel : Nat}
    (hskips : ∀ q ∈ expressionSkips src fuel s, Blank strict q)
    (h : expression src fuel s = .ok p s') {r : Nat} (hr : r < s'.store.rules.size)
    (place : Position) {id : Nat} (hid : freshId (s'.changing r (declaring place p)) = .ok id s'') :
    Numbers strict s p.marks s'' ∧ Blank strict s''.skip ∧ bodyOf s'' r = some p ∧ ∀ r', r' ≠ r →
      bodyOf s'' r' = bodyOf s r' := by
  obtain ⟨hapt, hbodies, hn⟩ :=
    (readsMarks strict src fuel).expression s hskips s [] (hs.apt hk) (.refl s) p s' h
  cases hid
  refine ⟨⟨Nat.le_succ_of_le hn.fresh, hn.kept, hn.opened, fun id hid => ?_, hn.given, hn.backed⟩,
    hapt.skip, ?_, ?_⟩
  · exact ⟨(hn.made id hid).1, Nat.lt_succ_of_lt (hn.made id hid).2⟩
  · have hbody := bodyOf_declaring s' r place p r
    rwa [if_pos rfl, Array.getElem?_eq_getElem hr] at hbody
  · intro r' hne
    have hbody := bodyOf_declaring s' r place p r'
    rwa [if_neg (Ne.symm hne), hbodies] at hbody

/-- Reading rules goes to the end of the text, or reads the body of one rule and then the others. -/
inductive Rules (src : Source) (first most room : Nat) (s s' : State) :
    List (Nat × Nat) → Prop where
  | done (quiet : Quiet s s') : Rules src first most room s s' []
  | rule {r id fuel : Nat} {place : Position} {p : Pattern} {defs : List (Nat × Nat)}
      {s₁ s₂ s₃ : State} (quiet : Quiet s s₁) (sound : Sound first most s₁)
      (read : expression src fuel s₁ = .ok p s₂) (known : r < s₂.store.rules.size)
      (new : ¬ Declared s r) (made : freshId (s₂.changing r (declaring place p)) = .ok id s₃)
      (inGrammar : s₃.inGrammar) (sound' : Sound first most s₃)
      (declared : ∀ r', Declared s₃ r' ↔ Declared s r' ∨ r' = r)
      (skips : rulesSkips src (room + 1) s = expressionSkips src fuel s₁ ++ rulesSkips src room s₃)
      (others : rules src room s₃ = .ok defs s') : Rules src first most room s s' ((id, r) :: defs)

theorem rules_cases (hm : src.Admits most) {room : Nat} (hg : s.inGrammar) (hs : Sound first most s)
    {defs : List (Nat × Nat)} (h : rules src (room + 1) s = .ok defs s') :
    Rules src first most room s s' defs := by
  obtain ⟨t, s₁, h₁, h⟩ := ok_of_bind h
  obtain ⟨hs₁, he₁, -⟩ := soundly_ahead hs t s₁ h₁
  have hq₁ := quiet_ahead h₁
  cases t with
  | nil =>
    cases h
    exact .done hq₁
  | cons c t =>
    simp only at h
    cases hh : Token.header? (c :: t) with
    | none => simp only [hh] at h; cases h
    | some head =>
      obtain ⟨name, rest⟩ := head
      simp only [hh] at h
      obtain ⟨r, s₂, h₂, h⟩ := ok_of_bind h
      obtain ⟨hs₂, he₂, hr⟩ := soundly_ruleNamed (he₁.inGrammar ▸ hg) hs₁ r s₂ h₂
      obtain ⟨_, _, h₃, h⟩ := ok_of_bind h
      cases h₃
      by_cases hold : (s₂.store.rules[r]?.map Rule.declared).getD false = true
      · simp only [hold] at h
        cases h
      · simp only [hold] at h
        obtain ⟨_, s₃, h₃, h⟩ := ok_of_bind h
        obtain ⟨hs₃, he₃, -⟩ := soundly_setPlace r (src.place (c :: t)) hs₂ _ s₃ h₃
        obtain ⟨_, s₄, h₄, h⟩ := ok_of_bind h
        obtain ⟨hs₄, he₄, -⟩ := soundly_advance rest hs₃ _ s₄ h₄
        obtain ⟨p, s₅, h₅, h⟩ := ok_of_bind h
        obtain ⟨hs₅, he₅, hp⟩ := (readsSoundly hm (fuel rest)).expression s₄ hs₄ p s₅ h₅
        obtain ⟨_, s₆, h₆, h⟩ := ok_of_bind h
        have he := (he₃.trans he₄).trans he₅
        have hcall := he.allowed.call r hr
        obtain ⟨hs₆, -, hd₆⟩ := hs₅.declare (src.place (c :: t)) hcall hp
        obtain ⟨id, s₇, h₇, h⟩ := ok_of_bind h
        obtain ⟨ds, s₈, h₈, h⟩ := ok_of_bind h
        cases h
        have hskips : rulesSkips src (room + 1) s =
            expressionSkips src (fuel rest) s₄ ++ rulesSkips src room s₇ := by
          simp only [rulesSkips, after_eq h₁, hh, after_eq h₂, after_eq h₃, after_eq h₄,
            after_eq h₅, after_eq h₆, after_eq h₇]
        cases h₆
        obtain ⟨hs₇, he₇, -⟩ := soundly_freshId hs₆ id s₇ h₇
        have hg₇ : s₇.inGrammar :=
          he₇.inGrammar.trans (he.inGrammar.trans (he₂.inGrammar.trans (he₁.inGrammar.trans hg)))
        have hq :=
          (hq₁.trans (quiet_ruleNamed h₂).1).trans ((quiet_setPlace h₃).trans (quiet_advance h₄))
        have hback (r' : Nat) : Declared s₂ r' ↔ Declared s r' := (he₁.trans he₂).declared r'
        refine .rule hq hs₄ h₅ hcall.2 ?_ h₇ hg₇ hs₇ (fun r' => ?_) hskips h₈
        · rw [← hback]
          rintro ⟨rule, hrule, hdeclared⟩
          simp [hrule, hdeclared] at hold
        · rw [he₇.declared, hd₆, he.declared, hback]

/-- The rules of a grammar, each read behind the ones before it. A rule keeps the body that it is
declared with. -/
theorem numbers_rules (hm : src.Admits most) (room : Nat) (hg : s.inGrammar)
    (hs : Sound first most s) (hk : Blank strict s.skip)
    (hskips : ∀ q ∈ rulesSkips src room s, Blank strict q) {defs : List (Nat × Nat)}
    (h : rules src room s = .ok defs s') :
    Numbers strict s (defs.flatMap fun d => s'.store.bodyMarks d.2) s' ∧ ∀ r, Declared s r →
      bodyOf s' r = bodyOf s r := by
  induction room generalizing s defs with
  | zero =>
    cases h
    exact ⟨.refl _, fun _ _ => rfl⟩
  | succ room ih =>
    cases rules_cases hm hg hs h with
    | done hq => exact ⟨hq.numbers, fun r _ => hq.bodies r⟩
    | @rule r id _ place p defs s₁ s₂ s₃ hq hs₁ hread hknown hnew hmade hg₃ hs₃ hdeclared
        heq hothers =>
      simp only [heq, List.mem_append] at hskips
      obtain ⟨hn₃, hk₃, hr₃, hbodies₃⟩ :=
        numbers_rule hs₁ (hq.skip ▸ hk) (fun q hq => hskips q (.inl hq)) hread hknown place hmade
      obtain ⟨hn, hbodies⟩ := ih hg₃ hs₃ hk₃ (fun q hq => hskips q (.inr hq)) hothers
      refine ⟨?_, fun r' hr' => ?_⟩
      · have hbody : bodyOf s' r = some p := (hbodies r ((hdeclared r).2 (.inr rfl))).trans hr₃
        have hmarks : s'.store.bodyMarks r = p.marks := by
          rw [bodyMarks_eq, hbody, Option.elim_some]
        rw [List.flatMap_cons, hmarks]
        exact hq.numbers.trans (hn₃.trans hn)
      · have hne : r' ≠ r := fun heq => hnew (heq ▸ hr')
        rw [hbodies r' ((hdeclared r').2 (.inl hr')), hbodies₃ r' hne, hq.bodies]

theorem numbers_grammar (hm : src.Admits most) (hg : s.inGrammar) (hs : Sound first most s)
    (hk : Blank strict s.skip)
    (hskips : ∀ q ∈ rulesSkips src (src.text.length + 1) s, Blank strict q)
    (h : grammar src s = .ok p s') : Numbers strict s (s'.store.marks p) s' := by
  obtain ⟨defs, s₁, h₁, h⟩ := ok_of_bind h
  obtain ⟨hn, -⟩ := numbers_rules hm _ hg hs hk hskips h₁
  obtain ⟨_, _, h₂, h⟩ := ok_of_bind h
  cases h₂
  cases hc : checkDeclared src s₁.store s₁.names with
  | error e => simp only [hc] at h; cases h
  | ok =>
    simp only [hc] at h
    cases defs with
    | nil =>
      cases h
      exact hn
    | cons start others =>
      obtain ⟨_, s₂, h₂, h⟩ := ok_of_bind h
      cases h₂
      obtain ⟨id, s₃, h₃, h⟩ := ok_of_bind h
      have hlog : Quiet s₁ { s₁ with log := (unused src s₁.store others).reverse ++ s₁.log } :=
        quiet_of_same rfl rfl rfl rfl
      have hq := hlog.trans (quiet_freshId h₃)
      cases h₃
      cases h
      exact hn.quietly hq

theorem numbers_parse {store store' : Store} {log : List Notice}
    (h : parse src store = (.ok p, store', log)) (hskips : ∀ q ∈ skips src store, Blank strict q) :
    ∃ s, Numbers strict (start src store) (store'.marks p) s ∧ store'.slot? = s.store.slot? ∧
      store'.count? p = some s.opened := by
  have hm := admits_capacity src
  have hblank : Blank strict .empty := ⟨rfl, fun _ => rfl⟩
  simp only [parse, whole_eq_main] at h
  split at h
  · next q s' hrun =>
    cases h
    obtain ⟨p', s, hmain, hfinish⟩ := ok_of_bind hrun
    obtain ⟨rfl, hstore⟩ := finish_spec hfinish
    refine ⟨s, ?_, by rw [hstore]; rfl, by simp [hstore, Store.count?, Store.setCount]⟩
    have hmarks : s'.store.marks p = s.store.marks p := by
      rw [hstore]
      rfl
    rw [hmarks]
    obtain ⟨t, s₁, h₁, hmain⟩ := ok_of_bind hmain
    obtain ⟨hs₁, -, -⟩ :=
      soundly_ahead (Sound.start (src.capacity.int?.getD 0).toNat src store) t s₁ h₁
    have hq : Quiet (start src store) s₁ := quiet_ahead h₁
    have hk : Blank strict s₁.skip := hq.skip ▸ hblank
    rw [skips, after_eq (show ahead (start src store) = .ok t s₁ from h₁)] at hskips
    by_cases hh : (Token.header? t).isSome
    · simp only [hh, if_true] at hmain hskips
      obtain ⟨_, _, h₂, hmain⟩ := ok_of_bind hmain
      cases h₂
      have hs₂ : Sound store.rules.size (src.capacity.int?.getD 0).toNat
          { s₁ with inGrammar := true } :=
        ⟨hs₁.names, hs₁.size, hs₁.rules, hs₁.opened, hs₁.skip, fun h => by cases h⟩
      have hq₂ : Quiet s₁ { s₁ with inGrammar := true } := quiet_of_same rfl rfl rfl rfl
      exact (hq.trans hq₂).numbers.trans (numbers_grammar hm rfl hs₂ hk hskips hmain)
    · simp only [hh] at hmain hskips
      obtain ⟨-, -, htree⟩ := (readsSoundly hm _).expression s₁ hs₁ p s hmain
      obtain ⟨-, -, hn⟩ :=
        (readsMarks strict src _).expression s₁ hskips _ [] (hs₁.apt hk) hq.numbers p s hmain
      rwa [marks_of_normal s.store htree]
  · cases h

/-- Every back reference stands behind the capture whose slot it refers to. -/
def RefersBack (store : Store) (ms : List Mark) : Prop :=
  ∀ before k after, ms = before ++ .reference k :: after → ∃ id, .capture id ∈ before ∧
    store.slot? id = some k

/-- Numbering the pattern once more, without its slots and its count, gives the same count, and
every capture the slot that it has. -/
def Renumbers (store : Store) (capacity : Datum) (p : Pattern) : Prop :=
  ∃ n store', store.unnumbered.number capacity p = .ok (n, store') ∧ store.count? p = some n ∧
    ∀ id q, Node store p (.capture id q) ∨ Node store p (.capturedSearch id q) →
      ∃ slot, store.slot? id = some slot ∧ store'.slot? id = some slot

theorem refersBack_iff_backed {store : Store}
    (h : ∀ (k id : Nat), (order ms)[k]? = some id → store.slot? id = some k) :
    RefersBack store ms ↔ Backed 0 ms := by
  -- A capture before a reference has the same place in the order of all captures.
  have place {before after : List Mark} (hms : ms = before ++ after) {k id : Nat}
      (hk : (order before)[k]? = some id) : store.slot? id = some k := by
    obtain ⟨rest, hrest⟩ := isPrefix_order before after
    obtain ⟨hlt, -⟩ := List.getElem?_eq_some_iff.1 hk
    refine h k id ?_
    rw [hms, ← hrest, List.getElem?_append_left hlt, hk]
  refine ⟨fun hback before k after hms => ?_, fun hback before k after hms => ?_⟩
  · obtain ⟨id, hid, hslot⟩ := hback before k after hms
    obtain ⟨j, hj⟩ := List.mem_iff_getElem?.1 (mem_order.2 (mem_captured.2 hid))
    obtain ⟨hlt, -⟩ := List.getElem?_eq_some_iff.1 hj
    have : k = j := Option.some.inj (hslot.symm.trans (place hms hj))
    omega
  · have hk := hback before k after hms
    rw [Nat.zero_add] at hk
    have hid := List.getElem?_eq_getElem hk
    exact ⟨_, mem_captured.1 (mem_order.1 (List.mem_of_getElem? hid)), place hms hid⟩

theorem fits_of_sound {n : Nat} (hs : Sound first (src.capacity.int?.getD 0).toNat s)
    (hn : n ≤ s.opened) : Numbering.Fits src.capacity n := by
  intro k hk
  have hle := hs.opened
  cases hc : src.capacity.int? with
  | none =>
    simp only [hc, Option.getD_none, Int.toNat_zero] at hle
    omega
  | some c =>
    simp only [hc, Option.getD_some] at hle
    exact ⟨c, rfl, by omega⟩

/-- Where no operand of `\skip` holds a capture, a compiled pattern is numbered once more as it was
read just if its back references stand behind their captures, and otherwise not at all. They do
stand behind them if no operand of `\skip` holds a back reference either. -/
theorem renumbers_as_read {store store' : Store} {log : List Notice}
    (h : parse src store = (.ok p, store', log))
    (hskips : ∀ q ∈ skips src store, ∀ id, .capture id ∉ q.marks) :
    (RefersBack store' (store'.marks p) → Renumbers store' src.capacity p) ∧
    (¬ RefersBack store' (store'.marks p) →
      ∃ number, store'.unnumbered.number src.capacity p = .error (.badReference number)) ∧
    ((∀ q ∈ skips src store, q.marks = []) → RefersBack store' (store'.marks p)) := by
  have hblank (q : Pattern) (hq : q ∈ skips src store) :
      Blank (∀ q ∈ skips src store, q.marks = []) q := by
    refine ⟨List.eq_nil_iff_forall_not_mem.2 fun id hid => ?_, fun hnone => hnone q hq⟩
    exact hskips q hq id (mem_captured.1 hid)
  obtain ⟨t, hn, hslots, hcount⟩ := numbers_parse h hblank
  obtain ⟨s, rfl, hs, hp, hcount'⟩ := compiled_parse (admits_capacity src) h
  have hlength : (order (s.store.marks p)).length = t.opened := by
    simpa [start] using hn.opened.symm
  have hopened : t.opened = s.opened := Option.some.inj (hcount.symm.trans hcount')
  have hgiven (k id : Nat) (hk : (order (s.store.marks p))[k]? = some id) :
      s.store.slot? id = some k := by
    rw [hslots, hn.given k id hk]
    simp [start]
  have hiff := refersBack_iff_backed hgiven
  obtain ⟨hok, herror⟩ :=
    number_unnumbered hs hp (fits_of_sound hs (Nat.le_of_eq (hlength.trans hopened)))
  refine ⟨fun hback => ?_, fun hback => herror fun hb => hback (hiff.2 hb), fun hnone =>
    hiff.2 (hn.backed hnone)⟩
  obtain ⟨store', hnumber, hslot⟩ := hok (hiff.1 hback)
  refine ⟨_, store', hnumber, by rw [hcount, hlength], fun id q hq => ?_⟩
  have hmem : .capture id ∈ s.store.marks p := by
    rcases hq with hq | hq
    · exact marks_subset_of_node hq List.mem_cons_self
    · exact marks_subset_of_node hq List.mem_cons_self
  obtain ⟨k, hk⟩ := List.mem_iff_getElem?.1 (mem_order.2 (mem_captured.2 hmem))
  exact ⟨k, hgiven k id hk, (hslot id k).2 hk⟩

/-- Captures in each other and repeated, with spaces before every token and a rule that refers to
them: `A <- \skip \s {{.} $2}+ {@} B` and `B <- $1 {.}`. -/
theorem repeated_captures_renumber :
    let src : Source := {
      text :=
        ['A', '<', '-', '\\', 's', 'k', 'i', 'p', '\\', 's', '{', '{', '.', '}', '$', '2', '}', '+',
          '{', '@', '}', 'B', ' ', 'B', '<', '-', '$', '1', '{', '.', '}']
      file := "pattern", inline := .int 5, capacity := .int 4 }
    (∀ q ∈ skips src {}, ∀ id, .capture id ∉ q.marks) ∧ ∃ p store log, parse src {} =
      (.ok p, store, log) ∧ store.count? p = some 4 ∧ Renumbers store src.capacity p := by
  intro src
  have hmarks : ∀ q ∈ skips src {}, q.marks = [] := by decide +kernel
  have hskips (q : Pattern) (hq : q ∈ skips src {}) (id : Nat) : .capture id ∉ q.marks := by
    simp [hmarks q hq]
  have hcount : (parse src {}).1.toOption.bind (parse src {}).2.1.count? = some 4 := by
    decide +kernel
  obtain ⟨⟨result, store, log⟩, hparse⟩ : ∃ r, parse src {} = r := ⟨_, rfl⟩
  rw [hparse] at hcount
  cases result with
  | error e => cases hcount
  | ok p =>
    obtain ⟨hrenumbers, -, hback⟩ := renumbers_as_read hparse hskips
    exact ⟨hskips, p, store, log, hparse, hcount, hrenumbers (hback hmarks)⟩

def refused {α : Type} : Except Numbering.Trouble α → Option Nat
  | .error (.badReference number) => some number
  | _ => none

theorem eq_error_of_refused {α : Type} {x : Except Numbering.Trouble α} {number : Nat}
    (h : refused x = some number) : x = .error (.badReference number) := by
  unfold refused at h
  split at h
  · cases h
    rfl
  · cases h

/-- The operand of `\skip` holds no capture, but a reference to the capture that it comes to stand
before: `{@} \skip $1`. -/
theorem skipped_reference_before_capture :
    let src : Source := {
      text :=
        ['{', '@', '}', '\\', 's', 'k', 'i', 'p', '$', '1'], file := "pattern", inline := .int 5
      capacity := .int 20 }
    (∀ q ∈ skips src {}, ∀ id, .capture id ∉ q.marks) ∧ ∃ p store log,
      parse src {} = (.ok p, store, log) ∧ store.count? p = some 1 ∧
      store.unnumbered.number src.capacity p = .error (.badReference 1) := by
  intro src
  have hmarks : ∀ q ∈ skips src {}, captured q.marks = [] := by decide +kernel
  have hcount : (parse src {}).1.toOption.bind (parse src {}).2.1.count? = some 1 := by
    decide +kernel
  have hrefused : ((parse src {}).1.toOption.bind fun p =>
      refused ((parse src {}).2.1.unnumbered.number src.capacity p)) = some 1 := by decide +kernel
  refine ⟨fun q hq id hid => ?_, ?_⟩
  · have := mem_captured.2 hid
    simp [hmarks q hq] at this
  · obtain ⟨⟨result, store, log⟩, hparse⟩ : ∃ r, parse src {} = r := ⟨_, rfl⟩
    rw [hparse] at hcount hrefused
    cases result with
    | error e => cases hcount
    | ok p => exact ⟨p, store, log, hparse, hcount, eq_error_of_refused hrefused⟩

end Grammar

end PegMatch

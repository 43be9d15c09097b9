import PegMatch.Proofs.Reading

set_option autoImplicit false

/-! The readers that call each other. Each reads the tokens of its part of a syntax tree and makes
of them what is built from this part. The fuel that is given suffices, because every token takes a
code point. -/

namespace PegMatch.Grammar

open Token

theorem opens_append (ls more : List Lexeme) : opens (ls ++ more) = opens ls + opens more := by
  simp [opens]

theorem fit_append {capacity : Int} {declared : List Name} {opened : Nat} {ls more : List Lexeme} :
    Fit capacity declared opened (ls ++ more) ↔
      Fit capacity declared opened ls ∧ Fit capacity declared (opened + opens ls) more := by
  induction ls generalizing opened with
  | nil => simp [Fit, opens]
  | cons l ls ih =>
    have hsum : opened + l.opens + opens ls = opened + opens (l :: ls) := by
      simp [opens, Nat.add_assoc]
    simp only [List.cons_append, Fit, ih, and_assoc, hsum]

def Lexeme.isPrimary : Lexeme → Bool
  | .atom _ | .name _ | .sign .openGroup | .sign .openCapture | .sign .skip => true
  | _ => false

def Lexeme.isSuffix : Lexeme → Bool
  | .sign (.suffix _) => true
  | _ => false

def Unsuffixed (more : List Lexeme) : Prop :=
  ∀ l ∈ more.head?, ¬ l.isSuffix

namespace Setting

variable {α β : Type} {w : Setting} {s s' : State} {x : Reader α} {m : Build α}
  {ls ls' : List Lexeme} {F G : List Lexeme → Prop}

/-- Whether a token ends a sequence. Only a grammar has heads of rules. -/
def Stops (w : Setting) : Lexeme → Prop
  | .sign .slash | .sign .closeGroup | .sign .closeCapture => True
  | .header _ => w.declared ≠ []
  | _ => False

def AfterItems (w : Setting) (more : List Lexeme) : Prop :=
  ∀ l ∈ more.head?, w.Stops l

def AfterAll (w : Setting) (more : List Lexeme) : Prop :=
  ∀ l ∈ more.head?, w.Stops l ∧ l ≠ .sign .slash

theorem Reads.bind {f : α → Reader β} {k : α → Build β} (hx : w.Reads x ls m F)
    (hf : ∀ a, w.Reads (f a) ls' (k a) G) (hF : ∀ more, G more → F (ls' ++ more)) :
    w.Reads (x >>= f) (ls ++ ls') (m >>= k) G := by
  intro s more h hs hG hfit
  obtain ⟨hfit, hfit'⟩ := fit_append.1 hfit
  rw [List.append_assoc] at hs
  obtain ⟨s₁, hr, ho, ht⟩ := hx s (ls' ++ more) h hs (hF more hG) hfit
  obtain ⟨s₂, hr', ho', ht'⟩ := hf _ s₁ more hr.step.ready ht hG (ho ▸ hfit')
  refine ⟨s₂, hr.bind hr', ?_, ht'⟩
  rw [ho', ho, opens_append, Nat.add_assoc]

theorem Reads.bind_quietly {f : α → Reader β} {k : α → Build β} (hx : w.Reads x ls m F)
    (hf : ∀ a s, w.Ready s → w.Quietly (f a) (k a) s) : w.Reads (x >>= f) ls (m >>= k) F := by
  intro s more h hs hF hfit
  obtain ⟨s₁, hr, ho, ht⟩ := hx s more h hs hF hfit
  obtain ⟨s₂, hr', ht', ho'⟩ := hf _ s₁ hr.step.ready
  exact ⟨s₂, hr.bind hr', ho'.trans ho, ht' ▸ ht⟩

theorem Reads.after_quietly {f : α → Reader β} {k : α → Build β}
    (hx : ∀ s, w.Ready s → w.Quietly x m s) (hf : ∀ a, w.Reads (f a) ls (k a) F) :
    w.Reads (x >>= f) ls (m >>= k) F := by
  intro s more h hs hF hfit
  obtain ⟨s₁, hr, ht, ho⟩ := hx s h
  obtain ⟨s₂, hr', ho', ht'⟩ := hf _ s₁ more hr.step.ready (ht ▸ hs) hF (ho ▸ hfit)
  exact ⟨s₂, hr.bind hr', ho ▸ ho', ht'⟩

theorem Reads.sign {k x : Text → Reader α} {t : Sign} (ho : (Lexeme.sign t).opens = 0)
    (hk : ∀ rest, (Lexeme.sign t).EndsBefore rest →
      k (t.text ++ rest) = (advance rest >>= fun _ => x rest))
    (hx : ∀ rest, w.Reads (x rest) ls m F) : w.Reads (ahead >>= k) (.sign t :: ls) m F := by
  intro s more h hs hF hfit
  obtain ⟨u, rest, hf⟩ := hs.front
  obtain rfl := hf.spells
  have h₁ := (step_rest h (t.text ++ rest)).ready
  have h₂ := (step_rest h₁ rest).ready
  obtain ⟨s', hr, hopened, ht⟩ := hx rest _ more h₂ hf.more hF (by simpa [ho] using hfit.2)
  refine ⟨s', .ahead h ?_, ?_, ht⟩
  · rw [hf.skip, hk rest hf.apart]
    exact hr.advance h₁
  · simpa [opens, ho] using hopened

theorem Reads.capturing {k : Text → Reader α} {t : Sign} {f : Text → Nat → Reader α}
    {b : Nat → Build α} (ho : (Lexeme.sign t).opens = 1)
    (hopen : ∀ capacity declared opened, (Lexeme.sign t).Fits capacity declared opened →
      (opened : Int) < capacity)
    (hk : ∀ rest, (Lexeme.sign t).EndsBefore rest →
      k (t.text ++ rest) =
      (openCapture w.source >>= fun slot => advance rest >>= fun _ => f rest slot))
    (hx : ∀ rest slot s more, slot < s.opened → w.Ready s → Stream (ls ++ more) s.rest → F more →
      Fit w.capacity w.declared s.opened ls → ∃ s', w.Runs (f rest slot) (b slot) s s' ∧
      s'.opened = s.opened + opens ls ∧ Stream more s'.rest) :
    w.Reads (ahead >>= k) (.sign t :: ls) (Build.openCapture >>= b) F := by
  intro s more h hs hF hfit
  obtain ⟨u, rest, hf⟩ := hs.front
  obtain rfl := hf.spells
  have h₁ := (step_rest h (t.text ++ rest)).ready
  have hslot := runs_openCapture h₁ (hopen _ _ _ hfit.1)
  have h₂ := hslot.step.ready
  have h₃ := (step_rest h₂ rest).ready
  obtain ⟨s', hr, hopened, ht⟩ := hx rest s.opened _ more (Nat.lt_succ_self _) h₃ hf.more hF
    (by simpa only [ho] using hfit.2)
  refine ⟨s', .ahead h ?_, ?_, ht⟩
  · rw [hf.skip, hk rest hf.apart]
    exact hslot.bind (hr.advance h₂)
  · simp only [opens, List.map_cons, List.sum_cons, ho] at hopened ⊢
    omega

theorem reads_close (wanted opener : Nat) (start : Text) {t : Sign} (ho : (Lexeme.sign t).opens = 0)
    (ht : t.text = [wanted]) :
    w.Reads (close w.source wanted opener start) [.sign t] (pure ()) fun _ => True := by
  refine reads_of_leaves ho fun s ls u rest h hf _ => ?_
  obtain rfl : u = t.text := hf.spells
  have h₁ := (step_rest h (t.text ++ rest)).ready
  have hdone : w.Leaves (advance rest) (pure ()) { s with rest := t.text ++ rest } rest :=
    ⟨_, ⟨⟨rfl, rfl⟩, step_rest h₁ rest⟩, rfl, rfl⟩
  refine .ahead h hf.skip (hdone.congr ?_)
  rw [ht]
  exact congrFun (if_pos rfl) _

theorem reads_operator {fuel : Nat} {m : Build Pattern} (o : Operator)
    (hx : w.Reads (prefixed w.source fuel) ls m F) :
    w.Reads (prefixed w.source (fuel + 1)) (.sign (.operator o) :: ls)
      (do
        let p ← m
        return o.wrap (← Build.fresh) p) F := by
  have hwrap := hx.bind_quietly fun p s hs => quietly_fresh hs fun id => o.wrap id p
  rw [prefixed]
  cases o <;> exact Reads.sign rfl (fun _ _ => rfl) fun _ => hwrap

theorem reads_captured {fuel : Nat} {m : Build Pattern}
    (hx : w.Reads (prefixed w.source fuel) ls m F) :
    w.Reads (prefixed w.source (fuel + 1)) (.sign .captured :: ls)
      (do
        let slot ← Build.openCapture
        let p ← m
        Build.skipping (.capturedSearch (← Build.captureId slot) p)) F := by
  rw [prefixed]
  refine Reads.capturing rfl (fun _ _ _ h => h) (fun _ _ => rfl)
    fun _ slot s more hslot h hs hF hfit => ?_
  obtain ⟨s₁, hr, ho, ht⟩ := hx s more h hs hF hfit
  have hlt : slot < s₁.opened := by omega
  have hid := quietly_captureId hr.step.ready hlt
  obtain ⟨s₂, hr', ht', ho'⟩ :=
    hid.bind (f := fun id => token (.capturedSearch id (m s.bench).1)) (k := fun id =>
      Build.skipping (.capturedSearch id (m s.bench).1)) fun s₂ h₂ => quietly_token h₂.step.ready _
  exact ⟨s₂, hr.bind hr', ho'.trans ho, ht' ▸ ht⟩

theorem skip_unsuffixed {more : List Lexeme} {t : Text} (hs : Stream more t)
    (hu : Unsuffixed more) :
    ∀ c ∈ (skipBlanks false t).head?, c ≠ '?'.toNat ∧ c ≠ '*'.toNat ∧ c ≠ '+'.toNat := by
  cases more with
  | nil =>
    rw [hs.skip_nil]
    simp
  | cons l more =>
    obtain ⟨u, rest, hf⟩ := hs.front
    obtain ⟨d, v, rfl, hd⟩ := hf.spells.eq_cons
    have hl := hu l (by simp)
    have hsign (e : Nat) (he : e ∈ Text.ofString "?*+") (t : Sign) (ht : l = .sign t) :
        t.text.head? ≠ some e := by
      subst ht
      cases t with
      | operator o => cases o <;> revert e <;> decide
      | suffix s => simp [Lexeme.isSuffix] at hl
      | _ => revert e; decide
    rw [hf.skip]
    rintro _ ⟨rfl⟩
    refine ⟨hd.ne rfl (by decide) (hsign _ (by decide)),
      hd.ne rfl (by decide) (hsign _ (by decide)), hd.ne rfl (by decide) (hsign _ (by decide))⟩

theorem reads_suffixes (room : Nat) (ss : List Suffix) (hroom : ss.length ≤ room) (p : Pattern) :
    w.Reads (suffixes room p) (ss.map fun s => .sign (.suffix s))
      (ss.foldlM Suffix.build p) Unsuffixed := by
  induction ss generalizing room p with
  | nil =>
    intro s more h hs hu _
    cases room with
    | zero => exact ⟨s, runs_pure h p, rfl, hs⟩
    | succ room =>
      have h₁ := (step_rest h (skipBlanks false s.rest)).ready
      refine ⟨_, .ahead h
        (?_ : w.Runs _ _ _ { s with rest := skipBlanks false s.rest }), rfl, hs.skip⟩
      have hne := skip_unsuffixed hs hu
      cases ht : skipBlanks false s.rest with
      | nil => exact runs_pure (ht ▸ h₁) p
      | cons c t =>
        obtain ⟨h₂, h₃, h₄⟩ := hne c (by rw [ht]; rfl)
        simp only [if_neg h₂, if_neg h₃, if_neg h₄]
        exact runs_pure (ht ▸ h₁) p
  | cons suffix ss ih =>
    obtain ⟨room, rfl⟩ : ∃ k, room = k + 1 := ⟨room - 1, by simp at hroom; omega⟩
    have hroom' : ss.length ≤ room := by simpa using hroom
    have fresh {k : Nat → Reader Pattern} {b : Nat → Build Pattern} {ls : List Lexeme}
        (hk : ∀ id, w.Reads (k id) ls (b id) Unsuffixed) :
        w.Reads (freshId >>= k) ls (Build.fresh >>= b) Unsuffixed :=
      .after_quietly (fun s hs => quietly_freshId hs) hk
    rw [suffixes, List.map_cons, List.foldlM_cons]
    cases suffix with
    | opt =>
      exact Reads.sign rfl (fun _ _ => rfl) fun _ => fresh fun id => ih room hroom' (.opt id p)
    | star =>
      exact Reads.sign rfl (fun _ _ => rfl) fun _ => fresh fun id => ih room hroom' (.repeated id p)
    | plus =>
      have hplus := fresh fun starId => fresh fun id => ih room hroom' (.plus starId id p)
      exact Reads.sign rfl (fun _ _ => rfl) fun _ => hplus

theorem front_primary {l : Lexeme} (hl : l.isPrimary) {t u rest : Text} (hf : Front l ls t u rest) :
    ∃ c v, u ++ rest = c :: v ∧ c ≠ '&'.toNat ∧ c ≠ '!'.toNat ∧ c ≠ '@'.toNat ∧
      (c = '{'.toNat → ¬ ['@'.toNat, '}'.toNat] <+: v) := by
  obtain ⟨c, v, rfl, hc⟩ := hf.spells.eq_cons
  have hsign (e : Nat) (he : e ∈ Text.ofString "&!@") (t : Sign) (ht : l = .sign t) :
      t.text.head? ≠ some e := by
    subst ht
    cases t with
    | openGroup => revert e; decide
    | openCapture => revert e; decide
    | skip => revert e; decide
    | _ => cases hl
  refine ⟨c, v ++ rest, rfl, hc.ne rfl (by decide) (hsign _ (by decide)),
    hc.ne rfl (by decide) (hsign _ (by decide)), hc.ne rfl (by decide) (hsign _ (by decide)), ?_⟩
  rintro rfl
  cases l with
  | sign t =>
    cases t with
    | openCapture =>
      have hspells : '{'.toNat :: v = ['{'.toNat] := hf.spells
      rw [(List.cons.inj hspells).2]
      rcases hf.apart with hc | hb | ⟨-, h⟩
      · cases hc
      · rintro ⟨t, rfl⟩
        exact (hb.head _ rfl).2.2.2 rfl
      · exact h
    | openGroup => exact absurd (Option.some.inj hc) (by decide)
    | skip => exact absurd (Option.some.inj hc) (by decide)
    | _ => cases hl
  | atom a => exact absurd hc (by simp [Lexeme.Starts, Text.ofString])
  | name n => exact absurd hc (by simp [Lexeme.Starts, isLetter])
  | header n => exact absurd hc (by simp [Lexeme.Starts, isLetter])

theorem reads_suffixed {fuel : Nat} {l : Lexeme} {m : Build Pattern} (hl : l.isPrimary)
    (hx : w.Reads (primary w.source fuel) (l :: ls) m F) (ss : List Suffix)
    (hF : ∀ more, Unsuffixed more → F ((ss.map fun s => .sign (.suffix s)) ++ more)) :
    w.Reads (prefixed w.source (fuel + 1)) (l :: ls ++ ss.map fun s => .sign (.suffix s))
      (do ss.foldlM Suffix.build (← m)) Unsuffixed := by
  intro s more h hs hu hfit
  obtain ⟨u, rest, hf⟩ := hs.front
  obtain ⟨hfit, hfit'⟩ := fit_append.1 hfit
  have hs₁ := hs.skip
  rw [hf.skip, List.append_assoc] at hs₁
  have h₁ := (step_rest h (u ++ rest)).ready
  obtain ⟨s₁, hr, ho, ht⟩ := hx { s with rest := u ++ rest } _ h₁ hs₁ (hF more hu) hfit
  -- The fuel is the length of the text that is left, in which every suffix takes a code point.
  have hroom : ss.length ≤ s₁.rest.length := by
    have := ht.length_le
    simp only [List.length_append, List.length_map] at this
    omega
  obtain ⟨s₂, hr', ho', ht'⟩ :=
    reads_suffixes s₁.rest.length ss hroom (m s.bench).1 s₁ more hr.step.ready ht hu (ho ▸ hfit')
  have hmain : w.Runs (do
      let p ← primary w.source fuel
      suffixes (← get).rest.length p) (do ss.foldlM Suffix.build (← m))
        { s with rest := u ++ rest } s₂ :=
    hr.bind (.get hr.step.ready hr')
  refine ⟨s₂, ?_, ?_, ht'⟩
  · obtain ⟨c, v, hcons, hand, hnot, hat, hbrace⟩ := front_primary hl hf
    rw [prefixed]
    refine .ahead h ?_
    rw [hf.skip]
    rw [hcons] at hmain ⊢
    split
    · next heq => exact absurd (List.cons.inj heq).1 hand
    · next heq => exact absurd (List.cons.inj heq).1 hnot
    · next heq => exact absurd (List.cons.inj heq).1 hat
    · next heq => exact absurd ⟨_, (List.cons.inj heq).2.symm⟩ (hbrace (List.cons.inj heq).1)
    · exact hmain
  · rw [ho', ho, opens_append, Nat.add_assoc]

theorem reads_skip {fuel : Nat} {m : Build Pattern} (hx : w.Reads (prefixed w.source fuel) ls m F) :
    w.Reads (primary w.source (fuel + 1)) (.sign .skip :: ls)
      (do
        let p ← m
        modify fun b => { b with skip := p }
        return .empty) F := by
  have hmain : w.Reads (do
      let p ← prefixed w.source fuel
      modify fun s => { s with skip := p }
      return .empty : Reader Pattern) ls (do
        let p ← m
        modify fun b => { b with skip := p }
        return .empty : Build Pattern) F := by
    intro s more h hs hF hfit
    obtain ⟨s₁, hr, ho, ht⟩ := hx s more h hs hF hfit
    obtain ⟨hs₁, -, htree⟩ := (readsSoundly w.admits fuel).prefixed s h.sound _ s₁ hr.result
    have hskip : w.Step s₁ { s₁ with skip := (m s.bench).1 } :=
      .of_sound hr.step.ready ⟨⟨hs₁.names, hs₁.size, hs₁.rules, hs₁.opened, htree, hs₁.outside⟩,
        (Extends.refl s₁).allowed, fun _ => .rfl, rfl⟩ rfl
    have hset : w.Runs (do
        modify fun a => { a with skip := (m s.bench).1 }
        return .empty : Reader Pattern) (do
          modify fun b => { b with skip := (m s.bench).1 }
          return .empty : Build Pattern) s₁ { s₁ with skip := (m s.bench).1 } := ⟨⟨rfl, rfl⟩, hskip⟩
    exact ⟨_, hr.bind hset, ho, ht⟩
  rw [primary]
  refine Reads.sign rfl (fun rest hb => ?_) fun _ => hmain
  have hb : Boundary rest := hb.boundary (by simp [Lexeme.isClosed]) (by simp)
  have htake : (Text.ofString "skip" ++ rest).takeWhile isLetter = Text.ofString "skip" :=
    takeWhile_append_stop (by decide) hb.not_letter
  change (if (Text.ofString "skip" ++ rest).takeWhile isLetter =
    Text.ofString "skip" then _ else _ : Reader Pattern) = _
  rw [if_pos htake]
  rfl

theorem afterAll_closeGroup (more : List Lexeme) : w.AfterAll (.sign .closeGroup :: more) := by
  rintro _ ⟨rfl⟩
  exact ⟨trivial, by simp⟩

theorem afterAll_closeCapture (more : List Lexeme) : w.AfterAll (.sign .closeCapture :: more) := by
  rintro _ ⟨rfl⟩
  exact ⟨trivial, by simp⟩

theorem reads_group {fuel : Nat} {m : Build Pattern}
    (hx : w.Reads (expression w.source fuel) ls m w.AfterAll) :
    w.Reads (primary w.source (fuel + 1)) (.sign .openGroup :: (ls ++ [.sign .closeGroup])) m
      fun _ => True := by
  have hmain (start : Text) : w.Reads (do
      let p ← expression w.source fuel
      close w.source ')' '(' start
      return p) (ls ++ [.sign .closeGroup]) m fun _ => True := by
    refine hx.bind (f := fun p => close w.source ')' '(' start >>= fun _ => pure p) (k := pure)
      (fun p => ?_) fun more _ => afterAll_closeGroup more
    exact (reads_close _ _ start rfl rfl).bind_quietly fun _ s hs => quietly_pure hs p
  rw [primary]
  exact Reads.sign rfl (fun _ _ => rfl) fun rest => hmain _

theorem reads_capture {fuel : Nat} {m : Build Pattern}
    (hx : w.Reads (expression w.source fuel) ls m w.AfterAll) :
    w.Reads (primary w.source (fuel + 1)) (.sign .openCapture :: (ls ++ [.sign .closeCapture]))
      (do
        let slot ← Build.openCapture
        let p ← m
        return .capture (← Build.captureId slot) p) fun _ => True := by
  rw [primary]
  refine Reads.capturing rfl (fun _ _ _ h => h) (fun _ _ => rfl)
    fun rest slot s more hslot h hs _ hfit => ?_
  obtain ⟨hfit, hfit'⟩ := fit_append.1 hfit
  rw [List.append_assoc] at hs
  obtain ⟨s₁, hr, ho, ht⟩ := hx s _ h hs (afterAll_closeCapture more) hfit
  obtain ⟨s₂, hr', ho', ht'⟩ := reads_close '}' '{' ('{'.toNat :: rest) rfl rfl
    s₁ more hr.step.ready ht trivial (ho ▸ hfit')
  have hlt : slot < s₂.opened := by omega
  obtain ⟨s₃, hr'', ht'', ho''⟩ :=
    (quietly_captureId hr'.step.ready hlt).bind
      (f := fun id => pure (Pattern.capture id (m s.bench).1))
      (k := fun id => pure (.capture id (m s.bench).1)) fun s₃ h₃ => quietly_pure h₃.step.ready _
  refine ⟨s₃, hr.bind (.after hr'.result hr'.bench hr'.step hr''), ?_, ht'' ▸ ht'⟩
  rw [ho'', ho', ho, opens_append, Nat.add_assoc]

theorem skip_afterItems {more : List Lexeme} (h : w.Ready s) (hs : Stream more s.rest)
    (ha : w.AfterItems more) :
    skipBlanks false s.rest = [] ∨ ∃ c t, skipBlanks false s.rest = c :: t ∧
      ((c = '/'.toNat ∨ c = ')'.toNat ∨ c = '}'.toNat) ∨
        s.inGrammar && (header? (c :: t)).isSome) := by
  cases more with
  | nil => exact .inl hs.skip_nil
  | cons l more =>
    obtain ⟨u, rest, hf⟩ := hs.front
    have hl := ha l (by simp)
    rw [hf.skip]
    cases l with
    | sign t =>
      obtain rfl := hf.spells
      cases t with
      | slash => exact .inr ⟨_, _, rfl, .inl (.inl rfl)⟩
      | closeGroup => exact .inr ⟨_, _, rfl, .inl (.inr (.inl rfl))⟩
      | closeCapture => exact .inr ⟨_, _, rfl, .inl (.inr (.inr rfl))⟩
      | _ => exact hl.elim
    | header n =>
      obtain ⟨c, t, rfl, -⟩ := hf.spells.eq_cons
      have hg : s.inGrammar = true := by
        rw [h.inGrammar]
        cases hd : w.declared with
        | nil => exact absurd hd hl
        | cons => rfl
      have hh := header?_header hf.spells rest
      refine .inr ⟨c, t ++ rest, rfl, .inr ?_⟩
      rw [List.cons_append] at hh
      simp [hg, hh]
    | atom a => exact hl.elim
    | name n => exact hl.elim

theorem reads_items_nil (fuel : Nat) :
    w.Reads (items w.source (fuel + 1)) [] (pure []) w.AfterItems := by
  intro s more h hs ha _
  have h₁ := (step_rest h (skipBlanks false s.rest)).ready
  refine ⟨{ s with rest := skipBlanks false s.rest }, ?_, rfl, hs.skip⟩
  rw [items]
  refine .ahead h ?_
  rcases skip_afterItems h hs ha with ht | ⟨c, t, ht, hc | hc⟩
  · rw [ht] at h₁ ⊢
    exact runs_pure h₁ []
  · rw [ht] at h₁ ⊢
    simp only [if_pos hc]
    exact runs_pure h₁ []
  · rw [ht] at h₁ ⊢
    by_cases hend : c = '/'.toNat ∨ c = ')'.toNat ∨ c = '}'.toNat
    · simp only [if_pos hend]
      exact runs_pure h₁ []
    · simp only [if_neg hend]
      refine .get h₁ ?_
      rw [if_pos hc]
      exact runs_pure h₁ []

theorem skip_start {l : Lexeme} (hl : l.isStart) {t u rest : Text} (hf : Front l ls t u rest) :
    ∃ c v, u ++ rest = c :: v ∧ ¬ (c = '/'.toNat ∨ c = ')'.toNat ∨ c = '}'.toNat) ∧
      header? (c :: v) = none := by
  have hh := header?_start hl hf.spells hf.apart
  obtain ⟨c, v, rfl, hc⟩ := hf.spells.eq_cons
  have hsign (e : Nat) (he : e ∈ Text.ofString "/)\x7d") (t : Sign) (ht : l = .sign t) :
      t.text.head? ≠ some e := by
    subst ht
    cases t with
    | operator o => cases o <;> revert e <;> decide
    | captured => revert e; decide
    | skip => revert e; decide
    | openGroup => revert e; decide
    | openCapture => revert e; decide
    | _ => cases hl
  refine ⟨c, v ++ rest, rfl, ?_, hh⟩
  rintro (he | he | he)
  · exact hc.ne rfl (by decide) (hsign _ (by decide)) he
  · exact hc.ne rfl (by decide) (hsign _ (by decide)) he
  · exact hc.ne rfl (by decide) (hsign _ (by decide)) he

theorem reads_items_cons {fuel : Nat} {l : Lexeme} (hl : l.isStart) {m : Build Pattern}
    {b : Build (List Pattern)}
    (hx : w.Reads (prefixed w.source fuel) (l :: ls) m Unsuffixed)
    (hxs : w.Reads (items w.source fuel) ls' b w.AfterItems)
    (hnext : ∀ more, w.AfterItems more → Unsuffixed (ls' ++ more)) :
    w.Reads (items w.source (fuel + 1)) (l :: ls ++ ls')
      (do
        let p ← m
        return p :: (← b)) w.AfterItems := by
  have hmain := hx.bind (f := fun p => items w.source fuel >>= fun ps => pure (p :: ps))
    (k := fun p => b >>= fun ps => pure (p :: ps))
    (fun p => hxs.bind_quietly fun ps s hs => quietly_pure hs (p :: ps)) hnext
  intro s more h hs ha hfit
  obtain ⟨u, rest, hf⟩ := hs.front
  obtain ⟨c, v, hcons, hend, hh⟩ := skip_start hl hf
  have h₁ := (step_rest h (skipBlanks false s.rest)).ready
  obtain ⟨s', hr, ho, ht⟩ :=
    hmain { s with rest := skipBlanks false s.rest } more h₁ hs.skip ha hfit
  refine ⟨s', ?_, ho, ht⟩
  rw [items]
  refine .ahead h ?_
  rw [hf.skip, hcons] at h₁ hr ⊢
  simp only [if_neg hend]
  refine .get h₁ ?_
  simp only [hh, Option.isSome_none, Bool.and_false, Bool.false_eq_true, if_false]
  exact hr

theorem reads_sequence {fuel : Nat} {b : Build (List Pattern)}
    (hx : w.Reads (items w.source fuel) ls b F) :
    w.Reads (sequence w.source (fuel + 1)) ls (do
      let ps ← b
      return .seq (← Build.fresh) ps) F := by
  rw [sequence]
  exact hx.bind_quietly fun ps s hs => quietly_fresh hs fun id => Pattern.seq id ps

theorem AfterAll.items {more : List Lexeme} (h : w.AfterAll more) : w.AfterItems more :=
  fun l hl => (h l hl).1

theorem skip_afterAll {more : List Lexeme} {t : Text} (hs : Stream more t) (ha : w.AfterAll more) :
    ∀ c ∈ (skipBlanks false t).head?, c ≠ '/'.toNat := by
  cases more with
  | nil =>
    rw [hs.skip_nil]
    simp
  | cons l more =>
    obtain ⟨u, rest, hf⟩ := hs.front
    obtain ⟨c, v, rfl, hc⟩ := hf.spells.eq_cons
    obtain ⟨hstop, hslash⟩ := ha l (by simp)
    rw [hf.skip]
    rintro _ ⟨rfl⟩
    refine hc.ne rfl (by decide) fun t ht => ?_
    subst ht
    cases t with
    | slash => exact absurd rfl hslash
    | closeGroup => decide
    | closeCapture => decide
    | _ => exact hstop.elim

theorem reads_others_nil (fuel : Nat) :
    w.Reads (alternatives w.source (fuel + 1)) [] (pure []) w.AfterAll := by
  intro s more h hs ha _
  have h₁ := (step_rest h (skipBlanks false s.rest)).ready
  refine ⟨{ s with rest := skipBlanks false s.rest }, ?_, rfl, hs.skip⟩
  have hne := skip_afterAll hs ha
  rw [alternatives]
  refine .ahead h ?_
  split
  · next t ht =>
    rw [ht] at hne
    exact absurd rfl (hne _ rfl)
  · exact runs_pure h₁ []

theorem reads_others_cons {fuel : Nat} {m : Build Pattern} {b : Build (List Pattern)}
    (hx : w.Reads (sequence w.source fuel) ls m w.AfterItems)
    (hxs : w.Reads (alternatives w.source fuel) ls' b w.AfterAll)
    (hnext : ∀ more, w.AfterAll more → w.AfterItems (ls' ++ more)) :
    w.Reads (alternatives w.source (fuel + 1)) (.sign .slash :: (ls ++ ls'))
      (do
        let p ← m
        return p :: (← b)) w.AfterAll := by
  have hmain := hx.bind (f := fun p => alternatives w.source fuel >>= fun ps => pure (p :: ps))
    (k := fun p => b >>= fun ps => pure (p :: ps))
    (fun p => hxs.bind_quietly fun ps s hs => quietly_pure hs (p :: ps)) hnext
  rw [alternatives]
  exact Reads.sign rfl (fun _ _ => rfl) fun _ => hmain

theorem reads_alternatives {fuel : Nat} {m : Build Pattern} {b : Build (List Pattern)}
    (hx : w.Reads (sequence w.source fuel) ls m w.AfterItems)
    (hxs : w.Reads (alternatives w.source fuel) ls' b w.AfterAll)
    (hnext : ∀ more, w.AfterAll more → w.AfterItems (ls' ++ more)) :
    w.Reads (expression w.source (fuel + 1)) (ls ++ ls')
      (do
        let p ← m
        let ps ← b
        return .alt (← Build.fresh) p ps) w.AfterAll := by
  rw [expression]
  refine hx.bind (fun p => ?_) hnext
  exact hxs.bind_quietly fun ps s hs => quietly_fresh hs fun id => Pattern.alt id p ps

end Setting

theorem Primary.lexemes_eq_cons (p : Primary) : ∃ l ls, p.lexemes = l :: ls ∧ l.isPrimary := by
  cases p <;> exact ⟨_, _, by rw [Primary.lexemes], rfl⟩

theorem Lexeme.isStart_of_isPrimary {l : Lexeme} (h : l.isPrimary) : l.isStart := by
  cases l with
  | sign t => cases t <;> first | rfl | cases h
  | atom a => rfl
  | name n => rfl
  | header n => cases h

theorem Lexeme.not_suffix_of_isStart {l : Lexeme} (h : l.isStart) : ¬ l.isSuffix := by
  cases l with
  | sign t => cases t <;> simp_all [Lexeme.isStart, Lexeme.isSuffix]
  | _ => simp [Lexeme.isSuffix]

theorem Item.lexemes_eq_cons (x : Item) : ∃ l ls, x.lexemes = l :: ls ∧ l.isStart := by
  cases x with
  | suffixed p ss =>
    obtain ⟨l, ls, hp, hl⟩ := p.lexemes_eq_cons
    exact ⟨l, _, by rw [Item.lexemes, hp]; rfl, Lexeme.isStart_of_isPrimary hl⟩
  | _ => exact ⟨_, _, by rw [Item.lexemes], rfl⟩

namespace Setting

variable {w : Setting}

theorem unsuffixed_items (xs : List Item) {more : List Lexeme} (h : w.AfterItems more) :
    Unsuffixed (itemLexemes xs ++ more) := by
  cases xs with
  | nil =>
    intro l hl
    have hstop := h l hl
    cases l with
    | sign t => cases t <;> simp_all [Stops, Lexeme.isSuffix]
    | _ => simp [Lexeme.isSuffix]
  | cons x xs =>
    obtain ⟨l, ls, hx, hl⟩ := x.lexemes_eq_cons
    rw [itemLexemes, hx]
    rintro _ ⟨rfl⟩
    exact Lexeme.not_suffix_of_isStart hl

theorem afterItems_others (xss : List (List Item)) {more : List Lexeme} (h : w.AfterAll more) :
    w.AfterItems (otherLexemes xss ++ more) := by
  cases xss with
  | nil => simpa [otherLexemes] using h.items
  | cons xs xss =>
    rw [otherLexemes]
    rintro _ ⟨rfl⟩
    trivial

mutual

theorem reads_primary (p : Primary) (fuel : Nat) (hf : 8 * p.lexemes.length + 1 ≤ fuel) :
    w.Reads (primary w.source fuel) p.lexemes (p.build w.inline) fun _ => True := by
  obtain ⟨fuel, rfl⟩ : ∃ k, fuel = k + 1 := ⟨fuel - 1, by omega⟩
  cases p with
  | atom a =>
    rw [Primary.lexemes, Primary.build]
    exact reads_atom fuel a
  | name n =>
    rw [Primary.lexemes, Primary.build]
    exact reads_name fuel n
  | group e =>
    rw [Primary.lexemes] at hf ⊢
    rw [Primary.build]
    simp only [List.length_cons, List.length_append, List.length_nil] at hf
    exact reads_group (reads_expression e fuel (by omega))
  | capture e =>
    rw [Primary.lexemes] at hf ⊢
    rw [Primary.build]
    simp only [List.length_cons, List.length_append, List.length_nil] at hf
    exact reads_capture (reads_expression e fuel (by omega))

theorem reads_item (x : Item) (fuel : Nat) (hf : 8 * x.lexemes.length + 2 ≤ fuel) :
    w.Reads (prefixed w.source fuel) x.lexemes (x.build w.inline) Unsuffixed := by
  obtain ⟨fuel, rfl⟩ : ∃ k, fuel = k + 1 := ⟨fuel - 1, by omega⟩
  cases x with
  | operator o x =>
    rw [Item.lexemes] at hf ⊢
    rw [Item.build]
    simp only [List.length_cons] at hf
    exact reads_operator o (reads_item x fuel (by omega))
  | captured x =>
    rw [Item.lexemes] at hf ⊢
    rw [Item.build]
    simp only [List.length_cons] at hf
    exact reads_captured (reads_item x fuel (by omega))
  | skip x =>
    rw [Item.lexemes] at hf ⊢
    rw [Item.build]
    simp only [List.length_cons] at hf
    obtain ⟨fuel, rfl⟩ : ∃ k, fuel = k + 1 := ⟨fuel - 1, by omega⟩
    have := reads_suffixed rfl (reads_skip (reads_item x fuel (by omega))) [] fun more h => h
    rw [List.map_nil, List.append_nil] at this
    exact this
  | suffixed p ss =>
    obtain ⟨l, ls, hp, hl⟩ := p.lexemes_eq_cons
    rw [Item.lexemes] at hf ⊢
    rw [Item.build]
    simp only [List.length_append] at hf
    have hprimary := reads_primary p fuel (by omega)
    rw [hp] at hprimary ⊢
    exact reads_suffixed hl hprimary ss fun _ _ => trivial

theorem reads_expression (e : Expression) (fuel : Nat) (hf : 8 * e.lexemes.length + 5 ≤ fuel) :
    w.Reads (expression w.source fuel) e.lexemes (e.build w.inline) w.AfterAll := by
  obtain ⟨fuel, rfl⟩ : ∃ k, fuel = k + 2 := ⟨fuel - 2, by omega⟩
  cases e with
  | mk first others =>
    rw [Expression.lexemes] at hf ⊢
    rw [Expression.build]
    simp only [List.length_append] at hf
    have hfirst := reads_sequence (reads_items first fuel (by omega))
    exact reads_alternatives hfirst (reads_others others (fuel + 1) (by omega)) fun more h =>
      afterItems_others others h

theorem reads_items (xs : List Item) (fuel : Nat) (hf : 8 * (itemLexemes xs).length + 3 ≤ fuel) :
    w.Reads (items w.source fuel) (itemLexemes xs) (buildItems w.inline xs) w.AfterItems := by
  obtain ⟨fuel, rfl⟩ : ∃ k, fuel = k + 1 := ⟨fuel - 1, by omega⟩
  cases xs with
  | nil =>
    rw [itemLexemes, buildItems]
    exact reads_items_nil fuel
  | cons x xs =>
    obtain ⟨l, ls, hx, hl⟩ := x.lexemes_eq_cons
    rw [itemLexemes] at hf ⊢
    rw [buildItems]
    rw [List.length_append] at hf
    have hlen : x.lexemes.length = ls.length + 1 := by rw [hx]; rfl
    have hitem := reads_item x fuel (by omega)
    rw [hx] at hitem ⊢
    exact reads_items_cons hl hitem (reads_items xs fuel (by omega)) fun more h =>
      unsuffixed_items xs h

theorem reads_others (xss : List (List Item)) (fuel : Nat)
    (hf : 8 * (otherLexemes xss).length + 4 ≤ fuel) :
    w.Reads (alternatives w.source fuel) (otherLexemes xss)
      (buildOthers w.inline xss) w.AfterAll := by
  obtain ⟨fuel, rfl⟩ : ∃ k, fuel = k + 2 := ⟨fuel - 2, by omega⟩
  cases xss with
  | nil =>
    rw [otherLexemes, buildOthers]
    exact reads_others_nil (fuel + 1)
  | cons xs xss =>
    rw [otherLexemes] at hf ⊢
    rw [buildOthers]
    simp only [List.length_cons, List.length_append] at hf
    have hfirst := reads_sequence (reads_items xs fuel (by omega))
    exact reads_others_cons hfirst (reads_others xss (fuel + 1) (by omega)) fun more h =>
      afterItems_others xss h

end

end Setting

end PegMatch.Grammar

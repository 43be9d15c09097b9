import PegMatch.Proofs.Compiled
import PegMatch.Proofs.Lexemes

set_option autoImplicit false

namespace PegMatch.Grammar

open Token

variable {src : Source} {s : State} {α β : Type}

def Still (x : Reader α) : Prop :=
  ∀ s a s', x s = .ok a s' → s'.rest = s.rest

theorem still_pure (a : α) : Still (pure a) := by
  intro s a' s' h
  cases h
  rfl

theorem still_failAt {rest : Text} {m : Mistake} : Still (failAt src rest m : Reader α) := by
  intro s a s' h
  cases h

theorem still_fail {m : Mistake} : Still (fail src m : Reader α) := by
  intro s a s' h
  cases h

theorem still_tooDeep : Still (tooDeep : Reader α) := by
  intro s a s' h
  cases h

theorem still_bind {x : Reader α} {f : α → Reader β} (hx : Still x) (hf : ∀ a, Still (f a)) :
    Still (x >>= f) := by
  intro s b s' h
  obtain ⟨a, s₁, h₁, h⟩ := ok_of_bind h
  exact (hf a _ _ _ h).trans (hx _ _ _ h₁)

theorem still_ite {c : Prop} [Decidable c] {x y : Reader α} (hx : Still x) (hy : Still y) :
    Still (if c then x else y) := by
  split
  · exact hx
  · exact hy

theorem still_get : Still (get : Reader State) := by
  intro s a s' h
  cases h
  rfl

theorem still_modify {f : State → State} (h : ∀ s, (f s).rest = s.rest) :
    Still (modify f : Reader Unit) := by
  intro s a s' hrun
  cases hrun
  exact h s

theorem still_sound (e : Except Fault α) : Still (sound e) := by
  cases e with
  | ok a => exact still_pure a
  | error f =>
    intro s a s' h
    cases h

theorem still_freshId : Still freshId := by
  intro s a s' h
  cases h
  rfl

theorem still_token (p : Pattern) : Still (token p) := by
  refine still_bind still_get fun s => ?_
  split
  · exact still_pure p
  · exact still_bind still_freshId fun id => still_pure _

theorem still_openCapture : Still (openCapture src) := by
  intro s slot s' h
  rw [(openCapture_eq h).2]

theorem still_captureId (slot : Nat) : Still (captureId slot) :=
  still_bind still_freshId fun id => still_bind (still_modify fun _ => rfl) fun _ => still_pure id

theorem still_ruleNamed (name start : Text) : Still (ruleNamed src name start) := by
  intro s a s' h
  obtain ⟨s₀, s₁, hget, h⟩ := ok_of_bind h
  cases hget
  cases hl : s.names.lookup name with
  | some r =>
    simp only [hl] at h
    cases h
    rfl
  | none =>
    simp only [hl] at h
    cases h
    rfl

theorem still_reference (name start : Text) : Still (reference src name start) := by
  refine still_bind still_get fun s => still_ite ?_ still_failAt
  refine still_bind (still_ruleNamed name start) fun r =>
    still_bind (still_modify fun _ => rfl) fun _ => ?_
  refine still_bind still_get fun s => still_bind (still_sound _) fun o => ?_
  split
  · exact still_bind (still_modify fun _ => rfl) fun _ => still_pure _
  · exact still_bind still_freshId fun id => still_pure _

theorem still_named (name : Text) : Still (Grammar.named? name) := by
  unfold Grammar.named?
  refine still_ite (still_pure _) ?_
  split
  · exact still_pure _
  iterate 5
    refine still_ite (still_pure _) ?_
  refine still_ite ?_ (still_pure _)
  exact still_bind still_freshId fun _ => still_bind still_freshId fun _ =>
    still_bind still_freshId fun _ => still_pure _

theorem mem_patternNames_of_namedSet? {name : Text} {p : Pattern}
    (h : Pattern.namedSet? name = some p) : name ∈ patternNames := by
  unfold Pattern.namedSet? at h
  split at h <;> first | decide | cases h

/-- The names that a reader knows are those of lexemes, except for that of what may be skipped. -/
theorem mem_patternNames_of_named {name : Text} {p : Pattern} {s s' : State}
    (h : Grammar.named? name s = .ok (some p) s') : name ∈ patternNames := by
  unfold Grammar.named? at h
  split at h
  · next hname => subst hname; decide
  cases hset : Pattern.namedSet? name with
  | some q => exact mem_patternNames_of_namedSet? hset
  | none =>
    simp only [hset] at h
    iterate 6
      split at h
      · next hname => subst hname; decide
    cases h

theorem named_of_mem_patternNames {name : Text} (h : name ∈ patternNames) :
    name = Text.ofString "skip" ∨ ∀ s, ∃ p s', Grammar.named? name s = .ok (some p) s' := by
  simp only [patternNames, List.map_cons, List.map_nil, List.mem_cons, List.not_mem_nil,
    or_false] at h
  iterate 15
    rcases h with rfl | h
    · exact .inr fun s => ⟨_, _, rfl⟩
  exact .inl h

def Spells (x : Reader α) (s : State) : Prop :=
  ∀ a s', x s = .ok a s' → Spelled s'.rest → Spelled s.rest

theorem Still.spells {x : Reader α} (h : Still x) (s : State) : Spells x s :=
  fun a s' hrun hrest => h s a s' hrun ▸ hrest

theorem spells_bind {x : Reader α} {f : α → Reader β} (hx : Spells x s)
    (hf : ∀ a s', x s = .ok a s' → Spells (f a) s') : Spells (x >>= f) s := by
  intro b s' h hrest
  obtain ⟨a, s₁, h₁, h⟩ := ok_of_bind h
  exact hx _ _ h₁ (hf a s₁ h₁ _ _ h hrest)

theorem spells_still {x : Reader α} {f : α → Reader β} (hx : Still x)
    (hf : ∀ a s', s'.rest = s.rest → Spells (f a) s') : Spells (x >>= f) s :=
  spells_bind (hx.spells s) fun a s' h => hf a s' (hx s a s' h)

theorem spells_ite {c : Prop} [Decidable c] {x y : Reader α} (hx : c → Spells x s)
    (hy : ¬ c → Spells y s) : Spells (if c then x else y) s := by
  split
  · next hc => exact hx hc
  · next hc => exact hy hc

theorem spells_advance {rest : Text} {f : Unit → Reader β} (h : Spelled rest → Spelled s.rest)
    (hf : Spells (f ⟨⟩) { s with rest := rest }) : Spells (advance rest >>= f) s :=
  fun b s' hrun hrest => h (hf b s' hrun hrest)

theorem spells_advanced {rest : Text} (h : Spelled rest → Spelled s.rest) :
    Spells (advance rest) s := by
  intro a s' hrun hrest
  cases hrun
  exact h hrest

theorem spells_ahead {f : Text → Reader β} (hf : ∀ t, Spells (f t) { s with rest := t }) :
    Spells (ahead >>= f) s :=
  fun b s' hrun hrest => spelled_of_skipBlanks false s.rest (hf _ b s' hrun hrest)

theorem spells_read {x : Except Trouble (α × Text)} {f : α → Reader β} {o : Option Text}
    (hx : Stops o x) (h : ∀ rest, o = some rest → Spelled rest → Spelled s.rest)
    (hf : ∀ a s', Spells (f a) s') : Spells (read src x >>= f) s := by
  refine spells_bind ?_ fun a s' _ => hf a s'
  rcases x with ⟨m, place⟩ | ⟨a, rest⟩
  · exact still_failAt.spells s
  · exact spells_advance (h rest hx) ((still_pure a).spells _)

theorem spells_newToken (f : Nat → Pattern) : Spells (do token (f (← freshId))) s :=
  (still_bind still_freshId fun _ => still_token _).spells s

theorem spells_literal {how : Comparison} {c : Nat} {t : Text} (hc : isQuote c)
    (h : Spelled (c :: t) → Spelled s.rest) : Spells (literal src how false (c :: t)) s :=
  spells_read (stops_literalBody (.inl hc) _ t)
    (fun _ hrest hspelled => h (spelled_literal hc hrest hspelled)) fun _ _ => spells_newToken _

theorem spells_verbatim {how : Comparison} {t : Text} (hs : s.rest = 'v'.toNat :: t)
    (hquote : t.head?.any isQuote) : Spells (literal src how true t) s := by
  cases t with
  | nil => cases hquote
  | cons c t =>
    refine spells_read (stops_verbatimBody c (c :: t) t) (fun rest hrest hspelled => ?_)
      fun a _ => spells_newToken _
    rw [hs]
    exact spelled_verbatim hquote hrest hspelled

theorem spells_affixed {how : Comparison} {c : Nat} {t : Text} (hs : s.rest = c :: t)
    (hc : c = 'i' ∨ c = 'y') (hquote : t.head?.any isQuote) :
    Spells (literal src how false t) s := by
  obtain ⟨d, hd, hd'⟩ := (Option.any_eq_true _ _).1 hquote
  obtain ⟨u, rfl⟩ := List.head?_eq_some_iff.1 hd
  refine spells_literal hd' fun h => ?_
  rw [hs]
  exact spelled_affix hc hquote h

theorem spells_characterClass {start t : Text} (hs : s.rest = '['.toNat :: t) :
    Spells (characterClass src start t) s := by
  refine spells_read (stops_classAfter start t) (fun rest hrest hspelled => ?_)
    fun a _ => spells_newToken _
  rw [hs]
  exact spelled_class hrest hspelled

theorem spells_sign {c : Nat} {t : Text} {f : Unit → Reader β} (hc : c ∈ signs)
    (hs : s.rest = c :: t) (hf : Spells (f ⟨⟩) { s with rest := t }) : Spells (advance t >>= f) s :=
  spells_advance (fun h => hs ▸ spelled_sign hc h) hf

theorem spells_backReference {how : Comparison} {t : Text}
    (h : Spelled ('$' :: t) → Spelled s.rest) : Spells (backReference src how ('$' :: t)) s := by
  refine spells_ite (fun _ => still_failAt.spells s) fun _ =>
    spells_still (still_sound _) fun n s₁ h₁ => ?_
  refine spells_advance (fun hrest => ?_) ?_
  · rw [h₁]
    exact h (spelled_sign (by decide) (spelled_of_digits hrest))
  · refine Still.spells (still_bind still_get fun _ => still_ite ?_ still_failAt) _
    exact still_bind still_freshId fun _ => still_pure _

/-- A reference with an affix: the affix and the dollar sign read as a name and a sign. -/
theorem spells_affixedReference {how : Comparison} {c : Nat} {t : Text} (hs : s.rest = c :: t)
    (hc : c = 'i' ∨ c = 'y') (hnext : t.head? = some '$'.toNat) :
    Spells (do token (← backReference src how t)) s := by
  obtain ⟨u, rfl⟩ := List.head?_eq_some_iff.1 hnext
  refine spells_bind (spells_backReference fun h => ?_) fun p s₁ _ => (still_token p).spells s₁
  have hname : name? (c :: '$'.toNat :: u) = some ([c], '$'.toNat :: u) := by
    rcases hc with rfl | rfl <;> rfl
  rw [hs]
  exact spelled_of_name? hname h fun hquote => by cases hquote

theorem spells_suffixes (room : Nat) (p : Pattern) : Spells (suffixes room p) s := by
  induction room generalizing p s with
  | zero => exact (still_pure p).spells s
  | succ room ih =>
    refine spells_ahead fun t => ?_
    split
    · next c t =>
      refine spells_ite (fun hc => ?_) fun _ => ?_
      · subst hc
        exact spells_sign (by decide) rfl (spells_still still_freshId fun _ _ _ => ih _)
      refine spells_ite (fun hc => ?_) fun _ => ?_
      · subst hc
        exact spells_sign (by decide) rfl (spells_still still_freshId fun _ _ _ => ih _)
      refine spells_ite (fun hc => ?_) fun _ => (still_pure p).spells _
      subst hc
      exact spells_sign (by decide) rfl
        (spells_still still_freshId fun _ _ _ => spells_still still_freshId fun _ _ _ => ih _)
    · exact (still_pure p).spells _

theorem spells_close {wanted opener : Nat} {start : Text} (hw : wanted ∈ signs) :
    Spells (close src wanted opener start) s := by
  refine spells_ahead fun t => ?_
  split
  · exact still_failAt.spells _
  · next c t =>
    refine spells_ite (fun hc => spells_advanced fun h => ?_) fun _ => still_fail.spells _
    exact spelled_sign (hc ▸ hw) h

theorem spells_builtin {start t : Text} (hs : s.rest = '\\'.toNat :: t) :
    Spells (builtin src start t) s := by
  refine spells_bind ((still_named _).spells s) fun o s₁ h₁ => ?_
  have hs₁ : s₁.rest = '\\'.toNat :: t := (still_named _ _ _ _ h₁).trans hs
  split
  · next p =>
    refine spells_advance (fun hrest => ?_) ((still_token p).spells _)
    rw [hs₁]
    exact spelled_named (if_pos (mem_patternNames_of_named h₁)) hrest
  · refine spells_ite (fun _ => still_failAt.spells _) fun hlong => ?_
    split
    · exact still_failAt.spells _
    · next c rest he =>
      refine spells_advance (fun hrest => ?_) (spells_newToken _)
      rw [hs₁]
      refine spelled_named ?_ hrest
      have hunknown : t.takeWhile Token.isLetter ∉ patternNames := by
        intro hmem
        rcases named_of_mem_patternNames hmem with hskip | hknown
        · rw [hskip] at hlong
          exact hlong (by decide)
        · obtain ⟨p, s', hp⟩ := hknown s
          rw [hp] at h₁
          cases h₁
      simp only [Token.named?]
      rw [if_neg hunknown, if_neg hlong, he]
      rfl

theorem spells_map {x : Reader α} (hx : Spells x s) {f : α → Nat → β} :
    Spells (do let a ← x; return f a (← freshId)) s :=
  spells_bind hx fun _ s₁ _ => (still_bind still_freshId fun _ => still_pure _).spells s₁

structure ReadersSpell (src : Source) (fuel : Nat) : Prop where
  expression : ∀ s, Spells (expression src fuel) s
  alternatives : ∀ s, Spells (alternatives src fuel) s
  sequence : ∀ s, Spells (sequence src fuel) s
  items : ∀ s, Spells (items src fuel) s
  prefixed : ∀ s, Spells (prefixed src fuel) s
  primary : ∀ s, Spells (primary src fuel) s

section

variable {fuel : Nat} (ih : ReadersSpell src fuel)
include ih

theorem spells_expression : Spells (expression src (fuel + 1)) s :=
  spells_bind (ih.sequence s) fun _ s₁ _ => spells_map (ih.alternatives s₁)

theorem spells_alternatives : Spells (alternatives src (fuel + 1)) s := by
  refine spells_ahead fun t => ?_
  split
  · refine spells_sign (by decide) rfl (spells_bind (ih.sequence _) fun p s₁ _ => ?_)
    exact spells_bind (ih.alternatives s₁) fun ps s₂ _ => (still_pure _).spells s₂
  · exact (still_pure _).spells _

theorem spells_sequence : Spells (sequence src (fuel + 1)) s :=
  spells_map (ih.items s)

theorem spells_items : Spells (items src (fuel + 1)) s := by
  refine spells_ahead fun t => ?_
  split
  · exact (still_pure _).spells _
  · refine spells_ite (fun _ => (still_pure _).spells _) fun _ =>
      spells_still still_get fun _ s₁ hs₁ => ?_
    refine spells_ite (fun _ => (still_pure _).spells _) fun _ => ?_
    refine spells_bind (ih.prefixed s₁) fun p s₂ _ => ?_
    exact spells_bind (ih.items s₂) fun ps s₃ _ => (still_pure _).spells s₃

theorem spells_prefixed : Spells (prefixed src (fuel + 1)) s := by
  refine spells_ahead fun t => ?_
  split
  · exact spells_sign (by decide) rfl (spells_map (ih.prefixed _))
  · exact spells_sign (by decide) rfl (spells_map (ih.prefixed _))
  · exact spells_sign (by decide) rfl (spells_map (ih.prefixed _))
  · next t =>
    refine spells_still still_openCapture fun slot s₁ h₁ => ?_
    have hs₁ : s₁.rest = '{'.toNat :: '@'.toNat :: '}'.toNat :: t := h₁
    refine spells_advance (fun h => ?_) ?_
    · rw [hs₁]
      exact spelled_sign (by decide) (spelled_sign (by decide) (spelled_sign (by decide) h))
    · refine spells_bind (ih.prefixed _) fun p s₂ _ => ?_
      exact spells_still (still_captureId slot) fun id s₃ _ => (still_token _).spells s₃
  · refine spells_bind (ih.primary _) fun p s₁ _ => spells_still still_get fun _ s₂ _ =>
      spells_suffixes _ p

theorem spells_primary : Spells (primary src (fuel + 1)) s := by
  refine spells_ahead fun t => ?_
  split
  · exact still_fail.spells _
  next c t =>
  have simple {p : Pattern} (hc : c ∈ signs) :
      Spells (do advance t; token p) { s with rest := c :: t } :=
    spells_sign hc rfl ((still_token p).spells _)
  refine spells_ite (fun hc => spells_literal hc id) fun _ => ?_
  refine spells_ite (fun h => spells_affixed rfl (.inl h.1) h.2) fun hi => ?_
  refine spells_ite (fun h => ?_) fun hv => ?_
  · obtain ⟨rfl, hquote⟩ := h
    exact spells_verbatim rfl hquote
  refine spells_ite (fun h => spells_affixed rfl (.inr h.1) h.2) fun hy => ?_
  refine spells_ite (fun h => spells_affixedReference rfl (.inl h.1) h.2) fun _ => ?_
  refine spells_ite (fun h => spells_affixedReference rfl (.inr h.1) h.2) fun _ => ?_
  refine spells_ite (fun hc => ?_) fun _ => ?_
  · subst hc
    refine spells_ite (fun _ => ?_) fun _ => ?_
    · exact spells_bind (spells_backReference id) fun p s₁ _ => (still_token p).spells s₁
    · exact spells_sign (by decide) rfl (spells_newToken _)
  refine spells_ite (fun hc => ?_) fun _ => ?_
  · subst hc
    refine spells_sign (by decide) rfl (spells_bind (ih.expression _) fun p s₁ _ => ?_)
    exact spells_bind (spells_close (by decide)) fun _ s₂ _ => (still_pure p).spells s₂
  refine spells_ite (fun hc => ?_) fun _ => ?_
  · subst hc
    refine spells_still still_openCapture fun slot s₁ h₁ => spells_sign (by decide) h₁ ?_
    refine spells_bind (ih.expression _) fun p s₂ _ => spells_bind (spells_close (by decide))
      fun _ s₃ _ => ?_
    exact spells_still (still_captureId slot) fun id s₄ _ => (still_pure _).spells s₄
  refine spells_ite (fun hc => ?_) fun _ => ?_
  · subst hc
    exact spells_characterClass rfl
  refine spells_ite (fun hc => ?_) fun _ => ?_
  · exact simple (by subst hc; decide)
  refine spells_ite (fun hc => ?_) fun _ => ?_
  · exact simple (by subst hc; decide)
  refine spells_ite (fun hc => ?_) fun _ => ?_
  · exact simple (by subst hc; decide)
  refine spells_ite (fun hc => ?_) fun _ => ?_
  · subst hc
    refine spells_ite (fun hskip => ?_) fun _ => spells_builtin rfl
    refine spells_advance (spelled_named ?_) (spells_bind (ih.prefixed _) fun p s₁ _ => ?_)
    · simp only [Token.named?, hskip]
      rfl
    · exact (still_bind (still_modify (f := fun s => { s with skip := p }) fun _ => rfl)
        fun _ => still_pure _).spells s₁
  split
  · next name rest hname =>
    refine spells_advance (fun h => spelled_of_name? hname h fun hquote => ?_)
      ((still_reference _ _).spells _)
    exact ⟨fun hc => hi ⟨hc, hquote⟩, fun hc => hv ⟨hc, hquote⟩, fun hc => hy ⟨hc, hquote⟩⟩
  · exact (still_ite still_fail still_fail).spells _

end

theorem readersSpell (src : Source) (fuel : Nat) : ReadersSpell src fuel := by
  induction fuel with
  | zero =>
    exact ⟨still_tooDeep.spells, still_tooDeep.spells, still_tooDeep.spells, still_tooDeep.spells,
      still_tooDeep.spells, still_tooDeep.spells⟩
  | succ fuel ih =>
    exact ⟨fun _ => spells_expression ih, fun _ => spells_alternatives ih,
      fun _ => spells_sequence ih, fun _ => spells_items ih, fun _ => spells_prefixed ih,
      fun _ => spells_primary ih⟩

theorem spells_rules (room : Nat) : Spells (rules src room) s := by
  induction room generalizing s with
  | zero => exact (still_pure _).spells s
  | succ room ih =>
    refine spells_ahead fun t => ?_
    split
    · exact (still_pure _).spells _
    · next c t =>
      simp only
      split
      · exact still_fail.spells _
      · next name rest hheader =>
        refine spells_still (still_ruleNamed name _) fun r s₁ h₁ =>
          spells_still still_get fun _ s₂ h₂ => ?_
        refine spells_ite (fun _ => still_failAt.spells _) fun _ => ?_
        refine spells_still (still_modify fun _ => rfl) fun _ s₃ h₃ =>
          spells_advance (fun h => ?_) ?_
        · rw [h₃, h₂, h₁]
          exact spelled_of_header? hheader h
        · refine spells_bind ((readersSpell src _).expression _) fun p s₄ _ => ?_
          refine spells_still (still_modify fun _ => rfl) fun _ s₅ _ =>
            spells_still still_freshId fun id s₆ _ => ?_
          exact spells_bind ih fun _ s₇ _ => (still_pure _).spells s₇

theorem spells_grammar : Spells (grammar src) s := by
  refine spells_bind (spells_rules _) fun defs s₁ _ => spells_still still_get fun t s₂ _ => ?_
  split
  · intro a s' h
    cases h
  · split
    · exact (still_pure _).spells _
    · exact (still_bind (still_modify fun _ => rfl) fun _ =>
        still_bind still_freshId fun _ => still_pure _).spells _

theorem spelled_of_finish {p q : Pattern} {s' : State} (h : finish src p s = .ok q s') :
    Spelled s.rest := by
  obtain ⟨t, s₁, h₁, h⟩ := ok_of_bind h
  cases h₁
  cases hrest : skipBlanks false s.rest with
  | nil => exact spelled_of_skipBlanks false s.rest (hrest ▸ .nil)
  | cons c t =>
    simp only [hrest] at h
    split at h <;> cases h

theorem spelled_of_parse {store store' : Store} {p : Pattern} {log : List Notice}
    (h : parse src store = (.ok p, store', log)) : Spelled src.text := by
  have hwhole : ∃ s', whole src { rest := src.text, store := store } = .ok p s' := by
    simp only [parse, EStateM.run] at h
    split at h
    · next q s' hrun =>
      cases h
      exact ⟨s', hrun⟩
    · cases h
  obtain ⟨s', h⟩ := hwhole
  rw [whole_eq] at h
  obtain ⟨t, s₁, h₁, h⟩ := ok_of_bind h
  cases h₁
  refine spelled_of_skipBlanks false src.text ?_
  split at h
  · obtain ⟨_, s₂, h₂, h⟩ := ok_of_bind h
    cases h₂
    obtain ⟨q, s₃, h₃, h⟩ := ok_of_bind h
    exact spells_grammar _ _ h₃ (spelled_of_finish h)
  · obtain ⟨q, s₃, h₃, h⟩ := ok_of_bind h
    exact (readersSpell src _).expression _ _ _ h₃ (spelled_of_finish h)

end PegMatch.Grammar

import PegMatch.Blueprint
import PegMatch.Proofs.Identity
import PegMatch.Proofs.Nodes

set_option autoImplicit false

namespace PegMatch

open Pattern

def Allowed.nothing : Allowed where
  call _ := False
  capture _ := False
  backref _ := False

namespace Pattern

theorem normal_of_mem_singles {A : Allowed} : ∀ p ∈ singles, p.Normal A := by
  have leaf {p : Pattern} (here : p.NormalNode A) (hc : p.children = []) : p.Normal A :=
    .leaf here hc
  simp only [singles, List.forall_mem_cons]
  exact ⟨leaf trivial rfl, leaf trivial rfl, leaf trivial rfl, leaf trivial rfl, leaf trivial rfl,
    leaf trivial rfl, leaf trivial rfl, leaf trivial rfl, leaf trivial rfl, leaf trivial rfl,
    leaf trivial rfl, leaf rfl rfl, leaf rfl rfl, leaf rfl rfl, leaf rfl rfl, leaf rfl rfl,
    leaf rfl rfl, leaf rfl rfl, leaf rfl rfl, by simp⟩

end Pattern

namespace Blueprint

/-- Constructors that are applied to texts, to nodes that exist once and to each other, without
rules, captures and back references. -/
inductive Plain : Blueprint → Prop where
  | text (t : Text) : Plain (.value (.text t))
  | node {p : Pattern} (h : p ∈ singles) : Plain (.node p)
  | literal (how : Comparison) (t : Text) : Plain (.literal how (.value (.text t)))
  | char (t : Text) : Plain (.char (.value (.text t)))
  | set (t : Text) (negated : Bool) : Plain (.set (.value (.text t)) (.value (.bool negated)))
  | ident : Plain .ident
  | endAnchor : Plain .endAnchor
  | sequence {bs : List Blueprint} (h : ∀ b ∈ bs, Plain b) : Plain (.sequence bs)
  | choice {bs : List Blueprint} (h : ∀ b ∈ bs, Plain b) : Plain (.choice bs)
  | append {a b : Blueprint} (ha : Plain a) (hb : Plain b) : Plain (.append a b)
  | orElse {a b : Blueprint} (ha : Plain a) (hb : Plain b) : Plain (.orElse a b)
  | wrap {w : Wrapper} {b : Blueprint} (hw : w ≠ .capturedSearch) (hb : Plain b) : Plain (.wrap w b)
  | asPattern {b : Blueprint} (hb : Plain b) : Plain (.asPattern b)
  | bind {name : String} {a b : Blueprint} (ha : Plain a) (hb : Plain b) : Plain (.bind name a b)
  | ref {name : String} : Plain (.ref name)

def Made (H : Set Pattern) (p : Pattern) : Prop :=
  p ∈ H ∧ p.Normal .nothing

/-- A text or a pattern of the pool. -/
def Given (H : Set Pattern) : Value Pattern → Prop
  | .pattern p => Made H p
  | .datum (.text _) => True
  | _ => False

/-- All nodes are in the pool, and names stand for texts and patterns. -/
structure Stocked (H : Set Pattern) (scope : Scope) (l : Library) : Prop where
  pool : Pool H l.store.fresh
  bound : ∀ n ∈ scope.bound, Given H n.2

def Builds {α : Type} (H : Set Pattern) (x : Builder α) (R : α → Set Pattern → Prop) : Prop :=
  ∀ scope l, Stocked H scope l → ∀ a scope' l', x scope l = .ok (a, scope') l' →
    ∃ H', H ⊆ H' ∧ Stocked H' scope' l' ∧ R a H'

variable {α β : Type} {H H' : Set Pattern} {x : Builder α} {f : α → Builder β}
  {R : α → Set Pattern → Prop} {Q : β → Set Pattern → Prop} {p : Pattern} {v w : Value Pattern}
  {vs : List (Value Pattern)}

theorem Made.mono (h : Made H p) (hH : H ⊆ H') : Made H' p :=
  ⟨hH h.1, h.2⟩

theorem Given.mono (h : Given H v) (hH : H ⊆ H') : Given H' v := by
  cases v with
  | pattern p => exact Made.mono h hH
  | rule r => exact h
  | datum d => cases d <;> exact h

theorem ok_of_bind {scope scope' : Scope} {l l' : Library} {b : β}
    (h : (x >>= f) scope l = .ok (b, scope') l') :
    ∃ a scope₁ l₁, x scope l = .ok (a, scope₁) l₁ ∧ f a scope₁ l₁ = .ok (b, scope') l' := by
  simp only [Bind.bind, StateT.bind, EStateM.bind] at h
  split at h
  · next a l₁ ha => exact ⟨a.1, a.2, l₁, ha, h⟩
  · cases h

theorem builds_bind (hx : Builds H x R) (hf : ∀ a H', H ⊆ H' → R a H' → Builds H' (f a) Q) :
    Builds H (x >>= f) Q := by
  intro scope l hs b scope' l' h
  obtain ⟨a, scope₁, l₁, ha, hb⟩ := ok_of_bind h
  obtain ⟨H₁, hH₁, hs₁, hR⟩ := hx scope l hs a scope₁ l₁ ha
  obtain ⟨H₂, hH₂, hs₂, hQ⟩ := hf a H₁ hH₁ hR scope₁ l₁ hs₁ b scope' l' hb
  exact ⟨H₂, hH₁.trans hH₂, hs₂, hQ⟩

theorem builds_pure {a : α} (h : R a H) : Builds H (pure a) R := by
  intro scope l hs b scope' l' hb
  cases hb
  exact ⟨H, fun _ h => h, hs, h⟩

theorem builds_throw {e : Failure} : Builds H (throw e : Builder α) R :=
  fun _ _ _ _ _ _ h => by cases h

theorem builds_node {k : Nat → Pattern} (hk : ∀ n, Pool H n → Pool.Takes H n (k n))
    (hn : ∀ n, (k n).Normal .nothing) :
    Builds H (do return k (← Library.freshId)) fun p H' => Made H' p := by
  intro scope l hs b scope' l' h
  cases h
  obtain ⟨H', hH, hpool, hmem⟩ := hk _ hs.pool
  exact ⟨H', hH, ⟨hpool, fun n hn => (hs.bound n hn).mono hH⟩, hmem, hn _⟩

theorem builds_toPattern (h : Given H v) : Builds H (toPattern v) fun p H' => Made H' p := by
  cases v with
  | pattern p => exact builds_pure h
  | rule r => exact h.elim
  | datum d =>
    cases d with
    | text t => exact builds_node (fun _ hn => hn.takes_text .exact t) fun n => normal_term n t
    | _ => exact h.elim

theorem builds_toPatterns (h : ∀ v ∈ vs, Given H v) :
    Builds H (toPatterns vs) fun ps H' => ∀ p ∈ ps, Made H' p := by
  unfold toPatterns
  induction vs generalizing H with
  | nil => exact builds_pure (by simp)
  | cons v vs ih =>
    rw [List.mapM_cons]
    refine builds_bind (builds_toPattern (h v (by simp))) fun p H₁ h₁ hp => ?_
    refine builds_bind (ih fun w hw => (h w (by simp [hw])).mono h₁)
      fun ps H₂ h₂ hps => builds_pure ?_
    exact List.forall_mem_cons.2 ⟨hp.mono h₂, hps⟩

theorem builds_sequence (h : ∀ v ∈ vs, Given H v) :
    Builds H (makeSequence vs) fun p H' => Made H' p := by
  refine builds_bind (builds_toPatterns h) fun ps H₁ _ hps => ?_
  exact builds_node (fun _ hn => hn.takes_seq fun p hp => (hps p hp).1) fun n =>
    normal_seq n fun p hp => (hps p hp).2

theorem builds_choice (h : ∀ v ∈ vs, Given H v) :
    Builds H (makeChoice vs) fun p H' => Made H' p := by
  refine builds_bind (builds_toPatterns h) fun ps H₁ _ hps => ?_
  cases ps with
  | nil => exact builds_throw
  | cons p ps =>
    exact builds_node (fun _ hn => hn.takes_alt fun q hq => (hps q hq).1) fun n =>
      normal_alt n fun q hq => (hps q hq).2

theorem builds_value {x : Builder Pattern} (hx : Builds H x fun p H' => Made H' p) :
    Builds H (do return .pattern (← x)) fun v H' => Given H' v :=
  builds_bind hx fun _ _ _ hp => builds_pure hp

theorem builds_add (hv : Given H v) (hw : Given H w) :
    Builds H (add v w) fun u H' => Given H' u := by
  have hpair : ∀ u ∈ [v, w], Given H u := by simpa using ⟨hv, hw⟩
  have pattern := builds_value (builds_sequence hpair)
  match v, w, hv, hw with
  | .pattern p, .pattern q, _, _ => exact pattern
  | .pattern p, .datum (.text t), _, _ => exact pattern
  | .datum (.text t), .pattern p, _, _ => exact pattern
  | .datum (.text t), .datum (.text u), _, _ =>
    intro scope l hs b scope' l' h
    cases h
    exact ⟨H, fun _ h => h, hs, trivial⟩

theorem builds_either (hv : Given H v) (hw : Given H w) :
    Builds H (either v w) fun u H' => Given H' u := by
  have hpair : ∀ u ∈ [v, w], Given H u := by simpa using ⟨hv, hw⟩
  have pattern := builds_value (builds_choice hpair)
  match v, w, hv, hw with
  | .pattern p, .pattern q, _, _ => exact pattern
  | .pattern p, .datum (.text t), _, _ => exact pattern
  | .datum (.text t), .pattern p, _, _ => exact pattern
  | .datum (.text t), .datum (.text u), _, _ => exact fun _ _ _ _ _ _ h => by cases h

theorem builds_wrapped {w : Wrapper} (hw : w ≠ .capturedSearch) (hp : Made H p) :
    Builds H (makeWrapped w p) fun q H' => Made H' q := by
  have single {k : Nat → Pattern} (hid : ∀ n, (k n).id = n) (hc : ∀ n, (k n).children = [p])
      (here : ∀ n, (k n).NormalNode .nothing) :
      Builds H (do return k (← Library.freshId)) fun q H' => Made H' q :=
    builds_node (fun n hn => hn.takes_single (hid n) (hc n) hp.1) fun n =>
      .single (here n) (hc n) hp.2
  cases w with
  | star => exact builds_node (fun _ hn => hn.takes_repeated hp.1) fun n => normal_repeated n hp.2
  | plus =>
    intro scope l hs b scope' l' h
    cases h
    obtain ⟨H', hH, hpool, hmem⟩ := hs.pool.takes_plus hp.1
    exact ⟨H', hH, ⟨hpool, fun n hn => (hs.bound n hn).mono hH⟩, hmem, normal_plus _ _ hp.2⟩
  | option => exact builds_node (fun _ hn => hn.takes_opt hp.1) fun n => normal_opt n hp.2
  | peek => exact single (fun _ => rfl) (fun _ => rfl) fun _ => trivial
  | not => exact single (fun _ => rfl) (fun _ => rfl) fun _ => trivial
  | search => exact single (fun _ => rfl) (fun _ => rfl) fun _ => trivial
  | capturedSearch => exact absurd rfl hw

theorem builds_ident : Builds H makeIdent fun p H' => Made H' p := by
  intro scope l hs b scope' l' h
  cases h
  obtain ⟨H', hH, hpool, hmem⟩ := hs.pool.takes_ident
  exact ⟨H', hH, ⟨hpool, fun n hn => (hs.bound n hn).mono hH⟩, hmem, normal_ident _ _ _⟩

theorem builds_each {bs : List Blueprint}
    (h : ∀ b ∈ bs, ∀ H, Builds H (eval b) fun v H' => Given H' v) (H : Set Pattern) :
    Builds H (evalEach bs) fun vs H' => ∀ v ∈ vs, Given H' v := by
  induction bs generalizing H with
  | nil =>
    rw [evalEach]
    exact builds_pure (by simp)
  | cons b bs ih =>
    rw [evalEach]
    refine builds_bind (h b (by simp) H) fun v H₁ _ hv => ?_
    refine builds_bind (ih (fun c hc => h c (by simp [hc])) H₁) fun vs H₂ h₂ hvs => builds_pure ?_
    exact List.forall_mem_cons.2 ⟨hv.mono h₂, hvs⟩

theorem Plain.builds {b : Blueprint} (h : Plain b) (H : Set Pattern) :
    Builds H (eval b) fun v H' => Given H' v := by
  induction h generalizing H with
  | text t =>
    rw [eval]
    exact builds_pure trivial
  | @node p hp =>
    rw [eval]
    intro scope l hs v scope' l' h
    cases h
    exact ⟨H, fun _ h => h, hs, hs.pool.given p hp, normal_of_mem_singles p hp⟩
  | literal how t =>
    rw [eval, eval]
    exact builds_value (builds_node (fun _ hn => hn.takes_text how t) fun n => normal_text n how t)
  | char t =>
    rw [eval, eval]
    match t with
    | [c] =>
      exact builds_value
        (builds_node (k := fun n => .char n c) (fun _ hn => hn.takes_leaf rfl rfl) fun n =>
        .leaf trivial rfl)
    | [] => exact fun _ _ _ _ _ _ h => by cases h
    | _ :: _ :: _ => exact fun _ _ _ _ _ _ h => by cases h
  | set t negated =>
    rw [eval, eval, eval]
    have hsense : senseOf (.datum (.bool negated)) = .ofBool negated := by cases negated <;> rfl
    refine builds_value
      (builds_node (k := fun n => .set n (.ofText t) (senseOf (.datum (.bool negated))))
        (fun _ hn => hn.takes_leaf rfl rfl) fun n => ?_)
    rw [hsense]
    exact normal_set n _ negated
  | ident =>
    rw [eval]
    exact builds_value builds_ident
  | endAnchor =>
    rw [eval]
    exact builds_value (builds_node (fun _ hn => hn.takes_endAnchor) fun n => normal_endAnchor n)
  | sequence _ ih =>
    rw [eval]
    exact builds_bind (builds_each ih H) fun vs _ _ hvs => builds_value (builds_sequence hvs)
  | choice _ ih =>
    rw [eval]
    exact builds_bind (builds_each ih H) fun vs _ _ hvs => builds_value (builds_choice hvs)
  | append _ _ iha ihb =>
    rw [eval]
    exact builds_bind (iha H) fun v H₁ _ hv => builds_bind (ihb H₁) fun w _ h₂ hw =>
      builds_add (hv.mono h₂) hw
  | orElse _ _ iha ihb =>
    rw [eval]
    exact builds_bind (iha H) fun v H₁ _ hv => builds_bind (ihb H₁) fun w _ h₂ hw =>
      builds_either (hv.mono h₂) hw
  | wrap hw _ ih =>
    rw [eval]
    exact builds_bind (ih H) fun v _ _ hv => builds_bind (builds_toPattern hv) fun p _ _ hp =>
      builds_value (builds_wrapped hw hp)
  | asPattern _ ih =>
    rw [eval]
    exact builds_bind (ih H) fun v _ _ hv => builds_value (builds_toPattern hv)
  | @bind name a b _ _ iha ihb =>
    rw [eval]
    refine builds_bind (iha H) fun v H₁ _ hv => builds_bind (R := fun _ _ => True) ?_
      fun _ H₂ _ _ => ihb H₂
    intro scope l hs u scope' l' h
    cases h
    exact ⟨H₁, fun _ h => h, ⟨hs.pool, List.forall_mem_cons.2 ⟨hv, hs.bound⟩⟩, trivial⟩
  | @ref name =>
    rw [eval]
    intro scope l hs v scope' l' h
    obtain ⟨known, scope₁, l₁, h₁, h⟩ := ok_of_bind h
    cases h₁
    cases hu : scope.bound.lookup name with
    | none =>
      simp only [hu] at h
      cases h
    | some u =>
      simp only [hu] at h
      cases h
      obtain ⟨before, behind, hsplit, -⟩ := List.lookup_eq_some_iff.1 hu
      exact ⟨H, fun _ h => h, hs, hs.bound (name, v) (by simp [hsplit])⟩

/-- So the whole of it is a tree that refers to nothing, with nodes that their identities tell
apart. -/
theorem Plain.made {b : Blueprint} (h : Plain b) {l l' : Library} (hf : firstFresh ≤ l.store.fresh)
    (hb : b.build l = .ok (.pattern p) l') : ∃ H, Pool H l'.store.fresh ∧ Made H p := by
  simp only [build, StateT.run, Bind.bind, EStateM.bind] at hb
  split at hb
  · next a l₁ ha =>
    obtain ⟨v, scope⟩ := a
    cases hb
    obtain ⟨H, -, hs, hp⟩ := h.builds _ {} l ⟨.start hf, by simp⟩ _ scope l' ha
    exact ⟨H, hs.pool, hp⟩
  · cases hb

end Blueprint

end PegMatch

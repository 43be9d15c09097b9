import PegMatch.Proofs.Located
import PegMatch.Proofs.Renumbering
import PegMatch.Proofs.Windows

set_option autoImplicit false

/-! The reader weaves trees, where what is skipped captures nothing and calls quiet rules only. Of a
tree it is also known that its back references are written with few digits, and that it calls no
rule whose body stood in place of the call. -/

namespace PegMatch

/-- The numbers of back references are short enough to be written. -/
def Allowed.short (call : Nat → Prop) : Allowed where
  call := call
  capture _ := True
  backref slot := (Text.numeral (slot + 1)).length ≤ Text.mostDigits

/-- Where rules have bodies, an empty one is called only if it does not stand in place of the
call. -/
def Allowed.standing (limit : Int) (body : Nat → Option Pattern) : Allowed :=
  .short fun r => body r = some .empty → limit ≤ 0

theorem Pattern.Normal.inter {A B : Allowed} {p : Pattern} (h : p.Normal A) (h' : p.Normal B) :
    p.Normal ⟨fun r => A.call r ∧ B.call r, fun id => A.capture id ∧ B.capture id,
      fun k => A.backref k ∧ B.backref k⟩ := by
  induction h with
  | @node p here _ ih =>
    refine .node ?_ fun q hq => ih q hq (h'.child hq)
    have here' := h'.here
    cases p with
    | call i r => exact ⟨here, here'⟩
    | capture i q => exact ⟨here, here'⟩
    | capturedSearch i q => exact ⟨here, here'⟩
    | backref i how slot => exact ⟨here, here'⟩
    | literal i how t => cases how <;> exact here
    | _ => exact here

namespace Grammar

open Pattern

theorem numeralValue_lt {ds : Text} (h : ∀ d ∈ ds, Text.isAsciiDigit d) :
    Text.numeralValue ds < Nat.pow 10 ds.length := by
  induction ds using List.reverseRecOn with
  | nil => exact Nat.one_pos
  | append_singleton ds d ih =>
    have hd := h d (by simp)
    have hds := ih fun c hc => h c (by simp [hc])
    simp only [Text.isAsciiDigit, Bool.and_eq_true, decide_eq_true_eq] at hd
    have hpow : Nat.pow 10 (ds ++ [d]).length = 10 * Nat.pow 10 ds.length := by
      simp [Nat.pow_succ, Nat.mul_comm]
    rw [Text.numeralValue_concat, hpow]
    simp only [Char.reduceToNat] at hd ⊢
    omega

theorem length_numeral_of_decimal {ds : Text} {n : Nat} (hne : ds ≠ [])
    (h : ∀ d ∈ ds, Text.isAsciiDigit d) (hn : ds.decimal = .ok n) :
    (Text.numeral n).length ≤ Text.mostDigits := by
  rcases decimal_cases h with ⟨hlength, hvalue⟩ | ⟨-, herror⟩
  · obtain ⟨k, hk⟩ := Nat.exists_eq_succ_of_ne_zero (List.length_pos_of_ne_nil hne).ne'
    obtain rfl := Except.ok.inj (hn.symm.trans hvalue)
    have hlt := numeralValue_lt h
    rw [hk] at hlt
    have := Token.length_numeral_le hlt
    omega
  · cases hn.symm.trans herror

/-- What is skipped captures nothing and calls quiet rules only. None of these stands in place of
its calls with an empty body. The rules have the given bodies, and the numbers in all these are
short. -/
structure Calm (limit : Int) (quiet : Nat → Prop) (body : Nat → Option Pattern) (s : State) :
    Prop where
  skip : s.skip.Normal (.sparing quiet)
  short : s.skip.Normal (.short fun _ => True)
  filled : ∀ r, quiet r → body r = some .empty → limit ≤ 0
  bodies : ∀ r, bodyOf s r = body r
  named : ∀ r ∈ s.names.map Prod.snd, ∀ p, body r = some p → p.Normal (.short fun _ => True)

/-- A tree that is woven from a window, and what it may refer to. -/
structure Spun (quiet : Nat → Prop) (A : Allowed) (lo hi : Nat) (p : Pattern) : Prop where
  woven : Woven (.sparing quiet) lo hi p
  normal : p.Normal A

variable {α β : Type} {limit : Int} {quiet : Nat → Prop} {body : Nat → Option Pattern} {A : Allowed}
  {lo hi lo' hi' id : Nat} {p q : Pattern} {ps : List Pattern} {s s' s'' : State} {x : Reader α}
  {f : α → Reader β} {R : Nat → α → Prop} {Q : Nat → β → Prop} {src : Source}

namespace Spun

theorem mono (h : Spun quiet A lo hi p) (hlo : lo' ≤ lo) (hhi : hi ≤ hi') :
    Spun quiet A lo' hi' p :=
  ⟨h.woven.mono hlo hhi, h.normal⟩

theorem of_normal (h : ∀ A, p.Normal A) : Spun quiet A lo hi p :=
  ⟨.shared (h _), h _⟩

theorem all (h : Spun quiet A lo hi p) : p.Normal .all :=
  h.normal.mono A.less_all

theorem seq (h : Row (.sparing quiet) lo hi (ps.flatMap sequenceItems)) (hn : ∀ p ∈ ps, p.Normal A)
    (first : lo ≤ id) (last : id < hi) : Spun quiet A lo hi (.seq id ps) :=
  ⟨.seq h first last, normal_seq id hn⟩

end Spun

theorem row_of_sparing (h : p.Normal (.sparing quiet)) :
    Row (.sparing quiet) lo hi p.sequenceItems :=
  .of_shared fun _ hq => (mem_sequenceItems h hq).2

theorem Calm.quietly (h : Calm limit quiet body s) (hq : Quiet s s') :
    Calm limit quiet body s' := by
  refine ⟨hq.skip ▸ h.skip, hq.skip ▸ h.short, h.filled, fun r => (hq.bodies r).trans (h.bodies r),
    fun r hr p hp => ?_⟩
  rcases hq.names r hr with hr | hnone
  · exact h.named r hr p hp
  · rw [hq.bodies, h.bodies, hp] at hnone
    cases hnone

theorem Calm.standing (h : Calm limit quiet body s) : s.skip.Normal (.standing limit body) :=
  (h.skip.inter h.short).mono ⟨fun r hr => h.filled r hr.1, fun _ _ => trivial, fun _ h => h.2⟩

theorem sparing_of_pure (h : p.Normal .pure) : p.Normal (.sparing quiet) :=
  h.mono ⟨fun _ h => h.elim, fun _ h => h, fun _ h => h⟩

theorem standing_of_pure (h : p.Normal .pure) (hs : p.Normal (.short fun _ => True)) :
    p.Normal (.standing limit body) :=
  (h.inter hs).mono ⟨fun _ h => h.1.elim, fun _ _ => trivial, fun _ h => h.2⟩

theorem short_of_standing (h : p.Normal (.standing limit body)) : p.Normal (.short fun _ => True) :=
  h.mono ⟨fun _ _ => trivial, fun _ h => h, fun _ h => h⟩

/-- The reader keeps the state calm, and what it returns is as told of the identities that are given
out then. -/
def Weaves (limit : Int) (quiet : Nat → Prop) (body : Nat → Option Pattern) (lo : Nat)
    (x : Reader α) (s : State) (R : Nat → α → Prop) : Prop :=
  Calm limit quiet body s → lo ≤ s.store.fresh → ∀ a s', x s = .ok a s' →
    Calm limit quiet body s' ∧ s.store.fresh ≤ s'.store.fresh ∧ R s'.store.fresh a

theorem weaves_bind (hx : Weaves limit quiet body lo x s R)
    (hf : ∀ a s', x s = .ok a s' → s.store.fresh ≤ s'.store.fresh → R s'.store.fresh a →
      Weaves limit quiet body lo (f a) s' Q) : Weaves limit quiet body lo (x >>= f) s Q := by
  intro hs hlo b s'' h
  obtain ⟨a, s', ha, hb⟩ := ok_of_bind h
  obtain ⟨hs', hle, hR⟩ := hx hs hlo a s' ha
  obtain ⟨hs'', hle', hQ⟩ := hf a s' ha hle hR hs' (Nat.le_trans hlo hle) b s'' hb
  exact ⟨hs'', Nat.le_trans hle hle', hQ⟩

theorem weaves_pure {a : α} (h : lo ≤ s.store.fresh → R s.store.fresh a) :
    Weaves limit quiet body lo (pure a) s R := by
  intro hs hlo b s' hb
  cases hb
  exact ⟨hs, Nat.le_refl _, h hlo⟩

theorem Weaves.from (h : Weaves limit quiet body s.store.fresh x s R) :
    Weaves limit quiet body lo x s R :=
  fun hs _ => h hs (Nat.le_refl _)

theorem weaves_failAt {rest : Text} {m : Mistake} :
    Weaves limit quiet body lo (failAt src rest m) s R :=
  fun _ _ _ _ h => by cases h

theorem weaves_fail {m : Mistake} : Weaves limit quiet body lo (fail src m) s R :=
  fun _ _ _ _ h => by cases h

theorem weaves_tooDeep : Weaves limit quiet body lo tooDeep s R :=
  fun _ _ _ _ h => by cases h

theorem weaves_ite {c : Prop} [Decidable c] {y : Reader α}
    (hx : c → Weaves limit quiet body lo x s R) (hy : ¬ c → Weaves limit quiet body lo y s R) :
    Weaves limit quiet body lo (if c then x else y) s R := by
  split
  · next h => exact hx h
  · next h => exact hy h

theorem weaves_quiet (h : ∀ a s', x s = .ok a s' → Quiet s s') :
    Weaves limit quiet body lo x s fun _ _ => True := by
  intro hs _ a s' ha
  have hq := h a s' ha
  exact ⟨hs.quietly hq, hq.fresh, trivial⟩

theorem weaves_advance (rest : Text) :
    Weaves limit quiet body lo (advance rest) s fun _ _ => True :=
  weaves_quiet fun _ _ => quiet_advance

theorem weaves_ahead : Weaves limit quiet body lo ahead s fun _ _ => True :=
  weaves_quiet fun _ _ => quiet_ahead

theorem weaves_get : Weaves limit quiet body lo (get : Reader State) s fun _ _ => True :=
  weaves_quiet fun _ _ h => by cases h; exact quiet_of_same rfl rfl rfl rfl

theorem weaves_sound {e : Except Fault α} :
    Weaves limit quiet body lo (sound e) s fun _ a => e = .ok a := by
  cases e with
  | ok a => exact weaves_pure fun _ => rfl
  | error f => exact fun _ _ _ _ h => by cases h

theorem weaves_read {token : Except Token.Trouble (α × Text)} :
    Weaves limit quiet body lo (read src token) s fun _ _ => True := by
  unfold read
  split
  · exact weaves_bind (weaves_advance _) fun _ _ _ _ _ => weaves_pure fun _ => trivial
  · exact weaves_failAt

theorem weaves_close {wanted opener : Nat} {start : Text} :
    Weaves limit quiet body lo (close src wanted opener start) s fun _ _ => True := by
  refine weaves_bind weaves_ahead fun t s₁ _ _ _ => ?_
  split
  · exact weaves_failAt
  · exact weaves_ite (fun _ => weaves_advance _) fun _ => weaves_fail

theorem weaves_openCapture : Weaves limit quiet body lo (openCapture src) s fun _ _ => True := by
  intro hs _ slot s' h
  obtain ⟨rfl, rfl⟩ := openCapture_eq h
  exact ⟨⟨hs.skip, hs.short, hs.filled, hs.bodies, hs.named⟩, Nat.le_refl _, trivial⟩

theorem weaves_supply {g : Reader Nat} (hg : Supplies g) :
    Weaves limit quiet body lo g s fun hi id => id = s.store.fresh ∧ hi = s.store.fresh + 1 := by
  intro hs _ id s' h
  obtain ⟨hid, hfresh, hrules, hnames, hskip⟩ := hg s id s' h
  refine ⟨⟨hskip ▸ hs.skip, hskip ▸ hs.short, hs.filled, fun r => ?_,
    hnames ▸ hs.named⟩, by omega, hid, hfresh⟩
  rw [← hs.bodies r, bodyOf, bodyOf, hrules]

theorem weaves_node {g : Reader Nat} (hg : Supplies g) {k : Nat → α} {f : α → Reader β}
    (h : ∀ s', s'.store.fresh = s.store.fresh + 1 → lo ≤ s.store.fresh → Weaves limit quiet body lo
      (f (k s.store.fresh)) s' Q) : Weaves limit quiet body lo (g >>= fun id => f (k id)) s Q := by
  intro hs hlo
  refine weaves_bind (weaves_supply hg) (fun id s' _ _ ⟨hid, hfresh⟩ => ?_) hs hlo
  subst hid
  exact h s' hfresh hlo

theorem weaves_made {g : Reader Nat} (hg : Supplies g) {k : Nat → α}
    (h : lo ≤ s.store.fresh → R (s.store.fresh + 1) (k s.store.fresh)) :
    Weaves limit quiet body lo (do return k (← g)) s R :=
  weaves_node hg fun _ hfresh hlo => weaves_pure fun _ => hfresh ▸ h hlo

theorem weaves_token (h : Spun quiet (.standing limit body) lo s.store.fresh p) :
    Weaves limit quiet body lo (token p) s (Spun quiet (.standing limit body) lo) := by
  intro hs hlo q s' hq
  by_cases hskip : s.skip = .empty
  · rw [token_of_empty hskip] at hq
    cases hq
    exact ⟨hs, Nat.le_refl _, h⟩
  · rw [token_of_ne_empty hskip] at hq
    cases hq
    refine ⟨⟨hs.skip, hs.short, hs.filled, hs.bodies, hs.named⟩, Nat.le_succ _,
      .seq ?_ ?_ hlo (Nat.lt_succ_self _)⟩
    · have hbefore : Row (.sparing quiet) lo lo s.skip.sequenceItems := row_of_sparing hs.skip
      have hrow := hbefore.append h.woven.row (Nat.le_refl _) hlo
        fun q hq => (mem_sequenceItems hs.skip hq).2.mono (Allowed.less_all _)
      simpa using hrow.mono (Nat.le_refl _) (Nat.le_succ _)
    · simpa using ⟨hs.standing, h.normal⟩

theorem weaves_newToken {k : Nat → Pattern} (h : ∀ id A, (k id).Normal A) :
    Weaves limit quiet body lo (do token (k (← freshId))) s
      (Spun quiet (.standing limit body) lo) :=
  weaves_node supplies_freshId fun _ _ _ => weaves_token (.of_normal (h _))

theorem weaves_literal {how : Comparison} {verbatim : Bool} {t : Text} :
    Weaves limit quiet body lo (literal src how verbatim t) s
      (Spun quiet (.standing limit body) lo) :=
  weaves_bind weaves_read fun b _ _ _ _ => weaves_newToken fun id _ => normal_text id how b

theorem weaves_characterClass {start t : Text} :
    Weaves limit quiet body lo (characterClass src start t) s
      (Spun quiet (.standing limit body) lo) :=
  weaves_bind weaves_read fun m _ _ _ _ => weaves_newToken fun id _ => normal_set id m.1 m.2

theorem weaves_backReference {how : Comparison} {start : Text} :
    Weaves limit quiet body lo (backReference src how start) s
      (Spun quiet (.standing limit body) lo) := by
  simp only [backReference]
  refine weaves_ite (fun _ => weaves_failAt) fun hne =>
    weaves_bind weaves_sound fun number s₁ _ _ hnumber => ?_
  have hdigits (d : Nat) (hd : d ∈ (start.drop 1).takeWhile Text.isAsciiDigit) :
      Text.isAsciiDigit d :=
    List.mem_takeWhile_imp hd
  have hshort :=
    length_numeral_of_decimal (by simpa using hne) hdigits (mapError_eq_ok_iff.1 hnumber)
  refine weaves_bind (weaves_advance _) fun _ s₂ _ _ _ =>
    weaves_bind weaves_get fun t s₃ _ _ _ => ?_
  refine weaves_ite (fun hn => ?_) fun _ => weaves_failAt
  refine weaves_made supplies_freshId fun _ => ⟨.shared (.leaf trivial rfl), .leaf ?_ rfl⟩
  change (Text.numeral (number - 1 + 1)).length ≤ Text.mostDigits
  rwa [Nat.sub_add_cancel hn.1]

theorem weaves_reference (hi : src.inline = .int limit) {name start : Text} :
    Weaves limit quiet body lo (reference src name start) s
      (Spun quiet (.standing limit body) lo) := by
  refine weaves_bind weaves_get fun t s₁ _ _ _ => weaves_ite (fun _ => ?_) fun _ => weaves_failAt
  refine weaves_bind (weaves_quiet fun _ _ h => (quiet_ruleNamed h).1) fun r s₂ hr _ _ => ?_
  refine weaves_bind (weaves_quiet fun _ _ h => (quiet_markUsed h).1) fun _ s₃ hu _ _ => ?_
  have hmem : r ∈ s₃.names.map Prod.snd := (quiet_markUsed hu).2 ▸ (quiet_ruleNamed hr).2
  intro hs hlo
  refine weaves_bind weaves_get (fun u s₄ hget _ _ => ?_) hs hlo
  cases hget
  refine weaves_bind weaves_sound fun o s₄ hsound _ ho => ?_
  rw [ho] at hsound
  cases hsound
  rw [hi] at ho
  split
  · next p =>
    -- The body was read before, and it is small enough to hold neither calls nor captures.
    have hbody : body r = some p := by
      obtain ⟨rule, hrule, hp⟩ := rule_of_body? (body_of_inlined ho)
      rw [← hs.bodies r, bodyOf, hrule]
      exact hp
    have hshort := hs.named r hmem p hbody
    have hpure := pure_of_inlined ho (hshort.mono (Allowed.less_all _))
    refine weaves_bind (weaves_quiet fun _ _ h => by cases h; exact quiet_of_same rfl rfl rfl rfl)
      fun _ s₅ _ _ _ => ?_
    exact weaves_pure fun _ => ⟨.shared (sparing_of_pure hpure), standing_of_pure hpure hshort⟩
  · refine weaves_made supplies_freshId fun hlo =>
      ⟨.leaf hlo (Nat.lt_succ_self _) rfl, .leaf (fun hbody => ?_) rfl⟩
    rw [← hs.bodies r] at hbody
    rcases inlined_spec limit (Matching.body?_of_bodyOf hbody)
      (.leaf trivial rfl) with ⟨hsome, -⟩ | ⟨-, hempty⟩
    · cases ho.symm.trans hsome
    · exact hempty rfl

theorem weaves_suffixes (room : Nat) (h : Spun quiet (.standing limit body) lo s.store.fresh p) :
    Weaves limit quiet body lo (suffixes room p) s (Spun quiet (.standing limit body) lo) := by
  induction room generalizing p s with
  | zero => exact weaves_pure fun _ => h
  | succ room ih =>
    refine weaves_bind weaves_ahead fun t s₁ _ h₁ _ => ?_
    have hp := h.mono (Nat.le_refl lo) h₁
    split
    · refine weaves_ite (fun _ => ?_) fun _ => weaves_ite (fun _ => ?_) fun _ =>
        weaves_ite (fun _ => ?_) fun _ =>
        weaves_pure fun _ => hp
      · refine weaves_bind (weaves_advance _) fun _ s₂ _ h₂ _ =>
          weaves_node supplies_freshId fun s₃ h₃ hlo => ?_
        have hp := hp.mono (Nat.le_refl lo) (Nat.le_trans h₂ (Nat.le_succ _))
        exact ih (h₃ ▸ ⟨hp.woven.opt hlo (Nat.lt_succ_self _), normal_opt _ hp.normal⟩)
      · refine weaves_bind (weaves_advance _) fun _ s₂ _ h₂ _ =>
          weaves_node supplies_freshId fun s₃ h₃ hlo => ?_
        have hp := hp.mono (Nat.le_refl lo) (Nat.le_trans h₂ (Nat.le_succ _))
        exact ih (h₃ ▸ ⟨hp.woven.repeated hlo (Nat.lt_succ_self _), normal_repeated _ hp.normal⟩)
      · refine weaves_bind (weaves_advance _) fun _ s₂ _ h₂ _ => weaves_node (k := fun n => n)
          supplies_freshId fun s₃ h₃ first => weaves_node supplies_freshId fun s₄ h₄ first' => ih ?_
        have hp : Spun quiet _ lo (s₃.store.fresh + 1) _ := hp.mono (Nat.le_refl lo) (by omega)
        exact h₄ ▸ ⟨hp.woven.plus first (by omega) first' (Nat.lt_succ_self _),
          normal_plus _ _ hp.normal⟩
    · exact weaves_pure fun _ => hp

theorem weaves_named {name : Text} :
    Weaves limit quiet body lo (named? name) s fun _ o => ∀ p, o = some p → ∀ A, p.Normal A := by
  have simple {p : Pattern} {s : State} (h : ∀ A, p.Normal A) :
      Weaves limit quiet body lo (pure (some p)) s fun _ o => ∀ p, o = some p → ∀ A, p.Normal A :=
    weaves_pure fun _ q hq => by cases hq; exact h
  unfold named?
  split
  · exact simple fun _ => .leaf trivial rfl
  · split
    · next hset => exact simple fun _ => normal_namedSet hset
    · refine weaves_ite (fun _ => simple fun _ => .leaf trivial rfl) fun _ => ?_
      refine weaves_ite (fun _ => simple fun _ => .leaf trivial rfl) fun _ => ?_
      refine weaves_ite (fun _ => simple fun _ => .leaf trivial rfl) fun _ => ?_
      refine weaves_ite (fun _ => simple fun _ => .leaf trivial rfl) fun _ => ?_
      refine weaves_ite (fun _ => simple fun _ => .leaf trivial rfl) fun _ => ?_
      refine weaves_ite (fun _ => ?_) fun _ => weaves_pure fun _ => by simp
      refine weaves_bind (weaves_supply supplies_freshId) fun setId s₁ _ _ _ => ?_
      refine weaves_bind (weaves_supply supplies_freshId) fun starId s₂ _ _ _ => ?_
      exact weaves_bind (weaves_supply supplies_freshId) fun id s₃ _ _ _ => simple fun _ =>
        normal_ident setId starId id

theorem weaves_builtin {start t : Text} :
    Weaves limit quiet body lo (builtin src start t) s (Spun quiet (.standing limit body) lo) := by
  refine weaves_bind weaves_named fun o s₁ _ _ ho => ?_
  split
  · exact weaves_bind (weaves_advance _) fun _ s₂ _ _ _ => weaves_token (.of_normal (ho _ rfl))
  · refine weaves_ite (fun _ => weaves_failAt) fun _ => ?_
    split
    · exact weaves_failAt
    · exact weaves_bind (weaves_advance _) fun _ s₂ _ _ _ =>
        weaves_newToken fun _ _ => .leaf trivial rfl

structure Strung (quiet : Nat → Prop) (A : Allowed) (lo hi : Nat) (ps : List Pattern) : Prop where
  row : Row (.sparing quiet) lo hi (ps.flatMap sequenceItems)
  normal : ∀ p ∈ ps, p.Normal A

theorem strung_nil : Strung quiet A lo hi [] :=
  ⟨.nil, by simp⟩

theorem Strung.cons {mid : Nat} (h : Spun quiet A lo mid p) (hs : Strung quiet A mid hi ps)
    (hlo : lo ≤ mid) (hhi : mid ≤ hi) : Strung quiet A lo hi (p :: ps) := by
  refine ⟨?_, List.forall_mem_cons.2 ⟨h.normal, hs.normal⟩⟩
  rw [List.flatMap_cons]
  exact h.woven.row.append hs.row hlo hhi fun q hq => (mem_sequenceItems h.all hq).2

/-- The readers that call each other, with the given fuel, where all that they make skipped captures
nothing and calls quiet rules only. -/
structure ReadsWoven (limit : Int) (quiet : Nat → Prop) (body : Nat → Option Pattern) (src : Source)
    (fuel : Nat) : Prop where
  expression : ∀ lo s, (∀ q ∈ expressionSkips src fuel s, q.Normal (.sparing quiet)) →
    Weaves limit quiet body lo (expression src fuel) s (Spun quiet (.standing limit body) lo)
  alternatives : ∀ lo s, (∀ q ∈ alternativesSkips src fuel s, q.Normal (.sparing quiet)) →
    Weaves limit quiet body lo (alternatives src fuel) s fun hi ps => ∀ p ∈ ps,
    Spun quiet (.standing limit body) lo hi p
  sequence : ∀ lo s, (∀ q ∈ sequenceSkips src fuel s, q.Normal (.sparing quiet)) →
    Weaves limit quiet body lo (sequence src fuel) s (Spun quiet (.standing limit body) lo)
  items : ∀ lo s, (∀ q ∈ itemsSkips src fuel s, q.Normal (.sparing quiet)) →
    Weaves limit quiet body lo (items src fuel) s (Strung quiet (.standing limit body) lo)
  prefixed : ∀ lo s, (∀ q ∈ prefixedSkips src fuel s, q.Normal (.sparing quiet)) →
    Weaves limit quiet body lo (prefixed src fuel) s (Spun quiet (.standing limit body) lo)
  primary : ∀ lo s, (∀ q ∈ primarySkips src fuel s, q.Normal (.sparing quiet)) →
    Weaves limit quiet body lo (primary src fuel) s (Spun quiet (.standing limit body) lo)

theorem Spun.wrap {w : Pattern} (h : Spun quiet A lo hi p) (hid : w.id = hi) (hlo : lo ≤ hi)
    (hitem : w.isItem) (hc : w.children = [p]) (hw : w.NormalNode A) : Spun quiet A lo (hi + 1) w :=
  ⟨.single (hid ▸ hlo) (hid ▸ Nat.lt_succ_self _) hitem hc
    (h.woven.mono (Nat.le_refl _) (Nat.le_succ _)), .single hw hc h.normal⟩

section

variable (fuel : Nat) (ih : ReadsWoven limit quiet body src fuel)
include ih

theorem weaves_expression (h : ∀ q ∈ expressionSkips src (fuel + 1) s, q.Normal (.sparing quiet)) :
    Weaves limit quiet body lo (expression src (fuel + 1)) s
      (Spun quiet (.standing limit body) lo) := by
  simp only [expressionSkips, List.mem_append] at h
  refine weaves_bind (ih.sequence lo s fun q hq => h q (.inl hq)) fun p s₁ h₁ _ hp => ?_
  rw [after_eq h₁] at h
  refine weaves_bind (ih.alternatives lo s₁ fun q hq => h q (.inr hq)) fun ps s₂ _ hle hps => ?_
  refine weaves_made supplies_freshId fun hlo => ?_
  have hall : ∀ q ∈ p :: ps, Spun quiet (.standing limit body) lo (s₂.store.fresh + 1) q :=
    List.forall_mem_cons.2 ⟨hp.mono (Nat.le_refl _) (Nat.le_succ_of_le hle),
      fun q hq => (hps q hq).mono (Nat.le_refl _) (Nat.le_succ _)⟩
  exact ⟨.alt (fun q hq => (hall q hq).woven) hlo (Nat.lt_succ_self _),
    normal_alt _ fun q hq => (hall q hq).normal⟩

theorem weaves_alternatives
    (h : ∀ q ∈ alternativesSkips src (fuel + 1) s, q.Normal (.sparing quiet)) :
    Weaves limit quiet body lo (alternatives src (fuel + 1)) s fun hi ps => ∀ p ∈ ps,
      Spun quiet (.standing limit body) lo hi p := by
  simp only [alternativesSkips] at h
  refine weaves_bind weaves_ahead fun t s₁ h₁ _ _ => ?_
  rw [after_eq h₁] at h
  split
  · simp only [List.mem_append] at h
    refine weaves_bind (weaves_advance _) fun _ s₂ h₂ _ _ => ?_
    cases h₂
    refine weaves_bind (ih.sequence lo _ fun q hq => h q (.inl hq)) fun p s₃ h₃ _ hp => ?_
    rw [after_eq h₃] at h
    refine weaves_bind (ih.alternatives lo s₃ fun q hq => h q (.inr hq)) fun ps s₄ _ hle hps =>
      weaves_pure fun _ => ?_
    exact List.forall_mem_cons.2 ⟨hp.mono (Nat.le_refl _) hle, hps⟩
  · exact weaves_pure fun _ => by simp

theorem weaves_sequence (h : ∀ q ∈ sequenceSkips src (fuel + 1) s, q.Normal (.sparing quiet)) :
    Weaves limit quiet body lo (sequence src (fuel + 1)) s
      (Spun quiet (.standing limit body) lo) := by
  refine weaves_bind (ih.items lo s h) fun ps s₁ _ _ hps =>
    weaves_made supplies_freshId fun hlo => ?_
  exact .seq (hps.row.mono (Nat.le_refl _) (Nat.le_succ _)) hps.normal hlo (Nat.lt_succ_self _)

theorem weaves_items (h : ∀ q ∈ itemsSkips src (fuel + 1) s, q.Normal (.sparing quiet)) :
    Weaves limit quiet body lo (items src (fuel + 1)) s
      (Strung quiet (.standing limit body) lo) := by
  have none {s : State} : Weaves limit quiet body lo (pure []) s
      (Strung quiet (.standing limit body) lo) :=
    weaves_pure fun _ => strung_nil
  simp only [itemsSkips] at h
  refine weaves_bind weaves_ahead fun t s₁ h₁ _ _ => ?_
  rw [after_eq h₁] at h
  split
  · exact none
  · refine weaves_ite (fun _ => none) fun hend => weaves_bind weaves_get fun _ s₂ h₂ _ _ => ?_
    cases h₂
    refine weaves_ite (fun _ => none) fun hhead => ?_
    simp only [hend, hhead, if_false, Bool.false_eq_true, List.mem_append] at h
    refine weaves_bind (ih.prefixed lo s₁ fun q hq => h q (.inl hq)) fun p s₂ h₂ _ hp => ?_
    rw [after_eq h₂] at h
    -- The other items are read behind the first one, and so they come from a window of their own.
    intro hs hlo
    refine weaves_bind (ih.items s₂.store.fresh s₂ fun q hq => h q (.inr hq)).from
      (fun ps s₃ _ hle hps => ?_) hs hlo
    exact weaves_pure fun _ => .cons hp hps hlo hle

theorem weaves_prefixed (h : ∀ q ∈ prefixedSkips src (fuel + 1) s, q.Normal (.sparing quiet)) :
    Weaves limit quiet body lo (prefixed src (fuel + 1)) s
      (Spun quiet (.standing limit body) lo) := by
  have wrapped {t : Text} {wrap : Nat → Pattern → Pattern} {s : State}
      (hid : ∀ id p, (wrap id p).id = id)
      (hitem : ∀ id p, (wrap id p).isItem) (hc : ∀ id p, (wrap id p).children = [p])
      (hn : ∀ id p, (wrap id p).NormalNode (.standing limit body))
      (h : ∀ q ∈ prefixedSkips src fuel { s with rest := t }, q.Normal (.sparing quiet)) :
      Weaves limit quiet body lo
      (do advance t; let p ← prefixed src fuel; return wrap (← freshId) p) s
        (Spun quiet (.standing limit body) lo) := by
    refine weaves_bind (weaves_advance _) fun _ s₁ h₁ _ _ => ?_
    cases h₁
    refine weaves_bind (ih.prefixed lo _ h) fun p s₂ _ _ hp =>
      weaves_made supplies_freshId fun hlo => ?_
    exact hp.wrap (hid _ p) hlo (hitem _ p) (hc _ p) (hn _ p)
  simp only [prefixedSkips] at h
  refine weaves_bind weaves_ahead fun t s₁ h₁ _ _ => ?_
  rw [after_eq h₁] at h
  split
  · exact wrapped (fun _ _ => rfl) (fun _ _ => rfl) (fun _ _ => rfl) (fun _ _ => trivial) h
  · exact wrapped (fun _ _ => rfl) (fun _ _ => rfl) (fun _ _ => rfl) (fun _ _ => trivial) h
  · exact wrapped (fun _ _ => rfl) (fun _ _ => rfl) (fun _ _ => rfl) (fun _ _ => trivial) h
  · next t =>
    refine weaves_bind weaves_openCapture fun slot s₂ h₂ _ _ =>
      weaves_bind (weaves_advance _) fun _ s₃ h₃ _ _ => ?_
    simp only [after_eq h₂] at h
    cases h₃
    refine weaves_bind (ih.prefixed lo _ h) fun p s₄ _ _ hp => ?_
    refine weaves_node (supplies_captureId slot) fun s₅ h₅ hlo => weaves_token (h₅ ▸ ?_)
    exact hp.wrap rfl hlo rfl rfl trivial
  · next hpeek hnot hsearch hcapture =>
    have hprimary : ∀ q ∈ primarySkips src fuel s₁, q.Normal (.sparing quiet) := by
      split at h
      · exact absurd rfl (hpeek _)
      · exact absurd rfl (hnot _)
      · exact absurd rfl (hsearch _)
      · exact absurd rfl (hcapture _)
      · exact h
    refine weaves_bind (ih.primary lo s₁ hprimary) fun p s₂ _ _ hp =>
      weaves_bind weaves_get fun _ s₃ h₃ _ _ => ?_
    cases h₃
    exact weaves_suffixes _ hp

theorem weaves_primary (hi : src.inline = .int limit)
    (h : ∀ q ∈ primarySkips src (fuel + 1) s, q.Normal (.sparing quiet)) :
    Weaves limit quiet body lo (primary src (fuel + 1)) s
      (Spun quiet (.standing limit body) lo) := by
  have simple {p : Pattern} {t : Text} {s : State} (hp : ∀ A, p.Normal A) :
      Weaves limit quiet body lo (do advance t; token p) s (Spun quiet (.standing limit body) lo) :=
    weaves_bind (weaves_advance _) fun _ s₁ _ _ _ => weaves_token (.of_normal hp)
  have reference {how : Comparison} {t : Text} {s : State} : Weaves limit quiet body lo
      (do token (← backReference src how t)) s (Spun quiet (.standing limit body) lo) :=
    weaves_bind weaves_backReference fun p s₁ _ _ hp => weaves_token hp
  simp only [primarySkips] at h
  refine weaves_bind weaves_ahead fun t s₁ h₁ _ _ => ?_
  rw [after_eq h₁] at h
  split
  · exact weaves_fail
  · next c t =>
    refine weaves_ite (fun _ => weaves_literal) fun _ => ?_
    refine weaves_ite (fun _ => weaves_literal) fun _ => ?_
    refine weaves_ite (fun _ => weaves_literal) fun _ => ?_
    refine weaves_ite (fun _ => weaves_literal) fun _ => ?_
    refine weaves_ite (fun _ => reference) fun _ => ?_
    refine weaves_ite (fun _ => reference) fun _ => ?_
    refine weaves_ite (fun _ => weaves_ite (fun _ => reference) fun _ => ?_) fun _ => ?_
    · exact weaves_bind (weaves_advance _) fun _ s₂ _ _ _ => weaves_newToken fun id _ =>
        normal_endAnchor id
    refine weaves_ite (fun hc => ?_) fun hgroup => ?_
    · simp only [hc, if_true] at h
      refine weaves_bind (weaves_advance _) fun _ s₂ h₂ _ _ => ?_
      cases h₂
      refine weaves_bind (ih.expression lo _ h) fun p s₃ _ _ hp =>
        weaves_bind weaves_close fun _ s₄ _ hle _ => ?_
      exact weaves_pure fun _ => hp.mono (Nat.le_refl _) hle
    refine weaves_ite (fun hc => ?_) fun hcapture => ?_
    · simp only [if_neg hgroup, if_pos hc] at h
      refine weaves_bind weaves_openCapture fun slot s₂ h₂ _ _ =>
        weaves_bind (weaves_advance _) fun _ s₃ h₃ _ _ => ?_
      simp only [after_eq h₂] at h
      cases h₃
      refine weaves_bind (ih.expression lo _ h) fun p s₄ _ _ hp =>
        weaves_bind weaves_close fun _ s₅ _ hle _ => ?_
      exact weaves_made (supplies_captureId slot) fun hlo =>
        (hp.mono (Nat.le_refl _) hle).wrap rfl hlo rfl rfl trivial
    refine weaves_ite (fun _ => weaves_characterClass) fun _ => ?_
    refine weaves_ite (fun _ => simple fun _ => .leaf trivial rfl) fun _ => ?_
    refine weaves_ite (fun _ => simple fun _ => .leaf trivial rfl) fun _ => ?_
    refine weaves_ite (fun _ => simple fun _ => .leaf trivial rfl) fun _ => ?_
    refine weaves_ite (fun hc => weaves_ite (fun hname => ?_) fun _ => weaves_builtin) fun _ => ?_
    · simp only [if_neg hgroup, if_neg hcapture, if_pos (And.intro hc hname), List.mem_append] at h
      refine weaves_bind (weaves_advance _) fun _ s₂ h₂ _ _ => ?_
      cases h₂
      refine weaves_bind (ih.prefixed lo _ fun q hq => h q (.inl hq)) fun p s₃ h₃ _ hp => ?_
      rw [after_eq h₃] at h
      intro hs _ q s' hq
      cases hq
      refine ⟨⟨h p (.inr (by simp)), short_of_standing hp.normal, hs.filled, hs.bodies, hs.named⟩,
        Nat.le_refl _, ?_⟩
      exact .of_normal fun _ => .leaf trivial rfl
    split
    · exact weaves_bind (weaves_advance _) fun _ s₂ _ _ _ => weaves_reference hi
    · exact weaves_ite (fun _ => weaves_fail) fun _ => weaves_fail

end

theorem readsWoven (hi : src.inline = .int limit) (body : Nat → Option Pattern) (fuel : Nat) :
    ReadsWoven limit quiet body src fuel := by
  induction fuel with
  | zero =>
    exact ⟨fun _ _ _ => weaves_tooDeep, fun _ _ _ => weaves_tooDeep, fun _ _ _ => weaves_tooDeep,
      fun _ _ _ => weaves_tooDeep, fun _ _ _ => weaves_tooDeep, fun _ _ _ => weaves_tooDeep⟩
  | succ fuel ih =>
    exact ⟨fun _ _ => weaves_expression fuel ih, fun _ _ => weaves_alternatives fuel ih,
      fun _ _ => weaves_sequence fuel ih, fun _ _ => weaves_items fuel ih,
      fun _ _ => weaves_prefixed fuel ih, fun _ _ => weaves_primary fuel ih hi⟩

theorem blank_of_sparing (h : p.Normal (.sparing quiet)) : Blank False p :=
  ⟨captured_of_normal (fun _ h => h) h, False.elim⟩

theorem Calm.blank (h : Calm limit quiet body s) : Blank False s.skip :=
  blank_of_sparing h.skip

/-- One rule, which gets the body that is read. If it is quiet, that may not be an empty one in
place of a call. -/
theorem weaves_rule {first most fuel r : Nat} (hi : src.inline = .int limit)
    (hs : Sound first most s) (hc : Calm limit quiet (bodyOf s) s)
    (hskips : ∀ q ∈ expressionSkips src fuel s, q.Normal (.sparing quiet))
    (h : expression src fuel s = .ok p s') (hr : r < s'.store.rules.size) (place : Position)
    (hid : freshId (s'.changing r (declaring place p)) = .ok id s'') :
    Spun quiet (.standing limit (bodyOf s)) s.store.fresh s'.store.fresh p ∧ Blank False s''.skip ∧
      ((quiet r → p = .empty → limit ≤ 0) → Calm limit quiet (bodyOf s'') s'') ∧
      bodyOf s'' r = some p ∧ ∀ r', r' ≠ r → bodyOf s'' r' = bodyOf s r' := by
  obtain ⟨hc', -, hp⟩ :=
    (readsWoven hi (bodyOf s) fuel).expression _ s hskips hc (Nat.le_refl _) p s' h
  obtain ⟨-, hblank, hbody, hbodies⟩ := numbers_rule hs hc.blank
    (fun q hq => blank_of_sparing (hskips q hq)) h hr place hid
  refine ⟨hp, hblank, fun hfilled => ?_, hbody, hbodies⟩
  cases hid
  refine ⟨hc'.skip, hc'.short, fun r' hquiet hempty => ?_, fun _ => rfl, fun r' hr' q hq => ?_⟩
  · by_cases hne : r' = r
    · rw [hne, hbody] at hempty
      exact hfilled (hne ▸ hquiet) (Option.some.inj hempty)
    · exact hc.filled r' hquiet ((hbodies r' hne).symm.trans hempty)
  · by_cases hne : r' = r
    · rw [hne, hbody] at hq
      cases hq
      exact short_of_standing hp.normal
    · rw [hbodies r' hne] at hq
      exact hc'.named r' hr' q hq

/-- The rules of a grammar are woven, and an empty rule before one is called only if it does not
stand in place of the call. -/
theorem woven_rules {first most : Nat} (hi : src.inline = .int limit) (hm : src.Admits most)
    (room : Nat) (hg : s.inGrammar) (hs : Sound first most s) (hc : Calm limit quiet (bodyOf s) s)
    (hskips : ∀ q ∈ rulesSkips src room s, q.Normal (.sparing quiet)) {defs : List (Nat × Nat)}
    (h : rules src room s = .ok defs s')
    (hfilled : ∀ r, quiet r → bodyOf s' r = some .empty → limit ≤ 0)
    {before after : List (Nat × Nat)} {d : Nat × Nat} (hdefs : defs = before ++ d :: after) :
    ∃ lo hi q, bodyOf s' d.2 = some q ∧
      Spun quiet (.short fun r => Declared s r ∨ r ∈ before.map Prod.snd →
        bodyOf s' r = some .empty → limit ≤ 0) lo hi q := by
  induction room generalizing s defs before with
  | zero =>
    cases h
    simp at hdefs
  | succ room ih =>
    cases rules_cases hm hg hs h with
    | done => simp at hdefs
    | @rule r id _ place p defs s₁ s₂ s₃ hq hs₁ hread hknown hnew hmade hg₃ hs₃ hdeclared
        heq hothers =>
      simp only [heq, List.mem_append] at hskips
      have hc₁ : Calm limit quiet (bodyOf s₁) s₁ := by
        have hbodies : bodyOf s₁ = bodyOf s := funext hq.bodies
        rw [hbodies]
        exact hc.quietly hq
      obtain ⟨hp, hblank, hcalm, hbody₃, hbodies₃⟩ :=
        weaves_rule hi hs₁ hc₁ (fun q hq => hskips q (.inl hq)) hread hknown place hmade
      obtain ⟨-, hkept⟩ := numbers_rules hm room hg₃ hs₃ hblank
        (fun q hq => blank_of_sparing (hskips q (.inr hq))) hothers
      have hfinal : bodyOf s' r = some p := (hkept r ((hdeclared r).2 (.inr rfl))).trans hbody₃
      have hc₃ := hcalm fun hquiet hempty => hfilled r hquiet (hempty ▸ hfinal)
      cases before with
      | nil =>
        obtain ⟨rfl, rfl⟩ := List.cons.inj hdefs
        refine ⟨_, _, p, hfinal, hp.woven, hp.normal.mono
          ⟨fun r' hr' hknown hempty => hr' ?_, fun _ h => h, fun _ h => h⟩⟩
        have hold : Declared s r' := hknown.resolve_right (by simp)
        have hne : r' ≠ r := fun heq => hnew (heq ▸ hold)
        rw [← hbodies₃ r' hne, ← hkept r' ((hdeclared r').2 (.inl hold)), hempty]
      | cons d' before =>
        obtain ⟨rfl, htail⟩ := List.cons.inj hdefs
        obtain ⟨lo, hi, q, hq, hspun⟩ :=
          ih hg₃ hs₃ hc₃ (fun q hq => hskips q (.inr hq)) hothers htail
        refine ⟨lo, hi, q, hq, hspun.woven,
          hspun.normal.mono ⟨fun r' hr' hknown => hr' ?_, fun _ h => h, fun _ h => h⟩⟩
        rw [hdeclared]
        simpa [or_assoc] using hknown

/-- What was read from a text: one tree that is woven, or rules that are. -/
inductive WovenText (limit : Int) (quiet : Nat → Prop) (store : Store) : Pattern → Prop where
  | single {lo hi : Nat} {p : Pattern} (h : Spun quiet (.short fun _ => True) lo hi p) :
      WovenText limit quiet store p
  | grammar {id : Nat} {start : Nat × Nat} {others : List (Nat × Nat)}
      (h : ∀ before d after, start :: others = before ++ d :: after → ∃ lo hi q,
        store.body? d.2 = .ok (some q) ∧
        Spun quiet (.short fun r => r ∈ before.map Prod.snd → store.body? r = .ok (some .empty) →
          limit ≤ 0) lo hi q) : WovenText limit quiet store (.grammar id start others)

theorem woven_grammar {first most : Nat} (hi : src.inline = .int limit) (hm : src.Admits most)
    (hg : s.inGrammar) (hs : Sound first most s) (hc : Calm limit quiet (bodyOf s) s)
    (hskips : ∀ q ∈ rulesSkips src (src.text.length + 1) s, q.Normal (.sparing quiet))
    (h : grammar src s = .ok p s')
    (hfilled : ∀ r, quiet r → s'.store.body? r = .ok (some .empty) → limit ≤ 0) :
    WovenText limit quiet s'.store p := by
  obtain ⟨defs, s₁, h₁, h⟩ := ok_of_bind h
  obtain ⟨_, _, h₂, h⟩ := ok_of_bind h
  cases h₂
  cases hd : checkDeclared src s₁.store s₁.names with
  | error e => simp only [hd] at h; cases h
  | ok =>
    simp only [hd] at h
    cases defs with
    | nil =>
      cases h
      have hempty : Spun quiet (.short fun _ => True) 0 0 .empty :=
        .of_normal fun _ => .leaf trivial rfl
      exact .single hempty
    | cons start others =>
      obtain ⟨_, s₂, h₂, h⟩ := ok_of_bind h
      cases h₂
      obtain ⟨id, s₃, h₃, h⟩ := ok_of_bind h
      cases h₃
      cases h
      refine .grammar fun before d after heq => ?_
      obtain ⟨lo, hi, q, hq, hspun⟩ := woven_rules hi hm _ hg hs hc hskips h₁
        (fun r hr hempty => hfilled r hr (Matching.body?_of_bodyOf hempty)) heq
      refine ⟨lo, hi, q, Matching.body?_of_bodyOf hq, hspun.woven, hspun.normal.mono
        ⟨fun r hr hmem hempty => hr (.inr hmem) ?_, fun _ h => h, fun _ h => h⟩⟩
      obtain ⟨rule, hrule, hbody⟩ := rule_of_body? hempty
      exact Option.bind_eq_some_iff.2 ⟨rule, hrule, hbody⟩

/-- Where no operand of `\skip` captures, and quiet rules only are called there, what is read is
woven. -/
theorem woven_parse {store store' : Store} {log : List Notice} (hi : src.inline = .int limit)
    (h : parse src store = (.ok p, store', log))
    (hskips : ∀ q ∈ skips src store, q.Normal (.sparing quiet))
    (hold : ∀ r, quiet r → store.body? r = .ok (some .empty) → limit ≤ 0)
    (hfilled : ∀ r, quiet r → store'.body? r = .ok (some .empty) → limit ≤ 0) :
    WovenText limit quiet store' p := by
  have hm := admits_capacity src
  simp only [parse, whole_eq_main] at h
  split at h
  · next q s' hrun =>
    cases h
    obtain ⟨p', s, hmain, hfinish⟩ := ok_of_bind hrun
    obtain ⟨rfl, hstore⟩ := finish_spec hfinish
    have hbody (r : Nat) : s'.store.body? r = s.store.body? r := by rw [hstore]; rfl
    obtain ⟨t, s₁, h₁, hmain⟩ := ok_of_bind hmain
    obtain ⟨hs₁, -, -⟩ :=
      soundly_ahead (Sound.start (src.capacity.int?.getD 0).toNat src store) t s₁ h₁
    have hc₁ : Calm limit quiet (bodyOf s₁) s₁ := by
      cases h₁
      refine ⟨.leaf trivial rfl, .leaf trivial rfl, fun r hr hempty => hold r hr ?_,
        fun _ => rfl, by simp⟩
      exact Matching.body?_of_bodyOf (t := start src store) hempty
    rw [skips, after_eq (show ahead (start src store) = .ok t s₁ from h₁)] at hskips
    by_cases hh : (Token.header? t).isSome
    · simp only [hh, if_true] at hmain hskips
      obtain ⟨_, _, h₂, hmain⟩ := ok_of_bind hmain
      cases h₂
      have hs₂ : Sound store.rules.size (src.capacity.int?.getD 0).toNat
          { s₁ with inGrammar := true } :=
        ⟨hs₁.names, hs₁.size, hs₁.rules, hs₁.opened, hs₁.skip, fun h => by cases h⟩
      have hc₂ : Calm limit quiet (bodyOf { s₁ with inGrammar := true })
          { s₁ with inGrammar := true } :=
        ⟨hc₁.skip, hc₁.short, hc₁.filled, fun _ => rfl, hc₁.named⟩
      cases woven_grammar hi hm rfl hs₂ hc₂ hskips hmain fun r hr hempty =>
        hfilled r hr ((hbody r).trans hempty) with
      | single h => exact .single h
      | grammar h =>
        simp only [← hbody] at h
        exact .grammar h
    · simp only [hh] at hmain hskips
      obtain ⟨-, -, hp⟩ :=
        (readsWoven hi (bodyOf s₁) _).expression _ s₁ hskips hc₁ (Nat.le_refl _) p s hmain
      exact .single ⟨hp.woven, short_of_standing hp.normal⟩
  · cases h

end Grammar

end PegMatch

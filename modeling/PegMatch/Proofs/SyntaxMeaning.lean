import Mathlib.Data.List.Nodup
import PegMatch.Proofs.Construction
import PegMatch.Proofs.Reading

set_option autoImplicit false

namespace PegMatch

open Meaning

/-- A pattern that refers to nothing means the same wherever the subject and the origin are the
same. -/
theorem Pattern.denote_congr {e f : Env} (hs : e.subject = f.subject) (ho : e.origin = f.origin)
    {p : Pattern} (hp : p.Normal ⟨fun _ => False, fun _ => False, fun _ => True⟩) :
    p.denote e = p.denote f := by
  induction hp with
  | @node p here _ ih =>
    cases p with
    | sequence i items =>
      rw [denote_sequence, denote_sequence]
      exact congrArg inOrder (List.map_congr_left ih)
    | choice i items =>
      rw [denote_choice, denote_choice]
      exact congrArg firstOf (List.map_congr_left ih)
    | star i p => simp only [denote, hs, ih p (by simp [children])]
    | option i p => simp only [denote, ih p (by simp [children])]
    | peek i p => simp only [denote, ih p (by simp [children])]
    | not i p => simp only [denote, ih p (by simp [children])]
    | search i p => simp only [denote, hs, ih p (by simp [children])]
    | call i r => exact here.elim
    | capture i p => exact here.elim
    | capturedSearch i p => exact here.elim
    | valued i how v => exact here.elim
    | rule i r => exact here.elim
    | grammar i start others => exact here.elim
    | _ => simp only [denote, hs, ho]

namespace Grammar

/-- A token that captures nothing, refers to no capture and does not change what follows. -/
def Lexeme.isPlain : Lexeme → Bool
  | .sign .captured | .sign .skip | .sign .openCapture => false
  | .atom (.backref ..) => false
  | _ => true

/-- The pattern of a builtin, but for identities. -/
def Builtin.pattern : Builtin → Pattern
  | .newline => .newline
  | .set _ p _ => p
  | .category c => .category c
  | .ident => .ident 0 0 0
  | .escape e => .char 0 e.rune

def Atom.pattern : Atom → Pattern
  | .literal how t => .text 0 how t
  | .set members negated => .set 0 members (.ofBool negated)
  | .any => .any
  | .anyRune => .anyRune
  | .startAnchor => .startAnchor
  | .endAnchor => .endAnchor 0
  | .backref how number => .backref 0 how (number - 1)
  | .builtin b => b.pattern

def Operator.denote (s : Subject) : Operator → Meaning → Meaning
  | .peek => Meaning.peek
  | .not => Meaning.not
  | .search => Meaning.search s

def Suffix.denote (s : Subject) (m : Meaning) : Suffix → Meaning
  | .opt => orElse m nothing
  | .star => many s m
  | .plus => andThen m (many s m)

section

variable (e : Env) (rule : Text → Meaning)

mutual

def Primary.denote : Primary → Meaning
  | .atom a => a.pattern.denote e
  | .name n => rule n.text
  | .group x => x.denote
  | .capture x => x.denote

def Item.denote : Item → Meaning
  | .operator o x => o.denote e.subject x.denote
  | .captured x => search e.subject x.denote
  | .skip _ => nothing
  | .suffixed p suffixes => suffixes.foldl (Suffix.denote e.subject) p.denote

def Expression.denote : Expression → Meaning
  | .mk first others => firstOf (inOrder (denoteItems first) :: denoteOthers others)

def denoteItems : List Item → List Meaning
  | [] => []
  | x :: xs => x.denote :: denoteItems xs

def denoteOthers : List (List Item) → List Meaning
  | [] => []
  | xs :: others => inOrder (denoteItems xs) :: denoteOthers others

end

end

theorem denote_text (e : Env) (i j : Nat) (how : Comparison) (t : Text) :
    (Pattern.text i how t).denote e = (Pattern.text j how t).denote e := by
  match how, t with
  | .exact, [] => rfl
  | .exact, [_] => rfl
  | .exact, _ :: _ :: _ => rfl
  | .ignoreCase, [] => rfl
  | .ignoreCase, _ :: _ => rfl
  | .ignoreStyle, [] => rfl
  | .ignoreStyle, _ :: _ => rfl

theorem normal_pattern {A : Allowed} {a : Atom} (ha : (Lexeme.atom a).isPlain) :
    a.pattern.Normal A := by
  cases a with
  | literal how t => exact Pattern.normal_text 0 how t
  | set members negated => exact Pattern.normal_set 0 members negated
  | endAnchor => exact Pattern.normal_endAnchor 0
  | backref how number => cases ha
  | builtin b =>
    cases b with
    | set name p hp => exact Pattern.normal_namedSet hp
    | ident => exact Pattern.normal_ident 0 0 0
    | _ => exact .leaf trivial rfl
  | _ => exact .leaf trivial rfl

namespace Bench

def bodyOf (b : Bench) (r : Nat) : Option Pattern :=
  b.store.rules[r]?.bind Rule.body

structure Neat (b : Bench) : Prop where
  names : (b.names.map Prod.fst).Nodup
  rules : (b.names.map Prod.snd).Nodup
  known : ∀ n ∈ b.names, n.2 < b.store.rules.size

structure Grows (b b' : Bench) : Prop where
  names : b.names ⊆ b'.names
  bodies : ∀ r, b'.bodyOf r = b.bodyOf r
  new : ∀ n ∈ b'.names, n ∈ b.names ∨ b.bodyOf n.2 = none

theorem Grows.refl (b : Bench) : b.Grows b :=
  ⟨List.Subset.refl _, fun _ => rfl, fun _ hn => .inl hn⟩

theorem Grows.trans {b b' b'' : Bench} (h : b.Grows b') (h' : b'.Grows b'') : b.Grows b'' := by
  refine ⟨List.Subset.trans h.names h'.names, fun r => (h'.bodies r).trans (h.bodies r),
    fun n hn => ?_⟩
  rcases h'.new n hn with hn | hnone
  · exact h.new n hn
  · exact .inr ((h.bodies n.2).symm.trans hnone)

end Bench

namespace Build

variable {α β : Type} {m : Build α} {k : α → Build β}

/-- A property that the steps of building have, and that they keep when they are done one after the
other. -/
structure Lasting (P : ∀ {α : Type}, Build α → Prop) : Prop where
  pure : ∀ {α : Type} (a : α), P (Pure.pure a : Build α)
  bind : ∀ {α β : Type} {m : Build α} {k : α → Build β}, P m → (∀ a, P (k a)) → P (m >>= k)
  get : P (MonadState.get : Build Bench)
  fresh : P fresh
  skip : ∀ p, P (modify fun b => { b with skip := p } : Build PUnit)
  openCapture : P openCapture
  captureId : ∀ slot, P (captureId slot)
  ruleNamed : ∀ name, P (ruleNamed name)
  used : ∀ r, P (modifyRule r fun rule => { rule with used := true })

namespace Lasting

variable {P : ∀ {α : Type}, Build α → Prop} (h : Lasting @P)
include h

theorem one {α : Type} (f : Nat → α) : P (do return f (← Build.fresh)) :=
  h.bind h.fresh fun _ => h.pure _

theorem skipping (p : Pattern) : P (Build.skipping p) := by
  refine h.bind h.get fun b => ?_
  split
  · exact h.pure p
  · exact h.one _

theorem suffix (p : Pattern) (s : Suffix) : P (s.build p) := by
  cases s with
  | opt => exact h.one _
  | star => exact h.one _
  | plus => exact h.bind h.fresh fun _ => h.one _

theorem suffixes (ss : List Suffix) (p : Pattern) : P (ss.foldlM Suffix.build p) := by
  induction ss generalizing p with
  | nil => exact h.pure p
  | cons s ss ih =>
    rw [List.foldlM_cons]
    exact h.bind (h.suffix p s) ih

theorem atom (a : Atom) : P a.build := by
  cases a with
  | literal how t => exact h.one _
  | set members negated => exact h.one _
  | endAnchor => exact h.one _
  | backref how number => exact h.one _
  | builtin b =>
    cases b with
    | ident => exact h.bind h.fresh fun _ => h.bind h.fresh fun _ => h.one _
    | escape e => exact h.one _
    | _ => exact h.pure _
  | _ => exact h.pure _

variable (inline : Store → Nat → Option Pattern)

theorem name (n : Name) : P (n.build inline) := by
  refine h.bind (h.ruleNamed _) fun r => h.bind (h.used r) fun _ => h.bind h.get fun b => ?_
  cases inline b.store r with
  | some body => exact h.pure body
  | none => exact h.one _

mutual

theorem primary (p : Primary) : P (p.build inline) := by
  cases p with
  | atom a =>
    rw [Primary.build]
    exact h.bind (h.atom a) h.skipping
  | name n =>
    rw [Primary.build]
    exact h.name inline n
  | group e =>
    rw [Primary.build]
    exact expression e
  | capture e =>
    rw [Primary.build]
    exact h.bind h.openCapture fun slot => h.bind (expression e) fun p =>
      h.bind (h.captureId slot) fun _ => h.pure _

theorem item (x : Item) : P (x.build inline) := by
  cases x with
  | operator o x =>
    rw [Item.build]
    exact h.bind (item x) fun p => h.one _
  | captured x =>
    rw [Item.build]
    exact h.bind h.openCapture fun slot => h.bind (item x) fun p =>
      h.bind (h.captureId slot) fun _ => h.skipping _
  | skip x =>
    rw [Item.build]
    exact h.bind (item x) fun p => h.bind (h.skip p) fun _ => h.pure _
  | suffixed p ss =>
    rw [Item.build]
    exact h.bind (primary p) (h.suffixes ss)

theorem expression (e : Expression) : P (e.build inline) := by
  cases e with
  | mk first others =>
    rw [Expression.build]
    exact h.bind (items first) fun ps => h.bind h.fresh fun _ =>
      h.bind (alternatives others) fun qs => h.one _

theorem items (xs : List Item) : P (buildItems inline xs) := by
  cases xs with
  | nil =>
    rw [buildItems]
    exact h.pure _
  | cons x xs =>
    rw [buildItems]
    exact h.bind (item x) fun p => h.bind (items xs) fun ps => h.pure _

theorem alternatives (xss : List (List Item)) : P (buildOthers inline xss) := by
  cases xss with
  | nil =>
    rw [buildOthers]
    exact h.pure _
  | cons xs xss =>
    rw [buildOthers]
    exact h.bind (items xs) fun ps => h.bind h.fresh fun _ =>
      h.bind (alternatives xss) fun qs => h.pure _

end

end Lasting

structure Growing (m : Build α) : Prop where
  grows : ∀ b : Bench, b.Grows (m b).2
  neat : ∀ b : Bench, b.Neat → (m b).2.Neat

theorem growing_pure (a : α) : Growing (pure a : Build α) :=
  ⟨.refl, fun _ hb => hb⟩

theorem growing_bind (hm : Growing m) (hk : ∀ a, Growing (k a)) : Growing (m >>= k) where
  grows b := (hm.grows b).trans ((hk (m b).1).grows (m b).2)
  neat b hb := (hk (m b).1).neat (m b).2 (hm.neat b hb)

theorem growing_of_same (h : ∀ b, (m b).2.names = b.names ∧ (m b).2.store.rules = b.store.rules) :
    Growing m := by
  refine ⟨fun b => ?_, fun b hb => ?_⟩
  · obtain ⟨hn, hr⟩ := h b
    refine ⟨?_, ?_, fun n hmem => .inl (hn ▸ hmem)⟩
    · rw [hn]
      exact List.Subset.refl _
    · simp only [Bench.bodyOf, hr, implies_true]
  · obtain ⟨hn, hr⟩ := h b
    refine ⟨hn ▸ hb.names, hn ▸ hb.rules, ?_⟩
    rw [hn, hr]
    exact hb.known

theorem growing_fresh : Growing fresh :=
  growing_of_same fun _ => ⟨rfl, rfl⟩

theorem growing_captureId (slot : Nat) : Growing (captureId slot) :=
  growing_of_same fun _ => ⟨rfl, rfl⟩

theorem bodyOf_modifyRule (b : Bench) (r : Nat) {f : Rule → Rule}
    (hf : ∀ rule, (f rule).body = rule.body) (r' : Nat) :
    Bench.bodyOf { b with store := b.store.modifyRule r f } r' = b.bodyOf r' := by
  simp only [Bench.bodyOf, Store.modifyRule, Array.getElem?_modify]
  split
  · cases b.store.rules[r']? with
    | none => rfl
    | some rule => exact hf rule
  · rfl

theorem growing_modifyRule (r : Nat) {f : Rule → Rule} (hf : ∀ rule, (f rule).body = rule.body) :
    Growing (modifyRule r f) := by
  refine ⟨fun b => ⟨List.Subset.refl _, bodyOf_modifyRule b r hf, fun _ hn => .inl hn⟩,
    fun b hb => ⟨hb.names, hb.rules, fun n hn => ?_⟩⟩
  have hsize : (b.store.modifyRule r f).rules.size = b.store.rules.size := by
    simp [Store.modifyRule]
  exact hsize ▸ hb.known n hn

def naming (b : Bench) (name : Text) : Bench :=
  { b with
    store := (b.store.addRule { name := name }).2
    names := b.names ++ [(name, b.store.rules.size)] }

theorem bodyOf_naming (b : Bench) (name : Text) (r : Nat) :
    (naming b name).bodyOf r = b.bodyOf r := by
  simp only [Bench.bodyOf, naming, Store.addRule, Array.getElem?_push]
  split
  · next h =>
    subst h
    simp
  · rfl

theorem neat_naming {b : Bench} (hb : b.Neat) {name : Text} (h : b.names.lookup name = none) :
    (naming b name).Neat := by
  have hsize : (naming b name).store.rules.size = b.store.rules.size + 1 := by
    simp [naming, Store.addRule]
  refine ⟨?_, ?_, fun n hn => ?_⟩
  · simp only [naming, List.map_append, List.map_cons, List.map_nil]
    refine List.nodup_append.2 ⟨hb.names, by simp, fun a ha c hc => ?_⟩
    rw [List.mem_singleton.1 hc]
    exact fun heq => Setting.not_mem_of_lookup h (heq ▸ ha)
  · simp only [naming, List.map_append, List.map_cons, List.map_nil]
    refine List.nodup_append.2 ⟨hb.rules, by simp, fun a ha c hc => ?_⟩
    obtain ⟨n, hn, rfl⟩ := List.mem_map.1 ha
    rw [List.mem_singleton.1 hc]
    exact Nat.ne_of_lt (hb.known n hn)
  · rw [hsize]
    rcases List.mem_append.1 hn with hn | hn
    · exact Nat.lt_succ_of_lt (hb.known n hn)
    · rw [List.mem_singleton.1 hn]
      exact Nat.lt_succ_self _

theorem ruleNamed_cases (b : Bench) (name : Text) :
    (∃ r, (name, r) ∈ b.names ∧ ruleNamed name b = (r, b)) ∨
      b.names.lookup name = none ∧ ruleNamed name b = (b.store.rules.size, naming b name) := by
  cases h : b.names.lookup name with
  | some r =>
    obtain ⟨l₁, l₂, hsplit, -⟩ := List.lookup_eq_some_iff.1 h
    exact .inl ⟨r, by simp [hsplit], Setting.build_ruleNamed_known h⟩
  | none => exact .inr ⟨rfl, Setting.build_ruleNamed_new h⟩

theorem growing_ruleNamed (name : Text) : Growing (ruleNamed name) := by
  refine ⟨fun b => ?_, fun b hb => ?_⟩
  · rcases ruleNamed_cases b name with ⟨r, -, h⟩ | ⟨-, h⟩
    · rw [h]
      exact .refl b
    · rw [h]
      refine ⟨List.subset_append_left _ _, bodyOf_naming b name, fun n hn => ?_⟩
      rcases List.mem_append.1 hn with hn | hn
      · exact .inl hn
      · rw [List.mem_singleton.1 hn]
        exact .inr (by simp [Bench.bodyOf])
  · rcases ruleNamed_cases b name with ⟨r, -, h⟩ | ⟨hl, h⟩
    · rw [h]
      exact hb
    · rw [h]
      exact neat_naming hb hl

theorem growing : Lasting @Growing where
  pure := growing_pure
  bind := growing_bind
  get := growing_of_same fun _ => ⟨rfl, rfl⟩
  fresh := growing_fresh
  skip _ := growing_of_same fun _ => ⟨rfl, rfl⟩
  openCapture := growing_of_same fun _ => ⟨rfl, rfl⟩
  captureId := growing_captureId
  ruleNamed := growing_ruleNamed
  used r := growing_modifyRule r fun _ => rfl

def called (names : List (Text × Nat)) : Allowed where
  call r := r ∈ names.map Prod.snd
  capture _ := False
  backref _ := False

/-- An environment for patterns beside one for syntax. Rules mean what their names do and capture
nothing. -/
structure Interprets (e₀ e : Env) (rule : Text → Meaning) (names : List (Text × Nat)) : Prop where
  subject : e.subject = e₀.subject
  origin : e.origin = e₀.origin
  inside : e.Inside
  call : ∀ n ∈ names, e.call n.2 = rule n.1
  keeps : ∀ n ∈ names, Meaning.Keeps (rule n.1)

variable {e₀ e : Env} {rule : Text → Meaning} {names : List (Text × Nat)} {p : Pattern}
  {M : Meaning}

theorem Interprets.tame (h : Interprets e₀ e rule names) : (called names).Less e.tame := by
  refine ⟨fun r hr => ?_, fun _ h => h.elim, fun _ h => h.elim⟩
  obtain ⟨n, hn, rfl⟩ := List.mem_map.1 hr
  change Meaning.Keeps (e.call n.2)
  rw [h.call n hn]
  exact h.keeps n hn

structure Means (e : Env) (names : List (Text × Nat)) (M : Meaning) (p : Pattern) : Prop where
  same : p.denote e = M
  normal : p.Normal (called names)

structure Fair (e : Env) (rule : Text → Meaning) (names : List (Text × Nat)) (b : Bench) :
    Prop where
  neat : b.Neat
  skip : b.skip = .empty
  bodies : ∀ n ∈ b.names, ∀ p, b.bodyOf n.2 = some p → Means e names (rule n.1) p

/-- What is built from a bench that is fair is as told, if all names are known in the end. -/
def Settles (e : Env) (rule : Text → Meaning) (names : List (Text × Nat)) (m : Build α)
    (R : α → Prop) : Prop :=
  ∀ b, Fair e rule names b → (m b).2.names ⊆ names → Fair e rule names (m b).2 ∧ R (m b).1

variable {R : α → Prop} {Q : β → Prop}

theorem settles_pure {a : α} (h : R a) : Settles e rule names (pure a) R :=
  fun _ hb _ => ⟨hb, h⟩

theorem settles_bind (hm : Settles e rule names m R) (hg : ∀ a, Growing (k a))
    (hk : ∀ a, R a → Settles e rule names (k a) Q) : Settles e rule names (m >>= k) Q := by
  intro b hb hn
  obtain ⟨hb', ha⟩ := hm b hb (List.Subset.trans ((hg (m b).1).grows (m b).2).names hn)
  exact hk (m b).1 ha (m b).2 hb' hn

theorem settles_fresh : Settles e rule names fresh fun _ => True :=
  fun _ hb _ => ⟨⟨⟨hb.neat.names, hb.neat.rules, hb.neat.known⟩, hb.skip, hb.bodies⟩, trivial⟩

theorem settles_one {f : Nat → Pattern} (h : ∀ id, Means e names M (f id)) :
    Settles e rule names (do return f (← fresh)) (Means e names M) :=
  settles_bind settles_fresh (fun _ => growing_pure _) fun id _ => settles_pure (h id)

theorem settles_skipping (p : Pattern) : Settles e rule names (skipping p) (· = p) := by
  intro b hb _
  obtain ⟨store, known, opened, skip⟩ := b
  obtain rfl : skip = .empty := hb.skip
  exact ⟨hb, rfl⟩

theorem settles_suffix (h : Interprets e₀ e rule names) (hp : Means e names M p) (s : Suffix) :
    Settles e rule names (s.build p) (Means e names (s.denote e₀.subject M)) := by
  have star (id : Nat) : Means e names (many e₀.subject M) (.repeated id p) := by
    refine ⟨?_, Pattern.normal_repeated id hp.normal⟩
    rw [Pattern.denote_repeated h.inside id (hp.normal.mono h.tame), hp.same, h.subject]
  cases s with
  | opt =>
    refine settles_one fun id => ⟨?_, Pattern.normal_opt id hp.normal⟩
    rw [Pattern.denote_opt, hp.same]
    rfl
  | star => exact settles_one star
  | plus =>
    refine settles_bind settles_fresh (fun _ => growing_bind growing_fresh fun _ => growing_pure _)
      fun starId _ =>
      settles_one fun id => ⟨?_, Pattern.normal_plus starId id hp.normal⟩
    rw [Pattern.plus, Pattern.denote_seq]
    simp only [List.map_cons, List.map_nil, hp.same, (star starId).same]
    simp [inOrder, Suffix.denote]

theorem settles_suffixes (h : Interprets e₀ e rule names) (ss : List Suffix)
    (hp : Means e names M p) :
    Settles e rule names (ss.foldlM Suffix.build p)
      (Means e names (ss.foldl (Suffix.denote e₀.subject) M)) := by
  induction ss generalizing p M with
  | nil => exact settles_pure hp
  | cons s ss ih =>
    rw [List.foldlM_cons]
    exact settles_bind (settles_suffix h hp s) (growing.suffixes ss) fun q hq => ih hq

theorem settles_builtin (b : Builtin) :
    Settles e rule names b.build (Means e names (b.pattern.denote e)) := by
  cases b with
  | newline => exact settles_pure ⟨rfl, .leaf trivial rfl⟩
  | set name p hp => exact settles_pure ⟨rfl, Pattern.normal_namedSet hp⟩
  | category c => exact settles_pure ⟨rfl, .leaf trivial rfl⟩
  | escape c => exact settles_one fun id => ⟨rfl, .leaf trivial rfl⟩
  | ident =>
    refine settles_bind settles_fresh
      (fun _ => growing_bind growing_fresh fun _ => growing_bind growing_fresh fun _ =>
      growing_pure _) fun setId _ =>
        settles_bind settles_fresh (fun _ => growing_bind growing_fresh fun _ =>
        growing_pure _) fun starId _ => settles_one fun id =>
          ⟨?_, Pattern.normal_ident setId starId id⟩
    simp only [Builtin.pattern, Pattern.ident, Pattern.denote_seq]
    rfl

theorem settles_atom (h : Interprets e₀ e rule names) (a : Atom) (ha : (Lexeme.atom a).isPlain) :
    Settles e rule names a.build (Means e names (a.pattern.denote e₀)) := by
  rw [← Pattern.denote_congr h.subject h.origin (normal_pattern ha)]
  cases a with
  | literal how t =>
    exact settles_one fun id => ⟨denote_text e id 0 how t, Pattern.normal_text id how t⟩
  | set members negated => exact settles_one fun id => ⟨rfl, Pattern.normal_set id members negated⟩
  | endAnchor => exact settles_one fun id => ⟨rfl, Pattern.normal_endAnchor id⟩
  | backref how number => cases ha
  | builtin b => exact settles_builtin b
  | _ => exact settles_pure ⟨rfl, .leaf trivial rfl⟩

theorem mem_ruleNamed (name : Text) (b : Bench) :
    (name, (ruleNamed name b).1) ∈ (ruleNamed name b).2.names := by
  rcases ruleNamed_cases b name with ⟨r, hr, h⟩ | ⟨-, h⟩
  · rw [h]
    exact hr
  · rw [h]
    simp [naming]

theorem fair_ruleNamed (name : Text) {b : Bench} (hb : Fair e rule names b) :
    Fair e rule names (ruleNamed name b).2 := by
  rcases ruleNamed_cases b name with ⟨r, hr, h⟩ | ⟨hl, h⟩
  · rw [h]
    exact hb
  · rw [h]
    refine ⟨neat_naming hb.neat hl, hb.skip, fun n hm p hp => ?_⟩
    have hbody : b.bodyOf n.2 = some p := (bodyOf_naming b name n.2).symm.trans hp
    rcases List.mem_append.1 hm with hm | hm
    · exact hb.bodies n hm p hbody
    · rw [List.mem_singleton.1 hm] at hbody
      simp [Bench.bodyOf] at hbody

theorem fair_modifyRule {b : Bench} (hb : Fair e rule names b) (r : Nat) {f : Rule → Rule}
    (hf : ∀ rule, (f rule).body = rule.body) :
    Fair e rule names { b with store := b.store.modifyRule r f } := by
  refine ⟨(growing_modifyRule r hf).neat b hb.neat, hb.skip, fun n hn p hp => ?_⟩
  exact hb.bodies n hn p ((bodyOf_modifyRule b r hf n.2).symm.trans hp)

variable {inline : Store → Nat → Option Pattern}

def Inlines (inline : Store → Nat → Option Pattern) : Prop :=
  ∀ (b : Bench) r p, inline b.store r = some p → b.bodyOf r = some p

/-- The node that a name stands for, given what is inlined for it. -/
def mention (r : Nat) : Option Pattern → Build Pattern
  | some body => pure body
  | none => do return .call (← fresh) r

theorem build_name (inline : Store → Nat → Option Pattern) (n : Name) (b : Bench) :
    ∃ r b₁ b₂, ruleNamed n.text b = (r, b₁) ∧ modifyRule r (fun rule => { rule with used := true })
      b₁ = ((), b₂) ∧ n.build inline b = mention r (inline b₂.store r) b₂ := by
  obtain ⟨⟨r, b₁⟩, hr⟩ : ∃ x, ruleNamed n.text b = x := ⟨_, rfl⟩
  refine ⟨r, b₁, _, hr, rfl, ?_⟩
  change (ruleNamed n.text >>= _) b = _
  simp only [Bind.bind, StateT.bind, hr]
  rfl

theorem settles_name (h : Interprets e₀ e rule names)
    (hi : Inlines inline) (n : Name) :
    Settles e rule names (n.build inline) (Means e names (rule n.text)) := by
  intro b hb hn
  have hb₁ := fair_ruleNamed n.text hb
  have hmem := mem_ruleNamed n.text b
  obtain ⟨r, b₁, b₂, hr, hused, hbuild⟩ := build_name inline n b
  rw [hr] at hb₁ hmem
  have hb₂ := fair_modifyRule hb₁ r (f := fun rule => { rule with used := true }) fun _ => rfl
  cases hused
  rw [hbuild] at hn ⊢
  cases hbody : inline (b₁.store.modifyRule r fun rule => { rule with used := true }) r with
  | some body => exact ⟨hb₂, hb₂.bodies (n.text, r) hmem body (hi _ r body hbody)⟩
  | none =>
    rw [hbody] at hn
    have hname : (n.text, r) ∈ names := hn hmem
    have hcall (id : Nat) : Means e names (rule n.text) (.call id r) :=
      ⟨h.call _ hname, .leaf (List.mem_map.2 ⟨_, hname, rfl⟩) rfl⟩
    exact settles_one hcall _ hb₂ hn

theorem settles_operator (h : Interprets e₀ e rule names) (o : Operator) (hp : Means e names M p) :
    Settles e rule names (do return o.wrap (← fresh) p)
      (Means e names (o.denote e₀.subject M)) := by
  refine settles_one fun id => ?_
  cases o with
  | peek => exact ⟨by rw [← hp.same]; rfl, .single trivial rfl hp.normal⟩
  | not => exact ⟨by rw [← hp.same]; rfl, .single trivial rfl hp.normal⟩
  | search => exact ⟨by rw [← hp.same, ← h.subject]; rfl, .single trivial rfl hp.normal⟩

def MeanEach (e : Env) (names : List (Text × Nat)) (Ms : List Meaning) (ps : List Pattern) : Prop :=
  ps.map (Pattern.denote e) = Ms ∧ ∀ p ∈ ps, p.Normal (called names)

theorem MeanEach.cons {Ms : List Meaning} {ps : List Pattern} (hp : Means e names M p)
    (hps : MeanEach e names Ms ps) : MeanEach e names (M :: Ms) (p :: ps) :=
  ⟨by rw [List.map_cons, hp.same, hps.1], List.forall_mem_cons.2 ⟨hp.normal, hps.2⟩⟩

theorem MeanEach.seq {Ms : List Meaning} {ps : List Pattern} (hps : MeanEach e names Ms ps)
    (id : Nat) : Means e names (inOrder Ms) (.seq id ps) :=
  ⟨by rw [Pattern.denote_seq, hps.1], Pattern.normal_seq id hps.2⟩

theorem MeanEach.alt {Ms : List Meaning} {ps : List Pattern}
    (hps : MeanEach e names (M :: Ms) (p :: ps)) (id : Nat) :
    Means e names (firstOf (M :: Ms)) (.alt id p ps) :=
  ⟨by rw [Pattern.denote_alt hps.2, hps.1], Pattern.normal_alt id hps.2⟩

mutual

theorem settles_primary (h : Interprets e₀ e rule names) (hi : Inlines inline) (x : Primary)
    (hx : ∀ l ∈ x.lexemes, l.isPlain) :
    Settles e rule names (x.build inline) (Means e names (x.denote e₀ rule)) := by
  cases x with
  | atom a =>
    rw [Primary.build, Primary.denote]
    have ha : (Lexeme.atom a).isPlain := hx _ (by simp [Primary.lexemes])
    refine settles_bind (settles_atom h a ha) growing.skipping fun p hp b hb hn => ?_
    obtain ⟨hb', hq⟩ := settles_skipping p b hb hn
    exact ⟨hb', hq.symm ▸ hp⟩
  | name n =>
    rw [Primary.build, Primary.denote]
    exact settles_name h hi n
  | group y =>
    rw [Primary.build, Primary.denote]
    exact settles_expression h hi y fun l hl => hx l (by simp [Primary.lexemes, hl])
  | capture y =>
    have hopen : (Lexeme.sign .openCapture).isPlain := hx _ (by simp [Primary.lexemes])
    cases hopen

theorem settles_item (h : Interprets e₀ e rule names) (hi : Inlines inline) (x : Item)
    (hx : ∀ l ∈ x.lexemes, l.isPlain) :
    Settles e rule names (x.build inline) (Means e names (x.denote e₀ rule)) := by
  cases x with
  | operator o x =>
    rw [Item.build, Item.denote]
    exact settles_bind (settles_item h hi x fun l hl => hx l (by simp [Item.lexemes, hl]))
      (fun p => growing_bind growing_fresh fun _ => growing_pure _) fun p hp =>
      settles_operator h o hp
  | captured x =>
    have hopen : (Lexeme.sign .captured).isPlain := hx _ (by simp [Item.lexemes])
    cases hopen
  | skip x =>
    have hskip : (Lexeme.sign .skip).isPlain := hx _ (by simp [Item.lexemes])
    cases hskip
  | suffixed p ss =>
    rw [Item.build, Item.denote]
    exact settles_bind (settles_primary h hi p fun l hl => hx l (by simp [Item.lexemes, hl]))
      (growing.suffixes ss) fun q hq => settles_suffixes h ss hq

theorem settles_expression (h : Interprets e₀ e rule names) (hi : Inlines inline) (x : Expression)
    (hx : ∀ l ∈ x.lexemes, l.isPlain) :
    Settles e rule names (x.build inline) (Means e names (x.denote e₀ rule)) := by
  cases x with
  | mk first others =>
    rw [Expression.build, Expression.denote]
    have hfirst := settles_items h hi first fun l hl => hx l (by simp [Expression.lexemes, hl])
    have hothers := settles_others h hi others fun l hl => hx l (by simp [Expression.lexemes, hl])
    have growing (p : Pattern) : Growing (do
        let ps ← buildOthers inline others
        return Pattern.alt (← fresh) p ps) :=
      growing_bind (growing.alternatives inline others) fun _ =>
        growing_bind growing_fresh fun _ => growing_pure _
    refine settles_bind hfirst (fun ps => growing_bind growing_fresh fun id => growing _)
      fun ps hps => ?_
    refine settles_bind settles_fresh (fun id => growing _) fun id _ => ?_
    refine settles_bind hothers (fun _ => growing_bind growing_fresh fun _ => growing_pure _)
      fun qs hqs => ?_
    exact settles_one ((MeanEach.cons (hps.seq id) hqs).alt)

theorem settles_items (h : Interprets e₀ e rule names) (hi : Inlines inline) (xs : List Item)
    (hx : ∀ l ∈ itemLexemes xs, l.isPlain) :
    Settles e rule names (buildItems inline xs) (MeanEach e names (denoteItems e₀ rule xs)) := by
  cases xs with
  | nil =>
    rw [buildItems, denoteItems]
    exact settles_pure ⟨rfl, by simp⟩
  | cons x xs =>
    rw [buildItems, denoteItems]
    refine settles_bind (settles_item h hi x fun l hl => hx l (by simp [itemLexemes, hl]))
      (fun p => growing_bind (growing.items inline xs) fun _ => growing_pure _) fun p hp => ?_
    exact settles_bind (settles_items h hi xs fun l hl => hx l (by simp [itemLexemes, hl]))
      (fun _ => growing_pure _) fun ps hps => settles_pure (hps.cons hp)

theorem settles_others (h : Interprets e₀ e rule names) (hi : Inlines inline)
    (xss : List (List Item)) (hx : ∀ l ∈ otherLexemes xss, l.isPlain) :
    Settles e rule names (buildOthers inline xss)
      (MeanEach e names (denoteOthers e₀ rule xss)) := by
  cases xss with
  | nil =>
    rw [buildOthers, denoteOthers]
    exact settles_pure ⟨rfl, by simp⟩
  | cons xs xss =>
    rw [buildOthers, denoteOthers]
    have growing (p : Pattern) : Growing (do return p :: (← buildOthers inline xss)) :=
      growing_bind (growing.alternatives inline xss) fun _ => growing_pure _
    refine settles_bind (settles_items h hi xs fun l hl => hx l (by simp [otherLexemes, hl]))
      (fun p => growing_bind growing_fresh fun _ => growing _) fun ps hps => ?_
    refine settles_bind settles_fresh (fun _ => growing _) fun id _ => ?_
    exact settles_bind (settles_others h hi xss fun l hl => hx l (by simp [otherLexemes, hl]))
      (fun _ => growing_pure _) fun qs hqs => settles_pure (.cons (hps.seq id) hqs)

end

end Build

end Grammar

end PegMatch

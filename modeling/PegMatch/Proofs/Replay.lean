import PegMatch.Proofs.Identity
import PegMatch.Proofs.Renaming

set_option autoImplicit false

namespace PegMatch.Grammar

/-- The state of a reader, with all that it made behind what a store holds. -/
def State.onto (s : State) (old : Store) : State :=
  { s with
    store := s.store.onto old
    names := s.names.map fun n => (n.1, old.behind.rule n.2)
    skip := s.skip.rename old.behind }

def placed {α : Type} (old : Store) (f : α → α) :
    EStateM.Result ReadError State α → EStateM.Result ReadError State α
  | .ok a s => .ok (f a) (s.onto old)
  | .error e s => .error e (s.onto old)

/-- Only captures that have been made have slots, nothing is counted yet, and all trees are in
normal form. -/
structure Regular (s : State) : Prop where
  fresh : Pattern.firstFresh ≤ s.store.fresh
  bodies : ∀ r p, s.store.body? r = .ok (some p) → p.Normal .all
  skip : s.skip.Normal .all
  slots : ∀ e ∈ s.store.slots, Pattern.firstFresh ≤ e.1 ∧ e.1 < s.store.fresh
  counts : s.store.counts = []

theorem Regular.congr {s s' : State} (hs : Regular s) (hstore : s'.store = s.store)
    (hskip : s'.skip = s.skip) : Regular s' := by
  obtain ⟨fresh, bodies, skip, slots, counts⟩ := hs
  exact ⟨hstore ▸ fresh, hstore ▸ bodies, hskip ▸ skip, hstore ▸ slots, hstore ▸ counts⟩

/-- The first reader does behind a store what the second does by itself. -/
def Replays {α : Type} (old : Store) (f : α → α) (y x : Reader α) (R : α → Prop) : Prop :=
  ∀ s, Regular s → y (s.onto old) = placed old f (x s) ∧ ∀ a s', x s = .ok a s' → Regular s' ∧ R a

variable {α β : Type} {old : Store} {f : α → α} {g : β → β} {x y : Reader α} {R : α → Prop}
  {Q : β → Prop}

theorem placed_bind {k l : α → Reader β} {s : State} (hx : y (s.onto old) = placed old f (x s))
    (hk : ∀ a s', x s = .ok a s' → l (f a) (s'.onto old) = placed old g (k a s')) :
    (y >>= l) (s.onto old) = placed old g ((x >>= k) s) := by
  simp only [bind, EStateM.bind, hx]
  cases hxs : x s with
  | error e s' => rfl
  | ok a s' => exact hk a s' hxs

theorem replays_bind {k l : α → Reader β} (hx : Replays old f y x R)
    (hk : ∀ a, R a → Replays old g (l (f a)) (k a) Q) : Replays old g (y >>= l) (x >>= k) Q := by
  intro s hs
  obtain ⟨hy, hr⟩ := hx s hs
  refine ⟨placed_bind hy fun a s' ha => ?_, fun b s'' hb => ?_⟩
  · obtain ⟨hs', ha'⟩ := hr a s' ha
    exact (hk a ha' s' hs').1
  · obtain ⟨a, s', ha, hb⟩ := ok_of_bind hb
    obtain ⟨hs', ha'⟩ := hr a s' ha
    exact (hk a ha' s' hs').2 b s'' hb

theorem replays_pure {a b : α} (hb : b = f a) (ha : R a) : Replays old f (pure b) (pure a) R := by
  intro s hs
  subst hb
  refine ⟨rfl, fun c s' h => ?_⟩
  cases h
  exact ⟨hs, ha⟩

theorem replays_get : Replays old (fun s => s.onto old) (get : Reader State) get Regular := by
  intro s hs
  refine ⟨rfl, fun a s' h => ?_⟩
  cases h
  exact ⟨hs, hs⟩

theorem replays_set (old : Store) {t : State} (ht : Regular t) :
    Replays old id (set (t.onto old) : Reader PUnit) (set t) fun _ => True := by
  intro s hs
  refine ⟨rfl, fun a s' h => ?_⟩
  cases h
  exact ⟨ht, trivial⟩

theorem replays_modify {h k : State → State}
    (hk : ∀ s, Regular s → k (s.onto old) = (h s).onto old ∧ Regular (h s)) :
    Replays old id (modify k : Reader PUnit) (modify h) fun _ => True := by
  intro s hs
  obtain ⟨he, ht⟩ := hk s hs
  refine ⟨?_, fun a s' h => ?_⟩
  · simp only [modify_apply, placed, he, id]
  · cases h
    exact ⟨ht, trivial⟩

theorem replays_ite {c : Prop} [Decidable c] {x' y' : Reader α} (hx : Replays old f y x R)
    (hx' : Replays old f y' x' R) :
    Replays old f (if c then y else y') (if c then x else x') R := by
  split
  · exact hx
  · exact hx'

theorem Replays.mono {R' : α → Prop} (h : Replays old f y x R) (hR : ∀ a, R a → R' a) :
    Replays old f y x R' := by
  intro s hs
  obtain ⟨he, hr⟩ := h s hs
  exact ⟨he, fun a s' ha => ⟨(hr a s' ha).1, hR a (hr a s' ha).2⟩⟩

variable {src : Source}

theorem replays_failAt {rest : Text} {m : Mistake} :
    Replays old f (failAt src rest m) (failAt src rest m) R :=
  fun _ _ => ⟨rfl, fun _ _ h => by cases h⟩

theorem replays_fail {m : Mistake} : Replays old f (fail src m) (fail src m) R :=
  fun _ _ => ⟨rfl, fun _ _ h => by cases h⟩

theorem replays_tooDeep : Replays old f tooDeep tooDeep R :=
  fun _ _ => ⟨rfl, fun _ _ h => by cases h⟩

theorem replays_sound {e e' : Except Fault α} (h : e' = e.map f) (hR : ∀ a, e = .ok a → R a) :
    Replays old f (sound e') (sound e) R := by
  subst h
  cases e with
  | ok a => exact replays_pure rfl (hR a rfl)
  | error err => exact fun _ _ => ⟨rfl, fun _ _ h => by cases h⟩

theorem replays_advance (rest : Text) :
    Replays old id (advance rest) (advance rest) fun _ => True :=
  replays_modify fun _ hs => ⟨rfl, hs.congr rfl rfl⟩

theorem replays_ahead : Replays old id ahead ahead fun _ => True := by
  refine replays_bind replays_get fun a _ => ?_
  refine replays_bind (replays_advance _) fun _ _ => ?_
  exact replays_bind replays_get fun b _ => replays_pure rfl trivial

theorem replays_read {token : Except Token.Trouble (α × Text)} :
    Replays old id (read src token) (read src token) fun _ => True := by
  unfold read
  split
  · exact replays_bind (replays_advance _) fun _ _ => replays_pure rfl trivial
  · exact replays_failAt

theorem Regular.take {s : State} (hs : Regular s) :
    Regular { s with store := { s.store with fresh := s.store.fresh + 1 } } :=
  ⟨Nat.le_succ_of_le hs.fresh, hs.bodies, hs.skip,
    fun e he => ⟨(hs.slots e he).1, Nat.lt_succ_of_lt (hs.slots e he).2⟩, hs.counts⟩

theorem take_onto (old : Store) {s : State} (hs : Regular s) :
    (s.onto old).store.fresh = old.behind.id s.store.fresh ∧
      ({ s.onto old with store := { (s.onto old).store with fresh := (s.onto old).store.fresh +
                                      1 } } : State) =
      ({ s with store := { s.store with fresh := s.store.fresh + 1 } } : State).onto old :=
  ⟨(old.behind.id_of_fresh hs.fresh).symm, by simp [State.onto, Store.onto, Nat.add_right_comm]⟩

theorem replays_freshId : Replays old old.behind.id freshId freshId fun _ => True := by
  intro s hs
  obtain ⟨hid, hstate⟩ := take_onto old hs
  refine ⟨?_, fun i s' h => ?_⟩
  · show EStateM.Result.ok (s.onto old).store.fresh _ = _
    rw [hstate, hid]
    rfl
  · cases h
    exact ⟨hs.take, trivial⟩

abbrev ReplaysTree (old : Store) (y x : Reader Pattern) : Prop :=
  Replays old (Pattern.rename old.behind) y x fun p => p.Normal .all

theorem replays_node {make : Nat → Pattern} {make' : Nat → Pattern} (hn : ∀ i, (make i).Normal .all)
    (hr : ∀ i, (make i).rename old.behind = make' (old.behind.id i)) :
    ReplaysTree old (do return make' (← freshId)) (do return make (← freshId)) :=
  replays_bind replays_freshId fun i _ => replays_pure (hr i).symm (hn i)

theorem rename_eq_empty {ρ : Renaming} {p : Pattern} : p.rename ρ = .empty ↔ p = .empty := by
  cases p <;> simp [Pattern.rename]

theorem replays_token {p : Pattern} (hp : p.Normal .all) :
    ReplaysTree old (token (p.rename old.behind)) (token p) := by
  intro s hs
  by_cases he : s.skip = .empty
  · have he' : (s.onto old).skip = .empty := rename_eq_empty.2 he
    rw [token_of_empty he, token_of_empty he']
    refine ⟨rfl, fun a s' h => ?_⟩
    cases h
    exact ⟨hs, hp⟩
  · have he' : (s.onto old).skip ≠ .empty := fun h => he (rename_eq_empty.1 h)
    have hitems : ∀ q ∈ [s.skip, p], q.Normal .all := by simpa using ⟨hs.skip, hp⟩
    have node : ReplaysTree old
        (do return .seq (← freshId) [s.skip.rename old.behind, p.rename old.behind])
        (do return .seq (← freshId) [s.skip, p]) :=
      replays_node (fun i => Pattern.normal_seq i hitems) fun i => by simp [Pattern.rename_seq]
    rw [token_of_ne_empty he, token_of_ne_empty he']
    exact node s hs

theorem replays_openCapture : Replays old id (openCapture src) (openCapture src) fun _ => True := by
  refine replays_bind replays_get fun s hs => ?_
  refine replays_bind (f := id) (R := fun _ => True) (replays_sound ?_ fun _ _ => trivial)
    fun most _ => ?_
  · cases (src.capacity.limit ">=").mapError Fault.misuse <;> rfl
  · refine replays_ite replays_fail ?_
    exact replays_bind (replays_set old (t := { s with opened := s.opened + 1 }) (hs.congr rfl rfl))
      fun _ _ => replays_pure rfl trivial

theorem replays_captureId (slot : Nat) :
    Replays old old.behind.id (captureId slot) (captureId slot) fun _ => True := by
  intro s hs
  refine ⟨placed_bind (replays_freshId s hs).1 fun i s' _ => ?_, fun i s' h => ?_⟩
  · simp [modify_apply, bind, EStateM.bind, pure, EStateM.pure, placed, State.onto,
      Store.setSlot, Store.onto]
  · cases h
    have htaken := hs.take
    refine ⟨⟨htaken.fresh, htaken.bodies, htaken.skip, fun e he => ?_, htaken.counts⟩, trivial⟩
    rcases List.mem_cons.1 he with rfl | he
    · exact ⟨hs.fresh, Nat.lt_succ_self _⟩
    · exact htaken.slots e he

theorem lookup_names (ρ : Renaming) (names : List (Text × Nat)) (name : Text) :
    (names.map fun n => (n.1, ρ.rule n.2)).lookup name = (names.lookup name).map ρ.rule := by
  induction names with
  | nil => rfl
  | cons n names ih =>
    obtain ⟨name', r⟩ := n
    simp only [List.map_cons, List.lookup_cons, ih]
    cases name == name' <;> rfl

theorem Regular.naming {s : State} (hs : Regular s) (name : Text) (place : Position) :
    Regular (s.naming name place) := by
  refine ⟨hs.fresh, fun r p hp => ?_, hs.skip, hs.slots, hs.counts⟩
  simp only [State.naming, Store.addRule, Store.body?, Store.rule, Array.getElem?_push] at hp
  split at hp
  · simp at hp
  · exact hs.bodies r p hp

theorem replays_ruleNamed {name start : Text} :
    Replays old old.behind.rule (ruleNamed src name start) (ruleNamed src name start)
      fun _ => True := by
  refine replays_bind replays_get fun s hs => ?_
  have hnames : (s.onto old).names.lookup name = (s.names.lookup name).map old.behind.rule :=
    lookup_names old.behind s.names name
  rw [hnames]
  cases s.names.lookup name with
  | some r => exact replays_pure rfl trivial
  | none =>
    have hadd := Store.addRule_onto s.store old { name := name, place := src.place start } rfl
    have hstate : ({ s.onto old with
        store := ((s.onto old).store.addRule { name := name, place := src.place start }).2
        names := (s.onto old).names ++ [(name, (s.onto old).store.rules.size)] } : State) =
        (s.naming name (src.place start)).onto old := by
      have hsize : (s.onto old).store.rules.size = old.behind.rule s.store.rules.size :=
        congrArg Prod.fst hadd
      have hstore : ((s.onto old).store.addRule { name := name, place := src.place start }).2 =
          (s.naming name (src.place start)).store.onto old := congrArg Prod.snd hadd
      rw [hsize, hstore]
      simp [State.naming, State.onto]
    have hset := replays_set old (hs.naming name (src.place start))
    rw [← hstate] at hset
    refine replays_bind hset fun _ _ => replays_pure ?_ trivial
    exact congrArg Prod.fst hadd

theorem Regular.modifyRule {s : State} (hs : Regular s) (r : Nat) {f : Rule → Rule}
    (hf : ∀ rule, (f rule).body = rule.body) (hp : ∀ rule, (f rule).proper = rule.proper) :
    Regular { s with store := s.store.modifyRule r f } := by
  refine ⟨hs.fresh, fun r' p hbody => hs.bodies r' p ?_, hs.skip, hs.slots, hs.counts⟩
  obtain ⟨hb, hq⟩ : ((s.store.modifyRule r f).rule r').body = (s.store.rule r').body ∧
      ((s.store.modifyRule r f).rule r').proper = (s.store.rule r').proper := by
    simp only [Store.rule, Store.modifyRule, Array.getElem?_modify]
    split
    · cases s.store.rules[r']? <;> simp [hf, hp]
    · exact ⟨rfl, rfl⟩
  simpa only [Store.body?, hb, hq] using hbody

theorem replays_markUsed (r : Nat) :
    Replays old id (markUsed (old.behind.rule r)) (markUsed r) fun _ => True := by
  refine replays_modify fun s hs => ⟨?_, hs.modifyRule r (fun _ => rfl) fun _ => rfl⟩
  have h := Store.modifyRule_onto s.store old r (f := fun rule => { rule with used := true })
    (g := fun rule => { rule with used := true }) fun _ => rfl
  simp only [State.onto, h]

theorem replays_setPlace (r : Nat) (place : Position) :
    Replays old id (setPlace (old.behind.rule r) place) (setPlace r place) fun _ => True := by
  refine replays_modify fun s hs => ⟨?_, hs.modifyRule r (fun _ => rfl) fun _ => rfl⟩
  have h := Store.modifyRule_onto s.store old r (f := fun rule => { rule with place := place })
    (g := fun rule => { rule with place := place }) fun _ => rfl
  simp only [State.onto, h]

theorem inlined_onto {s : State} (hs : Regular s) (limit : Datum) (r : Nat) :
    inlined? (s.onto old).store limit (old.behind.rule r) =
      (inlined? s.store limit r).map (Option.map (Pattern.rename old.behind)) := by
  simp only [inlined?, State.onto, Store.body_onto]
  cases hb : s.store.body? r with
  | error e => rfl
  | ok o =>
    cases o with
    | none => rfl
    | some p =>
      have hcost : (s.store.onto old).cost limit (p.rename old.behind) = s.store.cost limit p :=
        Pattern.cost_rename _ (hs.bodies r p hb) _ _ _
      simp only [Except.map, bind, Except.bind, Option.map_some, hcost]
      split
      · cases s.store.cost limit p with
        | error e => rfl
        | ok cost =>
          cases (limit.limit "<").mapError Fault.misuse with
          | error e => rfl
          | ok most =>
            simp only
            split <;> rfl
      · rfl

theorem replays_reference {name start : Text} :
    ReplaysTree old (reference src name start) (reference src name start) := by
  refine replays_bind replays_get fun a _ => replays_ite ?_ replays_failAt
  refine replays_bind replays_ruleNamed fun r _ => ?_
  refine replays_bind (replays_markUsed r) fun _ _ => ?_
  refine replays_bind replays_get fun s hs => ?_
  refine replays_bind (f := Option.map (Pattern.rename old.behind)) (R := fun o => ∀ p, o = some p →
    p.Normal .all) (replays_sound (inlined_onto hs src.inline r) fun o ho p hp => ?_) fun o ho => ?_
  · subst hp
    exact hs.bodies r p (body_of_inlined ho)
  · cases o with
    | some p =>
      refine replays_bind (replays_modify fun s hs => ⟨rfl, hs.congr rfl rfl⟩) fun _ _ => ?_
      exact replays_pure rfl (ho p rfl)
    | none => exact replays_node (fun i => .leaf trivial rfl) fun i => rfl

theorem replays_backReference {how : Comparison} {start : Text} :
    ReplaysTree old (backReference src how start) (backReference src how start) := by
  simp only [backReference]
  refine replays_ite replays_failAt ?_
  refine replays_bind (f := id) (R := fun _ => True)
    (replays_sound ?_ fun _ _ => trivial) fun n _ => ?_
  · cases (Text.decimal ((start.drop 1).takeWhile Text.isAsciiDigit)).mapError Fault.number <;> rfl
  · refine replays_bind (replays_advance _) fun _ _ => ?_
    refine replays_bind replays_get fun a _ => ?_
    exact replays_ite (replays_node (fun i => .leaf trivial rfl) fun i => rfl) replays_failAt

theorem replays_newToken {make : Nat → Pattern} (hn : ∀ i, (make i).Normal .all)
    (hr : ∀ i, (make i).rename old.behind = make (old.behind.id i)) :
    ReplaysTree old (do token (make (← freshId))) (do token (make (← freshId))) := by
  refine replays_bind replays_freshId fun i _ => ?_
  rw [← hr i]
  exact replays_token (hn i)

theorem replays_literal {how : Comparison} {verbatim : Bool} {t : Text} :
    ReplaysTree old (literal src how verbatim t) (literal src how verbatim t) :=
  replays_bind replays_read fun body _ =>
    replays_newToken (fun i => Pattern.normal_text i how body) fun i =>
      Pattern.rename_text _ i how body

theorem replays_characterClass {start t : Text} :
    ReplaysTree old (characterClass src start t) (characterClass src start t) :=
  replays_bind replays_read fun _ _ =>
    replays_newToken (fun i => Pattern.normal_set i _ _) fun _ => rfl

theorem replays_suffixes (room : Nat) {p : Pattern} (hp : p.Normal .all) :
    ReplaysTree old (suffixes room (p.rename old.behind)) (suffixes room p) := by
  induction room generalizing p with
  | zero => exact replays_pure rfl hp
  | succ room ih =>
    refine replays_bind replays_ahead fun t _ => ?_
    match t with
    | [] => exact replays_pure rfl hp
    | c :: t =>
      refine replays_ite ?_ (replays_ite ?_ (replays_ite ?_ (replays_pure rfl hp)))
      · refine replays_bind (replays_advance _) fun _ _ =>
          replays_bind replays_freshId fun i _ => ?_
        rw [← Pattern.rename_opt]
        exact ih (Pattern.normal_opt i hp)
      · refine replays_bind (replays_advance _) fun _ _ =>
          replays_bind replays_freshId fun i _ => ?_
        rw [← Pattern.rename_repeated]
        exact ih (Pattern.normal_repeated i hp)
      · refine replays_bind (replays_advance _) fun _ _ =>
          replays_bind replays_freshId fun starId _ => ?_
        refine replays_bind replays_freshId fun i _ => ?_
        rw [← Pattern.rename_plus]
        exact ih (Pattern.normal_plus starId i hp)

theorem replays_close {wanted opener : Nat} {start : Text} :
    Replays old id (close src wanted opener start) (close src wanted opener start)
      fun _ => True := by
  refine replays_bind replays_ahead fun t _ => ?_
  match t with
  | [] => exact replays_failAt
  | c :: t => exact replays_ite (replays_advance _) replays_fail

theorem replays_named {name : Text} :
    Replays old (Option.map (Pattern.rename old.behind)) (named? name) (named? name)
      fun o => ∀ p, o = some p → p.Normal .all := by
  have simple {p : Pattern} (hr : p.rename old.behind = p) (hn : p.Normal .all) :
      Replays old (Option.map (Pattern.rename old.behind)) (pure (some p)) (pure (some p))
        fun o => ∀ p, o = some p → p.Normal .all := by
    refine replays_pure (by simp [hr]) fun q hq => ?_
    cases hq
    exact hn
  have category (c : Category) := simple (p := .category c) rfl (.leaf trivial rfl)
  unfold named?
  refine replays_ite (simple rfl (.leaf trivial rfl)) ?_
  cases hset : Pattern.namedSet? name with
  | some p => exact simple (Pattern.rename_namedSet _ hset) (Pattern.normal_namedSet hset)
  | none =>
    refine replays_ite (category .letter)
      (replays_ite (category .lower)
        (replays_ite (category .upper)
          (replays_ite (category .title) (replays_ite (category .white) (replays_ite ?_ ?_)))))
    · refine replays_bind replays_freshId fun setId _ =>
        replays_bind replays_freshId fun starId _ => ?_
      refine replays_bind replays_freshId fun i _ => replays_pure ?_ fun p hp => ?_
      · simp [Pattern.rename_ident]
      · cases hp
        exact Pattern.normal_ident setId starId i
    · exact replays_pure rfl fun p hp => by cases hp

theorem replays_builtin {start t : Text} :
    ReplaysTree old (builtin src start t) (builtin src start t) := by
  refine replays_bind replays_named fun o ho => ?_
  cases o with
  | some p => exact replays_bind (replays_advance _) fun _ _ => replays_token (ho p rfl)
  | none =>
    refine replays_ite replays_failAt ?_
    cases Token.escape? t with
    | none => exact replays_failAt
    | some e =>
      exact replays_bind (replays_advance _) fun _ _ =>
        replays_newToken (fun _ => .leaf trivial rfl) fun _ => rfl

abbrev ReplaysTrees (old : Store) (y x : Reader (List Pattern)) : Prop :=
  Replays old (List.map (Pattern.rename old.behind)) y x fun ps => ∀ p ∈ ps, p.Normal .all

theorem replays_nil : ReplaysTrees old (pure []) (pure []) :=
  replays_pure rfl (by simp)

theorem replays_cons {p : Pattern} (hp : p.Normal .all) {x y : Reader (List Pattern)}
    (h : ReplaysTrees old y x) :
    ReplaysTrees old (do return p.rename old.behind :: (← y)) (do return p :: (← x)) :=
  replays_bind h fun ps hps => replays_pure rfl (by simpa using ⟨hp, hps⟩)

structure ReplaysAll (src : Source) (old : Store) (fuel : Nat) : Prop where
  expression : ReplaysTree old (expression src fuel) (expression src fuel)
  alternatives : ReplaysTrees old (alternatives src fuel) (alternatives src fuel)
  sequence : ReplaysTree old (sequence src fuel) (sequence src fuel)
  items : ReplaysTrees old (items src fuel) (items src fuel)
  prefixed : ReplaysTree old (prefixed src fuel) (prefixed src fuel)
  primary : ReplaysTree old (primary src fuel) (primary src fuel)

section

variable (fuel : Nat) (ih : ReplaysAll src old fuel)
include ih

theorem replays_expression :
    ReplaysTree old (expression src (fuel + 1)) (expression src (fuel + 1)) := by
  refine replays_bind ih.sequence fun p hp => replays_bind ih.alternatives fun ps hps => ?_
  exact replays_node (fun i => Pattern.normal_alt i (by simpa using ⟨hp, hps⟩)) fun i =>
    Pattern.rename_alt _ i p ps

theorem replays_alternatives :
    ReplaysTrees old (alternatives src (fuel + 1)) (alternatives src (fuel + 1)) := by
  refine replays_bind replays_ahead fun t _ => ?_
  simp only [id]
  split
  · refine replays_bind (replays_advance _) fun _ _ => replays_bind ih.sequence fun p hp => ?_
    exact replays_cons hp ih.alternatives
  · exact replays_nil

theorem replays_sequence : ReplaysTree old (sequence src (fuel + 1)) (sequence src (fuel + 1)) :=
  replays_bind ih.items fun ps hps =>
    replays_node (fun i => Pattern.normal_seq i hps) fun i => Pattern.rename_seq _ i ps

theorem replays_items : ReplaysTrees old (items src (fuel + 1)) (items src (fuel + 1)) := by
  refine replays_bind replays_ahead fun t _ => ?_
  match t with
  | [] => exact replays_nil
  | c :: t =>
    refine replays_ite replays_nil ?_
    refine replays_bind replays_get fun s _ => replays_ite replays_nil ?_
    exact replays_bind ih.prefixed fun p hp => replays_cons hp ih.items

theorem replays_prefixed : ReplaysTree old (prefixed src (fuel + 1)) (prefixed src (fuel + 1)) := by
  have wrapped {t : Text} {wrap : Nat → Pattern → Pattern}
      (hw : ∀ i p, p.Normal .all → (wrap i p).Normal .all)
      (hr : ∀ i p, (wrap i p).rename old.behind = wrap (old.behind.id i) (p.rename old.behind)) :
      ReplaysTree old (do advance t; let p ← prefixed src fuel; return wrap (← freshId) p)
        (do advance t; let p ← prefixed src fuel; return wrap (← freshId) p) :=
    replays_bind (replays_advance _) fun _ _ => replays_bind ih.prefixed fun p hp =>
      replays_node (fun i => hw i p hp) fun i => hr i p
  refine replays_bind replays_ahead fun t _ => ?_
  simp only [id]
  split
  · exact wrapped (fun i p h => .single trivial rfl h) fun _ _ => rfl
  · exact wrapped (fun i p h => .single trivial rfl h) fun _ _ => rfl
  · exact wrapped (fun i p h => .single trivial rfl h) fun _ _ => rfl
  · refine replays_bind replays_openCapture fun slot _ =>
      replays_bind (replays_advance _) fun _ _ => ?_
    refine replays_bind ih.prefixed fun p hp => replays_bind (replays_captureId slot) fun i _ => ?_
    exact replays_token (p := .capturedSearch i p) (.single trivial rfl hp)
  · refine replays_bind ih.primary fun p hp => replays_bind replays_get fun s _ => ?_
    exact replays_suffixes _ hp

theorem replays_primary : ReplaysTree old (primary src (fuel + 1)) (primary src (fuel + 1)) := by
  have simple {p : Pattern} {t : Text} (hr : p.rename old.behind = p) (hn : p.Normal .all) :
      ReplaysTree old (do advance t; token p) (do advance t; token p) := by
    refine replays_bind (replays_advance _) fun _ _ => ?_
    have h : ReplaysTree old (token (p.rename old.behind)) (token p) := replays_token hn
    rwa [hr] at h
  have reference {how : Comparison} {t : Text} : ReplaysTree old
      (do token (← backReference src how t)) (do token (← backReference src how t)) :=
    replays_bind replays_backReference fun p hp => replays_token hp
  refine replays_bind replays_ahead fun t _ => ?_
  match t with
  | [] => exact replays_fail
  | c :: t =>
    refine replays_ite replays_literal ?_
    refine replays_ite replays_literal ?_
    refine replays_ite replays_literal ?_
    refine replays_ite replays_literal ?_
    refine replays_ite reference ?_
    refine replays_ite reference ?_
    refine replays_ite (replays_ite reference ?_) ?_
    · exact replays_bind (replays_advance _) fun _ _ =>
        replays_newToken (fun i => Pattern.normal_endAnchor i) fun _ => rfl
    refine replays_ite ?_ ?_
    · refine replays_bind (replays_advance _) fun _ _ => replays_bind ih.expression fun p hp => ?_
      exact replays_bind replays_close fun _ _ => replays_pure rfl hp
    refine replays_ite ?_ ?_
    · refine replays_bind replays_openCapture fun slot _ =>
        replays_bind (replays_advance _) fun _ _ => ?_
      refine replays_bind ih.expression fun p hp => replays_bind replays_close fun _ _ => ?_
      exact replays_bind (replays_captureId slot) fun i _ =>
        replays_pure rfl (.single trivial rfl hp)
    refine replays_ite replays_characterClass ?_
    refine replays_ite (simple rfl (.leaf trivial rfl)) ?_
    refine replays_ite (simple rfl (.leaf trivial rfl)) ?_
    refine replays_ite (simple rfl (.leaf trivial rfl)) ?_
    refine replays_ite (replays_ite ?_ replays_builtin) ?_
    · refine replays_bind (replays_advance _) fun _ _ => replays_bind ih.prefixed fun p hp => ?_
      refine replays_bind (replays_modify fun s hs =>
        ⟨rfl, hs.fresh, hs.bodies, hp, hs.slots, hs.counts⟩) fun _ _ => ?_
      exact replays_pure rfl (.leaf trivial rfl)
    split
    · exact replays_bind (replays_advance _) fun _ _ => replays_reference
    · exact replays_ite replays_fail replays_fail

end

theorem replaysAll (src : Source) (old : Store) (fuel : Nat) : ReplaysAll src old fuel := by
  induction fuel with
  | zero =>
    exact ⟨replays_tooDeep, replays_tooDeep, replays_tooDeep, replays_tooDeep, replays_tooDeep,
      replays_tooDeep⟩
  | succ fuel ih =>
    exact ⟨replays_expression fuel ih, replays_alternatives fuel ih, replays_sequence fuel ih,
      replays_items fuel ih, replays_prefixed fuel ih, replays_primary fuel ih⟩

theorem replays_declare (r : Nat) (place : Position) {p : Pattern} (hp : p.Normal .all) :
    Replays old id (declare (old.behind.rule r) place (p.rename old.behind)) (declare r place p)
      fun _ => True := by
  refine replays_modify fun s hs => ⟨?_, hs.fresh, fun r' q hq => ?_, hs.skip, hs.slots, hs.counts⟩
  · have h :=
      Store.modifyRule_onto s.store old r
        (f := fun rule => { rule with place := place, declared := true, body := some p })
        (g := fun rule =>
          { rule with place := place, declared := true, body := some (p.rename old.behind) })
        fun _ => rfl
    simp only [State.onto, h]
  · by_cases he : r = r' ∧ r' < s.store.rules.size
    · obtain ⟨rfl, hlt⟩ := he
      simp only [Store.body?, Store.rule, Store.modifyRule, Array.getElem?_modify, if_true,
        Array.getElem?_eq_getElem hlt, Option.map_some, Option.getD_some, Option.isSome_some,
        Bool.or_true] at hq
      cases hq
      exact hp
    · have hsame : (s.store.modifyRule r fun rule =>
          { rule with place := place, declared := true, body := some p }).rule r' =
            s.store.rule r' := by
        simp only [Store.rule, Store.modifyRule, Array.getElem?_modify]
        split
        · next hr =>
          have hnone : s.store.rules[r']? = none := by
            rw [Array.getElem?_eq_none_iff]
            exact Nat.le_of_not_lt fun hlt => he ⟨hr, hlt⟩
          simp [hnone]
        · rfl
      simp only [Store.body?, hsame] at hq
      exact hs.bodies r' q hq

theorem replays_rules (room : Nat) :
    Replays old (List.map old.behind.member) (rules src room) (rules src room) fun _ => True := by
  induction room with
  | zero => exact replays_pure rfl trivial
  | succ room ih =>
    refine replays_bind replays_ahead fun t _ => ?_
    match t with
    | [] => exact replays_pure rfl trivial
    | c :: t =>
      simp only [id]
      split
      · exact replays_fail
      · refine replays_bind replays_ruleNamed fun r _ => replays_bind replays_get fun s _ => ?_
        have hdeclared : ((s.onto old).store.rules[old.behind.rule r]?.map Rule.declared) =
            s.store.rules[r]?.map Rule.declared := by
          rw [State.onto, Store.getElem_onto, Option.map_map]
          rfl
        rw [hdeclared]
        refine replays_ite replays_failAt ?_
        refine replays_bind (replays_setPlace r _) fun _ _ =>
          replays_bind (replays_advance _) fun _ _ => ?_
        refine replays_bind (replaysAll src old _).expression fun p hp => ?_
        refine replays_bind (replays_declare r _ hp) fun _ _ => ?_
        exact replays_bind replays_freshId fun i _ => replays_bind ih fun ds _ =>
          replays_pure rfl trivial

theorem checkDeclared_onto (s : State) (names : List (Text × Nat)) :
    checkDeclared src (s.onto old).store (names.map fun n => (n.1, old.behind.rule n.2)) =
      checkDeclared src s.store names := by
  induction names with
  | nil => rfl
  | cons n names ih =>
    obtain ⟨name, r⟩ := n
    have hrule : (s.onto old).store.rules[old.behind.rule r]? = _ := Store.getElem_onto s.store r
    simp only [List.map_cons, checkDeclared, hrule, ih]
    cases s.store.rules[r]? <;> rfl

theorem unused_onto (s : State) (defs : List (Nat × Nat)) :
    unused src (s.onto old).store (defs.map old.behind.member) = unused src s.store defs := by
  simp only [unused, List.filterMap_map]
  congr 1
  funext d
  have hrule : (s.onto old).store.rules[old.behind.rule d.2]? = _ := Store.getElem_onto s.store d.2
  simp only [Function.comp_apply, Renaming.member, hrule]
  cases s.store.rules[d.2]? <;> rfl

theorem replays_grammar :
    Replays old (Pattern.rename old.behind) (grammar src) (grammar src) fun _ => True := by
  refine replays_bind (replays_rules _) fun defs _ => replays_bind replays_get fun s _ => ?_
  have hcheck : checkDeclared src (s.onto old).store (s.onto old).names =
      checkDeclared src s.store s.names :=
    checkDeclared_onto s s.names
  rw [hcheck]
  cases checkDeclared src s.store s.names with
  | error e => exact fun _ _ => ⟨rfl, fun _ _ h => by cases h⟩
  | ok =>
    cases defs with
    | nil => exact replays_pure rfl trivial
    | cons start others =>
      refine replays_bind (replays_modify fun s hs => ⟨?_, hs.congr rfl rfl⟩) fun _ _ => ?_
      · rw [unused_onto s others]
        rfl
      · exact replays_bind replays_freshId fun i _ => replays_pure rfl trivial

def main (src : Source) : Reader Pattern := do
  let t ← ahead
  if (Token.header? t).isSome then do
    modify fun s => { s with inGrammar := true }
    grammar src
  else expression src (fuel t)

theorem whole_eq_main (src : Source) : whole src = main src >>= finish src := by
  rw [whole_eq, main, bind_assoc]
  congr 1
  funext t
  split
  · rw [bind_assoc]
  · rfl

theorem replays_main (src : Source) (old : Store) :
    Replays old (Pattern.rename old.behind) (main src) (main src) fun _ => True := by
  refine replays_bind replays_ahead fun t _ => replays_ite ?_ ?_
  · refine replays_bind (replays_modify fun s hs => ⟨rfl, hs.congr rfl rfl⟩) fun _ _ => ?_
    exact replays_grammar
  · exact (replaysAll src old _).expression.mono fun _ _ => trivial

theorem finish_onto (p : Pattern) {s : State} (hs : Regular s) :
    finish src (p.rename old.behind) (s.onto old) = placed old (Pattern.rename old.behind)
      (finish src p s) := by
  refine placed_bind (replays_ahead s hs).1 fun t s' _ => ?_
  match t with
  | [] =>
    simp [modify_apply, bind, EStateM.bind, pure, EStateM.pure, placed, State.onto, Store.setCount,
      Store.onto, Pattern.id_rename]
  | c :: t =>
    simp only [id]
    split <;> rfl

theorem finish_spec {p q : Pattern} {s s' : State} (h : finish src p s = .ok q s') :
    q = p ∧ s'.store = s.store.setCount p s.opened := by
  obtain ⟨t, s₁, h₁, h⟩ := ok_of_bind h
  obtain ⟨hstore, hopened⟩ : s₁.store = s.store ∧ s₁.opened = s.opened := by
    cases h₁
    exact ⟨rfl, rfl⟩
  match t, h with
  | [], h =>
    cases h
    exact ⟨rfl, by rw [← hstore, ← hopened]⟩
  | c :: t, h =>
    simp only at h
    split at h <;> cases h

/-- The state in which reading starts. -/
def start (src : Source) (store : Store) : State :=
  { rest := src.text, store := store }

theorem regular_start (src : Source) : Regular (start src {}) :=
  ⟨Nat.le_refl _, fun r p h => by simp [start, Store.body?, Store.rule] at h, .leaf trivial rfl,
    by simp [start], rfl⟩

/-- Reading a text behind what a store holds: the outcome is that of reading it into an empty store,
with what was made renamed. -/
theorem parse_onto (src : Source) {old : Store} (hold : Pattern.firstFresh ≤ old.fresh) :
    parse src old = ((parse src {}).1.map (Pattern.rename old.behind), (parse src {}).2.1.onto old,
      (parse src {}).2.2) := by
  have hstart : start src old = (start src {}).onto old := by
    simp only [start, State.onto, Store.onto_empty hold]
    rfl
  have hrun : whole src (start src old) = placed old (Pattern.rename old.behind)
      (whole src (start src {})) := by
    obtain ⟨hmain, hregular⟩ := replays_main src old (start src {}) (regular_start src)
    rw [hstart, whole_eq_main]
    exact placed_bind hmain fun p s hp => finish_onto p (hregular p s hp).1
  simp only [start] at hrun
  simp only [parse, EStateM.run, hrun]
  cases whole src { rest := src.text, store := {} } <;> rfl

theorem parse_behind {src : Source} {old store : Store} (hold : Pattern.firstFresh ≤ old.fresh)
    {p : Pattern} {log : List Notice} (h : parse src old = (.ok p, store, log)) :
    ∃ p₀ s₀, parse src {} = (.ok p₀, s₀, log) ∧ p = p₀.rename old.behind ∧ store = s₀.onto old := by
  rw [parse_onto src hold] at h
  rcases halone : parse src {} with ⟨_ | p₀, s₀, log₀⟩
  · simp [halone, Except.map] at h
  · simp only [halone, Except.map, Prod.mk.injEq, Except.ok.injEq] at h
    obtain ⟨rfl, rfl, rfl⟩ := h
    exact ⟨p₀, s₀, rfl, rfl, rfl⟩

theorem error_of_parse {src : Source} {old store : Store} (hold : Pattern.firstFresh ≤ old.fresh)
    {e : ReadError} {log : List Notice} (h : parse src old = (.error e, store, log)) :
    (parse src {}).1 = .error e := by
  rw [parse_onto src hold] at h
  rcases halone : parse src {} with ⟨e₀ | p₀, s₀, log₀⟩
  · simp only [halone, Except.map, Prod.mk.injEq, Except.error.injEq] at h
    rw [h.1]
  · simp [halone, Except.map] at h

/-- What reading a text into an empty store leaves there: captures with fresh identities, and one
count. -/
theorem parse_fresh {src : Source} {p : Pattern} {store : Store} {log : List Notice}
    (h : parse src {} = (.ok p, store, log)) :
    Pattern.firstFresh ≤ store.fresh ∧
      (∀ e ∈ store.slots, Pattern.firstFresh ≤ e.1 ∧ e.1 < store.fresh) ∧
      ∃ n, store.counts = [(p.id, n)] := by
  obtain ⟨-, hregular⟩ := replays_main src {} (start src {}) (regular_start src)
  simp only [parse, EStateM.run, whole_eq_main] at h
  split at h
  · next s hrun =>
    cases h
    obtain ⟨q, s₁, hmain, hfinish⟩ := ok_of_bind hrun
    obtain ⟨rfl, hstore⟩ := finish_spec hfinish
    have hs := (hregular _ s₁ hmain).1
    rw [hstore]
    exact ⟨hs.fresh, hs.slots, s₁.opened, by simp [Store.setCount, hs.counts]⟩
  · cases h

theorem id_lt_grammar {p : Pattern} {s s' : State} (h : grammar src s = .ok p s')
    (hp : p ≠ .empty) : p.id < s'.store.fresh := by
  obtain ⟨defs, s₁, -, h⟩ := ok_of_bind h
  obtain ⟨_, _, h₂, h⟩ := ok_of_bind h
  cases h₂
  cases hc : checkDeclared src s₁.store s₁.names with
  | error e => simp only [hc] at h; cases h
  | ok =>
    simp only [hc] at h
    cases defs with
    | nil =>
      cases h
      exact absurd rfl hp
    | cons start others =>
      obtain ⟨_, s₃, -, h⟩ := ok_of_bind h
      cases h
      exact Nat.lt_succ_self _

theorem ids_of_grammar {id : Nat} {start : Nat × Nat} {others : List (Nat × Nat)} {store : Store}
    {log : List Notice} (h : parse src {} = (.ok (.grammar id start others), store, log)) :
    (Pattern.firstFresh ≤ id ∧ id < store.fresh) ∧ ∀ d ∈ start :: others, Pattern.firstFresh ≤ d.1 ∧
      d.1 < store.fresh := by
  simp only [parse, EStateM.run, whole_eq_main] at h
  split at h
  · next s hrun =>
    cases h
    obtain ⟨q, s₁, hmain, hfinish⟩ := ok_of_bind hrun
    obtain ⟨rfl, hstore⟩ := finish_spec hfinish
    rw [hstore]
    obtain ⟨t, s₂, h₂, hmain⟩ := ok_of_bind hmain
    split at hmain
    · obtain ⟨_, s₃, h₃, hmain⟩ := ok_of_bind hmain
      obtain ⟨H, -, hs, -⟩ := tidily_ahead _ (tidy_start (Nat.le_refl _) src.text) _ _ h₂
      cases h₃
      have hs' : Tidy 0 H { s₂ with inGrammar := true } :=
        hs.grow (fun _ h => h) hs.pool hs.skip rfl rfl
      obtain ⟨H', -, hs'', hlisted⟩ := tidily_grammar _ hs' _ _ hmain
      rcases hlisted with hnone | ⟨id', start', others', he, hid, hnodes⟩
      · cases hnone
      · cases he
        refine ⟨⟨hid, id_lt_grammar hmain (by simp)⟩, fun d hd =>
          ⟨?_, hs''.pool.below _ (hnodes d hd)⟩⟩
        rcases hs''.pool.others _ (hnodes d hd) with hsingle | hfresh
        · simp [Pattern.singles] at hsingle
        · exact hfresh
    · have hahead : Replays {} (fun t => t) ahead ahead fun _ => True := replays_ahead
      have hs₂ := ((hahead _ (regular_start src)).2 t s₂ h₂).1
      have hnormal := (((replaysAll src {} _).expression s₂ hs₂).2 _ _ hmain).2
      exact hnormal.here.elim
  · cases h

theorem id_lt_fresh {p : Pattern} {store : Store} {log : List Notice}
    (h : parse src {} = (.ok p, store, log)) : p.id < store.fresh := by
  obtain ⟨H, horderly⟩ := orderly_parse (Nat.le_refl _) h
  rcases horderly.root with ⟨i, d, ds, rfl, -⟩ | hp
  · exact (ids_of_grammar h).1.2
  · exact horderly.pool.below p hp

theorem single_or_fresh {p : Pattern} {store : Store} {log : List Notice}
    (h : parse src {} = (.ok p, store, log)) : p ∈ Pattern.singles ∨ Pattern.firstFresh ≤ p.id := by
  obtain ⟨H, horderly⟩ := orderly_parse (Nat.le_refl _) h
  rcases horderly.root with ⟨id, d, ds, rfl, hid⟩ | hp
  · exact .inr hid
  · exact horderly.pool.others p hp

end PegMatch.Grammar

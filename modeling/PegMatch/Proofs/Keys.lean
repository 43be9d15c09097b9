import PegMatch.Proofs.Compilations

set_option autoImplicit false

/-! Keys of the cache. A limit may be given as a number or as a truth value, and a file may be named
by any value, so keys that are equal need not be the same. They stand for one pattern all the same:
a limit is only ever compared, and the name of the file is only told. -/

namespace PegMatch

namespace Datum

structure Alike (d e : Datum) : Prop where
  holds : d.holds = e.holds
  limit : ∀ operator, d.limit operator = e.limit operator
  next : d.next = e.next

variable {d e : Datum}

theorem Alike.refl (d : Datum) : d.Alike d :=
  ⟨rfl, fun _ => rfl, rfl⟩

theorem holds_of_int {i : Int} (h : d.int? = some i) : d.holds = (i != 0) := by
  cases d <;> simp only [int?, reduceCtorEq, Option.some.injEq] at h
  · next b =>
    subst h
    cases b <;> rfl
  · subst h
    rfl

theorem alike_of_int {i : Int} (hd : d.int? = some i) (he : e.int? = some i) : d.Alike e where
  holds := by rw [holds_of_int hd, holds_of_int he]
  limit operator := by simp only [limit, hd, he]
  next := by simp only [next, hd, he]

theorem alike_of_same (he : e.isKey) (h : d.same e = true) : d.Alike e := by
  cases d with
  | null =>
    cases e <;> simp only [same, Bool.false_eq_true] at h
    exact .refl _
  | bool b =>
    have hint : e.int? = some (if b then 1 else 0) := eq_of_beq (by simpa only [same] using h)
    exact alike_of_int rfl hint
  | int i =>
    have hint : e.int? = some i := eq_of_beq (by simpa only [same] using h)
    exact alike_of_int rfl hint
  | text t =>
    cases e <;> simp only [same, Bool.false_eq_true] at h
    rw [eq_of_beq h]
    exact .refl _
  | list items => cases e <;> simp only [same, isKey, Bool.false_eq_true] at h he
  | record fields => cases e <;> simp only [same, isKey, Bool.false_eq_true] at h he

end Datum

namespace Pattern

variable {d e : Datum} (h : d.Alike e)
include h

theorem reaches_alike : reaches d = reaches e := by
  funext cost
  simp only [reaches, h.limit]

theorem counted_alike : counted d = counted e := by
  funext cost
  simp only [counted, reaches_alike h]

theorem sumUntil_alike {α : Type} (cost : α → Except Fault Int) (as : List α) (total : Int) :
    sumUntil d cost as total = sumUntil e cost as total := by
  induction as generalizing total with
  | nil => rfl
  | cons a as ih => simp only [sumUntil, reaches_alike h, ih]

theorem costWith_alike (below : Nat → Except Fault Int) (p : Pattern) :
    p.costWith below d = p.costWith below e := by
  have each {ps : List Pattern} (hps : ∀ q ∈ ps, q.costWith below d = q.costWith below e)
      (total : Int) : costEach below d ps total = costEach below e ps total := by
    induction ps generalizing total with
    | nil => rfl
    | cons q ps ih =>
      have hrest := ih fun r hr => hps r (by simp [hr])
      simp only [costEach, hps q (by simp), reaches_alike h, hrest]
  induction p using induction_children with
  | node p ih =>
    cases p with
    | sequence i ps => exact each ih 0
    | choice i ps => exact each ih 0
    | star i q => simp only [costWith, ih q (by simp [children]), counted_alike h]
    | option i q => simp only [costWith, ih q (by simp [children]), counted_alike h]
    | peek i q => simp only [costWith, ih q (by simp [children]), counted_alike h]
    | not i q => simp only [costWith, ih q (by simp [children]), counted_alike h]
    | search i q => simp only [costWith, ih q (by simp [children]), counted_alike h]
    | grammar i start others => simp only [costWith, sumUntil_alike h]
    | call i r => simp only [costWith, beyond, h.next]
    | capture i q => simp only [costWith, beyond, h.next]
    | capturedSearch i q => simp only [costWith, beyond, h.next]
    | _ => rfl

end Pattern

theorem Store.cost_alike (store : Store) {d e : Datum} (h : d.Alike e) (p : Pattern) :
    store.cost d p = store.cost e p := by
  have hrule (hops : Nat) : store.costRule d hops = store.costRule e hops := by
    induction hops with
    | zero => rfl
    | succ hops ih =>
      funext r
      simp only [costRule, ih, Pattern.costWith_alike h, Pattern.counted_alike h]
  rw [cost, cost, hrule, Pattern.costWith_alike h]

namespace Grammar

/-- The sources differ at most in the file, and in how their limits are given. The second may have
room for more captures. -/
structure Source.Within (src src' : Source) : Prop where
  text : src.text = src'.text
  inline : src.inline.Alike src'.inline
  capacity : ∀ most, src.capacity.limit ">=" = .ok most →
    ∃ most', src'.capacity.limit ">=" = .ok most' ∧ most ≤ most'

/-- A result, and what may stand in its place: the same with other notices, and anything in place of
a failure. -/
inductive Echoed {α : Type} :
    EStateM.Result ReadError State α → EStateM.Result ReadError State α → Prop where
  | ok (a : α) (s : State) (log : List Notice) : Echoed (.ok a s) (.ok a { s with log := log })
  | error (e : ReadError) (s : State) (r : EStateM.Result ReadError State α) : Echoed (.error e s) r

/-- Where the first reader does not fail, the second goes as the first, whatever notices there
were. -/
def Echoes {α : Type} (x y : Reader α) : Prop :=
  ∀ s log, Echoed (x s) (y { s with log := log })

variable {α β : Type} {x y : Reader α}

theorem echoes_bind {k l : α → Reader β} (hx : Echoes x y) (hk : ∀ a, Echoes (k a) (l a)) :
    Echoes (x >>= k) (y >>= l) := by
  intro s log
  have hstep := hx s log
  simp only [bind, EStateM.bind]
  generalize x s = r at hstep ⊢
  generalize y { s with log := log } = r' at hstep ⊢
  cases hstep with
  | ok a s' log' => exact hk a s' log'
  | error e s' r' => exact .error e s' _

theorem echoes_pure (a : α) : Echoes (pure a) (pure a) :=
  fun s log => .ok a s log

theorem echoes_throw (e : ReadError) : Echoes (throw e : Reader α) y :=
  fun s _ => .error e s _

theorem echoes_get {k l : State → Reader β} (hk : ∀ s log, Echoes (k s) (l { s with log := log })) :
    Echoes (get >>= k) (get >>= l) :=
  fun s log => hk s log s log

theorem echoes_set (s : State) (log : List Notice) : Echoes (set s) (set { s with log := log }) :=
  fun _ _ => .ok (⟨⟩ : PUnit) s log

theorem echoes_modify {f g : State → State}
    (h : ∀ s log, ∃ log', g { s with log := log } = { f s with log := log' }) :
    Echoes (modify f) (modify g) := by
  intro s log
  obtain ⟨log', hlog⟩ := h s log
  simp only [modify_apply, hlog]
  exact .ok (⟨⟩ : PUnit) (f s) log'

theorem echoes_ite {c : Prop} [Decidable c] {x' y' : Reader α} (hx : Echoes x y)
    (hx' : Echoes x' y') : Echoes (if c then x else x') (if c then y else y') := by
  split
  · exact hx
  · exact hx'

theorem echoes_sound (r : Except Fault α) : Echoes (sound r) (sound r) := by
  cases r with
  | ok a => exact echoes_pure a
  | error f => exact echoes_throw _

theorem echoes_advance (rest : Text) : Echoes (advance rest) (advance rest) :=
  echoes_modify fun _ log => ⟨log, rfl⟩

theorem echoes_ahead : Echoes ahead ahead :=
  echoes_get fun _ _ => echoes_bind (echoes_advance _) fun _ => echoes_get fun _ _ => echoes_pure _

theorem echoes_freshId : Echoes freshId freshId :=
  echoes_get fun s log =>
    echoes_bind (echoes_set { s with store := { s.store with fresh := s.store.fresh + 1 } } log)
      fun _ => echoes_pure _

theorem echoes_token (p : Pattern) : Echoes (token p) (token p) := by
  refine echoes_get fun s log => ?_
  simp only
  split
  · exact echoes_pure _
  · exact echoes_bind echoes_freshId fun _ => echoes_pure _

theorem echoes_captureId (slot : Nat) : Echoes (captureId slot) (captureId slot) :=
  echoes_bind echoes_freshId fun _ => echoes_bind (echoes_modify fun _ log => ⟨log, rfl⟩)
    fun _ => echoes_pure _

theorem echoes_markUsed (r : Nat) : Echoes (markUsed r) (markUsed r) :=
  echoes_modify fun _ log => ⟨log, rfl⟩

theorem echoes_node (make : Nat → α) :
    Echoes (do return make (← freshId)) (do return make (← freshId)) :=
  echoes_bind echoes_freshId fun _ => echoes_pure _

theorem echoes_newToken (make : Nat → Pattern) :
    Echoes (do token (make (← freshId))) (do token (make (← freshId))) :=
  echoes_bind echoes_freshId fun _ => echoes_token _

theorem echoes_suffixes (room : Nat) (p : Pattern) :
    Echoes (suffixes room p) (suffixes room p) := by
  induction room generalizing p with
  | zero => exact echoes_pure p
  | succ room ih =>
    refine echoes_bind echoes_ahead fun t => ?_
    match t with
    | [] => exact echoes_pure p
    | c :: t =>
      refine echoes_ite ?_ (echoes_ite ?_ (echoes_ite ?_ (echoes_pure p)))
      · exact echoes_bind (echoes_advance _) fun _ => echoes_bind echoes_freshId fun _ => ih _
      · exact echoes_bind (echoes_advance _) fun _ => echoes_bind echoes_freshId fun _ => ih _
      · exact echoes_bind (echoes_advance _) fun _ => echoes_bind echoes_freshId fun _ =>
          echoes_bind echoes_freshId fun _ => ih _

theorem echoes_named (name : Text) : Echoes (named? name) (named? name) := by
  unfold named?
  refine echoes_ite (echoes_pure _) ?_
  cases Pattern.namedSet? name with
  | some p => exact echoes_pure _
  | none =>
    refine echoes_ite (echoes_pure _) (echoes_ite (echoes_pure _) (echoes_ite (echoes_pure _)
      (echoes_ite (echoes_pure _) (echoes_ite (echoes_pure _) (echoes_ite ?_ (echoes_pure _))))))
    exact echoes_bind echoes_freshId fun _ => echoes_bind echoes_freshId fun _ => echoes_node _

section

variable {src src' : Source}

theorem echoes_failAt (rest : Text) (m : Mistake) : Echoes (failAt src rest m : Reader α) y :=
  echoes_throw _

theorem echoes_fail (m : Mistake) : Echoes (fail src m : Reader α) y :=
  fun s _ => .error _ s _

theorem echoes_read (t : Except Token.Trouble (α × Text)) : Echoes (read src t) (read src' t) := by
  unfold read
  split
  · exact echoes_bind (echoes_advance _) fun _ => echoes_pure _
  · exact echoes_failAt _ _

theorem echoes_backReference (how : Comparison) (start : Text) :
    Echoes (backReference src how start) (backReference src' how start) := by
  refine echoes_ite (echoes_failAt _ _) (echoes_bind (echoes_sound _) fun number => ?_)
  refine echoes_bind (echoes_advance _) fun _ => echoes_get fun s log => ?_
  exact echoes_ite (echoes_node _) (echoes_failAt _ _)

theorem echoes_literal (how : Comparison) (verbatim : Bool) (t : Text) :
    Echoes (literal src how verbatim t) (literal src' how verbatim t) :=
  echoes_bind (echoes_read _) fun _ => echoes_newToken _

theorem echoes_characterClass (start t : Text) :
    Echoes (characterClass src start t) (characterClass src' start t) :=
  echoes_bind (echoes_read _) fun _ => echoes_newToken _

theorem echoes_close (wanted opener : Nat) (start : Text) :
    Echoes (close src wanted opener start) (close src' wanted opener start) := by
  refine echoes_bind echoes_ahead fun t => ?_
  match t with
  | [] => exact echoes_failAt _ _
  | c :: t => exact echoes_ite (echoes_advance _) (echoes_fail _)

theorem echoes_builtin (start t : Text) : Echoes (builtin src start t) (builtin src' start t) := by
  refine echoes_bind (echoes_named _) fun named => ?_
  cases named with
  | some p => exact echoes_bind (echoes_advance _) fun _ => echoes_token p
  | none =>
    refine echoes_ite (echoes_failAt _ _) ?_
    cases Token.escape? t with
    | none => exact echoes_failAt _ _
    | some e => exact echoes_bind (echoes_advance _) fun _ => echoes_newToken _

end

section

variable {src src' : Source} (h : src.Within src')
include h

theorem Source.Within.place (rest : Text) : src.place rest = src'.place rest := by
  rw [Source.place, Source.place, h.text]

theorem inlined_alike (store : Store) (r : Nat) :
    inlined? store src.inline r = inlined? store src'.inline r := by
  simp only [inlined?, h.inline.holds, h.inline.limit, store.cost_alike h.inline]

theorem echoes_openCapture : Echoes (openCapture src) (openCapture src') := by
  refine echoes_get fun s log => ?_
  cases hl : src.capacity.limit ">=" with
  | error f => exact fun t _ => .error _ t _
  | ok most =>
    obtain ⟨most', hl', hle⟩ := h.capacity most hl
    simp only [hl', Except.mapError, sound, pure_bind]
    by_cases hmost : most ≤ s.opened
    · rw [if_pos hmost]
      exact echoes_fail _
    · rw [if_neg hmost, if_neg (by omega)]
      exact echoes_bind (echoes_set { s with opened := s.opened + 1 } log) fun _ => echoes_pure _

theorem echoes_ruleNamed (name start : Text) :
    Echoes (ruleNamed src name start) (ruleNamed src' name start) := by
  refine echoes_get fun s log => ?_
  cases hname : s.names.lookup name with
  | some r => exact echoes_pure r
  | none =>
    simp only [h.place]
    exact echoes_bind (echoes_set (s.naming name (src'.place start)) log) fun _ => echoes_pure _

theorem echoes_reference (name start : Text) :
    Echoes (reference src name start) (reference src' name start) := by
  refine echoes_get fun s log => echoes_ite ?_ (echoes_failAt _ _)
  refine echoes_bind (echoes_ruleNamed h _ _) fun r => echoes_bind (echoes_markUsed r) fun _ => ?_
  refine echoes_get fun s log => ?_
  rw [inlined_alike h]
  refine echoes_bind (echoes_sound _) fun body => ?_
  cases body with
  | some p => exact echoes_bind (echoes_modify fun _ log => ⟨_, rfl⟩) fun _ => echoes_pure p
  | none => exact echoes_node _

end

structure EchoesAll (src src' : Source) (fuel : Nat) : Prop where
  expression : Echoes (expression src fuel) (expression src' fuel)
  alternatives : Echoes (alternatives src fuel) (alternatives src' fuel)
  sequence : Echoes (sequence src fuel) (sequence src' fuel)
  items : Echoes (items src fuel) (items src' fuel)
  prefixed : Echoes (prefixed src fuel) (prefixed src' fuel)
  primary : Echoes (primary src fuel) (primary src' fuel)

section

variable {src src' : Source} (fuel : Nat) (ih : EchoesAll src src' fuel)
include ih

theorem echoes_alternatives :
    Echoes (alternatives src (fuel + 1)) (alternatives src' (fuel + 1)) := by
  refine echoes_bind echoes_ahead fun t => ?_
  split
  · refine echoes_bind (echoes_advance _) fun _ => echoes_bind ih.sequence fun p => ?_
    exact echoes_bind ih.alternatives fun _ => echoes_pure _
  · exact echoes_pure _

theorem echoes_items : Echoes (items src (fuel + 1)) (items src' (fuel + 1)) := by
  refine echoes_bind echoes_ahead fun t => ?_
  match t with
  | [] => exact echoes_pure _
  | c :: t =>
    refine echoes_ite (echoes_pure _) (echoes_get fun s log => echoes_ite (echoes_pure _) ?_)
    exact echoes_bind ih.prefixed fun p => echoes_bind ih.items fun _ => echoes_pure _

variable (h : src.Within src')
include h

theorem echoes_prefixed : Echoes (prefixed src (fuel + 1)) (prefixed src' (fuel + 1)) := by
  have wrapped (t : Text) (wrap : Nat → Pattern → Pattern) :
      Echoes (do advance t; let p ← prefixed src fuel; return wrap (← freshId) p)
        (do advance t; let p ← prefixed src' fuel; return wrap (← freshId) p) :=
    echoes_bind (echoes_advance _) fun _ => echoes_bind ih.prefixed fun p => echoes_node _
  refine echoes_bind echoes_ahead fun t => ?_
  split
  · exact wrapped _ _
  · exact wrapped _ _
  · exact wrapped _ _
  · refine echoes_bind (echoes_openCapture h) fun slot => echoes_bind (echoes_advance _) fun _ => ?_
    exact echoes_bind ih.prefixed fun p => echoes_bind (echoes_captureId slot)
      fun i => echoes_token _
  · exact echoes_bind ih.primary fun p => echoes_get fun s log => echoes_suffixes _ p

theorem echoes_primary : Echoes (primary src (fuel + 1)) (primary src' (fuel + 1)) := by
  have simple (t : Text) (p : Pattern) : Echoes (do advance t; token p) (do advance t; token p) :=
    echoes_bind (echoes_advance _) fun _ => echoes_token p
  have referring (how : Comparison) (t : Text) :
      Echoes (do token (← backReference src how t)) (do token (← backReference src' how t)) :=
    echoes_bind (echoes_backReference how t) fun p => echoes_token p
  refine echoes_bind echoes_ahead fun t => ?_
  match t with
  | [] => exact echoes_fail _
  | c :: t =>
    refine echoes_ite (echoes_literal _ _ _) ?_
    refine echoes_ite (echoes_literal _ _ _) ?_
    refine echoes_ite (echoes_literal _ _ _) ?_
    refine echoes_ite (echoes_literal _ _ _) ?_
    refine echoes_ite (referring _ _) ?_
    refine echoes_ite (referring _ _) ?_
    refine echoes_ite (echoes_ite (referring _ _) ?_) ?_
    · exact echoes_bind (echoes_advance _) fun _ => echoes_newToken _
    refine echoes_ite ?_ ?_
    · refine echoes_bind (echoes_advance _) fun _ => echoes_bind ih.expression fun p => ?_
      exact echoes_bind (echoes_close _ _ _) fun _ => echoes_pure p
    refine echoes_ite ?_ ?_
    · refine echoes_bind (echoes_openCapture h) fun slot =>
        echoes_bind (echoes_advance _) fun _ => ?_
      refine echoes_bind ih.expression fun p => echoes_bind (echoes_close _ _ _) fun _ => ?_
      exact echoes_bind (echoes_captureId slot) fun i => echoes_pure _
    refine echoes_ite (echoes_characterClass _ _) ?_
    refine echoes_ite (simple _ _) ?_
    refine echoes_ite (simple _ _) ?_
    refine echoes_ite (simple _ _) ?_
    refine echoes_ite (echoes_ite ?_ (echoes_builtin _ _)) ?_
    · refine echoes_bind (echoes_advance _) fun _ => echoes_bind ih.prefixed fun p => ?_
      exact echoes_bind (echoes_modify fun _ log => ⟨log, rfl⟩) fun _ => echoes_pure _
    split
    · exact echoes_bind (echoes_advance _) fun _ => echoes_reference h _ _
    · exact echoes_ite (echoes_fail _) (echoes_fail _)

end

section

variable {src src' : Source} (h : src.Within src')
include h

theorem echoesAll (fuel : Nat) : EchoesAll src src' fuel := by
  induction fuel with
  | zero =>
    exact ⟨echoes_throw _, echoes_throw _, echoes_throw _, echoes_throw _, echoes_throw _,
      echoes_throw _⟩
  | succ fuel ih =>
    exact {
      expression :=
        echoes_bind ih.sequence fun _ => echoes_bind ih.alternatives fun _ => echoes_node _
      alternatives := echoes_alternatives fuel ih
      sequence := echoes_bind ih.items fun _ => echoes_node _
      items := echoes_items fuel ih
      prefixed := echoes_prefixed fuel ih h
      primary := echoes_primary fuel ih h }

theorem echoes_rules (room : Nat) : Echoes (rules src room) (rules src' room) := by
  induction room with
  | zero => exact echoes_pure _
  | succ room ih =>
    refine echoes_bind echoes_ahead fun t => ?_
    match t with
    | [] => exact echoes_pure _
    | c :: t =>
      simp only
      split
      · exact echoes_fail _
      · refine echoes_bind (echoes_ruleNamed h _ _) fun r => echoes_get fun s log =>
          echoes_ite (echoes_failAt _ _) ?_
        rw [h.place]
        refine echoes_bind (echoes_modify fun _ log => ⟨log, rfl⟩) fun _ =>
          echoes_bind (echoes_advance _) fun _ => ?_
        refine echoes_bind (echoesAll h _).expression fun p => ?_
        refine echoes_bind (echoes_modify fun _ log => ⟨log, rfl⟩) fun _ =>
          echoes_bind echoes_freshId fun i => ?_
        exact echoes_bind ih fun _ => echoes_pure _

end

variable {src src' : Source}

theorem checkDeclared_alike (src src' : Source) {store : Store} {names : List (Text × Nat)}
    (h : checkDeclared src store names = .ok ()) : checkDeclared src' store names = .ok () := by
  induction names with
  | nil => rfl
  | cons n names ih =>
    simp only [checkDeclared] at h ⊢
    split at h
    · split at h
      · next hdeclared => simpa only [hdeclared, if_true] using ih h
      · cases h
    · exact ih h

theorem echoes_grammar (h : src.Within src') : Echoes (grammar src) (grammar src') := by
  rw [grammar, grammar, ← h.text]
  refine echoes_bind (echoes_rules h _) fun defs => echoes_get fun s log => ?_
  cases hchecked : checkDeclared src s.store s.names with
  | error e => exact echoes_throw _
  | ok =>
    simp only [checkDeclared_alike src src' hchecked]
    cases defs with
    | nil => exact echoes_pure _
    | cons start others =>
      exact echoes_bind (echoes_modify fun _ log => ⟨_, rfl⟩) fun _ => echoes_node _

theorem echoes_main (h : src.Within src') : Echoes (main src) (main src') := by
  refine echoes_bind echoes_ahead fun t => echoes_ite ?_ (echoesAll h _).expression
  exact echoes_bind (echoes_modify fun _ log => ⟨log, rfl⟩) fun _ => echoes_grammar h

theorem echoes_finish (p : Pattern) : Echoes (finish src p) (finish src' p) := by
  refine echoes_bind echoes_ahead fun t => ?_
  match t with
  | [] => exact echoes_bind (echoes_modify fun _ log => ⟨log, rfl⟩) fun _ => echoes_pure p
  | c :: t => exact echoes_ite (echoes_fail _) (echoes_fail _)

theorem echoes_whole (h : src.Within src') : Echoes (whole src) (whole src') := by
  rw [whole_eq_main, whole_eq_main]
  exact echoes_bind (echoes_main h) echoes_finish

/-- What can be read is read as the same pattern where there is as much room for captures. -/
theorem parse_within (h : src.Within src') {store s : Store} {p : Pattern} {log : List Notice}
    (hparse : parse src store = (.ok p, s, log)) : ∃ log', parse src' store = (.ok p, s, log') := by
  have hwhole := echoes_whole h { rest := src.text, store := store } []
  simp only [parse, EStateM.run] at hparse ⊢
  simp only [h.text] at hparse hwhole
  generalize whole src { rest := src'.text, store := store } = r at hparse hwhole
  generalize whole src' { rest := src'.text, store := store } = r' at hwhole ⊢
  cases hwhole with
  | ok q t log' =>
    cases hparse
    exact ⟨_, rfl⟩
  | error e t r => cases hparse

end Grammar

namespace CacheKey

variable {k l : CacheKey}

theorem within_of_same (hl : l.check = .ok ()) (h : k.same l = true) :
    k.source.Within l.source := by
  have key {d : Datum} {m : Datum} (hd : d.key = .ok m) : d.isKey = true := by
    unfold Datum.key at hd
    split at hd
    · assumption
    · cases hd
  simp only [check] at hl
  obtain ⟨_, -, hl⟩ := ok_of_bindExcept hl
  obtain ⟨_, hinline, hl⟩ := ok_of_bindExcept hl
  obtain ⟨_, hcapacity, hl⟩ := ok_of_bindExcept hl
  simp only [same, Bool.and_eq_true, beq_iff_eq] at h
  obtain ⟨⟨⟨htext, -⟩, hi⟩, hc⟩ := h
  refine ⟨htext, Datum.alike_of_same (key hinline) hi, fun most hmost => ⟨most, ?_, Int.le_refl _⟩⟩
  exact ((Datum.alike_of_same (key hcapacity) hc).limit ">=").symm.trans hmost

end CacheKey

end PegMatch

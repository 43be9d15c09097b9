import PegMatch.Pattern.Equality
import PegMatch.Proofs.Documents
import PegMatch.Proofs.WholeMatch

set_option autoImplicit false

namespace PegMatch

namespace Pattern

variable {id id' i : Nat}

theorem alt_seq_text (how : Comparison) (t : Text) :
    alt id' (seq id [text i how t]) [] = text i how t := by
  cases how
  all_goals rcases t with _ | ⟨a, _ | ⟨b, t⟩⟩ <;> rfl

theorem alt_seq_set (members : RuneSet) (sense : Sense) :
    alt id' (seq id [.set i members sense]) [] = .set i members sense :=
  rfl

end Pattern

namespace Grammar

open Token

variable {src : Source} {s s₁ : State} {p : Pattern} {c : Nat} {t : Text}

theorem ahead_end (h : s.rest = []) : ahead s = .ok [] s := by
  obtain ⟨⟩ := s
  cases h
  rfl

theorem ahead_solid (h : s.rest = c :: t) (hc : Solid c) : ahead s = .ok (c :: t) s := by
  rw [Setting.ahead_eq, h, skipBlanks_solid hc]
  obtain ⟨⟩ := s
  cases h
  rfl

theorem suffixes_end (room : Nat) (p : Pattern) (h : s.rest = []) :
    suffixes room p s = .ok p s := by
  cases room with
  | zero => rfl
  | succ room =>
    rw [suffixes, bind_of_ok (ahead_end h)]
    rfl

theorem items_end (k : Nat) (h : s.rest = []) : items src (k + 1) s = .ok [] s := by
  rw [items, bind_of_ok (ahead_end h)]
  rfl

theorem alternatives_end (k : Nat) (h : s.rest = []) : alternatives src (k + 1) s = .ok [] s := by
  rw [alternatives, bind_of_ok (ahead_end h)]
  rfl

/-- The first code point of a token that is no operator and neither opens, parts nor closes a
group. -/
structure Plain (c : Nat) : Prop where
  solid : Solid c
  ne : c ∉ Text.ofString "&!@\x7b/)\x7d"

theorem Plain.ne_of_mem {d : Nat} (hc : Plain c) (hd : d ∈ Text.ofString "&!@\x7b/)\x7d") : c ≠ d :=
  fun he => hc.ne (he ▸ hd)

theorem prefixed_plain {k : Nat} (h : s.rest = c :: t) (hc : Plain c)
    (hprimary : primary src k s = .ok p s₁) (hend : s₁.rest = []) :
    prefixed src (k + 1) s = .ok p s₁ := by
  have hand := hc.ne_of_mem (d := '&') (by decide)
  have hnot := hc.ne_of_mem (d := '!') (by decide)
  have hat := hc.ne_of_mem (d := '@') (by decide)
  have hbrace := hc.ne_of_mem (d := '\x7b') (by decide)
  simp only [Char.reduceToNat] at hand hnot hat hbrace
  rw [prefixed, bind_of_ok (ahead_solid h hc.solid)]
  simp only [List.cons.injEq, hand, hnot, hat, hbrace, false_and, imp_self, implies_true]
  rw [bind_of_ok hprimary]
  exact suffixes_end _ p hend

theorem items_plain {k : Nat} (h : s.rest = c :: t) (hc : Plain c) (hin : s.inGrammar = false)
    (hprimary : primary src k s = .ok p s₁) (hend : s₁.rest = []) :
    items src (k + 2) s = .ok [p] s₁ := by
  have hslash := hc.ne_of_mem (d := '/') (by decide)
  have hgroup := hc.ne_of_mem (d := ')') (by decide)
  have hcapture := hc.ne_of_mem (d := '\x7d') (by decide)
  rw [items, bind_of_ok (ahead_solid h hc.solid)]
  simp only [hslash, hgroup, hcapture, or_self, if_false]
  rw [bind_of_ok (show (get : Reader State) s = .ok s s from rfl), hin]
  simp only [Bool.false_and, Bool.false_eq_true, if_false]
  rw [bind_of_ok (prefixed_plain h hc hprimary hend), bind_of_ok (items_end k hend)]
  rfl

def State.next (s : State) : State :=
  { s with store := { s.store with fresh := s.store.fresh + 1 } }

theorem freshId_eq (s : State) : freshId s = .ok s.store.fresh s.next :=
  rfl

theorem sequence_plain {k : Nat} (h : s.rest = c :: t) (hc : Plain c) (hin : s.inGrammar = false)
    (hprimary : primary src k s = .ok p s₁) (hend : s₁.rest = []) :
    sequence src (k + 3) s = .ok (.seq s₁.store.fresh [p]) s₁.next := by
  rw [sequence, bind_of_ok (items_plain h hc hin hprimary hend), bind_of_ok (freshId_eq s₁)]
  rfl

theorem expression_plain {k : Nat} (h : s.rest = c :: t) (hc : Plain c) (hin : s.inGrammar = false)
    (hprimary : primary src k s = .ok p s₁) (hend : s₁.rest = []) :
    expression src (k + 4) s = .ok (.alt s₁.next.store.fresh (.seq s₁.store.fresh [p]) [])
      s₁.next.next := by
  rw [expression, bind_of_ok (sequence_plain h hc hin hprimary hend),
    bind_of_ok (alternatives_end (k + 2) (s := s₁.next) hend), bind_of_ok (freshId_eq s₁.next)]
  rfl

theorem whole_plain (h : s.rest = c :: t) (hc : Plain c) (hin : s.inGrammar = false)
    (hheader : header? (c :: t) = none) (hprimary : ∀ k, primary src (k + 1) s = .ok p s₁)
    (hend : s₁.rest = []) (halone : ∀ id id', Pattern.alt id' (.seq id [p]) [] = p) :
    ∃ s', whole src s = .ok p s' := by
  obtain ⟨k, hk⟩ : ∃ k, fuel (c :: t) = k + 1 + 4 :=
    ⟨8 * t.length + 19, by simp only [fuel, List.length_cons]; omega⟩
  have hexpression := expression_plain h hc hin (hprimary k) hend
  rw [halone] at hexpression
  rw [whole, bind_of_ok (ahead_solid h hc.solid), hheader, hk]
  simp only [Option.isSome_none, Bool.false_eq_true, if_false]
  rw [bind_of_ok hexpression, bind_of_ok (ahead_end (s := s₁.next.next) hend)]
  exact ⟨_, rfl⟩

theorem literal_sole (src : Source) (how : Comparison) (t : Text) (hskip : s.skip = .empty) :
    literal src how false (Text.asLiteral t) s = .ok (.text s.store.fresh how t)
      { s with rest := [] }.next := by
  have hread := literal_asLiteral t []
  rw [List.append_nil] at hread
  rw [literal, hread,
    bind_of_ok (show read src (.ok (t, [])) s = .ok t { s with rest := [] } from rfl),
    bind_of_ok (freshId_eq _)]
  exact token_of_empty (s := { s with rest := [] }.next) hskip

theorem class_sole (src : Source) (start members : Text) (negated : Bool)
    (hskip : s.skip = .empty) :
    characterClass src start (Text.asClassOf members negated).tail s =
      .ok (.set s.store.fresh (RuneSet.ofText members) (.ofBool negated))
        { s with rest := [] }.next := by
  have hread :=
    classAfter_runs start (Text.runs_le (members.mergeSort fun a b => decide (a ≤ b))) negated []
  rw [List.append_nil, Text.insert_runs] at hread
  rw [characterClass, Text.asClassOf, hread,
    bind_of_ok (show read src (.ok ((RuneSet.ofText members, negated), [])) s =
      .ok (RuneSet.ofText members, negated) { s with rest := [] } from rfl)]
  simp only
  rw [bind_of_ok (freshId_eq _)]
  exact token_of_empty (s := { s with rest := [] }.next) hskip

/-- Whatever it is read with, the text is read as the pattern, but for the identities of nodes. -/
def ReadAs (t : Text) (p : Nat → Pattern) : Prop :=
  ∀ (src : Source) (store : Store), src.text = t → ∃ id store' log,
    parse src store = (.ok (p id), store', log)

theorem plain_of_mem (hc : c ∈ Text.ofString "'iy[") : Plain c := by
  have hmarks : ∀ c ∈ Text.ofString "'iy[", (¬ isSpace c ∧ c ≠ '#'.toNat ∧ c ≠ '<'.toNat) ∧
      c ∉ Text.ofString "&!@\x7b/)\x7d" := by
    decide
  exact ⟨(hmarks c hc).1, (hmarks c hc).2⟩

theorem parse_plain {store : Store} (h : src.text = c :: t) (hc : Plain c)
    (hheader : header? (c :: t) = none)
    (hprimary : ∀ k, primary src (k + 1) { rest := c :: t, store := store } = .ok p s₁)
    (hend : s₁.rest = []) (halone : ∀ id id', Pattern.alt id' (.seq id [p]) [] = p) :
    ∃ store' log, parse src store = (.ok p, store', log) := by
  obtain ⟨s', hwhole⟩ :=
    whole_plain (s := { rest := c :: t, store := store }) rfl hc rfl hheader hprimary hend halone
  refine ⟨s'.store, s'.log.reverse, ?_⟩
  rw [parse, h]
  simp only [EStateM.run, hwhole]

theorem readAs_asLiteral (how : Comparison) (t : Text) :
    ReadAs (Pattern.Comparison.mark how ++ Text.asLiteral t) fun id => .text id how t := by
  intro src store h
  -- the marks `i` and `y` could begin the name of a rule; the quote behind them rules this out
  obtain ⟨c, u, hcons, hc, hheader⟩ : ∃ c u, Pattern.Comparison.mark how ++ Text.asLiteral t =
      c :: u ∧ c ∈ Text.ofString "'iy[" ∧ header? (c :: u) = none := by
    cases how with
    | exact => exact ⟨_, _, rfl, by decide, header?_of_not_letter rfl _⟩
    | ignoreCase => exact ⟨_, _, rfl, by decide, header?_of_mark rfl rfl rfl (by decide) _⟩
    | ignoreStyle => exact ⟨_, _, rfl, by decide, header?_of_mark rfl rfl rfl (by decide) _⟩
  have hprimary (k : Nat) : primary src (k + 1) { rest := c :: u, store := store } =
      .ok (.text store.fresh how t) { rest := [], store := store : State }.next := by
    have hsole := literal_sole src how t (s := { rest := c :: u, store := store }) rfl
    rw [primary, bind_of_ok (ahead_solid rfl (plain_of_mem hc).solid)]
    cases how
    all_goals
      obtain ⟨rfl, rfl⟩ := List.cons.inj hcons
      exact hsole
  exact ⟨_, parse_plain (h.trans hcons) (plain_of_mem hc) hheader hprimary rfl
    fun id id' => Pattern.alt_seq_text how t⟩

theorem readAs_asClassOf (members : Text) (negated : Bool) :
    ReadAs (Text.asClassOf members negated) fun id =>
      .set id (RuneSet.ofText members) (.ofBool negated) := by
  intro src store h
  obtain ⟨u, hu⟩ : ∃ u, u = (Text.asClassOf members negated).tail := ⟨_, rfl⟩
  have hcons : Text.asClassOf members negated = '['.toNat :: u := by
    rw [hu]
    rfl
  have hprimary (k : Nat) : primary src (k + 1) { rest := '['.toNat :: u, store := store } =
      .ok (.set store.fresh (RuneSet.ofText members) (.ofBool negated))
        { rest := [], store := store : State }.next := by
    have hsole := class_sole src ('['.toNat :: u) members negated
      (s := { rest := '['.toNat :: u, store := store }) rfl
    rw [← hu] at hsole
    rw [primary, bind_of_ok (ahead_solid rfl (plain_of_mem (by decide)).solid)]
    exact hsole
  exact ⟨_, parse_plain (h.trans hcons) (plain_of_mem (by decide))
    (header?_of_not_letter rfl _) hprimary rfl fun id id' => Pattern.alt_seq_set _ _⟩

end Grammar

/-- The key of the call can be one, and the size of the cache is a number. -/
structure Request.Proper (x : Request) (c : Config) : Prop where
  key : (x.key c).check = .ok ()
  size : ∃ n, (x.config.getD c).cacheSize.limit ">=" = .ok n

namespace Library

open Grammar

variable {c : Config} {l l' : Library} {x : Request} {p : Nat → Pattern} {t : Text}

/-- The configuration in force is this one, and what is kept in the cache is what its text was read
as. -/
structure Faithful (c : Config) (l : Library) : Prop where
  config : l.config = c
  cache : ∀ e ∈ l.cache, ∃ store store' log, parse e.1.source store = (.ok e.2, store', log)

theorem Faithful.ok {key : CacheKey} {q : Pattern} (h : Faithful c l)
    (hr : Compilation key l (.ok q l')) : Faithful c l' := by
  cases hr with
  | found => exact h
  | kept hparse size log =>
    refine ⟨h.config, fun e he => ?_⟩
    rcases List.mem_append.1 he with he | he
    · split at he
      · cases he
      · exact h.cache e he
    · obtain rfl := List.mem_singleton.1 he
      exact ⟨_, _, _, hparse⟩

theorem Faithful.error {key : CacheKey} {e : Failure} (h : Faithful c l)
    (hr : Compilation key l (.error e l')) : Faithful c l' := by
  cases hr with
  | failed => exact ⟨h.config, h.cache⟩
  | unkept => exact ⟨h.config, h.cache⟩

theorem Faithful.compileAll (h : Faithful c l) (xs : List Request) :
    Faithful c (compileAll xs l).2 := by
  induction xs generalizing l with
  | nil => exact h
  | cons x xs ih =>
    have hr := compilation x l
    unfold Library.compileAll
    cases hx : compile x.text x.file x.inline x.config l with
    | ok q l' =>
      rw [hx] at hr
      exact ih (h.ok hr)
    | error e l' =>
      rw [hx] at hr
      exact ih (h.error hr)

theorem faithful_new (c : Config) (depth : Nat) : Faithful c { config := c, depth } :=
  ⟨rfl, by simp⟩

theorem compile_ok (ht : ReadAs x.text p) (hx : x.Proper l.config) :
    ∃ q l', compile x.text x.file x.inline x.config l = .ok q l' := by
  obtain ⟨n, hn⟩ := hx.size
  simp only [compile_request, hx.key]
  cases hfind : l.cache.find? fun e => e.1.same (x.key l.config) with
  | some e => exact ⟨_, _, rfl⟩
  | none =>
    obtain ⟨id, store', log, hparse⟩ := ht (x.key l.config).source l.store rfl
    simp only [hparse, hn]
    exact ⟨_, _, rfl⟩

/-- A call of the compiler for a text that is always read as one pattern returns this pattern. -/
theorem Faithful.compile (h : Faithful c l) (ht : ReadAs x.text p) (hx : x.Proper c) :
    ∃ id l', compile x.text x.file x.inline x.config l = .ok (p id) l' := by
  obtain ⟨q, l', hq⟩ := compile_ok ht (h.config.symm ▸ hx)
  have hr := compilation x l
  rw [hq] at hr ⊢
  suffices h : ∃ id, q = p id by
    obtain ⟨id, rfl⟩ := h
    exact ⟨id, l', rfl⟩
  cases hr with
  | @found e hmem same =>
    obtain ⟨store, store', log, hparse⟩ := h.cache e hmem
    have htext : e.1.text = x.text := by
      simp only [CacheKey.same, Bool.and_eq_true, beq_iff_eq] at same
      exact same.1.1.1
    obtain ⟨id, store'', log', hparse'⟩ := ht e.1.source store htext
    rw [hparse, Prod.mk.injEq, Except.ok.injEq] at hparse'
    exact ⟨id, hparse'.1⟩
  | kept hparse =>
    obtain ⟨id, store'', log', hparse'⟩ := ht (x.key l.config).source l.store rfl
    rw [hparse, Prod.mk.injEq, Except.ok.injEq] at hparse'
    exact ⟨id, hparse'.1⟩

end Library

namespace Probe

open Matching

variable {q : Probe} {id : Nat} {t : Text}

theorem step_term (scene : Scene) (attempt : Attempt) (id : Nat) (t : Text) (s : Matching.State) :
    step scene attempt (Pattern.term id t) 0 s =
      if scene.subject.startsWith t 0 then .hit t.length s else .miss s := by
  rcases t with _ | ⟨a, _ | ⟨b, t⟩⟩
  · simp [Pattern.term, step, Subject.startsWith, Subject.holds]
  · simp only [Pattern.term, step, Subject.one, Subject.startsWith, Subject.holds,
      Subject.cut, Subject.at?]
    by_cases hsize : 0 < scene.subject.size
    · by_cases ha : scene.subject[0] = a <;> simp [hsize, ha, compared]
    · simp [hsize, compared]
  · simp only [Pattern.term, step, Subject.compare, Subject.exactly]
    split <;> rfl

theorem tryAt_term (h : q.pattern = .term id t) :
    q.tryAt 0 0 =
      .ok (if q.subject.startsWith t 0 then some t.length else none, q.table.reset) := by
  simp only [tryAt, run, h, attempt, step_term]
  cases q.subject.startsWith t 0 <;> rfl

theorem startsWith_zero (s : Subject) (t : Text) : s.startsWith t 0 ↔ t <+: s.toList := by
  have h := Subject.startsWith_iff (s := s) (t := t) (i := 0) (Nat.zero_le _)
  rwa [Subject.sliceFrom_eq, List.drop_zero] at h

theorem Ready.fullMatch_term (hq : q.Ready) (h : q.pattern = .term id t) :
    ∃ r, q.fullMatch 0 = .ok r ∧ (r.isSome ↔ q.subject.toList = t) := by
  have htry := tryAt_term h
  by_cases hstarts : q.subject.startsWith t 0
  · rw [if_pos hstarts] at htry
    have hfront := (startsWith_zero q.subject t).1 hstarts
    obtain ⟨spans, hmake⟩ := makeMatch_ok (serves_reset q.table) hq.count 0 t.length
    have hwhole : (0 : Int) + t.length = q.subject.size ↔ q.subject.toList = t := by
      rw [← Array.length_toList, Int.zero_add, Int.ofNat_inj]
      exact ⟨fun hlength => (hfront.eq_of_length hlength).symm, fun heq => by rw [heq]⟩
    rw [fullMatch_of_hit htry, matchAt_of_hit htry, hmake]
    by_cases heq : q.subject.toList = t
    · exact ⟨_, if_pos (hwhole.2 heq), by simp [heq]⟩
    · exact ⟨_, if_neg (hwhole.not.2 heq), by simp [heq]⟩
  · rw [if_neg hstarts] at htry
    refine ⟨none, fullMatch_of_miss htry (by omega), ?_⟩
    rw [startsWith_zero] at hstarts
    have hne : q.subject.toList ≠ t := fun heq => hstarts (heq ▸ List.prefix_refl _)
    simp [hne]

end Probe

namespace Store

variable {id id' : Nat}

theorem equal_text (store : Store) (how : Comparison) (t : Text) :
    store.equal (.text id how t) (.text id' how t) = .ok true := by
  cases how
  all_goals
    rcases t with _ | ⟨a, _ | ⟨b, t⟩⟩
    all_goals simp [equal, Pattern.text, Pattern.term, Pattern.equalWith, Pattern.same]

theorem equal_set (store : Store) (members : RuneSet) (negated : Bool) :
    store.equal (.set id members (.ofBool negated)) (.set id' members (.ofBool negated)) =
      .ok true := by
  cases negated <;> simp [equal, Pattern.equalWith, Sense.ofBool, Sense.same]

end Store

namespace Library

/-- What is written for a text and compiled, after any other calls of the compiler, is the literal
of the text, and is equal to any other literal of it. It is compared as the mark in front says.
Without a mark it matches the whole of a subject just if this is the text. -/
theorem compile_asLiteral (c : Config) (depth : Nat) (xs : List Request) (x : Request)
    (how : Comparison) (t : Text) (ht : x.text = Pattern.Comparison.mark how ++ Text.asLiteral t)
    (hx : x.Proper c) :
    ∃ id l, compile x.text x.file x.inline x.config (compileAll xs { config := c, depth }).2 =
        .ok (.text id how t) l ∧
      (∀ id', l.store.equal (.text id how t) (.text id' how t) = .ok true) ∧
      (how = .exact → (∀ y ∈ x :: xs, y.capacity c = c.capacity) →
        (∃ table, Captures.make c.capacity = .ok table) →
        ∀ u : Text, ∃ r, fullMatching u.toArray (.term id t) 0 l = .ok r l ∧
          (r.isSome ↔ u = t)) := by
  have hfaithful := (faithful_new c depth).compileAll xs
  obtain ⟨id, l, hcompile⟩ := hfaithful.compile (ht ▸ Grammar.readAs_asLiteral how t) hx
  refine ⟨id, l, hcompile, fun id' => l.store.equal_text how t, ?_⟩
  rintro rfl same ⟨table, hmake⟩ u
  have hr := compilation x (compileAll xs { config := c, depth }).2
  rw [hcompile] at hr
  obtain ⟨hcarries, hconfig, -⟩ := carries_compileAll c depth xs fun y hy => same y (by simp [hy])
  have hcapacity : (x.key (compileAll xs { config := c, depth }).2.config).source.capacity =
      c.capacity := by
    rw [hconfig]
    exact same x (by simp)
  obtain ⟨hcarries, hl, -⟩ := hcarries.compile (hcapacity ▸ Grammar.admits_capacity _) hr
  obtain rfl : l.config = c := hl.trans hconfig
  obtain ⟨n, hprobe, hready⟩ :=
    hcarries.probe (p := .term id t) (by simp [Pattern.text]) hmake u.toArray
  obtain ⟨r, hfull, hwhole⟩ := hready.fullMatch_term rfl
  exact ⟨r, (fullMatching_of_probe hprobe 0).2 ⟨hfull, rfl⟩, hwhole⟩

theorem proper_standard (t : Text) : ({ text := t } : Request).Proper .standard := by
  rw [Config.standard_eq]
  exact ⟨rfl, _, rfl⟩

/-- Quotes, backslashes and a half of a surrogate pair come back as they were, and so does an `x`
behind an escape. -/
theorem specials_come_back :
    let t : Text := ['\'', '\\', '\n', 0xd800, 'x', '4']
    ∃ id l, compile (Text.asLiteral t) none none none { config := .standard } = .ok (.term id t) l ∧
      ∀ u : Text, ∃ r, fullMatching u.toArray (.term id t) 0 l = .ok r l ∧ (r.isSome ↔ u = t) := by
  intro t
  obtain ⟨id, l, hcompile, -, hwhole⟩ :=
    compile_asLiteral .standard _ [] { text := Text.asLiteral t } .exact t rfl (proper_standard _)
  have same : ∀ y ∈ [({ text := Text.asLiteral t } : Request)],
      y.capacity .standard = Config.standard.capacity := by
    intro y hy
    rw [List.mem_singleton.1 hy, Request.capacity, Option.getD_none]
  exact ⟨id, l, hcompile, hwhole rfl same exists_table⟩

/-- What is written for a set of code points and compiled, after any other calls of the compiler, is
the set with these members, negated or not, and is equal to any other such set. -/
theorem compile_asClassOf (c : Config) (depth : Nat) (xs : List Request) (x : Request)
    (members : Text) (negated : Bool) (ht : x.text = Text.asClassOf members negated)
    (hx : x.Proper c) :
    ∃ id s l, compile x.text x.file x.inline x.config (compileAll xs { config := c, depth }).2 =
        .ok (.set id s (.ofBool negated)) l ∧
      (∀ a, s.contains a ↔ a ∈ members) ∧
      ∀ id', l.store.equal (.set id s (.ofBool negated))
        (.set id' (.ofText members) (.ofBool negated)) = .ok true := by
  obtain ⟨id, l, hcompile⟩ :=
    ((faithful_new c depth).compileAll xs).compile
      (ht ▸ Grammar.readAs_asClassOf members negated) hx
  refine ⟨id, _, l, hcompile, fun a => ?_, fun id' => l.store.equal_set _ negated⟩
  rw [RuneSet.contains_ofText, List.contains_iff_mem]

/-- In `[^\-\\-\^a-c]` the range of three marks and the range of letters stand for themselves. -/
theorem marks_come_back :
    let members : Text := [']', '^', '-', '\\', 'a', 'b', 'c']
    ∃ id s l, compile (Text.asClassOf members true) none none none { config := .standard } =
        .ok (.set id s .others) l ∧ ∀ a, s.contains a ↔ a ∈ members := by
  intro members
  obtain ⟨id, s, l, hcompile, hmembers, -⟩ := compile_asClassOf .standard _ []
    { text := Text.asClassOf members true } members true rfl (proper_standard _)
  exact ⟨id, s, l, hcompile, hmembers⟩

end Library

end PegMatch

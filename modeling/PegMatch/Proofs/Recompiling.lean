import PegMatch.Proofs.Keys
import PegMatch.Proofs.Replay
import PegMatch.Proofs.Renumbering
import PegMatch.Proofs.RoundTrip
import PegMatch.Proofs.RuleCopies
import PegMatch.Proofs.Weaving
import PegMatch.Proofs.Writing

set_option autoImplicit false

/-! Patterns with captures that are written and read again. The text keeps the order of the
captures, and so the pattern that is read from it matches alike if the text has no more captures
than the pattern. -/

namespace PegMatch

/-- Nothing but calls of the given rules refers to anything. -/
def Allowed.calling (quiet : Nat → Prop) : Allowed where
  call := quiet
  capture _ := False
  backref _ := False

/-- Rules that capture nothing: their bodies hold neither captures nor back references, and call no
others. Under the limit none stands in place of its calls with an empty body. -/
structure Store.Spares (limit : Int) (store : Store) (quiet : Nat → Prop) : Prop where
  body : ∀ r, quiet r → ∃ p, store.body? r = .ok (some p) ∧ p.Normal (.calling quiet)
  filled : ∀ r, quiet r → store.body? r = .ok (some .empty) → limit ≤ 0

namespace Grammar

open Mark

theorem opens_eq_count (ls : List Lexeme) : opens ls = (sorts ls).count none := by
  induction ls with
  | nil => rfl
  | cons l ls ih =>
    have hl : l.opens = l.sort?.toList.count none := by
      cases l with
      | sign s => cases s <;> rfl
      | atom a => cases a <;> rfl
      | _ => rfl
    rw [sorts_cons, List.count_append, ← ih, ← hl]
    rfl

theorem length_captured (ms : List Mark) :
    (captured ms).length = (ms.map Mark.sort).count none := by
  induction ms with
  | nil => rfl
  | cons m ms ih => cases m <;> simp [ih, Mark.sort]

theorem opens_eq_length {ls : List Lexeme} {ms : List Mark} (h : sorts ls = ms.map Mark.sort) :
    opens ls = (captured ms).length := by
  rw [opens_eq_count, length_captured, h]

/-- Tokens with the marks of a row may stand behind others, if there is room for the captures and
each back reference has its capture before it. -/
theorem fit_of_sorts {N : Naming} {capacity : Int} {declared : List Name}
    (hN : ∀ r, N.known r → N.name r ∈ declared) {ls : List Lexeme} (ha : ∀ l ∈ ls, N.Accepts l)
    {ms : List Mark} (hs : sorts ls = ms.map Mark.sort) {opened : Nat}
    (hroom : opened + (captured ms).length ≤ capacity.toNat)
    (hback : ∀ before k after, ms = before ++ .reference k :: after →
      k < opened + (captured before).length) : Fit capacity declared opened ls := by
  induction ls generalizing ms opened with
  | nil => trivial
  | cons l ls ih =>
    obtain ⟨hl, hrest⟩ := List.forall_mem_cons.1 ha
    rw [sorts_cons] at hs
    have hcapture (hsort : l.sort? = some none) : opened < capacity ∧
        Fit capacity declared (opened + 1) ls := by
      rw [hsort] at hs
      cases ms with
      | nil => cases hs
      | cons m ms =>
        obtain ⟨hm, htail⟩ := List.cons.inj hs
        cases m with
        | reference k => cases hm
        | capture id =>
          simp only [captured_capture, List.length_cons] at hroom
          refine ⟨by omega, ih hrest htail (by omega) fun before k after hms => ?_⟩
          have := hback (.capture id :: before) k after (by rw [hms, List.cons_append])
          simp only [captured_capture, List.length_cons] at this
          omega
    have hplain (hsort : l.sort? = none) : Fit capacity declared opened ls := by
      rw [hsort] at hs
      exact ih hrest hs hroom hback
    cases l with
    | sign s =>
      cases s with
      | captured => exact hcapture rfl
      | openCapture => exact hcapture rfl
      | _ => exact ⟨trivial, hplain rfl⟩
    | header n => exact ⟨trivial, hplain rfl⟩
    | name n =>
      obtain ⟨r, hr, rfl⟩ := hl.name n rfl
      exact ⟨hN r hr, hplain rfl⟩
    | atom a =>
      cases a with
      | backref how number =>
        obtain ⟨hpos, hshort⟩ := hl.number how number rfl
        cases ms with
        | nil => cases hs
        | cons m ms =>
          obtain ⟨hm, htail⟩ := List.cons.inj hs
          cases m with
          | capture id => cases hm
          | reference k =>
            have hk : number - 1 = k := by simpa [Mark.sort] using hm
            have hfirst := hback [] k ms rfl
            simp only [captured_nil, List.length_nil] at hfirst
            refine ⟨⟨hpos, by omega, hshort⟩, ih hrest htail hroom fun before k' after hms => ?_⟩
            exact hback (.reference k :: before) k' after (by rw [hms, List.cons_append])
      | _ => exact ⟨trivial, hplain rfl⟩

theorem spares_below (limit : Int) : Build.Spares (inlinedBelow limit) where
  inlines := inlines_below limit
  pure store r p h hp := by
    unfold inlinedBelow at h
    split at h
    · next o ho =>
      subst h
      exact pure_of_inlined ho hp
    · cases h

end Grammar

namespace Matching

open Grammar Build Mark

/-- A pattern whose text has the tokens of a document. They make the marks of the pattern, but for
some that stand further to the left already. What is built from the document matches alike, if each
capture has the slot of its place among these marks. -/
structure Recompiles (limit : Int) (store : Store) (p : Pattern) (N : Naming) (d : Document)
    (text : Text) (ms : List Mark) : Prop where
  render : store.render p = .ok text
  stream : Stream d.lexemes text
  distinct : d.declared.Nodup
  known : ∀ r, N.known r → N.name r ∈ d.declared
  accepts : ∀ l ∈ d.lexemes, N.Accepts l
  sorts : sorts d.lexemes = ms.map Mark.sort
  thin : Thin [] (store.marks p) ms
  means : (∀ (k id : Nat), (captured ms)[k]? = some id → store.slot? id = some k) →
    ∀ before after : Store,
    let built := d.build (inlinedBelow limit) { store := before.placeless }
    after.placeless = built.2.store.setCount built.1 built.2.opened →
      (∀ n ∈ built.2.names, ∃ m ∈ d.declared, n.1 = m.text) → Interchangeable store p after built.1

namespace Recompiles

variable {limit capacity : Int} {store : Store} {p : Pattern} {N : Naming} {d : Document}
  {text : Text} {ms : List Mark} {src : Source}

theorem opens_eq (h : Recompiles limit store p N d text ms) :
    opens d.lexemes = (captured ms).length :=
  opens_eq_length h.sorts

/-- Where the back references stand behind their captures and there is room for these, the text can
be read. -/
theorem valid (h : Recompiles limit store p N d text ms) (hback : Backed 0 (store.marks p))
    (hroom : opens d.lexemes ≤ capacity.toNat) : d.Valid capacity := by
  have hthin : Backed 0 ms := by
    simpa using h.thin.backed (List.nil_subset []) (by simpa using hback)
  refine ⟨h.distinct, fit_of_sorts h.known h.accepts h.sorts ?_ fun before k after hms => ?_⟩
  · have := h.opens_eq
    omega
  · have hlt := hthin before k after hms
    have hle := (order_sublist before).length_le
    omega

theorem count_eq (h : Recompiles limit store p N d text ms) (hi : src.inline = .int limit)
    (hback : Backed 0 (store.marks p)) {before after : Store} {log : List Notice} {q : Pattern}
    (hq : parse { src with text := text, capacity := .int capacity } before = (.ok q, after, log)) :
    after.count? q = some (opens d.lexemes) := by
  -- With more room for captures the text is read alike, and then it is known how many it opens.
  have hwithin : Source.Within { src with text := text, capacity := .int capacity }
      { text := text, file := src.file, inline := .int limit,
        capacity := .int (max capacity (opens d.lexemes)) } :=
    ⟨rfl, hi ▸ Datum.Alike.refl _, fun most hmost => by
      cases hmost
      exact ⟨_, rfl, Int.le_max_left _ _⟩⟩
  obtain ⟨log', hq⟩ := parse_within hwithin hq
  have hvalid : d.Valid (max capacity (opens d.lexemes)) := h.valid hback (by omega)
  obtain ⟨after', log', hparse, hstore, -, hopened⟩ :=
    parse_stream d hvalid h.stream src.file limit before
  cases hq.symm.trans hparse
  change after.placeless.count? _ = _
  rw [hstore, hopened]
  simp [Store.count?, Store.setCount]

/-- A text with as many captures as the pattern is read as one that matches alike; another never
is. -/
theorem roundTrip_iff (h : Recompiles limit store p N d text ms) (hi : src.inline = .int limit)
    (hc : src.capacity = .int capacity) (hback : Backed 0 (store.marks p))
    (hgiven : ∀ (k id : Nat), (order (store.marks p))[k]? = some id → store.slot? id = some k)
    (hcount : store.count? p = some (order (store.marks p)).length)
    (hroom : (order (store.marks p)).length ≤ capacity.toNat) :
    RoundTrip src store p ↔ store.count? p = some (opens d.lexemes) := by
  have hsource : { src with text := text } =
      { src with text := text, capacity := .int capacity } := by rw [← hc]
  constructor
  · rintro ⟨text', q, after, log, htext, hq, hsame, -⟩
    obtain rfl := Except.ok.inj (h.render.symm.trans htext)
    rw [hsource] at hq
    rw [← hsame]
    exact h.count_eq hi hback hq
  · intro hopens
    have hlength : (captured ms).length = (order (store.marks p)).length := by
      rw [← h.opens_eq]
      exact Option.some.inj (hopens.symm.trans hcount)
    have horder := h.thin.captured_eq hlength
    have hfits : opens d.lexemes ≤ capacity.toNat := by
      rw [h.opens_eq, hlength]
      exact hroom
    obtain ⟨after, log, hparse, hstore, hnames, -⟩ :=
      parse_stream d (h.valid hback hfits) h.stream src.file limit store
    rw [← hi] at hparse
    refine ⟨text, _, after, log, h.render, hsource ▸ hparse, ?_,
      h.means (fun k id hk => hgiven k id (horder ▸ hk)) store after hstore hnames⟩
    rw [hopens]
    exact h.count_eq hi hback hparse

end Recompiles

variable {limit : Int} {store : Store} {p : Pattern} {N : Naming}

theorem slot?_of_placeless {after store : Store} {q : Pattern} {n : Nat}
    (h : after.placeless = store.setCount q n) (id : Nat) : after.slot? id = store.slot? id := by
  change after.placeless.slot? id = _
  rw [h]
  rfl

theorem recompiles_single {K : Set Pattern} (hN : ∀ r, ¬ N.known r) (hK : Family N.capturing K)
    (hun : ∀ i items, .sequence i items ∈ K → Pattern.Untripled N.sparing items) (hp : p ∈ K) :
    ∃ d text ms, Recompiles limit store p N d text ms := by
  have hwritten : Pattern.Transcribed store (store.renderRule store.rules.size) N
      (inlinedBelow limit) p :=
    Pattern.transcribed (spares_below limit) (fun r hr => absurd hr (hN r)) hK hun hp
  obtain ⟨t, ht, x, ms, hx, hthin, -⟩ := hwritten
  refine ⟨.expression x.alone, t, ms, ht, ?_, List.nodup_nil, fun r hr => absurd hr (hN r),
    ?_, ?_, ?_, ?_⟩
  · rw [Document.lexemes, x.lexemes_alone]
    simpa using hx.written.spelled [] [] boundary_nil (.nil .nil)
  · rw [Document.lexemes, x.lexemes_alone]
    exact hx.accepts
  · rw [Document.lexemes, x.lexemes_alone]
    exact hx.sorts
  · rw [marks_of_normal store (hK.normal p hp)]
    exact hthin
  · intro hslots before after built hstore _
    refine interchangeable_iff.2 fun subject origin watch i t _ => ?_
    let scene : Scene := ⟨subject, store, origin, watch⟩
    let scene' : Scene := ⟨subject, after, origin, watch⟩
    have hfacing : Facing N (scene.env scene.body) (scene'.env scene'.body) built.2.names :=
      ⟨⟨⟨rfl, rfl, inside_scene _, inside_scene _⟩, fun r hr => absurd hr (hN r)⟩,
        fun r hr => absurd hr (hN r)⟩
    obtain ⟨-, -, j, k, y, hy, hbuilt⟩ :=
      yields_alone (hx.built hfacing) { store := before.placeless }
        ⟨rfl, fun r hr => absurd hr (hN r)⟩ (List.Subset.refl _)
        (fun id _ => slot?_of_placeless hstore id) fun k id hk =>
        (hslots k id hk).trans (by rw [Nat.zero_add])
    have hsame := ((hy.seq_one k).alt_one j).shape.same
    rw [← hbuilt] at hsame
    exact congrFun (congrFun hsame i) t

theorem marks_grammar {id : Nat} {start : Nat × Nat} {others : List (Nat × Nat)}
    {body : Nat → Pattern}
    (h : ∀ r ∈ (start :: others).map Prod.snd, store.body? r = .ok (some (body r))) :
    store.marks (.grammar id start others) = ((start :: others).map Prod.snd).flatMap fun r =>
      (body r).marks := by
  rw [Store.marks, List.flatMap_map]
  refine List.flatMap_congr fun d hd => ?_
  obtain ⟨rule, hrule, hq⟩ := rule_of_body? (h d.2 (List.mem_map_of_mem hd))
  simp [Store.bodyMarks, Store.rule, hrule, hq]

theorem lexemes_declaration (N : Naming) (item : Nat → Item) (r : Nat) :
    (declaration N item r).lexemes = .header (N.name r) :: (item r).lexemes := by
  rw [declaration, Declaration.lexemes, Item.lexemes_alone]

section

variable {inline : Store → Nat → Option Pattern} {body : Nat → Pattern} {marks : Nat → List Mark}
  {text : Nat → Text} {item : Nat → Item} {start : Nat} {others : List Nat}

theorem accepts_document (h : Copied N inline body marks text item (start :: others)) :
    ∀ l ∈ (document N item start others).lexemes, N.Accepts l := by
  intro l hl
  rw [lexemes_document] at hl
  obtain ⟨r, hr, hl⟩ := List.mem_flatMap.1 hl
  rw [lexemes_declaration] at hl
  rcases List.mem_cons.1 hl with rfl | hl
  · exact ⟨by simp, by simp⟩
  · obtain ⟨hname, hnumber⟩ := (h r hr).accepts l hl
    exact ⟨fun n hn => (hname n hn).imp fun r hr => ⟨hr.1.1, hr.2⟩, hnumber⟩

theorem sorts_document (h : Copied N inline body marks text item (start :: others)) :
    sorts (document N item start others).lexemes =
      ((start :: others).flatMap marks).map Mark.sort := by
  rw [lexemes_document, sorts, List.filterMap_flatMap, List.map_flatMap]
  refine List.flatMap_congr fun r hr => ?_
  rw [lexemes_declaration]
  exact (h r hr).sorts

end

namespace Ruled

variable {id : Nat} {start : Nat × Nat} {others : List (Nat × Nat)} {body : Nat → Pattern}
  {marks : Nat → List Mark} {text : Nat → Text} {item : Nat → Item}

theorem interchangeable (h : Ruled N store ((start :: others).map Prod.snd))
    (hbody : ∀ r ∈ (start :: others).map Prod.snd, store.body? r = .ok (some (body r)))
    (hkeeps : ∀ r, N.quiet r → ∀ scene : Scene, scene.store = store → Meaning.Keeps (scene.body r))
    (hcopied : Copied N (inlinedBelow limit) body marks text item ((start :: others).map Prod.snd))
    (hslots : ∀ (k id : Nat),
      (captured (((start :: others).map Prod.snd).flatMap marks))[k]? = some id →
      store.slot? id = some k) (before after : Store) :
    let d := document N item start.2 (others.map Prod.snd)
    let built := d.build (inlinedBelow limit) { store := before.placeless }
    after.placeless = built.2.store.setCount built.1 built.2.opened →
      (∀ n ∈ built.2.names, ∃ m ∈ d.declared, n.1 = m.text) →
        Interchangeable store (.grammar id start others) after built.1 := by
  intro d built hstore hnames
  have hrules := congrArg Store.rules hstore
  obtain ⟨right, hright⟩ := h.realizes hrules hnames
  obtain ⟨hbench, gid, rest, hbuilt⟩ :=
    build_document N item start.2 (others.map Prod.snd) (inlinedBelow limit)
      { store := before.placeless }
  refine interchangeable_iff.2 fun subject origin watch i t _ => ?_
  let scene : Scene := ⟨subject, store, origin, watch⟩
  let scene' : Scene := ⟨subject, after, origin, watch⟩
  have hrecopies : Recopies scene scene' N (inlinedBelow limit) body marks text item
      ((start :: others).map Prod.snd) right { store := before.placeless } := by
    refine ⟨rfl, rfl, h, hbody, fun r _ hr => hkeeps r hr scene rfl, hcopied, hright,
      fun id _ => ?_, fun k id hk => ?_⟩
    · refine (slot?_of_placeless hstore id).trans ?_
      rw [hbench]
      rfl
    · exact (hslots k id hk).trans (by rw [Nat.zero_add])
  have hstart : start.2 ∈ (start :: others).map Prod.snd := by simp
  have hsame := hrecopies.body_eq hstart
  have hright : Realizes scene'.store _ _ right _ := hright
  obtain ⟨q, -, hq⟩ := hrecopies.given hstart
  have hfirst :
      ((declaration N item start.2).build (inlinedBelow limit) { store := before.placeless }).1.2 =
      right (declaration N item start.2) := hright.first
  have hmeaning : scene'.meaning built.1 = scene'.body (right (declaration N item start.2)) := by
    rw [hbuilt, ← hfirst]
    rw [← hfirst] at hq
    exact call_eq_body hq
  change scene.meaning _ i t = scene'.meaning _ i t
  rw [hmeaning, ← hsame]
  exact congrFun (congrFun (call_eq_body (hbody _ hstart)) i) t

theorem recompiles {K : Nat → Set Pattern} (h : Ruled N store ((start :: others).map Prod.snd))
    (hbody : ∀ r ∈ (start :: others).map Prod.snd, store.body? r = .ok (some (body r)))
    (hkeeps : ∀ r, N.quiet r → ∀ scene : Scene, scene.store = store → Meaning.Keeps (scene.body r))
    (hK : ∀ r ∈ (start :: others).map Prod.snd,
      Family (N.behind (inlinedBelow limit) body
        (preceding ((start :: others).map Prod.snd) r)).capturing (K r) ∧
      (∀ i items, .sequence i items ∈ K r →
        Pattern.Untripled
          (N.behind (inlinedBelow limit) body
            (preceding ((start :: others).map Prod.snd) r)).sparing items) ∧ body r ∈ K r) :
    ∃ d text ms, Recompiles limit store (.grammar id start others) N d text ms := by
  have hall (r : Nat) : ∃ t x ms, r ∈ (start :: others).map Prod.snd →
      store.renderRule store.rules.size r = .ok (ruleText (N.name r) t) ∧
      Transcript (N.behind (inlinedBelow limit) body (preceding ((start :: others).map Prod.snd) r))
        (inlinedBelow limit) (fun e f => Pattern.Alike e f (body r)) ms t x ∧
      Thin [] (body r).marks ms := by
    by_cases hr : r ∈ (start :: others).map Prod.snd
    · obtain ⟨hK, hun, hmem⟩ := hK r hr
      have hwritten (below : Nat → Except Fault Text) : Pattern.Transcribed store below
          (N.behind (inlinedBelow limit) body (preceding _ r)) (inlinedBelow limit) (body r) :=
        Pattern.transcribed (spares_below limit)
          (fun r hr => h.names r ((h.known r).1 hr.1)) hK hun hmem
      obtain ⟨t, ht, x, ms, hx, hthin, -⟩ := h.render hr (hbody r hr) hwritten
      exact ⟨t, x, ms, fun _ => ⟨ht, hx, hthin⟩⟩
    · exact ⟨[], .suffixed (.atom .any) [], [], fun h => absurd h hr⟩
  choose text item marks hall using hall
  have hcopied : Copied N (inlinedBelow limit) body marks text item
      ((start :: others).map Prod.snd) :=
    fun r hr => (hall r hr).2.1
  refine ⟨document N item start.2 (others.map Prod.snd), _,
    ((start :: others).map Prod.snd).flatMap marks, render_grammar fun r hr => (hall r hr).1,
    stream_document fun r hr => (hcopied r hr).written, h.nodup_declared, fun r hr => h.mem_declared
      hr, accepts_document hcopied, sorts_document hcopied, ?_, fun hslots before after =>
      h.interchangeable hbody hkeeps hcopied hslots before after⟩
  rw [marks_grammar hbody]
  exact .flatMap fun r hr => (hall r hr).2.2

end Ruled

variable {src : Source} {capacity : Int} {store' : Store} {log : List Notice} {quiet : Nat → Prop}

theorem family_woven {H : Set Pattern} {n : Nat} (hH : Pool H n) (A : Allowed)
    (quiet : Nat → Prop) :
    Family A { q | q ∈ H ∧ q.Normal A ∧ ∃ lo hi, Pattern.Woven (.sparing quiet) lo hi q } where
  unique p hp q hq := hH.unique p hp.1 q hq.1
  closed p hp q hq := by
    obtain ⟨hmem, hnormal, lo, hi, hwoven⟩ := hp
    exact ⟨hH.closed p hmem q hq, hnormal.child hq, lo, hi, hwoven.child hq⟩
  normal _ hp := hp.2.1

/-- In a sequence that is woven from a text, only what calls quiet rules that may be named stands
three times in a row. -/
theorem untripled_woven {N : Naming} {i : Nat} {items : List Pattern} {lo hi : Nat}
    (hnormal : (Pattern.sequence i items).Normal N.capturing)
    (h : Pattern.Woven (.sparing N.quiet) lo hi (.sequence i items)) :
    Pattern.Untripled N.sparing items := by
  intro p q r hin ht
  have hp := hnormal.child (q := p) (hin.subset (by simp))
  exact (hp.inter (h.untripled p q r hin ht)).mono
    ⟨fun _ h => h, fun _ h => h.2, fun _ _ => trivial⟩

theorem inlinedBelow_ne_empty (hl : limit ≤ 0) (store : Store) (r : Nat) :
    inlinedBelow limit store r ≠ some .empty := by
  intro h
  unfold inlinedBelow at h
  split at h
  · next o ho =>
    subst h
    rcases inlined_spec limit (body_of_inlined ho) (.node trivial fun q hq =>
      absurd hq (by simp [Pattern.children])) with ⟨-, hlimit, -⟩ | ⟨hnone, -⟩
    · omega
    · cases ho.symm.trans hnone
  · cases h

/-- The body of a rule can be written behind the rules before it. An empty one among these may be
called, since under the limit it would not stand there itself. -/
theorem normal_behind {first : Nat} {s : Grammar.State} {q : Pattern} {rs before : List Nat}
    {body : Nat → Pattern} (named : ∀ r, r ∈ rs ↔ (s.allowed first).call r)
    (hbody : ∀ r ∈ rs, s.store.body? r = .ok (some (body r))) (htree : Tree first q s)
    (hq : q.Normal (.short fun r => r ∈ before → s.store.body? r = .ok (some .empty) → limit ≤ 0)) :
    q.Normal ((naming s.store rs quiet).behind (inlinedBelow limit) body before).capturing := by
  refine (htree.inter hq).mono ⟨fun r ⟨hcall, hr⟩ => ?_, fun _ _ => trivial, fun _ h => h.2⟩
  have hmem : r ∈ rs := (named r).2 hcall
  exact ⟨hmem, fun hbefore hempty => inlinedBelow_ne_empty (hr hbefore (hempty ▸ hbody r hmem))⟩

theorem recompiles_parse (hi : src.inline = .int limit) (hf : Pattern.firstFresh ≤ store.fresh)
    (h : parse src store = (.ok p, store', log)) (hquiet : store'.Spares limit quiet)
    (hskips : ∀ q ∈ skips src store, q.Normal (.sparing quiet)) :
    ∃ N d text ms, Recompiles limit store' p N d text ms := by
  obtain ⟨H, hH⟩ := orderly_parse hf h
  have hold (r : Nat) (hr : quiet r) (hempty : store.body? r = .ok (some .empty)) : limit ≤ 0 := by
    obtain ⟨_, s₀, _, _, hstore⟩ := parse_behind hf h
    exact hquiet.filled r hr (hstore ▸ Store.body_onto_old hempty)
  have hwoven := woven_parse hi h hskips hold hquiet.filled
  obtain ⟨s, rfl, hsound, hcompiled, -⟩ := compiled_parse (admits_capacity src) h
  cases hcompiled with
  | single hp =>
    cases hwoven with
    | grammar => exact hp.here.elim
    | @single lo hi _ hspun =>
      have hmem : p ∈ H := by
        rcases hH.root with ⟨id, start, others, rfl, -⟩ | hmem
        · exact hp.here.elim
        · exact hmem
      have hnormal : p.Normal (naming s.store [] quiet).capturing :=
        (hp.inter hspun.normal).mono ⟨fun _ h => h.1.elim, fun _ _ => trivial, fun _ h => h.2⟩
      refine ⟨_, recompiles_single (N := naming s.store [] quiet) (by simp [naming])
        (family_woven hH.pool _ quiet) (fun i items hitems => ?_)
        ⟨hmem, hnormal, lo, hi, hspun.woven⟩⟩
      obtain ⟨-, hnormal, lo, hi, hitems⟩ := hitems
      exact untripled_woven hnormal hitems
  | @grammar id start others nodup declared named =>
    cases hwoven with
    | single hspun => exact hspun.normal.here.elim
    | grammar hwoven =>
      have hall (r : Nat) : ∃ q, r ∈ (start :: others).map Prod.snd →
          s.store.body? r = .ok (some q) ∧ Tree store.rules.size q s := by
        by_cases hr : r ∈ (start :: others).map Prod.snd
        · have hcall := (named r).1 hr
          exact (hsound.body_of_declared hcall (declared r hcall)).imp fun _ h _ => h
        · exact ⟨.empty, fun h => absurd h hr⟩
      choose body hall using hall
      have hruled := ruled_naming hsound hH nodup (fun r hr => (named r).1 hr) quiet
      have hkeeps (r : Nat) (hr : quiet r) (scene : Scene) (hscene : scene.store = s.store) :
          Meaning.Keeps (scene.body r) := keeps_body (hscene ▸ hquiet.body) hr
      refine ⟨_, hruled.recompiles (fun r hr => (hall r hr).1) hkeeps fun r hr =>
        ⟨family_woven hH.pool _ quiet, ?_, ?_⟩⟩
      · rintro i items ⟨-, hnormal, lo, hi, hitems⟩
        exact untripled_woven hnormal hitems
      obtain ⟨hq, htree⟩ := hall r hr
      obtain ⟨rule, hget, hrule⟩ := rule_of_body? hq
      obtain ⟨d, hd, rfl⟩ := List.mem_map.1 hr
      obtain ⟨before, after, hsplit⟩ := List.append_of_mem hd
      obtain ⟨lo, hi, q, hq', hspun⟩ := hwoven before d after hsplit
      obtain rfl : body d.2 = q := by cases hq.symm.trans hq'; rfl
      have hbefore : preceding ((start :: others).map Prod.snd) d.2 = before.map Prod.snd := by
        rw [hsplit, List.map_append, List.map_cons] at nodup ⊢
        exact preceding_append
          (fun hmem => (List.disjoint_of_nodup_append nodup) hmem List.mem_cons_self) _
      rw [hbefore]
      exact ⟨(hH.rules _ rule ((named _).1 hr).1 hget).2 _ hrule,
        normal_behind named (fun r hr => (hall r hr).1) htree hspun.normal, lo, hi, hspun.woven⟩

theorem marks_of_calling {q : Pattern} (h : q.Normal (.calling quiet)) : q.marks = [] := by
  refine List.eq_nil_iff_forall_not_mem.2 fun m hm => ?_
  cases m with
  | capture id =>
    have hid := mem_captured.2 hm
    rw [captured_of_normal (fun _ h => h) h] at hid
    cases hid
  | reference k => exact reference_lt h hm

theorem blank_of_calling {q : Pattern} (h : q.Normal (.calling quiet)) : Blank True q :=
  ⟨by rw [marks_of_calling h, captured_nil], fun _ => marks_of_calling h⟩

/-- What a pattern with captures is written as can be read again if there is room for the captures
that are written, and then it is read as a pattern with that many. It matches alike under the same
configuration exactly if no capture was written twice, and so whenever none stands in the pattern
twice. What is skipped may call rules that capture nothing. -/
theorem written_captures_round_trip (hi : src.inline = .int limit)
    (hc : src.capacity = .int capacity) (hf : Pattern.firstFresh ≤ store.fresh)
    (h : parse src store = (.ok p, store', log)) (hquiet : store'.Spares limit quiet)
    (hskips : ∀ q ∈ skips src store, q.Normal (.calling quiet)) :
    ∃ text n, store'.render p = .ok text ∧
      (∀ most : Int,
        (∃ q after log', parse { src with text := text, capacity := .int most } store' =
          (.ok q, after, log')) ↔ n ≤ most.toNat) ∧
      (∀ (most : Int) q after log',
        parse { src with text := text, capacity := .int most } store' = (.ok q, after, log') →
          after.count? q = some n) ∧
      (RoundTrip src store' p ↔ store'.count? p = some n) ∧
      ((captured (store'.marks p)).Nodup → RoundTrip src store' p) := by
  obtain ⟨N, d, text, ms, hre⟩ := recompiles_parse hi hf h hquiet fun q hq =>
    (hskips q hq).mono ⟨fun _ h => h, fun _ h => h, fun _ h => h.elim⟩
  obtain ⟨t, hnumbers, hslots, hcount⟩ := numbers_parse h fun q hq => blank_of_calling (hskips q hq)
  obtain ⟨s, rfl, hsound, -, hopened⟩ := compiled_parse (admits_capacity src) h
  have hlength : (order (s.store.marks p)).length = t.opened := by
    simpa [start] using hnumbers.opened.symm
  have hback : Backed 0 (s.store.marks p) := hnumbers.backed trivial
  have hgiven (k id : Nat) (hk : (order (s.store.marks p))[k]? = some id) :
      s.store.slot? id = some k := by
    rw [hslots, hnumbers.given k id hk]
    simp [start]
  rw [← hlength] at hcount
  have hroom : (order (s.store.marks p)).length ≤ capacity.toNat := by
    rw [Option.some.inj (hcount.symm.trans hopened)]
    simpa [hc, Datum.int?] using hsound.opened
  have hiff := hre.roundTrip_iff hi hc hback hgiven hcount hroom
  have hcounted (most : Int) {q : Pattern} {after : Store} {log' : List Notice}
      (hq : parse { src with text := text, capacity := .int most } s.store = (.ok q, after, log')) :
      after.count? q = some (opens d.lexemes) :=
    hre.count_eq hi hback hq
  refine ⟨text, opens d.lexemes, hre.render, fun most => ⟨?_, fun hmost => ?_⟩,
    fun most q after log' hq =>
    hcounted most hq, hiff, fun hnodup => hiff.2 ?_⟩
  · rintro ⟨q, after, log', hq⟩
    obtain ⟨s', -, hsound', -, hopened'⟩ := compiled_parse (admits_capacity _) hq
    rw [Option.some.inj ((hcounted most hq).symm.trans hopened')]
    simpa [Datum.int?] using hsound'.opened
  · obtain ⟨after, log', hparse, -⟩ :=
      parse_stream d (hre.valid hback hmost) hre.stream src.file limit s.store
    exact ⟨_, after, log', by rw [← hparse, ← hi]⟩
  · rw [hcount, hre.opens_eq, hre.thin.captured_eq_of_nodup hnodup]

def callsOnly (r : Nat) : Pattern → Bool
  | .empty => true
  | .call _ r' => r' == r
  | _ => false

theorem normal_of_callsOnly {r : Nat} {p : Pattern} (h : callsOnly r p) :
    p.Normal (.calling (· = r)) := by
  cases p with
  | empty => exact .leaf trivial rfl
  | call i r' =>
    have hr : r' = r := by simpa [callsOnly] using h
    exact .leaf hr rfl
  | _ => cases h

def isRun (store : Store) (r : Nat) : Bool :=
  match store.body? r with
  | .ok (some (.starChar ..)) => true
  | _ => false

theorem spares_of_isRun {r : Nat} (h : isRun store r) : store.Spares limit (· = r) := by
  unfold isRun at h
  split at h
  · next i c hbody =>
    refine ⟨fun r' hr' => ⟨.starChar i c, hr' ▸ hbody, .leaf trivial rfl⟩, fun r' hr' hempty => ?_⟩
    obtain rfl : r' = r := hr'
    cases hbody.symm.trans hempty
  · cases h

/-- Words are read by a rule and repeated with commas, and the last one stands once more behind
them. Another rule reads what is skipped: `line <- \skip gap ({word} ',')+ $1`, `word <- [a-z]+` and
`gap <- \skip () ' '*`. -/
theorem repeated_words_round_trip :
    let src : Source := {
      text :=
        Text.ofString
          "line <- \\skip gap (\x7bword\x7d ',')+ $1 word <- [a-z]+ gap <- \\skip () ' '*"
      file := "pattern"
      inline := .int 5
      capacity := .int 20 }
    ∃ p store log, parse src {} = (.ok p, store, log) ∧ store.Spares 5 (· = 1) ∧
      (∀ q ∈ skips src {}, q.Normal (.calling (· = 1))) ∧ RoundTrip src store p := by
  intro src
  obtain ⟨hcalls, hgap, hcount⟩ : (∀ q ∈ skips src {}, callsOnly 1 q) ∧ isRun (parse src {}).2.1 1 ∧
      recounted src = some (some 1, some 1) := by decide +kernel
  have hskips (q : Pattern) (hq : q ∈ skips src {}) : q.Normal (.calling (· = 1)) :=
    normal_of_callsOnly (hcalls q hq)
  unfold recounted at hcount
  split at hcount
  · next p store log hp =>
    rw [hp] at hgap
    have hquiet : store.Spares 5 (· = 1) := spares_of_isRun hgap
    refine ⟨p, store, log, hp, hquiet, hskips, ?_⟩
    obtain ⟨text, n, htext, -, hread, hiff, -⟩ :=
      written_captures_round_trip rfl rfl (Nat.le_refl _) hp hquiet hskips
    simp only [htext] at hcount
    split at hcount
    · next q after log' hq =>
      obtain ⟨hwritten, hagain⟩ := Prod.mk.inj (Option.some.inj hcount)
      exact hiff.2 (hwritten.trans (hagain.symm.trans (hread _ q after log' hq)))
    · cases hcount
  · cases hcount

end Matching

end PegMatch

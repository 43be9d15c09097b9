import PegMatch.Proofs.RoundTrip
import PegMatch.Proofs.RuleTexts
import PegMatch.Proofs.Safety

set_option autoImplicit false

namespace PegMatch

namespace Grammar

open Meaning Build

theorem fit_of_admits {N : Naming} {capacity : Int} {declared : List Name}
    (hN : ∀ r, N.known r → N.name r ∈ declared) {ls : List Lexeme} (h : ∀ l ∈ ls, N.Admits l)
    (opened : Nat) : Fit capacity declared opened ls := by
  induction ls generalizing opened with
  | nil => trivial
  | cons l ls ih =>
    obtain ⟨⟨hplain, hname⟩, hrest⟩ := List.forall_mem_cons.1 h
    refine ⟨?_, ih hrest _⟩
    cases l with
    | sign s =>
      cases s with
      | captured => cases hplain
      | openCapture => cases hplain
      | _ => trivial
    | atom a =>
      cases a with
      | backref how number => cases hplain
      | _ => trivial
    | name n =>
      obtain ⟨r, hr, rfl⟩ := hname n rfl
      exact hN r hr
    | header n => trivial

theorem fair_start (e : Env) (rule : Text → Meaning) (names : List (Text × Nat)) (store : Store) :
    Fair e rule names { store := store } :=
  ⟨⟨List.nodup_nil, List.nodup_nil, by simp⟩, rfl, by simp⟩

end Grammar

namespace Matching

open Grammar Build Meaning

/-- The pattern can be written, and whatever reads the text, under any limit of inlining, reads a
pattern that matches alike. -/
def Rereads (store : Store) (p : Pattern) : Prop :=
  ∃ text, store.render p = .ok text ∧ ∀ (file : String) (limit capacity : Int) (store' : Store),
    ∃ q store'' log,
      parse { text := text, file := file, inline := .int limit, capacity := .int capacity } store' =
        (.ok q, store'', log) ∧ Interchangeable store p store'' q

theorem rereads_single {N : Naming} {K : Set Pattern} (hN : ∀ r, ¬ N.known r)
    (hK : Family N.allowed K) (store : Store) {p : Pattern} (hp : p ∈ K) : Rereads store p := by
  obtain ⟨t, ht, x, hx, -⟩ := Pattern.writes store (store.renderRule store.rules.size)
    (fun r hr => absurd hr (hN r)) hK hp
  refine ⟨t, ht, fun file limit capacity store' => ?_⟩
  have hvalid : (Document.expression x.alone).Valid capacity := by
    refine ⟨List.nodup_nil, fit_of_admits (fun r hr => absurd hr (hN r)) ?_ 0⟩
    rw [Document.lexemes, x.lexemes_alone]
    exact hx.admits
  have hstream : Stream (Document.expression x.alone).lexemes t := by
    rw [Document.lexemes, x.lexemes_alone]
    simpa using hx.spelled [] [] boundary_nil (.nil .nil)
  obtain ⟨store'', log, hparse, -, hnames, -⟩ := parse_stream _ hvalid hstream file limit store'
  refine ⟨_, store'', log, hparse, interchangeable_iff.2 fun subject origin watch i t _ => ?_⟩
  let e : Env :=
    Scene.env ⟨subject, store, origin, watch⟩ (Scene.body ⟨subject, store, origin, watch⟩)
  let e' : Env :=
    Scene.env ⟨subject, store'', origin, watch⟩ (Scene.body ⟨subject, store'', origin, watch⟩)
  have hagrees : N.Agrees e fun _ => never :=
    ⟨inside_scene _, fun r hr => absurd hr (hN r), fun r hr => absurd hr (hN r)⟩
  have hinterprets : Interprets e e' (fun _ => never) [] :=
    ⟨rfl, rfl, inside_scene _, by simp, by simp⟩
  have hnone : (x.alone.build (inlinedBelow limit) { store := store'.placeless }).2.names ⊆ [] := by
    intro n hn
    obtain ⟨m, hm, -⟩ := hnames n hn
    cases hm
  have hplain : ∀ l ∈ x.alone.lexemes, l.isPlain := by
    rw [x.lexemes_alone]
    exact fun l hl => (hx.admits l hl).1
  obtain ⟨-, hmeans⟩ :=
    settles_expression hinterprets (inlines_below limit) x.alone hplain _ (fair_start _ _ _ _) hnone
  have hsame := hmeans.same
  rw [x.denote_alone, hx.means e _ hagrees] at hsame
  exact (congrFun (congrFun hsame i) t).symm

/-- Bodies without captures that can be written, with the items that they are written as. -/
structure Worded (N : Naming) (store : Store) (item : Nat → Item) (text : Nat → Text) (r : Nat) :
    Prop extends Inscribed N store item text r where
  rendition : ∃ q, store.body? r = .ok (some q) ∧ q.Normal N.allowed ∧
    Rendition N (fun e => q.denote e) (text r) (item r)

namespace Ruled

variable {N : Naming} {K : Set Pattern} {store : Store} {rs : List Nat} {item : Nat → Item}
  {text : Nat → Text} {start : Nat} {others : List Nat}

theorem exists_worded (h : Ruled N store rs) (hK : Family N.allowed K)
    (hbody : ∀ r ∈ rs, ∃ q, store.body? r = .ok (some q) ∧ q ∈ K) :
    ∃ item text, ∀ r ∈ rs, Worded N store item text r := by
  have hall (r : Nat) : ∃ t x, r ∈ rs → store.renderRule store.rules.size r =
      .ok (ruleText (N.name r) t) ∧ ∃ q, store.body? r = .ok (some q) ∧ q.Normal N.allowed ∧
      Rendition N (fun e => q.denote e) t x := by
    by_cases hr : r ∈ rs
    · obtain ⟨q, hq, hmem⟩ := hbody r hr
      obtain ⟨t, ht, x, hx, -⟩ := h.render hr (P := fun t => Pattern.Renders N q t) hq fun below =>
        Pattern.writes store below (fun r hr => h.names r ((h.known r).1 hr)) hK hmem
      exact ⟨t, x, fun _ => ⟨ht, q, hq, hK.normal q hmem, hx⟩⟩
    · exact ⟨[], .suffixed (.atom .any) [], fun h => absurd h hr⟩
  choose text item hword using hall
  refine ⟨item, text, fun r hr => ?_⟩
  obtain ⟨ht, q, hq, hn, hx⟩ := hword r hr
  exact ⟨⟨ht, hx.written⟩, q, hq, hn, hx⟩

theorem exists_left (h : Ruled N store rs) (item : Nat → Item) :
    ∃ left : Declaration → Nat, ∀ r ∈ rs, left (declaration N item r) = r := by
  have hall (d : Declaration) : ∃ k, ∀ r ∈ rs, declaration N item r = d → k = r := by
    by_cases hd : ∃ r ∈ rs, declaration N item r = d
    · obtain ⟨r, hr, rfl⟩ := hd
      refine ⟨r, fun r' hr' heq => ?_⟩
      exact List.inj_on_of_nodup_map h.distinct hr hr' (congrArg (fun d => d.name.text) heq.symm)
    · exact ⟨0, fun r hr heq => absurd ⟨r, hr, heq⟩ hd⟩
  choose left hleft using hall
  exact ⟨left, fun r hr => hleft _ r hr rfl⟩

theorem speaks (h : Ruled N store rs) (hword : ∀ r ∈ rs, Worded N store item text r)
    {left : Declaration → Nat} (hleft : ∀ r ∈ rs, left (declaration N item r) = r) :
    Speaks store (rs.map (declaration N item)) left := by
  have hmap : (rs.map (declaration N item)).map left = rs := by
    rw [List.map_map]
    exact (List.map_congr_left hleft).trans (List.map_id rs)
  refine ⟨by rw [hmap]; exact h.distinct.of_map, fun d hd l hl => ?_, fun d hd => ?_⟩
  · obtain ⟨r, hr, rfl⟩ := List.mem_map.1 hd
    obtain ⟨q, -, -, hx⟩ := (hword r hr).rendition
    rw [declaration, Item.lexemes_alone] at hl
    exact (hx.admits l hl).1
  · obtain ⟨r, hr, rfl⟩ := List.mem_map.1 hd
    obtain ⟨q, hq, hnormal, hx⟩ := (hword r hr).rendition
    rw [hleft r hr]
    refine ⟨q, hq, hnormal.mono ⟨fun r' hr' => ?_, fun _ h => h, fun _ h => h⟩,
      fun e rule he hcall hkeeps => ?_⟩
    · have hr' := (h.known r').1 hr'
      exact ⟨_, List.mem_map_of_mem hr', hleft r' hr'⟩
    · have hagrees : N.Agrees e rule := by
        refine ⟨he, fun r' hr' => ?_, fun r' hr' => ?_⟩
        · have hr' := (h.known r').1 hr'
          have := hcall _ (List.mem_map_of_mem hr')
          rwa [hleft r' hr'] at this
        · exact hkeeps _ (List.mem_map_of_mem ((h.known r').1 hr'))
      exact (hx.means e rule hagrees).symm.trans (Item.denote_alone e rule _).symm

theorem valid (h : Ruled N store (start :: others))
    (hword : ∀ r ∈ start :: others, Worded N store item text r) (capacity : Int) :
    (document N item start others).Valid capacity := by
  refine ⟨h.nodup_declared, fit_of_admits (N := N) (fun r hr => h.mem_declared hr)
    (fun l hl => ?_) 0⟩
  rw [lexemes_document] at hl
  obtain ⟨r, hr, hl⟩ := List.mem_flatMap.1 hl
  obtain ⟨q, -, -, hx⟩ := (hword r hr).rendition
  rw [declaration, Declaration.lexemes, Item.lexemes_alone] at hl
  rcases List.mem_cons.1 hl with rfl | hl
  · exact ⟨rfl, fun _ hn => by cases hn⟩
  · exact hx.admits l hl

theorem rereads {id : Nat} {start : Nat × Nat} {others : List (Nat × Nat)}
    (h : Ruled N store ((start :: others).map Prod.snd)) (hK : Family N.allowed K)
    (hbody : ∀ r ∈ (start :: others).map Prod.snd, ∃ q, store.body? r = .ok (some q) ∧ q ∈ K) :
    Rereads store (.grammar id start others) := by
  obtain ⟨item, text, hword⟩ := h.exists_worded hK hbody
  obtain ⟨left, hleft⟩ := h.exists_left item
  refine ⟨_, render_grammar fun r hr => (hword r hr).render, fun file limit capacity store' => ?_⟩
  obtain ⟨store'', log, hparse, hstore, hnames, -⟩ :=
    parse_stream _ (h.valid hword capacity) (stream_document fun r hr => (hword r hr).written)
      file limit store'
  have hrules := congrArg Store.rules hstore
  obtain ⟨right, hright⟩ := h.realizes hrules hnames
  have hspeaks := h.speaks hword hleft
  obtain ⟨-, gid, rest, hbuilt⟩ :=
    build_document N item start.2 (others.map Prod.snd) (inlinedBelow limit)
      { store := store'.placeless }
  refine ⟨_, store'', log, hparse, interchangeable_iff.2 fun subject origin watch i t _ => ?_⟩
  have hd : declaration N item start.2 ∈ ((start :: others).map Prod.snd).map
      (declaration N item) := by simp
  -- Both grammars mean their first rule, and rules that stand for the same declaration mean the
  -- same.
  let scene : Scene := ⟨subject, store, origin, watch⟩
  let scene' : Scene := ⟨subject, store'', origin, watch⟩
  have hs : scene'.subject = scene.subject := rfl
  have ho : scene'.origin = scene.origin := rfl
  have hright : Realizes scene'.store _ _ right _ := hright
  have hspeaks : Speaks scene.store _ left := hspeaks
  obtain ⟨p, hp, -⟩ := hspeaks.body _ hd
  obtain ⟨q, hq, -⟩ := hright.means_left hspeaks hs ho hd
  have hbody := hright.body_eq hspeaks hs ho hd
  rw [hleft start.2 (by simp)] at hp hbody
  have hfirst := hright.first
  have hmeaning :
      scene'.meaning ((document N item start.2 (others.map Prod.snd)).build (inlinedBelow limit)
        { store := store'.placeless }).1 = scene'.body (right (declaration N item start.2)) := by
    rw [hbuilt, ← hfirst]
    rw [← hfirst] at hq
    exact call_eq_body hq
  change scene.meaning _ i t = scene'.meaning _ i t
  rw [hmeaning, ← hbody]
  exact congrFun (congrFun (call_eq_body hp) i) t

end Ruled

end Matching

def Pattern.isCapturing : Pattern → Bool
  | .capture .. | .capturedSearch .. | .backref .. => true
  | _ => false

namespace Grammar

theorem Node.normal {store : Store} {root : Pattern}
    (hno : ∀ q, Node store root q → ¬ q.isCapturing) {A : Allowed} {p : Pattern} (hp : p.Normal A)
    (h : Node store root p) :
    p.Normal { A with capture := fun _ => False, backref := fun _ => False } := by
  induction hp with
  | @node p here _ ih =>
    refine .node ?_ fun q hq => ih q hq (h.child hq)
    have hnot := hno p h
    cases p with
    | capture i q => exact absurd rfl hnot
    | capturedSearch i q => exact absurd rfl hnot
    | backref i how slot => exact absurd rfl hnot
    | literal i how t => cases how <;> exact here
    | _ => exact here

end Grammar

namespace Matching

open Grammar

variable {src : Source} {store store' : Store} {p : Pattern} {log : List Notice}

theorem not_isCapturing (h : parse src store = (.ok p, store', log)) (hc : store'.count? p = some 0)
    {q : Pattern} (hq : Node store' p q) : ¬ q.isCapturing := by
  obtain ⟨s, rfl, hs, hp, hcount⟩ := compiled_parse (admits_capacity src) h
  have hopened : s.opened = 0 := Option.some.inj (hcount.symm.trans hc)
  rcases hp.node hs hq with ⟨id, start, others, rfl⟩ | htree
  · simp [Pattern.isCapturing]
  · have here := htree.here
    cases q with
    | capture i q =>
      obtain ⟨-, slot, -, hlt⟩ := here
      omega
    | capturedSearch i q =>
      obtain ⟨-, slot, -, hlt⟩ := here
      omega
    | backref i how slot =>
      have hlt : slot < s.opened := here
      omega
    | _ => simp [Pattern.isCapturing]

/-- What is read from a text without captures is read again from the text that it is written as. -/
theorem rereads_parse (hf : Pattern.firstFresh ≤ store.fresh)
    (h : parse src store = (.ok p, store', log)) (hno : ∀ q, Node store' p q → ¬ q.isCapturing) :
    Rereads store' p := by
  obtain ⟨H, hH⟩ := orderly_parse hf h
  obtain ⟨s, rfl, hsound, hcompiled, -⟩ := compiled_parse (admits_capacity src) h
  cases hcompiled with
  | single hp =>
    refine rereads_single (N := naming s.store []) (by simp [naming])
      (hH.pool.family _) s.store ⟨?_, ?_⟩
    · rcases hH.root with ⟨id, start, others, rfl, -⟩ | hmem
      · exact hp.here.elim
      · exact hmem
    · exact (Node.normal hno hp .root).mono ⟨fun _ h => h.elim, fun _ h => h, fun _ h => h⟩
  | @grammar id start others nodup declared named =>
    refine (ruled_naming hsound hH nodup fun r hr => (named r).1 hr).rereads (hH.pool.family _)
      fun r hr => ?_
    have hcall := (named r).1 hr
    obtain ⟨q, hq, htree⟩ := hsound.body_of_declared hcall (declared r hcall)
    obtain ⟨rule, hget, hbody⟩ := rule_of_body? hq
    obtain ⟨d, hd, rfl⟩ := List.mem_map.1 hr
    refine ⟨q, hq, (hH.rules _ rule hcall.1 hget).2 q hbody, ?_⟩
    refine (Node.normal hno htree (.body rfl hd hq)).mono
      ⟨fun r' hr' => (named r').2 hr', fun _ h => h, fun _ h => h⟩

/-- A pattern without captures and back references that was built by constructors, without rules, or
compiled from a text. -/
inductive Captureless (store : Store) (p : Pattern) : Prop where
  | built {b : Blueprint} {l l' : Library} (fresh : Pattern.firstFresh ≤ l.store.fresh)
      (plain : b.Plain) (build : b.build l = .ok (.pattern p) l') (after : l'.store = store) :
      Captureless store p
  | compiled {src : Source} {before : Store} {log : List Notice}
      (fresh : Pattern.firstFresh ≤ before.fresh) (parse : parse src before = (.ok p, store, log))
      (none : ∀ q, Node store p q → ¬ q.isCapturing) : Captureless store p

/-- Without captures, every pattern is read again from the text that it is written as, whatever is
inlined. -/
theorem rereads_captureless (h : Captureless store p) : Rereads store p := by
  cases h with
  | built fresh plain build after =>
    obtain ⟨H, hpool, hmade⟩ := plain.made fresh build
    refine rereads_single (N := naming store []) (by simp [naming])
      (hpool.family _) store ⟨hmade.1, ?_⟩
    exact hmade.2.mono ⟨fun _ h => h.elim, fun _ h => h.elim, fun _ h => h.elim⟩
  | compiled fresh parse none => exact rereads_parse fresh parse none

/-- The same node one time or more often, and again as often as possible. -/
def shared : Blueprint :=
  .bind "x" (.choice [.value (.ofString "ab"), .node .newline])
    (.append (.wrap .plus (.ref "x")) (.wrap .star (.wrap .option (.ref "x"))))

theorem shared_plain : shared.Plain := by
  have hchoice : ∀ b ∈ [Blueprint.value (.ofString "ab"), .node .newline], b.Plain := by
    simpa using ⟨.text _, .node (by simp [Pattern.singles])⟩
  have hplus : (Blueprint.wrap .plus (.ref "x")).Plain := .wrap (by decide) .ref
  have hstar : (Blueprint.wrap .star (.wrap .option (.ref "x"))).Plain :=
    .wrap (by decide) (.wrap (by decide) .ref)
  exact .bind (.choice hchoice) (.append hplus hstar)

/-- Two rules that call each other. -/
def mutualRules : Source where
  text := Text.ofString "list <- item+\nitem <- '(' list? ')' / [a-z]"
  file := "rules"
  inline := .int 5
  capacity := .int 20

/-- The pattern that a blueprint stands for, if it stands for one. -/
def pattern? (b : Blueprint) (l : Library) : Option Pattern :=
  match b.build l with
  | .ok (.pattern p) _ => some p
  | _ => none

theorem build_of_pattern? {b : Blueprint} {l : Library} {p : Pattern} (h : pattern? b l = some p) :
    ∃ l', b.build l = .ok (.pattern p) l' := by
  unfold pattern? at h
  split at h
  · next hb =>
    cases h
    exact ⟨_, hb⟩
  · cases h

theorem count_mutualRules : (match parse mutualRules {} with
    | (.ok p, store, _) => store.count? p
    | _ => none) = some 0 := by
  decide +kernel

theorem shared_and_mutualRules_reread :
    (∃ p l, shared.build {} = .ok (.pattern p) l ∧ Rereads l.store p) ∧
      ∃ p store log, parse mutualRules {} = (.ok p, store, log) ∧ Rereads store p := by
  obtain ⟨p, hp⟩ :=
    Option.isSome_iff_exists.1 (by decide +kernel : (pattern? shared {}).isSome = true)
  obtain ⟨l, hl⟩ := build_of_pattern? hp
  refine ⟨⟨p, l, hl, rereads_captureless (.built (Nat.le_refl _) shared_plain hl rfl)⟩, ?_⟩
  have hcount := count_mutualRules
  split at hcount
  · next p store log hp =>
    have hnone (q : Pattern) (hq : Node store p q) := not_isCapturing hp hcount hq
    exact ⟨p, store, log, hp, rereads_captureless (.compiled (Nat.le_refl _) hp hnone)⟩
  · cases hcount

end Matching

end PegMatch

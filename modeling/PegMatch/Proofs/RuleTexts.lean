import PegMatch.Proofs.Blueprints
import PegMatch.Proofs.GrammarMeaning
import PegMatch.Proofs.Rendering

set_option autoImplicit false

namespace PegMatch

namespace Grammar

open Build

theorem inlines_below (limit : Int) : Inlines (inlinedBelow limit) := by
  intro b r p h
  unfold inlinedBelow at h
  split at h
  · next o ho =>
    subst h
    obtain ⟨rule, hrule, hp⟩ := rule_of_body? (body_of_inlined ho)
    simp [Bench.bodyOf, hrule, hp]
  · cases h

def ruleText (n : Name) (t : Text) : Text :=
  n.text ++ Text.ofString " <- " ++ t ++ ['\n'.toNat]

theorem stream_rules {name : Nat → Name} {item : Nat → Item} {text : Nat → Text} (rs : List Nat)
    (h : ∀ r ∈ rs, (item r).Written (text r)) :
    Stream (rs.flatMap fun r => Declaration.lexemes ⟨name r, (item r).alone⟩)
      (rs.flatMap fun r => ruleText (name r) (text r)) ∧
      ∀ c ∈ (rs.flatMap fun r => ruleText (name r) (text r)).head?, Solid c := by
  induction rs with
  | nil => exact ⟨.nil .nil, by simp⟩
  | cons r rs ih =>
    obtain ⟨hstream, hsolid⟩ := ih fun r' hr' => h r' (by simp [hr'])
    have hline : Layout ['\n'.toNat] := .blank rfl .nil
    have hbody :=
      ((h r (by simp)).spelled _ _ (hline.boundary (by simp) hsolid) (hstream.blank rfl)).blank
        (c := ' '.toNat) rfl
    have hheader : (Lexeme.header (name r)).Spells
        ((name r).text ++ ([' '.toNat] ++ ['<'.toNat, '-'.toNat])) :=
      ⟨[' '.toNat], by decide, rfl⟩
    have htext : (r :: rs).flatMap (fun r => ruleText (name r) (text r)) =
        [] ++ ((name r).text ++ ([' '.toNat] ++ ['<'.toNat, '-'.toNat]) ++ ' '.toNat ::
          (text r ++ ('\n'.toNat :: rs.flatMap fun r => ruleText (name r) (text r)))) := by
      simp [ruleText, Text.ofString]
    rw [htext]
    refine ⟨?_, ?_⟩
    · rw [List.flatMap_cons, Declaration.lexemes, Item.lexemes_alone]
      exact .cons .nil hheader (.inl rfl) hbody
    · exact hheader.begun.head _

end Grammar

namespace Matching

open Grammar Build

theorem mapM_ok {α β ε : Type} {f : α → Except ε β} {g : α → β} {l : List α}
    (h : ∀ a ∈ l, f a = .ok (g a)) : l.mapM f = .ok (l.map g) := by
  induction l with
  | nil => rfl
  | cons a l ih =>
    rw [List.mapM_cons, h a (by simp), ih fun b hb => h b (by simp [hb])]
    rfl

structure Ruled (N : Naming) (store : Store) (rs : List Nat) : Prop where
  known : ∀ r, N.known r ↔ r ∈ rs
  names : ∀ r ∈ rs, store.ruleName r = .ok (N.name r).text
  distinct : (rs.map fun r => (N.name r).text).Nodup

structure Inscribed (N : Naming) (store : Store) (item : Nat → Item) (text : Nat → Text) (r : Nat) :
    Prop where
  render : store.renderRule store.rules.size r = .ok (ruleText (N.name r) (text r))
  written : (item r).Written (text r)

def declaration (N : Naming) (item : Nat → Item) (r : Nat) : Declaration :=
  ⟨N.name r, (item r).alone⟩

def document (N : Naming) (item : Nat → Item) (start : Nat) (others : List Nat) : Document :=
  .grammar (declaration N item start) (others.map (declaration N item))

section

variable {N : Naming} {store : Store} {item : Nat → Item} {text : Nat → Text} {rs : List Nat}
  {start : Nat} {others : List Nat}

theorem lexemes_document : (document N item start others).lexemes =
    (start :: others).flatMap fun r => (declaration N item r).lexemes := by
  rw [document, Document.lexemes, ← List.map_cons (f := declaration N item), List.flatMap_map]

theorem declared_document :
    (document N item start others).declared = (start :: others).map N.name := by
  rw [document, Document.declared, ← List.map_cons (f := declaration N item), List.map_map]
  rfl

theorem stream_document (h : ∀ r ∈ start :: others, (item r).Written (text r)) :
    Stream (document N item start others).lexemes
      ((start :: others).flatMap fun r => ruleText (N.name r) (text r)) := by
  rw [lexemes_document]
  exact (stream_rules (start :: others) h).1

theorem Ruled.render (h : Ruled N store rs) {r : Nat} (hr : r ∈ rs) {q : Pattern} {P : Text → Prop}
    (hq : store.body? r = .ok (some q))
    (hw : ∀ below, ∃ t, q.renderWith store below = .ok t ∧ P t) :
    ∃ t, store.renderRule store.rules.size r = .ok (ruleText (N.name r) t) ∧ P t := by
  obtain ⟨rule, hrule, -⟩ := rule_of_body? hq
  obtain ⟨hlt, -⟩ := Array.getElem?_eq_some_iff.1 hrule
  obtain ⟨k, hk⟩ : ∃ k, store.rules.size = k + 1 := ⟨store.rules.size - 1, by omega⟩
  obtain ⟨t, ht, hP⟩ := hw (store.renderRule k)
  refine ⟨t, ?_, hP⟩
  simp only [hk, Store.renderRule, h.names r hr, hq, ht, bind, Except.bind]
  rfl

theorem render_grammar {id : Nat} {start : Nat × Nat} {others : List (Nat × Nat)}
    (h : ∀ r ∈ (start :: others).map Prod.snd,
      store.renderRule store.rules.size r = .ok (ruleText (N.name r) (text r))) :
    store.render (.grammar id start others) =
      .ok (((start :: others).map Prod.snd).flatMap fun r => ruleText (N.name r) (text r)) := by
  have hrule (d : Nat × Nat) (hd : d ∈ start :: others) := h d.2 (List.mem_map_of_mem hd)
  have hothers := mapM_ok fun d hd => hrule d (List.mem_cons_of_mem start hd)
  simp only [Store.render, Pattern.renderWith, hrule start (by simp), hothers, bind, Except.bind]
  simp [List.flatMap_def, Function.comp_def]

theorem build_document (N : Naming) (item : Nat → Item) (start : Nat) (others : List Nat)
    (inline : Store → Nat → Option Pattern) (b : Bench) :
    let ds := (start :: others).map (declaration N item)
    let built := (document N item start others).build inline b
    built.2 = (fresh (after inline ds b)).2 ∧
      ∃ id rest, built.1 = .grammar id ((declaration N item start).build inline b).1 rest := by
  intro ds built
  refine ⟨?_, _, _, rfl⟩
  have hcons : after inline ds b = after inline (others.map (declaration N item)) _ :=
    after_cons _ _ b
  rw [hcons]
  rfl

namespace Ruled

theorem nodup_declarations (h : Ruled N store rs) :
    ((rs.map (declaration N item)).map fun d => d.name.text).Nodup := by
  rw [List.map_map]
  exact h.distinct

theorem nodup_declared (h : Ruled N store (start :: others)) :
    (document N item start others).declared.Nodup := by
  rw [declared_document]
  have hdistinct := h.distinct
  rw [← Function.comp_def Name.text N.name, ← List.map_map] at hdistinct
  exact hdistinct.of_map

theorem mem_declared (h : Ruled N store (start :: others)) {r : Nat} (hr : N.known r) :
    N.name r ∈ (document N item start others).declared := by
  rw [declared_document]
  exact List.mem_map_of_mem ((h.known r).1 hr)

/-- Rules that are built from the document are there in the store that is left by reading it. -/
theorem realizes (h : Ruled N store (start :: others)) {limit : Int} {store' store'' : Store}
    (hstore : store''.placeless.rules =
      ((document N item start others).build (inlinedBelow limit)
        { store := store'.placeless }).2.store.rules)
    (hnames : ∀ n ∈
      ((document N item start others).build (inlinedBelow limit)
        { store := store'.placeless }).2.names, ∃ m ∈ (document N item start others).declared,
      n.1 = m.text) :
    ∃ right, Realizes store'' (inlinedBelow limit) ((start :: others).map (declaration N item))
      right { store := store'.placeless } := by
  have hi := inlines_below limit
  obtain ⟨hbuilt, -⟩ :=
    build_document N item start others (inlinedBelow limit) { store := store'.placeless }
  have hneat : Bench.Neat { store := store'.placeless } := ⟨List.nodup_nil, List.nodup_nil, by simp⟩
  have hnamed := named_after hi ((start :: others).map (declaration N item)) hneat
  have hall (d : Declaration) : ∃ r, d ∈ (start :: others).map (declaration N item) →
      (d.name.text, r) ∈ (after (inlinedBelow limit) ((start :: others).map (declaration N item))
        { store := store'.placeless }).names := by
    by_cases hd : d ∈ (start :: others).map (declaration N item)
    · obtain ⟨r, hr⟩ := hnamed d hd
      exact ⟨r, fun _ => hr⟩
    · exact ⟨0, fun h => absurd h hd⟩
  choose right hright using hall
  rw [hbuilt] at hstore hnames
  refine ⟨right, hi, h.nodup_declarations, ⟨rfl, rfl⟩, fun r p hp => ?_, fun n hn => ?_, hright⟩
  · have hp : (store''.placeless.rules[r]?).bind Rule.body = some p := by
      rw [hstore]
      exact hp
    rw [Store.getElem?_placeless] at hp
    obtain ⟨rule, hrule, hbody⟩ := Option.bind_eq_some_iff.1 hp
    obtain ⟨rule', hrule', rfl⟩ := Option.map_eq_some_iff.1 hrule
    have hbody : rule'.body = some p := hbody
    simp [Store.body?, Store.rule, hrule', hbody]
  · obtain ⟨m, hm, hname⟩ := hnames n hn
    rw [declared_document] at hm
    obtain ⟨r, hr, rfl⟩ := List.mem_map.1 hm
    exact ⟨_, List.mem_map_of_mem hr, hname⟩

end Ruled

end

/-- Rules by the names that they have in a store. What is no name is replaced. -/
def naming (store : Store) (rs : List Nat) (quiet : Nat → Prop := fun _ => False) : Naming where
  known r := r ∈ rs
  quiet := quiet
  name r := if h : isName (store.rule r).name then ⟨_, h⟩ else ⟨Text.ofString "a", rfl⟩

theorem text_naming {store : Store} {rs : List Nat} {quiet : Nat → Prop} {r : Nat}
    (h : isName (store.rule r).name) :
    ((naming store rs quiet).name r).text = (store.rule r).name := by
  simp only [naming, dif_pos h]

theorem ruled_naming {first most : Nat} {H : Set Pattern} {s : Grammar.State} {p : Pattern}
    (hs : Sound first most s) (hH : Orderly first H s.store p) {rs : List Nat} (nodup : rs.Nodup)
    (named : ∀ r ∈ rs, (s.allowed first).call r) (quiet : Nat → Prop := fun _ => False) :
    Ruled (naming s.store rs quiet) s.store rs := by
  have hrule (r : Nat) (hr : r ∈ rs) : ∃ rule, s.store.rules[r]? = some rule ∧ first ≤ r ∧
      s.store.rule r = rule := by
    obtain ⟨hfirst, hlt⟩ := named r hr
    have hget : s.store.rules[r]? = some s.store.rules[r] := Array.getElem?_eq_getElem hlt
    exact ⟨_, hget, hfirst, by simp [Store.rule, hget]⟩
  have hname (r : Nat) (hr : r ∈ rs) :
      ((naming s.store rs quiet).name r).text = (s.store.rule r).name := by
    obtain ⟨rule, hget, hfirst, hrule⟩ := hrule r hr
    exact text_naming (by rw [hrule]; exact (hH.rules r rule hfirst hget).1)
  refine ⟨fun _ => .rfl, fun r hr => ?_, List.Nodup.map_on (fun r hr r' hr' heq => ?_) nodup⟩
  · obtain ⟨rule, hget, hfirst, hrule⟩ := hrule r hr
    rw [hname r hr, Store.ruleName, hrule]
    simp [(hs.rules r rule hfirst hget).proper]
  · obtain ⟨rule, hget, hfirst, h₁⟩ := hrule r hr
    obtain ⟨rule', hget', hfirst', h₂⟩ := hrule r' hr'
    rw [hname r hr, hname r' hr', h₁, h₂] at heq
    exact hH.distinct r r' rule rule' hfirst hfirst' hget hget' heq

end Matching

end PegMatch

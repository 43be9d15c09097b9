import PegMatch.Proofs.RuleTexts
import PegMatch.Proofs.Transcription

set_option autoImplicit false

namespace PegMatch

namespace Grammar

open Meaning Mark Matching

def preceding (rs : List Nat) (r : Nat) : List Nat :=
  rs.takeWhile (· != r)

theorem preceding_append {before : List Nat} {r : Nat} (h : r ∉ before) (others : List Nat) :
    preceding (before ++ r :: others) r = before := by
  have hne : ∀ r' ∈ before, (r' != r) = true := by
    simpa using fun r' hr' (heq : r' = r) => h (heq ▸ hr')
  rw [preceding, List.takeWhile_append_of_pos hne]
  simp

/-- The names that may stand in a rule, if the rules before it have the given bodies: not those of
empty bodies that would stand in place of their calls. -/
def Naming.behind (N : Naming) (inline : Store → Nat → Option Pattern) (body : Nat → Pattern)
    (before : List Nat) : Naming where
  known r := N.known r ∧ (r ∈ before → body r = .empty → ∀ store k, inline store k ≠ some .empty)
  name := N.name
  quiet := N.quiet

namespace Build

variable {inline : Store → Nat → Option Pattern}

theorem later_giving (b : Bench) (r : Nat) (p : Pattern) : b.Later (giving b r p) :=
  ⟨Nat.le_refl _, fun _ _ => rfl⟩

theorem later_declaration (d : Declaration) (b : Bench) : b.Later (d.build inline b).2 :=
  ((extending.ruleNamed d.name.text b).trans ((modest.expression inline d.body).2 _)).trans
    ((later_giving _ _ _).trans (extending.fresh _))

theorem later_after (ds : List Declaration) (b : Bench) : b.Later (after inline ds b) := by
  induction ds generalizing b with
  | nil => exact .refl b
  | cons d ds ih =>
    rw [after_cons]
    exact (later_declaration d b).trans (ih _)

/-- Rules as texts: each is written as an item that is built to be like its body. -/
def Copied (N : Naming) (inline : Store → Nat → Option Pattern) (body : Nat → Pattern)
    (marks : Nat → List Mark) (text : Nat → Text) (item : Nat → Item) (rs : List Nat) : Prop :=
  ∀ r ∈ rs, Transcript (N.behind inline body (preceding rs r)) inline
    (fun e f => Pattern.Alike e f (body r)) (marks r) (text r) (item r)

section

variable {N : Naming} {e f : Env} {names : List (Text × Nat)} {body : Nat → Pattern}
  {marks : Nat → List Mark} {text : Nat → Text} {item : Nat → Item} {rs before others : List Nat}
  {b : Bench} {r : Nat}

/-- The bodies on a bench are like those of rules, and mean what the rules should. -/
def Holds (N : Naming) (e f : Env) (body : Nat → Pattern) (before : List Nat) (b : Bench) : Prop :=
  ∀ n ∈ b.names, ∀ q, b.bodyOf n.2 = some q →
    ∃ r ∈ before, n.1 = (N.name r).text ∧ q.denote f = e.call r ∧ Pattern.Alike e f (body r) q

theorem Holds.prepared (h : Holds N e f body before b) (hN : ∀ r, N.known r → r ∈ rs)
    (hdistinct : (rs.map fun r => (N.name r).text).Nodup) (hbefore : before ⊆ rs)
    (hs : b.skip = .empty) : Prepared (N.behind inline body before) inline e f b := by
  refine ⟨hs, fun r ⟨hr, hsolid⟩ k hk q hq => ?_⟩
  obtain ⟨r', hr', hname, hmeans, halike⟩ := h _ hk q hq
  obtain rfl : r = r' := List.inj_on_of_nodup_map hdistinct (hN r hr) (hbefore hr') hname
  exact ⟨hmeans, halike.right, fun hempty store => hsolid hr' (halike.empty.2 hempty) store k⟩

theorem Facing.behind (h : Facing N e f names) (before : List Nat) :
    Facing (N.behind inline body before) e f names :=
  ⟨⟨h.twin, fun r hr => h.keeps r hr.1⟩, fun r hr => h.call r hr.1⟩

theorem alike_declaration {N' : Naming} {p q : Pattern} {ms : List Mark} {t : Text} {k : Nat}
    {b' : Bench} (ht : Transcript N' inline (fun e f => Pattern.Alike e f p) ms t (item r))
    (hfacing : Facing N' e f names) (hb : Prepared N' inline e f b)
    (hd : Declares inline (declaration N item r) b b' k q) (hn : b'.names ⊆ names)
    (hf : Follows f b') (hnum : Numbered e ms b.opened) :
    b'.skip = .empty ∧ b'.opened = b.opened + (captured ms).length ∧ Pattern.Alike e f p q ∧
      ∀ n ∈ b'.names, n ∈ b.names ∨ b.bodyOf n.2 = none := by
  obtain ⟨b₂, hmade, rfl⟩ := hd.made
  obtain ⟨hskip, hopened⟩ := ruleNamed_same (declaration N item r).name.text b
  have grow₁ := (growing.ruleNamed (declaration N item r).name.text).grows b
  obtain ⟨b₁, hb₁⟩ : ∃ b₁, (ruleNamed (declaration N item r).name.text b).2 = b₁ := ⟨_, rfl⟩
  rw [hb₁] at hmade hskip hopened grow₁
  have grow₂ := (growing.expression inline (declaration N item r).body).grows b₁
  have hyields := yields_alone (ht.built hfacing) b₁ (hb.grow grow₁ (hskip.trans hb.skip))
  change (item r).alone.build inline b₁ = _ at hmade
  change b₁.Grows ((item r).alone.build inline b₁).2 at grow₂
  rw [hmade] at hyields grow₂
  obtain ⟨hs₂, ho₂, i, j, y, hy, rfl⟩ :=
    hyields hn (hf.back ((later_giving _ _ _).trans (extending.fresh _))) (hopened ▸ hnum)
  exact ⟨hs₂, ho₂.trans (by rw [hopened]), (hy.seq_one j).alt_one i, fun n hmem =>
    (grow₁.trans grow₂).new n hmem⟩

/-- What is built from declarations is like the bodies that they were written for. For that, each
body must be known to mean what its rule should once it is like it. -/
theorem alike_after (hi : Inlines inline) (hfacing : Facing N e f names)
    (hN : ∀ r, N.known r → r ∈ rs) (hdistinct : (rs.map fun r => (N.name r).text).Nodup)
    (hcopied : Copied N inline body marks text item rs) (hrs : rs = before ++ others) (hb : b.Neat)
    (hs : b.skip = .empty) (hold : Holds N e f body before b)
    (hn : (after inline (others.map (declaration N item)) b).names ⊆ names)
    (hf : Follows f (after inline (others.map (declaration N item)) b))
    (hnum : Numbered e (others.flatMap marks) b.opened)
    (hjust : ∀ r ∈ others, ∀ k q,
      ((N.name r).text, k) ∈ (after inline (others.map (declaration N item)) b).names →
      (after inline (others.map (declaration N item)) b).bodyOf k = some q →
      (body r).denote e = q.denote f → q.denote f = e.call r) :
    ∀ r ∈ others, ∃ k q,
      ((N.name r).text, k) ∈ (after inline (others.map (declaration N item)) b).names ∧
      (after inline (others.map (declaration N item)) b).bodyOf k = some q ∧
      Pattern.Alike e f (body r) q := by
  induction others generalizing before b with
  | nil => simp
  | cons r others ih =>
    obtain ⟨p, hd⟩ := declares hi (declaration N item r) hb
    obtain ⟨k, hk⟩ : ∃ k, ((declaration N item r).build inline b).1.2 = k := ⟨_, rfl⟩
    obtain ⟨b', hb'⟩ : ∃ b', ((declaration N item r).build inline b).2 = b' := ⟨_, rfl⟩
    rw [hk, hb'] at hd
    simp only [List.map_cons, after_cons, hb'] at hn hf hjust ⊢
    have hneat := neat_after hi (others.map (declaration N item)) hd.neat
    have hbefore : before ⊆ rs := hrs ▸ List.subset_append_left _ _
    have hcopied' := hcopied r (by simp [hrs])
    have hnodup : rs.Nodup := hdistinct.of_map
    rw [hrs] at hcopied' hnodup
    rw [preceding_append fun hmem =>
      (List.nodup_append.1 hnodup).2.2 r hmem r (by simp) rfl] at hcopied'
    have hnew : ∀ d ∈ others.map (declaration N item), d.name.text ≠ (N.name r).text := by
      rw [hrs, List.map_append, List.map_cons] at hdistinct
      obtain ⟨hnot, -⟩ := List.nodup_cons.1 (List.nodup_append.1 hdistinct).2.1
      rintro d hmem heq
      obtain ⟨r', hr', rfl⟩ := List.mem_map.1 hmem
      exact hnot (List.mem_map.2 ⟨r', hr', heq⟩)
    obtain ⟨hs', ho', halike, hback⟩ :=
      alike_declaration hcopied' (hfacing.behind before) (hold.prepared hN hdistinct hbefore hs) hd
        (List.Subset.trans hneat.2 hn) (hf.back (later_after _ _)) hnum.left
    have hbody : (after inline (others.map (declaration N item)) b').bodyOf k = some p :=
      bodyOf_after hi _ hd.neat hd.named hnew (by rw [hd.bodies, if_pos rfl])
    have hnamed := hneat.2 hd.named
    -- Later declarations may inline this body, so it must mean its name before they are built.
    have hrule := hjust r (by simp) k p hnamed hbody halike.shape.same
    have hold' : Holds N e f body (before ++ [r]) b' := by
      intro n hmem q hq
      rw [hd.bodies] at hq
      split at hq
      · next heq =>
        cases hq
        obtain ⟨n, k'⟩ := n
        obtain rfl : k = k' := heq
        exact ⟨r, by simp, name_unique hd.neat hmem hd.named, hrule, halike⟩
      · rcases hback n hmem with hmem | hnone
        · obtain ⟨r', hr', hrest⟩ := hold n hmem q hq
          exact ⟨r', by simp [hr'], hrest⟩
        · cases hq.symm.trans hnone
    have hrest := ih (by simp [hrs]) hd.neat hs' hold' hn hf (ho' ▸ hnum.right)
      fun r' hr' => hjust r' (by simp [hr'])
    exact List.forall_mem_cons.2 ⟨⟨k, p, hnamed, hbody, halike⟩, hrest⟩

theorem given_after (hi : Inlines inline) (ds : List Declaration)
    (hnodup : (ds.map fun d => d.name.text).Nodup) (hb : b.Neat) :
    ∀ d ∈ ds, ∃ k q, (d.name.text, k) ∈ (after inline ds b).names ∧
      (after inline ds b).bodyOf k = some q := by
  induction ds generalizing b with
  | nil => simp
  | cons d ds ih =>
    obtain ⟨p, hd⟩ := declares hi d hb
    obtain ⟨hnew, hnodup⟩ := List.nodup_cons.1 hnodup
    have hnew (d' : Declaration) (hd' : d' ∈ ds) : d'.name.text ≠ d.name.text := fun heq =>
      hnew (List.mem_map.2 ⟨d', hd', heq⟩)
    rw [after_cons]
    refine List.forall_mem_cons.2
      ⟨⟨_, p, (neat_after hi ds hd.neat).2 hd.named, ?_⟩, ih hnodup hd.neat⟩
    exact bodyOf_after hi ds hd.neat hd.named hnew (by rw [hd.bodies, if_pos rfl])

end

end Build

end Grammar

namespace Matching

open Grammar Build Meaning

variable {scene scene' : Scene} {inline : Store → Nat → Option Pattern} {N : Naming}
  {body : Nat → Pattern} {marks : Nat → List Mark} {text : Nat → Text} {item : Nat → Item}
  {rs : List Nat} {right : Declaration → Nat} {b : Bench}

/-- Rules of a store, and rules of another that were built from the texts that they are written
as. -/
structure Recopies (scene scene' : Scene) (N : Naming) (inline : Store → Nat → Option Pattern)
    (body : Nat → Pattern) (marks : Nat → List Mark) (text : Nat → Text) (item : Nat → Item)
    (rs : List Nat) (right : Declaration → Nat) (b : Bench) : Prop where
  subject : scene'.subject = scene.subject
  origin : scene'.origin = scene.origin
  ruled : Ruled N scene.store rs
  bodies : ∀ r ∈ rs, scene.store.body? r = .ok (some (body r))
  keeps : ∀ r ∈ rs, N.quiet r → Meaning.Keeps (scene.body r)
  copied : Copied N inline body marks text item rs
  realizes : Realizes scene'.store inline (rs.map (declaration N item)) right b
  follows : Build.Follows (scene'.env scene'.body) (after inline (rs.map (declaration N item)) b)
  numbered : Numbered (scene.env scene.body) (rs.flatMap marks) b.opened

namespace Recopies

variable (h : Recopies scene scene' N inline body marks text item rs right b)
include h

theorem nodup : rs.Nodup :=
  h.ruled.distinct.of_map

theorem right_eq {r k : Nat} (hr : r ∈ rs)
    (hk : ((N.name r).text, k) ∈ (after inline (rs.map (declaration N item)) b).names) :
    k = right (declaration N item r) :=
  rule_unique h.realizes.neat hk (h.realizes.named _ (List.mem_map_of_mem hr))

theorem given {r : Nat} (hr : r ∈ rs) :
    ∃ q,
      (after inline (rs.map (declaration N item)) b).bodyOf (right (declaration N item r)) =
        some q ∧
      scene'.store.body? (right (declaration N item r)) = .ok (some q) := by
  obtain ⟨k, q, hk, hq⟩ :=
    given_after h.realizes.inlines _ h.realizes.distinct h.realizes.neat_start
      _ (List.mem_map_of_mem (f := declaration N item) hr)
  rw [h.right_eq hr hk] at hq
  exact ⟨q, hq, h.realizes.bodies _ q hq⟩

/-- In environments where the rules mean the same, each body is like what was built for it. -/
theorem alike {e f : Env}
    (hfacing : Facing N e f (after inline (rs.map (declaration N item)) b).names)
    (he : e.slot = (scene.env scene.body).slot) (hf : f.slot = (scene'.env scene'.body).slot)
    (hjust : ∀ r ∈ rs, ∀ q, scene'.store.body? (right (declaration N item r)) = .ok (some q) →
      (body r).denote e = q.denote f → q.denote f = e.call r) {r : Nat} (hr : r ∈ rs) :
    ∃ q, scene'.store.body? (right (declaration N item r)) = .ok (some q) ∧
      Pattern.Alike e f (body r) q := by
  have hstart := h.realizes.start
  have hfollows : Build.Follows f (after inline (rs.map (declaration N item)) b) := fun id hid => by
    rw [hf]
    exact h.follows id hid
  have hnumbered : Numbered e (rs.flatMap marks) b.opened := fun k id hk => by
    rw [he]
    exact h.numbered k id hk
  have hjust (r : Nat) (hr : r ∈ rs) (k : Nat) (q : Pattern)
      (hk : ((N.name r).text, k) ∈ (after inline (rs.map (declaration N item)) b).names)
      (hq : (after inline (rs.map (declaration N item)) b).bodyOf k = some q) :
      (body r).denote e = q.denote f → q.denote f = e.call r := by
    rw [h.right_eq hr hk] at hq
    exact hjust r hr q (h.realizes.bodies _ q hq)
  obtain ⟨k, q, hk, hq, halike⟩ :=
    alike_after h.realizes.inlines hfacing (fun r hr => (h.ruled.known r).1 hr) h.ruled.distinct
      h.copied (List.nil_append _).symm h.realizes.neat_start hstart.2 (by simp [Holds, hstart.1])
      (List.Subset.refl _) hfollows hnumbered hjust r hr
  rw [h.right_eq hr hk] at hq
  exact ⟨q, h.realizes.bodies _ q hq, halike⟩

theorem above {r : Nat} (hr : r ∈ rs) :
    Below (scene'.body (right (declaration N item r))) (scene.body r) := by
  have hnodup : (rs.map fun r => right (declaration N item r)).Nodup := by
    have := h.realizes.nodup
    rwa [List.map_map] at this
  have hinside :
      (calling (scene'.env scene'.body) rs
        (fun r => right (declaration N item r)) scene.body).Inside := by
    refine inside_calling (inside_scene scene') fun r _ => ?_
    have := scene.inside_body r
    rw [← h.subject] at this
    exact this
  have hmeans {r : Nat} (hr : r ∈ rs) : (body r).denote (scene.env scene.body) = scene.body r :=
    (Scene.body_eq_meaning (h.bodies r hr)).symm
  have hcall {r : Nat} (hr : r ∈ rs) : (scene.env scene.body).call r = scene.body r :=
    call_eq_body (h.bodies r hr)
  have hfacing : Facing N (scene.env scene.body)
      (calling (scene'.env scene'.body) rs (fun r => right (declaration N item r)) scene.body)
      (after inline (rs.map (declaration N item)) b).names := by
    have htwin : (scene.env scene.body).Twin
        (calling (scene'.env scene'.body) rs (fun r => right (declaration N item r)) scene.body) :=
      ⟨h.subject.symm, h.origin.symm, inside_scene scene, hinside⟩
    refine ⟨⟨htwin, fun r hr hquiet => ?_⟩, fun r hr k hk => ?_⟩ <;> have hr :=
      (h.ruled.known r).1 hr
    · rw [hcall hr]
      exact h.keeps r hr hquiet
    rw [h.right_eq hr hk, hcall hr]
    exact (call_calling _ _ hnodup hr).symm
  have hsolves : ∀ r ∈ rs, ∃ p, scene'.store.body? (right (declaration N item r)) = .ok (some p) ∧
      p.denote (calling (scene'.env scene'.body) rs (fun r => right (declaration N item r))
        fun r => scene.body (id r)) = scene.body (id r) := fun r hr => by
    obtain ⟨q, hq, halike⟩ := h.alike hfacing rfl rfl
      (fun r hr q _ hsame => by rw [← hsame, hcall hr]; exact hmeans hr) hr
    exact ⟨q, hq, halike.shape.same.symm.trans (hmeans hr)⟩
  exact body_below hsolves hr

/-- A rule answers no more than the one that was built from its text, which captures nothing if the
rule does not. -/
theorem below {r : Nat} (hr : r ∈ rs) :
    Below (scene.body r) (scene'.body (right (declaration N item r))) := by
  have hinside : (calling (scene.env scene.body) rs id fun r =>
      scene'.body (right (declaration N item r))).Inside := by
    refine inside_calling (inside_scene scene) fun r _ => ?_
    have := scene'.inside_body (right (declaration N item r))
    rw [h.subject] at this
    exact this
  have hcall {r : Nat} (hr : r ∈ rs) :
      (calling (scene.env scene.body) rs id fun r => scene'.body
        (right (declaration N item r))).call r = scene'.body (right (declaration N item r)) :=
    call_calling _ _ (by simpa using h.nodup) hr
  have hfacing :
      Facing N (calling (scene.env scene.body) rs id fun r =>
        scene'.body (right (declaration N item r))) (scene'.env scene'.body)
        (after inline (rs.map (declaration N item)) b).names := by
    have htwin :
        (calling (scene.env scene.body) rs id fun r =>
          scene'.body (right (declaration N item r))).Twin (scene'.env scene'.body) :=
      ⟨h.subject.symm, h.origin.symm, hinside, inside_scene scene'⟩
    refine ⟨⟨htwin, fun r hr hquiet => ?_⟩, fun r hr k hk => ?_⟩ <;> have hr :=
      (h.ruled.known r).1 hr
    · rw [hcall hr]
      exact fun i t n u hanswer => h.keeps r hr hquiet i t n u (h.above hr i t _ hanswer)
    obtain ⟨q, -, hq⟩ := h.given hr
    rw [h.right_eq hr hk, call_eq_body hq]
    exact hcall hr
  have hsolves : ∀ r ∈ rs, ∃ p, scene.store.body? (id r) = .ok (some p) ∧
      p.denote (calling (scene.env scene.body) rs id fun r =>
        scene'.body (right (declaration N item r))) = scene'.body (right (declaration N item r)) :=
    fun r hr => by
    obtain ⟨q, hq, halike⟩ := h.alike hfacing rfl rfl
      (fun r hr q hq _ => (Scene.body_eq_meaning hq).symm.trans (hcall hr).symm) hr
    exact ⟨_, h.bodies r hr, halike.shape.same.trans (Scene.body_eq_meaning hq).symm⟩
  exact body_below hsolves hr

theorem body_eq {r : Nat} (hr : r ∈ rs) :
    scene.body r = scene'.body (right (declaration N item r)) :=
  -- Each side solves the equations of the other, and both are least solutions.
  Below.antisymm (h.below hr) (h.above hr)

end Recopies

end Matching

end PegMatch

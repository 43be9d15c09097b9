import PegMatch.Proofs.Extent
import PegMatch.Proofs.Nodes

set_option autoImplicit false

/-! What the constructors of patterns mean. A sequence, a choice or an option means what its parts
mean, however it was flattened. A repetition means its operand as often as possible, if the operand
captures nothing. -/

namespace PegMatch

namespace Meaning

variable {m k l : Meaning} {s : Subject}

@[simp] theorem andThen_nothing (m : Meaning) : andThen m nothing = m := by
  funext i t
  simp only [andThen, nothing]
  cases m i t with
  | none => rfl
  | some a => cases a <;> simp

@[simp] theorem nothing_andThen (m : Meaning) : andThen nothing m = m := by
  funext i t
  simp [andThen, nothing]

theorem andThen_assoc (m k l : Meaning) : andThen (andThen m k) l = andThen m (andThen k l) := by
  funext i t
  simp only [andThen]
  cases m i t with
  | none => rfl
  | some a =>
    cases a with
    | miss => rfl
    | fault f => rfl
    | hit n u =>
      simp only
      cases hk : k (i + n) u with
      | none => rfl
      | some b =>
        cases b with
        | miss => rfl
        | fault f => rfl
        | hit n' u' =>
          have he : i + ((n + n' : Nat) : Int) = i + n + n' := by omega
          simp only [Option.map_some, Answer.after_hit, Option.map_map, Function.comp_def,
            Answer.after_after, he]

theorem inOrder_append (ms ks : List Meaning) :
    inOrder (ms ++ ks) = andThen (inOrder ms) (inOrder ks) := by
  induction ms with
  | nil => simp [inOrder]
  | cons m ms ih =>
    simp only [inOrder, List.cons_append, List.foldr_cons] at ih ⊢
    rw [ih, andThen_assoc]

@[simp] theorem orElse_never (m : Meaning) : orElse m never = m := by
  funext i t
  simp only [orElse, never]
  cases m i t with
  | none => rfl
  | some a => cases a <;> rfl

theorem orElse_assoc (m k l : Meaning) : orElse (orElse m k) l = orElse m (orElse k l) := by
  funext i t
  simp only [orElse]
  cases m i t with
  | none => rfl
  | some a => cases a <;> rfl

theorem firstOf_append (ms ks : List Meaning) :
    firstOf (ms ++ ks) = orElse (firstOf ms) (firstOf ks) := by
  induction ms with
  | nil => funext i t; simp [firstOf, orElse, never]
  | cons m ms ih =>
    simp only [firstOf, List.cons_append, List.foldr_cons] at ih ⊢
    rw [ih, orElse_assoc]

theorem orElse_one (f g : Nat → Bool) :
    orElse (ofComparison (s.one f)) (ofComparison (s.one g)) =
      ofComparison (s.one fun c => f c || g c) := by
  funext i t
  simp only [orElse, ofComparison, Subject.one]
  by_cases hi : i < s.size
  · cases hc : s.at? i with
    | none => simp [hi]
    | some c => cases hf : f c <;> cases hg : g c <;> simp [hi, hf, hg]
  · simp [hi]

theorem within_ne_miss (times : Nat) (i : Int) (t : Slots) : within m times i t ≠ some .miss := by
  induction times generalizing i t with
  | zero => simp [within]
  | succ times ih =>
    simp only [within]
    cases hm : m i t with
    | none => simp
    | some a =>
      cases a with
      | miss => simp
      | fault f => simp
      | hit n u =>
        cases n with
        | zero => simp
        | succ n =>
          simp only [ne_eq, Option.map_eq_some_iff, not_exists, not_and]
          intro a ha
          have := ih (i + (n + 1 : Nat)) u
          cases a <;> simp_all

theorem many_orElse_nothing (m : Meaning) : many s (orElse m nothing) = many s m := by
  have step (times : Nat) (i : Int) (t : Slots) :
      within (orElse m nothing) times i t = within m times i t := by
    induction times generalizing i t with
    | zero => rfl
    | succ times ih =>
      simp only [within, orElse, nothing]
      cases m i t with
      | none => rfl
      | some a =>
        cases a with
        | miss => rfl
        | fault f => rfl
        | hit n u => cases n <;> simp [ih]
  funext i t
  exact step _ i t

def Keeps (m : Meaning) : Prop :=
  ∀ i t n u, m i t = some (.hit n u) → u = t

theorem keeps_nothing : Keeps nothing := by
  intro i t n u h
  cases h
  rfl

theorem keeps_ofComparison (x : Int → Except Fault (Option Nat)) : Keeps (ofComparison x) := by
  intro i t n u h
  simp only [ofComparison] at h
  split at h <;> cases h
  rfl

theorem keeps_andThen (hm : Keeps m) (hk : Keeps k) : Keeps (andThen m k) := by
  intro i t n u h
  simp only [andThen] at h
  split at h
  · next l v hl =>
    obtain ⟨a, ha, he⟩ := Option.map_eq_some_iff.1 h
    cases a <;> cases he
    rw [hk _ _ _ _ ha, hm i t l v hl]
  · exact hm i t n u h

theorem keeps_orElse (hm : Keeps m) (hk : Keeps k) : Keeps (orElse m k) := by
  intro i t n u h
  simp only [orElse] at h
  split at h
  · exact hk i t n u h
  · exact hm i t n u h

theorem keeps_inOrder {ms : List Meaning} (h : ∀ m ∈ ms, Keeps m) : Keeps (inOrder ms) := by
  induction ms with
  | nil => exact keeps_nothing
  | cons m ms ih => exact keeps_andThen (h m (by simp)) (ih fun k hk => h k (by simp [hk]))

theorem keeps_firstOf {ms : List Meaning} (h : ∀ m ∈ ms, Keeps m) : Keeps (firstOf ms) := by
  induction ms with
  | nil => intro i t n u h; cases h
  | cons m ms ih => exact keeps_orElse (h m (by simp)) (ih fun k hk => h k (by simp [hk]))

theorem keeps_peek (hm : Keeps m) : Keeps (peek m) := by
  intro i t n u h
  obtain ⟨a, ha, he⟩ := Option.map_eq_some_iff.1 h
  cases a <;> cases he
  exact hm i t _ _ ha

theorem keeps_not (m : Meaning) : Keeps (not m) := by
  intro i t n u h
  obtain ⟨a, ha, he⟩ := Option.map_eq_some_iff.1 h
  cases a <;> cases he
  rfl

theorem stop_of_within (hm : Keeps m) {times : Nat} {i : Int} {t u : Slots} {n : Nat}
    (h : within m times i t = some (.hit n u)) :
    u = t ∧ (m (i + n) t = some .miss ∨ m (i + n) t = some (.hit 0 t)) := by
  induction times generalizing i n with
  | zero => cases h
  | succ times ih =>
    simp only [within] at h
    cases hr : m i t with
    | none => simp [hr] at h
    | some a =>
      rw [hr] at h
      cases a with
      | miss =>
        cases h
        exact ⟨rfl, .inl (by simpa using hr)⟩
      | fault f => cases h
      | hit l v =>
        have hv := hm i t l v hr
        subst hv
        cases l with
        | zero =>
          cases h
          exact ⟨rfl, .inr (by simpa using hr)⟩
        | succ l =>
          obtain ⟨a, ha, he⟩ := Option.map_eq_some_iff.1 h
          cases a <;> cases he
          obtain ⟨hu, hstop⟩ := ih ha
          refine ⟨hu, ?_⟩
          have he (n : Nat) : i + ((l + 1 + n : Nat) : Int) = i + (l + 1 : Nat) + n := by omega
          rwa [he]

theorem keeps_many (hm : Keeps m) : Keeps (many s m) :=
  fun _ _ _ _ h => (stop_of_within hm h).1

theorem keeps_search (hm : Keeps m) : Keeps (search s m) := by
  have step (i : Int) (t u : Slots) (n count skipped : Nat)
      (h : seek m (fun skipped n t => .hit (skipped + n) t) i t count skipped = some (.hit n u)) :
      u = t := by
    induction count generalizing skipped with
    | zero => cases h
    | succ count ih =>
      simp only [seek] at h
      split at h
      · next l v hl => cases h; exact hm _ t l _ hl
      · exact ih _ h
      · next hn _ => exact (hn n u h).elim
  exact fun i t n u h => step i t u n _ 0 h

theorem many_many (hm : Keeps m) (hi : Inside s m) : many s (many s m) = many s m := by
  funext i t
  change within (many s m) (s.room i + 1) i t = many s m i t
  rw [within]
  cases hr : many s m i t with
  | none => rfl
  | some a =>
    cases a with
    | miss => exact absurd hr (within_ne_miss _ i t)
    | fault f => rfl
    | hit n u =>
      cases n with
      | zero => rfl
      | succ n =>
        obtain ⟨rfl, hstop⟩ := stop_of_within hm hr
        have hfits := inside_within hi _ _ _ _ _ hr
        obtain ⟨room, hroom⟩ : ∃ room, s.room i = room + 1 := by
          refine ⟨s.room i - 1, ?_⟩
          simp only [Subject.Fits, Subject.room] at hfits ⊢
          omega
        have hinner : many s m (i + (n + 1 : Nat)) u = some (.hit 0 u) := by
          rcases hstop with hstop | hstop <;> simp only [many, within, hstop]
        simp only [hroom, within, hinner, Option.map_some, Answer.after_hit, Nat.add_zero]

theorem many_one (test : Nat → Bool) :
    many s (ofComparison (s.one test)) = ofComparison fun i => (s.runLength test i).map some := by
  have step (times : Nat) (i : Int) (t : Slots) (h : s.room i < times) :
      within (ofComparison (s.one test)) times i t =
        ofComparison (fun i => (s.runLength test i).map some) i t := by
    induction times generalizing i with
    | zero => omega
    | succ times ih =>
      by_cases hi : i < s.size
      · have hroom : s.room i = s.room (i + 1) + 1 := by simp only [Subject.room]; omega
        have hrest := ih (i + 1) (by omega)
        simp only [ofComparison, Subject.runLength, bind, Except.bind] at hrest
        simp only [within, ofComparison, Subject.one, hi, if_true, Subject.runLength, hroom,
          Subject.runEnd]
        cases hc : s.at? i with
        | none => rfl
        | some c =>
          by_cases htest : test c
          · have hnext : i + ((0 + 1 : Nat) : Int) = i + 1 := by simp
            simp only [htest, if_true, bind, Except.bind, hnext]
            rw [show within _ times (i + 1) t = _ from hrest]
            cases hj : s.runEnd test (s.room (i + 1)) (i + 1) with
            | error f => rfl
            | ok j =>
              have := Subject.runEnd_le hj
              simp only [Except.map, Option.map_some, Answer.after_hit, Option.some.injEq,
                Answer.hit.injEq, and_true]
              omega
          · simp [htest, bind, Except.bind, Except.map]
      · have hroom : s.room i = 0 := by simp only [Subject.room]; omega
        simp [within, ofComparison, Subject.one, hi, Subject.runLength, hroom, Subject.runEnd, bind,
          Except.bind, Except.map]
  funext i t
  exact step _ i t (Nat.lt_succ_self _)

end Meaning

namespace Pattern

open Meaning

variable {A : Allowed} {e : Env} {p : Pattern}

theorem denote_sequence (e : Env) (id : Nat) (ps : List Pattern) :
    (Pattern.sequence id ps).denote e = inOrder (ps.map (denote e)) := by
  simp only [denote, denoteEach_eq_map]

theorem denote_choice (e : Env) (id : Nat) (ps : List Pattern) :
    (Pattern.choice id ps).denote e = firstOf (ps.map (denote e)) := by
  simp only [denote, denoteEach_eq_map]

theorem inOrder_sequenceItems (e : Env) (p : Pattern) :
    inOrder (p.sequenceItems.map (denote e)) = p.denote e := by
  cases p with
  | sequence i items => exact (denote_sequence e i items).symm
  | empty => rfl
  | _ => simp [sequenceItems, inOrder]

theorem denote_seq (e : Env) (id : Nat) (ps : List Pattern) :
    (seq id ps).denote e = inOrder (ps.map (denote e)) := by
  have flat : inOrder ((ps.flatMap sequenceItems).map (denote e)) =
      inOrder (ps.map (denote e)) := by
    induction ps with
    | nil => rfl
    | cons p ps ih =>
      rw [List.flatMap_cons, List.map_append, inOrder_append, ih, inOrder_sequenceItems]
      rfl
  unfold seq
  split
  · next h => rw [← flat, h]; rfl
  · next p h => rw [← flat, h]; exact (andThen_nothing _).symm
  · rw [denote_sequence, flat]

theorem firstOf_choiceItems (e : Env) (p : Pattern) :
    firstOf (p.choiceItems.map (denote e)) = p.denote e := by
  cases p with
  | choice i items => exact (denote_choice e i items).symm
  | _ => simp [choiceItems, firstOf]

def Told : Pattern → Prop
  | .set _ _ sense => sense = .ofBool sense.isNegated
  | _ => True

theorem NormalNode.told (h : p.NormalNode A) : p.Told := by
  cases p with
  | set i members sense => exact h
  | _ => trivial

theorem denote_of_characters {set : RuneSet} (hp : p.Told) (h : p.characters? = some set) :
    p.denote e = ofComparison (e.subject.one set.contains) := by
  cases p with
  | char i c =>
    simp only [characters?, Option.some.injEq] at h
    subst h
    have : (fun d => d == c) = (RuneSet.empty.insert c).contains := by
      funext d
      simp
    simp only [denote, this]
  | set i members sense =>
    simp only [characters?] at h
    split at h
    · cases h
    · next hneg =>
      cases h
      simp only [Told, hneg] at hp
      rw [hp]
      rfl
  | _ => simp [characters?] at h

theorem mapM_characters_cons {ps : List Pattern} {sets : List RuneSet}
    (h : (p :: ps).mapM characters? = some sets) :
    ∃ set rest, p.characters? = some set ∧ ps.mapM characters? = some rest ∧
      sets = set :: rest := by
  rw [List.mapM_cons] at h
  cases hset : p.characters? with
  | none => simp [hset] at h
  | some set =>
    cases hrest : ps.mapM characters? with
    | none => simp [hset, hrest] at h
    | some rest =>
      simp only [hset, hrest, Option.pure_def, Option.bind_eq_bind, Option.bind_some,
        Option.some.injEq] at h
      exact ⟨set, rest, rfl, rfl, h.symm⟩

theorem firstOf_characters {ps : List Pattern} {sets : List RuneSet} (hp : ∀ p ∈ ps, p.Told)
    (h : ps.mapM characters? = some sets) (known : Nat → Bool) :
    orElse (ofComparison (e.subject.one known)) (firstOf (ps.map (denote e))) =
      ofComparison (e.subject.one fun c => known c || sets.any fun s => s.contains c) := by
  induction ps generalizing sets known with
  | nil =>
    cases h
    simp [firstOf]
  | cons p ps ih =>
    obtain ⟨set, rest, hset, hsets, rfl⟩ := mapM_characters_cons h
    have hrest := ih (fun q hq => hp q (by simp [hq])) hsets fun c => known c || set.contains c
    rw [← orElse_one, orElse_assoc, ← denote_of_characters (hp p (by simp)) hset] at hrest
    simp only [List.any_cons, ← Bool.or_assoc]
    exact hrest

theorem contains_foldl_union (sets : List RuneSet) (known : RuneSet) (c : Nat) :
    (sets.foldl RuneSet.union known).contains c =
      (known.contains c || sets.any fun s => s.contains c) := by
  induction sets generalizing known with
  | nil => simp
  | cons s sets ih =>
    rw [List.foldl_cons, ih, RuneSet.contains_union, List.any_cons, Bool.or_comm (s.contains c),
      Bool.or_assoc]

theorem denote_alt_of_told {id : Nat} {first : Pattern} {others : List Pattern}
    (hne : (first :: others).flatMap choiceItems ≠ [])
    (items : ∀ q ∈ (first :: others).flatMap choiceItems, q.Told) :
    (alt id first others).denote e = firstOf ((first :: others).map (denote e)) := by
  have flat (ps : List Pattern) :
      firstOf ((ps.flatMap choiceItems).map (denote e)) = firstOf (ps.map (denote e)) := by
    induction ps with
    | nil => rfl
    | cons p ps ih =>
      rw [List.flatMap_cons, List.map_append, firstOf_append, ih, firstOf_choiceItems]
      rfl
  rw [← flat]
  unfold alt
  split
  · next p hp => rw [hp]; exact (orElse_never _).symm
  · split
    · next sets hsets =>
      have hall : (sets.foldl RuneSet.union .empty).contains = fun c =>
          sets.any fun s => s.contains c := by
        funext c
        simp [contains_foldl_union]
      simp only [denote, Sense.admits, hall]
      revert items hsets hne
      cases (first :: others).flatMap choiceItems with
      | nil => intro hne; exact absurd rfl hne
      | cons q qs =>
        intro _ items hsets
        obtain ⟨set, rest, hset, hrest, rfl⟩ := mapM_characters_cons hsets
        have := firstOf_characters (e := e) (fun p hp => items p (by simp [hp])) hrest set.contains
        rw [← denote_of_characters (items q (by simp)) hset] at this
        exact this.symm
    · exact denote_choice e id _

theorem denote_alt {id : Nat} {first : Pattern} {others : List Pattern}
    (h : ∀ p ∈ first :: others, Normal A p) :
    (alt id first others).denote e = firstOf ((first :: others).map (denote e)) := by
  refine denote_alt_of_told ?_ fun q hq => ?_
  · have := choiceItems_ne_nil (h first (by simp))
    simp [this]
  · obtain ⟨p, hp, hq⟩ := List.mem_flatMap.1 hq
    exact (mem_choiceItems (h p hp) hq).2.here.told

theorem denote_ne_miss (hr : p.isRepeat) (i : Int) (t : Slots) : p.denote e i t ≠ some .miss := by
  have run (test : Nat → Bool) :
      ofComparison (fun i => (e.subject.runLength test i).map some) i t ≠ some .miss := by
    simp only [ofComparison]
    cases e.subject.runLength test i <;> simp [Except.map]
  cases p with
  | star j q => exact within_ne_miss _ i t
  | starChar j c => exact run _
  | starSet j s sense => exact run _
  | starAny => simp [denote]
  | _ => cases hr

theorem denote_opt (e : Env) (id : Nat) (p : Pattern) :
    (opt id p).denote e = orElse (p.denote e) nothing := by
  by_cases ho : p.isOption
  · cases p with
    | option j q =>
      have hself : orElse nothing nothing = nothing := rfl
      simp only [opt, denote, orElse_assoc, hself]
    | _ => simp [isOption] at ho
  · by_cases hr : p.isRepeat
    · have hopt : opt id p = p := (opt_cases id p).resolve_right fun h => h.1.2 hr
      rw [hopt]
      funext i t
      unfold orElse
      split
      · next hm => exact absurd hm (denote_ne_miss hr i t)
      · rfl
    · rw [opt_of_not ho hr]
      rfl

end Pattern

def Env.tame (e : Env) : Allowed where
  call r := Meaning.Keeps (e.call r)
  capture _ := False
  backref _ := True

structure Env.Inside (e : Env) : Prop where
  call : ∀ r, Meaning.Inside e.subject (e.call r)
  rule : ∀ r, Meaning.Inside e.subject (e.rule r)

namespace Pattern

open Meaning

variable {e : Env} {p : Pattern}

theorem keeps_denote (h : Normal e.tame p) : Keeps (p.denote e) := by
  have step {c : Prop} [Decidable c] (k : Nat) (t u : Slots) (n : Nat)
      (h : some (if c then Answer.hit k t else .miss) = some (.hit n u)) : u = t := by
    split at h <;> cases h
    rfl
  induction h with
  | @node p here below ih =>
    cases p with
    | empty => exact keeps_nothing
    | any => exact fun i t n u h => step 1 t u n h
    | anyRune => exact fun i t n u h => step 1 t u n h
    | startAnchor => exact fun i t n u h => step 0 t u n h
    | starAny => intro i t n u h; cases h; rfl
    | call id r => exact here
    | sequence id items =>
      rw [denote_sequence]
      refine keeps_inOrder fun m hm => ?_
      obtain ⟨q, hq, rfl⟩ := List.mem_map.1 hm
      exact ih q hq
    | choice id items =>
      rw [denote_choice]
      refine keeps_firstOf fun m hm => ?_
      obtain ⟨q, hq, rfl⟩ := List.mem_map.1 hm
      exact ih q hq
    | star id q => exact keeps_many (ih q (by simp [children]))
    | option id q => exact keeps_orElse (ih q (by simp [children])) keeps_nothing
    | peek id q => exact keeps_peek (ih q (by simp [children]))
    | not id q => exact keeps_not _
    | search id q => exact keeps_search (ih q (by simp [children]))
    | backref id how slot =>
      intro i t n u h
      simp only [denote, Meaning.backref] at h
      split at h
      · cases h
      · exact keeps_ofComparison _ i t n u h
      · cases h
    | capture id q => exact here.elim
    | capturedSearch id q => exact here.elim
    | valued id how v => exact here.elim
    | rule id r => exact here.elim
    | grammar id start others => exact here.elim
    | _ => exact keeps_ofComparison _

theorem many_any (s : Subject) :
    many s (fun i t => some (if i < s.size then .hit 1 t else .miss)) = fun i t =>
      some (.hit (s.room i) t) := by
  have step (times : Nat) (i : Int) (t : Slots) (h : s.room i < times) :
      within (fun i t => some (if i < s.size then .hit 1 t else .miss)) times i t =
        some (.hit (s.room i) t) := by
    induction times generalizing i with
    | zero => omega
    | succ times ih =>
      by_cases hi : i < s.size
      · have hnext : i + ((0 + 1 : Nat) : Int) = i + 1 := by simp
        have hroom : s.room i = 1 + s.room (i + 1) := by simp only [Subject.room]; omega
        simp only [within, hi, if_true, hnext, ih (i + 1) (by omega), Option.map_some,
          Answer.after_hit, hroom]
      · have hroom : s.room i = 0 := by simp only [Subject.room]; omega
        simp [within, hi, hroom]
  funext i t
  exact step _ i t (Nat.lt_succ_self _)

theorem denote_repeated_starAny (he : e.Inside) :
    Pattern.starAny.denote e = many e.subject (Pattern.starAny.denote e) := by
  have hany : many e.subject (Pattern.any.denote e) = Pattern.starAny.denote e := many_any _
  have hkeeps : Keeps (Pattern.any.denote e) := keeps_denote (.leaf trivial rfl)
  rw [← hany]
  exact (many_many hkeeps (Pattern.any.inside_denote e he.call he.rule)).symm

theorem many_run (s : Subject) (test : Nat → Bool) :
    many s (ofComparison fun i => (s.runLength test i).map some) =
      ofComparison fun i => (s.runLength test i).map some := by
  rw [← many_one]
  exact many_many (keeps_ofComparison _) (inside_ofComparison fun i n h => Subject.fits_of_one h)

/-- A repetition means its operand as often as possible, unless the operand is a repetition of a
pattern or an option. -/
theorem denote_repeated_of_not (he : e.Inside) (id : Nat) (hs : ¬ p.isStar) (ho : ¬ p.isOption) :
    (repeated id p).denote e = many e.subject (p.denote e) := by
  by_cases hr : p.isRepeatable
  · rw [repeated_of_isRepeatable id hr]
    rfl
  · cases p with
    | char i c => exact (many_one _).symm
    | set i s sense => exact (many_one _).symm
    | any => exact (many_any _).symm
    | anyRune => exact (many_any _).symm
    | starChar i c => exact (many_run _ _).symm
    | starSet i s sense => exact (many_run _ _).symm
    | starAny => exact denote_repeated_starAny he
    | star i q => exact absurd rfl hs
    | option i q => exact absurd rfl ho
    | _ => simp [isRepeatable] at hr

theorem denote_repeated_option (id i : Nat)
    (h : (repeated id p).denote e = many e.subject (p.denote e)) :
    (repeated id (.option i p)).denote e = many e.subject ((Pattern.option i p).denote e) := by
  rw [repeated, h]
  exact (many_orElse_nothing _).symm

theorem denote_repeated (he : e.Inside) (id : Nat) (h : Normal e.tame p) :
    (repeated id p).denote e = many e.subject (p.denote e) := by
  induction h with
  | @node p here below ih =>
    cases p with
    | star i q =>
      have hq := below q (by simp [children])
      exact (many_many (keeps_denote hq) (q.inside_denote e he.call he.rule)).symm
    | option i q => exact denote_repeated_option id i (ih q (by simp [children]))
    | _ => exact denote_repeated_of_not he id (by simp [isStar]) (by simp [isOption])

end Pattern

end PegMatch

import PegMatch.Proofs.Extent

set_option autoImplicit false

/-! The engine and its journal against the meaning of patterns. Whenever the engine returns, its
result and the table it leaves are those of the meaning; a miss leaves the table and the journal as
they were, and a hit only adds to the journal. -/

namespace PegMatch

namespace Captures

def slots (t : Captures) : Slots := ⟨t.capacity, t.spans⟩

inductive Later (t : Captures) : Captures → Prop where
  | refl : Later t t
  | set {u v : Captures} {slot : Int} {span : Span} (h : Later t u) (hs : u.set slot span = .ok v) :
      Later t v

theorem Later.trans {t u v : Captures} (h : Later t u) (h' : Later u v) : Later t v := by
  induction h' with
  | refl => exact h
  | set _ hs ih => exact .set ih hs

theorem Later.mark_le {t u : Captures} (h : Later t u) : t.mark ≤ u.mark := by
  induction h with
  | refl => exact Nat.le_refl _
  | set _ hs ih => have := mark_set hs; omega

theorem Later.rollback {t u : Captures} (h : Later t u) : u.rollback t.mark = t := by
  induction h with
  | refl => exact rollback_mark t
  | @set u v slot span hl hs ih =>
    rw [rollback_of_set hs hl.mark_le]
    exact ih

theorem Later.capacity {t u : Captures} (h : Later t u) : u.capacity = t.capacity := by
  induction h with
  | refl => rfl
  | set _ hs ih =>
    simp only [Captures.set] at hs
    split at hs
    · cases hs
      exact ih
    · cases hs

theorem Later.journal {t u : Captures} (h : Later t u) :
    ∃ filled, u.journal = t.journal ++ filled := by
  induction h with
  | refl => exact ⟨#[], by simp⟩
  | set _ hs ih =>
    obtain ⟨filled, hf⟩ := ih
    simp only [Captures.set] at hs
    split at hs
    · cases hs
      exact ⟨filled.push (_, _), by rw [hf, Array.push_append]⟩
    · cases hs

theorem slots_set (t : Captures) (slot : Nat) (span : Span) :
    (t.set slot span).map slots = t.slots.set slot span := by
  simp only [set, Slots.set, slots]
  by_cases h : (slot : Int) < t.capacity <;> simp [h, Except.map, slots]

theorem slots_text (t : Captures) (subject : Subject) (slot : Nat) :
    t.text subject slot = t.slots.text subject slot := by
  have hs : ¬ ((slot : Int) < 0) := by omega
  simp only [text, span, Slots.text, slots, hs, if_false, Int.toNat_natCast, bind, Except.bind]
  cases t.spans[slot]? <;> rfl

end Captures

namespace Matching

@[simp] theorem State.table_record (s : State) (wanted : Bool) (e : Event) :
    (s.record wanted e).table = s.table := by
  unfold State.record
  split <;> rfl

/-- The engine's result for a state is that of a meaning, unless nodes nest too deep. -/
def Agrees (t : Captures) (r : Result) (a : Option Answer) : Prop :=
  match r with
  | .hit n u => a = some (.hit n u.table.slots) ∧ t.Later u.table
  | .miss u => a = some .miss ∧ u.table = t
  | .fault f _ => f = .endless ∨ a = some (.fault f)

/-- The same where a miss may leave slots filled. -/
def AgreesLoosely (t : Captures) (r : Result) (a : Option Answer) : Prop :=
  match r with
  | .hit n u => a = some (.hit n u.table.slots) ∧ t.Later u.table
  | .miss u => a = some .miss ∧ t.Later u.table
  | .fault f _ => f = .endless ∨ a = some (.fault f)

theorem AgreesLoosely.orRollback {t : Captures} {r : Result} {a : Option Answer}
    (h : AgreesLoosely t r a) : Agrees t (r.orRollback t.mark) a := by
  cases r with
  | hit n u => exact h
  | miss u => exact ⟨h.1, h.2.rollback⟩
  | fault f u => exact h

/-- An attempt agrees with a meaning of patterns at every position from zero on. -/
def Follows (attempt : Attempt) (meaning : Pattern → Meaning) : Prop :=
  ∀ p i s, 0 ≤ i → Agrees s.table (attempt p i s) (meaning p i s.table.slots)

theorem agrees_compared (s : State) (x : Int → Except Fault (Option Nat)) (i : Int) :
    Agrees s.table (compared s (x i)) (Meaning.ofComparison x i s.table.slots) := by
  simp only [Meaning.ofComparison]
  cases hx : x i with
  | error f => exact .inr rfl
  | ok o =>
    cases o with
    | none => exact ⟨rfl, rfl⟩
    | some n => exact ⟨rfl, .refl⟩

theorem agrees_fill (scene : Scene) (id : Nat) (span : Span) (length : Nat) {t : Captures}
    {s : State} (h : t.Later s.table) :
    Agrees t (fill scene id span length s)
      (some (Meaning.fill (scene.store.slot? id) span length s.table.slots)) := by
  simp only [fill, Meaning.fill]
  cases scene.store.slot? id with
  | none => exact .inr rfl
  | some slot =>
    simp only [← Captures.slots_set]
    cases hset : s.table.set slot span with
    | error f => exact .inr rfl
    | ok u => exact ⟨rfl, h.set hset⟩

section

variable {attempt : Attempt} {meaning : Pattern → Meaning} (h : Follows attempt meaning)
include h

theorem agrees_inOrder {i : Int} (hi : 0 ≤ i) (ps : List Pattern) (n : Nat) {t : Captures}
    {s : State} (hl : t.Later s.table) :
    AgreesLoosely t (inOrder attempt i ps n s)
      ((Meaning.inOrder (ps.map meaning) (i + n) s.table.slots).map (Answer.after n)) := by
  induction ps generalizing n s with
  | nil => exact ⟨rfl, hl⟩
  | cons p ps ih =>
    have hp := h p (i + n) s (by omega)
    simp only [inOrder, List.map_cons, Meaning.inOrder, List.foldr_cons, Meaning.andThen]
    cases hr : attempt p (i + n) s with
    | miss u =>
      rw [hr] at hp
      rw [hp.1]
      exact ⟨rfl, hp.2 ▸ hl⟩
    | fault f u =>
      rw [hr] at hp
      rcases hp with hf | hp
      · exact .inl hf
      · rw [hp]
        exact .inr rfl
    | hit k u =>
      rw [hr] at hp
      rw [hp.1]
      have := ih (n + k) (hl.trans hp.2)
      simp only [Option.map_map, Function.comp_def, Answer.after_after]
      have he : i + ((n + k : Nat) : Int) = i + n + k := by omega
      rw [he] at this
      exact this

theorem agrees_firstOf {i : Int} (hi : 0 ≤ i) (ps : List Pattern) (s : State) :
    Agrees s.table (firstOf attempt s.table.mark i ps s)
      (Meaning.firstOf (ps.map meaning) i s.table.slots) := by
  induction ps generalizing s with
  | nil => exact ⟨rfl, rfl⟩
  | cons p ps ih =>
    have hp := h p i s hi
    simp only [firstOf, List.map_cons, Meaning.firstOf, List.foldr_cons, Meaning.orElse]
    cases hr : attempt p i s with
    | hit k u =>
      rw [hr] at hp
      rw [hp.1]
      exact ⟨rfl, hp.2⟩
    | fault f u =>
      rw [hr] at hp
      rcases hp with hf | hp
      · exact .inl hf
      · rw [hp]
        exact .inr rfl
    | miss u =>
      rw [hr] at hp
      have hu : (u.rollback s.table.mark).table = s.table := by
        simp [State.rollback, hp.2]
      rw [hp.1]
      have := ih (u.rollback s.table.mark)
      rw [hu] at this
      exact this

theorem agrees_repeatedly (p : Pattern) {i : Int} (hi : 0 ≤ i) (times n : Nat) {t : Captures}
    {s : State} (hl : t.Later s.table) :
    Agrees t (repeatedly attempt p i times n s)
      (((meaning p).within times (i + n) s.table.slots).map (Answer.after n)) := by
  induction times generalizing n s with
  | zero => exact .inl rfl
  | succ times ih =>
    have hp := h p (i + n) s (by omega)
    simp only [repeatedly, Meaning.within]
    cases ha : attempt p (i + n) s with
    | miss u =>
      rw [ha] at hp
      rw [hp.1]
      exact ⟨by simp [hp.2], hp.2 ▸ hl⟩
    | fault f u =>
      rw [ha] at hp
      rcases hp with hf | hp
      · exact .inl hf
      · rw [hp]
        exact .inr rfl
    | hit k u =>
      rw [ha] at hp
      rw [hp.1]
      cases k with
      | zero => exact ⟨rfl, hl.trans hp.2⟩
      | succ k =>
        have := ih (n + (k + 1)) (hl.trans hp.2)
        simp only [Option.map_map, Function.comp_def, Answer.after_after]
        have he : i + ((n + (k + 1) : Nat) : Int) = i + n + (k + 1 : Nat) := by omega
        rw [he] at this
        exact this

def Found.result (finish : Nat → Nat → State → Result) : Found → Result
  | .nothing s => .miss s
  | .found skipped n s => finish skipped n s
  | .fault f s => .fault f s

theorem agrees_scan (finish : Nat → Nat → State → Result) (found : Nat → Nat → Slots → Answer)
    {t : Captures} (hf : ∀ skipped n u, t.Later u.table →
      Agrees t (finish skipped n u) (some (found skipped n u.table.slots)))
    {i : Int} (hi : 0 ≤ i) (p : Pattern) (count skipped : Nat) {s : State} (hs : s.table = t) :
    Agrees t ((scan attempt t.mark p i count skipped s).result finish)
      (Meaning.seek (meaning p) found i t.slots count skipped) := by
  induction count generalizing skipped s with
  | zero => exact ⟨rfl, hs⟩
  | succ count ih =>
    have hp := h p (i + skipped) s (by omega)
    rw [hs] at hp
    simp only [scan, Meaning.seek]
    cases hr : attempt p (i + skipped) s with
    | hit n u =>
      rw [hr] at hp
      rw [hp.1]
      exact hf skipped n u hp.2
    | miss u =>
      rw [hr] at hp
      rw [hp.1]
      exact ih (skipped + 1) (by simp [State.rollback, hp.2])
    | fault f u =>
      rw [hr] at hp
      rcases hp with hf | hp
      · exact .inl hf
      · rw [hp]
        exact .inr rfl

end

theorem agrees_leave {t : Captures} {r : Result} {a : Option Answer} (watch : Watch) (p : Pattern)
    (i : Int) (h : Agrees t r a) : Agrees t (leave watch p i r) a := by
  cases r with
  | hit n u => exact ⟨by simp [h.1], by simpa using h.2⟩
  | miss u => exact ⟨h.1, by simpa using h.2⟩
  | fault f u => exact h

theorem agrees_step {scene : Scene} {attempt : Attempt} (h : Follows attempt scene.meaning)
    (p : Pattern) (i : Int) (s : State) (hi : 0 ≤ i) :
    Agrees s.table (step scene attempt p i s) (scene.meaning p i s.table.slots) := by
  have map_eq (ps : List Pattern) :
      Pattern.denoteEach (scene.env scene.body) ps = ps.map scene.meaning :=
    Pattern.denoteEach_eq_map _ ps
  cases p with
  | empty => exact ⟨rfl, .refl⟩
  | any =>
    by_cases hs : i < scene.subject.size <;>
      simp [step, Scene.meaning, Pattern.denote, Scene.env, hs, Agrees, Captures.Later.refl]
  | anyRune =>
    by_cases hs : i < scene.subject.size <;>
      simp [step, Scene.meaning, Pattern.denote, Scene.env, hs, Agrees, Captures.Later.refl]
  | startAnchor =>
    by_cases hs : i = scene.origin <;>
      simp [step, Scene.meaning, Pattern.denote, Scene.env, hs, Agrees, Captures.Later.refl]
  | newline => exact agrees_compared s scene.subject.lineBreak i
  | category c => exact agrees_compared s (scene.subject.one c.has) i
  | literal id how t => exact agrees_compared s (fun i => scene.subject.compare how i t) i
  | valued id how v => cases how <;> exact .inr rfl
  | char id c => exact agrees_compared s (scene.subject.one (· == c)) i
  | set id members sense =>
    exact agrees_compared s (scene.subject.one fun c => sense.admits (members.contains c)) i
  | starChar id c =>
    exact agrees_compared s (fun i => (scene.subject.runLength (· == c) i).map some) i
  | starSet id members sense =>
    exact agrees_compared s
      (fun i => (scene.subject.runLength (fun c => sense.admits (members.contains c)) i).map some) i
  | starAny => exact ⟨rfl, .refl⟩
  | call id r =>
    simp only [step, Scene.meaning, Pattern.denote, Scene.env]
    cases hb : scene.store.body? r with
    | error f => exact .inr rfl
    | ok o =>
      cases o with
      | none => exact .inr rfl
      | some body =>
        simp only [Scene.body_eq_meaning hb]
        exact h body i s hi
  | rule id r =>
    simp only [step, Scene.meaning, Pattern.denote, Scene.env]
    cases hb : scene.store.body? r with
    | error f => exact .inr rfl
    | ok o =>
      cases o with
      | none => exact .inr rfl
      | some body =>
        simp only [Scene.body_eq_meaning hb]
        exact h body i s hi
  | grammar id start others => exact h (.call id start.2) i s hi
  | sequence id items =>
    have := agrees_inOrder h hi items 0 (t := s.table) (s := s) .refl
    simp only [step, Scene.meaning, Pattern.denote, map_eq]
    apply AgreesLoosely.orRollback
    simpa using this
  | choice id items =>
    simp only [step, Scene.meaning, Pattern.denote, map_eq]
    exact agrees_firstOf h hi items s
  | star id body =>
    have := agrees_repeatedly h body hi (scene.subject.room i + 1) 0 (t := s.table) (s := s) .refl
    simp only [Int.natCast_zero, Int.add_zero, Answer.map_after_zero] at this
    exact this
  | option id body =>
    have hb := h body i s hi
    simp only [step, Scene.meaning, Pattern.denote, Meaning.orElse] at hb ⊢
    cases hr : attempt body i s with
    | hit n u => rw [hr] at hb; rw [hb.1]; exact ⟨rfl, hb.2⟩
    | miss u => rw [hr] at hb; rw [hb.1]; exact ⟨by rw [hb.2]; rfl, hb.2 ▸ .refl⟩
    | fault f u =>
      rw [hr] at hb
      rcases hb with hf | hb
      · exact .inl hf
      · rw [hb]; exact .inr rfl
  | peek id body =>
    have hb := h body i s hi
    simp only [step, Scene.meaning, Pattern.denote, Meaning.peek] at hb ⊢
    cases hr : attempt body i s with
    | hit n u => rw [hr] at hb; rw [hb.1]; exact ⟨rfl, hb.2⟩
    | miss u => rw [hr] at hb; rw [hb.1]; exact ⟨rfl, by simp [State.rollback, State.mark, hb.2]⟩
    | fault f u =>
      rw [hr] at hb
      rcases hb with hf | hb
      · exact .inl hf
      · rw [hb]; exact .inr rfl
  | not id body =>
    have hb := h body i s hi
    simp only [step, Scene.meaning, Pattern.denote, Meaning.not] at hb ⊢
    cases hr : attempt body i s with
    | hit n u => rw [hr] at hb; rw [hb.1]; exact ⟨rfl, hb.2.rollback⟩
    | miss u =>
      rw [hr] at hb
      rw [hb.1]
      have hu : u.table.rollback s.table.mark = s.table := by simp [hb.2]
      exact ⟨by simp [State.rollback, State.mark, hu],
        by simp [State.rollback, State.mark, hu, Captures.Later.refl]⟩
    | fault f u =>
      rw [hr] at hb
      rcases hb with hf | hb
      · exact .inl hf
      · rw [hb]; exact .inr rfl
  | capture id body =>
    have hb := h body i s hi
    simp only [step, Scene.meaning, Pattern.denote, Meaning.capture] at hb ⊢
    cases hr : attempt body i s with
    | hit n u => rw [hr] at hb; rw [hb.1]; exact agrees_fill scene id ⟨i, n⟩ n hb.2
    | miss u => rw [hr] at hb; rw [hb.1]; exact ⟨rfl, hb.2⟩
    | fault f u =>
      rw [hr] at hb
      rcases hb with hf | hb
      · exact .inl hf
      · rw [hb]; exact .inr rfl
  | search id body =>
    have := agrees_scan h (t := s.table) (s := s) (fun skipped n u => .hit (skipped + n) u)
      (fun skipped n t => .hit (skipped + n) t) (fun _ _ _ hl => ⟨rfl, hl⟩) hi body
      (positions scene.subject i) 0 rfl
    revert this
    simp only [step, State.mark]
    cases scan attempt s.table.mark body i (positions scene.subject i) 0 s <;> exact fun h => h
  | capturedSearch id body =>
    have := agrees_scan h (t := s.table) (s := s)
      (fun skipped n u => fill scene id ⟨i, skipped⟩ (skipped + n) u)
      (fun skipped n t =>
        Meaning.fill (scene.store.slot? id) ⟨i, skipped⟩ (skipped + n) t)
      (fun skipped n _ hl => agrees_fill scene id ⟨i, skipped⟩ (skipped + n) hl) hi body
      (positions scene.subject i) 0 rfl
    revert this
    simp only [step, State.mark]
    cases scan attempt s.table.mark body i (positions scene.subject i) 0 s <;> exact fun h => h
  | backref id how slot =>
    simp only [step, Scene.meaning, Pattern.denote, Meaning.backref, Captures.slots_text, Scene.env]
    cases s.table.slots.text scene.subject slot with
    | error f => exact .inr rfl
    | ok o =>
      cases o with
      | none => exact ⟨rfl, rfl⟩
      | some t => exact agrees_compared s (fun i => scene.subject.compare how i t) i

theorem follows_attempt (scene : Scene) (depth : Nat) :
    Follows (attempt scene depth) scene.meaning := by
  induction depth with
  | zero => exact fun p i s _ => .inl rfl
  | succ depth ih =>
    intro p i s hi
    have := agrees_step ih p i (s.record (scene.watch p.kind).enter (.enter p i)) hi
    rw [State.table_record] at this
    exact agrees_leave _ p i this

/-- The nodes nest too deep. -/
def Result.Endless : Result → Prop
  | .fault .endless _ => True
  | _ => False

theorem endless_leave {watch : Watch} {p : Pattern} {i : Int} {r : Result}
    (h : (leave watch p i r).Endless) : r.Endless := by
  cases r <;> exact h

theorem endless_orRollback {mark : Nat} {r : Result} (h : (r.orRollback mark).Endless) :
    r.Endless := by
  cases r <;> exact h

/-- From some depth on the engine returns. -/
def Settles (scene : Scene) (p : Pattern) (i : Int) (t : Slots) : Prop :=
  ∃ depth, ∀ d, depth ≤ d → ∀ s : State, s.table.slots = t → ¬ (attempt scene d p i s).Endless

theorem settles_of_step {scene : Scene} {p : Pattern} {i : Int} {t : Slots}
    (h : ∃ depth, ∀ d, depth ≤ d → ∀ s : State, s.table.slots = t →
      ¬ (step scene (attempt scene d) p i s).Endless) : Settles scene p i t := by
  obtain ⟨depth, h⟩ := h
  refine ⟨depth + 1, fun d hd s hs he => ?_⟩
  cases d with
  | zero => omega
  | succ d => exact h d (by omega) _ (by simpa using hs) (endless_leave he)

theorem settles_of_never {scene : Scene} {p : Pattern} {i : Int} {t : Slots}
    (h : ∀ attempt s, ¬ (step scene attempt p i s).Endless) : Settles scene p i t :=
  settles_of_step ⟨0, fun d _ s _ => h (attempt scene d) s⟩

theorem result_of_meaning {scene : Scene} {p : Pattern} {i : Int} {a : Answer} {d : Nat} {s : State}
    (hi : 0 ≤ i) (hm : scene.meaning p i s.table.slots = some a)
    (hs : ¬ (attempt scene d p i s).Endless) :
    match a with
    | .hit n t => ∃ u, attempt scene d p i s = .hit n u ∧ u.table.slots = t
    | .miss => ∃ u, attempt scene d p i s = .miss u ∧ u.table = s.table
    | .fault f => ∃ u, attempt scene d p i s = .fault f u ∧ f ≠ .endless := by
  have h := follows_attempt scene d p i s hi
  rw [hm] at h
  cases hr : attempt scene d p i s with
  | hit n u =>
    rw [hr] at h
    cases h.1
    exact ⟨u, rfl, rfl⟩
  | miss u =>
    rw [hr] at h
    cases h.1
    exact ⟨u, rfl, h.2⟩
  | fault f u =>
    rw [hr] at h hs
    have hf : f ≠ .endless := by rintro rfl; exact hs trivial
    rcases h with he | he
    · exact absurd he hf
    · cases he
      exact ⟨u, rfl, hf⟩

section

variable {scene : Scene} {m : Pattern → Meaning} (below : ∀ p, (m p).Below (scene.meaning p))
include below

theorem settles_inOrder {ps : List Pattern}
    (hp : ∀ p ∈ ps, ∀ i t a, 0 ≤ i → m p i t = some a → Settles scene p i t) {i : Int} {n : Nat}
    {t : Slots} {a : Answer} (hi : 0 ≤ i) (h : Meaning.inOrder (ps.map m) (i + n) t = some a) :
    ∃ depth, ∀ d, depth ≤ d → ∀ s : State, s.table.slots = t →
      ¬ (inOrder (attempt scene d) i ps n s).Endless := by
  induction ps generalizing n t a with
  | nil => exact ⟨0, fun d _ s _ => id⟩
  | cons p ps ih =>
    simp only [List.map_cons, Meaning.inOrder, List.foldr_cons, Meaning.andThen] at h
    cases hb : m p (i + n) t with
    | none => simp [hb] at h
    | some b =>
      rw [hb] at h
      obtain ⟨depth, hd⟩ := hp p (by simp) _ t b (by omega) hb
      cases b with
      | miss =>
        refine ⟨depth, fun d hle s hs => ?_⟩
        obtain ⟨u, hu, -⟩ := result_of_meaning (by omega) (hs ▸ below p _ _ _ hb) (hd d hle s hs)
        simp [inOrder, hu, Result.Endless]
      | fault f =>
        refine ⟨depth, fun d hle s hs => ?_⟩
        obtain ⟨u, hu, -⟩ := result_of_meaning (by omega) (hs ▸ below p _ _ _ hb) (hd d hle s hs)
        have := hd d hle s hs
        rw [hu] at this
        simpa [inOrder, hu] using this
      | hit k v =>
        obtain ⟨c, hc, -⟩ := Option.map_eq_some_iff.1 h
        have he : i + n + k = i + ((n + k : Nat) : Int) := by omega
        rw [he] at hc
        obtain ⟨depth', hd'⟩ := ih (fun q hq => hp q (by simp [hq])) hc
        refine ⟨max depth depth', fun d hle s hs => ?_⟩
        obtain ⟨u, hu, hv⟩ :=
          result_of_meaning (by omega) (hs ▸ below p _ _ _ hb) (hd d (by omega) s hs)
        simp only [inOrder, hu]
        exact hd' d (by omega) u hv

theorem settles_firstOf {ps : List Pattern}
    (hp : ∀ p ∈ ps, ∀ i t a, 0 ≤ i → m p i t = some a → Settles scene p i t) {i : Int}
    {t : Slots} {a : Answer} (hi : 0 ≤ i) (h : Meaning.firstOf (ps.map m) i t = some a) :
    ∃ depth, ∀ d, depth ≤ d → ∀ s : State, s.table.slots = t →
      ¬ (firstOf (attempt scene d) s.table.mark i ps s).Endless := by
  induction ps with
  | nil => exact ⟨0, fun d _ s _ => id⟩
  | cons p ps ih =>
    simp only [List.map_cons, Meaning.firstOf, List.foldr_cons, Meaning.orElse] at h
    cases hb : m p i t with
    | none => simp [hb] at h
    | some b =>
      rw [hb] at h
      obtain ⟨depth, hd⟩ := hp p (by simp) _ t b hi hb
      cases b with
      | hit k v =>
        refine ⟨depth, fun d hle s hs => ?_⟩
        obtain ⟨u, hu, -⟩ := result_of_meaning hi (hs ▸ below p _ _ _ hb) (hd d hle s hs)
        simp [firstOf, hu, Result.Endless]
      | fault f =>
        refine ⟨depth, fun d hle s hs => ?_⟩
        obtain ⟨u, hu, -⟩ := result_of_meaning hi (hs ▸ below p _ _ _ hb) (hd d hle s hs)
        have := hd d hle s hs
        rw [hu] at this
        simpa [firstOf, hu] using this
      | miss =>
        obtain ⟨depth', hd'⟩ := ih (fun q hq => hp q (by simp [hq])) h
        refine ⟨max depth depth', fun d hle s hs => ?_⟩
        obtain ⟨u, hu, hv⟩ := result_of_meaning hi (hs ▸ below p _ _ _ hb) (hd d (by omega) s hs)
        have hr : (u.rollback s.table.mark).table = s.table := by simp [State.rollback, hv]
        simp only [firstOf, hu]
        have := hd' d (by omega) (u.rollback s.table.mark) (by rw [hr, hs])
        rwa [hr] at this

theorem settles_repeatedly {p : Pattern}
    (hp : ∀ i t a, 0 ≤ i → m p i t = some a → Settles scene p i t) {i : Int} {times n : Nat}
    {t : Slots} {a : Answer} (hi : 0 ≤ i) (h : (m p).within times (i + n) t = some a) :
    ∃ depth, ∀ d, depth ≤ d → ∀ s : State, s.table.slots = t →
      ¬ (repeatedly (attempt scene d) p i times n s).Endless := by
  induction times generalizing n t a with
  | zero => cases h
  | succ times ih =>
    simp only [Meaning.within] at h
    cases hb : m p (i + n) t with
    | none => simp [hb] at h
    | some b =>
      rw [hb] at h
      obtain ⟨depth, hd⟩ := hp _ t b (by omega) hb
      cases b with
      | miss =>
        refine ⟨depth, fun d hle s hs => ?_⟩
        obtain ⟨u, hu, -⟩ := result_of_meaning (by omega) (hs ▸ below p _ _ _ hb) (hd d hle s hs)
        simp [repeatedly, hu, Result.Endless]
      | fault f =>
        refine ⟨depth, fun d hle s hs => ?_⟩
        obtain ⟨u, hu, -⟩ := result_of_meaning (by omega) (hs ▸ below p _ _ _ hb) (hd d hle s hs)
        have := hd d hle s hs
        rw [hu] at this
        simpa [repeatedly, hu] using this
      | hit k v =>
        cases k with
        | zero =>
          refine ⟨depth, fun d hle s hs => ?_⟩
          obtain ⟨u, hu, -⟩ := result_of_meaning (by omega) (hs ▸ below p _ _ _ hb) (hd d hle s hs)
          simp [repeatedly, hu, Result.Endless]
        | succ k =>
          obtain ⟨c, hc, -⟩ := Option.map_eq_some_iff.1 h
          have he : i + n + (k + 1 : Nat) = i + ((n + (k + 1) : Nat) : Int) := by omega
          rw [he] at hc
          obtain ⟨depth', hd'⟩ := ih hc
          refine ⟨max depth depth', fun d hle s hs => ?_⟩
          obtain ⟨u, hu, hv⟩ :=
            result_of_meaning (by omega) (hs ▸ below p _ _ _ hb) (hd d (by omega) s hs)
          simp only [repeatedly, hu]
          exact hd' d (by omega) u hv

theorem settles_scan {p : Pattern}
    (hp : ∀ i t a, 0 ≤ i → m p i t = some a → Settles scene p i t) {i : Int} {count skipped : Nat}
    {t : Slots} {a : Answer} {found : Nat → Nat → Slots → Answer} (hi : 0 ≤ i)
    (h : (m p).seek found i t count skipped = some a) :
    ∃ depth, ∀ d, depth ≤ d → ∀ s : State, s.table.slots = t →
      ∀ u, scan (attempt scene d) s.table.mark p i count skipped s ≠ .fault .endless u := by
  induction count generalizing skipped with
  | zero => exact ⟨0, fun d _ s _ u => by simp [scan]⟩
  | succ count ih =>
    simp only [Meaning.seek] at h
    cases hb : m p (i + skipped) t with
    | none => simp [hb] at h
    | some b =>
      rw [hb] at h
      obtain ⟨depth, hd⟩ := hp _ t b (by omega) hb
      cases b with
      | hit k v =>
        refine ⟨depth, fun d hle s hs w => ?_⟩
        obtain ⟨u, hu, -⟩ := result_of_meaning (by omega) (hs ▸ below p _ _ _ hb) (hd d hle s hs)
        simp [scan, hu]
      | fault f =>
        refine ⟨depth, fun d hle s hs w => ?_⟩
        obtain ⟨u, hu, hf⟩ := result_of_meaning (by omega) (hs ▸ below p _ _ _ hb) (hd d hle s hs)
        simp [scan, hu, hf]
      | miss =>
        obtain ⟨depth', hd'⟩ := ih h
        refine ⟨max depth depth', fun d hle s hs w => ?_⟩
        obtain ⟨u, hu, hv⟩ :=
          result_of_meaning (by omega) (hs ▸ below p _ _ _ hb) (hd d (by omega) s hs)
        have hr : (u.rollback s.table.mark).table = s.table := by simp [State.rollback, hv]
        simp only [scan, hu]
        have := hd' d (by omega) (u.rollback s.table.mark) (by rw [hr, hs]) w
        rwa [hr] at this

end

theorem not_endless_compared {s : State} {x : Except Fault (Option Nat)} (hx : ∃ o, x = .ok o) :
    ¬ (compared s x).Endless := by
  obtain ⟨o, rfl⟩ := hx
  cases o <;> exact id

theorem not_endless_run {s : State} {subject : Subject} {test : Nat → Bool} {i : Int} (hi : 0 ≤ i) :
    ¬ (compared s ((subject.runLength test i).map some)).Endless := by
  obtain ⟨n, hn⟩ := Subject.runLength_ok (s := subject) hi test
  rw [hn]
  exact id

theorem not_endless_fill (scene : Scene) (id : Nat) (span : Span) (length : Nat) (s : State) :
    ¬ (fill scene id span length s).Endless := by
  simp only [fill]
  cases scene.store.slot? id with
  | none => exact fun h => h
  | some slot =>
    by_cases hs : (slot : Int) < s.table.capacity <;> simp [Captures.set, hs, Result.Endless]

theorem not_endless_text {t : Captures} {subject : Subject} {slot : Nat} {f : Fault}
    (h : t.text subject slot = .error f) : f ≠ .endless := by
  rw [Captures.slots_text, Slots.text] at h
  split at h
  · cases h
  · rw [← Except.error.inj h, Fault.ofSlot]
    cases Fault.isIndex slot <;> simp

theorem body?_ne_endless {store : Store} {r : Nat} {f : Fault} (h : store.body? r = .error f) :
    f ≠ .endless := by
  simp only [Store.body?] at h
  split at h
  · cases h
  · cases h; simp

theorem settles_of_only {scene : Scene} {p q : Pattern} {i : Int} {t : Slots}
    (h : Settles scene q i t)
    (hs : ∀ attempt s, ¬ (attempt q i s).Endless → ¬ (step scene attempt p i s).Endless) :
    Settles scene p i t := by
  obtain ⟨depth, hd⟩ := h
  exact settles_of_step ⟨depth, fun d hle s hst => hs _ s (hd d hle s hst)⟩

/-- Where a pattern has an answer, the engine returns, if it does for what the rules answer. -/
theorem settles_of_denote {scene : Scene} (body : Nat → Meaning)
    (below : ∀ r, (body r).Below (scene.body r))
    (hb : ∀ r p i t a, scene.store.body? r = .ok (some p) → 0 ≤ i → body r i t = some a →
      Settles scene p i t) (p : Pattern) :
    ∀ i t a, 0 ≤ i → p.denote (scene.env body) i t = some a → Settles scene p i t := by
  have below' (p : Pattern) : (p.denote (scene.env body)).Below (scene.meaning p) :=
    p.denote_below (scene.env_below below)
  have call (id r : Nat) (i : Int) (t : Slots) (a : Answer) (hi : 0 ≤ i)
      (h : (scene.env body).call r i t = some a) : Settles scene (.call id r) i t := by
    cases hr : scene.store.body? r with
    | error f =>
      have := body?_ne_endless hr
      refine settles_of_never fun _ s => ?_
      cases f <;> simp [step, hr, Result.Endless] at this ⊢
    | ok o =>
      cases o with
      | none => exact settles_of_never fun _ s => by simp [step, hr, Result.Endless]
      | some q =>
        simp only [Scene.env, hr] at h
        exact settles_of_only (hb r q i t a hr hi h) fun _ s hs => by simpa [step, hr] using hs
  have rule (id r : Nat) (i : Int) (t : Slots) (a : Answer) (hi : 0 ≤ i)
      (h : (scene.env body).rule r i t = some a) : Settles scene (.rule id r) i t := by
    cases hr : scene.store.body? r with
    | error f =>
      have := body?_ne_endless hr
      refine settles_of_never fun _ s => ?_
      cases f <;> simp [step, hr, Result.Endless] at this ⊢
    | ok o =>
      cases o with
      | none => exact settles_of_never fun _ s => by simp [step, hr, Result.Endless]
      | some q =>
        simp only [Scene.env, hr] at h
        exact settles_of_only (hb r q i t a hr hi h) fun _ s hs => by simpa [step, hr] using hs
  induction p using Pattern.induction_children with
  | node p ih =>
    intro i t a hi h
    have h0 : i + (0 : Nat) = i := by simp
    -- A node with one node below it has an answer only where that node has one.
    have only {q : Pattern} (hq : q ∈ p.children)
        (hn : q.denote (scene.env body) i t = none → p.denote (scene.env body) i t = none) :
        Settles scene q i t := by
      cases hr : q.denote (scene.env body) i t with
      | none => rw [hn hr] at h; cases h
      | some b => exact ih q hq i t b hi hr
    cases p with
    | empty => exact settles_of_never fun _ _ => id
    | any => exact settles_of_never fun _ _ => by simp only [step]; split <;> exact id
    | anyRune => exact settles_of_never fun _ _ => by simp only [step]; split <;> exact id
    | startAnchor => exact settles_of_never fun _ _ => by simp only [step]; split <;> exact id
    | newline => exact settles_of_never fun _ _ => not_endless_compared (Subject.lineBreak_ok hi)
    | category c => exact settles_of_never fun _ _ => not_endless_compared (Subject.one_ok hi _)
    | literal id how t =>
      exact settles_of_never fun _ _ => not_endless_compared (Subject.compare_ok hi how t)
    | valued id how v => exact settles_of_never fun _ _ => by cases how <;> exact fun h => h
    | char id c => exact settles_of_never fun _ _ => not_endless_compared (Subject.one_ok hi _)
    | set id members sense =>
      exact settles_of_never fun _ _ => not_endless_compared (Subject.one_ok hi _)
    | starChar id c => exact settles_of_never fun _ _ => not_endless_run hi
    | starSet id members sense => exact settles_of_never fun _ _ => not_endless_run hi
    | starAny => exact settles_of_never fun _ _ => id
    | backref id how slot =>
      refine settles_of_never fun _ s => ?_
      simp only [step]
      split
      · exact fun h => h
      · exact not_endless_compared (Subject.compare_ok hi how _)
      · next f hf =>
        have := not_endless_text hf
        cases f <;> simp [Result.Endless] at this ⊢
    | call id r => exact call id r i t a hi h
    | rule id r => exact rule id r i t a hi h
    | grammar id start others => exact settles_of_only (call id start.2 i t a hi h) fun _ s hs => hs
    | sequence id items =>
      simp only [Pattern.denote, Pattern.denoteEach_eq_map] at h
      obtain ⟨depth, hd⟩ := settles_inOrder below' ih (n := 0) hi (by rw [h0]; exact h)
      exact settles_of_step ⟨depth, fun d hle s hs he => hd d hle s hs (endless_orRollback he)⟩
    | choice id items =>
      simp only [Pattern.denote, Pattern.denoteEach_eq_map] at h
      exact settles_of_step (settles_firstOf below' ih hi h)
    | star id q =>
      exact settles_of_step
        (settles_repeatedly below' (n := 0) (ih q (by simp [Pattern.children])) hi
          (by rw [h0]; exact h))
    | option id q =>
      refine settles_of_only (q := q) (only (by simp [Pattern.children]) fun hn => ?_)
        fun attempt s hs => ?_
      · simp [Pattern.denote, Meaning.orElse, hn]
      · simp only [step]
        cases hr : attempt q i s <;> simp_all [Result.Endless]
    | peek id q =>
      refine settles_of_only (q := q) (only (by simp [Pattern.children]) fun hn => ?_)
        fun attempt s hs => ?_
      · simp [Pattern.denote, Meaning.peek, hn]
      · simp only [step]
        cases hr : attempt q i s <;> simp_all [Result.Endless]
    | not id q =>
      refine settles_of_only (q := q) (only (by simp [Pattern.children]) fun hn => ?_)
        fun attempt s hs => ?_
      · simp [Pattern.denote, Meaning.not, hn]
      · simp only [step]
        cases hr : attempt q i s <;> simp_all [Result.Endless]
    | capture id q =>
      refine settles_of_only (q := q) (only (by simp [Pattern.children]) fun hn => ?_)
        fun attempt s hs => ?_
      · simp [Pattern.denote, Meaning.capture, hn]
      · simp only [step]
        cases hr : attempt q i s with
        | hit n u => exact not_endless_fill scene id _ n u
        | miss u => exact fun h => h
        | fault f u => rwa [hr] at hs
    | search id q =>
      obtain ⟨depth, hd⟩ := settles_scan below' (ih q (by simp [Pattern.children])) hi h
      refine settles_of_step ⟨depth, fun d hle s hs => ?_⟩
      have := hd d hle s hs
      simp only [step, State.mark]
      cases hr : scan (attempt scene d) s.table.mark q i (positions scene.subject i) 0 s with
      | nothing u => exact fun h => h
      | found skipped n u => exact fun h => h
      | fault f u =>
        have := this u
        cases f <;> simp [Result.Endless]
        exact this hr
    | capturedSearch id q =>
      obtain ⟨depth, hd⟩ := settles_scan below' (ih q (by simp [Pattern.children])) hi h
      refine settles_of_step ⟨depth, fun d hle s hs => ?_⟩
      have := hd d hle s hs
      simp only [step, State.mark]
      cases hr : scan (attempt scene d) s.table.mark q i (positions scene.subject i) 0 s with
      | nothing u => exact fun h => h
      | found skipped n u => exact not_endless_fill scene id _ _ u
      | fault f u =>
        have := this u
        cases f <;> simp [Result.Endless]
        exact this hr

theorem settles_of_meaning {scene : Scene} {p : Pattern} {i : Int} {t : Slots} {a : Answer}
    (hi : 0 ≤ i) (h : scene.meaning p i t = some a) : Settles scene p i t := by
  refine settles_of_denote scene.body (fun r => .refl _) ?_ p i t a hi h
  intro r p i t a hp hi hr
  refine scene.body_induction
    (fun r i t a => scene.body r i t = some a ∧
      (0 ≤ i → ∀ p, scene.store.body? r = .ok (some p) → Settles scene p i t)) ?_ hr |>.2 hi p hp
  intro body ih r q i t a hq h
  have below (r : Nat) : Meaning.Below (body r) (scene.body r) := fun i t a h => (ih r i t a h).1
  refine ⟨?_, fun hi p hp => ?_⟩
  · rw [Scene.body_eq_meaning hq]
    exact q.denote_below (scene.env_below below) i t a h
  · cases hq.symm.trans hp
    exact settles_of_denote body below
      (fun r p i t a hp hi hr => (ih r i t a hr).2 hi p hp) q i t a hi h

/-- The engine with its journal refines the meaning of patterns, which has none. What the engine
returns at some depth is what the pattern means, a miss leaves the table and its journal as they
were, and a hit only adds to the journal. Whatever a pattern means is what the engine returns from
some depth on. -/
theorem attempt_refines_meaning (scene : Scene) (p : Pattern) (i : Int) (hi : 0 ≤ i) (s : State) :
    (∀ depth n u, attempt scene depth p i s = .hit n u →
      scene.meaning p i s.table.slots = some (.hit n u.table.slots) ∧
        ∃ filled, u.table.journal = s.table.journal ++ filled) ∧
    (∀ depth u, attempt scene depth p i s = .miss u →
      scene.meaning p i s.table.slots = some .miss ∧ u.table = s.table) ∧
    (∀ a, scene.meaning p i s.table.slots = some a → ∃ depth, ∀ d, depth ≤ d →
      match a with
      | .hit n t => ∃ u, attempt scene d p i s = .hit n u ∧ u.table.slots = t
      | .miss => ∃ u, attempt scene d p i s = .miss u
      | .fault f => ∃ u, attempt scene d p i s = .fault f u) := by
  refine ⟨fun depth n u h => ?_, fun depth u h => ?_, fun a ha => ?_⟩
  · have := follows_attempt scene depth p i s hi
    rw [h] at this
    exact ⟨this.1, this.2.journal⟩
  · have := follows_attempt scene depth p i s hi
    rw [h] at this
    exact this
  · obtain ⟨depth, hd⟩ := settles_of_meaning hi ha
    refine ⟨depth, fun d hle => ?_⟩
    have := result_of_meaning hi ha (hd d hle s rfl)
    cases a with
    | hit n t => exact this
    | miss => obtain ⟨u, hu, -⟩ := this; exact ⟨u, hu⟩
    | fault f => obtain ⟨u, hu, -⟩ := this; exact ⟨u, hu⟩

/-- A branch that captures and then fails leaves no trace. -/
theorem meaning_of_failed_branch :
    (0 : Int) ≤ 0 ∧
    Scene.meaning { subject := #['a', 'b'], store := { slots := [(32, 0)] }, origin := 0 }
      (.choice 36 [.sequence 35 [.capture 32 (.char 33 'a'), .char 34 'c'], .char 37 'a']) 0
      ⟨1, #[none]⟩ = some (.hit 1 ⟨1, #[none]⟩) :=
  ⟨by decide, ((attempt_refines_meaning
    { subject := #['a', 'b'], store := { slots := [(32, 0)] }, origin := 0 }
    (.choice 36 [.sequence 35 [.capture 32 (.char 33 'a'), .char 34 'c'], .char 37 'a'])
    0 (by decide) { table := .ofCapacity 1 }).1 4 1 { table := .ofCapacity 1 } rfl).1⟩

end Matching

end PegMatch

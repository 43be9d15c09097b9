import PegMatch.Proofs.Scanning
import PegMatch.Proofs.Templates

set_option autoImplicit false

/-! Divisions of a subject. A subject that is cut at matches falls into gaps and matches in turn,
where no pattern matches anything inside of the gaps and the first pattern that matches counts.
There is no more than one such division, and all functions that replace or split go by it. -/

namespace PegMatch

def weave : List Text → List Text → Text
  | [], fs => fs.flatten
  | p :: ps, [] => (p :: ps).flatten
  | p :: ps, f :: fs => p ++ f ++ weave ps fs

theorem mapM_eq_ok_iff {α β ε : Type} {f : α → Except ε β} {xs : List α} {ys : List β} :
    xs.mapM f = .ok ys ↔ List.Forall₂ (fun x y => f x = .ok y) xs ys := by
  induction xs generalizing ys with
  | nil => cases ys <;> simp [pure, Except.pure]
  | cons x xs ih =>
    simp only [List.mapM_cons, bind_eq_ok_iff, ih]
    constructor
    · rintro ⟨y, hy, ys, hys, h⟩
      cases h
      exact .cons hy hys
    · rintro (_ | ⟨hy, hys⟩)
      exact ⟨_, hy, _, hys, rfl⟩

namespace Probe

variable {q : Probe} {origin : Int}

theorem Gives.unique {m m' : Match} (h : q.Gives origin m) (h' : q.Gives origin m')
    (hstart : m.start = m'.start) : m = m' := by
  obtain ⟨n, table, htry, hmake⟩ := h
  obtain ⟨n', table', htry', hmake'⟩ := h'
  rw [hstart] at htry hmake
  cases htry.symm.trans htry'
  cases hmake.symm.trans hmake'
  rfl

theorem fits_of_tryAt {i : Int} {n : Nat} {table : Captures} (hi : 0 ≤ i)
    (h : q.tryAt origin i = .ok (some n, table)) : q.subject.Fits i n := by
  let scene : Matching.Scene := { subject := q.subject, store := q.store, origin := origin }
  have hfollows : Matching.Agrees q.table.reset (Matching.run scene q.table q.pattern i q.depth)
      (scene.meaning q.pattern i q.table.reset.slots) :=
    Matching.follows_attempt scene (q.depth + 1) q.pattern i { table := q.table.reset } hi
  simp only [tryAt] at h
  split at h
  · next hr =>
    cases h
    rw [hr] at hfollows
    exact scene.inside_meaning q.pattern i _ _ _ hfollows.1
  · cases h
  · cases h

theorem subject_of_makeMatch {i length : Int} {table : Captures} {m : Match}
    (h : q.makeMatch i length table = .ok m) : m.subject = q.subject := by
  simp only [makeMatch, bind, Except.bind] at h
  split at h
  · cases h
  · cases h
    rfl

end Probe

/-- A gap and the match after it, with what was asked to go with it. -/
structure Part (α : Type) where
  gap : Text
  found : Match
  what : α

structure Division (α : Type) where
  parts : List (Part α)
  last : Text

namespace Division

variable {α : Type}

/-- The gaps, of which there is one more than matches. -/
def pieces (d : Division α) : List Text :=
  d.parts.map Part.gap ++ [d.last]

def found (d : Division α) : List Match :=
  d.parts.map Part.found

/-- What is divided. -/
def text (d : Division α) : Text :=
  weave d.pieces (d.found.map Match.text)

def cons (x : Part α) (d : Division α) : Division α where
  parts := x :: d.parts
  last := d.last

@[simp] theorem text_nil (last : Text) : (⟨[], last⟩ : Division α).text = last := by
  simp [text, pieces, found, weave]

@[simp] theorem text_cons (x : Part α) (d : Division α) :
    (d.cons x).text = x.gap ++ x.found.text ++ d.text := rfl

end Division

section

variable {α : Type}

/-- None of the probes matches anything non-empty at a position. -/
def Rests (probes : List (Probe × α)) (i : Nat) : Prop :=
  ∀ x ∈ probes, ∀ (n : Nat) (table : Captures), x.1.tryAt 0 i ≠ .ok (some (n + 1), table)

/-- The first of the probes that matches something non-empty at a position gives this match. -/
def Leads (probes : List (Probe × α)) (i : Nat) (m : Match) (a : α) : Prop :=
  ∃ before q after, probes = before ++ (q, a) :: after ∧ Rests before i ∧ q.Gives 0 m ∧
    m.start = i ∧ m.text ≠ []

/-- From a position on, the probes rest in the gaps and give the matches. -/
def Parted (probes : List (Probe × α)) : Nat → List (Part α) → Text → Prop
  | i, [], last => ∀ j, i ≤ j → j < i + last.length → Rests probes j
  | i, x :: xs, last => (∀ j, i ≤ j → j < i + x.gap.length → Rests probes j) ∧
      Leads probes (i + x.gap.length) x.found x.what ∧
      Parted probes (i + x.gap.length + x.found.text.length) xs last

/-- The division is one of the subject, with the matches that the probes give, tried in order. -/
structure Divides (subject : Subject) (probes : List (Probe × α)) (d : Division α) : Prop where
  text : d.text = subject.toList
  parted : Parted probes 0 d.parts d.last

variable {probes : List (Probe × α)} {i : Nat} {m m' : Match} {a a' : α}

theorem Probe.Gives.consumes {q : Probe} (h : q.Gives 0 m) (hne : m.text ≠ []) :
    ∃ n table, q.tryAt 0 m.start = .ok (some (n + 1), table) := by
  obtain ⟨_ | n, table, htry, hmake⟩ := h
  · have hbounds := bounds_of_makeMatch hmake
    have hempty : m.stop = m.start := by omega
    exact absurd (by simp [Match.text, Subject.slice, hempty]) hne
  · exact ⟨n, table, htry⟩

theorem Leads.not_rests (h : Leads probes i m a) : ¬ Rests probes i := by
  obtain ⟨before, q, after, rfl, -, hgives, hstart, hne⟩ := h
  intro hrests
  obtain ⟨n, table, htry⟩ := hgives.consumes hne
  rw [hstart] at htry
  exact hrests (q, a) (by simp) n table htry

theorem Leads.unique (h : Leads probes i m a) (h' : Leads probes i m' a') : m = m' ∧ a = a' := by
  obtain ⟨before, q, after, rfl, hrests, hgives, hstart, hne⟩ := h
  obtain ⟨before', q', after', heq, hrests', hgives', hstart', hne'⟩ := h'
  obtain ⟨n, table, htry⟩ := hgives.consumes hne
  obtain ⟨n', table', htry'⟩ := hgives'.consumes hne'
  rw [hstart] at htry
  rw [hstart'] at htry'
  -- the pair that leads in one row cannot stand before the other, where all rest
  rcases List.append_eq_append_iff.1 heq with ⟨between, rfl, htail⟩ | ⟨between, rfl, htail⟩
  · cases between with
    | nil =>
      cases htail
      exact ⟨hgives.unique hgives' (hstart.trans hstart'.symm), rfl⟩
    | cons x between =>
      cases htail
      exact absurd htry (hrests' (q, a) (by simp) n table)
  · cases between with
    | nil =>
      cases htail
      exact ⟨hgives.unique hgives' (hstart.trans hstart'.symm), rfl⟩
    | cons x between =>
      cases htail
      exact absurd htry' (hrests (q', a') (by simp) n' table')

theorem Leads.outside {gap : Text} (h : Leads probes i m a) {start : Nat} (hi : start ≤ i)
    (hgap : ∀ j, start ≤ j → j < start + gap.length → Rests probes j) : start + gap.length ≤ i := by
  by_contra hlt
  exact h.not_rests (hgap i hi (by omega))

theorem Leads.text_ne (h : Leads probes i m a) : m.text ≠ [] := by
  obtain ⟨before, q, after, -, -, -, -, hne⟩ := h
  exact hne

theorem Parted.last_ne {last last' : Text} {x : Part α} {xs : List (Part α)}
    (h : Parted probes i [] last) (h' : Parted probes i (x :: xs) last') :
    last ≠ (Division.cons x ⟨xs, last'⟩).text := by
  rintro rfl
  have hle := h'.2.1.outside (by omega) h
  have hpos := List.length_pos_iff.2 h'.2.1.text_ne
  simp only [Division.text_cons, List.length_append] at hle
  omega

theorem Parted.unique {xs xs' : List (Part α)} {last last' : Text} (h : Parted probes i xs last)
    (h' : Parted probes i xs' last')
    (htext : (⟨xs, last⟩ : Division α).text = (⟨xs', last'⟩ : Division α).text) :
    xs = xs' ∧ last = last' := by
  induction xs generalizing i xs' with
  | nil =>
    rw [Division.text_nil] at htext
    cases xs' with
    | nil => exact ⟨rfl, htext.trans (Division.text_nil last')⟩
    | cons x' xs' => exact absurd htext (h.last_ne h')
  | cons x xs ih =>
    cases xs' with
    | nil =>
      rw [Division.text_nil] at htext
      exact absurd htext.symm (h'.last_ne h)
    | cons x' xs' =>
      obtain ⟨gap, found, what⟩ := x
      obtain ⟨gap', found', what'⟩ := x'
      obtain ⟨hgap, hleads, hrest⟩ := h
      obtain ⟨hgap', hleads', hrest'⟩ := h'
      simp only at hgap hleads hrest hgap' hleads' hrest'
      have hlength : gap.length = gap'.length := by
        have := hleads.outside (by omega) hgap'
        have := hleads'.outside (by omega) hgap
        omega
      have htext : gap ++ (found.text ++ (⟨xs, last⟩ : Division α).text) =
          gap' ++ (found'.text ++ (⟨xs', last'⟩ : Division α).text) := by
        rw [← List.append_assoc, ← List.append_assoc]
        exact htext
      obtain ⟨rfl, htext⟩ := List.append_inj htext hlength
      obtain ⟨rfl, rfl⟩ := hleads.unique hleads'
      obtain ⟨rfl, rfl⟩ := ih hrest hrest' (List.append_cancel_left htext)
      exact ⟨rfl, rfl⟩

theorem Divides.unique {subject : Subject} {d d' : Division α} (h : Divides subject probes d)
    (h' : Divides subject probes d') : d = d' := by
  obtain ⟨hparts, hlast⟩ := h.parted.unique h'.parted (h.text.trans h'.text.symm)
  cases d
  cases d'
  congr

end

namespace Cuts

variable {α : Type}

def division : Cuts (Probe × α) → Except Failure (Division α)
  | .last t => .ok ⟨[], t⟩
  | .fault f => .error (.fault f)
  | .cut gap hit (p, a) rest => do
    let found ← p.matchOf hit
    .ok ((← division rest).cons ⟨gap, found, a⟩)

variable {cs : Cuts (Probe × α)} {d : Division α}

theorem division_cut {gap : Text} {hit : Hit} {p : Probe} {a : α}
    (h : (cut gap hit (p, a) cs).division = .ok d) : ∃ found d', p.matchOf hit = .ok found ∧
      cs.division = .ok d' ∧ d = d'.cons ⟨gap, found, a⟩ := by
  cases hfound : p.matchOf hit with
  | error e => simp [division, hfound, bind, Except.bind] at h
  | ok found =>
    cases hd : cs.division with
    | error e => simp [division, hfound, hd, bind, Except.bind] at h
    | ok d' =>
      simp only [division, hfound, hd, bind, Except.bind, Except.ok.injEq] at h
      exact ⟨found, d', rfl, rfl, h.symm⟩

theorem replace_eq (f : Nat → Match → α → Except Failure Text) (k : Nat) (h : cs.division = .ok d) :
    cs.replace f k =
      weave d.pieces <$> (d.parts.zipIdx k).mapM fun x => f x.2 x.1.found x.1.what := by
  induction cs generalizing d k with
  | last t =>
    cases h
    simp [replace, Division.pieces, weave, Functor.map, Except.map, pure, Except.pure]
  | fault f => cases h
  | cut gap hit what rest ih =>
    obtain ⟨found, d', hfound, hd, rfl⟩ := division_cut h
    simp only [replace, hfound, ih (k + 1) hd, Division.cons, List.zipIdx_cons, List.mapM_cons,
      bind, Except.bind]
    cases f k found what.2 with
    | error e => rfl
    | ok t => cases (d'.parts.zipIdx (k + 1)).mapM fun x => f x.2 x.1.found x.1.what <;> rfl

theorem replace_eq_ok_iff {f : Match → α → Except Failure Text} {out : Text}
    (h : cs.division = .ok d) :
    cs.replace (fun _ found a => f found a) 0 = .ok out ↔ ∃ ts,
      List.Forall₂ (fun x t => f x.found x.what = .ok t) d.parts ts ∧ out = weave d.pieces ts := by
  have hparts := List.mapM_map (m := Except Failure) (l := d.parts.zipIdx) (f := Prod.fst)
    (g := fun x => f x.found x.what)
  rw [List.zipIdx_map_fst] at hparts
  simp only [replace_eq _ _ h, ← mapM_eq_ok_iff, hparts, Function.comp_def]
  cases d.parts.zipIdx.mapM fun x => f x.1.found x.1.what with
  | error e => simp [Functor.map, Except.map]
  | ok ts => simp [Functor.map, Except.map, eq_comm]

theorem division_of_replace {f : Nat → Match → α → Except Failure Text} {k : Nat} {out : Text}
    (h : cs.replace f k = .ok out) : ∃ d, cs.division = .ok d := by
  induction cs generalizing k out with
  | last t => exact ⟨_, rfl⟩
  | fault f => cases h
  | cut gap hit what rest ih =>
    obtain ⟨p, a⟩ := what
    obtain ⟨found, hfound, h⟩ := bind_eq_ok_iff.1 h
    obtain ⟨t, -, h⟩ := bind_eq_ok_iff.1 h
    obtain ⟨out', hout, -⟩ := bind_eq_ok_iff.1 h
    obtain ⟨d, hd⟩ := ih hout
    exact ⟨_, bind_eq_ok_iff.2 ⟨found, hfound, bind_eq_ok_iff.2 ⟨d, hd, rfl⟩⟩⟩

theorem rests_of_firstHit {probes : List (Probe × α)} {i : Nat} (h : firstHit i probes = .ok none) :
    Rests probes i := by
  induction probes with
  | nil => simp [Rests]
  | cons x probes ih =>
    obtain ⟨p, a⟩ := x
    obtain ⟨⟨r, table⟩, htry, h⟩ := bind_eq_ok_iff.1 h
    have hhere (n : Nat) (t : Captures) : p.tryAt 0 i ≠ .ok (some (n + 1), t) := by
      intro hhit
      cases htry.symm.trans hhit
      cases h
    have hlater : firstHit i probes = .ok none := by
      rcases r with _ | _ | n
      · exact h
      · exact h
      · exact absurd htry (hhere n table)
    exact List.forall_mem_cons.2 ⟨hhere, ih hlater⟩

theorem split_of_firstHit {probes : List (Probe × α)} {i : Nat} {hit : Hit} {p : Probe} {a : α}
    (h : firstHit i probes = .ok (some (hit, p, a))) :
    ∃ before after, probes = before ++ (p, a) :: after ∧ Rests before i ∧ hit.start = i ∧
      0 < hit.length ∧ p.tryAt 0 i = .ok (some hit.length, hit.table) := by
  induction probes with
  | nil => cases h
  | cons x probes ih =>
    obtain ⟨p', a'⟩ := x
    obtain ⟨⟨r, table⟩, htry, h⟩ := bind_eq_ok_iff.1 h
    have later (hr : ∀ n, r ≠ some (n + 1)) (h : firstHit i probes = .ok (some (hit, p, a))) :
        ∃ before after, (p', a') :: probes = before ++ (p, a) :: after ∧ Rests before i ∧
        hit.start = i ∧ 0 < hit.length ∧ p.tryAt 0 i = .ok (some hit.length, hit.table) := by
      obtain ⟨before, after, rfl, hrests, hhit⟩ := ih h
      refine ⟨(p', a') :: before, after, rfl,
        List.forall_mem_cons.2 ⟨fun n t hhit => ?_, hrests⟩, hhit⟩
      cases htry.symm.trans hhit
      exact hr n rfl
    rcases r with _ | _ | n
    · exact later (by simp) h
    · exact later (by simp) h
    · cases h
      exact ⟨[], probes, rfl, by simp [Rests], rfl, Nat.succ_pos n, htry⟩

theorem gives_of_matchOf {p : Probe} {hit : Hit} {m : Match} (hm : p.matchOf hit = .ok m)
    (htry : p.tryAt 0 hit.start = .ok (some hit.length, hit.table)) :
    p.Gives 0 m ∧ m.start = hit.start ∧ m.stop = hit.start + hit.length ∧
      m.subject = p.subject := by
  rw [Probe.matchOf] at hm
  cases hmake : p.makeMatch hit.start hit.length hit.table with
  | error f => rw [hmake] at hm; cases hm
  | ok m' =>
    rw [hmake] at hm
    cases hm
    obtain ⟨hstart, hstop⟩ := Probe.bounds_of_makeMatch hmake
    refine ⟨⟨hit.length, hit.table, ?_, ?_⟩, hstart, hstop, Probe.subject_of_makeMatch hmake⟩
    · rw [hstart, htry]
    · rw [hstart, hmake]

variable {subject : Subject} {probes : List (Probe × α)} {i : Nat}

theorem leads_of_firstHit (same : ∀ x ∈ probes, x.1.subject = subject) (hi : i ≤ subject.size)
    {hit : Hit} {p : Probe} {a : α} (h : firstHit i probes = .ok (some (hit, p, a))) {m : Match}
    (hm : p.matchOf hit = .ok m) :
    i + hit.length ≤ subject.size ∧ m.text = (subject.toList.drop i).take hit.length ∧
      m.text.length = hit.length ∧ Leads probes i m a := by
  obtain ⟨before, after, rfl, hbefore, rfl, hpos, htry⟩ := split_of_firstHit h
  obtain ⟨hgives, hstart, hstop, hsubject⟩ := gives_of_matchOf hm htry
  obtain rfl : p.subject = subject := same (p, a) (by simp)
  have hle : hit.start + hit.length ≤ p.subject.size := by
    have := (Probe.fits_of_tryAt (Int.natCast_nonneg _) htry).le (Int.ofNat_le.2 hi)
    omega
  have htext : m.text = (p.subject.toList.drop hit.start).take hit.length := by
    have := Subject.slice_eq (Nat.le_add_right hit.start hit.length) hle
    rw [Match.text, hsubject, hstart, hstop]
    simpa using this
  have hlength : m.text.length = hit.length := by
    simp [htext]
    omega
  exact ⟨hle, htext, hlength, before, p, after, rfl, hbefore, hgives, hstart,
    List.length_pos_iff.1 (by omega)⟩

/-- What a scan cuts is divided: the probes rest at each position that it passes, and the first that
hits leads. -/
theorem parted_of_scan (same : ∀ x ∈ probes, x.1.subject = subject) {room done : Nat}
    (hroom : subject.size < room + i) (hdone : done ≤ i) (hi : i ≤ subject.size)
    (hrests : ∀ j, done ≤ j → j < i → Rests probes j)
    (h : (scan subject probes room done i).division = .ok d) :
    Parted probes done d.parts d.last ∧ d.text = subject.toList.drop done := by
  -- the gap from `done` to `i` is what a miss makes longer and what a hit closes
  induction room generalizing done i d with
  | zero => omega
  | succ room ih =>
    simp only [scan] at h
    split at h
    · cases h
      refine ⟨fun j hj hlt => hrests j hj ?_, ?_⟩
      · simp only [Subject.sliceFrom_eq, List.length_drop, Array.length_toList] at hlt
        omega
      · rw [Division.text_nil, Subject.sliceFrom_eq]
    · split at h
      · cases h
      · next hnone =>
        refine ih (by omega) (by omega) (by omega) (fun j hj hle => ?_) h
        rcases Nat.lt_or_eq_of_le (Nat.le_of_lt_succ hle) with hlt | rfl
        · exact hrests j hj hlt
        · exact rests_of_firstHit hnone
      · next hit what hsome =>
        obtain ⟨p, a⟩ := what
        obtain ⟨m, d', hm, hd, rfl⟩ := division_cut h
        obtain ⟨hle, htext, hlength, hleads⟩ := leads_of_firstHit same hi hsome hm
        have hgap : subject.slice done i = (subject.toList.drop done).take (i - done) :=
          Subject.slice_eq hdone hi
        have hgapLength : done + (subject.slice done i).length = i := by
          simp [hgap]
          omega
        have hpos := List.length_pos_iff.2 hleads.text_ne
        obtain ⟨hparted, hrest⟩ := ih (by omega) (Nat.le_refl _) hle (fun j hj hlt => by omega) hd
        refine ⟨⟨fun j hj hlt => hrests j hj (hgapLength ▸ hlt), ?_, ?_⟩, ?_⟩
        · simpa only [hgapLength] using hleads
        · simpa only [hgapLength, hlength, Division.cons] using hparted
        · have hgapRest := List.take_append_drop (i - done) (subject.toList.drop done)
          rw [List.drop_drop, Nat.add_sub_cancel' hdone] at hgapRest
          rw [Division.text_cons, hrest, hgap, htext, List.append_assoc, ← List.drop_drop,
            List.take_append_drop, hgapRest]

theorem divides_of (same : ∀ x ∈ probes, x.1.subject = subject)
    (h : (Cuts.of subject probes).division = .ok d) : Divides subject probes d := by
  obtain ⟨hparted, htext⟩ :=
    parted_of_scan same (by omega) (Nat.le_refl 0) (Nat.zero_le _) (fun j _ hj => by omega) h
  exact ⟨by simpa using htext, hparted⟩

end Cuts

namespace Probe

variable {q : Probe} {ms : List Match}

theorem matchesFrom_cases {origin i : Int} {room : Nat}
    (h : (q.matchesFrom origin (room + 1) i).toList = .ok ms) :
    (q.subject.size < i ∧ ms = []) ∨
      (∃ table, q.tryAt origin i = .ok (none, table) ∧
        (q.matchesFrom origin room (i + 1)).toList = .ok ms) ∨
      ∃ n table m ms', q.tryAt origin i = .ok (some n, table) ∧
        q.makeMatch i n table = .ok m ∧
        (q.matchesFrom origin room (i + max n 1)).toList = .ok ms' ∧ ms = m :: ms' := by
  simp only [matchesFrom] at h
  split at h
  · next hend =>
    cases h
    exact .inl ⟨hend, rfl⟩
  · split at h
    · cases h
    · next table htry => exact .inr (.inl ⟨table, htry, h⟩)
    · next n table htry =>
      split at h
      · cases h
      · next m hmake =>
        obtain ⟨ms', hms, h⟩ := bind_eq_ok_iff.1 h
        cases h
        exact .inr (.inr ⟨n, table, m, ms', htry, hmake, hms, rfl⟩)

end Probe

end PegMatch

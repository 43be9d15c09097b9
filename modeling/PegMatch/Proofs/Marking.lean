import PegMatch.Highlight.Ansi
import PegMatch.Proofs.Replacing

set_option autoImplicit false

/-! Marks around the matches of a subject. Spans that lie in order and apart part the subject into
gaps and marked texts, and the matches of a scan do, empty ones included. So what is marked is what
is found, and without the control sequences the subject is left. -/

namespace PegMatch

namespace Ansi

/-- A text between the control sequences that open and close a mark. -/
def mark (color t : Text) : Text :=
  color ++ bold ++ t ++ resetAll

def gapsFrom (subject : Subject) : Int → List (Int × Int) → List Text
  | done, [] => [subject.sliceFrom done]
  | done, (start, stop) :: spans => subject.slice done start :: gapsFrom subject stop spans

/-- The spans lie in the subject from a position on, each behind the end of the one before. -/
def InOrder (subject : Subject) : Nat → List (Int × Int) → Prop
  | done, [] => done ≤ subject.size
  | done, span :: spans => ∃ start stop : Nat, span = ((start : Int), (stop : Int)) ∧ done ≤ start ∧
      start ≤ stop ∧
      stop ≤ subject.size ∧ InOrder subject stop spans

variable {subject : Subject} {color : Text}

theorem length_gapsFrom (done : Int) (spans : List (Int × Int)) :
    (gapsFrom subject done spans).length = spans.length + 1 := by
  induction spans generalizing done with
  | nil => rfl
  | cons span spans ih => simp [gapsFrom, ih]

theorem markFrom_eq_weave (done : Int) (spans : List (Int × Int)) :
    markFrom subject color done spans = weave (gapsFrom subject done spans)
      (spans.map fun s => mark color (subject.slice s.1 s.2)) := by
  induction spans generalizing done with
  | nil => simp [markFrom, gapsFrom, weave]
  | cons span spans ih => simp [markFrom, gapsFrom, weave, mark, ih, List.append_assoc]

/-- Spans that lie in order and the gaps between them make up the rest of the subject. -/
theorem weave_gapsFrom {done : Nat} {spans : List (Int × Int)} (h : InOrder subject done spans) :
    weave (gapsFrom subject done spans) (spans.map fun s => subject.slice s.1 s.2) =
      subject.toList.drop done := by
  induction spans generalizing done with
  | nil => simp [gapsFrom, weave, Subject.sliceFrom_eq]
  | cons span spans ih =>
    obtain ⟨start, stop, rfl, hstart, hstop, hsize, hrest⟩ := h
    have hgap : subject.slice done start = (subject.toList.drop done).take (start - done) :=
      Subject.slice_eq hstart (Nat.le_trans hstop hsize)
    have hspan : subject.slice start stop = (subject.toList.drop start).take (stop - start) :=
      Subject.slice_eq hstop hsize
    have hbehind : (subject.toList.drop start).drop (stop - start) = subject.toList.drop stop := by
      rw [List.drop_drop, Nat.add_sub_cancel' hstop]
    have hfront : (subject.toList.drop done).drop (start - done) = subject.toList.drop start := by
      rw [List.drop_drop, Nat.add_sub_cancel' hstart]
    calc weave (gapsFrom subject done ((start, stop) :: spans)) _
        = subject.slice done start ++ subject.slice start stop ++ subject.toList.drop stop := by
          rw [gapsFrom, List.map_cons, weave, ih hrest]
      _ = subject.slice done start ++ subject.toList.drop start := by
          rw [List.append_assoc, hspan, ← hbehind, List.take_append_drop]
      _ = subject.toList.drop done := by
          rw [hgap, ← hfront, List.take_append_drop]

end Ansi

namespace Probe

variable {q : Probe} {ms : List Match}

/-- The matches of a scan lie in order, from any position on that is not behind the start of the
scan. -/
theorem inOrder_of_matchesFrom {room i done : Nat} (hdone : done ≤ i)
    (hsize : done ≤ q.subject.size) (h : (q.matchesFrom 0 room i).toList = .ok ms) :
    Ansi.InOrder q.subject done (ms.map Match.bounds) ∧ ∀ m ∈ ms, m.subject = q.subject := by
  -- after an empty match the scan goes on one code point behind the end of the match, so `done` may
  -- lie before `i`
  induction room generalizing i done ms with
  | zero =>
    cases h
    exact ⟨hsize, by simp⟩
  | succ room ih =>
    rcases Nat.lt_or_ge q.subject.size i with hend | hi
    · have hnil : q.matchesFrom 0 (room + 1) i = .done := if_pos (Int.ofNat_lt.2 hend)
      rw [hnil] at h
      cases h
      exact ⟨hsize, by simp⟩
    · rcases matchesFrom_cases
        h with ⟨hend, -⟩ | ⟨table, -, hrest⟩ | ⟨n, table, m, ms, htry, hmake, hrest, rfl⟩
      · omega
      · exact ih (i := i + 1) (by omega) hsize hrest
      · obtain ⟨hstart, hstop⟩ := bounds_of_makeMatch hmake
        have hfits := (fits_of_tryAt (Int.natCast_nonneg _) htry).le (Int.ofNat_le.2 hi)
        have hnext : (i : Int) + max n 1 = (i + max n 1 : Nat) := by omega
        rw [hnext] at hrest
        obtain ⟨horder, hsubject⟩ := ih (show i + n ≤ i + max n 1 by omega) (by omega) hrest
        refine ⟨⟨i, i + n, ?_, hdone, Nat.le_add_right i n, by omega, horder⟩,
          List.forall_mem_cons.2 ⟨subject_of_makeMatch hmake, hsubject⟩⟩
        rw [Match.bounds, hstart, hstop]
        rfl

end Probe

/-- The gaps and the texts found make up the subject, and in the output each of these texts is
marked. -/
structure MarkedBetween (subject : Subject) (color : Text) (found gaps : List Text) (out : Text) :
    Prop where
  length : gaps.length = found.length + 1
  whole : weave gaps found = subject.toList
  marked : out = weave gaps (found.map (Ansi.mark color))

theorem Probe.marks_allMatches {q : Probe} {ms : List Match} (h : q.allMatches 0 = .ok ms)
    (color : Text) :
    q.findAll 0 = .ok (ms.map Match.text) ∧ ∃ gaps, MarkedBetween q.subject color
      (ms.map Match.text) gaps (Ansi.markSpans q.subject color (ms.map Match.bounds)) := by
  obtain ⟨horder, hsubject⟩ := inOrder_of_matchesFrom (i := 0) (Nat.le_refl 0) (Nat.zero_le _) h
  have htexts : ms.map Match.text = (ms.map Match.bounds).map fun s => q.subject.slice s.1 s.2 := by
    rw [List.map_map]
    exact List.map_congr_left fun m hm => by rw [Match.text, hsubject m hm]; rfl
  refine ⟨by rw [findAll, h]; rfl, Ansi.gapsFrom q.subject 0 (ms.map Match.bounds), ?_, ?_, ?_⟩
  · rw [Ansi.length_gapsFrom, List.length_map, List.length_map]
  · rw [htexts]
    exact Ansi.weave_gapsFrom horder
  · rw [htexts, List.map_map]
    exact Ansi.markFrom_eq_weave 0 _

namespace Library

/-- Marking what a scan of a subject finds keeps the subject: the texts found, marked, stand between
gaps, and with the same texts unmarked between the same gaps the subject is back. A scan with what
was compiled with the capacity in force gives out its matches, or nodes nest without end. -/
theorem marking_keeps_subject (subject : Subject) (p : Pattern) (color : Text) :
    (∀ l l' q ms, probe subject p l = .ok q l' → q.allMatches 0 = .ok ms →
      q.findAll 0 = .ok (ms.map Match.text) ∧
      ∃ gaps, MarkedBetween subject color (ms.map Match.text) gaps
        (Ansi.markSpans subject color (ms.map Match.bounds))) ∧
    ∀ c depth xs table, (∀ x ∈ xs, x.capacity c = c.capacity) →
      p ∈ (compileAll xs { config := c, depth }).1 → Captures.make c.capacity = .ok table →
      ∃ q, probe subject p (compileAll xs { config := c, depth }).2 =
          .ok q (compileAll xs { config := c, depth }).2 ∧
        (q.allMatches 0 = .error .endless ∨ ∃ ms, q.allMatches 0 = .ok ms) := by
  constructor
  · intro l l' q ms hprobe hms
    obtain ⟨-, rfl, -⟩ := probe_again hprobe
    exact Probe.marks_allMatches hms color
  · intro c depth xs table same hp hmake
    obtain ⟨n, hprobe, hready⟩ := exists_ready same hp hmake subject
    exact ⟨_, hprobe, hready.matchesFrom_cases 0 _ (Int.le_refl 0)⟩

/-- In `bab`, marks of `{'a'}*` stand around the rune and around three empty matches. -/
theorem starredRune_is_marked :
    ∃ p ∈ (compileAll starredRune { config := .standard }).1, ∃ q ms gaps,
      probe #['b', 'a', 'b'] p (compileAll starredRune { config := .standard }).2 =
        .ok q (compileAll starredRune { config := .standard }).2 ∧
      q.allMatches 0 = .ok ms ∧
      MarkedBetween #['b', 'a', 'b'] Ansi.yellow [[], ['a'], [], []] gaps
        (Ansi.markSpans #['b', 'a', 'b'] Ansi.yellow (ms.map Match.bounds)) := by
  have hfound : (compileAll starredRune { config := .standard }).1.map (fun p =>
      (matches? #['b', 'a', 'b'] (compileAll starredRune { config := .standard }).2 p).map
        (List.map Match.text)) = [some ([[], ['a'], [], []] : List Text)] := by
    rw [Config.standard_eq]
    decide +kernel
  obtain ⟨p, hp, hone⟩ := List.mem_map.1 (hfound ▸ List.mem_singleton_self _)
  have same (x : Request) (hx : x ∈ starredRune) :
      x.capacity .standard = Config.standard.capacity :=
    Request.capacity_of_mem_singleton hx _
  obtain ⟨hmarks, hends⟩ := marking_keeps_subject #['b', 'a', 'b'] p Ansi.yellow
  obtain ⟨table, hmake⟩ := exists_table
  obtain ⟨q, hprobe, hscan⟩ := hends .standard _ starredRune table same hp hmake
  rw [matches?_of_probe hprobe] at hone
  rcases hscan with hend | ⟨ms, hms⟩
  · rw [hend] at hone
    cases hone
  · rw [hms] at hone
    obtain ⟨-, gaps, hgaps⟩ := hmarks _ _ q ms hprobe hms
    rw [Option.some.inj hone] at hgaps
    exact ⟨p, hp, q, ms, gaps, hprobe, hms, hgaps⟩

end Library

end PegMatch

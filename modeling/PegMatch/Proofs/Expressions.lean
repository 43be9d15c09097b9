import PegMatch.Text.Basic

set_option autoImplicit false

/-! Regular expressions as lexers use them. An expression matches at the start of a text in several
ways, of which one is preferred to the others: what comes first in a choice, the longest of greedy
runs, the shortest of lazy ones. -/

namespace PegMatch.Highlight

inductive Regex where
  /-- One code point. -/
  | test (p : Nat → Bool)
  | word (w : Text)
  /-- As many code points as possible. -/
  | run (p : Nat → Bool)
  /-- As few code points as possible. -/
  | lazyRun (p : Nat → Bool)
  /-- As many code points as possible, but no more than `n`. -/
  | upTo (n : Nat) (p : Nat → Bool)
  /-- Takes nothing, where such a code point comes next. -/
  | ahead (p : Nat → Bool)
  /-- Takes nothing, where no such code point comes next. -/
  | notAhead (p : Nat → Bool)
  /-- Takes nothing, where a line ends. -/
  | lineEnd
  | seq (r s : Regex)
  | alt (r s : Regex)

abbrev Way := Text × Text

namespace Way

def cons (c : Nat) (w : Way) : Way :=
  (c :: w.1, w.2)

def prepend (t : Text) (w : Way) : Way :=
  (t ++ w.1, w.2)

end Way

namespace Regex

def runWays (p : Nat → Bool) : Text → List Way
  | [] => [([], [])]
  | c :: t => if p c then (runWays p t).map (Way.cons c) ++ [([], c :: t)] else [([], c :: t)]

def lazyWays (p : Nat → Bool) : Text → List Way
  | [] => [([], [])]
  | c :: t => ([], c :: t) :: if p c then (lazyWays p t).map (Way.cons c) else []

def upToWays (p : Nat → Bool) : Nat → Text → List Way
  | n + 1, c :: t =>
    if p c then (upToWays p n t).map (Way.cons c) ++ [([], c :: t)] else [([], c :: t)]
  | _, t => [([], t)]

/-- The ways to match at the start of a text, in the order in which they are preferred. -/
@[simp]
def ways : Regex → Text → List Way
  | test _, [] => []
  | test p, c :: t => if p c then [([c], t)] else []
  | word w, t => ((Text.dropPrefix? w t).map fun rest => (w, rest)).toList
  | run p, t => runWays p t
  | lazyRun p, t => lazyWays p t
  | upTo n p, t => upToWays p n t
  | ahead p, t => if t.head?.any p then [([], t)] else []
  | notAhead p, t => if !t.head?.any p then [([], t)] else []
  | lineEnd, t => if t.head?.all (· == '\n'.toNat) then [([], t)] else []
  | seq r s, t => (r.ways t).flatMap fun w => (s.ways w.2).map (Way.prepend w.1)
  | alt r s, t => r.ways t ++ s.ways t

/-- The way that is preferred. -/
def way? (r : Regex) (t : Text) : Option Way :=
  (r.ways t).head?

/-- One code point or more. -/
def plus (p : Nat → Bool) : Regex :=
  .seq (.test p) (.run p)

def opt (r : Regex) : Regex :=
  .alt r (.word [])

def times (p : Nat → Bool) : Nat → Regex
  | 0 => .word []
  | n + 1 => .seq (.test p) (times p n)

/-- The first of some expressions that matches. -/
def choice : List Regex → Regex
  | [] => .test fun _ => false
  | r :: rs => .alt r (choice rs)

/-- The ways to match several expressions one after the other, with what each of them takes. -/
def groupWays : List Regex → Text → List (List Text × Text)
  | [], t => [([], t)]
  | r :: rs, t => (r.ways t).flatMap fun w => (groupWays rs w.2).map fun v => (w.1 :: v.1, v.2)

/-- Whether an expression takes one code point at least, in every way. -/
def Takes : Regex → Prop
  | test _ => True
  | word w => w ≠ []
  | seq r s => r.Takes ∨ s.Takes
  | alt r s => r.Takes ∧ s.Takes
  | _ => False

variable {p : Nat → Bool} {r s : Regex} {c : Nat} {t : Text} {w : Way}

theorem append_of_mem_cons {ws : List Way} (h : ∀ w ∈ ws, w.1 ++ w.2 = t)
    (hw : w ∈ ws.map (Way.cons c)) : w.1 ++ w.2 = c :: t := by
  obtain ⟨v, hv, rfl⟩ := List.mem_map.1 hw
  simp [Way.cons, h v hv]

theorem append_of_mem_runWays (h : w ∈ runWays p t) : w.1 ++ w.2 = t := by
  induction t generalizing w with
  | nil =>
    obtain rfl := List.mem_singleton.1 h
    rfl
  | cons c t ih =>
    rw [runWays] at h
    split at h
    · rcases List.mem_append.1 h with h | h
      · exact append_of_mem_cons (fun _ => ih) h
      · obtain rfl := List.mem_singleton.1 h
        rfl
    · obtain rfl := List.mem_singleton.1 h
      rfl

theorem append_of_mem_lazyWays (h : w ∈ lazyWays p t) : w.1 ++ w.2 = t := by
  induction t generalizing w with
  | nil =>
    obtain rfl := List.mem_singleton.1 h
    rfl
  | cons c t ih =>
    rcases List.mem_cons.1 h with rfl | h
    · rfl
    · split at h
      · exact append_of_mem_cons (fun _ => ih) h
      · cases h

theorem append_of_mem_upToWays {n : Nat} (h : w ∈ upToWays p n t) : w.1 ++ w.2 = t := by
  induction n generalizing w t with
  | zero =>
    rw [upToWays] at h
    · obtain rfl := List.mem_singleton.1 h
      rfl
    · rintro _ _ _ ⟨⟩
  | succ n ih =>
    cases t with
    | nil =>
      obtain rfl := List.mem_singleton.1 h
      rfl
    | cons c t =>
      rw [upToWays] at h
      split at h
      · rcases List.mem_append.1 h with h | h
        · exact append_of_mem_cons (fun _ => ih) h
        · obtain rfl := List.mem_singleton.1 h
          rfl
      · obtain rfl := List.mem_singleton.1 h
        rfl

theorem append_of_mem_look {b : Bool} (h : w ∈ if b then [([], t)] else []) : w.1 ++ w.2 = t := by
  split at h
  · obtain rfl := List.mem_singleton.1 h
    rfl
  · cases h

theorem append_of_mem_ways (h : w ∈ r.ways t) : w.1 ++ w.2 = t := by
  induction r generalizing t w with
  | test p =>
    cases t with
    | nil => cases h
    | cons c t =>
      rw [ways] at h
      split at h
      · obtain rfl := List.mem_singleton.1 h
        rfl
      · cases h
  | word u =>
    simp only [ways, Option.mem_toList, Option.map_eq_some_iff] at h
    obtain ⟨rest, hrest, rfl⟩ := h
    exact (Text.eq_append_of_dropPrefix? hrest).symm
  | run p => exact append_of_mem_runWays h
  | lazyRun p => exact append_of_mem_lazyWays h
  | upTo n p => exact append_of_mem_upToWays h
  | ahead p => exact append_of_mem_look h
  | notAhead p => exact append_of_mem_look h
  | lineEnd => exact append_of_mem_look h
  | seq r s ihr ihs =>
    obtain ⟨u, hu, h⟩ := List.mem_flatMap.1 h
    obtain ⟨v, hv, rfl⟩ := List.mem_map.1 h
    rw [Way.prepend, List.append_assoc, ihs hv, ihr hu]
  | alt r s ihr ihs =>
    rcases List.mem_append.1 h with h | h
    · exact ihr h
    · exact ihs h

theorem append_of_mem_groupWays {rs : List Regex} {w : List Text × Text} (h : w ∈ groupWays rs t) :
    w.1.flatten ++ w.2 = t := by
  induction rs generalizing t w with
  | nil =>
    obtain rfl := List.mem_singleton.1 h
    rfl
  | cons r rs ih =>
    obtain ⟨u, hu, h⟩ := List.mem_flatMap.1 h
    obtain ⟨v, hv, rfl⟩ := List.mem_map.1 h
    rw [List.flatten_cons, List.append_assoc, ih hv, append_of_mem_ways hu]

theorem ne_nil_of_takes (hr : r.Takes) (h : w ∈ r.ways t) : w.1 ≠ [] := by
  induction r generalizing t w with
  | test p =>
    cases t with
    | nil => cases h
    | cons c t =>
      rw [ways] at h
      split at h
      · obtain rfl := List.mem_singleton.1 h
        exact List.cons_ne_nil _ _
      · cases h
  | word u =>
    simp only [ways, Option.mem_toList, Option.map_eq_some_iff] at h
    obtain ⟨rest, -, rfl⟩ := h
    exact hr
  | seq r s ihr ihs =>
    obtain ⟨u, hu, h⟩ := List.mem_flatMap.1 h
    obtain ⟨v, hv, rfl⟩ := List.mem_map.1 h
    rcases hr with hr | hs
    · exact List.append_ne_nil_of_left_ne_nil (ihr hr hu) _
    · exact List.append_ne_nil_of_right_ne_nil _ (ihs hs hv)
  | alt r s ihr ihs =>
    rcases List.mem_append.1 h with h | h
    · exact ihr hr.1 h
    · exact ihs hr.2 h
  | _ => exact hr.elim

theorem take_length_takeWhile (p : Nat → Bool) (t : Text) :
    t.take (t.takeWhile p).length = t.takeWhile p :=
  List.prefix_iff_eq_take.1 (List.takeWhile_prefix p) |>.symm

theorem drop_length_takeWhile (p : Nat → Bool) (t : Text) :
    t.drop (t.takeWhile p).length = t.dropWhile p := by
  have hdrop : (t.takeWhile p ++ t.dropWhile p).drop (t.takeWhile p).length = t.dropWhile p :=
    List.drop_left
  rwa [List.takeWhile_append_dropWhile] at hdrop

theorem way?_seq (r s : Regex) (t : Text) :
    (seq r s).way? t = (r.ways t).findSome? fun w => (s.way? w.2).map (Way.prepend w.1) := by
  simp only [way?, ways, List.head?_flatMap, List.head?_map]

theorem way?_alt (r s : Regex) (t : Text) : (alt r s).way? t = (r.way? t).or (s.way? t) :=
  List.head?_append

theorem way?_choice_cons (r : Regex) (rs : List Regex) (t : Text) :
    (choice (r :: rs)).way? t = (r.way? t).or ((choice rs).way? t) :=
  way?_alt r (choice rs) t

theorem way?_choice_nil (t : Text) : (choice []).way? t = none := by
  cases t <;> rfl

theorem way?_test (p : Nat → Bool) (c : Nat) (t : Text) :
    (test p).way? (c :: t) = if p c then some ([c], t) else none := by
  rw [way?, ways]
  split <;> rfl

theorem way?_word (w t : Text) :
    (word w).way? t = (Text.dropPrefix? w t).map fun rest => (w, rest) := by
  rw [way?, ways]
  cases Text.dropPrefix? w t <;> rfl

theorem way?_test_seq (p : Nat → Bool) (s : Regex) (c : Nat) (t : Text) :
    (seq (test p) s).way? (c :: t) = if p c then (s.way? t).map (Way.cons c) else none := by
  rw [way?_seq, ways]
  split
  · rw [List.findSome?_singleton]
    rfl
  · rfl

theorem way?_run (p : Nat → Bool) (t : Text) :
    (run p).way? t = some (t.takeWhile p, t.dropWhile p) := by
  rw [way?, ways]
  induction t with
  | nil => rfl
  | cons c t ih =>
    rw [runWays]
    by_cases hc : p c
    · simp [hc, ih, Way.cons]
    · simp [hc]

theorem way?_plus (p : Nat → Bool) (c : Nat) (t : Text) :
    (plus p).way? (c :: t) = if p c then some (c :: t.takeWhile p, t.dropWhile p) else none := by
  rw [plus, way?_test_seq, way?_run]
  rfl

theorem way?_upTo (n : Nat) (p : Nat → Bool) (t : Text) : (upTo n p).way? t =
    some ((t.take n).takeWhile p, t.drop ((t.take n).takeWhile p).length) := by
  rw [way?, ways]
  induction n generalizing t with
  | zero => cases t <;> rfl
  | succ n ih =>
    cases t with
    | nil => rfl
    | cons c t =>
      rw [upToWays]
      by_cases hc : p c
      · simp [hc, ih, Way.cons]
      · simp [hc]

theorem way?_times (p : Nat → Bool) (n : Nat) (t : Text) : (times p n).way? t =
    if (t.take n).length == n && (t.take n).all p then some (t.take n, t.drop n) else none := by
  induction n generalizing t with
  | zero => cases t <;> rfl
  | succ n ih =>
    cases t with
    | nil => rfl
    | cons c t =>
      have hlength : ((t.take n).length + 1 == n + 1) = ((t.take n).length == n) := by
        simp
      rw [times, way?_test_seq, ih, List.take_succ_cons, List.drop_succ_cons, List.length_cons,
        hlength, List.all_cons]
      cases p c
      · simp
      · rw [Bool.true_and, if_pos rfl]
        split <;> rfl

theorem way?_line (t : Text) : (seq (lazyRun (· != '\n'.toNat)) lineEnd).way? t =
    some (t.takeWhile (· != '\n'.toNat), t.dropWhile (· != '\n'.toNat)) := by
  rw [way?_seq, ways]
  induction t with
  | nil => rfl
  | cons c t ih =>
    rw [lazyWays]
    by_cases hc : c = '\n'.toNat
    · subst hc
      rfl
    · have htest : (c != '\n'.toNat) = true := bne_iff_ne.2 hc
      have hlater : lineEnd.way? (c :: t) = none := by
        rw [way?, ways, List.head?_cons, Option.all_some, beq_false_of_ne hc]
        rfl
      have hcons : (fun w : Way => (lineEnd.way? w.2).map (Way.prepend w.1)) ∘ Way.cons c =
          Option.map (Way.cons c) ∘ fun w => (lineEnd.way? w.2).map (Way.prepend w.1) := by
        funext w
        simp only [Function.comp_apply, Way.cons, Option.map_map]
        rfl
      rw [List.findSome?_cons, hlater, htest, if_pos rfl, List.findSome?_map, hcons,
        Option.map_none]
      simp only [← List.map_findSome?, ih]
      simp only [List.takeWhile_cons, List.dropWhile_cons, htest, if_true]
      rfl

theorem way?_ahead (p : Nat → Bool) (t : Text) :
    (ahead p).way? t = if t.head?.any p then some ([], t) else none := by
  rw [way?, ways]
  split <;> rfl

theorem way?_notAhead (p : Nat → Bool) (t : Text) :
    (notAhead p).way? t = if !t.head?.any p then some ([], t) else none := by
  rw [way?, ways]
  split <;> rfl

theorem way?_opt_seq (p : Nat → Bool) (s : Regex) (c : Nat) (t : Text) :
    (seq (opt (test p)) s).way? (c :: t) =
      ((if p c then (s.way? t).map (Way.cons c) else none).or (s.way? (c :: t))) := by
  have hprepend : Way.prepend [] = id := rfl
  rw [way?_seq, opt, ways, List.findSome?_append, ← way?_test_seq, way?_seq]
  simp only [ways, Text.dropPrefix?, Option.map_some, Option.toList_some, List.findSome?_singleton,
    hprepend, Option.map_id_fun, id]

theorem way?_words (words : List String) (rs : List Regex) (t : Text) :
    (choice (words.map (fun n => word (Text.ofString n)) ++ rs)).way? t =
      match words.find? fun n => Text.startsWith (Text.ofString n) t with
      | some n => some (t.take n.length, t.drop n.length)
      | none => (choice rs).way? t := by
  induction words with
  | nil => rfl
  | cons n words ih =>
    rw [List.map_cons, List.cons_append, way?_choice_cons, ih, way?_word, List.find?_cons,
      Text.startsWith]
    cases hprefix : Text.dropPrefix? (Text.ofString n) t with
    | none => simp
    | some rest =>
      have hlength : n.length = (Text.ofString n).length := by
        rw [Text.ofString, List.length_map, String.length_toList]
      have htext := Text.eq_append_of_dropPrefix? hprefix
      simp [htext, hlength]

theorem runWays_flatMap {α : Type} {f : Way → List α} (h : ∀ u c t, p c → f (u, c :: t) = [])
    (t : Text) : (runWays p t).flatMap f = f (t.takeWhile p, t.dropWhile p) := by
  induction t generalizing f with
  | nil => simp [runWays]
  | cons c t ih =>
    rw [runWays]
    by_cases hc : p c
    · have hrest := ih (f := fun w => f (Way.cons c w)) fun u d t hd => h (c :: u) d t hd
      simp only [hc, if_true, List.flatMap_append, List.flatMap_map, List.flatMap_singleton,
        h [] c t hc, hrest, List.append_nil, List.takeWhile_cons, List.dropWhile_cons]
      rfl
    · simp [hc]

end Regex

end PegMatch.Highlight

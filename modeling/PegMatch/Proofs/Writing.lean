import PegMatch.Proofs.Transcription

set_option autoImplicit false

namespace PegMatch

namespace Grammar

open Meaning Build

variable {N : Naming} {inline : Store → Nat → Option Pattern} {T : Env → Env → Pattern → Prop}
  {ms ws : List Mark} {t : Text} {x : Item} {Ts : List (Env → Env → Pattern → Prop)}
  {ts : List Text} {xs : List Item} {e f : Env}

theorem Transcripts.concat (hs : Transcripts N inline Ts ws ts xs)
    (h : Transcript N inline T ms t x) :
    Transcripts N inline (Ts ++ [T]) (ws ++ ms) (ts ++ [t]) (xs ++ [x]) := by
  induction hs with
  | nil => simpa using Transcripts.cons h .nil
  | cons h' _ ih => simpa using Transcripts.cons h' ih

/-- What may be written: calls of known rules, captures, and references by numbers that are short
enough. -/
def Naming.capturing (N : Naming) : Allowed where
  call := N.known
  capture _ := True
  backref slot := (Text.numeral (slot + 1)).length ≤ Text.mostDigits

def Naming.sparing (N : Naming) : Allowed :=
  .sparing fun r => N.known r ∧ N.quiet r

theorem Build.Serves.sparing (h : Serves N e f) : N.sparing.Less e.tame :=
  ⟨fun r hr => h.keeps r hr.1 hr.2, fun _ h => h.elim, fun _ _ => trivial⟩

end Grammar

namespace Pattern

open Meaning

theorem marks_parts (p : Pattern) : (Piece.parts p).flatMap marks = p.marks := by
  cases p with
  | sequence i items => exact (marksEach_eq_flatMap items).symm
  | _ => exact List.append_nil _

theorem sequenceItems_ne_nil {p : Pattern} (h : Normal .all p) (hp : p ≠ .empty) :
    p.sequenceItems ≠ [] :=
  fun hnil => hp ((sequenceItems_eq_nil h).1 hnil)

theorem two_le_sequenceItems_plus {p : Pattern} (h : Normal .all p) (hp : p ≠ .empty) (i j : Nat) :
    2 ≤ (plus i j p).sequenceItems.length := by
  have hne : ∀ q ∈ [p, repeated i p], q.sequenceItems ≠ [] := by
    simpa using ⟨sequenceItems_ne_nil h hp, sequenceItems_ne_nil (normal_repeated i h)
      (repeated_ne_empty i p)⟩
  obtain ⟨items, hitems⟩ := seq_of_two j (by simp) hne
  have hnormal := normal_plus i j h
  rw [plus, hitems] at hnormal ⊢
  exact hnormal.here.1

theorem seq_of_two_le {ps : List Pattern} (id : Nat) (h : 2 ≤ (ps.flatMap sequenceItems).length) :
    ∃ items, seq id ps = .sequence id items := by
  unfold seq
  split
  · next hn => simp [hn] at h
  · next p hp => simp [hp] at h
  · exact ⟨_, rfl⟩

end Pattern

namespace Piece

open Grammar Meaning Pattern

variable {N : Naming} {inline : Store → Nat → Option Pattern} {e f : Env} {p : Piece}
  {w : Piece × Bool} {ws : List (Piece × Bool)} {ps qs : List Pattern}

/-- The text of the piece is that of an item, which is built to be like the node. Marks are left out
only where they stand further to the left already. -/
def Transcribes (N : Naming) (inline : Store → Nat → Option Pattern) (p : Piece) : Prop :=
  ∃ x ms, Transcript N inline (fun e f => Alike e f p.node) ms p.text x ∧
    Mark.Thin [] p.node.marks ms ∧ (¬ p.node.isPrefixed → x.isTight)

theorem Transcribes.atom (h : p.Transcribes N inline) :
    ∃ x ms, x.isTight ∧ Transcript N inline (fun e f => Alike e f p.node) ms p.atom x ∧
      Mark.Thin [] p.node.marks ms := by
  obtain ⟨x, ms, hx, hthin, htight⟩ := h
  unfold Piece.atom
  split
  · exact ⟨_, ms, rfl, hx.group, hthin⟩
  · next hp => exact ⟨x, ms, htight hp, hx, hthin⟩

theorem Transcribes.suffix (h : p.Transcribes N inline) (s : Suffix) : ∃ y ms, y.isTight ∧
    Transcript N inline (fun e f q => ∃ i j r, Alike e f p.node r ∧ q = s.node i j r) ms
      (p.atom ++ (Sign.suffix s).text) y ∧ Mark.Thin [] p.node.marks ms := by
  obtain ⟨x, ms, htight, hx, hthin⟩ := h.atom
  obtain ⟨y, hy, hxy⟩ := hx.suffix htight s
  exact ⟨y, ms, hy, hxy, hthin⟩

structure Realizes (e f : Env) (w : Piece × Bool) (q : Pattern) : Prop where
  alike : Alike e f (pattern w) q
  filled : q ≠ .empty
  twice : w.2 → 2 ≤ q.sequenceItems.length

theorem transcript_written (hne : w.1.node ≠ .empty) (h : w.1.Transcribes N inline) :
    ∃ x ms, Transcript N inline (fun e f => Realizes e f w) ms (written w) x ∧
      Mark.Thin [] w.1.node.marks ms := by
  obtain ⟨p, again⟩ := w
  cases again with
  | true =>
    obtain ⟨y, ms, -, hy, hthin⟩ := h.suffix .plus
    refine ⟨y, ms, hy.mono fun e f q hserves => ?_, hthin⟩
    rintro ⟨i, j, r, hr, rfl⟩
    have hfilled : r ≠ .empty := fun hnil => hne (hr.empty.2 hnil)
    have htwo := two_le_sequenceItems_plus hr.right hfilled i j
    refine ⟨alike_plus hserves.twin 0 0 i j hr, fun hnil => ?_, fun _ => htwo⟩
    rw [Suffix.node] at hnil
    simp [hnil, sequenceItems] at htwo
  | false =>
    obtain ⟨x, ms, hx, hthin, -⟩ := h
    exact ⟨x, ms, hx.mono fun e f q _ hq => ⟨hq, fun hnil => hne (hq.empty.2 hnil), by simp⟩, hthin⟩

/-- The marks of the nodes that a piece stands for are those of its own node, and then some of them
again. -/
theorem StandsFor.marks (h : StandsFor w qs) :
    ∃ rest, qs.flatMap Pattern.marks = w.1.node.marks ++ rest ∧ rest ⊆ w.1.node.marks := by
  cases h with
  | once p => exact ⟨[], by simp⟩
  | again p hr n =>
    refine ⟨(List.replicate (n + 1) p.node).flatMap
      Pattern.marks, by simp [List.replicate_succ], fun m hm => ?_⟩
    obtain ⟨q, hq, hm⟩ := List.mem_flatMap.1 hm
    rwa [List.eq_of_mem_replicate hq] at hm
  | @option p i b ho hb j js =>
    refine ⟨((j :: js).map fun j => Pattern.star j b).flatMap
      Pattern.marks, by simp, fun m hm => ?_⟩
    obtain ⟨q, hq, hm⟩ := List.mem_flatMap.1 hm
    obtain ⟨k, -, rfl⟩ := List.mem_map.1 hq
    rwa [ho]
  | body p hp j => exact ⟨p.node.marks, by simp [marks_parts, Pattern.marks], fun m hm => hm⟩

theorem StandsFor.two_le (h : StandsFor w qs) (hl : 2 ≤ qs.length) : w.2 := by
  cases h with
  | once p => simp at hl
  | _ => rfl

theorem Covers.filled (h : Covers ws ps) (hps : Pattern.empty ∉ ps) :
    ∀ w ∈ ws, w.1.node ≠ .empty := by
  induction h with
  | nil => simp
  | @cons w ws ps qs hs h ih =>
    rw [List.mem_append, not_or] at hps
    refine List.forall_mem_cons.2 ⟨fun hnil => hps.2 ?_, ih hps.1⟩
    cases h with
    | once p => exact List.mem_singleton.2 hnil.symm
    | again p hr n => exact List.mem_replicate.2 ⟨by simp, hnil.symm⟩
    | option p ho => cases ho.symm.trans hnil
    | body p hp j =>
      have hnil : p.node = .empty := hnil
      simp [hnil, parts]

theorem transcripts_written (h : Covers ws ps)
    (hw : ∀ w ∈ ws, w.1.node ≠ .empty ∧ w.1.Transcribes N inline) :
    ∃ xs ms, Transcripts N inline (ws.reverse.map fun w e f => Realizes e f w) ms
      (ws.reverse.map written) xs ∧ Mark.Thin [] (ps.flatMap Pattern.marks) ms := by
  induction h with
  | nil => exact ⟨[], [], .nil, .nil⟩
  | @cons w ws ps qs hs h ih =>
    obtain ⟨hne, hword⟩ := hw w (by simp)
    obtain ⟨xs, ms, hxs, hthin⟩ := ih fun w' hw' => hw w' (by simp [hw'])
    obtain ⟨x, ms', hx, hthin'⟩ := transcript_written hne hword
    obtain ⟨rest, hrest, hsub⟩ := h.marks
    refine ⟨xs ++ [x], ms ++ ms', by simpa using hxs.concat hx, ?_⟩
    rw [List.flatMap_append, hrest]
    refine hthin.append ?_
    simpa using (hthin'.mono (List.nil_subset _)).append
      (.none (List.subset_append_of_subset_left _ hsub))

variable {rs : List Pattern}

theorem Realizes.alike_all (h : List.Forall₂ (Realizes e f) ws rs) :
    List.Forall₂ (Alike e f) (ws.map pattern) rs :=
  List.forall₂_map_left_iff.2 (h.imp fun _ _ hr => hr.alike)

theorem Realizes.two_le (h : List.Forall₂ (Realizes e f) ws.reverse rs) (hcovers : Covers ws ps)
    (hl : 2 ≤ ps.length) : 2 ≤ (rs.flatMap sequenceItems).length := by
  have pos {w : Piece × Bool} {r : Pattern} (hr : Realizes e f w r) : 1 ≤ r.sequenceItems.length :=
    List.length_pos_of_ne_nil (sequenceItems_ne_nil hr.alike.right hr.filled)
  obtain ⟨rs, rfl⟩ : ∃ rs', rs = rs'.reverse := ⟨rs.reverse, by simp⟩
  cases hcovers with
  | nil => simp at hl
  | @cons w ws ps qs hs hw =>
    cases List.forall₂_reverse_iff.1 h with
    | cons hr hrest =>
      cases hs with
      | nil =>
        cases hrest
        simpa using hr.twice (hw.two_le (by simpa using hl))
      | @cons w' ws ps' qs' hs hw' =>
        cases hrest with
        | cons hr' _ =>
          have := pos hr
          have := pos hr'
          simp only [List.reverse_cons, List.flatMap_append, List.flatMap_singleton,
            List.length_append]
          omega

end Piece

namespace Pattern

open Grammar Meaning

def Transcribed (store : Store) (below : Nat → Except Fault Text) (N : Naming)
    (inline : Store → Nat → Option Pattern) (p : Pattern) : Prop :=
  Worded store below (Piece.Transcribes N inline) p

variable {store : Store} {below : Nat → Except Fault Text} {N : Naming}
  {inline : Store → Nat → Option Pattern} {A : Allowed} {K : Set Pattern} {e f : Env}
  {p q : Pattern} {i : Nat} {items : List Pattern}

theorem alike_pieces (hs : Build.Serves N e f) (hp : Normal .all (.sequence i items))
    (hun : Untripled N.sparing items) {ws : List (Piece × Bool)} (hcovers : Piece.Covers ws items)
    {qs : List Pattern} (h : List.Forall₂ (Piece.Realizes e f) ws.reverse qs) (j : Nat) :
    Alike e f (.sequence i items) (seq j qs) := by
  have hall := Piece.Realizes.alike_all h
  have hright := normal_seq j (normal_right hall)
  have hsame : (Pattern.sequence i items).denote e = (seq j qs).denote f := by
    rw [denote_sequence, denote_seq, ← map_denote hall,
      hcovers.denote_eq hs.twin.left (hun.mono List.infix_rfl hs.sparing)]
  obtain ⟨rs, hrs⟩ := seq_of_two_le j (Piece.Realizes.two_le h hcovers hp.here.1)
  rw [hrs] at hsame hright ⊢
  exact alike_plain hsame hp hright ⟨rfl, by simp⟩ ⟨rfl, by simp⟩

theorem transcribed_sequence (hK : Family A K) (hp : .sequence i items ∈ K)
    (hun : Untripled N.sparing items)
    (hw : ∀ p ∈ items, ∀ q ∈ p :: p.children, Transcribed store below N inline q) :
    Transcribed store below N inline (.sequence i items) := by
  have hnormal : Normal .all (.sequence i items) := (hK.normal _ hp).mono A.less_all
  obtain ⟨ws, hws, hall, hcovers⟩ := covers_items (P := Piece.Transcribes N inline) hK items
    (fun p hm => ⟨hK.closed _ hp p hm, hw p hm⟩) [] (by simp) .nil
  rw [List.nil_append] at hcovers
  have hfilled := hcovers.filled fun hmem => by simpa [isItem] using hnormal.here.2 _ hmem
  obtain ⟨xs, ms, hxs, hthin⟩ :=
    Piece.transcripts_written hcovers fun w hm => ⟨hfilled w hm, (hall w hm).2⟩
  refine ⟨_, by simp only [renderWith, hws, bind, Except.bind], _, ms,
    hxs.sequence.mono fun e f q hserves => ?_, ?_, fun _ => rfl⟩
  · rintro ⟨i, j, qs, hqs, rfl⟩
    have hqs := (List.forall₂_map_left_iff (f := fun w e f => Piece.Realizes e f w)).1 hqs
    exact (alike_pieces hserves hnormal hun hcovers hqs j).alt_one i
  · simpa only [marks, marksEach_eq_flatMap] using hthin

theorem transcribed_each (ps : List Pattern) (hps : ∀ p ∈ ps, Transcribed store below N inline p) :
    ∃ ts xs ms, renderEach store below ps = .ok ts ∧ Transcripts N inline
      (ps.map fun p e f => Alike e f p) ms ts xs ∧ Mark.Thin [] (ps.flatMap marks) ms := by
  induction ps with
  | nil => exact ⟨[], [], [], rfl, .nil, .nil⟩
  | cons p ps ih =>
    obtain ⟨t, ht, x, ms, hx, hthin, -⟩ := hps p (by simp)
    obtain ⟨ts, xs, ms', hts, hxs, hthin'⟩ := ih fun q hq => hps q (by simp [hq])
    exact ⟨t :: ts, x :: xs, ms ++ ms', by simp only [renderEach, ht, hts, bind, Except.bind],
      .cons hx hxs, hthin.append (hthin'.mono (List.nil_subset _))⟩

theorem transcribed_choice (hp : Normal .all (.choice i items))
    (hw : ∀ p ∈ items, Transcribed store below N inline p) :
    Transcribed store below N inline (.choice i items) := by
  obtain ⟨ts, xs, ms, hts, hxs, hthin⟩ := transcribed_each items hw
  cases items with
  | nil => simpa using hp.here.1
  | cons p ps =>
    cases hxs with
    | cons h hs =>
      refine ⟨_, by simp only [renderWith, hts, bind, Except.bind], _, _,
        (Transcripts.choice h hs).mono fun e f q _ => ?_,
        by simpa only [marks, marksEach_eq_flatMap] using hthin, fun _ => rfl⟩
      rintro ⟨j, r, rs, hrs, rfl⟩
      have hrs := (List.forall₂_map_left_iff (l := p :: ps) (f := fun p e f => Alike e f p)).1 hrs
      refine alike_choice hp j (hrs.imp fun p' r' hr => ?_)
      obtain ⟨k, y, hy, rfl⟩ := hr
      exact hy.seq_one k

theorem transcribed_suffix (s : Suffix) (hq : Transcribed store below N inline q)
    (ht : ∀ t, q.renderWith store below = .ok t →
      p.renderWith store below = .ok ((Piece.mk q t).atom ++ (Sign.suffix s).text))
    (hm : p.marks = q.marks)
    (hp : ∀ e f r i j, e.Twin f → Alike e f q r → Alike e f p (s.node i j r)) :
    Transcribed store below N inline p := by
  obtain ⟨t, htq, hq⟩ := hq
  obtain ⟨x, ms, htight, hx, hthin⟩ := Piece.Transcribes.suffix hq s
  refine ⟨_, ht t htq, x, ms, hx.mono fun e f r hserves => ?_, by rwa [hm], fun _ => htight⟩
  rintro ⟨i, j, y, hy, rfl⟩
  exact hp e f y i j hserves.twin hy

theorem transcribed_atom (a : Atom) (ha : (Lexeme.atom a).isPlain) (hp : p.Normal .pure)
    (ht : p.renderWith store below = .ok a.text) (hm : p.marks = [])
    (hmeans : ∀ e, a.pattern.denote e = p.denote e) (hempty : p ≠ .empty ∧ a.pattern ≠ .empty) :
    Transcribed store below N inline p :=
  ⟨_, ht, _, [],
    transcript_atom ha hp hmeans (by simp [hempty]), by rw [hm]; exact .nil, fun _ => rfl⟩

theorem transcribed_empty : Transcribed store below N inline .empty :=
  ⟨_, rfl, _, [], transcript_atom (a := .literal .exact []) rfl (.leaf trivial rfl)
    (fun _ => rfl) .rfl, .nil, fun _ => rfl⟩

theorem alike_wrap (ht : e.Twin f) (h : Alike e f p q) (o : Operator) (i j : Nat) :
    Alike e f (o.wrap i p) (o.wrap j q) := by
  cases o with
  | peek =>
    exact alike_plain (by simp only [Operator.wrap, denote, h.shape.same])
      (.single trivial rfl h.left) (.single trivial rfl h.right) ⟨rfl, by simp [Operator.wrap]⟩
      ⟨rfl, by simp [Operator.wrap]⟩
  | not =>
    exact alike_plain (by simp only [Operator.wrap, denote, h.shape.same])
      (.single trivial rfl h.left) (.single trivial rfl h.right) ⟨rfl, by simp [Operator.wrap]⟩
      ⟨rfl, by simp [Operator.wrap]⟩
  | search =>
    exact alike_plain (by simp only [Operator.wrap, denote, h.shape.same, ht.subject])
      (.single trivial rfl h.left) (.single trivial rfl h.right) ⟨rfl, by simp [Operator.wrap]⟩
      ⟨rfl, by simp [Operator.wrap]⟩

theorem transcribed_operator (o : Operator) (hq : Transcribed store below N inline q) :
    Transcribed store below N inline (o.wrap i q) := by
  obtain ⟨t, ht, x, ms, hx, hthin, -⟩ := hq
  have htext : (o.wrap i q).renderWith store below = .ok ((Sign.operator o).text ++ t) := by
    cases o <;> simp only [Operator.wrap, renderWith, ht] <;> rfl
  have hmarks : (o.wrap i q).marks = q.marks := by cases o <;> rfl
  have hprefixed : (o.wrap i q).isPrefixed := by cases o <;> rfl
  refine ⟨_, htext, _, ms,
    (hx.operator o).mono fun e f r hserves => ?_, by rwa [hmarks], fun h => absurd hprefixed h⟩
  rintro ⟨j, y, hy, rfl⟩
  exact alike_wrap hserves.twin hy o i j

theorem literal_ne_empty {i : Nat} {how : Comparison} {t : Text}
    (h : (Pattern.literal i how t).NormalNode A) : (Atom.literal how t).pattern ≠ .empty := by
  match how, t, h with
  | .exact, _ :: _ :: _, _ => simp [Atom.pattern, text, term]
  | .ignoreCase, _ :: _, _ => simp [Atom.pattern, text]
  | .ignoreStyle, _ :: _, _ => simp [Atom.pattern, text]
  | .exact, [], h => simp [NormalNode] at h
  | .exact, [_], h => simp [NormalNode] at h
  | .ignoreCase, [], h => exact absurd rfl h
  | .ignoreStyle, [], h => exact absurd rfl h

section

variable (hi : Build.Spares inline) (hN : ∀ r, N.known r → store.ruleName r = .ok (N.name r).text)
  (hK : Family N.capturing K) (hun : ∀ i items, .sequence i items ∈ K → Untripled N.sparing items)
  (hp : p ∈ K)
include hi hN hK hun hp

theorem transcribed_node
    (hw : ∀ q ∈ p.children, ∀ r ∈ q :: q.children, Transcribed store below N inline r) :
    Transcribed store below N inline p := by
  have child {q : Pattern} (hq : q ∈ p.children) : Transcribed store below N inline q :=
    hw q hq q (by simp)
  have hnormal : p.Normal .all := (hK.normal p hp).mono (Allowed.less_all _)
  have here := (hK.normal p hp).here
  have any : Transcribed store below N inline .any :=
    transcribed_atom .any rfl (.leaf trivial rfl) rfl rfl (fun _ => rfl) (by simp [Atom.pattern])
  have char {i c : Nat} : Transcribed store below N inline (.char i c) :=
    transcribed_atom (.literal .exact [c]) rfl (.leaf trivial rfl) rfl rfl (fun _ => rfl)
      (by simp [Atom.pattern, text, term])
  have set {i : Nat} {s : RuneSet} {sense : Sense} (h : sense = .ofBool sense.isNegated) :
      Transcribed store below N inline (.set i s sense) :=
    transcribed_atom (.set s sense.isNegated) rfl (.leaf h rfl) rfl rfl (denote_set h)
      (by simp [Atom.pattern])
  cases p with
  | empty => exact transcribed_empty
  | any => exact any
  | anyRune =>
    exact transcribed_atom .anyRune rfl (.leaf trivial rfl) rfl rfl (fun _ => rfl)
      (by simp [Atom.pattern])
  | newline =>
    exact transcribed_atom (.builtin .newline) rfl (.leaf trivial rfl) rfl rfl (fun _ => rfl)
      (by simp [Atom.pattern, Builtin.pattern])
  | startAnchor =>
    exact transcribed_atom .startAnchor rfl (.leaf trivial rfl) rfl rfl (fun _ => rfl)
      (by simp [Atom.pattern])
  | category c =>
    exact transcribed_atom (.builtin (.category c)) rfl (.leaf trivial rfl) rfl rfl (fun _ => rfl)
      (by simp [Atom.pattern, Builtin.pattern])
  | literal i how t =>
    refine transcribed_atom (.literal how t) rfl (.leaf ?_ rfl) rfl rfl (denote_literal here)
      ⟨by simp, literal_ne_empty here⟩
    cases how <;> exact here
  | char i c => exact char
  | set i s sense => exact set here
  | call i r => exact ⟨_, hN r here, _, [], transcript_name hi here i, .nil, fun _ => rfl⟩
  | backref i how slot =>
    exact ⟨_, rfl, _, _, transcript_backref i how here, .refl _ _, fun _ => rfl⟩
  | sequence i items => exact transcribed_sequence hK hp (hun i items hp) hw
  | choice i items => exact transcribed_choice hnormal fun q hq => child hq
  | star i q =>
    exact transcribed_suffix (q := q) .star (child (by simp [children]))
      (fun t ht => by simp only [renderWith, ht]; rfl) rfl fun e f r _ j ht h => h.star ht here j
  -- A run of one kind of character is written as the repetition that it came from.
  | starChar i c =>
    exact transcribed_suffix (q := .char i c) .star char (fun t ht => by cases ht; rfl) rfl
      fun e f r _ j ht h => alike_repeated ht i j h
  | starSet i s sense =>
    exact transcribed_suffix (q := .set i s sense) .star (set here)
      (fun t ht => by cases ht; rfl) rfl fun e f r _ j ht h => alike_repeated ht i j h
  | starAny =>
    exact transcribed_suffix (q := .any) .star any (fun t ht => by cases ht; rfl) rfl
      fun e f r _ j ht h => alike_repeated ht 0 j h
  | option i q =>
    exact transcribed_suffix (q := q) .opt (child (by simp [children]))
      (fun t ht => by simp only [renderWith, ht]; rfl) rfl fun e f r _ j _ h =>
      h.option here.1 here.2 j
  | peek i q => exact transcribed_operator .peek (child (by simp [children]))
  | not i q => exact transcribed_operator .not (child (by simp [children]))
  | search i q => exact transcribed_operator .search (child (by simp [children]))
  | capture i q =>
    obtain ⟨t, ht, x, ms, hx, hthin, -⟩ := child (q := q) (by simp [children])
    exact ⟨_, by simp only [renderWith, ht]; rfl, _, _, hx.capture i,
      .keep (hthin.mono (List.nil_subset _)), fun _ => rfl⟩
  | capturedSearch i q =>
    obtain ⟨t, ht, x, ms, hx, hthin, -⟩ := child (q := q) (by simp [children])
    exact ⟨_, by simp only [renderWith, ht]; rfl, _, _, hx.captured i,
      .keep (hthin.mono (List.nil_subset _)), fun h => absurd rfl h⟩
  | valued i how v => exact here.elim
  | rule i r => exact here.elim
  | grammar i start others => exact here.elim

theorem transcribed : Transcribed store below N inline p := by
  suffices ∀ q ∈ p :: p.children, Transcribed store below N inline q from this p (by simp)
  induction p using induction_children with
  | node p ih =>
    have hc (q : Pattern) (hq : q ∈ p.children) := ih q hq (hK.closed p hp q hq)
    exact List.forall_mem_cons.2
      ⟨transcribed_node hi hN hK hun hp hc, fun q hq => hc q hq q (by simp)⟩

end

end Pattern

end PegMatch

import PegMatch.Proofs.Pieces
import PegMatch.Proofs.Stream
import PegMatch.Proofs.SyntaxMeaning

set_option autoImplicit false

namespace PegMatch

namespace Grammar

open Meaning Token

/-- The text is these tokens, in front of anything that ends the last of them. -/
def Spelled (ls : List Lexeme) (t : Text) : Prop :=
  ∀ more rest, Boundary rest → Stream more rest → Stream (ls ++ more) (t ++ rest)

def Begun (t : Text) : Prop :=
  ∃ c u, t = c :: u ∧ Solid c

theorem Begun.head {t : Text} (h : Begun t) (rest : Text) : ∀ c ∈ (t ++ rest).head?, Solid c := by
  obtain ⟨c, u, rfl, hc⟩ := h
  rintro _ ⟨rfl⟩
  exact hc

theorem Begun.append {t : Text} (h : Begun t) (u : Text) : Begun (t ++ u) := by
  obtain ⟨c, v, rfl, hc⟩ := h
  exact ⟨c, v ++ u, rfl, hc⟩

theorem Lexeme.Spells.begun {l : Lexeme} {t : Text} (h : l.Spells t) : Begun t :=
  h.head

theorem Stream.blank {ls : List Lexeme} {c : Nat} {t : Text} (hc : isSpace c) (h : Stream ls t) :
    Stream ls (c :: t) := by
  cases h with
  | nil layout => exact .nil (.blank hc layout)
  | cons layout spells apart more => exact .cons (.blank hc layout) spells apart more

theorem boundary_cons {c : Nat} (h : c ∈ Text.ofString ")?*+\x7d") (rest : Text) :
    Boundary (c :: rest) := by
  have hall : ∀ k ∈ Text.ofString ")?*+\x7d", (isNameRune k = false ∧ isQuote k = false ∧
      k ≠ '$'.toNat ∧ k ≠ '@'.toNat) ∧ isSpace k = false ∧ k ≠ '<'.toNat := by decide
  obtain ⟨⟨hn, hq, hd, ha⟩, hs, hl⟩ := hall c h
  refine ⟨?_, by simpa [hs] using hl⟩
  rintro _ ⟨rfl⟩
  exact ⟨by simp [hn], by simp [hq], hd, ha⟩

section

variable {ls ls' : List Lexeme} {t t' u : Text} {l : Lexeme}

theorem spelled_nil : Spelled [] [] :=
  fun _ _ _ h => h

theorem Lexeme.Spells.spelled (h : l.Spells t) : Spelled [l] t := by
  intro more rest hb hs
  exact .cons .nil h (.inr (.inl hb)) hs

theorem Spelled.after (h : Spelled ls t) (hl : l.Spells u) (he : ∀ rest, l.EndsBefore (t ++ rest)) :
    Spelled (l :: ls) (u ++ t) := by
  intro more rest hb hs
  rw [List.append_assoc]
  change Stream _ ([] ++ (u ++ (t ++ rest)))
  exact .cons .nil hl (he rest) (h more rest hb hs)

theorem Spelled.behind (h : Spelled ls t) (hl : l.Spells u) (hc : l.isClosed) :
    Spelled (l :: ls) (u ++ t) :=
  h.after hl fun _ => .inl hc

theorem Spelled.blank (h : Spelled ls t) : Spelled ls (' '.toNat :: t) :=
  fun more rest hb hs => (h more rest hb hs).blank rfl

theorem Spelled.append (h : Spelled ls t) (h' : Spelled ls' t')
    (hb : ∀ rest, Boundary (t' ++ rest)) : Spelled (ls ++ ls') (t ++ t') := by
  intro more rest hr hs
  rw [List.append_assoc, List.append_assoc]
  exact h _ _ (hb rest) (h' more rest hr hs)

theorem Spelled.spaced (h : Spelled ls t) (h' : Spelled ls' t') (hb : Begun t') :
    Spelled (ls ++ ls') (t ++ ' '.toNat :: t') := by
  have hlayout : Layout [' '.toNat] := .blank rfl .nil
  exact h.append h'.blank fun rest => hlayout.boundary (by simp) (hb.head rest)

theorem Spelled.closed (h : Spelled ls t) {s : Sign} {c : Nat} (hs : s.text = [c])
    (hc : c ∈ Text.ofString ")?*+\x7d") : Spelled (ls ++ [.sign s]) (t ++ [c]) := by
  refine h.append (Lexeme.Spells.spelled (l := .sign s) hs.symm) fun rest => boundary_cons hc rest

end

structure Item.Written (x : Item) (t : Text) : Prop where
  spelled : Spelled x.lexemes t
  begun : Begun t

namespace Item.Written

variable {x : Item} {t : Text}

theorem atom (a : Atom) : (Item.suffixed (.atom a) []).Written a.text where
  spelled := by simpa [Item.lexemes, Primary.lexemes] using Lexeme.Spells.spelled (l := .atom a) rfl
  begun := Lexeme.Spells.begun (l := .atom a) rfl

theorem name (n : Name) : (Item.suffixed (.name n) []).Written n.text where
  spelled := by simpa [Item.lexemes, Primary.lexemes] using Lexeme.Spells.spelled (l := .name n) rfl
  begun := Lexeme.Spells.begun (l := .name n) rfl

theorem group {y : Expression} (h : Spelled y.lexemes t) :
    (Item.suffixed (.group y) []).Written ('('.toNat :: t ++ [')'.toNat]) where
  spelled := by
    have hclosed := h.closed (s := .closeGroup) rfl (by decide)
    rw [Item.lexemes, Primary.lexemes, List.map_nil, List.append_nil]
    exact hclosed.behind (l := .sign .openGroup) rfl rfl
  begun := Begun.append (Lexeme.Spells.begun (l := .sign .openGroup) rfl) (t ++ [')'.toNat])

theorem operator (h : x.Written t) (o : Operator) :
    (Item.operator o x).Written ((Sign.operator o).text ++ t) where
  spelled := by
    rw [Item.lexemes]
    exact h.spelled.behind (l := .sign (.operator o)) rfl rfl
  begun := Begun.append (Lexeme.Spells.begun (l := .sign (.operator o)) rfl) t

theorem lexemes_suffix (p : Primary) (ss : List Suffix) (s : Suffix) :
    (Item.suffixed p (ss ++ [s])).lexemes = (Item.suffixed p ss).lexemes ++
      [.sign (.suffix s)] := by
  simp [Item.lexemes]

theorem suffix {p : Primary} {ss : List Suffix} (h : (Item.suffixed p ss).Written t) (s : Suffix) :
    (Item.suffixed p (ss ++ [s])).Written (t ++ (Sign.suffix s).text) where
  spelled := by
    obtain ⟨c, hc, hmem⟩ : ∃ c, (Sign.suffix s).text = [c] ∧ c ∈ Text.ofString ")?*+\x7d" := by
      cases s <;> exact ⟨_, rfl, by decide⟩
    rw [lexemes_suffix, hc]
    exact h.spelled.closed hc hmem
  begun := h.begun.append _

theorem joined_cons (sep t : Text) (ts : List Text) :
    ∃ u, Pattern.joined sep (t :: ts) = t ++ u := by
  cases ts with
  | nil => exact ⟨[], by simp [Pattern.joined]⟩
  | cons t' ts => exact ⟨sep ++ Pattern.joined sep (t' :: ts), by simp [Pattern.joined]⟩

theorem sequence {xs : List Item} {ts : List Text} (h : List.Forall₂ Item.Written xs ts) :
    Spelled (itemLexemes xs) (Pattern.joined [' '.toNat] ts) := by
  induction h with
  | nil => exact spelled_nil
  | cons h hs ih =>
    rw [itemLexemes]
    cases hs with
    | nil => simpa [itemLexemes, Pattern.joined] using h.spelled
    | @cons x' t' xs' ts' h' hs' =>
      obtain ⟨u, hu⟩ := joined_cons [' '.toNat] t' ts'
      have hjoined (t : Text) : Pattern.joined [' '.toNat] (t :: t' :: ts') =
          t ++ ' '.toNat :: Pattern.joined [' '.toNat] (t' :: ts') := by
        simp [Pattern.joined]
      rw [hjoined]
      exact h.spelled.spaced ih (hu ▸ h'.begun.append u)

theorem choice {xs : List Item} {ts : List Text} (h : x.Written t)
    (hs : List.Forall₂ Item.Written xs ts) :
    Spelled (x.lexemes ++ otherLexemes (xs.map fun x => [x]))
      (Pattern.joined (Text.ofString " / ") (t :: ts)) := by
  induction hs generalizing x t with
  | nil => simpa [otherLexemes, Pattern.joined] using h.spelled
  | @cons x' t' xs' ts' h' hs' ih =>
    have hrest := (ih h').blank.behind (l := .sign .slash) rfl rfl
    have hbegun := Begun.append (Lexeme.Spells.begun (l := .sign .slash) rfl)
      (' '.toNat :: Pattern.joined (Text.ofString " / ") (t' :: ts'))
    have hjoined : Pattern.joined (Text.ofString " / ") (t :: t' :: ts') = t ++ ' '.toNat ::
        (Sign.slash.text ++ ' '.toNat :: Pattern.joined (Text.ofString " / ") (t' :: ts')) := by
      simp only [Pattern.joined, List.append_assoc]
      rfl
    rw [List.map_cons, otherLexemes, itemLexemes, itemLexemes, List.append_nil, hjoined]
    exact h.spelled.spaced hrest hbegun

end Item.Written

structure Naming where
  known : Nat → Prop
  name : Nat → Name
  /-- The rules of which it is known that they capture nothing. -/
  quiet : Nat → Prop := fun _ => False

namespace Naming

variable (N : Naming)

def allowed : Allowed where
  call := N.known
  capture _ := False
  backref _ := False

structure Agrees (e : Env) (rule : Text → Meaning) : Prop where
  inside : e.Inside
  call : ∀ r, N.known r → e.call r = rule (N.name r).text
  keeps : ∀ r, N.known r → Meaning.Keeps (rule (N.name r).text)

variable {N}

theorem Agrees.tame {e : Env} {rule : Text → Meaning} (h : N.Agrees e rule) :
    N.allowed.Less e.tame := by
  refine ⟨fun r hr => ?_, fun _ h => h.elim, fun _ h => h.elim⟩
  change Meaning.Keeps (e.call r)
  rw [h.call r hr]
  exact h.keeps r hr

variable (N)

def Admits (l : Lexeme) : Prop :=
  l.isPlain ∧ ∀ n, l = .name n → ∃ r, N.known r ∧ n = N.name r

variable {N}

theorem admits_sign {s : Sign} (h : (Lexeme.sign s).isPlain) : N.Admits (.sign s) :=
  ⟨h, fun _ hn => by cases hn⟩

end Naming

structure Rendition (N : Naming) (M : Env → Meaning) (t : Text) (x : Item) : Prop where
  spelled : Spelled x.lexemes t
  begun : Begun t
  admits : ∀ l ∈ x.lexemes, N.Admits l
  means : ∀ (e : Env) (rule : Text → Meaning), N.Agrees e rule → x.denote e rule = M e

def Item.isTight : Item → Bool
  | .suffixed .. => true
  | _ => false

def Item.alone (x : Item) : Expression :=
  .mk [x] []

theorem Item.lexemes_alone (x : Item) : x.alone.lexemes = x.lexemes := by
  simp [alone, Expression.lexemes, itemLexemes, otherLexemes]

theorem lexemes_items (xs : List Item) : (Expression.mk xs []).lexemes = itemLexemes xs := by
  simp [Expression.lexemes, otherLexemes]

theorem lexemes_alternatives (x : Item) (xs : List Item) :
    (Expression.mk [x] (xs.map fun x => [x])).lexemes = x.lexemes ++ otherLexemes
      (xs.map fun x => [x]) := by
  simp [Expression.lexemes, itemLexemes]

theorem Item.denote_alone (e : Env) (rule : Text → Meaning) (x : Item) :
    x.alone.denote e rule = x.denote e rule := by
  simp [alone, Expression.denote, denoteItems, denoteOthers, firstOf, inOrder]

section

variable {N : Naming} {M : Env → Meaning} {t : Text} {x : Item}

theorem Rendition.written (h : Rendition N M t x) : x.Written t :=
  ⟨h.spelled, h.begun⟩

theorem Rendition.congr {M' : Env → Meaning} (h : Rendition N M t x)
    (hM : ∀ (e : Env) (rule : Text → Meaning), N.Agrees e rule → M e = M' e) : Rendition N M' t x :=
  ⟨h.spelled, h.begun, h.admits, fun e rule he => (h.means e rule he).trans (hM e rule he)⟩

theorem rendition_atom (a : Atom) (ha : (Lexeme.atom a).isPlain) :
    Rendition N (fun e => a.pattern.denote e) a.text (.suffixed (.atom a) []) where
  spelled := (Item.Written.atom a).spelled
  begun := (Item.Written.atom a).begun
  admits := by
    have hadmits : N.Admits (.atom a) := ⟨ha, fun _ hn => by cases hn⟩
    simpa [Item.lexemes, Primary.lexemes] using hadmits
  means e rule _ := by rw [Item.denote, Primary.denote]; rfl

theorem rendition_name {r : Nat} (hr : N.known r) :
    Rendition N (fun e => e.call r) (N.name r).text (.suffixed (.name (N.name r)) []) where
  spelled := (Item.Written.name (N.name r)).spelled
  begun := (Item.Written.name (N.name r)).begun
  admits := by
    have hadmits : N.Admits (.name (N.name r)) := ⟨rfl, fun _ hn => by cases hn; exact ⟨r, hr, rfl⟩⟩
    simpa [Item.lexemes, Primary.lexemes] using hadmits
  means e rule he := by
    rw [Item.denote, Primary.denote]
    exact (he.call r hr).symm

theorem rendition_group {y : Expression} (hs : Spelled y.lexemes t)
    (ha : ∀ l ∈ y.lexemes, N.Admits l)
    (hm : ∀ (e : Env) (rule : Text → Meaning), N.Agrees e rule → y.denote e rule = M e) :
    Rendition N M ('('.toNat :: t ++ [')'.toNat]) (.suffixed (.group y) []) where
  spelled := (Item.Written.group hs).spelled
  begun := (Item.Written.group hs).begun
  admits := by
    intro l hl
    simp only [Item.lexemes, Primary.lexemes, List.map_nil, List.append_nil, List.mem_cons,
      List.mem_append, List.not_mem_nil, or_false] at hl
    rcases hl with rfl | hl | rfl
    · exact Naming.admits_sign rfl
    · exact ha l hl
    · exact Naming.admits_sign rfl
  means e rule he := by
    rw [Item.denote, Primary.denote]
    exact hm e rule he

theorem Rendition.group (h : Rendition N M t x) :
    Rendition N M ('('.toNat :: t ++ [')'.toNat]) (.suffixed (.group x.alone) []) := by
  refine rendition_group ?_ ?_ fun e rule he => ?_
  · rw [Item.lexemes_alone]
    exact h.spelled
  · rw [Item.lexemes_alone]
    exact h.admits
  · rw [Item.denote_alone]
    exact h.means e rule he

theorem Rendition.operator (h : Rendition N M t x) (o : Operator) :
    Rendition N (fun e => o.denote e.subject (M e)) ((Sign.operator o).text ++ t)
      (.operator o x) where
  spelled := (h.written.operator o).spelled
  begun := (h.written.operator o).begun
  admits := by
    rw [Item.lexemes]
    exact List.forall_mem_cons.2 ⟨Naming.admits_sign rfl, h.admits⟩
  means e rule he := by rw [Item.denote, h.means e rule he]

theorem Rendition.suffix (h : Rendition N M t x) (hx : x.isTight) (s : Suffix) :
    ∃ y, y.isTight ∧
      Rendition N (fun e => s.denote e.subject (M e)) (t ++ (Sign.suffix s).text) y := by
  cases x with
  | suffixed p ss =>
    have hwritten := h.written.suffix s
    refine ⟨.suffixed p (ss ++ [s]), rfl, hwritten.spelled, hwritten.begun, ?_, fun e rule he => ?_⟩
    · rw [Item.Written.lexemes_suffix]
      exact List.forall_mem_append.2
        ⟨h.admits, List.forall_mem_singleton.2 (Naming.admits_sign rfl)⟩
    · rw [← h.means e rule he, Item.denote, Item.denote, List.foldl_append]
      rfl
  | _ => cases hx

end

inductive Renditions (N : Naming) : List (Env → Meaning) → List Text → List Item → Prop where
  | nil : Renditions N [] [] []
  | cons {M : Env → Meaning} {t : Text} {x : Item} {Ms : List (Env → Meaning)} {ts : List Text}
      {xs : List Item} (h : Rendition N M t x) (hs : Renditions N Ms ts xs) :
      Renditions N (M :: Ms) (t :: ts) (x :: xs)

namespace Renditions

variable {N : Naming} {M : Env → Meaning} {Ms : List (Env → Meaning)} {t : Text} {ts : List Text}
  {x : Item} {xs : List Item}

theorem written (h : Renditions N Ms ts xs) : List.Forall₂ Item.Written xs ts := by
  induction h with
  | nil => exact .nil
  | cons h _ ih => exact .cons h.written ih

theorem admits_sequence (h : Renditions N Ms ts xs) : ∀ l ∈ itemLexemes xs, N.Admits l := by
  induction h with
  | nil => simp [itemLexemes]
  | cons h _ ih =>
    rw [itemLexemes]
    exact List.forall_mem_append.2 ⟨h.admits, ih⟩

theorem means_sequence (h : Renditions N Ms ts xs) {e : Env} {rule : Text → Meaning}
    (he : N.Agrees e rule) : denoteItems e rule xs = Ms.map (· e) := by
  induction h with
  | nil => rfl
  | cons h _ ih => rw [denoteItems, ih, h.means e rule he, List.map_cons]

theorem sequence (h : Renditions N Ms ts xs) :
    Rendition N (fun e => inOrder (Ms.map (· e)))
      ('('.toNat :: Pattern.joined [' '.toNat] ts ++ [')'.toNat])
      (.suffixed (.group (.mk xs [])) []) := by
  refine rendition_group (lexemes_items xs ▸ Item.Written.sequence h.written)
    (lexemes_items xs ▸ h.admits_sequence) fun e rule he => ?_
  simp [Expression.denote, denoteOthers, firstOf, h.means_sequence he]

theorem admits_choice (hs : Renditions N Ms ts xs) :
    ∀ l ∈ otherLexemes (xs.map fun x => [x]), N.Admits l := by
  induction hs with
  | nil => simp [otherLexemes]
  | cons h _ ih =>
    rw [List.map_cons, otherLexemes, itemLexemes, itemLexemes, List.append_nil]
    exact List.forall_mem_cons.2 ⟨Naming.admits_sign rfl, List.forall_mem_append.2 ⟨h.admits, ih⟩⟩

theorem means_choice (hs : Renditions N Ms ts xs) {e : Env} {rule : Text → Meaning}
    (he : N.Agrees e rule) : denoteOthers e rule (xs.map fun x => [x]) = Ms.map (· e) := by
  induction hs with
  | nil => rfl
  | cons h _ ih =>
    rw [List.map_cons, denoteOthers, ih, denoteItems, denoteItems, h.means e rule he, List.map_cons]
    simp [inOrder]

theorem choice (h : Rendition N M t x) (hs : Renditions N Ms ts xs) :
    Rendition N (fun e => firstOf (M e :: Ms.map (· e)))
      ('('.toNat :: Pattern.joined (Text.ofString " / ") (t :: ts) ++ [')'.toNat])
      (.suffixed (.group (.mk [x] (xs.map fun x => [x]))) []) := by
  refine rendition_group (lexemes_alternatives x xs ▸ h.written.choice hs.written) ?_
    fun e rule he => ?_
  · rw [lexemes_alternatives]
    exact List.forall_mem_append.2 ⟨h.admits, hs.admits_choice⟩
  · simp [Expression.denote, denoteItems, h.means e rule he, hs.means_choice he, inOrder]

end Renditions

end Grammar

namespace Pattern

open Grammar Meaning

def Renders (N : Naming) (p : Pattern) (t : Text) : Prop :=
  ∃ x, Rendition N (fun e => p.denote e) t x ∧ (¬ p.isPrefixed → x.isTight)

variable {N : Naming} {p : Pattern} {t : Text}

theorem Renders.atom (h : Renders N p t) :
    ∃ x, x.isTight ∧ Rendition N (fun e => p.denote e) (Piece.mk p t).atom x := by
  obtain ⟨x, hx, htight⟩ := h
  unfold Piece.atom
  split
  · exact ⟨_, rfl, hx.group⟩
  · next hp => exact ⟨x, htight hp, hx⟩

theorem Renders.suffix (h : Renders N p t) (s : Suffix) :
    ∃ y, y.isTight ∧ Rendition N (fun e => s.denote e.subject (p.denote e))
      ((Piece.mk p t).atom ++ (Sign.suffix s).text) y := by
  obtain ⟨x, htight, hx⟩ := h.atom
  exact hx.suffix htight s

theorem renders_atom {a : Atom} (ha : (Lexeme.atom a).isPlain)
    (h : ∀ e, a.pattern.denote e = p.denote e) : Renders N p a.text :=
  ⟨_, (rendition_atom a ha).congr fun e _ _ => h e, fun _ => rfl⟩

end Pattern

namespace Piece

open Grammar Meaning

variable {N : Naming} {w : Piece × Bool} {ws : List (Piece × Bool)}

theorem renders_written (hn : w.1.node.Normal N.allowed) (h : w.1.node.Renders N w.1.text) :
    ∃ x, Rendition N (fun e => (pattern w).denote e) (written w) x := by
  obtain ⟨⟨p, t⟩, again⟩ := w
  cases again with
  | true =>
    obtain ⟨y, -, hy⟩ := h.suffix .plus
    refine ⟨y, hy.congr fun e rule he => ?_⟩
    rw [pattern, if_pos rfl, Pattern.denote_plus,
      Pattern.denote_repeated he.inside 0 (hn.mono he.tame)]
    rfl
  | false =>
    obtain ⟨x, hx, -⟩ := h
    exact ⟨x, hx⟩

theorem renditions_written (h : ∀ w ∈ ws, w.1.node.Normal N.allowed ∧ w.1.node.Renders N w.1.text) :
    ∃ xs, Renditions N ((ws.map pattern).map fun p e => p.denote e) (ws.map written) xs := by
  induction ws with
  | nil => exact ⟨[], .nil⟩
  | cons w ws ih =>
    obtain ⟨hn, hr⟩ := h w (by simp)
    obtain ⟨x, hx⟩ := renders_written hn hr
    obtain ⟨xs, hxs⟩ := ih fun w hw => h w (by simp [hw])
    exact ⟨x :: xs, .cons hx hxs⟩

end Piece

namespace Pattern

open Grammar Meaning

def Writes (store : Store) (below : Nat → Except Fault Text) (N : Naming) (p : Pattern) : Prop :=
  Worded store below (fun w => w.node.Renders N w.text) p

variable {store : Store} {below : Nat → Except Fault Text} {N : Naming} {K : Set Pattern}
  {p : Pattern}

theorem writes_each (ps : List Pattern) (hps : ∀ p ∈ ps, Writes store below N p) :
    ∃ ts xs, renderEach store below ps = .ok ts ∧
      Renditions N (ps.map fun p e => p.denote e) ts xs := by
  induction ps with
  | nil => exact ⟨[], [], rfl, .nil⟩
  | cons p ps ih =>
    obtain ⟨t, ht, x, hx, -⟩ := hps p (by simp)
    obtain ⟨ts, xs, hts, hxs⟩ := ih fun q hq => hps q (by simp [hq])
    exact ⟨t :: ts, x :: xs, by simp only [renderEach, ht, hts, bind, Except.bind], .cons hx hxs⟩

theorem writes_sequence (hK : Family N.allowed K) {i : Nat} {items : List Pattern}
    (hp : .sequence i items ∈ K) (hw : ∀ p ∈ items, ∀ q ∈ p :: p.children, Writes store below N q) :
    Writes store below N (.sequence i items) := by
  obtain ⟨ws, hws, hall, hcovers⟩ := covers_items (P := fun w => w.node.Renders N w.text) hK items
    (fun p hm => ⟨hK.closed _ hp p hm, hw p hm⟩) [] (by simp) .nil
  have hrendered : ∀ w ∈ ws.reverse, w.1.node.Normal N.allowed ∧ w.1.node.Renders N w.1.text :=
    fun w hm =>
    ⟨hK.normal _ (hall w (List.mem_reverse.1 hm)).1, (hall w (List.mem_reverse.1 hm)).2⟩
  obtain ⟨xs, hxs⟩ := Piece.renditions_written hrendered
  refine ⟨_, by simp only [renderWith, hws, bind, Except.bind], _,
    hxs.sequence.congr fun e rule he => ?_, fun _ => rfl⟩
  have hcalm : Untripled e.tame items := fun p q r hin _ =>
    ((hK.normal _ hp).child (hin.subset (by simp))).mono he.tame
  rw [List.nil_append] at hcovers
  rw [denote_sequence, ← Piece.Covers.denote_eq he.inside hcovers hcalm]
  exact congrArg inOrder (List.map_map ..)

theorem writes_choice {i : Nat} {items : List Pattern} (hne : items ≠ [])
    (hw : ∀ p ∈ items, Writes store below N p) : Writes store below N (.choice i items) := by
  obtain ⟨ts, xs, hts, hxs⟩ := writes_each items hw
  match items, ts, xs, hxs, hne with
  | p :: ps, t :: ts, x :: xs, .cons h hs, _ =>
    refine ⟨_, by simp only [renderWith, hts, bind, Except.bind], _,
      (Renditions.choice h hs).congr fun e _ _ => ?_, fun _ => rfl⟩
    rw [denote_choice, List.map_map]
    rfl

theorem writes_suffix {q : Pattern} (s : Suffix) (hq : Writes store below N q)
    (ht : ∀ t, q.renderWith store below = .ok t →
      p.renderWith store below = .ok ((Piece.mk q t).atom ++ (Sign.suffix s).text))
    (hp : ∀ e, p.denote e = s.denote e.subject (q.denote e)) : Writes store below N p := by
  obtain ⟨t, htq, hr⟩ := hq
  obtain ⟨x, htight, hx⟩ := hr.suffix s
  exact ⟨_, ht t htq, x, hx.congr fun e _ _ => (hp e).symm, fun _ => htight⟩

theorem writes_operator {q : Pattern} (o : Operator) (hq : Writes store below N q)
    (ht : ∀ t, q.renderWith store below = .ok t →
      p.renderWith store below = .ok ((Sign.operator o).text ++ t))
    (hp : ∀ e, p.denote e = o.denote e.subject (q.denote e)) (hpre : p.isPrefixed) :
    Writes store below N p := by
  obtain ⟨t, htq, x, hx, -⟩ := hq
  exact ⟨_, ht t htq, _, (hx.operator o).congr fun e _ _ => (hp e).symm, fun h => absurd hpre h⟩

theorem writes_atom (a : Atom) (ha : (Lexeme.atom a).isPlain)
    (ht : p.renderWith store below = .ok a.text) (hp : ∀ e, a.pattern.denote e = p.denote e) :
    Writes store below N p :=
  ⟨_, ht, renders_atom ha hp⟩

theorem denote_set {i : Nat} {s : RuneSet} {sense : Sense} (h : sense = .ofBool sense.isNegated)
    (e : Env) :
    (Atom.set s sense.isNegated).pattern.denote e = (Pattern.set i s sense).denote e := by
  simp only [Atom.pattern, ← h]
  rfl

theorem denote_literal {A : Allowed} {i : Nat} {how : Comparison} {t : Text}
    (h : (Pattern.literal i how t).NormalNode A) (e : Env) :
    (Atom.literal how t).pattern.denote e = (Pattern.literal i how t).denote e := by
  match how, t, h with
  | .exact, _ :: _ :: _, _ => rfl
  | .ignoreCase, _ :: _, _ => rfl
  | .ignoreStyle, _ :: _, _ => rfl
  | .exact, [], h => simp [NormalNode] at h
  | .exact, [_], h => simp [NormalNode] at h
  | .ignoreCase, [], h => exact absurd rfl h
  | .ignoreStyle, [], h => exact absurd rfl h

theorem writes_node (hN : ∀ r, N.known r → store.ruleName r = .ok (N.name r).text)
    (hK : Family N.allowed K) (hp : p ∈ K)
    (hw : ∀ q ∈ p.children, ∀ r ∈ q :: q.children, Writes store below N r) :
    Writes store below N p := by
  have child {q : Pattern} (hq : q ∈ p.children) : Writes store below N q := hw q hq q (by simp)
  have here := (hK.normal p hp).here
  cases p with
  | empty => exact writes_atom (.literal .exact []) rfl rfl fun _ => rfl
  | any => exact writes_atom .any rfl rfl fun _ => rfl
  | anyRune => exact writes_atom .anyRune rfl rfl fun _ => rfl
  | newline => exact writes_atom (.builtin .newline) rfl rfl fun _ => rfl
  | startAnchor => exact writes_atom .startAnchor rfl rfl fun _ => rfl
  | category c => exact writes_atom (.builtin (.category c)) rfl rfl fun _ => rfl
  | literal i how t => exact writes_atom (.literal how t) rfl rfl (denote_literal here)
  | char i c => exact writes_atom (.literal .exact [c]) rfl rfl fun _ => rfl
  | set i s sense => exact writes_atom (.set s sense.isNegated) rfl rfl (denote_set here)
  | call i r => exact ⟨_, hN r here, _, rendition_name here, fun _ => rfl⟩
  | sequence i items => exact writes_sequence hK hp hw
  | choice i items =>
    refine writes_choice (fun hnil => ?_) fun q hq => child hq
    have hlength : 2 ≤ items.length := here.1
    simp [hnil] at hlength
  | star i q =>
    exact writes_suffix .star (child (by simp [children]))
      (fun t ht => by simp only [renderWith, ht]; rfl) fun _ => rfl
  -- A run of one kind of character is written as the repetition that it came from.
  | starChar i c =>
    exact writes_suffix (q := .char i c) .star
      (writes_atom (.literal .exact [c]) rfl rfl fun _ => rfl) (fun t ht => by cases ht; rfl)
      fun e => (many_one _).symm
  | starSet i s sense =>
    exact writes_suffix (q := .set i s sense) .star
      (writes_atom (.set s sense.isNegated) rfl rfl (denote_set here))
      (fun t ht => by cases ht; rfl) fun e => (many_one _).symm
  | starAny =>
    exact writes_suffix (q := .any) .star (writes_atom .any rfl rfl fun _ => rfl)
      (fun t ht => by cases ht; rfl) fun e => (many_any _).symm
  | option i q =>
    exact writes_suffix .opt (child (by simp [children]))
      (fun t ht => by simp only [renderWith, ht]; rfl) fun _ => rfl
  | peek i q =>
    exact writes_operator .peek (child (by simp [children]))
      (fun t ht => by simp only [renderWith, ht]; rfl) (fun _ => rfl) rfl
  | not i q =>
    exact writes_operator .not (child (by simp [children]))
      (fun t ht => by simp only [renderWith, ht]; rfl) (fun _ => rfl) rfl
  | search i q =>
    exact writes_operator .search (child (by simp [children]))
      (fun t ht => by simp only [renderWith, ht]; rfl) (fun _ => rfl) rfl
  | valued i how v => exact here.elim
  | capture i q => exact here.elim
  | capturedSearch i q => exact here.elim
  | backref i how slot => exact here.elim
  | rule i r => exact here.elim
  | grammar i start others => exact here.elim

theorem writes (store : Store) (below : Nat → Except Fault Text)
    (hN : ∀ r, N.known r → store.ruleName r = .ok (N.name r).text) (hK : Family N.allowed K)
    (hp : p ∈ K) : Writes store below N p := by
  suffices ∀ q ∈ p :: p.children, Writes store below N q from this p (by simp)
  induction p using induction_children with
  | node p ih =>
    have hc (q : Pattern) (hq : q ∈ p.children) := ih q hq (hK.closed p hp q hq)
    exact List.forall_mem_cons.2 ⟨writes_node hN hK hp hc, fun q hq => hc q hq q (by simp)⟩

end Pattern

end PegMatch

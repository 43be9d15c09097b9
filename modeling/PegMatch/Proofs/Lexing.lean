import PegMatch.Highlight.Token
import PegMatch.Proofs.Expressions

set_option autoImplicit false

/-! The lexer as a table. Each mode has rules, which are regular expressions with what becomes of a
match, and they are tried in order. A loop goes on with the rest, on a stack of modes. The pieces of
a text are what this loop gives, and as each rule takes something and no group leaves anything out,
they make up the text. -/

namespace PegMatch.Highlight

/-- What becomes of a match: one piece, or a piece for each group that takes something. -/
inductive Action where
  | whole (role : Role) (r : Regex)
  | groups (parts : List (Role × Regex))

inductive Turn where
  | stay
  | enter (mode : Mode)
  | leave

structure LexRule where
  action : Action
  turn : Turn := .stay

/-- Pieces that are cut off, what is left, and the turn of the rule. -/
abbrev Applied := List Token × Text × Turn

namespace Action

def take? : Action → Text → Option (List Token × Text)
  | .whole role r, t => (r.way? t).map fun w => ([⟨role, w.1⟩], w.2)
  | .groups parts, t => (Regex.groupWays (parts.map Prod.snd) t).head?.map fun w =>
    ((List.zipWith Token.mk (parts.map Prod.fst) w.1).filter fun piece => !piece.text.isEmpty, w.2)

end Action

namespace LexRule

def result? (rule : LexRule) (t : Text) : Option Applied :=
  (rule.action.take? t).map fun w => (w.1, w.2, rule.turn)

def first? : List LexRule → Text → Option Applied
  | [], _ => none
  | rule :: rules, t => (rule.result? t).or (first? rules t)

end LexRule

namespace Turn

/-- The mode that is left last stays. -/
def go : Turn → Mode → List Mode → Mode × List Mode
  | .stay, m, below => (m, below)
  | .enter m', m, below => (m', m :: below)
  | .leave, m, [] => (m, [])
  | .leave, _, m :: below => (m, below)

end Turn

def isQuote (c : Nat) : Bool :=
  c == '\'' || c == '"'

/-- A character is escaped by a code, or by itself if it does not end the line. -/
def escapes : List Regex :=
  [.seq (.test (· == 'x'.toNat)) (.times isHex 2), .seq (.test (· == 'u'.toNat)) (.times isHex 4),
    .seq (.test Text.isAsciiDigit) (.upTo 2 Text.isAsciiDigit), .test (· != '\n'.toNat)]

def words : List Regex :=
  builtinNames.map fun n => .word (Text.ofString n)

def insideTable (close : Nat) (role : Role) : List LexRule :=
  [⟨.whole role (.test (· == close)), .leave⟩,
    ⟨.whole .escape (.seq (.test (· == '\\'.toNat)) (.choice escapes)), .stay⟩,
    ⟨.whole role (.plus fun c => c != '\\'.toNat && c != close), .stay⟩]

def headRule : LexRule :=
  ⟨.groups [(.function, .seq (.test isLetter) (.run isNameRune)), (.text, .run Rune.isBlank),
    (.operator, .word ['<', '-'])], .stay⟩

def referenceRule : LexRule :=
  ⟨.whole .reference (.seq (.opt (.test fun c => c == 'i' || c == 'y'))
    (.seq (.test (· == '$'.toNat)) (.plus Text.isAsciiDigit))), .stay⟩

def wordTable : List LexRule :=
  [⟨.whole .operator (.word ['{', '@', '}']), .stay⟩,
    ⟨.whole .operator (.test isOperator), .stay⟩,
    ⟨.whole .pseudo (.test (· == '.'.toNat)), .stay⟩,
    ⟨.whole .pseudo (.seq (.test (· == '_'.toNat)) (.notAhead isNameRune)), .stay⟩,
    ⟨.whole .punctuation (.test isBracket), .stay⟩,
    ⟨.whole .number (.plus Text.isAsciiDigit), .stay⟩,
    ⟨.whole .name (.seq (.test isLetter) (.run isNameRune)), .stay⟩]

def outsideTable : List LexRule :=
  [⟨.whole .text (.plus Rune.isBlank), .stay⟩,
    ⟨.whole .comment (.seq (.test (· == '#'.toNat)) (.seq (.lazyRun (· != '\n'.toNat)) .lineEnd)),
      .stay⟩, headRule,
    ⟨.whole .affix (.seq (.test fun c => c == 'i' || c == 'v' || c == 'y') (.ahead isQuote)),
      .stay⟩, ⟨.whole .string (.test (· == '\''.toNat)), .enter (.literal '\'')⟩,
    ⟨.whole .string (.test (· == '"'.toNat)), .enter (.literal '"')⟩,
    ⟨.whole .classText (.test (· == '['.toNat)), .enter .charClass⟩, referenceRule,
    ⟨.whole .keyword
      (.seq (.test (· == '\\'.toNat))
        (.choice (words ++ escapes.take 3 ++ [.test isLetter] ++ escapes.drop 3))), .stay⟩] ++
    wordTable

def table : Mode → List LexRule
  | .outside => outsideTable
  | .literal quote => insideTable quote .string
  | .charClass => insideTable ']' .classText

/-- The loop, in a mode that lies on others, cuts a text into pieces. It ends where no rule applies
at the end of the text. A line feed that no rule takes leads back to the mode at the bottom, and any
other code point is an error. -/
inductive Lexes : Mode → List Mode → Text → List Token → Prop where
  | done {m : Mode} {below : List Mode} (h : LexRule.first? (table m) [] = none) :
      Lexes m below [] []
  | rule {m : Mode} {below : List Mode} {t rest : Text} {pieces more : List Token} {turn : Turn}
      (h : LexRule.first? (table m) t = some (pieces, rest, turn))
      (go : Lexes (turn.go m below).1 (turn.go m below).2 rest more) :
      Lexes m below t (pieces ++ more)
  | newline {m : Mode} {below : List Mode} {t : Text} {more : List Token}
    (h : LexRule.first? (table m) ('\n'.toNat :: t) = none) (go : Lexes .outside [] t more) :
    Lexes m below ('\n'.toNat :: t) (⟨.whitespace, ['\n']⟩ :: more)
  | error {m : Mode} {below : List Mode} {c : Nat} {t : Text} {more : List Token} (hc : c ≠ '\n')
    (h : LexRule.first? (table m) (c :: t) = none) (go : Lexes m below t more) :
    Lexes m below (c :: t) (⟨.error, [c]⟩ :: more)

variable {m : Mode} {below : List Mode} {t rest : Text} {pieces ts ts' : List Token} {turn : Turn}
  {c : Nat}

/-- The texts of pieces, one behind the other. -/
def texts (ts : List Token) : Text :=
  ts.flatMap Token.text

theorem texts_append (ts ts' : List Token) : texts (ts ++ ts') = texts ts ++ texts ts' :=
  List.flatMap_append

def Action.Takes : Action → Prop
  | .whole _ r => r.Takes
  | .groups parts => ∃ part ∈ parts, part.2.Takes

theorem takes_of_mem_table {rule : LexRule} (h : rule ∈ table m) : rule.action.Takes := by
  cases m <;> simp only [table, outsideTable, wordTable, insideTable, List.mem_append,
    List.mem_cons, List.not_mem_nil, or_false] at h
  · rcases h with (rfl | rfl | rfl | rfl | rfl | rfl | rfl | rfl | rfl) | rfl | rfl | rfl | rfl |
      rfl | rfl | rfl
    all_goals simp [Action.Takes, Regex.Takes, Regex.plus, Regex.opt, headRule, referenceRule]
  · rcases h with rfl | rfl | rfl <;> simp [Action.Takes, Regex.Takes, Regex.plus]
  · rcases h with rfl | rfl | rfl <;> simp [Action.Takes, Regex.Takes, Regex.plus]

theorem texts_nonempty (roles : List Role) (ts : List Text) (h : ts.length ≤ roles.length) :
    texts ((List.zipWith Token.mk roles ts).filter fun piece => !piece.text.isEmpty) =
      ts.flatten := by
  induction roles generalizing ts with
  | nil =>
    obtain rfl := List.length_eq_zero_iff.1 (Nat.le_zero.1 h)
    rfl
  | cons role roles ih =>
    cases ts with
    | nil => rfl
    | cons t ts =>
      have hrest := ih ts (Nat.le_of_succ_le_succ h)
      cases t with
      | nil => simpa using hrest
      | cons c t =>
        rw [List.zipWith_cons_cons, List.filter_cons_of_pos (by rfl), List.flatten_cons, ← hrest]
        rfl

theorem length_of_mem_groupWays {rs : List Regex} {w : List Text × Text}
    (h : w ∈ Regex.groupWays rs t) : w.1.length = rs.length := by
  induction rs generalizing t w with
  | nil =>
    obtain rfl := List.mem_singleton.1 h
    rfl
  | cons r rs ih =>
    obtain ⟨u, -, h⟩ := List.mem_flatMap.1 h
    obtain ⟨v, hv, rfl⟩ := List.mem_map.1 h
    rw [List.length_cons, List.length_cons, ih hv]

theorem Action.texts_of_take {action : Action} (h : action.take? t = some (pieces, rest)) :
    texts pieces ++ rest = t := by
  cases action with
  | whole role r =>
    obtain ⟨w, hw, h⟩ := Option.map_eq_some_iff.1 h
    cases h
    have := Regex.append_of_mem_ways (List.mem_of_head? hw)
    simpa [texts] using this
  | groups parts =>
    obtain ⟨w, hw, h⟩ := Option.map_eq_some_iff.1 h
    cases h
    have hmem := List.mem_of_head? hw
    rw [texts_nonempty _ _ (by simp [length_of_mem_groupWays hmem])]
    exact Regex.append_of_mem_groupWays hmem

theorem ne_nil_of_mem_groupWays {rs : List Regex} {r : Regex} (hr : r ∈ rs) (htakes : r.Takes)
    {w : List Text × Text} (h : w ∈ Regex.groupWays rs t) : w.1.flatten ≠ [] := by
  induction rs generalizing t w with
  | nil => cases hr
  | cons s rs ih =>
    obtain ⟨u, hu, h⟩ := List.mem_flatMap.1 h
    obtain ⟨v, hv, rfl⟩ := List.mem_map.1 h
    rw [List.flatten_cons]
    rcases List.mem_cons.1 hr with rfl | hr
    · exact List.append_ne_nil_of_left_ne_nil (Regex.ne_nil_of_takes htakes hu) _
    · exact List.append_ne_nil_of_right_ne_nil _ (ih hr hv)

theorem Action.length_of_take {action : Action} (htakes : action.Takes)
    (h : action.take? t = some (pieces, rest)) : rest.length < t.length := by
  have htext := action.texts_of_take h
  suffices hne : texts pieces ≠ [] by
    rw [← htext, List.length_append]
    have := List.length_pos_iff.2 hne
    omega
  cases action with
  | whole role r =>
    obtain ⟨w, hw, h⟩ := Option.map_eq_some_iff.1 h
    cases h
    simpa [texts] using Regex.ne_nil_of_takes htakes (List.mem_of_head? hw)
  | groups parts =>
    obtain ⟨w, hw, h⟩ := Option.map_eq_some_iff.1 h
    cases h
    have hmem := List.mem_of_head? hw
    obtain ⟨part, hpart, htakes⟩ := htakes
    rw [texts_nonempty _ _ (by simp [length_of_mem_groupWays hmem])]
    exact ne_nil_of_mem_groupWays (List.mem_map_of_mem hpart) htakes hmem

namespace LexRule

theorem apply_of_first {rules : List LexRule} (h : first? rules t = some (pieces, rest, turn)) :
    ∃ rule ∈ rules, rule.action.take? t = some (pieces, rest) ∧ rule.turn = turn := by
  induction rules with
  | nil => cases h
  | cons rule rules ih =>
    rcases Option.or_eq_some_iff.1 h with h | ⟨-, h⟩
    · obtain ⟨w, hw, h⟩ := Option.map_eq_some_iff.1 h
      cases h
      exact ⟨rule, List.mem_cons_self, hw, rfl⟩
    · obtain ⟨rule', hmem, h⟩ := ih h
      exact ⟨rule', List.mem_cons_of_mem _ hmem, h⟩

theorem first_cuts (h : first? (table m) t = some (pieces, rest, turn)) :
    texts pieces ++ rest = t ∧ rest.length < t.length := by
  obtain ⟨rule, hmem, htake, -⟩ := apply_of_first h
  exact ⟨rule.action.texts_of_take htake,
    rule.action.length_of_take (takes_of_mem_table hmem) htake⟩

end LexRule

namespace Lexes

theorem texts_eq (h : Lexes m below t ts) : texts ts = t := by
  induction h with
  | done => rfl
  | rule h _ ih => rw [texts_append, ih, (LexRule.first_cuts h).1]
  | newline _ _ ih => exact congrArg ('\n'.toNat :: ·) ih
  | @error m below c t more _ _ _ ih => exact congrArg (c :: ·) ih

theorem unique (h : Lexes m below t ts) (h' : Lexes m below t ts') : ts' = ts := by
  induction h generalizing ts' with
  | done hnone =>
    cases h' with
    | done => rfl
    | rule h => cases hnone.symm.trans h
  | rule hsome _ ih =>
    cases h' with
    | done h => cases hsome.symm.trans h
    | rule h go =>
      cases hsome.symm.trans h
      rw [ih go]
    | newline h => cases hsome.symm.trans h
    | error _ h => cases hsome.symm.trans h
  | newline hnone _ ih =>
    cases h' with
    | rule h => cases hnone.symm.trans h
    | newline _ go => rw [ih go]
    | error hc => exact absurd rfl hc
  | error hc hnone _ ih =>
    cases h' with
    | rule h => cases hnone.symm.trans h
    | newline => exact absurd rfl hc
    | error _ _ go => rw [ih go]

theorem exists_pieces (m : Mode) (below : List Mode) (t : Text) : ∃ ts, Lexes m below t ts := by
  induction hlength : t.length using Nat.strongRecOn generalizing m below t with
  | ind n ih =>
    subst hlength
    cases hfirst : LexRule.first? (table m) t with
    | some applied =>
      obtain ⟨pieces, rest, turn⟩ := applied
      obtain ⟨more, hmore⟩ := ih rest.length (LexRule.first_cuts hfirst).2 _ _ rest rfl
      exact ⟨_, .rule hfirst hmore⟩
    | none =>
      cases t with
      | nil => exact ⟨[], .done hfirst⟩
      | cons c t =>
        by_cases hc : c = '\n'
        · subst hc
          obtain ⟨more, hmore⟩ := ih t.length (Nat.lt_succ_self _) .outside [] t rfl
          exact ⟨_, .newline hfirst hmore⟩
        · obtain ⟨more, hmore⟩ := ih t.length (Nat.lt_succ_self _) m below t rfl
          exact ⟨_, .error hc hfirst hmore⟩

end Lexes

def Mode.turnTo : Mode → Mode → Turn
  | .outside, .outside => .stay
  | .outside, m => .enter m
  | _, .outside => .leave
  | _, _ => .stay

/-- What a step cuts off at the start of a text, and what it leaves. -/
def Step.applied (r : Step) (m : Mode) (c : Nat) (t : Text) : Applied :=
  (⟨r.role, c :: t.take r.extra⟩ :: (cutMore r.more (t.drop r.extra)).1,
    (cutMore r.more (t.drop r.extra)).2, m.turnTo r.mode)

namespace LexRule

variable {role : Role} {p : Nat → Bool}

theorem apply_test : result? ⟨.whole role (.test p), turn⟩ (c :: t) =
    if p c then some ([⟨role, [c]⟩], t, turn) else none := by
  simp only [result?, Action.take?, Regex.way?_test]
  split <;> rfl

theorem apply_plus :
    result? ⟨.whole role (.plus p), turn⟩ (c :: t) = if p c then some
      ([⟨role, c :: t.take (t.takeWhile p).length⟩], t.drop (t.takeWhile p).length,
        turn) else none := by
  simp only [result?, Action.take?, Regex.way?_plus, Regex.take_length_takeWhile,
    Regex.drop_length_takeWhile]
  split <;> rfl

theorem apply_test_seq (r : Regex) : result? ⟨.whole role (.seq (.test p) r), turn⟩ (c :: t) =
    if p c then (r.way? t).map fun w => ([⟨role, c :: w.1⟩], w.2, turn) else none := by
  simp only [result?, Action.take?, Regex.way?_test_seq]
  split
  · cases r.way? t <;> rfl
  · rfl

end LexRule

theorem ite_or {α : Type} {b : Bool} {a : α} {x : Option α} :
    (if b then some a else none).or x = if b then some a else x := by
  cases b <;> rfl

theorem way?_code (letter n : Nat) (c : Nat) (t : Text) :
    (Regex.seq (.test (· == letter)) (.times isHex n)).way? (c :: t) =
      if c == letter && hexAhead n t then some
        ((c :: t).take (n + 1), (c :: t).drop (n + 1)) else none := by
  rw [Regex.way?_test_seq, Regex.way?_times, hexAhead]
  cases c == letter
  · rfl
  · rw [Bool.true_and, if_pos rfl]
    split <;> rfl

theorem way?_digits (c : Nat) (t : Text) :
    (Regex.seq (.test Text.isAsciiDigit) (.upTo 2 Text.isAsciiDigit)).way? (c :: t) =
      if Text.isAsciiDigit c then some
        ((c :: t).take (1 + ((t.take 2).takeWhile Text.isAsciiDigit).length),
          (c :: t).drop (1 + ((t.take 2).takeWhile Text.isAsciiDigit).length)) else none := by
  have hprefix : (t.take 2).takeWhile Text.isAsciiDigit <+: t :=
    (List.takeWhile_prefix _).trans (List.take_prefix 2 t)
  rw [Regex.way?_test_seq, Regex.way?_upTo, Nat.add_comm, List.take_succ_cons, List.drop_succ_cons,
    ← List.prefix_iff_eq_take.1 hprefix]
  rfl

def codeLength? (c : Nat) (t : Text) : Option Nat :=
  if c == 'x' && hexAhead 2 t then some 3
  else if c == 'u' && hexAhead 4 t then some 5
  else if Text.isAsciiDigit c then some (1 + ((t.take 2).takeWhile Text.isAsciiDigit).length)
  else none

/-- The way of the first part of a text of some length, or another one. -/
def wayOr (length? : Option Nat) (t : Text) (way? : Option Way) : Option Way :=
  (length?.map fun n => (t.take n, t.drop n)).or way?

theorem way?_codes (rs : List Regex) (c : Nat) (t : Text) :
    (Regex.choice (escapes.take 3 ++ rs)).way? (c :: t) = wayOr (codeLength? c t) (c :: t)
      ((Regex.choice rs).way? (c :: t)) := by
  simp only [escapes, List.take_succ_cons, List.take_zero, List.cons_append, List.nil_append,
    Regex.way?_choice_cons, way?_code, way?_digits, ite_or, codeLength?]
  split
  · rfl
  · split
    · rfl
    · split <;> rfl

theorem escapeLength_cons (c : Nat) (t : Text) :
    escapeLength? (c :: t) = (codeLength? c t).or (if c != '\n' then some 1 else none) := by
  rw [escapeLength?, codeLength?]
  split
  · rfl
  · split
    · rfl
    · split
      · rfl
      · cases hc : c == '\n'.toNat <;> simp only [bne, hc] <;> rfl

theorem way?_other (c : Nat) (t : Text) : (Regex.choice [.test (· != '\n'.toNat)]).way? (c :: t) =
    wayOr (if c != '\n' then some 1 else none) (c :: t) none := by
  rw [Regex.way?_choice_cons, Regex.way?_choice_nil, Regex.way?_test, Option.or_none]
  split <;> rfl

theorem wayOr_escapeLength (c : Nat) (t : Text) : wayOr (escapeLength? (c :: t)) (c :: t) none =
    wayOr (codeLength? c t) (c :: t) ((Regex.choice (escapes.drop 3)).way? (c :: t)) := by
  have hother := way?_other c t
  rw [escapeLength_cons]
  cases codeLength? c t with
  | some n => rfl
  | none => exact hother.symm

theorem way?_escapes (t : Text) :
    (Regex.choice escapes).way? t = wayOr (escapeLength? t) t none := by
  cases t with
  | nil => rfl
  | cons c t =>
    rw [wayOr_escapeLength, ← way?_codes]
    rfl

/-- The way of a named pattern, or of an escape. A letter is escaped like any other character. -/
theorem way?_builtins (t : Text) :
    (Regex.choice (words ++ escapes.take 3 ++ [.test isLetter] ++ escapes.drop 3)).way? t =
      wayOr (builtinLength? t) t none := by
  rw [words, List.append_assoc, List.append_assoc, Regex.way?_words, builtinLength?]
  cases builtinNames.find? fun n => Text.startsWith (Text.ofString n) t with
  | some n => rfl
  | none =>
    cases t with
    | nil => rfl
    | cons c t =>
      simp only
      rw [wayOr_escapeLength, way?_codes, List.singleton_append, Regex.way?_choice_cons,
        Regex.way?_test]
      by_cases hc : isLetter c
      · have hother := way?_other c t
        have hline : (c != '\n'.toNat) = true := by
          rw [bne_iff_ne]
          rintro rfl
          exact absurd hc (by decide)
        rw [hline] at hother
        rw [if_pos hc]
        exact congrArg (wayOr (codeLength? c t) (c :: t)) hother.symm
      · rw [if_neg hc]
        rfl

theorem not_blank_of_nameRune (h : isNameRune c) : Rune.isBlank c = false := by
  have hlt : c < 128 := by
    simp only [isNameRune, isLetter, Text.isAsciiDigit, Bool.or_eq_true, Bool.and_eq_true,
      decide_eq_true_eq, beq_iff_eq, Char.reduceToNat] at h
    omega
  have hall : ∀ d < 128, isNameRune d → Rune.isBlank d = false := by decide
  exact hall c hlt h

theorem groupWays_arrow (t : Text) : Regex.groupWays [.run Rune.isBlank, .word ['<', '-']] t =
    ((Text.dropPrefix? ['<', '-'] (t.dropWhile Rune.isBlank)).map fun rest =>
      ([t.takeWhile Rune.isBlank, ['<'.toNat, '-'.toNat]], rest)).toList := by
  have hstop (u : Text) (c : Nat) (t : Text) (hc : Rune.isBlank c) :
      (Regex.groupWays [.word ['<', '-']] (c :: t)).map (fun v => (u :: v.1, v.2)) = [] := by
    have hne : ('<'.toNat = c) = False := eq_false fun h => by subst h; exact absurd hc (by decide)
    simp only [Regex.groupWays, Regex.ways, Text.dropPrefix?, hne, if_false, Option.map_none,
      Option.toList_none, List.flatMap_nil, List.map_nil]
  rw [Regex.groupWays, Regex.ways, Regex.runWays_flatMap fun u c t hc => hstop u c t hc]
  simp only [Regex.groupWays, Regex.ways]
  cases Text.dropPrefix? ['<', '-'] (t.dropWhile Rune.isBlank) <;> rfl

theorem groupWays_header (c : Nat) (t : Text) :
    Regex.groupWays [.seq (.test isLetter) (.run isNameRune), .run Rune.isBlank, .word ['<', '-']]
      (c :: t) = if isLetter c then (Regex.groupWays [.run Rune.isBlank, .word ['<', '-']]
        (t.dropWhile isNameRune)).map fun v =>
      ((c :: t.takeWhile isNameRune) :: v.1, v.2) else [] := by
  have hstop (u : Text) (d : Nat) (t : Text) (hd : isNameRune d) :
      (Regex.groupWays [.run Rune.isBlank, .word ['<', '-']] (d :: t)).map
        (fun v => ((c :: u) :: v.1, v.2)) = [] := by
    have hne : ('<'.toNat = d) = False := eq_false fun h => by subst h; exact absurd hd (by decide)
    simp only [groupWays_arrow, List.dropWhile_cons, not_blank_of_nameRune hd, Bool.false_eq_true,
      Text.dropPrefix?, hne, if_false, Option.map_none, Option.toList_none, List.map_nil]
  rw [Regex.groupWays, Regex.ways, Regex.ways]
  split
  · rw [List.flatMap_singleton, List.flatMap_map, Regex.ways]
    exact Regex.runWays_flatMap hstop t
  · rfl

def headStep (lengths : Nat × Nat) : Step where
  role := .function
  extra := lengths.1
  more := [(.text, lengths.2), (.operator, 2)]
  mode := .outside

theorem apply_header (c : Nat) (t : Text) :
    headRule.result? (c :: t) = (header? c t).map fun lengths =>
      (headStep lengths).applied .outside c t := by
  have htake := Regex.take_length_takeWhile isNameRune t
  have hdrop := Regex.drop_length_takeWhile isNameRune t
  simp only [headRule, LexRule.result?, Action.take?, List.map_cons, List.map_nil, groupWays_header,
    groupWays_arrow, header?, Text.startsWith, ← List.drop_drop, hdrop, Regex.drop_length_takeWhile]
  cases isLetter c with
  | false => rfl
  | true =>
    cases hword : Text.dropPrefix? ['<', '-'] ((t.dropWhile isNameRune).dropWhile Rune.isBlank) with
    | none => rfl
    | some rest =>
      have htext := Text.eq_append_of_dropPrefix? hword
      have hblank := Regex.take_length_takeWhile Rune.isBlank (t.dropWhile isNameRune)
      simp only [Bool.true_and, if_true, Option.isSome_some, Option.map_some, Step.applied,
        headStep, cutMore, htake, hdrop, hblank, Regex.drop_length_takeWhile, htext]
      cases (t.dropWhile isNameRune).takeWhile Rune.isBlank <;> rfl

theorem way?_dollar (c : Nat) (t : Text) :
    (Regex.seq (.test (· == '$'.toNat)) (.plus Text.isAsciiDigit)).way? (c :: t) =
      if c == '$' && (t.takeWhile Text.isAsciiDigit).length != 0 then
        some (c :: t.takeWhile Text.isAsciiDigit, t.dropWhile Text.isAsciiDigit)
      else none := by
  rw [Regex.way?_test_seq]
  cases c == '$'.toNat with
  | false => rfl
  | true =>
    cases t with
    | nil => rfl
    | cons d t =>
      rw [Regex.way?_plus]
      cases hd : Text.isAsciiDigit d <;> simp [hd, Way.cons]

theorem apply_reference (c : Nat) (t : Text) :
    referenceRule.result? (c :: t) = (referenceLength? c t).map fun n =>
      Step.applied { role := .reference, extra := n, mode := .outside } .outside c t := by
  have hend : (Regex.seq (.test (· == '$'.toNat)) (.plus Text.isAsciiDigit)).way? [] = none := rfl
  simp only [referenceRule, LexRule.result?, Action.take?, Regex.way?_opt_seq, way?_dollar,
    referenceLength?]
  cases hsign : c == '$'.toNat with
  | true =>
    have hletter : (c == 'i'.toNat || c == 'y'.toNat) = false := by
      rw [eq_of_beq hsign]
      rfl
    rw [hletter, if_neg Bool.false_ne_true, Option.none_or, Bool.true_and, Bool.false_and,
      Bool.false_and, if_neg Bool.false_ne_true]
    split
    · simp only [Option.map_some, Step.applied, Regex.take_length_takeWhile,
        Regex.drop_length_takeWhile]
      rfl
    · rfl
  | false =>
    rw [Bool.false_and, if_neg Bool.false_ne_true, if_neg Bool.false_ne_true, Option.or_none]
    cases hletter : c == 'i'.toNat || c == 'y'.toNat with
    | false => rfl
    | true =>
      cases t with
      | nil =>
        rw [if_pos rfl, hend]
        rfl
      | cons d t =>
        have hhead : ((d :: t).head? == some '$'.toNat) = (d == '$'.toNat) := rfl
        rw [if_pos rfl, way?_dollar, hhead, Bool.true_and, List.drop_one, List.tail_cons]
        split
        · have htake : (d :: t).take (1 + (t.takeWhile Text.isAsciiDigit).length) =
              d :: t.takeWhile Text.isAsciiDigit := by
            rw [Nat.add_comm, List.take_succ_cons, Regex.take_length_takeWhile]
          have hdrop : (d :: t).drop (1 + (t.takeWhile Text.isAsciiDigit).length) =
              t.dropWhile Text.isAsciiDigit := by
            rw [Nat.add_comm, List.drop_succ_cons, Regex.drop_length_takeWhile]
          simp only [Option.map_some, Step.applied, htake, hdrop]
          rfl
        · rfl

theorem map_ite {α β : Type} {b : Bool} {a : α} {x : Option α} {f : α → β} :
    (if b then some a else x).map f = if b then some (f a) else x.map f := by
  cases b <;> rfl

theorem map_wayOr (role : Role) (m : Mode) (hm : m.turnTo m = .stay) (length? : Option Nat)
    (c : Nat) (t : Text) :
    (wayOr length? t none).map (fun w => ((([⟨role, c :: w.1⟩], w.2, .stay) : Applied))) =
      length?.map fun n => Step.applied { role := role, extra := n, mode := m } m c t := by
  cases length? with
  | none => rfl
  | some n =>
    simp only [wayOr, Option.map_some, Option.some_or, Step.applied, hm]
    rfl

theorem apply_test_applied {role : Role} {p : Nat → Bool} (m m' : Mode)
    (hturn : m.turnTo m' = turn) :
    LexRule.result? ⟨.whole role (.test p), turn⟩ (c :: t) = if p c then some
      (Step.applied { role := role, mode := m' } m c t) else none := by
  rw [LexRule.apply_test, Step.applied, hturn]
  rfl

theorem apply_plus_applied {role : Role} {p : Nat → Bool} (m : Mode) (hm : m.turnTo m = .stay) :
    LexRule.result? ⟨.whole role (.plus p), .stay⟩ (c :: t) = if p c then some
      (Step.applied
        { role := role, extra := (t.takeWhile p).length, mode := m } m c t) else none := by
  rw [LexRule.apply_plus, Step.applied, hm]
  rfl

theorem first?_inside (close : Nat) (role : Role) (m : Mode) (hleave : m.turnTo .outside = .leave)
    (hstay : m.turnTo m = .stay) (c : Nat) (t : Text) :
    LexRule.first? (insideTable close role) (c :: t) = (insideRule close role m c t).map fun r =>
      r.applied m c t := by
  simp only [insideTable, LexRule.first?, apply_test_applied m .outside hleave,
    LexRule.apply_test_seq, way?_escapes, map_wayOr .escape m hstay, apply_plus_applied m hstay,
    Option.or_none, ite_or, insideRule]
  cases hclose : c == close with
  | true => rfl
  | false =>
    cases hescape : c == '\\'.toNat with
    | true => cases escapeLength? t <;> simp only [bne, hescape] <;> rfl
    | false =>
      simp only [bne, hescape, hclose]
      rfl

theorem apply_comment (c : Nat) (t : Text) :
    LexRule.result?
      ⟨.whole .comment (.seq (.test (· == '#'.toNat)) (.seq (.lazyRun (· != '\n'.toNat)) .lineEnd)),
        .stay⟩ (c :: t) = if c == '#' then some
      (Step.applied { role := .comment, extra := (t.takeWhile (· != '\n'.toNat)).length,
                      mode := .outside } .outside c t) else none := by
  rw [LexRule.apply_test_seq, Regex.way?_line, Step.applied, Regex.take_length_takeWhile,
    Regex.drop_length_takeWhile]
  rfl

theorem apply_affix (c : Nat) (t : Text) :
    LexRule.result?
      ⟨.whole .affix (.seq (.test fun c => c == 'i' || c == 'v' || c == 'y') (.ahead isQuote)),
        .stay⟩ (c :: t) = if (c == 'i' || c == 'v' || c == 'y') && t.head?.any isQuote then some
      (Step.applied { role := .affix, mode := .outside } .outside c t) else none := by
  rw [LexRule.apply_test_seq, Regex.way?_ahead, Step.applied]
  cases c == 'i'.toNat || c == 'v'.toNat || c == 'y'.toNat with
  | false => rfl
  | true => cases t.head?.any isQuote <;> rfl

theorem apply_search (c : Nat) (t : Text) :
    LexRule.result? ⟨.whole .operator (.word ['{', '@', '}']), .stay⟩ (c :: t) =
      if c == '{' && Text.startsWith ['@', '}'] t then some
        (Step.applied
          { role := .operator, extra := 2, mode := .outside } .outside c t) else none := by
  simp only [LexRule.result?, Action.take?, Regex.way?_word, Text.dropPrefix?]
  cases hrest : Text.dropPrefix? ['@', '}'] t with
  | none =>
    have hstarts : Text.startsWith ['@', '}'] t = false := by
      rw [Text.startsWith, hrest]
      rfl
    rw [hstarts, Bool.and_false, ite_self]
    rfl
  | some rest =>
    have hstarts : Text.startsWith ['@', '}'] t = true := by
      rw [Text.startsWith, hrest]
      rfl
    rw [hstarts, Bool.and_true]
    by_cases hc : c = '{'.toNat
    · rw [Text.eq_append_of_dropPrefix? hrest, hc]
      rfl
    · rw [if_neg (Ne.symm hc), beq_false_of_ne hc]
      rfl

theorem apply_underscore (c : Nat) (t : Text) :
    LexRule.result? ⟨.whole .pseudo (.seq (.test (· == '_'.toNat)) (.notAhead isNameRune)), .stay⟩
      (c :: t) = if c == '_' && !t.head?.any isNameRune then some
      (Step.applied { role := .pseudo, mode := .outside } .outside c t) else none := by
  rw [LexRule.apply_test_seq, Regex.way?_notAhead, Step.applied]
  cases c == '_'.toNat with
  | false => rfl
  | true => cases t.head?.any isNameRune <;> rfl

theorem apply_keyword (c : Nat) (t : Text) :
    LexRule.result?
      ⟨.whole .keyword
        (.seq (.test (· == '\\'.toNat))
          (.choice (words ++ escapes.take 3 ++ [.test isLetter] ++ escapes.drop 3))), .stay⟩
      (c :: t) = if c == '\\' then (builtinLength? t).map fun n =>
      Step.applied { role := .keyword, extra := n, mode := .outside } .outside c t else none := by
  rw [LexRule.apply_test_seq, way?_builtins, map_wayOr .keyword .outside rfl]

theorem apply_name (c : Nat) (t : Text) :
    LexRule.result? ⟨.whole .name (.seq (.test isLetter) (.run isNameRune)), .stay⟩ (c :: t) =
      if isLetter c then some
        (Step.applied { role := .name, extra := (t.takeWhile isNameRune).length, mode := .outside }
          .outside c t) else none := by
  rw [LexRule.apply_test_seq, Regex.way?_run, Step.applied, Regex.take_length_takeWhile,
    Regex.drop_length_takeWhile]
  rfl

theorem first?_words (c : Nat) (t : Text) : LexRule.first? wordTable (c :: t) =
    (wordRule c t).map fun r => r.applied .outside c t := by
  have hturn : Mode.turnTo .outside .outside = .stay := rfl
  simp only [wordTable, LexRule.first?, apply_search, apply_underscore, apply_name,
    apply_test_applied .outside .outside hturn, apply_plus_applied .outside hturn, Option.or_none,
    ite_or, wordRule, map_ite, Option.map_none]

theorem first?_outside (c : Nat) (t : Text) : LexRule.first? outsideTable (c :: t) =
    (outsideRule c t).map fun r => r.applied .outside c t := by
  have hturn : Mode.turnTo .outside .outside = .stay := rfl
  have hquote (q : Nat) : Mode.turnTo .outside (.literal q) = .enter (.literal q) := rfl
  have hclass : Mode.turnTo .outside .charClass = .enter .charClass := rfl
  simp only [outsideTable, List.cons_append, List.nil_append, LexRule.first?, first?_words,
    apply_plus_applied .outside hturn, apply_comment, apply_header, apply_affix,
    apply_test_applied .outside _ (hquote _), apply_test_applied .outside _ hclass, apply_reference,
    apply_keyword, ite_or, outsideRule, map_ite]
  refine ite_congr rfl (fun _ => rfl) fun _ => ite_congr rfl (fun _ => rfl) fun _ => ?_
  cases header? c t with
  | some lengths => rfl
  | none =>
    simp only [Option.map_none, Option.none_or, map_ite]
    refine ite_congr rfl (fun _ => rfl) fun _ => ?_
    cases hsingle : c == '\''.toNat with
    | true =>
      rw [eq_of_beq hsingle]
      rfl
    | false =>
      cases hdouble : c == '"'.toNat with
      | true =>
        rw [eq_of_beq hdouble]
        rfl
      | false =>
        rw [Bool.or_false, if_neg Bool.false_ne_true, if_neg Bool.false_ne_true,
          if_neg Bool.false_ne_true]
        refine ite_congr rfl (fun _ => rfl) fun _ => ?_
        cases referenceLength? c t with
        | some n => rfl
        | none =>
          cases hescape : c == '\\'.toNat with
          | true =>
            have hnone : wordRule c t = none := by
              rw [eq_of_beq hescape]
              rfl
            rw [hnone]
            cases builtinLength? t <;> rfl
          | false => rfl

theorem first?_table (m : Mode) (c : Nat) (t : Text) : LexRule.first? (table m) (c :: t) =
    (rule? m c t).map fun r => r.applied m c t := by
  cases m with
  | outside => exact first?_outside c t
  | literal quote =>
    have hstay : Mode.turnTo (.literal quote) (.literal quote) = .stay := rfl
    exact first?_inside quote .string (.literal quote) rfl hstay c t
  | charClass => exact first?_inside ']' .classText .charClass rfl rfl c t

theorem first?_nil (m : Mode) : LexRule.first? (table m) [] = none := by
  rw [Option.eq_none_iff_forall_ne_some]
  rintro ⟨pieces, rest, turn⟩ h
  have hlength := (LexRule.first_cuts h).2
  simp at hlength

/-- What a mode lies on: literals and classes lie on the mode outside of them. -/
def Mode.under : Mode → List Mode
  | .outside => []
  | _ => [.outside]

/-- A step stays in its mode, or goes into a literal or a class, or out of it. -/
def Mode.Goes (m m' : Mode) : Prop :=
  m = .outside ∨ m' = .outside ∨ m' = m

theorem go_turnTo {m m' : Mode} (h : m.Goes m') : (m.turnTo m').go m m.under = (m', m'.under) := by
  rcases h with rfl | rfl | rfl
  · cases m' <;> rfl
  · cases m <;> rfl
  · cases m' <;> rfl

theorem goes_rule? {r : Step} (h : rule? m c t = some r) : m.Goes r.mode := by
  have inside {close : Nat} {role : Role} (h : insideRule close role m c t = some r) :
      m.Goes r.mode := by
    unfold insideRule at h
    split at h
    · cases h
      exact .inr (.inl rfl)
    · split at h
      · obtain ⟨n, -, rfl⟩ := Option.map_eq_some_iff.1 h
        exact .inr (.inr rfl)
      · cases h
        exact .inr (.inr rfl)
  cases m with
  | outside => exact .inl rfl
  | literal quote => exact inside h
  | charClass => exact inside h

theorem lexes_cut (m : Mode) (t : Text) : Lexes m m.under t (cut m t) := by
  induction hlength : t.length using Nat.strongRecOn generalizing m t with
  | ind n ih =>
    subst hlength
    cases t with
    | nil =>
      rw [cut]
      exact .done (first?_nil m)
    | cons c t =>
      have hfirst := first?_table m c t
      rw [cut, rule]
      cases hrule : rule? m c t with
      | some r =>
        rw [hrule, Option.map_some, Step.applied] at hfirst
        have hrest := ih _ (LexRule.first_cuts hfirst).2 r.mode _ rfl
        refine .rule hfirst ?_
        rw [go_turnTo (goes_rule? hrule)]
        exact hrest
      | none =>
        rw [hrule, Option.map_none] at hfirst
        rw [Option.getD_none]
        split
        · next hc =>
          subst hc
          have hrest := ih t.length (Nat.lt_succ_self _) .outside t rfl
          exact .newline hfirst hrest
        · next hc =>
          have hrest := ih t.length (Nat.lt_succ_self _) m t rfl
          exact .error hc hfirst hrest

/-- The lexer loses nothing. On every text and from every stack of modes the loop ends with certain
pieces, and they make up the text. The pieces of a source are those that the loop gives for its
lines. -/
theorem lexing_keeps_text :
    (∀ m below t, ∃ ts, (∀ ts', Lexes m below t ts' ↔ ts' = ts) ∧ texts ts = t) ∧
    ∀ source,
      (∀ ts, Lexes .outside [] (trimLines (Text.condition source)) ts ↔ ts = tokens source) ∧
      texts (tokens source) = trimLines (Text.condition source) := by
  constructor
  · intro m below t
    obtain ⟨ts, hts⟩ := Lexes.exists_pieces m below t
    exact ⟨ts, fun ts' => ⟨fun h => hts.unique h, fun h => h ▸ hts⟩, hts.texts_eq⟩
  · intro source
    have htokens : Lexes .outside [] (trimLines (Text.condition source)) (tokens source) :=
      lexes_cut .outside _
    exact ⟨fun ts => ⟨fun h => htokens.unique h, fun h => h ▸ htokens⟩, htokens.texts_eq⟩

end PegMatch.Highlight

import PegMatch.Proofs.Compiled
import PegMatch.Proofs.Lockstep

set_option autoImplicit false

namespace PegMatch

/-- How far identities and rule numbers are moved on. Nodes that exist once keep theirs. -/
structure Renaming where
  ids : Nat
  rules : Nat

namespace Renaming

def id (ρ : Renaming) (i : Nat) : Nat :=
  if i < Pattern.firstFresh then i else i + ρ.ids

def rule (ρ : Renaming) (r : Nat) : Nat :=
  r + ρ.rules

theorem id_of_single (ρ : Renaming) {i : Nat} (h : i < Pattern.firstFresh) : ρ.id i = i :=
  if_pos h

theorem id_of_fresh (ρ : Renaming) {i : Nat} (h : Pattern.firstFresh ≤ i) : ρ.id i = i + ρ.ids :=
  if_neg (Nat.not_lt.2 h)

theorem id_injective (ρ : Renaming) : Function.Injective ρ.id := by
  intro i j h
  simp only [id] at h
  split at h <;> split at h <;> omega

def member (ρ : Renaming) (d : Nat × Nat) : Nat × Nat :=
  (ρ.id d.1, ρ.rule d.2)

end Renaming

namespace Pattern

mutual

def rename (ρ : Renaming) : Pattern → Pattern
  | .empty => .empty
  | .any => .any
  | .anyRune => .anyRune
  | .newline => .newline
  | .startAnchor => .startAnchor
  | .category c => .category c
  | .literal i how t => .literal (ρ.id i) how t
  | .valued i how v => .valued (ρ.id i) how v
  | .char i c => .char (ρ.id i) c
  | .set i members sense => .set (ρ.id i) members sense
  | .call i r => .call (ρ.id i) (ρ.rule r)
  | .sequence i items => .sequence (ρ.id i) (renameEach ρ items)
  | .choice i items => .choice (ρ.id i) (renameEach ρ items)
  | .star i p => .star (ρ.id i) (rename ρ p)
  | .starChar i c => .starChar (ρ.id i) c
  | .starSet i members sense => .starSet (ρ.id i) members sense
  | .starAny => .starAny
  | .option i p => .option (ρ.id i) (rename ρ p)
  | .peek i p => .peek (ρ.id i) (rename ρ p)
  | .not i p => .not (ρ.id i) (rename ρ p)
  | .search i p => .search (ρ.id i) (rename ρ p)
  | .capture i p => .capture (ρ.id i) (rename ρ p)
  | .capturedSearch i p => .capturedSearch (ρ.id i) (rename ρ p)
  | .backref i how slot => .backref (ρ.id i) how slot
  | .rule i r => .rule (ρ.id i) (ρ.rule r)
  | .grammar i start others => .grammar (ρ.id i) (ρ.member start) (others.map ρ.member)

def renameEach (ρ : Renaming) : List Pattern → List Pattern
  | [] => []
  | p :: ps => rename ρ p :: renameEach ρ ps

end

variable (ρ : Renaming)

theorem renameEach_eq_map (ps : List Pattern) : renameEach ρ ps = ps.map (rename ρ) := by
  induction ps with
  | nil => rfl
  | cons p ps ih =>
    rw [List.map_cons, ← ih]
    rfl

@[simp] theorem rename_sequence (i : Nat) (ps : List Pattern) :
    (Pattern.sequence i ps).rename ρ = .sequence (ρ.id i) (ps.map (rename ρ)) := by
  rw [← renameEach_eq_map]
  rfl

@[simp] theorem rename_choice (i : Nat) (ps : List Pattern) :
    (Pattern.choice i ps).rename ρ = .choice (ρ.id i) (ps.map (rename ρ)) := by
  rw [← renameEach_eq_map]
  rfl

theorem id_rename (p : Pattern) : (p.rename ρ).id = ρ.id p.id := by
  cases p with
  | category c => cases c <;> rfl
  | _ => rfl

theorem children_rename (p : Pattern) : (p.rename ρ).children = p.children.map (rename ρ) := by
  cases p with
  | sequence i ps => exact renameEach_eq_map ρ ps
  | choice i ps => exact renameEach_eq_map ρ ps
  | _ => rfl

theorem sequenceItems_rename (p : Pattern) :
    (p.rename ρ).sequenceItems = p.sequenceItems.map (rename ρ) := by
  cases p with
  | sequence i ps => exact renameEach_eq_map ρ ps
  | _ => rfl

theorem choiceItems_rename (p : Pattern) :
    (p.rename ρ).choiceItems = p.choiceItems.map (rename ρ) := by
  cases p with
  | choice i ps => exact renameEach_eq_map ρ ps
  | _ => rfl

theorem characters_rename (p : Pattern) : (p.rename ρ).characters? = p.characters? := by
  cases p <;> rfl

theorem rename_term (i : Nat) (t : Text) : (term i t).rename ρ = term (ρ.id i) t := by
  match t with
  | [] => rfl
  | [_] => rfl
  | _ :: _ :: _ => rfl

theorem rename_text (i : Nat) (how : Comparison) (t : Text) :
    (text i how t).rename ρ = text (ρ.id i) how t := by
  cases how with
  | exact => exact rename_term ρ i t
  | ignoreCase => cases t <;> rfl
  | ignoreStyle => cases t <;> rfl

theorem rename_seq (i : Nat) (ps : List Pattern) :
    (seq i ps).rename ρ = seq (ρ.id i) (ps.map (rename ρ)) := by
  have items : (ps.map (rename ρ)).flatMap sequenceItems = (ps.flatMap sequenceItems).map
      (rename ρ) := by
    simp only [List.flatMap_map, List.map_flatMap, sequenceItems_rename]
  unfold seq
  rw [items]
  match ps.flatMap sequenceItems with
  | [] => rfl
  | [_] => rfl
  | _ :: _ :: _ => simp

theorem rename_alt (i : Nat) (p : Pattern) (ps : List Pattern) :
    (alt i p ps).rename ρ = alt (ρ.id i) (p.rename ρ) (ps.map (rename ρ)) := by
  have items : (p.rename ρ :: ps.map (rename ρ)).flatMap choiceItems =
      ((p :: ps).flatMap choiceItems).map (rename ρ) := by
    rw [← List.map_cons]
    simp only [List.flatMap_map, List.map_flatMap, choiceItems_rename]
  have characters (qs : List Pattern) :
      (qs.map (rename ρ)).mapM characters? = qs.mapM characters? := by
    induction qs with
    | nil => rfl
    | cons q qs ih => simp [characters_rename, ih]
  unfold alt
  rw [items]
  match (p :: ps).flatMap choiceItems with
  | [] => rfl
  | [_] => rfl
  | q :: q' :: qs =>
    have hc := characters (q :: q' :: qs)
    simp only [List.map_cons] at hc ⊢
    rw [hc]
    cases (q :: q' :: qs).mapM characters? with
    | none => simp
    | some sets => rfl

theorem rename_repeated (i : Nat) (p : Pattern) :
    (repeated i p).rename ρ = repeated (ρ.id i) (p.rename ρ) := by
  induction p using induction_children with
  | node p ih =>
    cases p with
    | option j q => exact ih q (by simp [children])
    | _ => rfl

theorem rename_plus (starId i : Nat) (p : Pattern) :
    (plus starId i p).rename ρ = plus (ρ.id starId) (ρ.id i) (p.rename ρ) := by
  simp [plus, rename_seq, rename_repeated]

theorem rename_opt (i : Nat) (p : Pattern) : (opt i p).rename ρ = opt (ρ.id i) (p.rename ρ) := by
  cases p <;> rfl

theorem rename_ident (setId starId i : Nat) :
    (ident setId starId i).rename ρ = ident (ρ.id setId) (ρ.id starId) (ρ.id i) := by
  rw [ident, rename_seq]
  rfl

theorem rename_namedSet {name : Text} {p : Pattern} (h : namedSet? name = some p) :
    p.rename ρ = p := by
  unfold namedSet? at h
  split at h <;> cases h <;> rfl

theorem cost_rename {p : Pattern} (h : p.Normal .all) (below below' : Nat → Except Fault Int)
    (limit : Datum) : (p.rename ρ).costWith below' limit = p.costWith below limit := by
  have each {ps : List Pattern}
      (hps : ∀ q ∈ ps, (q.rename ρ).costWith below' limit = q.costWith below limit) (total : Int) :
      costEach below' limit (ps.map (rename ρ)) total = costEach below limit ps total := by
    induction ps generalizing total with
    | nil => rfl
    | cons q ps ih =>
      simp only [List.map_cons, costEach, hps q (by simp)]
      congr 1
      funext c
      congr 1
      funext reached
      rw [ih fun r hr => hps r (by simp [hr])]
  induction h with
  | @node p here _ ih =>
    cases p with
    | sequence i ps => simpa [rename_sequence, costWith, children] using each ih 0
    | choice i ps => simpa [rename_choice, costWith, children] using each ih 0
    | star i q => exact congrArg (· >>= counted limit) (ih q (by simp [children]))
    | option i q => exact congrArg (· >>= counted limit) (ih q (by simp [children]))
    | peek i q => exact congrArg (· >>= counted limit) (ih q (by simp [children]))
    | not i q => exact congrArg (· >>= counted limit) (ih q (by simp [children]))
    | search i q => exact congrArg (· >>= counted limit) (ih q (by simp [children]))
    | rule i r => exact here.elim
    | grammar i start others => exact here.elim
    | _ => rfl

end Pattern

def Rule.rename (ρ : Renaming) (rule : Rule) : Rule :=
  { rule with body := rule.body.map (Pattern.rename ρ) }

namespace Store

/-- What is made beside a store stands behind it. -/
def behind (old : Store) : Renaming where
  ids := old.fresh - Pattern.firstFresh
  rules := old.rules.size

/-- What was made in a store of its own, behind what another store holds. -/
def onto (s old : Store) : Store where
  fresh := s.fresh + old.behind.ids
  rules := old.rules ++ s.rules.map (Rule.rename old.behind)
  slots := s.slots.map (fun e => (old.behind.id e.1, e.2)) ++ old.slots
  counts := s.counts.map (fun e => (old.behind.id e.1, e.2)) ++ old.counts

variable {old : Store} (s : Store)

theorem onto_empty (h : Pattern.firstFresh ≤ old.fresh) : ({} : Store).onto old = old := by
  obtain ⟨fresh, rules, slots, counts⟩ := old
  simp only at h
  simp [onto, behind, Nat.add_sub_cancel' h]

theorem getElem_onto (r : Nat) :
    (s.onto old).rules[old.behind.rule r]? = (s.rules[r]?).map (Rule.rename old.behind) := by
  simp only [onto, behind, Renaming.rule]
  rw [Array.getElem?_append_right (Nat.le_add_left _ _), Nat.add_sub_cancel, Array.getElem?_map]

theorem rule_onto (r : Nat) :
    (s.onto old).rule (old.behind.rule r) = (s.rule r).rename old.behind := by
  simp only [rule, getElem_onto]
  cases s.rules[r]? <;> rfl

theorem body_onto (r : Nat) :
    (s.onto old).body? (old.behind.rule r) =
      (s.body? r).map (Option.map (Pattern.rename old.behind)) := by
  simp only [body?, rule_onto, Rule.rename, Option.isSome_map]
  split <;> rfl

theorem addRule_onto (old : Store) (rule : Rule) (h : rule.body = none) :
    (s.onto old).addRule rule = (old.behind.rule s.rules.size, (s.addRule rule).2.onto old) := by
  have hrule : rule.rename old.behind = rule := by
    obtain ⟨name, proper, place, declared, used, body⟩ := rule
    subst h
    rfl
  have hsize : (s.onto old).rules.size = old.behind.rule s.rules.size := by
    simp [onto, behind, Renaming.rule, Nat.add_comm]
  have hstore : ((s.onto old).addRule rule).2 = (s.addRule rule).2.onto old := by
    simp only [addRule, onto, Array.map_push, Array.append_push, hrule]
  exact Prod.ext hsize hstore

theorem modifyRule_onto (old : Store) (r : Nat) {f g : Rule → Rule}
    (h : ∀ rule, g (rule.rename old.behind) = (f rule).rename old.behind) :
    (s.onto old).modifyRule (old.behind.rule r) g = (s.modifyRule r f).onto old := by
  have hrules : (old.rules ++ s.rules.map (Rule.rename old.behind)).modify (old.behind.rule r) g =
      old.rules ++ (s.rules.modify r f).map (Rule.rename old.behind) := by
    apply Array.ext_getElem?
    intro k
    by_cases hk : k < old.rules.size
    · have hne : old.behind.rule r ≠ k := by simp only [Renaming.rule, behind]; omega
      rw [Array.getElem?_modify, if_neg hne, Array.getElem?_append_left hk,
        Array.getElem?_append_left hk]
    · have hle := Nat.le_of_not_lt hk
      rw [Array.getElem?_modify, Array.getElem?_append_right hle, Array.getElem?_append_right hle,
        Array.getElem?_map, Array.getElem?_map, Array.getElem?_modify]
      have hiff : old.behind.rule r = k ↔ r = k - old.rules.size := by
        simp only [Renaming.rule, behind]
        omega
      simp only [hiff]
      split
      · cases s.rules[k - old.rules.size]? <;> simp [h]
      · rfl
  simp only [modifyRule, onto, hrules]

theorem lookup_map_id (ρ : Renaming) (es : List (Nat × Nat)) (i : Nat) :
    (es.map fun e => (ρ.id e.1, e.2)).lookup (ρ.id i) = es.lookup i := by
  induction es with
  | nil => rfl
  | cons e es ih =>
    obtain ⟨j, slot⟩ := e
    simp only [List.map_cons, List.lookup_cons, ih]
    by_cases h : i = j
    · simp [h]
    · have hne : ρ.id i ≠ ρ.id j := fun hr => h (ρ.id_injective hr)
      rw [beq_false_of_ne h, beq_false_of_ne hne]

end Store

end PegMatch

import PegMatch.Proofs.Replacing

set_option autoImplicit false

namespace PegMatch

namespace Subject

variable {s : Subject} {c : Nat}

theorem mem_of_mem_slice {i j : Int} (h : c ∈ s.slice i j) : c ∈ s := by
  rw [slice, Array.toList_extract, List.extract_eq_take_drop] at h
  exact Array.mem_toList_iff.1 (List.mem_of_mem_drop (List.mem_of_mem_take h))

end Subject

namespace Template

variable {t out : Text} {m : Match} {c : Nat}

theorem mem_of_splits {is : List Item} (h : Splits t is) (hc : .rune c ∈ is) : c ∈ t := by
  induction h with
  | nil => cases hc
  | rune _ _ ih => grind
  | dollar _ ih => grind
  | next _ ih => grind
  | number _ _ _ ih => grind
  | braced _ _ ih => grind

theorem mem_items_of_mem_uses {next : Nat} {is : List Item} (h : .rune c ∈ uses next is) :
    .rune c ∈ is := by
  induction is generalizing next with
  | nil => cases h
  | cons i is ih =>
    cases i with
    | rune d => grind [uses]
    | number n => grind [uses]
    | next => grind [uses]

theorem mem_subject_of_mem_group {n : Nat} (h : c ∈ (Use.group n).text m) : c ∈ m.subject := by
  cases n with
  | zero => exact Subject.mem_of_mem_slice h
  | succ n =>
    rw [Use.text, Match.groups, List.getElem?_map] at h
    cases hspan : m.spans[n]? with
    | none => simp [hspan] at h
    | some span =>
      rw [hspan] at h
      cases span with
      | none => simp at h
      | some s => exact Subject.mem_of_mem_slice h

/-- A code point of a text that was filled in stands in the template or in the subject. -/
theorem mem_of_format (h : format t m = .ok out) (hc : c ∈ out) : c ∈ t ∨ c ∈ m.subject := by
  obtain ⟨is, hsplits, -, rfl⟩ := format_eq_ok_iff.1 h
  obtain ⟨u, hu, hc⟩ := List.mem_flatMap.1 hc
  cases u with
  | rune d =>
    cases List.mem_singleton.1 hc
    exact .inl (mem_of_splits hsplits (mem_items_of_mem_uses hu))
  | group n => exact .inr (mem_subject_of_mem_group hc)

end Template

theorem mem_weave {ps fs : List Text} {c : Nat} :
    c ∈ weave ps fs ↔ (∃ p ∈ ps, c ∈ p) ∨ ∃ f ∈ fs, c ∈ f := by
  fun_induction weave ps fs with
  | case1 fs => simp
  | case2 p ps => simp
  | case3 p ps f fs ih =>
    simp only [List.mem_append, ih, List.exists_mem_cons_iff, or_assoc, or_left_comm]

theorem exists_of_mem_right {α β : Type} {R : α → β → Prop} {xs : List α} {ys : List β}
    (h : List.Forall₂ R xs ys) {y : β} (hy : y ∈ ys) : ∃ x ∈ xs, R x y := by
  induction h with
  | nil => cases hy
  | cons hxy _ ih =>
    rcases List.mem_cons.1 hy with rfl | hy
    · exact ⟨_, List.mem_cons_self, hxy⟩
    · obtain ⟨x, hx, hr⟩ := ih hy
      exact ⟨x, List.mem_cons_of_mem _ hx, hr⟩

section

variable {α : Type} {probes : List (Probe × α)}

theorem probe_of_part {i : Nat} {xs : List (Part α)} {last : Text} (h : Parted probes i xs last)
    {x : Part α} (hx : x ∈ xs) : ∃ q, (q, x.what) ∈ probes ∧ q.Gives 0 x.found := by
  induction xs generalizing i with
  | nil => cases hx
  | cons y ys ih =>
    obtain ⟨-, hleads, hrest⟩ := h
    rcases List.mem_cons.1 hx with rfl | hx
    · obtain ⟨before, q, after, rfl, -, hgives, -, -⟩ := hleads
      exact ⟨q, by simp, hgives⟩
    · exact ih hrest hx

theorem Probe.Gives.subject {q : Probe} {origin : Int} {m : Match} (h : q.Gives origin m) :
    m.subject = q.subject := by
  obtain ⟨n, table, -, hmake⟩ := h
  exact Probe.subject_of_makeMatch hmake

theorem Divides.mem_of_piece {subject : Subject} {d : Division α} (h : Divides subject probes d)
    {p : Text} (hp : p ∈ d.pieces) {c : Nat} (hc : c ∈ p) : c ∈ subject := by
  rw [← Array.mem_toList_iff, ← h.text]
  exact mem_weave.2 (.inl ⟨p, hp, hc⟩)

end

/-- A code point of a text with matches replaced stands in the subject or in a template. -/
theorem mem_of_parallelReplace {subject : Subject} {probes : List (Probe × Text)} {out : Text}
    (same : ∀ x ∈ probes, x.1.subject = subject) (h : parallelReplace subject probes = .ok out)
    {c : Nat} (hc : c ∈ out) : c ∈ subject ∨ ∃ x ∈ probes, c ∈ x.2 := by
  obtain ⟨d, hd, ts, hfilled, rfl⟩ := filled_of_parallelReplace same h
  rcases mem_weave.1 hc with ⟨p, hp, hc⟩ | ⟨t, ht, hc⟩
  · exact .inl (hd.mem_of_piece hp hc)
  · obtain ⟨x, hx, hformat⟩ := exists_of_mem_right hfilled ht
    obtain ⟨q, hq, hgives⟩ := probe_of_part hd.parted hx
    rcases Template.mem_of_format hformat hc with hc | hc
    · exact .inr ⟨_, hq, hc⟩
    · rw [hgives.subject, same _ hq] at hc
      exact .inl hc

namespace Library

variable {l l' : Library} {subject : Subject}

theorem mem_of_replaceAll {subs : List (Given × Text)} {out : Text}
    (h : replaceAll subject subs l = .ok out l') {c : Nat} (hc : c ∈ out) :
    c ∈ subject ∨ ∃ s ∈ subs, c ∈ s.2 := by
  obtain ⟨probes, l₁, hprobes, h⟩ := bind_eq_ok_iff.1 h
  obtain ⟨hout, -⟩ := (result_ofExcept _ _).1 h
  have hready := prepareGiven_eq_ok hprobes
  have hsubjects : ∀ x ∈ probes, x.1.subject = subject := by
    intro x hx
    obtain ⟨s, -, hsubject, -⟩ := exists_of_mem_right hready hx
    exact hsubject
  refine (mem_of_parallelReplace hsubjects hout hc).imp_right ?_
  rintro ⟨x, hx, hc⟩
  obtain ⟨s, hs, -, -, htemplate⟩ := exists_of_mem_right hready hx
  exact ⟨s, hs, htemplate ▸ hc⟩

end Library

end PegMatch

import PegMatch.Proofs.CaptureOrder

set_option autoImplicit false

namespace PegMatch.Mark

/-- The second row is the first without some of the marks that stand further to the left in it or
among `seen`. -/
inductive Thin : List Mark → List Mark → List Mark → Prop where
  | nil {seen : List Mark} : Thin seen [] []
  | keep {seen ms ws : List Mark} {m : Mark} (h : Thin (m :: seen) ms ws) :
      Thin seen (m :: ms) (m :: ws)
  | drop {seen ms ws : List Mark} {m : Mark} (old : m ∈ seen) (h : Thin seen ms ws) :
      Thin seen (m :: ms) ws

variable {seen seen' ms ws ms' ws' pre : List Mark} {m : Mark} {n : Nat}

namespace Thin

theorem refl (seen ms : List Mark) : Thin seen ms ms := by
  induction ms generalizing seen with
  | nil => exact .nil
  | cons m ms ih => exact .keep (ih _)

theorem none (h : ms ⊆ seen) : Thin seen ms [] := by
  induction ms with
  | nil => exact .nil
  | cons m ms ih =>
    obtain ⟨hm, hms⟩ := List.cons_subset.1 h
    exact .drop hm (ih hms)

theorem mono (h : Thin seen ms ws) (hs : seen ⊆ seen') : Thin seen' ms ws := by
  induction h generalizing seen' with
  | nil => exact .nil
  | keep _ ih => exact .keep (ih (List.cons_subset_cons _ hs))
  | drop old _ ih => exact .drop (hs old) (ih hs)

theorem append (h : Thin seen ms ws) (h' : Thin (ms ++ seen) ms' ws') :
    Thin seen (ms ++ ms') (ws ++ ws') := by
  induction h with
  | nil => exact h'
  | @keep seen ms ws m _ ih =>
    refine .keep (ih (h'.mono fun k hk => ?_))
    simp only [List.cons_append, List.mem_cons, List.mem_append] at hk ⊢
    tauto
  | @drop seen ms ws m old _ ih =>
    refine .drop old (ih (h'.mono fun k hk => ?_))
    simp only [List.cons_append, List.mem_cons, List.mem_append] at hk ⊢
    rcases hk with rfl | hk
    · exact .inr old
    · exact hk

theorem flatMap {α : Type} {f g : α → List Mark} {as : List α} (h : ∀ a ∈ as, Thin [] (f a) (g a)) :
    Thin [] (as.flatMap f) (as.flatMap g) := by
  induction as with
  | nil => exact .nil
  | cons a as ih =>
    obtain ⟨ha, has⟩ := List.forall_mem_cons.1 h
    exact ha.append ((ih has).mono (List.nil_subset _))

end Thin

theorem order_append (ms ws : List Mark) :
    order (ms ++ ws) = order ms ++ ((captured ws).removeAll (captured ms)).eraseDups := by
  rw [order, captured_append, List.eraseDups_append, order]

theorem order_append_cons (h : m ∈ pre) (ms : List Mark) :
    order (pre ++ m :: ms) = order (pre ++ ms) := by
  cases m with
  | reference k => simp [order]
  | capture id =>
    have hid : id ∈ captured pre := mem_captured.2 h
    simp [order_append, List.removeAll, hid]

theorem Thin.order_eq (h : Thin seen ms ws) (hs : seen ⊆ pre) :
    order (pre ++ ms) = order (pre ++ ws) := by
  induction h generalizing pre with
  | nil => rfl
  | @keep seen ms ws m _ ih =>
    rw [List.append_cons, List.append_cons pre m ws]
    refine ih fun k hk => ?_
    rcases List.mem_cons.1 hk with rfl | hk
    · simp
    · exact List.mem_append_left _ (hs hk)
  | drop old _ ih => rw [order_append_cons (hs old), ih hs]

theorem Backed.without (h : Backed n (pre ++ m :: ms)) (hm : m ∈ pre) : Backed n (pre ++ ms) := by
  refine (h.left).append fun before k after hsplit => ?_
  have hk := h (pre ++ m :: before) k after (by simp [hsplit])
  rwa [order_append_cons hm] at hk

theorem Thin.backed (h : Thin seen ms ws) (hs : seen ⊆ pre) (hb : Backed n (pre ++ ms)) :
    Backed n (pre ++ ws) := by
  induction h generalizing pre with
  | nil => exact hb
  | @keep seen ms ws m _ ih =>
    rw [List.append_cons] at hb ⊢
    refine ih (fun k hk => ?_) hb
    rcases List.mem_cons.1 hk with rfl | hk
    · simp
    · exact List.mem_append_left _ (hs hk)
  | drop old _ ih => exact ih hs (hb.without (hs old))

theorem order_sublist (ms : List Mark) : (order ms).Sublist (captured ms) := by
  induction ms using List.reverseRecOn with
  | nil => exact .slnil
  | append_singleton ms m ih =>
    rw [captured_append]
    rcases order_concat_cases ms m with ⟨id, rfl, hid, hmore⟩ | hsame
    · rw [hmore]
      exact ih.append (.refl _)
    · rw [hsame]
      exact ih.trans (List.sublist_append_left _ _)

/-- A thinned row with as many captures as the whole row has different ones has them in their
order. -/
theorem Thin.captured_eq (h : Thin [] ms ws) (hl : (captured ws).length = (order ms).length) :
    captured ws = order ms := by
  have horder : order ms = order ws := by simpa using h.order_eq (List.nil_subset [])
  rw [horder] at hl ⊢
  exact ((order_sublist ws).eq_of_length hl.symm).symm

theorem Thin.sublist (h : Thin seen ms ws) : ws.Sublist ms := by
  induction h with
  | nil => exact .slnil
  | keep _ ih => exact ih.cons_cons _
  | drop _ _ ih => exact ih.cons _

theorem order_of_nodup (hn : (captured ms).Nodup) : order ms = captured ms := by
  induction ms with
  | nil => rfl
  | cons m ms ih =>
    cases m with
    | reference k => exact ih hn
    | capture id =>
      obtain ⟨hnew, hn⟩ := List.nodup_cons.1 hn
      rw [order_cons_of_new hnew, ih hn, captured_capture]

theorem Thin.captured_eq_of_nodup (h : Thin [] ms ws) (hn : (captured ms).Nodup) :
    captured ws = order ms := by
  have horder : order ms = order ws := by simpa using h.order_eq (List.nil_subset [])
  rw [order_of_nodup (hn.sublist (h.sublist.filterMap _))] at horder
  exact horder.symm

end PegMatch.Mark

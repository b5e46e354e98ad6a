/-!
# Leaving elements out of a list

Which lists are left of a list when some of its elements go, and only such as may go. What stands in
the list and may not go divides it, and the parts on both sides can be looked at by themselves.
-/

namespace TypeNotation

/-- The second list is the first without some of the elements that may be left out. -/
inductive LeavesOut {α : Type} (p : α → Prop) : List α → List α → Prop
  | nil : LeavesOut p [] []
  | keep {as kept : List α} (a : α) (htail : LeavesOut p as kept) :
      LeavesOut p (a :: as) (a :: kept)
  | drop {as kept : List α} {a : α} (ha : p a) (htail : LeavesOut p as kept) :
      LeavesOut p (a :: as) kept

section LeavesOut

variable {α β : Type} {p : α → Prop} {q : β → Prop}

@[refl] theorem LeavesOut.refl (as : List α) : LeavesOut p as as := by
  induction as with
  | nil => exact .nil
  | cons a _ ih => exact .keep a ih

theorem LeavesOut.append {as bs kept kept' : List α} (h : LeavesOut p as kept)
    (h' : LeavesOut p bs kept') : LeavesOut p (as ++ bs) (kept ++ kept') := by
  induction h with
  | nil => exact h'
  | keep a _ ih => exact .keep a ih
  | drop ha _ ih => exact .drop ha ih

theorem LeavesOut.length_le {as kept : List α} (h : LeavesOut p as kept) :
    kept.length ≤ as.length := by
  induction h with
  | nil => exact Nat.le_refl _
  | keep _ _ ih => exact Nat.succ_le_succ ih
  | drop _ _ ih => exact Nat.le_succ_of_le ih

/-- Nothing is left out if as much is left. -/
theorem LeavesOut.eq_of_length {as kept : List α} (h : LeavesOut p as kept)
    (hlength : kept.length = as.length) : kept = as := by
  induction h with
  | nil => rfl
  | keep a _ ih => rw [ih (Nat.succ_inj.mp hlength)]
  | drop _ htail _ =>
    have hle := htail.length_le
    rw [hlength, List.length_cons] at hle
    omega

theorem LeavesOut.subset {as kept : List α} (h : LeavesOut p as kept) : ∀ a ∈ kept, a ∈ as := by
  induction h with
  | nil => exact fun _ ha ↦ ha
  | keep b _ ih =>
    intro a ha
    rcases List.mem_cons.mp ha with rfl | ha
    · exact List.mem_cons_self
    · exact List.mem_cons_of_mem b (ih a ha)
  | drop _ _ ih => exact fun a ha ↦ List.mem_cons_of_mem _ (ih a ha)

theorem LeavesOut.map (f : α → β) (hf : ∀ a, p a → q (f a)) {as kept : List α}
    (h : LeavesOut p as kept) : LeavesOut q (as.map f) (kept.map f) := by
  induction h with
  | nil => exact .nil
  | keep a _ ih => exact .keep (f a) ih
  | drop ha _ ih => exact .drop (hf _ ha) ih

/-- Nothing is left out if nothing may be. -/
theorem LeavesOut.eq {as kept : List α} (h : LeavesOut p as kept) (has : ∀ a ∈ as, ¬p a) :
    kept = as := by
  induction h with
  | nil => rfl
  | keep a _ ih => rw [ih (List.forall_mem_cons.mp has).2]
  | drop ha _ _ => exact absurd ha (List.forall_mem_cons.mp has).1

theorem LeavesOut.exists_cons {a : α} {as kept : List α} (h : LeavesOut p (a :: as) kept)
    (ha : ¬p a) : ∃ kept', kept = a :: kept' ∧ LeavesOut p as kept' := by
  cases h with
  | keep _ htail => exact ⟨_, rfl, htail⟩
  | drop ha' _ => exact absurd ha' ha

theorem LeavesOut.exists_append {as bs kept : List α} (h : LeavesOut p (as ++ bs) kept) :
    ∃ first second, kept = first ++ second ∧ LeavesOut p as first ∧ LeavesOut p bs second := by
  induction as generalizing kept with
  | nil => exact ⟨[], kept, rfl, .nil, h⟩
  | cons a as ih =>
    rw [List.cons_append] at h
    cases h with
    | keep _ htail =>
      obtain ⟨first, second, rfl, hfirst, hsecond⟩ := ih htail
      exact ⟨a :: first, second, rfl, .keep a hfirst, hsecond⟩
    | drop ha htail =>
      obtain ⟨first, second, rfl, hfirst, hsecond⟩ := ih htail
      exact ⟨first, second, rfl, .drop ha hfirst, hsecond⟩

theorem LeavesOut.exists_append_cons {as bs kept : List α} {a : α}
    (h : LeavesOut p (as ++ a :: bs) kept) (ha : ¬p a) :
    ∃ first second, kept = first ++ a :: second ∧ LeavesOut p as first ∧ LeavesOut p bs second := by
  obtain ⟨first, behind, rfl, hfirst, hbehind⟩ := h.exists_append
  obtain ⟨second, rfl, hsecond⟩ := hbehind.exists_cons ha
  exact ⟨first, second, rfl, hfirst, hsecond⟩

theorem LeavesOut.exists_append_singleton {as kept : List α} {a : α}
    (h : LeavesOut p (as ++ [a]) kept) (ha : ¬p a) :
    ∃ first, kept = first ++ [a] ∧ LeavesOut p as first := by
  obtain ⟨first, second, rfl, hfirst, hsecond⟩ := h.exists_append_cons ha
  exact ⟨first, by rw [hsecond.eq (by simp)], hfirst⟩

end LeavesOut

end TypeNotation

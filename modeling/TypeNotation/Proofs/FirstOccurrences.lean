import Mathlib.Data.List.Induction
import Mathlib.Data.List.Nodup

/-!
# Elements in order of first occurrence

`List.eraseDups` keeps the first occurrence of each element. Read from the right end, one element
more changes the list only if it is new; this is how tables grow that keep the place of what they
hold already.
-/

namespace TypeNotation

section Distinct

variable {α : Type} [BEq α] [LawfulBEq α]

theorem eraseDups_concat (as : List α) (a : α) :
    (as ++ [a]).eraseDups = if a ∈ as then as.eraseDups else as.eraseDups ++ [a] := by
  rw [List.eraseDups_append]
  by_cases h : a ∈ as <;> simp [List.removeAll, List.eraseDups_cons, h]

theorem nodup_eraseDups (as : List α) : as.eraseDups.Nodup := by
  induction as using List.reverseRecOn with
  | nil => exact List.nodup_nil
  | append_singleton as a ih =>
    rw [eraseDups_concat]
    split
    · exact ih
    · next h =>
      refine List.nodup_append.mpr ⟨ih, List.nodup_singleton a, ?_⟩
      rintro b hb _ hc rfl
      exact h (List.mem_eraseDups.mp (List.mem_singleton.mp hc ▸ hb))

end Distinct

end TypeNotation

import Mathlib.Data.List.Basic
import TypeNotation.NameMap.Basic
import TypeNotation.Proofs.FirstOccurrences

/-!
# Tables made by writing

What is in a name map after a number of writes, told by the writes alone: the names stand in order
of their first write, and what stands for a name is what was written for it last. Nothing that was
written before for the name has an effect on it. A map is what writing its own entries makes of the
empty one.

The inductions are on the last write, since this is the one that decides.
-/

namespace TypeNotation

namespace NameMap

def putAll (map : NameMap) (writes : List (String × NameMapping)) : NameMap :=
  writes.foldl (fun map write ↦ map.put write.1 write.2) map

section PutAll

variable {map : NameMap} {writes : List (String × NameMapping)}

theorem putAll_concat (map : NameMap) (writes : List (String × NameMapping)) (raw : String)
    (mapping : NameMapping) :
    map.putAll (writes ++ [(raw, mapping)]) = (map.putAll writes).put raw mapping :=
  List.foldl_append

/-! ## Names -/

/-- The names stand in order of their first write. -/
theorem names_putAll_empty (writes : List (String × NameMapping)) :
    (empty.putAll writes).entries.map Prod.fst = (writes.map Prod.fst).eraseDups := by
  induction writes using List.reverseRecOn with
  | nil => rfl
  | append_singleton writes write ih =>
    rw [putAll_concat, put, map_fst_putEntry, ih, List.map_append, List.map_singleton,
      eraseDups_concat]
    simp only [List.mem_eraseDups]

theorem size_putAll_empty (writes : List (String × NameMapping)) :
    (empty.putAll writes).size = (writes.map Prod.fst).eraseDups.length := by
  rw [← names_putAll_empty, List.length_map]
  rfl

theorem isEmpty_putAll_empty_iff : (empty.putAll writes).isEmpty = true ↔ writes = [] := by
  have hnames := names_putAll_empty writes
  constructor
  · intro h
    have hentries : (empty.putAll writes).entries = [] := List.isEmpty_iff.mp h
    rw [hentries, List.map_nil] at hnames
    refine List.eq_nil_iff_forall_not_mem.mpr fun write hwrite ↦ ?_
    have hmem := List.mem_eraseDups.mpr (List.mem_map_of_mem (f := Prod.fst) hwrite)
    rw [← hnames] at hmem
    exact List.not_mem_nil hmem
  · rintro rfl
    rfl

/-! ## Replacements -/

theorem resolve_putAll_of_forall_ne {raw : String} (h : raw ∉ writes.map Prod.fst) :
    (map.putAll writes).resolve raw = map.resolve raw := by
  induction writes using List.reverseRecOn with
  | nil => rfl
  | append_singleton writes write ih =>
    rw [List.map_append, List.mem_append, not_or] at h
    have hne : raw ≠ write.1 := fun heq ↦ h.2 (heq ▸ List.mem_singleton_self _)
    rw [putAll_concat, resolve_put, if_neg hne, ih h.1]

/-- What stands for a name is what was written for it last. -/
theorem resolve_putAll_of_last {before behind : List (String × NameMapping)} {raw : String}
    (mapping : NameMapping) (h : raw ∉ behind.map Prod.fst) :
    (map.putAll (before ++ (raw, mapping) :: behind)).resolve raw =
      some (mapping.replacement raw) := by
  have hsplit : map.putAll (before ++ (raw, mapping) :: behind) =
      ((map.putAll before).put raw mapping).putAll behind := by
    rw [putAll, List.foldl_append, List.foldl_cons]
    rfl
  rw [hsplit, resolve_putAll_of_forall_ne h, resolve_put, if_pos rfl]

/-! ## Own entries -/

theorem putEntry_of_not_mem {raw : String} {mapping : NameMapping}
    {entries : List (String × NameMapping)} (h : raw ∉ entries.map Prod.fst) :
    putEntry raw mapping entries = entries ++ [(raw, mapping)] := by
  induction entries with
  | nil => rfl
  | cons entry entries ih =>
    rw [List.map_cons, List.mem_cons, not_or] at h
    rw [putEntry, if_neg (Ne.symm h.1), ih h.2, List.cons_append]

/-- Entries for different names are the entries of the map that they make. -/
theorem entries_putAll_empty (h : (writes.map Prod.fst).Nodup) :
    (empty.putAll writes).entries = writes := by
  induction writes using List.reverseRecOn with
  | nil => rfl
  | append_singleton writes write ih =>
    rw [List.map_append, List.nodup_append] at h
    obtain ⟨hwrites, -, hne⟩ := h
    have hnew : write.1 ∉ writes.map Prod.fst := fun hmem ↦
      hne _ hmem _ (List.mem_singleton_self _) rfl
    rw [putAll_concat, put]
    change putEntry write.1 write.2 (empty.putAll writes).entries = _
    rw [ih hwrites, putEntry_of_not_mem hnew]

end PutAll

theorem entries_injective {map map' : NameMap} (h : map.entries = map'.entries) : map = map' := by
  obtain ⟨entries, _⟩ := map
  obtain ⟨entries', _⟩ := map'
  obtain rfl : entries = entries' := h
  rfl

theorem putAll_entries (map : NameMap) : empty.putAll map.entries = map :=
  entries_injective (entries_putAll_empty map.distinct)

end NameMap

end TypeNotation

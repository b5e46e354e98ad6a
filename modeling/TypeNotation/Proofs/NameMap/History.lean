import TypeNotation.Proofs.NameMap.Loading

/-!
# Histories of name maps

After any changes, a name map holds what has been written since the last load that succeeded: the
entries that were loaded, and after them one more for each name that was renamed or imported. A load
that fails writes nothing. Which of the writes a name follows, and where it stands, is then known
from the writes alone.

Changes are added at the end, so the induction is on the last one.
-/

namespace TypeNotation

/-! ## What has been written -/

/-- The writes since the last load that succeeded, in order and with those that are written over
later. -/
inductive Written : List NameMapChange → List (String × NameMapping) → Prop
  | start : Written [] []
  | load {changes : List NameMapChange} {text : String} {loaded : List (String × NameMapping)}
      (hloads : Loads text loaded) : Written (changes ++ [.load text]) loaded
  | failed {changes : List NameMapChange} {text : String} {writes : List (String × NameMapping)}
      (hwritten : Written changes writes) (hfails : ∀ loaded, ¬Loads text loaded) :
      Written (changes ++ [.load text]) writes
  | rename {changes : List NameMapChange} {writes : List (String × NameMapping)}
      (raw name : String) (hwritten : Written changes writes) :
      Written (changes ++ [.rename raw name]) (writes ++ [(raw, .rename name)])
  | importing {changes : List NameMapChange} {writes : List (String × NameMapping)}
      (raw : String) (name : Option String) (origin : String) (hwritten : Written changes writes) :
      Written (changes ++ [.importing raw name origin])
        (writes ++ [(raw, .detailed name (some origin))])

theorem exists_written (changes : List NameMapChange) : ∃ writes, Written changes writes := by
  induction changes using List.reverseRecOn with
  | nil => exact ⟨[], .start⟩
  | append_singleton changes change ih =>
    obtain ⟨writes, hwritten⟩ := ih
    cases change with
    | load text =>
      by_cases h : ∃ loaded, Loads text loaded
      · obtain ⟨loaded, hloads⟩ := h
        exact ⟨loaded, .load hloads⟩
      · exact ⟨writes, .failed hwritten (not_exists.mp h)⟩
    | rename raw name => exact ⟨_, .rename raw name hwritten⟩
    | importing raw name origin => exact ⟨_, .importing raw name origin hwritten⟩

/-! ## What the map holds -/

section ApplyAll

variable {map : NameMap} {changes : List NameMapChange} {text : String}

theorem NameMap.applyAll_concat (map : NameMap) (changes : List NameMapChange)
    (change : NameMapChange) :
    map.applyAll (changes ++ [change]) =
      ((map.applyAll changes).apply change).toOption.getD (map.applyAll changes) :=
  List.foldl_append

theorem applyAll_load_of_loads {loaded : List (String × NameMapping)} (h : Loads text loaded) :
    map.applyAll (changes ++ [.load text]) = NameMap.empty.putAll loaded := by
  have hread : NameMap.ofJson text = .ok (NameMap.empty.putAll loaded) :=
    NameMap.ofJson_eq_ok_iff.mpr ⟨loaded, h, rfl⟩
  rw [NameMap.applyAll_concat, NameMap.apply, hread]
  rfl

theorem applyAll_load_of_forall_not (h : ∀ loaded, ¬Loads text loaded) :
    map.applyAll (changes ++ [.load text]) = map.applyAll changes := by
  rw [NameMap.applyAll_concat, NameMap.apply, NameMap.toOption_ofJson_of_forall_not h]
  rfl

/-- The map is what its writes make of the empty one. -/
theorem applyAll_of_written {writes : List (String × NameMapping)} (h : Written changes writes) :
    NameMap.empty.applyAll changes = NameMap.empty.putAll writes := by
  induction h with
  | start => rfl
  | load hloads => exact applyAll_load_of_loads hloads
  | failed _ hfails ih => rw [applyAll_load_of_forall_not hfails, ih]
  | rename raw name _ ih =>
    rw [NameMap.applyAll_concat, ih, NameMap.putAll_concat]
    rfl
  | importing raw name origin _ ih =>
    rw [NameMap.applyAll_concat, ih, NameMap.putAll_concat]
    rfl

end ApplyAll

/-- **A name map is a table in order of insertion where the last write counts, after any changes.**
Any history has its writes: the entries of the last text that was loaded, if one was, and what was
renamed and imported since. The names stand once each, in order of their first write, and are as
many as there are different ones. Nothing stands for a name that was not written; for any other
stands what was written last: a plain name without an origin, or the name and the origin of an
object or of what was imported, with the name itself in place of an absent one. No earlier write
leaves a trace. A text is loaded exactly if it is the text of an object whose members each describe
an entry, in whatever way it is written, and a load that fails changes nothing at all. -/
theorem names_follow_last_write (changes : List NameMapChange) :
    (∃ writes, Written changes writes) ∧
    (∀ writes, Written changes writes →
      (NameMap.empty.applyAll changes).entries.map Prod.fst = (writes.map Prod.fst).eraseDups ∧
      ((NameMap.empty.applyAll changes).entries.map Prod.fst).Nodup ∧
      (NameMap.empty.applyAll changes).size = (writes.map Prod.fst).eraseDups.length ∧
      ((NameMap.empty.applyAll changes).isEmpty = true ↔ writes = []) ∧
      (∀ raw, raw ∉ writes.map Prod.fst →
        (NameMap.empty.applyAll changes).resolve raw = none) ∧
      ∀ before raw mapping behind, writes = before ++ (raw, mapping) :: behind →
        raw ∉ behind.map Prod.fst →
        (∀ name, mapping = .rename name →
          (NameMap.empty.applyAll changes).resolve raw = some ⟨name, none⟩) ∧
        ∀ name origin, mapping = .detailed name origin →
          (NameMap.empty.applyAll changes).resolve raw = some ⟨name.getD raw, origin⟩) ∧
    (∀ text members loaded, IsJson text.toList (.object members) →
      (JsonValue.object members).depth ≤ maxLevels → List.Forall₂ DescribesEntry members loaded →
      Loads text loaded) ∧
    ∀ text, ((∃ error, NameMap.ofJson text = .error error) ↔ ∀ loaded, ¬Loads text loaded) ∧
      ((∃ error, NameMap.ofJson text = .error error) →
        NameMap.empty.applyAll (changes ++ [.load text]) = NameMap.empty.applyAll changes) := by
  refine ⟨exists_written changes, fun writes hwritten ↦ ?_,
    fun text members loaded ↦ loads_of_isJson, fun text ↦ ⟨NameMap.ofJson_eq_error_iff, ?_⟩⟩
  · have hnames := NameMap.names_putAll_empty writes
    rw [applyAll_of_written hwritten]
    refine ⟨hnames, (NameMap.empty.putAll writes).distinct, NameMap.size_putAll_empty writes,
      NameMap.isEmpty_putAll_empty_iff, fun raw hraw ↦ ?_, ?_⟩
    · exact NameMap.resolve_putAll_of_forall_ne hraw
    · rintro before raw mapping behind rfl hlast
      have hresolve : (NameMap.empty.putAll (before ++ (raw, mapping) :: behind)).resolve raw =
          some (mapping.replacement raw) := NameMap.resolve_putAll_of_last mapping hlast
      constructor
      · rintro name rfl
        exact hresolve
      · rintro name origin rfl
        exact hresolve
  · intro herror
    exact applyAll_load_of_forall_not (NameMap.ofJson_eq_error_iff.mp herror)

end TypeNotation

/-!
# Name maps

A name map says how the entity names of an annotation are to be written elsewhere, and where the
written names have to be imported from. It is a table in order of first insertion: writing a name
again replaces what was written for it and leaves it in its place. That no name is written twice is
part of the type, so it holds of every map however it came about.
-/

namespace TypeNotation

/-! ## Entries -/

/-- What is written for one name. -/
inductive NameMapping
  /-- Another name. -/
  | rename (name : String)
  /-- Possibly another name, and possibly an origin to import it from. -/
  | detailed (name origin : Option String)
  deriving DecidableEq, Repr, Inhabited

/-- What stands for a name: the name to write and its origin, if it has one. -/
structure Replacement where
  name : String
  origin : Option String
  deriving DecidableEq, Repr, Inhabited

/-- What stands for `raw` under a mapping. Without another name it stands for itself. -/
def NameMapping.replacement (raw : String) : NameMapping → Replacement
  | rename name => ⟨name, none⟩
  | detailed name origin => ⟨name.getD raw, origin⟩

/-- Replaces the entry of a name in its place, or adds one at the end. -/
def putEntry (raw : String) (mapping : NameMapping) :
    List (String × NameMapping) → List (String × NameMapping)
  | [] => [(raw, mapping)]
  | (key, old) :: entries =>
    if key = raw then (key, mapping) :: entries
    else (key, old) :: putEntry raw mapping entries

/-- The names after a write: the same, with the new one at the end if it was not there. -/
theorem map_fst_putEntry (raw : String) (mapping : NameMapping)
    (entries : List (String × NameMapping)) :
    (putEntry raw mapping entries).map Prod.fst =
      if raw ∈ entries.map Prod.fst then entries.map Prod.fst
      else entries.map Prod.fst ++ [raw] := by
  induction entries with
  | nil => simp [putEntry]
  | cons entry entries ih =>
    obtain ⟨key, old⟩ := entry
    by_cases h : key = raw
    · simp [putEntry, h]
    · simp only [putEntry, h, if_false, List.map_cons, ih, List.mem_cons, Ne.symm h, false_or]
      split <;> rfl

/-- The entries after a write: the one that was written, and all others as they were. -/
theorem lookup_putEntry (raw key : String) (mapping : NameMapping)
    (entries : List (String × NameMapping)) :
    (putEntry raw mapping entries).lookup key =
      if key = raw then some mapping else entries.lookup key := by
  have skip (key other : String) (old : NameMapping) (rest : List (String × NameMapping))
      (h : key ≠ other) : ((other, old) :: rest).lookup key = rest.lookup key := by
    rw [List.lookup_cons, beq_false_of_ne h]
  induction entries with
  | nil =>
    by_cases h : key = raw
    · simp [putEntry, h]
    · simp [putEntry, skip _ _ _ _ h, h]
  | cons entry entries ih =>
    obtain ⟨other, old⟩ := entry
    by_cases hother : other = raw
    · by_cases h : key = raw
      · simp [putEntry, hother, h]
      · simp [putEntry, hother, h, skip _ _ _ _ h]
    · by_cases h : key = other
      · simp [putEntry, hother, h]
      · rw [putEntry, if_neg hother, skip _ _ _ _ h, skip _ _ _ _ h, ih]

/-! ## Maps -/

/-- A table of names in order of first insertion. -/
structure NameMap where
  entries : List (String × NameMapping)
  /-- No name has two entries. -/
  distinct : (entries.map Prod.fst).Nodup
  deriving DecidableEq

namespace NameMap

def empty : NameMap := ⟨[], List.nodup_nil⟩

instance : Inhabited NameMap := ⟨empty⟩

def put (map : NameMap) (raw : String) (mapping : NameMapping) : NameMap where
  entries := putEntry raw mapping map.entries
  distinct := by
    rw [map_fst_putEntry]
    split
    · exact map.distinct
    · next h =>
      refine List.nodup_append.2 ⟨map.distinct, by simp, fun a ha b hb hab ↦ h ?_⟩
      rw [List.mem_singleton] at hb
      exact hb ▸ hab ▸ ha

/-- Has a name written as another. -/
def rename (map : NameMap) (raw name : String) : NameMap := map.put raw (.rename name)

/-- Has a name imported from an origin, possibly as another. -/
def importing (map : NameMap) (raw : String) (name : Option String) (origin : String) : NameMap :=
  map.put raw (.detailed name (some origin))

/-- What stands for a name, if there is an entry for it. -/
def resolve (map : NameMap) (raw : String) : Option Replacement :=
  (map.entries.lookup raw).map (·.replacement raw)

theorem resolve_put (map : NameMap) (raw key : String) (mapping : NameMapping) :
    (map.put raw mapping).resolve key =
      if key = raw then some (mapping.replacement key) else map.resolve key := by
  simp only [resolve, put, lookup_putEntry]
  split <;> rfl

def size (map : NameMap) : Nat := map.entries.length

def isEmpty (map : NameMap) : Bool := map.entries.isEmpty

end NameMap

end TypeNotation

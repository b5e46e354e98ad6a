import TypeNotation.Proofs.NameMap.History

/-!
# Writing name maps and loading them again

The JSON value of a map tells each entry in its own shape: a string for a plain name, an object for
anything else, with the parts that are there. So the members of the value describe the entries
again, and since a map is what its own entries make of the empty one, loading its text gives it
back. No nesting is too deep for the reader, whatever the map holds.
-/

namespace TypeNotation

/-! ## The value of an entry -/

theorem forall_mem_parts {P : JsonValue → Prop} (h : ∀ text, P (.string text))
    (name origin : Option String) :
    ∀ member ∈ optionalMember "name" name ++ optionalMember "from" origin, P member.2 := by
  have hoptional (key : String) (value : Option String) :
      ∀ member ∈ optionalMember key value, P member.2 := by
    intro member hmember
    obtain ⟨text, -, rfl⟩ := List.mem_map.mp hmember
    exact h text
  exact List.forall_mem_append.mpr ⟨hoptional _ name, hoptional _ origin⟩

theorem NameMapping.numberFree_toJson (mapping : NameMapping) : NumberFree mapping.toJson := by
  cases mapping with
  | rename name => exact .string name
  | detailed name origin => exact .object (forall_mem_parts .string name origin)

theorem NameMapping.depth_toJson_le (mapping : NameMapping) : mapping.toJson.depth ≤ 1 := by
  cases mapping with
  | rename name => exact Nat.zero_le 1
  | detailed name origin =>
    have hstring (text : String) : (JsonValue.string text).depth ≤ 0 := Nat.le_refl 0
    have hparts := forall_mem_parts (P := (·.depth ≤ 0)) hstring name origin
    exact JsonValue.depth_object_le_iff.mpr ⟨0, rfl, hparts⟩

/-- Of the values under a key, only those of its own optional member are there. -/
theorem valuesAt_optionalMember (key key' : String) (value : Option String) :
    valuesAt key (optionalMember key' value) =
      if key' = key then value.toList.map JsonValue.string else [] := by
  cases value with
  | none => simp [valuesAt, optionalMember]
  | some text => simp [valuesAt, optionalMember, List.filter_cons, apply_ite]

theorem valuesAt_append (key : String) (members members' : List (String × JsonValue)) :
    valuesAt key (members ++ members') = valuesAt key members ++ valuesAt key members' := by
  rw [valuesAt, List.filter_append, List.map_append]
  rfl

theorem tellsText_toList (value : Option String) :
    TellsText (value.toList.map JsonValue.string) value := by
  cases value with
  | none => exact .absent
  | some text => exact .text text

/-- The object of an entry has a member for each part that is there, and none for one that is
absent. -/
theorem valuesAt_parts (name origin : Option String) :
    valuesAt "name" (optionalMember "name" name ++ optionalMember "from" origin) =
        name.toList.map JsonValue.string ∧
      valuesAt "from" (optionalMember "name" name ++ optionalMember "from" origin) =
        origin.toList.map JsonValue.string := by
  constructor
  · rw [valuesAt_append, valuesAt_optionalMember, valuesAt_optionalMember, if_pos rfl,
      if_neg (by decide), List.append_nil]
  · rw [valuesAt_append, valuesAt_optionalMember, valuesAt_optionalMember, if_neg (by decide),
      if_pos rfl, List.nil_append]

theorem NameMapping.describes_toJson (mapping : NameMapping) :
    Describes mapping.toJson mapping := by
  cases mapping with
  | rename name => exact .rename name
  | detailed name origin =>
    obtain ⟨hname, horigin⟩ := valuesAt_parts name origin
    refine .detailed ?_ ?_
    · rw [hname]
      exact tellsText_toList name
    · rw [horigin]
      exact tellsText_toList origin

/-! ## The value of a map -/

namespace NameMap

theorem numberFree_toJson (map : NameMap) : NumberFree map.toJson := by
  refine .object fun member hmember ↦ ?_
  obtain ⟨entry, -, rfl⟩ := List.mem_map.mp hmember
  exact entry.2.numberFree_toJson

theorem depth_toJson_le (map : NameMap) : map.toJson.depth ≤ maxLevels := by
  refine JsonValue.depth_object_le_iff.mpr ⟨126, rfl, fun member hmember ↦ ?_⟩
  obtain ⟨entry, -, rfl⟩ := List.mem_map.mp hmember
  exact Nat.le_trans entry.2.depth_toJson_le (by decide)

theorem isJson_compact (map : NameMap) : IsJson map.toJson.compact.toList map.toJson := by
  rw [JsonValue.compact, String.toList_ofList]
  exact map.numberFree_toJson.isJson_compactChars

theorem isJson_indented (map : NameMap) : IsJson map.toJson.indented.toList map.toJson := by
  rw [JsonValue.indented, String.toList_ofList]
  exact map.numberFree_toJson.isJson_indentedChars 0

theorem forall₂_describesEntry (map : NameMap) :
    List.Forall₂ DescribesEntry (map.entries.map fun (raw, mapping) ↦ (raw, mapping.toJson))
      map.entries := by
  rw [List.forall₂_map_left_iff]
  exact List.forall₂_same.mpr fun entry _ ↦ .mk entry.2.describes_toJson

/-- Each of the texts that stand for a map's value loads the entries of the map. -/
theorem loads_of_isJson_toJson {text : String} {map : NameMap}
    (h : IsJson text.toList map.toJson) : Loads text map.entries :=
  loads_of_isJson h map.depth_toJson_le map.forall₂_describesEntry

theorem ofJson_of_isJson_toJson {text : String} {map : NameMap}
    (h : IsJson text.toList map.toJson) : NameMap.ofJson text = .ok map :=
  NameMap.ofJson_eq_ok_iff.mpr ⟨map.entries, loads_of_isJson_toJson h, map.putAll_entries.symm⟩

/-- Maps with a text in common are the same. -/
theorem eq_of_isJson_toJson {text : String} {map map' : NameMap}
    (h : IsJson text.toList map.toJson) (h' : IsJson text.toList map'.toJson) : map = map' :=
  Except.ok.inj ((ofJson_of_isJson_toJson h).symm.trans (ofJson_of_isJson_toJson h'))

end NameMap

/-- **Loading undoes writing, for all maps.** After any changes, and whatever the keys, names and
origins are, the map is loaded again from its compact text and from its indented one, and from any
other text that stands for its value: it has the same entries in the same order and each of them in
its own shape, a plain name a string and anything else an object, which has no member for what is
absent. So what stands for any name is the same, and different maps have different texts. There is
no map that is not reached by changes. -/
theorem loading_undoes_writing :
    (∀ changes map, NameMap.empty.applyAll changes = map →
      NameMap.ofJson map.toJson.compact = .ok map ∧
      NameMap.ofJson map.toJson.indented = .ok map ∧
      ∀ text, IsJson text.toList map.toJson →
        ∃ loaded, NameMap.ofJson text = .ok loaded ∧ loaded.entries = map.entries ∧
          ∀ raw, loaded.resolve raw = map.resolve raw) ∧
    (∀ map : NameMap, IsJson map.toJson.compact.toList map.toJson ∧
      IsJson map.toJson.indented.toList map.toJson) ∧
    (∀ name, (NameMapping.rename name).toJson = .string name) ∧
    (∀ name origin, ∃ members, (NameMapping.detailed name origin).toJson = .object members ∧
      valuesAt "name" members = name.toList.map JsonValue.string ∧
      valuesAt "from" members = origin.toList.map JsonValue.string) ∧
    (Function.Injective fun map : NameMap ↦ map.toJson.compact) ∧
    (Function.Injective fun map : NameMap ↦ map.toJson.indented) ∧
    ∀ map, ∃ changes, NameMap.empty.applyAll changes = map := by
  refine ⟨fun changes map _ ↦ ⟨?_, ?_, fun text htext ↦ ?_⟩,
    fun map ↦ ⟨map.isJson_compact, map.isJson_indented⟩, fun name ↦ rfl,
    fun name origin ↦ ⟨_, rfl, valuesAt_parts name origin⟩, fun map map' h ↦ ?_,
    fun map map' h ↦ ?_, fun map ↦ ?_⟩
  · exact NameMap.ofJson_of_isJson_toJson map.isJson_compact
  · exact NameMap.ofJson_of_isJson_toJson map.isJson_indented
  · exact ⟨map, NameMap.ofJson_of_isJson_toJson htext, rfl, fun raw ↦ rfl⟩
  · have htext : map.toJson.compact = map'.toJson.compact := h
    have hcompact := map'.isJson_compact
    rw [← htext] at hcompact
    exact NameMap.eq_of_isJson_toJson map.isJson_compact hcompact
  · have htext : map.toJson.indented = map'.toJson.indented := h
    have hindented := map'.isJson_indented
    rw [← htext] at hindented
    exact NameMap.eq_of_isJson_toJson map.isJson_indented hindented
  · -- the text of the map is a change that leads to it
    refine ⟨[.load map.toJson.compact], ?_⟩
    have hload : NameMap.empty.applyAll ([] ++ [.load map.toJson.compact]) =
        NameMap.empty.putAll map.entries :=
      applyAll_load_of_loads (NameMap.loads_of_isJson_toJson map.isJson_compact)
    exact hload.trans map.putAll_entries

end TypeNotation

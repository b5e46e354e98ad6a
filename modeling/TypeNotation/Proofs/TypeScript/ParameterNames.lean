import TypeNotation.Proofs.Grammar.Annotation
import TypeNotation.Proofs.TypeScript.Legibility

/-!
# Names of parameters

The names under which the parameters of a function are written. A parameter without a name of its
own is named for its position, whatever the others are called. So two parameters have the same name
only if they were given it, or if one of them was given the name of the position of the other.
-/

namespace TypeNotation

/-! ## Written names -/

/-- The names that are written for the parameters of a function, in order. -/
def writtenNames (params : List Param) : List String :=
  params.mapIdx fun index param ↦ param.writtenName index

/-- A parameter under a name, as it is written: three dots if it takes all further arguments, the
name, a colon and its type. -/
def NameMap.writtenParam (map : NameMap) (name : String) (param : Param) : List Char :=
  (if param.rest then "...".toList else []) ++ name.toList ++ ": ".toList ++
    map.chars (if param.rest then TypeExpr.array param.type else param.type).fragments

theorem NameMap.chars_param (map : NameMap) (index : Nat) (param : Param) :
    map.chars (param.fragments index) = map.writtenParam (param.writtenName index) param := by
  obtain ⟨type, name, rest⟩ := param
  cases rest <;> simp [Param.fragments, writtenParam, TypeExpr.fragments]

theorem NameMap.map_chars_paramFragments (map : NameMap) (params : List Param) (index : Nat) :
    (paramFragments index params).map map.chars =
      params.mapIdx fun i param ↦ map.writtenParam (param.writtenName (index + i)) param := by
  induction params generalizing index with
  | nil => rfl
  | cons param params ih =>
    rw [paramFragments, List.map_cons, ih, List.mapIdx_cons, NameMap.chars_param]
    simp only [Nat.add_zero, Nat.add_assoc, Nat.add_comm 1]

theorem zipWith_mapIdx {α β γ : Type} (f : Nat → α → β) (g : β → α → γ) (as : List α) :
    List.zipWith g (as.mapIdx f) as = as.mapIdx fun index a ↦ g (f index a) a := by
  refine List.ext_getElem (by simp) fun index h h' ↦ ?_
  simp

/-- The text of a function is its parameters under the names that are written for them, and its
result. -/
theorem NameMap.toList_render_function (map : NameMap) (params : List Param)
    (result : Option TypeExpr) :
    (map.render (.function params result)).text.toList =
      '(' :: ", ".toList.intercalate (List.zipWith map.writtenParam (writtenNames params) params) ++
        ") => ".toList ++ map.chars (resultFragments result) := by
  have hparams := map.map_chars_paramFragments params 0
  simp only [Nat.zero_add] at hparams
  rw [toList_render, TypeExpr.fragments, writtenNames, zipWith_mapIdx, ← hparams, ← chars_separated]
  simp

/-! ## Distinct names -/

theorem positionalName_injective : Function.Injective positionalName := by
  intro index index' h
  rw [positionalName, positionalName, String.append_right_inj] at h
  exact toString_injective h

/-- Parameters at two positions are written under different names, if their own names differ and
neither has the name of the position of the other. -/
theorem Param.writtenName_ne_iff {index index' : Nat} (hne : index ≠ index')
    (param param' : Param) :
    param.writtenName index ≠ param'.writtenName index' ↔
      (∀ name ∈ param.name, ∀ name' ∈ param'.name, name ≠ name') ∧
        (param.name = none → positionalName index ∉ param'.name) ∧
          (param'.name = none → positionalName index' ∉ param.name) := by
  have hpositions := positionalName_injective.ne hne
  cases hname : param.name <;> cases hname' : param'.name <;>
    simp_all [Param.writtenName, eq_comm]

theorem writtenNames_nodup_iff_getElem (params : List Param) :
    (writtenNames params).Nodup ↔
      ∀ index index' (h : index < params.length) (h' : index' < params.length), index < index' →
        params[index].writtenName index ≠ params[index'].writtenName index' := by
  simp only [writtenNames, List.Nodup, List.pairwise_iff_getElem, List.getElem_mapIdx,
    List.length_mapIdx]

theorem mem_names {params : List Param} {name : String} :
    name ∈ params.filterMap Param.name ↔
      ∃ index, ∃ h : index < params.length, params[index].name = some name := by
  rw [List.mem_filterMap]
  constructor
  · rintro ⟨param, hparam, hname⟩
    obtain ⟨index, h, rfl⟩ := List.mem_iff_getElem.mp hparam
    exact ⟨index, h, hname⟩
  · rintro ⟨index, h, hname⟩
    exact ⟨params[index], List.getElem_mem h, hname⟩

theorem nodup_names_iff_getElem (params : List Param) :
    (params.filterMap Param.name).Nodup ↔
      ∀ index index' (h : index < params.length) (h' : index' < params.length), index < index' →
        ∀ name ∈ params[index].name, ∀ name' ∈ params[index'].name, name ≠ name' := by
  rw [List.Nodup, List.pairwise_filterMap, List.pairwise_iff_getElem]
  simp only [Option.mem_def]

/-- The names that are written for parameters are pairwise different exactly if the names that the
parameters have are, and none of these is the name of the position of a parameter without a name. -/
theorem writtenNames_nodup_iff (params : List Param) :
    (writtenNames params).Nodup ↔
        (params.filterMap Param.name).Nodup ∧
          ∀ index param, params[index]? = some param → param.name = none →
            positionalName index ∉ params.filterMap Param.name := by
  rw [writtenNames_nodup_iff_getElem, nodup_names_iff_getElem]
  constructor
  · intro hdistinct
    refine ⟨fun index index' h h' hlt ↦
      ((Param.writtenName_ne_iff hlt.ne _ _).mp (hdistinct index index' h h' hlt)).1, ?_⟩
    intro index param hparam hnone hmem
    obtain ⟨h, rfl⟩ := List.getElem?_eq_some_iff.mp hparam
    obtain ⟨index', h', hname⟩ := mem_names.mp hmem
    -- The parameter that has the name stands before or behind the one that is named for its place.
    rcases Nat.lt_trichotomy index index' with hlt | rfl | hlt
    · have hne := (Param.writtenName_ne_iff hlt.ne _ _).mp (hdistinct index index' h h' hlt)
      exact hne.2.1 hnone hname
    · exact absurd (hnone.symm.trans hname) (by simp)
    · have hne := (Param.writtenName_ne_iff hlt.ne _ _).mp (hdistinct index' index h' h hlt)
      exact hne.2.2 hnone hname
  · rintro ⟨hnames, hpositions⟩ index index' h h' hlt
    refine (Param.writtenName_ne_iff hlt.ne _ _).mpr ⟨hnames index index' h h' hlt, ?_, ?_⟩
    · intro hnone hname
      have hmem := mem_names.mpr ⟨index', h', hname⟩
      exact hpositions index _ (List.getElem?_eq_getElem h) hnone hmem
    · intro hnone hname
      have hmem := mem_names.mpr ⟨index, h, hname⟩
      exact hpositions index' _ (List.getElem?_eq_getElem h') hnone hmem

/-- The text of a function is its parameters under their written names, and its result. The names
are pairwise different exactly if the names that the annotation gives are, and none of these is the
name of the position of a parameter to which it gives none. -/
theorem nodup_names_in_render (map : NameMap) (params : List Param) (result : Option TypeExpr) :
    (map.render (.function params result)).text.toList =
        '(' ::
            ", ".toList.intercalate (List.zipWith map.writtenParam (writtenNames params) params) ++
          ") => ".toList ++ map.chars (resultFragments result) ∧
      ((writtenNames params).Nodup ↔
        (params.filterMap Param.name).Nodup ∧
          ∀ index param, params[index]? = some param → param.name = none →
            positionalName index ∉ params.filterMap Param.name) :=
  ⟨map.toList_render_function params result, writtenNames_nodup_iff params⟩

/-- The second of two parameters is written under the name that the first one has, if that is the
name of the second position. -/
theorem nodup_names_in_render_ne :
    ∃ params, parse "(arg1: a, b)" = .ok (.function params none) ∧
      (params.filterMap Param.name).Nodup ∧ ¬ (writtenNames params).Nodup ∧
        (NameMap.empty.render (.function params none)).text = "(arg1: a, arg1: b) => void" := by
  have htokens : tokenize "(arg1: a, b)" = .ok
      [⟨.symbol .leftParen, ⟨0, 1⟩⟩, ⟨.identifier "arg1", ⟨1, 5⟩⟩, ⟨.symbol .colon, ⟨5, 6⟩⟩,
        ⟨.identifier "a", ⟨7, 8⟩⟩, ⟨.symbol .comma, ⟨8, 9⟩⟩, ⟨.identifier "b", ⟨10, 11⟩⟩,
        ⟨.symbol .rightParen, ⟨11, 12⟩⟩] := by decide +kernel
  have hparse : parse "(arg1: a, b)" =
      .ok (.function [.named "arg1" (.entity "a"), .unnamed (.entity "b")] none) :=
    parse_eq_ok_iff.mpr ⟨_, htokens, .function
      (.consComma (.named "arg1" (.entity "a" [])) (.cons (.unnamed (.entity "b" [])) .nil))⟩
  exact ⟨_, hparse, by decide, by decide, by decide⟩

end TypeNotation

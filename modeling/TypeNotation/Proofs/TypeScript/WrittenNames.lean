import Mathlib.Data.List.Basic
import TypeNotation.TypeScript.Rendering

/-!
# Names that are written

Which entity names a type has, in the order in which they are written, and what becomes of a type
when each of them is replaced. The names of parameters and members are no entity names: they are
written as they are, also where an entity of the same name would be replaced.

How a type is laid out does not depend on what its names are. So replacing them in the type is the
same as replacing them in its fragments, and a name map says no more about a rendering than what it
says about the names that stand in the type.
-/

namespace TypeNotation

/-! ## The names of a type -/

mutual

/-- The entity names of a type, from left to right, as often as they stand there. -/
def TypeExpr.entityNames : TypeExpr → List String
  | .any => []
  | .entity name => [name]
  | .nullable inner => inner.entityNames
  | .union members => entityNamesOfTypes members
  | .function params result => entityNamesOfParams params ++ entityNamesOfResult result
  | .array element => element.entityNames
  | .object members => entityNamesOfMembers members
  | .text _ => []
  | .number _ => []

def Param.entityNames : Param → List String
  | ⟨type, _, _⟩ => type.entityNames

def Member.entityNames : Member → List String
  | ⟨_, type⟩ => type.entityNames

def entityNamesOfTypes : List TypeExpr → List String
  | [] => []
  | type :: types => type.entityNames ++ entityNamesOfTypes types

def entityNamesOfParams : List Param → List String
  | [] => []
  | param :: params => param.entityNames ++ entityNamesOfParams params

def entityNamesOfMembers : List Member → List String
  | [] => []
  | member :: members => member.entityNames ++ entityNamesOfMembers members

def entityNamesOfResult : Option TypeExpr → List String
  | none => []
  | some type => type.entityNames

end

/-! ## The names among fragments -/

/-- The name that is to be looked up, if the fragment is one. -/
def Fragment.name? : Fragment → Option String
  | literal _ => none
  | name raw => some raw

/-- The names among fragments, in order. -/
def namesAmong (fragments : List Fragment) : List String := fragments.filterMap Fragment.name?

@[simp] theorem namesAmong_nil : namesAmong [] = [] := rfl

@[simp] theorem namesAmong_literal (text : List Char) (fragments : List Fragment) :
    namesAmong (.literal text :: fragments) = namesAmong fragments := rfl

@[simp] theorem namesAmong_name (raw : String) (fragments : List Fragment) :
    namesAmong (.name raw :: fragments) = raw :: namesAmong fragments := rfl

@[simp] theorem namesAmong_append (a b : List Fragment) :
    namesAmong (a ++ b) = namesAmong a ++ namesAmong b :=
  List.filterMap_append

@[simp] theorem namesAmong_wrapIf (condition : Bool) (fragments : List Fragment) :
    namesAmong (wrapIf condition fragments) = namesAmong fragments := by
  cases condition with
  | true => simp [wrapIf]
  | false => rfl

@[simp] theorem namesAmong_separated (separator : String) (items : List (List Fragment)) :
    namesAmong (separated separator items) = items.flatMap namesAmong := by
  induction items with
  | nil => rfl
  | cons item items ih =>
    cases items with
    | nil => simp [separated]
    | cons second items =>
      rw [separated] at ih
      rw [separated, List.intercalate_cons_cons, namesAmong_append, namesAmong_append, ih]
      simp

mutual

theorem TypeExpr.namesAmong_fragments : (t : TypeExpr) → namesAmong t.fragments = t.entityNames
  | .any => rfl
  | .entity _ => rfl
  | .nullable inner => by
    rw [TypeExpr.fragments, namesAmong_append, namesAmong_wrapIf, inner.namesAmong_fragments]
    exact List.append_nil _
  | .union [] => rfl
  | .union [single] => by
    rw [TypeExpr.fragments, unionFragments, single.namesAmong_fragments]
    exact (List.append_nil _).symm
  | .union (first :: second :: others) => by
    simp [TypeExpr.fragments, unionFragments, TypeExpr.entityNames, entityNamesOfTypes,
      first.namesAmong_fragments, second.namesAmong_fragments,
      namesAmong_alternativeFragments others]
  | .function params result => by
    -- the parameters are written in front of the result
    simp [TypeExpr.fragments, TypeExpr.entityNames, namesAmong_paramFragments 0 params,
      namesAmong_resultFragments result]
  | .array element => by
    rw [TypeExpr.fragments, namesAmong_append, namesAmong_wrapIf, element.namesAmong_fragments]
    exact List.append_nil _
  | .object [] => rfl
  | .object (member :: members) => by
    have hmembers := namesAmong_memberFragments (member :: members)
    simp [TypeExpr.fragments, TypeExpr.entityNames, hmembers]
  | .text _ => rfl
  | .number _ => rfl

theorem Param.namesAmong_fragments (index : Nat) : (param : Param) →
    namesAmong (param.fragments index) = param.entityNames
  | ⟨type, _, false⟩ => type.namesAmong_fragments
  | ⟨type, name, true⟩ => by
    have htype := type.namesAmong_fragments
    simp [Param.fragments, Param.entityNames, htype]

theorem namesAmong_alternativeFragments : (types : List TypeExpr) →
    namesAmong (alternativeFragments types) = entityNamesOfTypes types
  | [] => rfl
  | type :: types => by
    simp [alternativeFragments, entityNamesOfTypes, type.namesAmong_fragments,
      namesAmong_alternativeFragments types]

theorem namesAmong_paramFragments (index : Nat) : (params : List Param) →
    (paramFragments index params).flatMap namesAmong = entityNamesOfParams params
  | [] => rfl
  | param :: params => by
    rw [paramFragments, List.flatMap_cons, param.namesAmong_fragments,
      namesAmong_paramFragments (index + 1) params, entityNamesOfParams]

theorem namesAmong_memberFragments : (members : List Member) →
    (memberFragments members).flatMap namesAmong = entityNamesOfMembers members
  | [] => rfl
  | ⟨_, type⟩ :: members => by
    rw [memberFragments, List.flatMap_cons, namesAmong_memberFragments members,
      entityNamesOfMembers]
    exact congrArg (· ++ _) type.namesAmong_fragments

theorem namesAmong_resultFragments : (result : Option TypeExpr) →
    namesAmong (resultFragments result) = entityNamesOfResult result
  | none => rfl
  | some type => type.namesAmong_fragments

end

/-! ## Replacing names -/

mutual

/-- The type with each entity name replaced. -/
def TypeExpr.renamed (f : String → String) : TypeExpr → TypeExpr
  | .any => .any
  | .entity name => .entity (f name)
  | .nullable inner => .nullable (inner.renamed f)
  | .union members => .union (renamedTypes f members)
  | .function params result => .function (renamedParams f params) (renamedResult f result)
  | .array element => .array (element.renamed f)
  | .object members => .object (renamedMembers f members)
  | .text value => .text value
  | .number text => .number text

def Param.renamed (f : String → String) : Param → Param
  | ⟨type, name, rest⟩ => ⟨type.renamed f, name, rest⟩

def Member.renamed (f : String → String) : Member → Member
  | ⟨name, type⟩ => ⟨name, type.renamed f⟩

def renamedTypes (f : String → String) : List TypeExpr → List TypeExpr
  | [] => []
  | type :: types => type.renamed f :: renamedTypes f types

def renamedParams (f : String → String) : List Param → List Param
  | [] => []
  | param :: params => param.renamed f :: renamedParams f params

def renamedMembers (f : String → String) : List Member → List Member
  | [] => []
  | member :: members => member.renamed f :: renamedMembers f members

def renamedResult (f : String → String) : Option TypeExpr → Option TypeExpr
  | none => none
  | some type => some (type.renamed f)

end

/-- The fragment with the name replaced, if it is one. -/
def Fragment.renamed (f : String → String) : Fragment → Fragment
  | literal text => literal text
  | name raw => name (f raw)

section Renaming

variable (f : String → String)

@[simp] theorem Fragment.renamed_literal (text : List Char) :
    (literal text).renamed f = literal text := rfl

theorem length_renamedTypes (types : List TypeExpr) :
    (renamedTypes f types).length = types.length := by
  induction types with
  | nil => rfl
  | cons type types ih => rw [renamedTypes, List.length_cons, List.length_cons, ih]

/-! What is wrapped is told by the shape of a type alone. -/

@[simp] theorem TypeExpr.isFunction_renamed (t : TypeExpr) :
    (t.renamed f).isFunction = t.isFunction := by
  cases t <;> rw [renamed] <;> rfl

@[simp] theorem TypeExpr.needsParens_renamed (t : TypeExpr) :
    (t.renamed f).needsParens = t.needsParens := by
  cases t with
  | union members => rw [renamed, needsParens, needsParens, length_renamedTypes]
  | _ => rw [renamed] <;> rfl

@[simp] theorem map_wrapIf (condition : Bool) (fragments : List Fragment) :
    (wrapIf condition fragments).map (.renamed f) =
      wrapIf condition (fragments.map (.renamed f)) := by
  cases condition with
  | true => simp [wrapIf]
  | false => rfl

@[simp] theorem map_separated (separator : String) (items : List (List Fragment)) :
    (separated separator items).map (.renamed f) =
      separated separator (items.map (List.map (.renamed f))) := by
  induction items with
  | nil => rfl
  | cons item items ih =>
    cases items with
    | nil => simp [separated]
    | cons second items =>
      rw [separated, List.map_cons, separated] at ih
      rw [separated, separated, List.map_cons, List.map_cons, List.intercalate_cons_cons,
        List.intercalate_cons_cons, List.map_append, List.map_append, ih]
      rfl

mutual

theorem TypeExpr.fragments_renamed : (t : TypeExpr) →
    (t.renamed f).fragments = t.fragments.map (.renamed f)
  | .any => rfl
  | .entity _ => rfl
  | .nullable inner => by
    simp [TypeExpr.renamed, TypeExpr.fragments, inner.fragments_renamed]
  | .union [] => rfl
  | .union [single] => single.fragments_renamed
  | .union (first :: second :: others) => by
    simp [TypeExpr.renamed, renamedTypes, TypeExpr.fragments, unionFragments,
      first.fragments_renamed, second.fragments_renamed, alternativeFragments_renamed others]
  | .function params result => by
    simp [TypeExpr.renamed, TypeExpr.fragments, paramFragments_renamed 0 params,
      resultFragments_renamed result]
  | .array element => by
    simp [TypeExpr.renamed, TypeExpr.fragments, element.fragments_renamed]
  | .object [] => rfl
  | .object (member :: members) => by
    have hmembers := memberFragments_renamed (member :: members)
    rw [renamedMembers] at hmembers
    simp [TypeExpr.renamed, renamedMembers, TypeExpr.fragments, hmembers]
  | .text _ => rfl
  | .number _ => rfl

/-- The name of a parameter stays, whatever the names in its type become. -/
theorem Param.fragments_renamed (index : Nat) : (param : Param) →
    (param.renamed f).fragments index = (param.fragments index).map (.renamed f)
  | ⟨type, _, false⟩ => by
    simp [Param.renamed, Param.fragments, Param.writtenName, type.fragments_renamed]
  | ⟨type, _, true⟩ => by
    simp [Param.renamed, Param.fragments, Param.writtenName, type.fragments_renamed]

theorem alternativeFragments_renamed : (types : List TypeExpr) →
    alternativeFragments (renamedTypes f types) = (alternativeFragments types).map (.renamed f)
  | [] => rfl
  | type :: types => by
    simp [renamedTypes, alternativeFragments, type.fragments_renamed,
      alternativeFragments_renamed types]

theorem paramFragments_renamed (index : Nat) : (params : List Param) →
    paramFragments index (renamedParams f params) =
      (paramFragments index params).map (List.map (.renamed f))
  | [] => rfl
  | param :: params => by
    rw [renamedParams, paramFragments, paramFragments, List.map_cons,
      param.fragments_renamed index, paramFragments_renamed (index + 1) params]

theorem memberFragments_renamed : (members : List Member) →
    memberFragments (renamedMembers f members) =
      (memberFragments members).map (List.map (.renamed f))
  | [] => rfl
  | ⟨name, type⟩ :: members => by
    simp [renamedMembers, memberFragments, Member.renamed, Member.fragments,
      type.fragments_renamed, memberFragments_renamed members]

theorem resultFragments_renamed : (result : Option TypeExpr) →
    resultFragments (renamedResult f result) = (resultFragments result).map (.renamed f)
  | none => rfl
  | some type => type.fragments_renamed

end

end Renaming

/-! ## Name maps and renderings -/

namespace NameMap

theorem written_eq (map : NameMap) :
    map.written = fun raw ↦ ((map.resolve raw).map Replacement.name).getD raw := by
  funext raw
  rw [written]
  cases map.resolve raw <;> rfl

/-- A replaced name is written by the empty map as it is. -/
theorem fragmentChars_renamed (map : NameMap) (fragment : Fragment) :
    empty.fragmentChars (fragment.renamed map.written) = map.fragmentChars fragment := by
  cases fragment <;> rfl

theorem text_renderFragments_renamed (map : NameMap) (fragments : List Fragment) :
    (empty.renderFragments (fragments.map (.renamed map.written))).text =
      (map.renderFragments fragments).text := by
  have hchars : (fragments.map (.renamed map.written)).flatMap empty.fragmentChars =
      fragments.flatMap map.fragmentChars := by
    rw [List.flatMap_map]
    exact List.flatMap_congr fun fragment _ ↦ map.fragmentChars_renamed fragment
  simp only [renderFragments, hchars]

section Agreement

variable {map other : NameMap} {fragments : List Fragment}

theorem fragmentChars_congr {fragment : Fragment}
    (h : ∀ raw ∈ fragment.name?, map.resolve raw = other.resolve raw) :
    map.fragmentChars fragment = other.fragmentChars fragment := by
  cases fragment with
  | literal text => rfl
  | name raw => rw [fragmentChars, fragmentChars, written, written, h raw rfl]

theorem collectFragment_congr {fragment : Fragment}
    (h : ∀ raw ∈ fragment.name?, map.resolve raw = other.resolve raw)
    (collected : Imports × List ImportUse) :
    map.collectFragment collected fragment = other.collectFragment collected fragment := by
  cases fragment with
  | literal text => rfl
  | name raw => rw [collectFragment, collectFragment, h raw rfl]

/-- Maps that resolve the names among fragments alike render the fragments alike. -/
theorem renderFragments_congr
    (h : ∀ raw ∈ namesAmong fragments, map.resolve raw = other.resolve raw) :
    map.renderFragments fragments = other.renderFragments fragments := by
  have hnames : ∀ fragment ∈ fragments, ∀ raw ∈ fragment.name?,
      map.resolve raw = other.resolve raw :=
    fun fragment hfragment raw hraw ↦ h raw (List.mem_filterMap.mpr ⟨fragment, hfragment, hraw⟩)
  have hchars : fragments.flatMap map.fragmentChars = fragments.flatMap other.fragmentChars :=
    List.flatMap_congr fun fragment hfragment ↦ fragmentChars_congr (hnames fragment hfragment)
  have hcollected : fragments.foldl map.collectFragment ([], []) =
      fragments.foldl other.collectFragment ([], []) :=
    List.foldl_ext _ _ _ fun collected fragment hfragment ↦
      collectFragment_congr (hnames fragment hfragment) collected
  simp only [renderFragments, hchars, hcollected]

end Agreement

end NameMap

/-- **A rendering depends on a name map only through the names in the type.** The text is what it
would be if the names were replaced in the type first and then rendered as they are, so what is
written for a name is never looked up again; and two maps that resolve the names of the type alike
give the same rendering, whatever else they hold. -/
theorem render_renamed (map : NameMap) (t : TypeExpr) :
    let mapped := t.renamed fun raw ↦ ((map.resolve raw).map Replacement.name).getD raw
    (map.render t).text = (NameMap.empty.render mapped).text ∧
    (∀ aliasName,
      (map.renderAlias aliasName t).text = (NameMap.empty.renderAlias aliasName mapped).text) ∧
    ∀ other : NameMap, (∀ raw ∈ t.entityNames, map.resolve raw = other.resolve raw) →
      map.render t = other.render t ∧
        ∀ aliasName, map.renderAlias aliasName t = other.renderAlias aliasName t := by
  rw [← map.written_eq]
  refine ⟨?_, fun aliasName ↦ ?_, fun other h ↦ ⟨?_, fun aliasName ↦ ?_⟩⟩
  · rw [NameMap.render, NameMap.render, t.fragments_renamed, map.text_renderFragments_renamed]
  · have halias := map.text_renderFragments_renamed
      (.literal ("export type " ++ aliasName ++ " = ").toList :: t.fragments ++ [.literal [';']])
    rw [NameMap.renderAlias, NameMap.renderAlias, t.fragments_renamed, ← halias]
    simp
  · exact NameMap.renderFragments_congr (t.namesAmong_fragments ▸ h)
  · refine NameMap.renderFragments_congr ?_
    simpa [t.namesAmong_fragments] using h

/-- Two names that are written for each other, and a parameter that has one of them as its own. -/
theorem render_renamed_swapped :
    let t := TypeExpr.function [.named "a" (.entity "a")] (some (.array (.entity "b")))
    let map := (NameMap.empty.rename "a" "b").rename "b" "a"
    let other := ((NameMap.empty.rename "b" "a").rename "c" "a").rename "a" "b"
    (∀ raw ∈ t.entityNames, map.resolve raw = other.resolve raw) ∧
      (map.render t).text = "(a: b) => a[]" ∧ other.render t = map.render t := by
  intro t map other
  have hagree : ∀ raw ∈ t.entityNames, map.resolve raw = other.resolve raw := by decide
  obtain ⟨htext, -, hsame⟩ := render_renamed map t
  refine ⟨hagree, ?_, (hsame other hagree).1.symm⟩
  rw [htext]
  decide

end TypeNotation

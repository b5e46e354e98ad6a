import TypeNotation.Proofs.TypeScript.Syntax
import TypeNotation.TypeScript.Rendering

/-!
# Translation to types of TypeScript

What a type expression means in TypeScript, without regard to how it is written. A type is a list of
alternatives, of which a nullable type has one more than the type inside and a union has those of
all its members; so unions inside of unions leave no trace.
-/

namespace TypeNotation

/-! ## Alternatives -/

mutual

/-- The alternatives of a type. -/
def TypeExpr.alternatives (map : NameMap) : TypeExpr → List TsType
  | .any => [.name "any"]
  | .entity name => [.name (map.written name)]
  | .nullable inner => inner.alternatives map ++ [.name "null"]
  | .union [] => [.name "never"]
  | .union (member :: members) => alternativesOf map (member :: members)
  | .function params result =>
    [.function (translateParams map 0 params) (translateResult map result)]
  | .array element => [.array (.join (element.alternatives map))]
  | .object members => [.object (translateMembers map members)]
  | .text value => [.text value]
  | .number text => [.number text]

/-- A parameter at an index. A variadic parameter has the type of an array. -/
def Param.translate (map : NameMap) (index : Nat) : Param → TsParam
  | ⟨type, name, rest⟩ =>
    ⟨Param.writtenName index ⟨type, name, rest⟩,
      if rest then .array (.join (type.alternatives map)) else .join (type.alternatives map), rest⟩

def Member.translate (map : NameMap) : Member → TsMember
  | ⟨name, type⟩ => ⟨name, .join (type.alternatives map)⟩

def alternativesOf (map : NameMap) : List TypeExpr → List TsType
  | [] => []
  | type :: types => type.alternatives map ++ alternativesOf map types

/-- Parameters, of which the first has the given index. -/
def translateParams (map : NameMap) (index : Nat) : List Param → List TsParam
  | [] => []
  | param :: params => param.translate map index :: translateParams map (index + 1) params

def translateMembers (map : NameMap) : List Member → List TsMember
  | [] => []
  | member :: members => member.translate map :: translateMembers map members

/-- A result, which is `void` if none is given. -/
def translateResult (map : NameMap) : Option TypeExpr → TsType
  | none => .name "void"
  | some type => .join (type.alternatives map)

end

/-- The translation of a type: all its alternatives as one type. -/
def TypeExpr.translate (map : NameMap) (type : TypeExpr) : TsType := .join (type.alternatives map)

/-! ## Written names -/

/-- The name that a mapping gives, if it gives another one. -/
def NameMapping.newName? : NameMapping → Option String
  | rename name => some name
  | detailed name _ => name

/-- If all names that a map gives are paths, paths are written as paths. -/
theorem NameMap.isPath_written {map : NameMap} {raw : String}
    (hmap : ∀ entry ∈ map.entries, ∀ name ∈ entry.2.newName?, IsPath name) (hraw : IsPath raw) :
    IsPath (map.written raw) := by
  unfold written resolve
  cases hlookup : map.entries.lookup raw with
  | none => exact hraw
  | some mapping =>
    obtain ⟨before, behind, hentries, -⟩ := List.lookup_eq_some_iff.mp hlookup
    have hnew := hmap (raw, mapping) (by simp [hentries])
    cases mapping with
    | rename name => exact hnew name rfl
    | detailed name origin =>
      cases name with
      | none => exact hraw
      | some name => exact hnew name rfl

theorem isWord_positionalName (index : Nat) : IsWord (positionalName index).toList := by
  have hdigits : ∀ c ∈ (toString index).toList, isIdentifierPart c = true := by
    intro c hc
    have hdigit := (isDigits_toString index).digits c hc
    simp [isIdentifierPart, Char.isAlphanum, hdigit]
  rw [positionalName, String.toList_append]
  exact .mk rfl (List.forall_mem_append.mpr ⟨List.all_eq_true.mp rfl, hdigits⟩)

theorem Param.isWord_writtenName {param : Param} (h : ∀ name ∈ param.name, IsIdentifier name)
    (index : Nat) : IsWord (param.writtenName index).toList := by
  unfold writtenName
  cases hname : param.name with
  | none => exact isWord_positionalName index
  | some name => exact (h name hname).word

end TypeNotation

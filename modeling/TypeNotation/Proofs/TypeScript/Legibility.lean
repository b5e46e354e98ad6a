import Mathlib.Data.List.Forall2
import TypeNotation.Proofs.Canonical.WellFormed
import TypeNotation.Proofs.TypeScript.Translation
import TypeNotation.Proofs.TypeScript.Unambiguity

/-!
# Legibility

What is rendered for a type is read as the translation of the type, and as nothing else. A type can
stand in three places: as a whole, as an alternative, and in front of brackets; for each of the
three it is wrapped or not, and all three are proved at once.

Unions with one member are left out. They are laid out as their member, but whether they are wrapped
in front of brackets does not take the member into account.
-/

namespace TypeNotation

/-! ## Separated items -/

section Separated

variable {α : Type} {separator : List Char} {Item : List Char → α → Prop}

theorem SeparatedBy.append {a b : List Char} {as bs : List α} (h : SeparatedBy separator Item a as)
    (h' : SeparatedBy separator Item b bs) :
    SeparatedBy separator Item (a ++ (separator ++ b)) (as ++ bs) := by
  induction h with
  | single hitem => exact .cons hitem h'
  | cons hitem _ ih =>
    rw [List.append_assoc, List.append_assoc]
    exact .cons hitem ih

theorem separatedBy_of_forall₂ {texts : List (List Char)} {as : List α}
    (h : List.Forall₂ Item texts as) (hne : texts ≠ []) :
    SeparatedBy separator Item (separator.intercalate texts) as := by
  induction h with
  | nil => exact absurd rfl hne
  | cons hitem htail ih =>
    cases htail with
    | nil =>
      rw [List.intercalate_singleton]
      exact .single hitem
    | cons =>
      rw [List.intercalate_cons_cons, List.append_assoc]
      exact .cons hitem (ih (List.cons_ne_nil _ _))

end Separated

/-! ## Occurrences -/

/-- The first type stands somewhere in the second. -/
inductive TypeExpr.Occurs (part : TypeExpr) : TypeExpr → Prop
  | here : Occurs part part
  | nullable {inner : TypeExpr} (h : Occurs part inner) : Occurs part (.nullable inner)
  | union {members : List TypeExpr} {member : TypeExpr} (hmember : member ∈ members)
      (h : Occurs part member) : Occurs part (.union members)
  | param {params : List Param} {result : Option TypeExpr} {param : Param} (hparam : param ∈ params)
      (h : Occurs part param.type) : Occurs part (.function params result)
  | result {params : List Param} {type : TypeExpr} (h : Occurs part type) :
      Occurs part (.function params (some type))
  | array {element : TypeExpr} (h : Occurs part element) : Occurs part (.array element)
  | object {members : List Member} {member : Member} (hmember : member ∈ members)
      (h : Occurs part member.type) : Occurs part (.object members)

/-! ## The text of fragments -/

namespace NameMap

variable (map : NameMap)

def chars (fragments : List Fragment) : List Char := fragments.flatMap map.fragmentChars

theorem toList_render (type : TypeExpr) :
    (map.render type).text.toList = map.chars type.fragments := by
  simp [render, renderFragments, chars]

@[simp] theorem chars_nil : map.chars [] = [] := rfl

@[simp] theorem chars_literal (text : List Char) (fragments : List Fragment) :
    map.chars (.literal text :: fragments) = text ++ map.chars fragments := rfl

@[simp] theorem chars_name (raw : String) (fragments : List Fragment) :
    map.chars (.name raw :: fragments) = (map.written raw).toList ++ map.chars fragments := rfl

@[simp] theorem chars_append (a b : List Fragment) :
    map.chars (a ++ b) = map.chars a ++ map.chars b :=
  List.flatMap_append

theorem chars_wrapIf (condition : Bool) (fragments : List Fragment) :
    map.chars (wrapIf condition fragments) =
      if condition then '(' :: (map.chars fragments ++ [')']) else map.chars fragments := by
  cases condition with
  | true => simp [wrapIf]
  | false => rfl

theorem chars_separated (separator : String) (items : List (List Fragment)) :
    map.chars (separated separator items) =
      separator.toList.intercalate (items.map map.chars) := by
  induction items with
  | nil => rfl
  | cons item items ih =>
    cases items with
    | nil => simp [separated]
    | cons second items =>
      rw [separated] at ih
      rw [separated, List.intercalate_cons_cons, chars_append, chars_append, ih]
      simp [List.intercalate_cons_cons]

end NameMap

/-! ## The three places -/

/-- The type is legible as a whole, as an alternative and in front of brackets. -/
structure Legible (map : NameMap) (t : TypeExpr) : Prop where
  type : ReadsType (map.chars t.fragments) (t.translate map)
  alternatives : SeparatedBy " | ".toList ReadsAlternative
    (map.chars (wrapIf t.isFunction t.fragments)) (t.alternatives map)
  element : ReadsAlternative (map.chars (wrapIf t.needsParens t.fragments)) (t.translate map)

section Places

variable {map : NameMap} {t : TypeExpr} {text : List Char} {type : TsType}

theorem ReadsPrimary.alternative {rule : PrimaryRule} (h : ReadsPrimary rule text type) :
    ReadsAlternative text type := by
  have halternative := ReadsAlternative.mk h 0
  rwa [brackets, List.append_nil] at halternative

theorem ReadsType.wrapped (h : ReadsType text type) :
    ReadsAlternative ('(' :: (text ++ [')'])) type :=
  (ReadsPrimary.parentheses h).alternative

/-- What stands in front of brackets may have brackets of its own. -/
theorem ReadsAlternative.array (h : ReadsAlternative text type) :
    ReadsAlternative (text ++ ['[', ']']) (.array type) := by
  obtain ⟨hprimary, count⟩ := h
  rw [List.append_assoc, brackets_append]
  exact .mk hprimary (count + 1)

/-- A type that is a single alternative is never wrapped. -/
theorem legible_of_alternative (hfunction : t.isFunction = false) (hparens : t.needsParens = false)
    (halternatives : t.alternatives map = [type])
    (h : ReadsAlternative (map.chars t.fragments) type) : Legible map t where
  type := by
    rw [TypeExpr.translate, halternatives]
    exact .alternatives (.single h)
  alternatives := by
    rw [hfunction, halternatives]
    exact .single h
  element := by
    rw [hparens, TypeExpr.translate, halternatives]
    exact h

/-- A type of several alternatives is wrapped in front of brackets. -/
theorem legible_of_alternatives (hfunction : t.isFunction = false) (hparens : t.needsParens = true)
    (h : SeparatedBy " | ".toList ReadsAlternative (map.chars t.fragments) (t.alternatives map)) :
    Legible map t where
  type := .alternatives h
  alternatives := by
    rw [hfunction]
    exact h
  element := by
    rw [hparens, NameMap.chars_wrapIf, if_pos rfl]
    exact (ReadsType.alternatives h).wrapped

/-- A function is wrapped in both places. -/
theorem legible_of_function {params : List Param} {result : Option TypeExpr}
    (h : ReadsType (map.chars (TypeExpr.function params result).fragments)
      ((TypeExpr.function params result).translate map)) :
    Legible map (.function params result) where
  type := h
  alternatives := by
    rw [TypeExpr.isFunction, NameMap.chars_wrapIf, if_pos rfl]
    exact .single h.wrapped
  element := by
    rw [TypeExpr.needsParens, NameMap.chars_wrapIf, if_pos rfl]
    exact h.wrapped

end Places

/-! ## Parts of types -/

section Parts

variable {map : NameMap}

theorem readsParam_fragments {param : Param} (hname : param.HasRegularName)
    (htype : Legible map param.type) (index : Nat) :
    ReadsParam (map.chars (param.fragments index)) (param.translate map index) := by
  have hword : IsWord (param.writtenName index).toList :=
    Param.isWord_writtenName hname.identifier index
  obtain ⟨type, name, rest⟩ := param
  cases rest with
  | false =>
    simpa [Param.fragments, Param.translate, TypeExpr.translate] using
      ReadsParam.single hword htype.type
  | true =>
    have harray := ReadsType.alternatives (.single htype.element.array)
    simpa [Param.fragments, Param.translate, TypeExpr.translate, TsType.join] using
      ReadsParam.rest hword harray

theorem readsParams_fragments {params : List Param}
    (hnames : ∀ param ∈ params, param.HasRegularName)
    (htypes : ∀ param ∈ params, Legible map param.type) :
    ReadsParams (map.chars (separated ", " (paramFragments 0 params)))
      (translateParams map 0 params) := by
  have key (index : Nat) : List.Forall₂ ReadsParam ((paramFragments index params).map map.chars)
      (translateParams map index params) := by
    induction params generalizing index with
    | nil => exact .nil
    | cons param params ih =>
      obtain ⟨hname, hnames⟩ := List.forall_mem_cons.mp hnames
      obtain ⟨htype, htypes⟩ := List.forall_mem_cons.mp htypes
      exact .cons (readsParam_fragments hname htype index) (ih hnames htypes (index + 1))
  rw [NameMap.chars_separated]
  cases params with
  | nil => exact .none
  | cons param params => exact .some (separatedBy_of_forall₂ (key 0) (List.cons_ne_nil _ _))

theorem readsMembers_fragments {members : List Member}
    (hnames : ∀ member ∈ members, IsIdentifier member.name)
    (htypes : ∀ member ∈ members, Legible map member.type) (hne : members ≠ []) :
    SeparatedBy "; ".toList ReadsMember (map.chars (separated "; " (memberFragments members)))
      (translateMembers map members) := by
  have key : List.Forall₂ ReadsMember ((memberFragments members).map map.chars)
      (translateMembers map members) := by
    clear hne
    induction members with
    | nil => exact .nil
    | cons member members ih =>
      obtain ⟨hname, hnames⟩ := List.forall_mem_cons.mp hnames
      obtain ⟨htype, htypes⟩ := List.forall_mem_cons.mp htypes
      refine .cons ?_ (ih hnames htypes)
      obtain ⟨name, type⟩ := member
      simpa [Member.fragments, Member.translate, TypeExpr.translate] using
        ReadsMember.mk hname.word htype.type
  rw [NameMap.chars_separated]
  refine separatedBy_of_forall₂ key ?_
  cases members with
  | nil => exact absurd rfl hne
  | cons member members => exact List.cons_ne_nil _ _

theorem readsType_result {result : Option TypeExpr} (h : ∀ type ∈ result, Legible map type) :
    ReadsType (map.chars (resultFragments result)) (translateResult map result) := by
  cases result with
  | none =>
    have hvoid : IsPath "void" := isPath_of_isWord (by decide)
    exact .alternatives (.single (ReadsPrimary.path hvoid).alternative)
  | some type => exact (h type rfl).type

theorem separatedBy_alternativeFragments {types : List TypeExpr}
    (h : ∀ type ∈ types, Legible map type) {text : List Char} {alternatives : List TsType}
    (hfirst : SeparatedBy " | ".toList ReadsAlternative text alternatives) :
    SeparatedBy " | ".toList ReadsAlternative (text ++ map.chars (alternativeFragments types))
      (alternatives ++ alternativesOf map types) := by
  induction types generalizing text alternatives with
  | nil =>
    rw [alternativeFragments, alternativesOf, NameMap.chars_nil, List.append_nil, List.append_nil]
    exact hfirst
  | cons type types ih =>
    obtain ⟨htype, htypes⟩ := List.forall_mem_cons.mp h
    have hnext := ih htypes (hfirst.append htype.alternatives)
    rw [alternativeFragments, alternativesOf]
    simpa using hnext

end Parts

/-! ## Types -/

theorem TypeExpr.WellFormed.legible {map : NameMap} {t : TypeExpr}
    (hmap : ∀ entry ∈ map.entries, ∀ name ∈ entry.2.newName?, IsPath name) (h : t.WellFormed)
    (hsingle : ∀ member, ¬Occurs (.union [member]) t) : Legible map t := by
  induction h with
  | any =>
    have hany : IsPath "any" := isPath_of_isWord (by decide)
    exact legible_of_alternative rfl rfl rfl (ReadsPrimary.path hany).alternative
  | entity hname =>
    have hpath := NameMap.isPath_written hmap hname.isPath
    refine legible_of_alternative rfl rfl rfl ?_
    simpa [fragments] using (ReadsPrimary.path hpath).alternative
  | nullable hinner ih =>
    -- the alternatives of the type inside, and one more
    have hnull : IsPath "null" := isPath_of_isWord (by decide)
    have hinner := (ih fun member h ↦ hsingle member (.nullable h)).alternatives
    refine legible_of_alternatives rfl rfl ?_
    have hbehind := hinner.append (.single (ReadsPrimary.path hnull).alternative)
    simpa [fragments, TypeExpr.alternatives] using hbehind
  | @union members _ ih =>
    have hlegible (member : TypeExpr) (hmember : member ∈ members) : Legible map member :=
      ih member hmember fun single h ↦ hsingle single (.union hmember h)
    match members with
    | [] =>
      have hnever : IsPath "never" := isPath_of_isWord (by decide)
      exact legible_of_alternative rfl rfl rfl (ReadsPrimary.path hnever).alternative
    | [member] => exact absurd .here (hsingle member)
    | first :: second :: others =>
      obtain ⟨hfirst, hsecond, hothers⟩ : Legible map first ∧ Legible map second ∧
          ∀ member ∈ others, Legible map member := by simpa using hlegible
      have hall := separatedBy_alternativeFragments hothers
        (hfirst.alternatives.append hsecond.alternatives)
      -- with two members at least, the union is wrapped in front of brackets
      refine legible_of_alternatives rfl (by simp [needsParens]) ?_
      simpa [fragments, unionFragments, TypeExpr.alternatives, alternativesOf] using hall
  | function hnames _ _ ihtypes ihresult =>
    refine legible_of_function ?_
    have hparams := readsParams_fragments hnames fun param hparam ↦
      ihtypes param hparam fun member h ↦ hsingle member (.param hparam h)
    have hresult := readsType_result fun type htype ↦ ihresult type htype fun member h ↦ by
      cases htype
      exact hsingle member (.result h)
    simpa [fragments, translate, TsType.join, TypeExpr.alternatives] using
      ReadsType.function hparams hresult
  | array _ ih =>
    have helement := (ih fun member h ↦ hsingle member (.array h)).element
    refine legible_of_alternative rfl rfl rfl ?_
    simpa [fragments, translate] using helement.array
  | @object members hnames _ ih =>
    cases members with
    | nil => exact legible_of_alternative rfl rfl rfl ReadsPrimary.emptyObject.alternative
    | cons member members =>
      have hmembers := readsMembers_fragments hnames
        (fun member hmember ↦ ih member hmember fun single h ↦ hsingle single (.object hmember h))
        (List.cons_ne_nil _ _)
      refine legible_of_alternative rfl rfl rfl ?_
      simpa [fragments] using (ReadsPrimary.object hmembers).alternative
  | text value =>
    have hstring := ReadsPrimary.string (isJsonString_jsonString value.toList)
    refine legible_of_alternative rfl rfl rfl ?_
    simpa [fragments] using hstring.alternative
  | number htext =>
    refine legible_of_alternative rfl rfl rfl ?_
    simpa [fragments] using (ReadsPrimary.number htext).alternative

/-- **What is rendered has one reading, the translation.** Of a well-formed type without unions of
one member, rendered with a map that gives paths only, the text is read as the translation of the
type and as nothing else. -/
theorem readsType_render_iff {map : NameMap} {t : TypeExpr}
    (hmap : ∀ entry ∈ map.entries, ∀ name ∈ entry.2.newName?, IsPath name) (h : t.WellFormed)
    (hsingle : ∀ member, ¬TypeExpr.Occurs (.union [member]) t) (type : TsType) :
    ReadsType (map.render t).text.toList type ↔ type = t.translate map := by
  rw [NameMap.toList_render]
  have hlegible := (h.legible hmap hsingle).type
  constructor
  · intro hread
    exact hread.unique hlegible
  · rintro rfl
    exact hlegible

/-- An array of nullable nodes as a parameter of a function. -/
theorem readsType_render_nodes :
    ReadsType "(nodes: (Node | null)[]) => void".toList
      (.function [⟨"nodes", .array (.union [.name "Node", .name "null"]), false⟩]
        (.name "void")) := by
  have htext : ((NameMap.empty.rename "dom.Node" "Node").render
      (.function [.named "nodes" (.array (.nullable (.entity "dom.Node")))] none)).text =
        "(nodes: (Node | null)[]) => void" := by decide
  rw [← htext]
  refine (readsType_render_iff ?_ ?_ ?_ _).mpr ?_
  · rintro entry hentry name hname
    obtain rfl := List.mem_singleton.mp hentry
    obtain rfl : "Node" = name := Option.mem_some.mp hname
    exact isPath_of_isWord (by decide)
  · have hnode : IsDotted IsIdentifier "dom.Node" := by
      refine ⟨"dom", ["Node"], ?_, by decide⟩
      rintro part hpart
      simp only [List.mem_cons, List.not_mem_nil, or_false] at hpart
      rcases hpart with rfl | rfl <;> decide
    refine .function ?_ ?_ fun _ hnone ↦ by cases hnone
    · rintro param hparam
      obtain rfl := List.mem_singleton.mp hparam
      refine ⟨?_, fun hrest ↦ by cases hrest⟩
      rintro _ ⟨⟩
      decide
    · rintro param hparam
      obtain rfl := List.mem_singleton.mp hparam
      exact .array (.nullable (.entity hnode))
  · intro member h
    cases h with
    | param hparam h =>
      obtain rfl := List.mem_singleton.mp hparam
      cases h with
      | array h =>
        cases h with
        | nullable h => cases h
  · rfl

end TypeNotation

import Mathlib.Data.List.Forall2
import TypeNotation.Json.Reader
import TypeNotation.Proofs.Json.Strings

/-!
# JSON texts

Which texts stand for a JSON value, after RFC 8259, as far as the values hold no numbers: words,
strings, and arrays and objects with commas between their entries. White space may stand in front of
every entry, around every colon and comma and in front of every closing bracket. The compact and the
indented text of a value stand for it, since they differ in their white space only.

How deep a value nests is the number of arrays and objects around its innermost part, counting that
part itself.
-/

namespace TypeNotation

/-! ## The grammar -/

/-- There is nothing but JSON white space. -/
def IsSpace (text : List Char) : Prop := ∀ c ∈ text, isJsonSpace c = true

/-- What may stand in front of an entry: white space, and in it a comma unless the entry is the
first one. -/
inductive IsLead : Bool → List Char → Prop
  | first {space : List Char} (hspace : IsSpace space) : IsLead true space
  | next {space space' : List Char} (hspace : IsSpace space) (hspace' : IsSpace space') :
      IsLead false (space ++ ',' :: space')

/-- The text is a list of entries up to and with the closing bracket. The flag tells whether the
next entry is the first one. -/
inductive Entries {α : Type} (IsEntry : List Char → α → Prop) (close : Char) :
    Bool → List Char → List α → Prop
  | close {first : Bool} {space : List Char} (hspace : IsSpace space) :
      Entries IsEntry close first (space ++ [close]) []
  | cons {first : Bool} {lead text rest : List Char} {a : α} {as : List α}
      (hlead : IsLead first lead) (hentry : IsEntry text a)
      (hrest : Entries IsEntry close false rest as) :
      Entries IsEntry close first (lead ++ (text ++ rest)) (a :: as)

inductive IsMember (IsValue : List Char → JsonValue → Prop) :
    List Char → String × JsonValue → Prop
  | mk {keyText space space' text : List Char} {key : String} {value : JsonValue}
      (hkey : IsJsonString keyText key.toList) (hspace : IsSpace space) (hspace' : IsSpace space')
      (hvalue : IsValue text value) :
      IsMember IsValue (keyText ++ (space ++ ':' :: (space' ++ text))) (key, value)

/-- The text stands for the value. -/
inductive IsJson : List Char → JsonValue → Prop
  | null : IsJson "null".toList .null
  | bool (value : Bool) : IsJson (if value then "true" else "false").toList (.bool value)
  | string {text : List Char} {value : String} (htext : IsJsonString text value.toList) :
      IsJson text (.string value)
  | array {body : List Char} {items : List JsonValue} (hbody : Entries IsJson ']' true body items) :
      IsJson ('[' :: body) (.array items)
  | object {body : List Char} {members : List (String × JsonValue)}
      (hbody : Entries (IsMember IsJson) '}' true body members) :
      IsJson ('{' :: body) (.object members)

/-! ## Values -/

inductive NumberFree : JsonValue → Prop
  | null : NumberFree .null
  | bool (value : Bool) : NumberFree (.bool value)
  | string (value : String) : NumberFree (.string value)
  | array {items : List JsonValue} (hitems : ∀ item ∈ items, NumberFree item) :
      NumberFree (.array items)
  | object {members : List (String × JsonValue)}
      (hmembers : ∀ member ∈ members, NumberFree member.2) : NumberFree (.object members)

namespace JsonValue

mutual

/-- How deep arrays and objects are nested in a value. -/
def depth : JsonValue → Nat
  | null | bool _ | number _ | string _ => 0
  | array items => depthItems items + 1
  | object members => depthMembers members + 1

def depthItems : List JsonValue → Nat
  | [] => 0
  | item :: items => max item.depth (depthItems items)

def depthMembers : List (String × JsonValue) → Nat
  | [] => 0
  | (_, value) :: members => max value.depth (depthMembers members)

end

theorem depthItems_le_iff {items : List JsonValue} {n : Nat} :
    depthItems items ≤ n ↔ ∀ item ∈ items, item.depth ≤ n := by
  induction items with
  | nil => simp [depthItems]
  | cons item items ih => rw [depthItems, Nat.max_le, ih, List.forall_mem_cons]

theorem depthMembers_le_iff {members : List (String × JsonValue)} {n : Nat} :
    depthMembers members ≤ n ↔ ∀ member ∈ members, member.2.depth ≤ n := by
  induction members with
  | nil => simp [depthMembers]
  | cons member members ih => rw [depthMembers, Nat.max_le, ih, List.forall_mem_cons]

theorem depth_array_le_iff {items : List JsonValue} {levels : Nat} :
    (array items).depth ≤ levels ↔
      ∃ inner, levels = inner + 1 ∧ ∀ item ∈ items, item.depth ≤ inner := by
  cases levels with
  | zero => simp [depth]
  | succ inner => simp [depth, depthItems_le_iff]

theorem depth_object_le_iff {members : List (String × JsonValue)} {levels : Nat} :
    (object members).depth ≤ levels ↔
      ∃ inner, levels = inner + 1 ∧ ∀ member ∈ members, member.2.depth ≤ inner := by
  cases levels with
  | zero => simp [depth]
  | succ inner => simp [depth, depthMembers_le_iff]

end JsonValue

/-! ## Written texts -/

theorem isSpace_nil : IsSpace [] := fun _ hc ↦ absurd hc List.not_mem_nil

theorem IsSpace.append {a b : List Char} (ha : IsSpace a) (hb : IsSpace b) : IsSpace (a ++ b) :=
  fun c hc ↦ (List.mem_append.mp hc).elim (ha c) (hb c)

theorem isSpace_lineBreak (depth : Nat) : IsSpace (JsonValue.lineBreak depth) := by
  refine List.forall_mem_cons.mpr ⟨rfl, fun c hc ↦ ?_⟩
  rw [List.eq_of_mem_replicate hc]
  rfl

section Written

variable {α : Type} {IsEntry : List Char → α → Prop} {close : Char} {space trail : List Char}
  {texts : List (List Char)} {as : List α}

theorem entries_of_forall₂ {first : Bool} {lead : List Char} (hlead : IsLead first lead)
    (hspace : IsSpace space) (htrail : IsSpace trail) (h : List.Forall₂ IsEntry texts as)
    (hne : texts ≠ []) :
    Entries IsEntry close first
      (lead ++ ((',' :: space).intercalate texts ++ (trail ++ [close]))) as := by
  induction h generalizing first lead with
  | nil => exact absurd rfl hne
  | cons hentry hrest ih =>
    cases hrest with
    | nil =>
      rw [List.intercalate_singleton]
      exact .cons hlead hentry (.close htrail)
    | cons hentry' hrest' =>
      have hbehind := ih (IsLead.next isSpace_nil hspace) (List.cons_ne_nil _ _)
      rw [List.intercalate_cons_cons, List.append_assoc, List.append_assoc]
      exact .cons hlead hentry hbehind

/-- Entries with commas between them, also if there are none. -/
theorem entries_of_intercalate (hspace : IsSpace space) (htrail : IsSpace trail)
    (h : List.Forall₂ IsEntry texts as) :
    Entries IsEntry close true
      (space ++ ((',' :: space).intercalate texts ++ (trail ++ [close]))) as := by
  by_cases hnil : texts = []
  · subst hnil
    obtain rfl := List.forall₂_nil_left_iff.mp h
    rw [← List.append_assoc, List.intercalate_nil, List.append_nil, ← List.append_assoc]
    exact .close (hspace.append htrail)
  · exact entries_of_forall₂ (.first hspace) hspace htrail h hnil

theorem Entries.exists_of_singleton {body : List Char} {a : α}
    (h : Entries IsEntry close true body [a]) :
    ∃ lead text trail, IsSpace lead ∧ IsEntry text a ∧ IsSpace trail ∧
      body = lead ++ (text ++ (trail ++ [close])) := by
  cases h with
  | cons hlead hentry hrest =>
    obtain ⟨hspace⟩ := hlead
    cases hrest with
    | close htrail => exact ⟨_, _, _, hspace, hentry, htrail, rfl⟩

theorem exists_block_eq {opening : Char} (depth : Nat) (h : List.Forall₂ IsEntry texts as) :
    ∃ body, JsonValue.block depth opening close texts = opening :: body ∧
      Entries IsEntry close true body as := by
  cases h with
  | nil => exact ⟨[close], rfl, .close isSpace_nil⟩
  | cons hentry hrest =>
    refine ⟨_, ?_, entries_of_intercalate (isSpace_lineBreak (depth + 1)) (isSpace_lineBreak depth)
      (.cons hentry hrest)⟩
    simp only [JsonValue.block, List.cons_append, List.append_assoc]

end Written

namespace JsonValue

theorem compactItems_eq (items : List JsonValue) : compactItems items = items.map compactChars := by
  induction items with
  | nil => rfl
  | cons item items ih => rw [compactItems, ih, List.map_cons]

theorem compactMembers_eq (members : List (String × JsonValue)) :
    compactMembers members = members.map fun member ↦
      jsonString member.1.toList ++ ':' :: member.2.compactChars := by
  induction members with
  | nil => rfl
  | cons member members ih => rw [compactMembers, ih, List.map_cons]

theorem indentedItems_eq (depth : Nat) (items : List JsonValue) :
    indentedItems depth items = items.map (indentedChars depth) := by
  induction items with
  | nil => rfl
  | cons item items ih => rw [indentedItems, ih, List.map_cons]

theorem indentedMembers_eq (depth : Nat) (members : List (String × JsonValue)) :
    indentedMembers depth members = members.map fun member ↦
      jsonString member.1.toList ++ ':' :: ' ' :: member.2.indentedChars depth := by
  induction members with
  | nil => rfl
  | cons member members ih => rw [indentedMembers, ih, List.map_cons]

end JsonValue

/-- The compact text of a value stands for it. -/
theorem NumberFree.isJson_compactChars {value : JsonValue} (h : NumberFree value) :
    IsJson value.compactChars value := by
  induction h with
  | null => exact .null
  | bool value => exact .bool value
  | string value => exact .string (isJsonString_jsonString _)
  | @array items _ ih =>
    have hitems : List.Forall₂ IsJson (JsonValue.compactItems items) items := by
      rw [JsonValue.compactItems_eq, List.forall₂_map_left_iff]
      exact List.forall₂_same.mpr ih
    exact .array (entries_of_intercalate isSpace_nil isSpace_nil hitems)
  | @object members _ ih =>
    have hmembers : List.Forall₂ (IsMember IsJson) (JsonValue.compactMembers members) members := by
      rw [JsonValue.compactMembers_eq, List.forall₂_map_left_iff]
      exact List.forall₂_same.mpr fun member hmember ↦
        .mk (isJsonString_jsonString _) isSpace_nil isSpace_nil (ih member hmember)
    exact .object (entries_of_intercalate isSpace_nil isSpace_nil hmembers)

theorem NumberFree.isJson_indentedChars {value : JsonValue} (h : NumberFree value) (depth : Nat) :
    IsJson (value.indentedChars depth) value := by
  induction h generalizing depth with
  | null => exact .null
  | bool value => exact .bool value
  | string value => exact .string (isJsonString_jsonString _)
  | @array items _ ih =>
    have hitems : List.Forall₂ IsJson (JsonValue.indentedItems (depth + 1) items) items := by
      rw [JsonValue.indentedItems_eq, List.forall₂_map_left_iff]
      exact List.forall₂_same.mpr fun item hitem ↦ ih item hitem (depth + 1)
    obtain ⟨body, htext, hbody⟩ := exists_block_eq depth hitems
    rw [JsonValue.indentedChars, htext]
    exact .array hbody
  | @object members _ ih =>
    have hspace : IsSpace [' '] := List.forall_mem_singleton.mpr rfl
    have hmembers : List.Forall₂ (IsMember IsJson)
        (JsonValue.indentedMembers (depth + 1) members) members := by
      rw [JsonValue.indentedMembers_eq, List.forall₂_map_left_iff]
      exact List.forall₂_same.mpr fun member hmember ↦
        .mk (isJsonString_jsonString _) isSpace_nil hspace (ih member hmember (depth + 1))
    obtain ⟨body, htext, hbody⟩ := exists_block_eq depth hmembers
    rw [JsonValue.indentedChars, htext]
    exact .object hbody

end TypeNotation

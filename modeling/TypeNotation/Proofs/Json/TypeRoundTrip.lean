import TypeNotation.Proofs.Json.Decoding
import TypeNotation.TypeExpr.Json
import TypeNotation.TypeExpr.JsonReader

/-!
# Types and their JSON texts

A type is read back from every JSON text that stands for its value, the compact and the indented one
among them, as long as there are as many levels left as the value nests. Whatever is left out of the
value, the reader fills in as it was: a missing name, result or `rest` means that there is none. So
no text stands for the values of two types.
-/

namespace TypeNotation

/-! ## Values of types -/

theorem jsonTypes_eq (types : List TypeExpr) : jsonTypes types = types.map TypeExpr.toJson := by
  induction types with
  | nil => rfl
  | cons type types ih => rw [jsonTypes, ih, List.map_cons]

theorem jsonParams_eq (params : List Param) : jsonParams params = params.map Param.toJson := by
  induction params with
  | nil => rfl
  | cons param params ih => rw [jsonParams, ih, List.map_cons]

theorem jsonMembers_eq (members : List Member) : jsonMembers members = members.map Member.toJson := by
  induction members with
  | nil => rfl
  | cons member members ih => rw [jsonMembers, ih, List.map_cons]

theorem TypeExpr.toJson_ne_null (t : TypeExpr) : t.toJson ≠ .null := by
  cases t <;> exact JsonValue.noConfusion

/-! ## Records -/

section Records

variable {α σ : Type} {member : σ → String → JsonReader σ} {value : JsonValue}

theorem Steps.append {state last : σ} {first second : List (String × JsonValue)} (next : σ)
    (h : Steps member state first next) (h' : Steps member next second last) :
    Steps member state (first ++ second) last := by
  induction h with
  | nil => exact h'
  | cons _ hmember _ ih => exact .cons _ hmember (ih h')

theorem Decodes.readOnce {reader : JsonReader α} {a : α} (h : Decodes reader value a)
    (name : String) : DecodesField (readOnce false name reader) value a :=
  h.readField

/-- What is made of the fields of an object is made of the last state. -/
theorem Entries.take_record {finish : (input : List Char) → Taken σ input.length →
      Except JsonError (Taken α input.length)}
    {body rest : List Char} {members : List (String × JsonValue)} {state : σ} {a : α} (last : σ)
    (h : Entries (IsMember IsJson) '}' true body members)
    (hsteps : Steps member state members last)
    (hfinish : ∀ input shorter, finish input ⟨last, rest, shorter⟩ = .ok ⟨a, rest, shorter⟩) :
    JsonReader.take (fun input ↦ readMembers member state true input >>= finish input)
      (body ++ rest) = .ok (a, rest) := by
  obtain ⟨_, hread⟩ := JsonReader.take_eq_ok_iff.mp (h.take_readMembers hsteps rest)
  rw [JsonReader.take, hread]
  change Except.map _ (finish _ _) = _
  rw [hfinish]
  rfl

end Records

section Parts

variable {levels : Nat} {type : (inner : Nat) → inner < levels → JsonReader TypeExpr}

theorem decodes_readParamJson
    (htype : ∀ inner h (t : TypeExpr), t.toJson.depth ≤ inner → Decodes (type inner h) t.toJson t)
    {param : Param} (h : param.toJson.depth ≤ levels) :
    Decodes (readParamJson type) param.toJson param := by
  obtain ⟨t, name, rest⟩ := param
  obtain ⟨inner, rfl, hmembers⟩ := JsonValue.depth_object_le_iff.mp h
  have ht := htype inner (Nat.lt_succ_self inner) t (hmembers _ List.mem_cons_self)
  refine decodes_readRecord fun body hbody behind ↦ ?_
  refine Entries.take_record ⟨some t, name.map some, if rest then some true else none⟩ hbody ?_ ?_
  · refine .append ⟨some t, name.map some, none⟩ (.cons ⟨some t, none, none⟩ ?_ ?_) ?_
    · rw [if_pos rfl]
      exact (ht.map _).readOnce "ty"
    · cases name with
      | none => exact .nil
      | some name =>
        refine .cons _ ?_ .nil
        rw [if_neg (by decide), if_pos rfl]
        exact (((decodes_readText name).readNullable JsonValue.noConfusion).map _).readOnce "name"
    · cases rest with
      | false => exact .nil
      | true =>
        refine .cons _ ?_ .nil
        rw [if_neg (by decide), if_neg (by decide), if_pos rfl]
        exact ((decodes_readBool true).map _).readOnce "rest"
  · intro input shorter
    cases name <;> cases rest <;> rfl

theorem decodes_readMemberJson
    (htype : ∀ inner h (t : TypeExpr), t.toJson.depth ≤ inner → Decodes (type inner h) t.toJson t)
    {member : Member} (h : member.toJson.depth ≤ levels) :
    Decodes (readMemberJson type) member.toJson member := by
  obtain ⟨name, t⟩ := member
  obtain ⟨inner, rfl, hmembers⟩ := JsonValue.depth_object_le_iff.mp h
  have ht := htype inner (Nat.lt_succ_self inner) t
    (hmembers ("ty", t.toJson) (List.mem_cons_of_mem _ List.mem_cons_self))
  refine decodes_readRecord fun body hbody behind ↦ ?_
  refine Entries.take_record ⟨some name, some t⟩ hbody ?_ fun _ _ ↦ rfl
  refine .cons ⟨some name, none⟩ ?_ (.cons _ ?_ .nil)
  · rw [if_pos rfl]
    exact ((decodes_readText name).map _).readOnce "name"
  · rw [if_neg (by decide), if_pos rfl]
    exact (ht.map _).readOnce "ty"

theorem decodes_readFunctionJson
    (htype : ∀ inner h (t : TypeExpr), t.toJson.depth ≤ inner → Decodes (type inner h) t.toJson t)
    {params : List Param} {result : Option TypeExpr}
    (h : (JsonValue.object (("params", .array (jsonParams params)) :: jsonResult result)).depth ≤
      levels) :
    Decodes (readFunctionJson type)
      (.object (("params", .array (jsonParams params)) :: jsonResult result))
      (.function params result) := by
  obtain ⟨inner, rfl, hmembers⟩ := JsonValue.depth_object_le_iff.mp h
  have hparams := hmembers ("params", .array (jsonParams params)) List.mem_cons_self
  rw [jsonParams_eq] at hparams
  refine decodes_readRecord fun body hbody behind ↦ ?_
  refine Entries.take_record ⟨some params, result.map some⟩ hbody ?_ ?_
  · refine .cons ⟨some params, none⟩ ?_ ?_
    · rw [if_pos rfl]
      refine (Decodes.map ?_ _).readOnce "params"
      rw [jsonParams_eq]
      refine decodes_readArray_map hparams fun item hitem param hparam ↦ ?_
      exact decodes_readParamJson (fun l hl t ht ↦ htype l _ t ht) hparam
    · cases result with
      | none => exact .nil
      | some t =>
        have ht := htype inner (Nat.lt_succ_self inner) t
          (hmembers ("return_type", t.toJson) (List.mem_cons_of_mem _ List.mem_cons_self))
        refine .cons _ ?_ .nil
        rw [if_neg (by decide), if_pos rfl]
        exact ((ht.readNullable t.toJson_ne_null).map _).readOnce "return_type"
  · intro input shorter
    cases result <;> rfl

end Parts

/-! ## Kinds -/

section Kinds

variable {space rest keyText : List Char} {variant : Variant}

theorem take_readVariantName {body : List Char} (h : IsJsonBody body variant.name.toList)
    (rest : List Char) : JsonReader.take readVariantName (body ++ rest) = .ok (variant, rest) := by
  have hfind : (Variant.all.find? fun v ↦ v.name.toList = variant.name.toList) = some variant := by
    cases variant <;> rfl
  obtain ⟨_, hname⟩ := JsonReader.take_eq_ok_iff.mp (take_readStringBody h rest)
  rw [JsonReader.take, readVariantName, hname]
  simp only [bind, Except.bind, hfind, Except.map, Taken.map]

theorem take_readVariantKey (hspace : IsSpace space)
    (hkey : IsJsonString keyText variant.name.toList) (rest : List Char) :
    JsonReader.take readVariantKey (space ++ (keyText ++ rest)) = .ok (variant, rest) := by
  cases hkey with
  | @mk body _ hbody =>
    have hskip : skipSpace ('"' :: body ++ rest) = '"' :: (body ++ rest) := skipSpace_cons rfl _
    obtain ⟨_, hname⟩ := JsonReader.take_eq_ok_iff.mp (take_readVariantName hbody rest)
    rw [readVariantKey, take_afterSpace, skipSpace_append hspace, hskip]
    change Except.map _ ((readVariantName (body ++ rest)).map _) = _
    rw [hname]
    rfl

theorem take_readVariantEnd (hspace : IsSpace space) (rest : List Char) :
    JsonReader.take readVariantEnd (space ++ '}' :: rest) = .ok ((), rest) := by
  rw [readVariantEnd, take_afterSpace, skipSpace_append hspace]
  rfl

end Kinds

/-! ## Types -/

/-- Reads the part of a type that is behind the name of its kind. -/
def readContent (inner : Nat) : Variant → JsonReader TypeExpr
  | .any => fun value ↦ (readNull value).map (·.map fun _ ↦ .any)
  | .entity => fun value ↦ (readText value).map (·.map .entity)
  | .nullable => fun value ↦ (readTypeJson inner value).map (·.map .nullable)
  | .union => fun value ↦
    (readArray inner (fun item _ ↦ readTypeJson item) value).map (·.map .union)
  | .function => readFunctionJson fun l (_ : l < inner) ↦ readTypeJson l
  | .array => fun value ↦ (readTypeJson inner value).map (·.map .array)
  | .object => fun value ↦
    (readArray inner (fun item _ ↦ readMemberJson fun l (_ : l < item) ↦ readTypeJson l) value).map
      (·.map .object)
  | .text => fun value ↦ (readText value).map (·.map .text)
  | .number => fun value ↦ (readText value).map (·.map .number)

theorem decodes_readTypeJson_object {inner : Nat} (variant : Variant) {content : JsonValue}
    {t : TypeExpr} (h : Decodes (readContent inner variant) content t) :
    Decodes (readTypeJson (inner + 1)) (.object [(variant.name, content)]) t := by
  intro text htext
  cases htext with
  | object hbody =>
    obtain ⟨lead, memberText, trail, hlead, hmember, htrail, rfl⟩ := hbody.exists_of_singleton
    obtain ⟨hkey, hspace, hspace', hvalue⟩ := hmember
    rename_i keyText space space' valueText
    rw [readTypeJson]
    refine reads_afterSpace rfl fun rest ↦ ?_
    obtain ⟨_, hread⟩ := JsonReader.take_eq_ok_iff.mp (take_readVariantKey hlead hkey
      (space ++ ':' :: (space' ++ (valueText ++ (trail ++ '}' :: rest)))))
    obtain ⟨_, hcolon⟩ := JsonReader.take_eq_ok_iff.mp (take_readColon hspace
      (space' ++ (valueText ++ (trail ++ '}' :: rest))))
    obtain ⟨_, hcontent⟩ := JsonReader.take_eq_ok_iff.mp
      (h valueText hvalue space' (trail ++ '}' :: rest) hspace')
    obtain ⟨_, hend⟩ := JsonReader.take_eq_ok_iff.mp (take_readVariantEnd htrail rest)
    simp only [List.cons_append, List.append_assoc, List.nil_append]
    change Except.map _ (readVariantKey _ >>= _) = _
    rw [hread]
    change Except.map _ (readColon _ >>= _) = _
    rw [hcolon]
    change Except.map _ (readContent inner variant _ >>= _) = _
    rw [hcontent]
    change Except.map _ (readVariantEnd _ >>= _) = _
    rw [hend]
    rfl

theorem decodes_readTypeJson_any (levels : Nat) :
    Decodes (readTypeJson levels) (.string "Any") .any := by
  intro text htext
  cases htext with
  | string hstring =>
    cases hstring with
    | @mk body _ hbody =>
      rw [readTypeJson]
      refine reads_afterSpace rfl fun rest ↦ ?_
      have hname : IsJsonBody body (Variant.name .any).toList := hbody
      obtain ⟨_, hread⟩ := JsonReader.take_eq_ok_iff.mp (take_readVariantName hname rest)
      change Except.map _ (readVariantName (body ++ rest) >>= _) = _
      rw [hread]
      rfl

/-- A type is read from its value, within as many levels as the value nests. -/
theorem decodes_readTypeJson {levels : Nat} {t : TypeExpr} (h : t.toJson.depth ≤ levels) :
    Decodes (readTypeJson levels) t.toJson t := by
  induction levels using Nat.strongRecOn generalizing t with
  | ind levels ih =>
    cases t with
    | any => exact decodes_readTypeJson_any levels
    | entity name =>
      obtain ⟨inner, rfl, -⟩ := JsonValue.depth_object_le_iff.mp h
      exact decodes_readTypeJson_object .entity ((decodes_readText name).map _)
    | nullable t =>
      obtain ⟨inner, rfl, hcontent⟩ := JsonValue.depth_object_le_iff.mp h
      have ht := ih inner (Nat.lt_succ_self inner) (hcontent _ List.mem_cons_self)
      exact decodes_readTypeJson_object .nullable (ht.map _)
    | union members =>
      obtain ⟨inner, rfl, hcontent⟩ := JsonValue.depth_object_le_iff.mp h
      have hmembers := hcontent ("Union", .array (jsonTypes members)) List.mem_cons_self
      rw [jsonTypes_eq] at hmembers
      refine decodes_readTypeJson_object .union (Decodes.map ?_ _)
      rw [jsonTypes_eq]
      exact decodes_readArray_map hmembers fun item hitem t ht ↦ ih item (by omega) ht
    | function params result =>
      obtain ⟨inner, rfl, hcontent⟩ := JsonValue.depth_object_le_iff.mp h
      refine decodes_readTypeJson_object .function ?_
      exact decodes_readFunctionJson (fun l hl t ht ↦ ih l (by omega) ht)
        (hcontent _ List.mem_cons_self)
    | array element =>
      obtain ⟨inner, rfl, hcontent⟩ := JsonValue.depth_object_le_iff.mp h
      have ht := ih inner (Nat.lt_succ_self inner) (hcontent _ List.mem_cons_self)
      exact decodes_readTypeJson_object .array (ht.map _)
    | object members =>
      obtain ⟨inner, rfl, hcontent⟩ := JsonValue.depth_object_le_iff.mp h
      have hmembers := hcontent ("Object", .array (jsonMembers members)) List.mem_cons_self
      rw [jsonMembers_eq] at hmembers
      refine decodes_readTypeJson_object .object (Decodes.map ?_ _)
      rw [jsonMembers_eq]
      refine decodes_readArray_map hmembers fun item hitem member hmember ↦ ?_
      exact decodes_readMemberJson (fun l hl t ht ↦ ih l (by omega) ht) hmember
    | text value =>
      obtain ⟨inner, rfl, -⟩ := JsonValue.depth_object_le_iff.mp h
      exact decodes_readTypeJson_object .text ((decodes_readText value).map _)
    | number text =>
      obtain ⟨inner, rfl, -⟩ := JsonValue.depth_object_le_iff.mp h
      exact decodes_readTypeJson_object .number ((decodes_readText text).map _)

/-! ## Written types -/

mutual

theorem TypeExpr.numberFree_toJson : (t : TypeExpr) → NumberFree t.toJson
  | .any => .string _
  | .entity name => .object (List.forall_mem_singleton.mpr (.string name))
  | .nullable inner => .object (List.forall_mem_singleton.mpr inner.numberFree_toJson)
  | .union members =>
    .object (List.forall_mem_singleton.mpr (.array (numberFree_jsonTypes members)))
  | .function params result => .object (List.forall_mem_singleton.mpr (.object
      (List.forall_mem_cons.mpr ⟨.array (numberFree_jsonParams params),
        numberFree_jsonResult result⟩)))
  | .array element => .object (List.forall_mem_singleton.mpr element.numberFree_toJson)
  | .object members =>
    .object (List.forall_mem_singleton.mpr (.array (numberFree_jsonMembers members)))
  | .text value => .object (List.forall_mem_singleton.mpr (.string value))
  | .number text => .object (List.forall_mem_singleton.mpr (.string text))

theorem Param.numberFree_toJson : (param : Param) → NumberFree param.toJson
  | ⟨type, name, rest⟩ => by
    refine .object (List.forall_mem_append.mpr
      ⟨List.forall_mem_cons.mpr ⟨type.numberFree_toJson, ?_⟩, ?_⟩)
    · cases name with
      | none => exact List.forall_mem_nil _
      | some name => exact List.forall_mem_singleton.mpr (.string name)
    · cases rest with
      | false => exact List.forall_mem_nil _
      | true => exact List.forall_mem_singleton.mpr (.bool true)

theorem Member.numberFree_toJson : (member : Member) → NumberFree member.toJson
  | ⟨name, type⟩ => .object (List.forall_mem_cons.mpr ⟨.string name,
      List.forall_mem_singleton.mpr type.numberFree_toJson⟩)

theorem numberFree_jsonTypes : (types : List TypeExpr) → ∀ v ∈ jsonTypes types, NumberFree v
  | [] => List.forall_mem_nil _
  | type :: types =>
    List.forall_mem_cons.mpr ⟨type.numberFree_toJson, numberFree_jsonTypes types⟩

theorem numberFree_jsonParams : (params : List Param) → ∀ v ∈ jsonParams params, NumberFree v
  | [] => List.forall_mem_nil _
  | param :: params =>
    List.forall_mem_cons.mpr ⟨param.numberFree_toJson, numberFree_jsonParams params⟩

theorem numberFree_jsonMembers : (members : List Member) → ∀ v ∈ jsonMembers members, NumberFree v
  | [] => List.forall_mem_nil _
  | member :: members =>
    List.forall_mem_cons.mpr ⟨member.numberFree_toJson, numberFree_jsonMembers members⟩

theorem numberFree_jsonResult : (result : Option TypeExpr) →
    ∀ member ∈ jsonResult result, NumberFree member.2
  | none => List.forall_mem_nil _
  | some type => List.forall_mem_singleton.mpr type.numberFree_toJson

end

theorem TypeExpr.isJson_compact (t : TypeExpr) : IsJson t.toJson.compact.toList t.toJson := by
  rw [JsonValue.compact, String.toList_ofList]
  exact t.numberFree_toJson.isJson_compactChars

theorem TypeExpr.isJson_indented (t : TypeExpr) : IsJson t.toJson.indented.toList t.toJson := by
  rw [JsonValue.indented, String.toList_ofList]
  exact t.numberFree_toJson.isJson_indentedChars 0

theorem eq_of_isJson_toJson {text : List Char} {t t' : TypeExpr} (h : IsJson text t.toJson)
    (h' : IsJson text t'.toJson) : t = t' := by
  have hdecodes := decodes_readTypeJson (Nat.le_refl t.toJson.depth)
  have hdecodes' := decodes_readTypeJson (Nat.le_refl t'.toJson.depth)
  rw [← h.unique h'] at hdecodes'
  have hread := hdecodes text h [] [] isSpace_nil
  have hread' := hdecodes' text h [] [] isSpace_nil
  exact (Prod.mk.inj (Except.ok.inj (hread.symm.trans hread'))).1

def JsonValue.keys : JsonValue → List String
  | object members => members.map Prod.fst
  | _ => []

theorem keys_toJson_param (param : Param) :
    ("name" ∈ param.toJson.keys ↔ param.name.isSome = true) ∧
      ("rest" ∈ param.toJson.keys ↔ param.rest = true) := by
  obtain ⟨type, name, rest⟩ := param
  cases name <;> cases rest <;> simp [Param.toJson, JsonValue.keys]

theorem keys_toJson_function (params : List Param) (result : Option TypeExpr) :
    "return_type" ∈
      (JsonValue.object (("params", .array (jsonParams params)) :: jsonResult result)).keys ↔
      result.isSome = true := by
  cases result <;> simp [jsonResult, JsonValue.keys]

/-- **Reading JSON undoes writing it, for all types.** The compact and the indented text of a type
stand for its value, and a text stands for one value only. A type whose value nests no deeper than
the reader goes is read back from both texts as it was. Of a function and its parameters the absent
parts are left out of the value, and only these. However deep they nest, different types have
different texts. -/
theorem ofJson_undoes_toJson :
    (∀ t : TypeExpr, IsJson t.toJson.compact.toList t.toJson ∧
      IsJson t.toJson.indented.toList t.toJson) ∧
    (∀ text value value', IsJson text value → IsJson text value' → value = value') ∧
    (∀ t : TypeExpr, t.toJson.depth ≤ maxLevels →
      TypeExpr.ofJson t.toJson.compact = .ok t ∧ TypeExpr.ofJson t.toJson.indented = .ok t) ∧
    (∀ param : Param, ("name" ∈ param.toJson.keys ↔ param.name.isSome = true) ∧
      ("rest" ∈ param.toJson.keys ↔ param.rest = true)) ∧
    (∀ params result, ∃ members,
      (TypeExpr.function params result).toJson = .object [("Function", .object members)] ∧
      ("params", .array (params.map Param.toJson)) ∈ members ∧
      ("return_type" ∈ (JsonValue.object members).keys ↔ result.isSome = true)) ∧
    (Function.Injective fun t : TypeExpr ↦ t.toJson.compact) ∧
    Function.Injective fun t : TypeExpr ↦ t.toJson.indented := by
  refine ⟨fun t ↦ ⟨t.isJson_compact, t.isJson_indented⟩, fun text value value' ↦ IsJson.unique,
    fun t h ↦ ?_, keys_toJson_param, fun params result ↦ ?_, fun t t' h ↦ ?_, fun t t' h ↦ ?_⟩
  · have hdecodes := decodes_readTypeJson h
    exact ⟨hdecodes.readWhole t.isJson_compact, hdecodes.readWhole t.isJson_indented⟩
  · refine ⟨_, rfl, ?_, keys_toJson_function params result⟩
    rw [jsonParams_eq]
    exact List.mem_cons_self
  · have hcompact := t'.isJson_compact
    have htext : t.toJson.compact = t'.toJson.compact := h
    rw [← htext] at hcompact
    exact eq_of_isJson_toJson t.isJson_compact hcompact
  · have hindented := t'.isJson_indented
    have htext : t.toJson.indented = t'.toJson.indented := h
    rw [← htext] at hindented
    exact eq_of_isJson_toJson t.isJson_indented hindented

end TypeNotation

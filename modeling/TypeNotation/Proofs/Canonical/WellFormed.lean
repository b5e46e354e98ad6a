import TypeNotation.Proofs.Grammar.Derivation
import TypeNotation.Proofs.Lexical.Scans

/-!
# Well-formed types

A tree may hold any text as a name or a number. Here are the trees whose names are identifiers and
whose numbers are numbers, wherever they stand; nothing else can be read from an annotation.
-/

namespace TypeNotation

/-! ## The condition -/

/-- The name of a parameter is an identifier, and a parameter that takes all further arguments has
one. -/
structure Param.HasRegularName (param : Param) : Prop where
  identifier : ∀ name ∈ param.name, IsIdentifier name
  named : param.rest = true → ∃ name, param.name = some name

/-- Every name and every number in the type is one that can be written. -/
inductive TypeExpr.WellFormed : TypeExpr → Prop
  | any : WellFormed .any
  | entity {name : String} (hname : IsDotted IsIdentifier name) : WellFormed (.entity name)
  | nullable {inner : TypeExpr} (hinner : WellFormed inner) : WellFormed (.nullable inner)
  | union {members : List TypeExpr} (hmembers : ∀ member ∈ members, WellFormed member) :
      WellFormed (.union members)
  | function {params : List Param} {result : Option TypeExpr}
      (hnames : ∀ param ∈ params, param.HasRegularName)
      (htypes : ∀ param ∈ params, WellFormed param.type)
      (hresult : ∀ type ∈ result, WellFormed type) : WellFormed (.function params result)
  | array {element : TypeExpr} (helement : WellFormed element) : WellFormed (.array element)
  | object {members : List Member} (hnames : ∀ member ∈ members, IsIdentifier member.name)
      (htypes : ∀ member ∈ members, WellFormed member.type) : WellFormed (.object members)
  | text (value : String) : WellFormed (.text value)
  | number {text : String} (htext : IsNumber text.toList) : WellFormed (.number text)

theorem Param.HasRegularName.cases {param : Param} (h : param.HasRegularName) :
    param = .unnamed param.type ∨
      ∃ name, IsIdentifier name ∧ (param = .named name param.type ∨
        param = .variadic name param.type) := by
  obtain ⟨type, name, rest⟩ := param
  cases name with
  | some name =>
    refine .inr ⟨name, h.identifier name rfl, ?_⟩
    cases rest with
    | true => exact .inr rfl
    | false => exact .inl rfl
  | none =>
    cases rest with
    | true =>
      obtain ⟨name, hname⟩ := h.named rfl
      cases hname
    | false => exact .inl rfl

/-! ## Derived types -/

theorem ListOf.exists_of_mem {α : Type} {Item : List Token → α → Prop} {tokens : List Token}
    {as : List α} (h : ListOf Item tokens as) {a : α} (ha : a ∈ as) :
    ∃ part, Item part a ∧ List.Sublist part tokens := by
  induction h with
  | nil => cases ha
  | cons head _ ih =>
    rcases List.mem_cons.mp ha with rfl | ha
    · exact ⟨_, head, List.sublist_append_left _ _⟩
    · obtain ⟨part, hpart, hsub⟩ := ih ha
      exact ⟨part, hpart, hsub.trans (List.sublist_append_right _ _)⟩
  | consComma head _ ih =>
    rcases List.mem_cons.mp ha with rfl | ha
    · exact ⟨_, head, List.sublist_append_left _ _⟩
    · obtain ⟨part, hpart, hsub⟩ := ih ha
      exact ⟨part, hpart, (hsub.cons _).trans (List.sublist_append_right _ _)⟩

theorem isDotted_of_isRegular {name : String} {segments : List String}
    (h : ∀ token ∈ .identifier name :: segmentTokens segments, token.IsRegular) :
    IsDotted IsIdentifier (".".intercalate (name :: segments)) := by
  obtain ⟨hname, hsegments⟩ := List.forall_mem_cons.mp h
  refine ⟨name, segments, List.forall_mem_cons.mpr ⟨hname, fun segment hsegment ↦ ?_⟩, rfl⟩
  exact hsegments (.identifier segment) (List.mem_flatMap.mpr ⟨segment, hsegment, by simp⟩)

section Items

variable {tokens : List Token}

theorem DerivesParam.hasRegularName {param : Param} (h : DerivesParam tokens param)
    (hregular : ∀ token ∈ tokens, token.IsRegular) : param.HasRegularName := by
  cases h with
  | unnamed type =>
    refine ⟨?_, fun hrest ↦ by cases hrest⟩
    rintro _ ⟨⟩
  | named name type =>
    refine ⟨?_, fun hrest ↦ by cases hrest⟩
    rintro _ ⟨⟩
    exact hregular (.identifier name) (by simp)
  | variadic name type =>
    refine ⟨?_, fun _ ↦ ⟨name, rfl⟩⟩
    rintro _ ⟨⟩
    exact hregular (.identifier name) (by simp)

theorem DerivesParam.derives_type {param : Param} (h : DerivesParam tokens param) :
    ∃ part, Derives part param.type ∧ List.Sublist part tokens := by
  cases h with
  | unnamed type => exact ⟨_, type, .refl _⟩
  | named name type => exact ⟨_, type, ((List.Sublist.refl _).cons _).cons _⟩
  | variadic name type => exact ⟨_, type, (((List.Sublist.refl _).cons _).cons _).cons _⟩

theorem DerivesMember.isIdentifier_name {member : Member} (h : DerivesMember tokens member)
    (hregular : ∀ token ∈ tokens, token.IsRegular) : IsIdentifier member.name := by
  cases h with
  | mk name type => exact hregular (.identifier name) (by simp)

theorem DerivesMember.derives_type {member : Member} (h : DerivesMember tokens member) :
    ∃ part, Derives part member.type ∧ List.Sublist part tokens := by
  cases h with
  | mk name type => exact ⟨_, type, ((List.Sublist.refl _).cons _).cons _⟩

end Items

/-- A type derived from regular tokens is well-formed. -/
theorem Derives.wellFormed {tokens : List Token} {t : TypeExpr} (h : Derives tokens t)
    (hregular : ∀ token ∈ tokens, token.IsRegular) : t.WellFormed := by
  -- on the number of tokens, since what is inside a type is derived from fewer of them
  induction hn : tokens.length using Nat.strongRecOn generalizing tokens t with
  | ind n ih =>
    have hinside {first : Token} {part : List Token} {t' : TypeExpr} (hpart : Derives part t')
        (hsub : List.Sublist (first :: part) tokens) : t'.WellFormed :=
      ih part.length (hn ▸ hsub.length_le) hpart
        (fun token htoken ↦ hregular token (hsub.subset (List.mem_cons_of_mem _ htoken))) rfl
    have hparams {first : Token} {inside : List Token} {params : List Param}
        (items : ListOf DerivesParam inside params) (hsub : List.Sublist (first :: inside) tokens) :
        (∀ param ∈ params, param.HasRegularName) ∧ ∀ param ∈ params, param.type.WellFormed := by
      refine ⟨fun param hparam ↦ ?_, fun param hparam ↦ ?_⟩
      · obtain ⟨part, hpart, hsub'⟩ := items.exists_of_mem hparam
        exact hpart.hasRegularName fun token htoken ↦
          hregular token (hsub.subset (List.mem_cons_of_mem _ (hsub'.subset htoken)))
      · obtain ⟨part, hpart, hsub'⟩ := items.exists_of_mem hparam
        obtain ⟨part', hpart', hsub''⟩ := hpart.derives_type
        exact hinside hpart' (((hsub''.trans hsub').cons_cons _).trans hsub)
    cases h with
    | any => exact .any
    | text value => exact .text value
    | number text => exact .number (hregular (.number text) List.mem_cons_self)
    | entity name segments => exact .entity (isDotted_of_isRegular hregular)
    | nullable type => exact .nullable (hinside type (.refl _))
    | array type => exact .array (hinside type (List.sublist_append_left _ _))
    | union items =>
      refine .union fun member hmember ↦ ?_
      obtain ⟨part, hpart, hsub⟩ := items.exists_of_mem hmember
      exact hinside hpart (((hsub.trans (List.sublist_append_left _ _)).cons _).cons_cons _)
    | object items =>
      refine .object (fun member hmember ↦ ?_) fun member hmember ↦ ?_
      · obtain ⟨part, hpart, hsub⟩ := items.exists_of_mem hmember
        exact hpart.isIdentifier_name fun token htoken ↦
          hregular token (by simp [hsub.subset htoken])
      · obtain ⟨part, hpart, hsub⟩ := items.exists_of_mem hmember
        obtain ⟨part', hpart', hsub'⟩ := hpart.derives_type
        exact hinside hpart'
          (((hsub'.trans hsub).trans (List.sublist_append_left _ _)).cons_cons _)
    | function items =>
      obtain ⟨hnames, htypes⟩ := hparams items (List.sublist_append_left _ _)
      exact .function hnames htypes fun _ hnone ↦ by cases hnone
    | functionTo items type =>
      obtain ⟨hnames, htypes⟩ := hparams items (List.sublist_append_left _ _)
      refine .function hnames htypes ?_
      rintro _ ⟨⟩
      exact hinside type
        (List.Sublist.cons_cons _ (((List.Sublist.refl _).cons _ |>.cons _).trans
          (List.sublist_append_right _ _)))

end TypeNotation

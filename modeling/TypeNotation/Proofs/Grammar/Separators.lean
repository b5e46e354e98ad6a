import TypeNotation.Proofs.Grammar.Derivation
import TypeNotation.Proofs.LeavesOut

/-!
# Commas

A comma stands behind an item of a list and says nothing. Leaving some commas out of a list of
tokens that is a type gives a list that is the same type: no other rule has a comma in it, and what
is left of two items still are two items.
-/

namespace TypeNotation

/-! ## Leaving commas out -/

/-- The second list is the first without some of its commas. -/
abbrev WithoutCommas : List Token → List Token → Prop := LeavesOut (· = .symbol .comma)

/-- If items stay what they are without commas, then so do lists of them. -/
theorem ListOf.withoutCommas {α : Type} {Item : List Token → α → Prop} {tokens kept : List Token}
    {as : List α} (h : ListOf Item tokens as)
    (hitem : ∀ {part part' a}, part.length ≤ tokens.length → Item part a →
      WithoutCommas part part' → Item part' a)
    (hkept : WithoutCommas tokens kept) : ListOf Item kept as := by
  induction h generalizing kept with
  | nil =>
    rw [hkept.eq (by simp)]
    exact .nil
  | cons head _ ih =>
    obtain ⟨first, others, rfl, hfirst, hothers⟩ := hkept.exists_append
    rw [List.length_append] at hitem
    exact .cons (hitem (Nat.le_add_right _ _) head hfirst)
      (ih (fun hle ↦ hitem (Nat.le_trans hle (Nat.le_add_left _ _))) hothers)
  | consComma head _ ih =>
    obtain ⟨first, behind, rfl, hfirst, hbehind⟩ := hkept.exists_append
    rw [List.length_append, List.length_cons] at hitem
    have hhead := hitem (Nat.le_add_right _ _) head hfirst
    cases hbehind with
    | keep _ hothers => exact .consComma hhead (ih (fun hle ↦ hitem (by omega)) hothers)
    | drop _ hothers => exact .cons hhead (ih (fun hle ↦ hitem (by omega)) hothers)

theorem not_comma_of_mem_segmentTokens {name : String} {segments : List String} :
    ∀ token ∈ .identifier name :: segmentTokens segments, token ≠ .symbol .comma := by
  intro token htoken
  simp only [segmentTokens, List.mem_cons, List.mem_flatMap, List.not_mem_nil, or_false] at htoken
  rcases htoken with rfl | ⟨_, -, rfl | rfl⟩ <;> simp

section Items

variable {part kept : List Token}

theorem DerivesParam.withoutCommas {param : Param} (h : DerivesParam part param)
    (htype : ∀ {inner inner' t}, inner.length ≤ part.length → Derives inner t →
      WithoutCommas inner inner' → Derives inner' t)
    (hkept : WithoutCommas part kept) : DerivesParam kept param := by
  cases h with
  | unnamed type => exact .unnamed (htype (Nat.le_refl _) type hkept)
  | named name type =>
    obtain ⟨_, rfl, hcolon⟩ := hkept.exists_cons (by simp)
    obtain ⟨_, rfl, hinner⟩ := hcolon.exists_cons (by simp)
    exact .named name (htype (by simp only [List.length_cons]; omega) type hinner)
  | variadic name type =>
    obtain ⟨_, rfl, hname⟩ := hkept.exists_cons (by simp)
    obtain ⟨_, rfl, hcolon⟩ := hname.exists_cons (by simp)
    obtain ⟨_, rfl, hinner⟩ := hcolon.exists_cons (by simp)
    exact .variadic name (htype (by simp only [List.length_cons]; omega) type hinner)

theorem DerivesMember.withoutCommas {member : Member} (h : DerivesMember part member)
    (htype : ∀ {inner inner' t}, inner.length ≤ part.length → Derives inner t →
      WithoutCommas inner inner' → Derives inner' t)
    (hkept : WithoutCommas part kept) : DerivesMember kept member := by
  cases h with
  | mk name type =>
    obtain ⟨_, rfl, hcolon⟩ := hkept.exists_cons (by simp)
    obtain ⟨_, rfl, hinner⟩ := hcolon.exists_cons (by simp)
    exact .mk name (htype (by simp only [List.length_cons]; omega) type hinner)

end Items

theorem length_lt_cons_append {part inside behind : List Token} {first : Token}
    (h : part.length ≤ inside.length) : part.length < (first :: inside ++ behind).length := by
  simp only [List.length_cons, List.length_append]
  omega

/-- A type stays the type that it is without some of its commas. -/
theorem Derives.withoutCommas {tokens kept : List Token} {t : TypeExpr} (h : Derives tokens t)
    (hkept : WithoutCommas tokens kept) : Derives kept t := by
  -- on the number of tokens, since what is inside a type is derived from fewer of them
  induction hn : tokens.length using Nat.strongRecOn generalizing tokens kept t with
  | ind n ih =>
    have hinside {part part' : List Token} {t' : TypeExpr} (hlt : part.length < tokens.length)
        (hpart : Derives part t') (hpart' : WithoutCommas part part') : Derives part' t' :=
      ih part.length (hn ▸ hlt) hpart hpart' rfl
    have hparam {part part' : List Token} {param : Param} (hlt : part.length < tokens.length)
        (hpart : DerivesParam part param) (hpart' : WithoutCommas part part') :
        DerivesParam part' param :=
      hpart.withoutCommas (fun hle ↦ hinside (Nat.lt_of_le_of_lt hle hlt)) hpart'
    have hmember {part part' : List Token} {member : Member} (hlt : part.length < tokens.length)
        (hpart : DerivesMember part member) (hpart' : WithoutCommas part part') :
        DerivesMember part' member :=
      hpart.withoutCommas (fun hle ↦ hinside (Nat.lt_of_le_of_lt hle hlt)) hpart'
    cases h with
    | any =>
      rw [hkept.eq (by simp)]
      exact .any
    | text value =>
      rw [hkept.eq (by simp)]
      exact .text value
    | number text =>
      rw [hkept.eq (by simp)]
      exact .number text
    | entity name segments =>
      rw [hkept.eq not_comma_of_mem_segmentTokens]
      exact .entity name segments
    | nullable type =>
      obtain ⟨_, rfl, hinner⟩ := hkept.exists_cons (by simp)
      exact .nullable (hinside (by simp) type hinner)
    | array type =>
      obtain ⟨_, rfl, hbehind⟩ := hkept.exists_cons (by simp)
      obtain ⟨_, rfl, hinner⟩ := hbehind.exists_append_singleton (by simp)
      exact .array (hinside (length_lt_cons_append (Nat.le_refl _)) type hinner)
    | union items =>
      obtain ⟨_, rfl, hless⟩ := hkept.exists_cons (by simp)
      obtain ⟨_, rfl, hbehind⟩ := hless.exists_cons (by simp)
      obtain ⟨_, rfl, hitems⟩ := hbehind.exists_append_singleton (by simp)
      refine .union (items.withoutCommas (fun hle ↦ hinside ?_) hitems)
      exact length_lt_cons_append (Nat.le_succ_of_le hle)
    | object items =>
      obtain ⟨_, rfl, hbehind⟩ := hkept.exists_cons (by simp)
      obtain ⟨_, rfl, hitems⟩ := hbehind.exists_append_singleton (by simp)
      exact .object (items.withoutCommas (fun hle ↦ hmember (length_lt_cons_append hle)) hitems)
    | function items =>
      obtain ⟨_, rfl, hbehind⟩ := hkept.exists_cons (by simp)
      obtain ⟨_, rfl, hitems⟩ := hbehind.exists_append_singleton (by simp)
      exact .function (items.withoutCommas (fun hle ↦ hparam (length_lt_cons_append hle)) hitems)
    | functionTo items type =>
      obtain ⟨_, rfl, hbehind⟩ := hkept.exists_cons (by simp)
      obtain ⟨_, _, rfl, hitems, harrow⟩ := hbehind.exists_append_cons (by simp)
      obtain ⟨_, rfl, hresult⟩ := harrow.exists_cons (by simp)
      refine .functionTo
        (items.withoutCommas (fun hle ↦ hparam (length_lt_cons_append hle)) hitems)
        (hinside ?_ type hresult)
      simp only [List.length_cons, List.length_append]
      omega

end TypeNotation

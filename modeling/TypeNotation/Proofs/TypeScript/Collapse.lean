import TypeNotation.Proofs.Grammar.Annotation
import TypeNotation.Proofs.LeavesOut
import TypeNotation.Proofs.TypeScript.Legibility

/-!
# Unions with one member

A union with one member is laid out as that member, and yet it is not the same to write one or the
other: whether a type is wrapped in front of `[]` and beside a `|` is decided by the type as it
stands there, and a union with one member is never wrapped. So a nullable type, a function or a
larger union loses its parentheses when a union of one stands around it, and `a | null[]` is another
type than `(a | null)[]`. Here it is said how much is lost: nothing but parentheses, and a pair for
each such place.
-/

namespace TypeNotation

/-! ## Types without unions of one -/

mutual

/-- The type with each union of one member replaced by the member. -/
def TypeExpr.collapse : TypeExpr → TypeExpr
  | .any => .any
  | .entity name => .entity name
  | .nullable inner => .nullable inner.collapse
  | .union [] => .union []
  | .union [single] => single.collapse
  | .union (first :: second :: others) =>
    .union (first.collapse :: second.collapse :: collapseTypes others)
  | .function params result => .function (collapseParams params) (collapseResult result)
  | .array element => .array element.collapse
  | .object members => .object (collapseMembers members)
  | .text value => .text value
  | .number text => .number text

def Param.collapse : Param → Param
  | ⟨type, name, rest⟩ => ⟨type.collapse, name, rest⟩

def Member.collapse : Member → Member
  | ⟨name, type⟩ => ⟨name, type.collapse⟩

def collapseTypes : List TypeExpr → List TypeExpr
  | [] => []
  | type :: types => type.collapse :: collapseTypes types

def collapseParams : List Param → List Param
  | [] => []
  | param :: params => param.collapse :: collapseParams params

def collapseMembers : List Member → List Member
  | [] => []
  | member :: members => member.collapse :: collapseMembers members

def collapseResult : Option TypeExpr → Option TypeExpr
  | none => none
  | some type => some type.collapse

end

/-- No union of one stands in the type. -/
def TypeExpr.HasNoSingle (t : TypeExpr) : Prop := ∀ single, ¬(union [single]).Occurs t

theorem TypeExpr.hasNoSingle_function {params : List Param} {result : Option TypeExpr}
    (hparams : ∀ param ∈ params, param.type.HasNoSingle)
    (hresult : ∀ type ∈ result, type.HasNoSingle) : (function params result).HasNoSingle := by
  rintro single (_ | _ | _ | ⟨hparam, h⟩ | h)
  · exact hparams _ hparam single h
  · exact hresult _ rfl single h

mutual

theorem TypeExpr.hasNoSingle_collapse : (t : TypeExpr) → t.collapse.HasNoSingle
  | .any => by
    rintro single ⟨⟩
  | .entity _ => by
    rintro single ⟨⟩
  | .nullable inner => by
    rintro single (_ | h)
    exact inner.hasNoSingle_collapse single h
  | .union [] => by
    rintro single (_ | _ | ⟨hmember, _⟩)
    cases hmember
  | .union [single] => by
    rw [TypeExpr.collapse]
    exact single.hasNoSingle_collapse
  | .union (first :: second :: others) => by
    rw [TypeExpr.collapse]
    rintro single (_ | _ | ⟨hmember, h⟩)
    exact hasNoSingle_collapseTypes (first :: second :: others) _ hmember single h
  | .function params result => by
    rw [TypeExpr.collapse]
    exact TypeExpr.hasNoSingle_function (hasNoSingle_collapseParams params)
      (hasNoSingle_collapseResult result)
  | .array element => by
    rintro single (_ | _ | _ | _ | _ | h)
    exact element.hasNoSingle_collapse single h
  | .object members => by
    rintro single (_ | _ | _ | _ | _ | _ | ⟨hmember, h⟩)
    exact hasNoSingle_collapseMembers members _ hmember single h
  | .text _ => by
    rintro single ⟨⟩
  | .number _ => by
    rintro single ⟨⟩

theorem hasNoSingle_collapseTypes : (types : List TypeExpr) →
    ∀ type ∈ collapseTypes types, type.HasNoSingle
  | [], _, h => by cases h
  | type :: types, _, h => by
    rw [collapseTypes] at h
    rcases List.mem_cons.mp h with rfl | h
    · exact type.hasNoSingle_collapse
    · exact hasNoSingle_collapseTypes types _ h

theorem hasNoSingle_collapseParams : (params : List Param) →
    ∀ param ∈ collapseParams params, param.type.HasNoSingle
  | [], _, h => by cases h
  | ⟨type, _, _⟩ :: params, _, h => by
    rw [collapseParams] at h
    rcases List.mem_cons.mp h with rfl | h
    · exact type.hasNoSingle_collapse
    · exact hasNoSingle_collapseParams params _ h

theorem hasNoSingle_collapseMembers : (members : List Member) →
    ∀ member ∈ collapseMembers members, member.type.HasNoSingle
  | [], _, h => by cases h
  | ⟨_, type⟩ :: members, _, h => by
    rw [collapseMembers] at h
    rcases List.mem_cons.mp h with rfl | h
    · exact type.hasNoSingle_collapse
    · exact hasNoSingle_collapseMembers members _ h

theorem hasNoSingle_collapseResult : (result : Option TypeExpr) →
    ∀ type ∈ collapseResult result, type.HasNoSingle
  | none, _, h => by cases h
  | some type, _, h => by
    cases h
    exact type.hasNoSingle_collapse

end

/-! ## Lost parentheses -/

/-- One pair of parentheses, if it is to be written and is not. -/
def missingPair (needed written : Bool) : Nat := if needed && !written then 1 else 0

mutual

/-- The pairs of parentheses that are not written because a union of one stands around what needs
them. -/
def TypeExpr.missingPairs : TypeExpr → Nat
  | .any => 0
  | .entity _ => 0
  | .nullable inner =>
    inner.missingPairs + missingPair inner.collapse.isFunction inner.isFunction
  | .union [] => 0
  | .union [single] => single.missingPairs
  | .union (first :: second :: others) => missingPairsOf (first :: second :: others)
  | .function params result => missingPairsOfParams params + missingPairsOfResult result
  | .array element =>
    element.missingPairs + missingPair element.collapse.needsParens element.needsParens
  | .object members => missingPairsOfMembers members
  | .text _ => 0
  | .number _ => 0

/-- The pairs that are missing in a parameter; a variadic one stands in front of `[]`. -/
def Param.missingPairs : Param → Nat
  | ⟨type, _, rest⟩ =>
    type.missingPairs + if rest then missingPair type.collapse.needsParens type.needsParens else 0

def Member.missingPairs : Member → Nat
  | ⟨_, type⟩ => type.missingPairs

def missingPairsOf : List TypeExpr → Nat
  | [] => 0
  | type :: types =>
    type.missingPairs + missingPair type.collapse.isFunction type.isFunction + missingPairsOf types

def missingPairsOfParams : List Param → Nat
  | [] => 0
  | param :: params => param.missingPairs + missingPairsOfParams params

def missingPairsOfMembers : List Member → Nat
  | [] => 0
  | member :: members => member.missingPairs + missingPairsOfMembers members

def missingPairsOfResult : Option TypeExpr → Nat
  | none => 0
  | some type => type.missingPairs

end

/-! ## Fragments without parentheses -/

/-- The fragment is one parenthesis. -/
def Fragment.IsParenthesis (fragment : Fragment) : Prop :=
  fragment = .literal ['('] ∨ fragment = .literal [')']

/-- The second list is the first without `n` pairs of parentheses. -/
structure Loses (n : Nat) (full short : List Fragment) : Prop where
  leavesOut : LeavesOut Fragment.IsParenthesis full short
  length_eq : full.length = short.length + 2 * n

namespace Loses

variable {m n : Nat} {full full' short short' : List Fragment}

theorem refl (fragments : List Fragment) : Loses 0 fragments fragments := ⟨.refl _, rfl⟩

theorem append (h : Loses m full short) (h' : Loses n full' short') :
    Loses (m + n) (full ++ full') (short ++ short') where
  leavesOut := h.leavesOut.append h'.leavesOut
  length_eq := by
    rw [List.length_append, List.length_append, h.length_eq, h'.length_eq]
    omega

theorem cons (fragment : Fragment) (h : Loses n full short) :
    Loses n (fragment :: full) (fragment :: short) where
  leavesOut := .keep fragment h.leavesOut
  length_eq := by
    rw [List.length_cons, List.length_cons, h.length_eq]
    omega

theorem wrapIf {needed written : Bool} (h : Loses n full short)
    (hneeded : written = true → needed = true) :
    Loses (n + missingPair needed written) (wrapIf needed full) (wrapIf written short) := by
  cases written with
  | true =>
    rw [hneeded rfl]
    exact (h.cons _).append (.refl _)
  | false =>
    cases needed with
    | false => exact h
    | true =>
      refine ⟨.drop (.inl rfl) ?_, ?_⟩
      · have hclose : LeavesOut Fragment.IsParenthesis [.literal [')']] [] := .drop (.inr rfl) .nil
        have hwhole := h.leavesOut.append hclose
        rwa [List.append_nil] at hwhole
      · have hlength := h.length_eq
        simp only [TypeNotation.wrapIf, missingPair, Bool.not_false, Bool.and_self, if_true,
          List.cons_append, List.length_cons, List.length_append, List.length_nil, hlength]
        simp only [Bool.false_eq_true, if_false]
        omega

end Loses

/-- Items of which each loses some pairs. -/
inductive LosesEach : Nat → List (List Fragment) → List (List Fragment) → Prop
  | nil : LosesEach 0 [] []
  | cons {m n : Nat} {full short : List Fragment} {fulls shorts : List (List Fragment)}
      (head : Loses m full short) (tail : LosesEach n fulls shorts) :
      LosesEach (m + n) (full :: fulls) (short :: shorts)

theorem LosesEach.separated {n : Nat} {fulls shorts : List (List Fragment)}
    (h : LosesEach n fulls shorts) (separator : String) :
    Loses n (separated separator fulls) (separated separator shorts) := by
  induction h with
  | nil => exact .refl _
  | cons head tail ih =>
    cases tail with
    | nil =>
      rw [TypeNotation.separated, TypeNotation.separated, List.intercalate_singleton,
        List.intercalate_singleton]
      exact head
    | cons =>
      rw [TypeNotation.separated, TypeNotation.separated, List.intercalate_cons_cons,
        List.intercalate_cons_cons, List.append_assoc, List.append_assoc]
      exact head.append (ih.cons _)

/-! ## What is lost -/

theorem TypeExpr.isFunction_collapse (t : TypeExpr) (h : t.isFunction = true) :
    t.collapse.isFunction = true := by
  cases t with
  | function params result =>
    rw [collapse]
    rfl
  | _ => cases h

theorem TypeExpr.needsParens_collapse (t : TypeExpr) (h : t.needsParens = true) :
    t.collapse.needsParens = true := by
  cases t with
  | union members =>
    rcases members with _ | ⟨first, _ | ⟨second, others⟩⟩
    · cases h
    · cases h
    · simp [collapse, needsParens]
  | nullable inner =>
    rw [collapse]
    rfl
  | function params result =>
    rw [collapse]
    rfl
  | _ => cases h

mutual

theorem TypeExpr.loses_collapse : (t : TypeExpr) →
    Loses t.missingPairs t.collapse.fragments t.fragments
  | .any => .refl _
  | .entity _ => .refl _
  | .nullable inner => (inner.loses_collapse.wrapIf inner.isFunction_collapse).append (.refl _)
  | .union [] => .refl _
  | .union [single] => by
    -- both are laid out as the member; what is lost is lost where the union stands
    rw [TypeExpr.missingPairs, TypeExpr.collapse, TypeExpr.fragments, unionFragments]
    exact single.loses_collapse
  | .union (first :: second :: others) => by
    have hfirst := first.loses_collapse.wrapIf first.isFunction_collapse
    have hsecond := second.loses_collapse.wrapIf second.isFunction_collapse
    rw [TypeExpr.missingPairs, missingPairsOf, missingPairsOf, ← Nat.add_assoc, TypeExpr.collapse,
      TypeExpr.fragments, TypeExpr.fragments, unionFragments, unionFragments]
    exact (hfirst.append (hsecond.cons _)).append (loses_collapseTypes others)
  | .function params result => by
    have hparams := (losesEach_collapseParams 0 params).separated ", "
    rw [TypeExpr.missingPairs, TypeExpr.collapse, TypeExpr.fragments, TypeExpr.fragments]
    exact (hparams.cons _).append ((loses_collapseResult result).cons _)
  | .array element => (element.loses_collapse.wrapIf element.needsParens_collapse).append (.refl _)
  | .object [] => .refl _
  | .object (member :: members) => by
    have hmembers := (losesEach_collapseMembers (member :: members)).separated "; "
    exact (hmembers.cons _).append (.refl _)
  | .text _ => .refl _
  | .number _ => .refl _

theorem Param.loses_collapse (index : Nat) : (param : Param) →
    Loses param.missingPairs (param.collapse.fragments index) (param.fragments index)
  | ⟨type, name, false⟩ => (type.loses_collapse.cons _).cons _
  | ⟨type, name, true⟩ => by
    have htype := type.loses_collapse.wrapIf type.needsParens_collapse
    exact (((htype.append (.refl _)).cons _).cons _).cons _

theorem loses_collapseTypes : (types : List TypeExpr) →
    Loses (missingPairsOf types) (alternativeFragments (collapseTypes types))
      (alternativeFragments types)
  | [] => .refl _
  | type :: types =>
    ((type.loses_collapse.wrapIf type.isFunction_collapse).cons _).append
      (loses_collapseTypes types)

theorem losesEach_collapseParams (index : Nat) : (params : List Param) →
    LosesEach (missingPairsOfParams params) (paramFragments index (collapseParams params))
      (paramFragments index params)
  | [] => .nil
  | param :: params =>
    .cons (param.loses_collapse index) (losesEach_collapseParams (index + 1) params)

theorem losesEach_collapseMembers : (members : List Member) →
    LosesEach (missingPairsOfMembers members) (memberFragments (collapseMembers members))
      (memberFragments members)
  | [] => .nil
  | ⟨_, type⟩ :: members =>
    .cons ((type.loses_collapse.cons _).cons _) (losesEach_collapseMembers members)

theorem loses_collapseResult : (result : Option TypeExpr) →
    Loses (missingPairsOfResult result) (resultFragments (collapseResult result))
      (resultFragments result)
  | none => .refl _
  | some type => type.loses_collapse

end

/-! ## What is rendered -/

namespace NameMap

variable (map : NameMap)

theorem leavesOut_chars {full short : List Fragment}
    (h : LeavesOut Fragment.IsParenthesis full short) :
    LeavesOut (fun c ↦ c = '(' ∨ c = ')') (map.chars full) (map.chars short) := by
  induction h with
  | nil => exact .nil
  | keep _ _ ih => exact (LeavesOut.refl _).append ih
  | drop hfragment _ ih =>
    rcases hfragment with rfl | rfl
    · exact .drop (.inl rfl) ih
    · exact .drop (.inr rfl) ih

theorem length_chars_of_leavesOut {full short : List Fragment}
    (h : LeavesOut Fragment.IsParenthesis full short) :
    (map.chars full).length + short.length = (map.chars short).length + full.length := by
  induction h with
  | nil => rfl
  | keep fragment _ ih =>
    simp only [chars, List.flatMap_cons, List.length_append, List.length_cons] at ih ⊢
    omega
  | drop hfragment _ ih =>
    rcases hfragment with rfl | rfl <;>
    · simp only [chars_literal, List.length_append, List.length_cons, List.length_nil]
      omega

theorem foldl_collectFragment_of_leavesOut {full short : List Fragment}
    (h : LeavesOut Fragment.IsParenthesis full short) (collected : Imports × List ImportUse) :
    full.foldl map.collectFragment collected = short.foldl map.collectFragment collected := by
  induction h generalizing collected with
  | nil => rfl
  | keep fragment _ ih => rw [List.foldl_cons, List.foldl_cons, ih]
  | drop hfragment _ ih =>
    rcases hfragment with rfl | rfl <;>
    · rw [List.foldl_cons, ih]
      rfl

end NameMap

/-- **Unions of one cost parentheses and nothing else.** With each union of one member replaced by
the member, until there is none, a type has the same imports in the same order, and its text is what
it was with two more characters for each pair of parentheses that was missing. So the texts are the
same exactly if none is missing. -/
theorem render_collapse (map : NameMap) (t : TypeExpr) :
    t.collapse.HasNoSingle ∧
    (map.render t.collapse).imports = (map.render t).imports ∧
    (map.render t.collapse).uses = (map.render t).uses ∧
    LeavesOut (fun c ↦ c = '(' ∨ c = ')')
      (map.render t.collapse).text.toList (map.render t).text.toList ∧
    (map.render t.collapse).text.length = (map.render t).text.length + 2 * t.missingPairs ∧
    ((map.render t.collapse).text = (map.render t).text ↔ t.missingPairs = 0) := by
  obtain ⟨hleavesOut, hfragments⟩ := t.loses_collapse
  have hcollected := map.foldl_collectFragment_of_leavesOut hleavesOut ([], [])
  have htext := map.leavesOut_chars hleavesOut
  have hlength := map.length_chars_of_leavesOut hleavesOut
  rw [← map.toList_render, ← map.toList_render] at htext hlength
  rw [String.length_toList, String.length_toList] at hlength
  have hdifference : (map.render t.collapse).text.length =
      (map.render t).text.length + 2 * t.missingPairs := by omega
  refine ⟨t.hasNoSingle_collapse, ?_, ?_, htext, hdifference, fun heq ↦ ?_, fun hzero ↦ ?_⟩
  · simp only [NameMap.render, NameMap.renderFragments, hcollected]
  · simp only [NameMap.render, NameMap.renderFragments, hcollected]
  · rw [heq] at hdifference
    omega
  · rw [hzero] at hdifference
    have hsame := htext.eq_of_length (by
      rw [String.length_toList, String.length_toList, hdifference]
      rfl)
    exact (String.toList_inj.mp hsame).symm

/-- An array of a nullable name with a union of one around it is written as a union with an array of
`null`. -/
theorem render_collapse_ne :
    ∃ t, parse "[union<?a>]" = .ok t ∧ (NameMap.empty.render t).text = "a | null[]" ∧
      (NameMap.empty.render t.collapse).text = "(a | null)[]" := by
  have htokens : tokenize "[union<?a>]" = .ok
      [⟨.symbol .leftBracket, ⟨0, 1⟩⟩, ⟨.symbol .union, ⟨1, 6⟩⟩, ⟨.symbol .less, ⟨6, 7⟩⟩,
        ⟨.symbol .question, ⟨7, 8⟩⟩, ⟨.identifier "a", ⟨8, 9⟩⟩, ⟨.symbol .greater, ⟨9, 10⟩⟩,
        ⟨.symbol .rightBracket, ⟨10, 11⟩⟩] := by decide +kernel
  have hparse : parse "[union<?a>]" = .ok (.array (.union [.nullable (.entity "a")])) :=
    parse_eq_ok_iff.mpr
      ⟨_, htokens, .array (.union (.cons (.nullable (.entity "a" [])) .nil))⟩
  exact ⟨_, hparse, by decide, by decide⟩

end TypeNotation

import TypeNotation.Proofs.TypeScript.Syntax

/-!
# Unambiguity

A text is read as one type at most. That has to be shown of types in front of other text, since this
is how they stand inside each other: where what follows cannot belong to a type, both the text of
the type and the type are determined.

The main result is proved for texts up to a length and lifted one length at a time. Parentheses and
parameter lists begin alike; which of the two it is shows in what stands behind the parenthesis,
for no type begins with a closing parenthesis, with a dot, or with a word and a colon.
-/

namespace TypeNotation

variable {α : Type}

/-! ## Texts in front of other texts -/

/-- If a text shorter than `bound` and some other text are read, and the same is written once what
is behind them is added, then they are the same and are read alike. -/
def Unambiguous (bound : Nat) (Ends : List Char → Prop) (Reads : List Char → α → Prop) : Prop :=
  ∀ ⦃a b u v : List Char⦄ ⦃x y : α⦄, a.length < bound → Reads a x → Reads b y →
    a ++ u = b ++ v → Ends u → Ends v → a = b ∧ x = y

/-- A separator may follow an item, and what follows the items is no separator. -/
theorem Unambiguous.separatedBy {bound : Nat} {separator : List Char}
    {Ends EndsItem : List Char → Prop} {Item : List Char → α → Prop}
    (hitem : Unambiguous bound EndsItem Item)
    (hseparator : ∀ others, EndsItem (separator ++ others)) (hends : ∀ u, Ends u → EndsItem u)
    (hstop : ∀ others, ¬Ends (separator ++ others)) :
    Unambiguous bound Ends (SeparatedBy separator Item) := by
  intro a b u v x y hlen h h' heq hu hv
  induction h generalizing b y with
  | single hfirst =>
    cases h' with
    | single hfirst' =>
      obtain ⟨rfl, rfl⟩ := hitem hlen hfirst hfirst' heq (hends _ hu) (hends _ hv)
      exact ⟨rfl, rfl⟩
    | cons hfirst' htail' =>
      -- the first items agree, so a separator stands where the list should be over
      simp only [List.append_assoc] at heq
      obtain ⟨rfl, -⟩ := hitem hlen hfirst hfirst' heq (hends _ hu) (hseparator _)
      rw [List.append_cancel_left heq] at hu
      exact absurd hu (hstop _)
  | cons hfirst htail ih =>
    simp only [List.length_append] at hlen
    cases h' with
    | single hfirst' =>
      simp only [List.append_assoc] at heq
      obtain ⟨rfl, -⟩ := hitem (by omega) hfirst hfirst' heq (hseparator _) (hends _ hv)
      rw [← List.append_cancel_left heq] at hv
      exact absurd hv (hstop _)
    | cons hfirst' htail' =>
      simp only [List.append_assoc] at heq
      obtain ⟨rfl, rfl⟩ := hitem (by omega) hfirst hfirst' heq (hseparator _) (hseparator _)
      obtain ⟨rfl, rfl⟩ := ih (by omega) htail'
        (List.append_cancel_left (List.append_cancel_left heq))
      exact ⟨rfl, rfl⟩

/-! ## What may follow -/

/-- No path or number goes on with the text, nor is it a colon. -/
def EndsPrimary (rest : List Char) : Prop := EndsRun (fun c ↦ extendsLexeme c || c = ':') rest

/-- Neither are there brackets. -/
def EndsAlternative (rest : List Char) : Prop := EndsPrimary rest ∧ EndsRun (· = '[') rest

/-- Nor is there a further alternative. -/
def EndsType (rest : List Char) : Prop :=
  EndsAlternative rest ∧ ∀ others, rest ≠ " | ".toList ++ others

theorem EndsPrimary.extends {rest : List Char} (h : EndsPrimary rest) :
    EndsRun extendsLexeme rest :=
  h.mono fun _ hc ↦ by simp [hc]

theorem EndsPrimary.colon {rest : List Char} (h : EndsPrimary rest) : EndsRun (· = ':') rest :=
  h.mono fun _ hc ↦ by simp_all

theorem endsType_cons {c : Char} (rest : List Char) (hextends : extendsLexeme c = false)
    (hcolon : c ≠ ':') (hbracket : c ≠ '[') (hspace : c ≠ ' ') : EndsType (c :: rest) := by
  refine ⟨⟨endsRun_cons.mpr (by simp [hextends, hcolon]), endsRun_cons.mpr (by simp [hbracket])⟩,
    fun others heq ↦ hspace ?_⟩
  exact (List.cons.inj heq).1

theorem endsType_nil : EndsType [] :=
  ⟨⟨endsRun_nil, endsRun_nil⟩, fun _ heq ↦ by cases heq⟩

theorem endsType_closeObject (rest : List Char) : EndsType (' ' :: '}' :: rest) := by
  refine ⟨⟨endsRun_cons.mpr rfl, endsRun_cons.mpr rfl⟩, fun others heq ↦ ?_⟩
  cases (List.cons.inj (List.cons.inj heq).2).1

theorem endsPrimary_brackets {rest : List Char} (count : Nat) (h : EndsPrimary rest) :
    EndsPrimary (brackets count ++ rest) := by
  cases count with
  | zero => exact h
  | succ count => exact endsRun_cons.mpr rfl

/-! ## Where a type begins -/

/-- Parameters begin here, or the parenthesis closes that there are none. -/
inductive AtParams : List Char → Prop
  | none {rest : List Char} : AtParams (')' :: rest)
  | rest {rest : List Char} : AtParams ('.' :: rest)
  | single {word rest : List Char} (hword : IsWord word) : AtParams (word ++ ':' :: rest)

theorem not_atParams_cons {c : Char} {rest : List Char} (hstart : isIdentifierStart c = false)
    (hclose : c ≠ ')') (hdot : c ≠ '.') : ¬AtParams (c :: rest) := by
  generalize heq : c :: rest = text
  rintro (_ | _ | ⟨⟨hword⟩⟩)
  · exact hclose (List.cons.inj heq).1
  · exact hdot (List.cons.inj heq).1
  · rw [(List.cons.inj heq).1, hword] at hstart
    cases hstart

section Begins

variable {a u : List Char} {type : TsType}

theorem not_atParams_of_isPath {name : String} (h : IsPath name) (hu : EndsPrimary u) :
    ¬AtParams (name.toList ++ u) := by
  obtain ⟨c, others, hcons, hstart⟩ := h.exists_cons
  generalize heq : name.toList ++ u = text
  rintro (_ | _ | ⟨hword⟩)
  · rw [hcons] at heq
    cases (List.cons.inj heq).1
    cases hstart
  · rw [hcons] at heq
    cases (List.cons.inj heq).1
    cases hstart
  · obtain ⟨first, segments, hparts, rfl⟩ := h
    rw [toList_intercalate_dot, List.append_assoc] at heq
    -- the word in front of the colon is the first part of the path
    obtain ⟨-, hcolon⟩ := eq_of_append_eq_append
      (hparts first List.mem_cons_self).isIdentifierPart hword.isIdentifierPart
      (endsRun_segments segments (isIdentifierPart_of_extends hu.extends))
      (endsRun_cons.mpr rfl) heq
    cases segments with
    | nil =>
      rw [List.flatMap_nil, List.nil_append] at hcolon
      rw [hcolon] at hu
      cases endsRun_cons.mp hu.colon
    | cons segment segments => cases (List.cons.inj hcolon).1

theorem ReadsPrimary.not_atParams {rule : PrimaryRule} (h : ReadsPrimary rule a type)
    (hu : EndsPrimary u) : ¬AtParams (a ++ u) := by
  cases h with
  | parentheses => exact not_atParams_cons rfl (by decide) (by decide)
  | emptyObject => exact not_atParams_cons rfl (by decide) (by decide)
  | object => exact not_atParams_cons rfl (by decide) (by decide)
  | path hname => exact not_atParams_of_isPath hname hu
  | string hstring =>
    obtain ⟨-⟩ := hstring
    exact not_atParams_cons rfl (by decide) (by decide)
  | number hnumber =>
    obtain ⟨first, others, rfl, hdigit | rfl⟩ := hnumber.exists_cons
    · refine not_atParams_cons (not_isIdentifierStart_of_isDigit hdigit) ?_ ?_
      · rintro rfl
        cases hdigit
      · rintro rfl
        cases hdigit
    · exact not_atParams_cons rfl (by decide) (by decide)

theorem ReadsAlternative.not_atParams (h : ReadsAlternative a type) (hu : EndsPrimary u) :
    ¬AtParams (a ++ u) := by
  obtain ⟨hprimary, count⟩ := h
  rw [List.append_assoc]
  exact hprimary.not_atParams (endsPrimary_brackets count hu)

theorem ReadsType.not_atParams (h : ReadsType a type) (hu : EndsPrimary u) :
    ¬AtParams (a ++ u) := by
  cases h with
  | function => exact not_atParams_cons rfl (by decide) (by decide)
  | alternatives htypes =>
    cases htypes with
    | single hfirst => exact hfirst.not_atParams hu
    | cons hfirst =>
      rw [List.append_assoc]
      exact hfirst.not_atParams (endsRun_cons.mpr rfl)

end Begins

/-! ## Primary types -/

/-- The rule for a primary type at the front of the text. -/
def ruleAt : List Char → PrimaryRule
  | '(' :: _ => .parentheses
  | '{' :: '}' :: _ => .emptyObject
  | '{' :: _ => .object
  | '"' :: _ => .string
  | c :: _ => if isIdentifierStart c then .path else .number
  | [] => .number

theorem ruleAt_cons {c : Char} {rest : List Char} (hparen : c ≠ '(') (hbrace : c ≠ '{')
    (hquote : c ≠ '"') :
    ruleAt (c :: rest) = if isIdentifierStart c then .path else .number := by
  unfold ruleAt
  split
  · next heq => exact absurd (List.cons.inj heq).1 hparen
  · next heq => exact absurd (List.cons.inj heq).1 hbrace
  · next heq => exact absurd (List.cons.inj heq).1 hbrace
  · next heq => exact absurd (List.cons.inj heq).1 hquote
  · next heq =>
    cases heq
    rfl
  · next heq => cases heq

/-- The rule by which a primary type was read shows at its front. -/
theorem ReadsPrimary.ruleAt_append {rule : PrimaryRule} {a : List Char} {type : TsType}
    (h : ReadsPrimary rule a type) (u : List Char) : ruleAt (a ++ u) = rule := by
  cases h with
  | parentheses => rfl
  | emptyObject => rfl
  | object => rfl
  | path hname =>
    obtain ⟨c, others, hcons, hstart⟩ := hname.exists_cons
    rw [hcons, List.cons_append, ruleAt_cons, if_pos hstart]
    all_goals
      rintro rfl
      cases hstart
  | string hstring =>
    obtain ⟨-⟩ := hstring
    rfl
  | number hnumber =>
    obtain ⟨c, others, rfl, hdigit | rfl⟩ := hnumber.exists_cons
    · rw [List.cons_append, ruleAt_cons, if_neg (by simp [not_isIdentifierStart_of_isDigit hdigit])]
      all_goals
        rintro rfl
        cases hdigit
    · rfl

theorem IsPath.extendsLexeme {name : String} (h : IsPath name) :
    ∀ c ∈ name.toList, extendsLexeme c = true := by
  obtain ⟨first, others, hparts, rfl⟩ := h
  obtain ⟨hfirst, hothers⟩ := List.forall_mem_cons.mp hparts
  rw [toList_intercalate_dot, List.forall_mem_append]
  refine ⟨fun c hc ↦ by simp [TypeNotation.extendsLexeme, hfirst.isIdentifierPart c hc], ?_⟩
  intro c hc
  obtain ⟨part, hpart, hc⟩ := List.mem_flatMap.mp hc
  rcases List.mem_cons.mp hc with rfl | hc
  · rfl
  · simp [TypeNotation.extendsLexeme, (hothers part hpart).isIdentifierPart c hc]

theorem Unambiguous.typed {bound : Nat} (htype : Unambiguous bound EndsType ReadsType)
    {name name' : String} {text text' u v : List Char} {x y : TsType} (hlen : text.length < bound)
    (hname : IsWord name.toList) (hname' : IsWord name'.toList) (h : ReadsType text x)
    (h' : ReadsType text' y)
    (heq : name.toList ++ (':' :: ' ' :: (text ++ u)) =
      name'.toList ++ (':' :: ' ' :: (text' ++ v)))
    (hu : EndsType u) (hv : EndsType v) : name = name' ∧ text = text' ∧ x = y := by
  obtain ⟨hnames, htexts⟩ := eq_of_append_eq_append hname.isIdentifierPart hname'.isIdentifierPart
    (endsRun_cons.mpr rfl) (endsRun_cons.mpr rfl) heq
  simp only [List.cons.injEq, true_and] at htexts
  exact ⟨String.toList_injective hnames, htype hlen h h' htexts hu hv⟩

theorem Unambiguous.member {bound : Nat} (htype : Unambiguous bound EndsType ReadsType) :
    Unambiguous bound EndsType ReadsMember := by
  intro a b u v x y hlen h h' heq hu hv
  obtain ⟨hname, hinner⟩ := h
  obtain ⟨hname', hinner'⟩ := h'
  simp only [List.append_assoc, List.cons_append] at heq
  simp only [List.length_append, List.length_cons] at hlen
  obtain ⟨rfl, rfl, rfl⟩ := htype.typed (by omega) hname hname' hinner hinner' heq hu hv
  exact ⟨rfl, rfl⟩

theorem Unambiguous.members {bound : Nat} (htype : Unambiguous bound EndsType ReadsType) :
    Unambiguous bound (∃ rest, · = ' ' :: '}' :: rest)
      (SeparatedBy "; ".toList ReadsMember) := by
  refine htype.member.separatedBy (fun others ↦ ?_) ?_ ?_
  · exact endsType_cons _ rfl (by decide) (by decide) (by decide)
  · rintro _ ⟨rest, rfl⟩
    exact endsType_closeObject rest
  · rintro others ⟨rest, heq⟩
    cases (List.cons.inj heq).1

theorem Unambiguous.primary {bound : Nat} (htype : Unambiguous bound EndsType ReadsType) :
    Unambiguous (bound + 1) EndsPrimary fun text type ↦ ∃ rule, ReadsPrimary rule text type := by
  rintro a b u v x y hlen ⟨rule, h⟩ ⟨rule', h'⟩ heq hu hv
  -- equal labels leave one case for each rule
  obtain rfl : rule = rule' := by
    rw [← h.ruleAt_append u, heq, h'.ruleAt_append v]
  cases h with
  | parentheses hinner =>
    obtain ⟨hinner'⟩ := h'
    simp only [List.cons_append, List.append_assoc, List.cons.injEq, true_and] at heq
    simp only [List.length_cons, List.length_append] at hlen
    have hclose (rest : List Char) : EndsType (')' :: rest) :=
      endsType_cons rest rfl (by decide) (by decide) (by decide)
    obtain ⟨rfl, rfl⟩ := htype (by omega) hinner hinner' heq (hclose u) (hclose v)
    exact ⟨rfl, rfl⟩
  | emptyObject =>
    cases h'
    exact ⟨rfl, rfl⟩
  | object hmembers =>
    cases h' with
    | object hmembers' =>
      simp only [List.cons_append, List.append_assoc, List.cons.injEq, true_and] at heq
      simp only [List.length_cons, List.length_append] at hlen
      obtain ⟨rfl, rfl⟩ := htype.members (by omega) hmembers hmembers' heq ⟨u, rfl⟩ ⟨v, rfl⟩
      exact ⟨rfl, rfl⟩
  | path hname =>
    cases h' with
    | path hname' =>
      obtain ⟨hnames, -⟩ := eq_of_append_eq_append hname.extendsLexeme hname'.extendsLexeme
        hu.extends hv.extends heq
      rw [hnames, String.toList_injective hnames]
      exact ⟨rfl, rfl⟩
  | string hstring =>
    cases h' with
    | string hstring' =>
      obtain ⟨rfl, rfl⟩ := hstring.unique hstring' heq
      exact ⟨rfl, rfl⟩
  | number hnumber =>
    cases h' with
    | number hnumber' =>
      -- both are as long as the longest number in front of the same text
      have hlength := numberLength_append hnumber (isNumberPart_of_extends hu.extends)
      rw [heq, numberLength_append hnumber' (isNumberPart_of_extends hv.extends)] at hlength
      obtain ⟨rfl, -⟩ := List.append_inj heq hlength.symm
      exact ⟨rfl, rfl⟩

/-! ## Alternatives -/

theorem brackets_unique {count count' : Nat} {u v : List Char}
    (heq : brackets count ++ u = brackets count' ++ v) (hu : EndsRun (· = '[') u)
    (hv : EndsRun (· = '[') v) : count = count' := by
  induction count generalizing count' with
  | zero =>
    cases count' with
    | zero => rfl
    | succ count' =>
      rw [brackets, List.nil_append] at heq
      rw [heq] at hu
      cases endsRun_cons.mp hu
  | succ count ih =>
    cases count' with
    | zero =>
      rw [brackets.eq_1, List.nil_append] at heq
      rw [← heq] at hv
      cases endsRun_cons.mp hv
    | succ count' =>
      simp only [brackets, List.cons_append, List.cons.injEq, true_and] at heq
      rw [ih heq]

theorem Unambiguous.alternative {bound : Nat} (htype : Unambiguous bound EndsType ReadsType) :
    Unambiguous (bound + 1) EndsAlternative ReadsAlternative := by
  intro a b u v x y hlen h h' heq hu hv
  obtain ⟨hprimary, count⟩ := h
  obtain ⟨hprimary', count'⟩ := h'
  simp only [List.append_assoc] at heq
  simp only [List.length_append] at hlen
  obtain ⟨rfl, rfl⟩ := htype.primary (by omega) ⟨_, hprimary⟩ ⟨_, hprimary'⟩ heq
    (endsPrimary_brackets count hu.1) (endsPrimary_brackets count' hv.1)
  obtain rfl := brackets_unique (List.append_cancel_left heq) hu.2 hv.2
  exact ⟨rfl, rfl⟩

theorem Unambiguous.alternatives {bound : Nat} (htype : Unambiguous bound EndsType ReadsType) :
    Unambiguous (bound + 1) EndsType (SeparatedBy " | ".toList ReadsAlternative) := by
  refine htype.alternative.separatedBy (fun others ↦ ?_) (fun u hu ↦ hu.1) (fun others h ↦ ?_)
  · exact ⟨endsRun_cons.mpr rfl, endsRun_cons.mpr rfl⟩
  · exact h.2 others rfl

/-! ## Functions -/

theorem ReadsParam.atParams {text : List Char} {param : TsParam} (h : ReadsParam text param)
    (rest : List Char) : AtParams (text ++ rest) := by
  cases h with
  | single hname =>
    rw [List.append_assoc]
    exact .single hname
  | rest => exact .rest

theorem ReadsParams.atParams {text : List Char} {params : List TsParam}
    (h : ReadsParams text params) (rest : List Char) : AtParams (text ++ ')' :: rest) := by
  cases h with
  | none => exact .none
  | some hparams =>
    cases hparams with
    | single hparam => exact hparam.atParams _
    | cons hparam =>
      rw [List.append_assoc]
      exact hparam.atParams _

theorem IsWord.ne_ellipsis {word u v : List Char} (h : IsWord word) :
    word ++ u ≠ "...".toList ++ v := by
  obtain ⟨first, others, rfl, hstart⟩ := h.exists_cons
  intro heq
  cases (List.cons.inj heq).1
  cases hstart

theorem Unambiguous.param {bound : Nat} (htype : Unambiguous bound EndsType ReadsType) :
    Unambiguous bound EndsType ReadsParam := by
  intro a b u v x y hlen h h' heq hu hv
  cases h with
  | single hname hinner =>
    simp only [List.length_append, List.length_cons] at hlen
    cases h' with
    | single hname' hinner' =>
      simp only [List.append_assoc, List.cons_append] at heq
      obtain ⟨rfl, rfl, rfl⟩ := htype.typed (by omega) hname hname' hinner hinner' heq hu hv
      exact ⟨rfl, rfl⟩
    | rest =>
      simp only [List.append_assoc] at heq
      exact absurd heq hname.ne_ellipsis
  | rest hname hinner =>
    simp only [List.length_append, List.length_cons] at hlen
    cases h' with
    | single hname' =>
      simp only [List.append_assoc] at heq
      exact absurd heq.symm hname'.ne_ellipsis
    | rest hname' hinner' =>
      simp only [List.append_assoc, List.cons_append] at heq
      obtain ⟨rfl, rfl, rfl⟩ := htype.typed (by omega) hname hname' hinner hinner'
        (List.append_cancel_left heq) hu hv
      exact ⟨rfl, rfl⟩

theorem ReadsParam.ne_close {text u v : List Char} {param : TsParam} (h : ReadsParam text param) :
    text ++ u ≠ ')' :: v := by
  intro heq
  cases h with
  | single hname =>
    obtain ⟨first, others, hcons, hstart⟩ := hname.exists_cons
    rw [hcons] at heq
    cases (List.cons.inj heq).1
    cases hstart
  | rest => cases (List.cons.inj heq).1

theorem separatedBy_params_ne_close {text u v : List Char} {params : List TsParam}
    (h : SeparatedBy ", ".toList ReadsParam text params) : text ++ u ≠ ')' :: v := by
  cases h with
  | single hparam => exact hparam.ne_close
  | cons hparam =>
    rw [List.append_assoc]
    exact hparam.ne_close

theorem Unambiguous.params {bound : Nat} (htype : Unambiguous bound EndsType ReadsType) :
    Unambiguous bound (∃ rest, · = ')' :: rest) ReadsParams := by
  have hparams : Unambiguous bound (∃ rest, · = ')' :: rest)
      (SeparatedBy ", ".toList ReadsParam) := by
    refine htype.param.separatedBy (fun others ↦ ?_) ?_ ?_
    · exact endsType_cons _ rfl (by decide) (by decide) (by decide)
    · rintro _ ⟨rest, rfl⟩
      exact endsType_cons _ rfl (by decide) (by decide) (by decide)
    · rintro others ⟨rest, heq⟩
      cases (List.cons.inj heq).1
  rintro a b u v x y hlen h h' heq ⟨u, rfl⟩ ⟨v, rfl⟩
  cases h with
  | none =>
    cases h' with
    | none => exact ⟨rfl, rfl⟩
    | some hsome' => exact absurd heq.symm (separatedBy_params_ne_close hsome')
  | some hsome =>
    cases h' with
    | none => exact absurd heq (separatedBy_params_ne_close hsome)
    | some hsome' => exact hparams hlen hsome hsome' heq ⟨u, rfl⟩ ⟨v, rfl⟩

/-- A primary type in parentheses is not the parameters of a function. -/
theorem ReadsPrimary.ne_function {rule : PrimaryRule} {a u rest : List Char} {type : TsType}
    (h : ReadsPrimary rule a type) (hparams : AtParams rest) : a ++ u ≠ '(' :: rest := by
  intro heq
  -- only a parenthesized type begins so, and then the type inside begins like parameters
  have hrule : rule = .parentheses := by
    rw [← h.ruleAt_append u, heq]
    rfl
  subst hrule
  cases h with
  | parentheses hinner =>
    simp only [List.cons_append, List.append_assoc, List.cons.injEq, true_and] at heq
    exact hinner.not_atParams (endsRun_cons.mpr rfl) (heq ▸ hparams)

theorem ReadsAlternative.ne_function {a u rest : List Char} {type : TsType}
    (h : ReadsAlternative a type) (hparams : AtParams rest) : a ++ u ≠ '(' :: rest := by
  obtain ⟨hprimary, count⟩ := h
  rw [List.append_assoc]
  exact hprimary.ne_function hparams

theorem separatedBy_alternatives_ne_function {a u rest : List Char} {types : List TsType}
    (h : SeparatedBy " | ".toList ReadsAlternative a types) (hparams : AtParams rest) :
    a ++ u ≠ '(' :: rest := by
  cases h with
  | single hfirst => exact hfirst.ne_function hparams
  | cons hfirst =>
    rw [List.append_assoc]
    exact hfirst.ne_function hparams

/-! ## Types -/

theorem unambiguous_type (bound : Nat) : Unambiguous bound EndsType ReadsType := by
  -- on the bound and not on a reading: the parts of both readings are needed at once
  induction bound with
  | zero =>
    intro a b u v x y hlen
    exact absurd hlen (Nat.not_lt_zero _)
  | succ bound ih =>
    intro a b u v x y hlen h h' heq hu hv
    cases h with
    | function hparams hresult =>
      cases h' with
      | function hparams' hresult' =>
        simp only [List.cons_append, List.append_assoc, List.cons.injEq, true_and] at heq
        simp only [List.length_cons, List.length_append] at hlen
        obtain ⟨rfl, rfl⟩ := ih.params (by omega) hparams hparams' heq ⟨_, rfl⟩ ⟨_, rfl⟩
        obtain ⟨rfl, rfl⟩ := ih (by omega) hresult hresult'
          (List.append_cancel_left (List.append_cancel_left heq)) hu hv
        exact ⟨rfl, rfl⟩
      | alternatives htypes' =>
        -- one reading opens parameters, the other a parenthesized type
        simp only [List.cons_append, List.append_assoc] at heq
        exact absurd heq.symm
          (separatedBy_alternatives_ne_function htypes' (hparams.atParams _))
    | alternatives htypes =>
      cases h' with
      | function hparams' hresult' =>
        simp only [List.cons_append, List.append_assoc] at heq
        exact absurd heq (separatedBy_alternatives_ne_function htypes (hparams'.atParams _))
      | alternatives htypes' =>
        obtain ⟨rfl, rfl⟩ := ih.alternatives hlen htypes htypes' heq hu hv
        exact ⟨rfl, rfl⟩

theorem ReadsType.unique {text : List Char} {x y : TsType} (h : ReadsType text x)
    (h' : ReadsType text y) : x = y :=
  (unambiguous_type _ (Nat.lt_succ_self _) h h' rfl endsType_nil endsType_nil).2

end TypeNotation

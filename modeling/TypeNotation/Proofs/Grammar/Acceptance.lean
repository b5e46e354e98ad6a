import TypeNotation.Proofs.Grammar.Productions

/-!
# The reader accepts the grammar

The reader of types recognizes exactly what the grammar derives, although the grammar has no order
among its alternatives and no required separators.

The lists without separators are where this needs an argument. A type may be followed by anything
but a dot, a colon or an arrow, and what stands behind an item of a list is a comma, the end of the
list or the first token of another item, none of which is one of the three.
-/

namespace TypeNotation

open Production

variable {α : Type}

/-! ## What may follow a type -/

/-- Whether a token behind a type could belong to it or give its first word another meaning. -/
def Token.continues : Token → Bool
  | .symbol .dot | .symbol .colon | .symbol .arrow => true
  | _ => false

/-- What may stand behind a complete type: not a dot, a colon or an arrow. -/
def Separate (rest : List Piece) : Prop :=
  ∀ located others, rest = .ok located :: others → located.token.continues = false

theorem Token.continues_of_begins {token : Token} (h : token.begins = true) :
    token.continues = false := by
  unfold begins at h
  split at h <;> first | rfl | exact absurd h Bool.false_ne_true

theorem separate_nil : Separate [] := fun _ _ h ↦ by cases h

theorem Separate.headIs_eq {rest : List Piece} (h : Separate rest) {symbol : Symbol}
    (hsymbol : (Token.symbol symbol).continues = true) : headIs symbol rest = false := by
  cases hhead : headIs symbol rest with
  | false => rfl
  | true =>
    obtain ⟨span, others, rfl⟩ := headIs_iff.mp hhead
    exact absurd ((h _ _ rfl).symm.trans hsymbol) Bool.false_ne_true

theorem separate_piecesOf {consumed : List Located} {token : Token} {tokens : List Token}
    (h : tokensOf consumed = token :: tokens) (hcontinues : token.continues = false)
    (rest : List Piece) : Separate (piecesOf consumed ++ rest) := by
  obtain ⟨first, others, rfl, rfl, -⟩ := tokensOf_eq_cons_iff.mp h
  intro located others' heq
  simp only [piecesOf_cons, List.cons_append, List.cons.injEq, Except.ok.injEq] at heq
  exact heq.1 ▸ hcontinues

/-! ## Parts of names and lists -/

theorem recognizes_segments (bound : Nat) :
    Recognizes bound (fun rest ↦ headIs .dot rest = false) segments
      fun tokens parts ↦ tokens = segmentTokens parts := by
  induction bound with
  | zero => exact .zero
  | succ bound ih =>
    rw [segments_eq]
    have hpart := Recognizes.identifier.leading (fun segment ↦ ih.map (segment :: ·))
      fun segment ↦ ⟨[], [segment], [], rfl, rfl⟩
    -- the dot makes the input shorter, so the bound need not be kept behind it
    have hdot : Recognizes (bound + 1) _ _ _ := (Recognizes.symbol .dot).andThen (fun _ ↦ hpart)
      (by rintro _ _ rfl; exact Nat.le_refl _)
      (fun _ ↦ ⟨_, _, "", [.identifier ""], [], rfl, rfl, [], rfl, rfl⟩) (fun _ _ ↦ trivial)
    refine hdot.choose (Recognizes.accept []).followed (headIs_cons .dot) ?_ ?_ ?_
    · rintro _ _ ⟨_, _, _, rfl, rfl, segment, _, _, rfl, rfl, parts, rfl, rfl⟩
      rfl
    · rintro _ _ ⟨rfl, rfl⟩
      rfl
    · intro consumed parts rest hitem hrest
      cases parts with
      | nil =>
        obtain rfl := tokensOf_eq_nil_iff.mp hitem
        rw [piecesOf_nil, List.nil_append, hrest, if_neg Bool.false_ne_true]
        exact ⟨rfl, rfl⟩
      | cons segment parts =>
        rw [headIs_piecesOf hitem, decide_eq_true rfl, if_pos rfl]
        exact ⟨(), [_], _, hitem, rfl, segment, [_], _, rfl, rfl, parts, rfl, rfl⟩

/-- The tokens of a comma that may be left out. -/
def OptionalComma (tokens : List Token) : Prop := tokens = [] ∨ tokens = [.symbol .comma]

theorem recognizes_comma (bound : Nat) :
    Recognizes bound (fun rest ↦ headIs .comma rest = false) comma
      fun tokens _ ↦ OptionalComma tokens := by
  refine (Recognizes.symbol .comma).followed.choose (Recognizes.accept ()).followed
    (headIs_cons .comma) (fun _ _ h ↦ .inr h) (fun _ _ h ↦ .inl h.1) ?_
  intro consumed _ rest hitem hrest
  rcases hitem with hnil | hcomma
  · obtain rfl := tokensOf_eq_nil_iff.mp hnil
    rw [piecesOf_nil, List.nil_append, hrest, if_neg Bool.false_ne_true]
    exact ⟨rfl, rfl⟩
  · rw [headIs_piecesOf hcomma, decide_eq_true rfl, if_pos rfl]
    exact hcomma

/-- Items and the symbol that closes their list. -/
def Closed (Item : List Token → α → Prop) (close : Symbol) (tokens : List Token) (as : List α) :
    Prop :=
  ∃ inside, tokens = inside ++ [.symbol close] ∧ ListOf Item inside as

/-- An item, a comma that may be left out, and the rest of the list. -/
def ClosedCons (Item : List Token → α → Prop) (close : Symbol) : List Token → List α → Prop :=
  Sequence Item fun a ↦ Sequence (fun tokens (_ : Unit) ↦ OptionalComma tokens)
    fun _ tokens as ↦ ∃ behind, Closed Item close tokens behind ∧ as = a :: behind

section Closed

variable {Item : List Token → α → Prop} {close : Symbol} {tokens : List Token} {as : List α}

theorem Closed.of_cons (h : ClosedCons Item close tokens as) : Closed Item close tokens as := by
  obtain ⟨a, first, _, rfl, ha, _, _, _, rfl, hcomma, as, ⟨inside, rfl, has⟩, rfl⟩ := h
  rcases hcomma with rfl | rfl
  · exact ⟨first ++ inside, by simp, .cons ha has⟩
  · exact ⟨first ++ .symbol .comma :: inside, by simp, .consComma ha has⟩

theorem Closed.nil_or_cons (h : Closed Item close tokens as) :
    tokens = [.symbol close] ∧ as = [] ∨ ClosedCons Item close tokens as := by
  obtain ⟨inside, rfl, hlist⟩ := h
  cases hlist with
  | nil => exact .inl ⟨rfl, rfl⟩
  | cons ha has =>
    exact .inr ⟨_, _, _, List.append_assoc _ _ _, ha, (), [], _, rfl, .inl rfl, _, ⟨_, rfl, has⟩,
      rfl⟩
  | consComma ha has =>
    exact .inr ⟨_, _, _, List.append_assoc _ _ _, ha, (), [_], _, rfl, .inr rfl, _, ⟨_, rfl, has⟩,
      rfl⟩

theorem Closed.begins
    (hbegins : ∀ {tokens a}, Item tokens a →
      ∃ first others, tokens = first :: others ∧ first.begins = true)
    (h : Closed Item close tokens as) :
    ∃ first others, tokens = first :: others ∧ (first = .symbol close ∨ first.begins = true) := by
  obtain ⟨inside, rfl, hlist⟩ := h
  rcases hlist.begins hbegins with ⟨rfl, -⟩ | ⟨first, others, rfl, hfirst⟩
  · exact ⟨_, [], rfl, .inl rfl⟩
  · exact ⟨first, _, rfl, .inr hfirst⟩

end Closed

/-- Items are told apart without separators, because what may stand behind an item does not belong
to it. -/
theorem recognizes_items {read : (input : List Piece) → Outcome α input.length} {close : Symbol}
    {Item : List Token → α → Prop} {bound : Nat}
    (hitem : Recognizes bound Separate (ofOutcome read) Item)
    (hbegins : ∀ {tokens a}, Item tokens a →
      ∃ first others, tokens = first :: others ∧ first.begins = true)
    (hclose : (Token.symbol close).begins = false)
    (hcontinues : (Token.symbol close).continues = false) (hcomma : close ≠ .comma) :
    Recognizes bound (fun _ ↦ True) (items close read) (Closed Item close) := by
  have hseparate {consumed : List Located} {as : List α} (rest : List Piece)
      (h : Closed Item close (tokensOf consumed) as) :
      headIs .comma (piecesOf consumed ++ rest) = false ∧ Separate (piecesOf consumed ++ rest) := by
    obtain ⟨first, others, heq, hfirst⟩ := h.begins hbegins
    rw [headIs_piecesOf heq, decide_eq_false_iff_not]
    rcases hfirst with rfl | hfirst
    · exact ⟨by simpa using hcomma, separate_piecesOf heq hcontinues rest⟩
    · refine ⟨?_, separate_piecesOf heq (Token.continues_of_begins hfirst) rest⟩
      rintro rfl
      exact Bool.false_ne_true hfirst
  -- on the bound, since the rest of a list is a shorter list
  suffices key : ∀ n ≤ bound, Recognizes n (fun _ ↦ True) (items close read) (Closed Item close)
    from key bound (Nat.le_refl _)
  intro n
  induction n with
  | zero => exact fun _ ↦ .zero
  | succ n ih =>
    intro hn
    rw [items_eq]
    have htail (a : α) : Recognizes n _ _ _ := (recognizes_comma n).andThen
      (fun _ ↦ (ih (Nat.le_of_succ_le hn)).map (a :: ·)) (fun _ _ _ ↦ Nat.le_add_right _ _)
      (fun _ ↦ ⟨_, _, [], ⟨[], rfl, .nil⟩, rfl⟩)
      (by rintro _ _ consumed rest ⟨as, has, rfl⟩ -; exact (hseparate rest has).1)
    have hcons : Recognizes (n + 1) _ _ (ClosedCons Item close) :=
      (hitem.mono hn fun _ h ↦ h).andThen htail
      (by
        intro tokens a ha
        obtain ⟨first, others, rfl, -⟩ := hbegins ha
        rw [List.length_cons]
        omega)
      (fun a ↦ ⟨_, [a], (), [], _, rfl, .inl rfl, [], ⟨[], rfl, .nil⟩, rfl⟩)
      (by
        -- behind an item stands a comma or what the rest of the list begins with
        rintro a _ consumed rest ⟨_, comma, behind, heq, hcomma, as, has, rfl⟩ -
        rcases hcomma with rfl | rfl
        · exact (hseparate rest (heq.symm ▸ has : Closed Item close (tokensOf consumed) as)).2
        · exact separate_piecesOf heq rfl rest)
    refine ((Recognizes.symbol close).map fun _ ↦ []).choose hcons ?_ ?_ (fun _ _ ↦ .of_cons) ?_
    · exact headIs_cons close
    · rintro _ _ ⟨_, rfl, rfl⟩
      exact ⟨[], rfl, .nil⟩
    · intro consumed as rest h _
      have htest {first : Token} {others : List Token} (h : tokensOf consumed = first :: others) :
          ((piecesOf consumed ++ rest).isEmpty || headIs close (piecesOf consumed ++ rest)) =
            decide (first = .symbol close) := by
        obtain ⟨located, others', rfl, -, -⟩ := tokensOf_eq_cons_iff.mp h
        rw [headIs_piecesOf h]
        rfl
      rcases h.nil_or_cons with ⟨heq, rfl⟩ | hcons
      · rw [htest heq, decide_eq_true rfl, if_pos rfl]
        exact ⟨(), heq, rfl⟩
      · obtain ⟨a, tokens, behind, heq, ha, -⟩ := id hcons
        obtain ⟨first, others, rfl, hfirst⟩ := hbegins ha
        have hne : first ≠ .symbol close := by
          rintro rfl
          exact Bool.false_ne_true (hclose ▸ hfirst)
        rw [htest heq, decide_eq_false hne, if_neg Bool.false_ne_true]
        exact hcons

/-! ## Names with types, parameters and members -/

section Items

variable {bound : Nat} (htype : Recognizes bound Separate type Derives)
include htype

theorem recognizes_typed :
    Recognizes bound Separate typed fun tokens p ↦
      ∃ inner, tokens = .identifier p.1 :: .symbol .colon :: inner ∧ Derives inner p.2 := by
  have hcolon (name : String) := (Recognizes.symbol .colon).leading
    (fun _ ↦ htype.map (name, ·)) fun _ ↦ ⟨_, _, _, .any, rfl⟩
  have hname := Recognizes.identifier.leading hcolon
    fun name ↦ ⟨_, _, (), _, _, rfl, rfl, _, .any, rfl⟩
  refine hname.congr fun tokens p ↦ ⟨?_, ?_⟩
  · rintro ⟨name, _, _, rfl, rfl, _, _, inner, rfl, rfl, t, ht, rfl⟩
    exact ⟨inner, rfl, ht⟩
  · rintro ⟨inner, rfl, ht⟩
    exact ⟨p.1, [_], _, rfl, rfl, (), [_], inner, rfl, rfl, p.2, ht, rfl⟩

theorem recognizes_member :
    Recognizes bound Separate (ofOutcome memberOutcome) DerivesMember := by
  have hmember : ofOutcome memberOutcome = typed.map fun item ↦ ⟨item.1, item.2⟩ := by
    funext input
    exact readMember_eq _ _
  rw [hmember]
  refine ((recognizes_typed htype).map _).congr fun tokens member ↦ ⟨?_, ?_⟩
  · rintro ⟨⟨name, t⟩, ⟨inner, rfl, ht⟩, rfl⟩
    exact .mk name ht
  · rintro ⟨name, ht⟩
    exact ⟨(name, _), ⟨_, rfl, ht⟩, rfl⟩

/-- Behind an identifier, a colon decides whether it was the name of the parameter. -/
private theorem recognizes_behindWord (name : String) :
    Recognizes bound Separate
      (choose (headIs .colon) ((symbol .colon).andThen fun _ ↦ type.map (.named name))
        (segments.map fun parts ↦ .unnamed (.entity (".".intercalate (name :: parts)))))
      fun tokens param ↦ DerivesParam (.identifier name :: tokens) param := by
  have hnamed := (Recognizes.symbol .colon).leading (fun _ ↦ htype.map (Param.named name))
    fun _ ↦ ⟨_, _, _, .any, rfl⟩
  have hunnamed : Recognizes bound Separate _ _ :=
    ((recognizes_segments bound).mono (Nat.le_refl _) fun _ h ↦ h.headIs_eq rfl).map
      fun parts ↦ Param.unnamed (.entity (".".intercalate (name :: parts)))
  refine hnamed.choose hunnamed (headIs_cons .colon) ?_ ?_ ?_
  · rintro _ _ ⟨_, _, _, rfl, rfl, t, ht, rfl⟩
    exact .named name ht
  · rintro _ _ ⟨parts, rfl, rfl⟩
    exact .unnamed (.entity name parts)
  · intro consumed param rest hparam hrest
    rcases derivesParam_identifier_iff.mp hparam with ⟨t, inner, heq, ht, rfl⟩ | ⟨parts, heq, rfl⟩
    · rw [headIs_piecesOf heq, decide_eq_true rfl, if_pos rfl]
      exact ⟨(), [_], _, heq, rfl, t, ht, rfl⟩
    · have hcolon : headIs .colon (piecesOf consumed ++ rest) = false := by
        cases parts with
        | nil =>
          obtain rfl := tokensOf_eq_nil_iff.mp heq
          exact hrest.headIs_eq rfl
        | cons part parts => exact headIs_piecesOf heq rest .colon
      rw [hcolon, if_neg Bool.false_ne_true]
      exact ⟨parts, heq, rfl⟩

private theorem recognizes_wordParam :
    Recognizes bound Separate wordParam fun tokens param ↦
      ∃ name others, tokens = .identifier name :: others ∧ DerivesParam tokens param := by
  have hword := Recognizes.identifier.leading (recognizes_behindWord htype)
    fun name ↦ ⟨_, _, .unnamed (.entity name [])⟩
  refine hword.congr fun tokens param ↦ ⟨?_, ?_⟩
  · rintro ⟨name, _, others, rfl, rfl, h⟩
    exact ⟨name, others, rfl, h⟩
  · rintro ⟨name, others, rfl, h⟩
    exact ⟨name, [_], others, rfl, rfl, h⟩

private theorem recognizes_otherParam :
    Recognizes bound Separate otherParam fun tokens param ↦
      (∃ name t inner, tokens = .symbol .ellipsis :: .identifier name :: .symbol .colon :: inner ∧
        Derives inner t ∧ param = .variadic name t) ∨
      ∃ t, Derives tokens t ∧ param = .unnamed t := by
  have hvariadic := (Recognizes.symbol .ellipsis).leading
    (fun _ ↦ (recognizes_typed htype).map fun item ↦ Param.variadic item.1 item.2)
    fun _ ↦ ⟨_, _, ("", .any), ⟨_, rfl, .any⟩, rfl⟩
  refine hvariadic.choose (htype.map Param.unnamed) (headIs_cons .ellipsis) ?_ ?_ ?_
  · rintro _ _ ⟨_, _, _, rfl, rfl, ⟨name, t⟩, ⟨inner, rfl, ht⟩, rfl⟩
    exact .inl ⟨name, t, inner, rfl, ht, rfl⟩
  · rintro _ _ ⟨t, ht, rfl⟩
    exact .inr ⟨t, ht, rfl⟩
  · rintro consumed param rest (⟨name, t, inner, heq, ht, rfl⟩ | ⟨t, ht, rfl⟩) -
    · rw [headIs_piecesOf heq, decide_eq_true rfl, if_pos rfl]
      exact ⟨(), [_], _, heq, rfl, (name, t), ⟨inner, rfl, ht⟩, rfl⟩
    · obtain ⟨first, others, heq, -, hne⟩ := ht.begins
      rw [headIs_piecesOf heq, decide_eq_false hne, if_neg Bool.false_ne_true]
      exact ⟨t, ht, rfl⟩

theorem recognizes_param : Recognizes bound Separate (ofOutcome paramOutcome) DerivesParam := by
  have hparam : ofOutcome paramOutcome = param := by
    funext input
    exact readParam_eq _ _
  rw [hparam]
  refine (recognizes_wordParam htype).choose (recognizes_otherParam htype) ?_ ?_ ?_ ?_
  · intro piece rest rest'
    rw [Bool.eq_iff_iff, startsIdentifier_iff, startsIdentifier_iff]
    simp
  · rintro tokens param ⟨name, others, rfl, h⟩
    exact h
  · rintro tokens param (⟨name, t, inner, rfl, ht, rfl⟩ | ⟨t, ht, rfl⟩)
    · exact .variadic name ht
    · exact .unnamed ht
  · intro consumed param rest h _
    obtain ⟨token, others, heq, -⟩ := h.begins
    obtain ⟨⟨_, span⟩, consumed, rfl, rfl, -⟩ := tokensOf_eq_cons_iff.mp heq
    split
    · next hword =>
      obtain ⟨name, span, rest', hinput⟩ := startsIdentifier_iff.mp hword
      simp only [piecesOf_cons, List.cons_append, List.cons.injEq, Except.ok.injEq,
        Located.mk.injEq] at hinput
      obtain ⟨⟨rfl, -⟩, -⟩ := hinput
      exact ⟨name, _, rfl, h⟩
    · next hword =>
      generalize htokens : tokensOf (_ :: consumed) = tokens at h
      cases h with
      | unnamed ht => exact .inr ⟨_, ht, rfl⟩
      | named name ht =>
        obtain rfl := List.head_eq_of_cons_eq htokens
        exact absurd (startsIdentifier_iff.mpr ⟨_, _, _, rfl⟩) hword
      | variadic name ht => exact .inl ⟨name, _, _, rfl, ht, rfl⟩

theorem recognizes_result : Recognizes bound Separate result DerivesResult := by
  have hsome := (Recognizes.symbol .arrow).leading (fun _ ↦ htype.map some)
    fun _ ↦ ⟨_, _, _, .any, rfl⟩
  refine hsome.choose (Recognizes.accept none).followed (headIs_cons .arrow) ?_ ?_ ?_
  · rintro _ _ ⟨_, _, _, rfl, rfl, t, ht, rfl⟩
    exact .some ht
  · rintro _ _ ⟨rfl, rfl⟩
    exact .none
  · intro consumed result rest h hrest
    generalize htokens : tokensOf consumed = tokens at h
    cases h with
    | none =>
      obtain rfl := tokensOf_eq_nil_iff.mp htokens
      rw [piecesOf_nil, List.nil_append, hrest.headIs_eq rfl, if_neg Bool.false_ne_true]
      exact ⟨rfl, rfl⟩
    | some ht =>
      rw [headIs_piecesOf htokens, decide_eq_true rfl, if_pos rfl]
      exact ⟨(), [_], _, rfl, rfl, _, ht, rfl⟩

/-! ## Types -/

private theorem recognizes_array :
    Recognizes bound Separate
      (type.andThen fun element ↦ (symbol .rightBracket).map fun _ ↦ .array element)
      fun tokens t ↦ Derives (.symbol .leftBracket :: tokens) t := by
  have harray : Recognizes bound (fun _ ↦ True) _ _ := htype.andThen
    (fun element ↦ (Recognizes.symbol .rightBracket).map fun _ ↦ TypeExpr.array element)
    (fun _ _ _ ↦ Nat.le_add_right _ _) (fun element ↦ ⟨_, _, (), rfl, rfl⟩)
    (by rintro element _ consumed rest ⟨_, heq, rfl⟩ -; exact separate_piecesOf heq rfl rest)
  refine harray.followed.congr fun tokens t ↦ Iff.trans ⟨?_, ?_⟩ derives_leftBracket_iff.symm
  · rintro ⟨element, inside, _, rfl, ht, _, rfl, rfl⟩
    exact ⟨element, inside, rfl, ht, rfl⟩
  · rintro ⟨element, inside, rfl, ht, rfl⟩
    exact ⟨element, inside, _, rfl, ht, (), rfl, rfl⟩

private theorem recognizes_union :
    Recognizes bound Separate ((symbol .less).andThen fun _ ↦ (items .greater readType).map .union)
      fun tokens t ↦ Derives (.symbol .union :: tokens) t := by
  have hmembers := recognizes_items htype
    (fun h ↦ have ⟨first, others, heq, hbegins, _⟩ := h.begins; ⟨first, others, heq, hbegins⟩)
    (rfl : (Token.symbol .greater).begins = false) rfl (by simp)
  have hunion := (Recognizes.symbol .less).leading (fun _ ↦ hmembers.map TypeExpr.union)
    fun _ ↦ ⟨_, _, [], ⟨[], rfl, .nil⟩, rfl⟩
  refine hunion.followed.congr fun tokens t ↦ Iff.trans ⟨?_, ?_⟩ derives_union_iff.symm
  · rintro ⟨_, _, _, rfl, rfl, members, ⟨inside, rfl, hlist⟩, rfl⟩
    exact ⟨members, inside, rfl, hlist, rfl⟩
  · rintro ⟨members, inside, rfl, hlist, rfl⟩
    exact ⟨(), [_], _, rfl, rfl, members, ⟨inside, rfl, hlist⟩, rfl⟩

private theorem recognizes_object :
    Recognizes bound Separate ((items .rightBrace memberOutcome).map .object)
      fun tokens t ↦ Derives (.symbol .leftBrace :: tokens) t := by
  have hmembers := recognizes_items (recognizes_member htype) DerivesMember.begins
    (rfl : (Token.symbol .rightBrace).begins = false) rfl (by simp)
  refine (hmembers.map TypeExpr.object).followed.congr fun tokens t ↦
    Iff.trans ⟨?_, ?_⟩ derives_leftBrace_iff.symm
  · rintro ⟨members, ⟨inside, rfl, hlist⟩, rfl⟩
    exact ⟨members, inside, rfl, hlist, rfl⟩
  · rintro ⟨members, inside, rfl, hlist, rfl⟩
    exact ⟨members, ⟨inside, rfl, hlist⟩, rfl⟩

private theorem recognizes_function :
    Recognizes bound Separate
      ((items .rightParen paramOutcome).andThen fun params ↦ result.map (.function params))
      fun tokens t ↦ Derives (.symbol .leftParen :: tokens) t := by
  have hparams := recognizes_items (recognizes_param htype) DerivesParam.begins
    (rfl : (Token.symbol .rightParen).begins = false) rfl (by simp)
  have hfunction := hparams.leading
    (fun params ↦ (recognizes_result htype).map (TypeExpr.function params))
    fun _ ↦ ⟨_, _, _, .none, rfl⟩
  refine hfunction.congr fun tokens t ↦ Iff.trans ⟨?_, ?_⟩ derives_leftParen_iff.symm
  · rintro ⟨params, _, behind, rfl, ⟨inside, rfl, hlist⟩, result, hresult, rfl⟩
    exact ⟨params, result, inside, behind, by simp, hlist, hresult, rfl⟩
  · rintro ⟨params, result, inside, behind, rfl, hlist, hresult, rfl⟩
    exact ⟨params, inside ++ [_], behind, by simp, ⟨inside, rfl, hlist⟩, result, hresult, rfl⟩

end Items

/-- A token that begins no type is refused, and rightly so. -/
private theorem type_refused_token {token : Token}
    (h : token.begins = false ∨ token = .symbol .ellipsis) :
    (∀ span rest, type (.ok ⟨token, span⟩ :: rest) =
      .error ⟨.type, .ok ⟨token, span⟩ :: rest⟩) ∧
      ∀ tokens t, ¬Derives (token :: tokens) t := by
  refine ⟨fun span rest ↦ type_refused ?_, fun tokens t ht ↦ ?_⟩
  · rintro located rest' heq
    simp only [List.cons.injEq, Except.ok.injEq] at heq
    exact heq.1 ▸ h
  · obtain ⟨first, others, heq, hbegins, hne⟩ := ht.begins
    obtain rfl := List.head_eq_of_cons_eq heq
    rcases h with h | h
    · exact Bool.false_ne_true (h.symm.trans hbegins)
    · exact hne h

/-- The reader of types accepts what the grammar derives, and refuses at the first piece that cannot
go on. -/
theorem recognizes_type (bound : Nat) : Recognizes bound Separate type Derives := by
  induction bound with
  | zero => exact .zero
  | succ bound ih =>
    have haccept (t : TypeExpr) : Recognizes bound Separate _ _ := (Recognizes.accept t).followed
    refine .ofFirst .type (fun token ↦ ?_) ?_ ?_ ⟨_, _, .any⟩
    · match token with
      | .identifier name =>
        refine .inl ⟨_, fun span rest ↦ type_identifier span rest name, ?_⟩
        exact (((recognizes_segments bound).mono (Nat.le_refl _) fun _ h ↦ h.headIs_eq rfl).map
          _).congr fun _ _ ↦ derives_identifier_iff.symm
      | .number text =>
        refine .inl ⟨_, fun span rest ↦ type_number span rest text, ?_⟩
        exact (haccept _).congr fun _ _ ↦ derives_number_iff.symm
      | .string value =>
        refine .inl ⟨_, fun span rest ↦ type_string span rest value, ?_⟩
        exact (haccept _).congr fun _ _ ↦ derives_string_iff.symm
      | .symbol .any =>
        exact .inl ⟨_, type_any, (haccept _).congr fun _ _ ↦ derives_any_iff.symm⟩
      | .symbol .question =>
        exact .inl ⟨_, type_question, (ih.map _).congr fun _ _ ↦ derives_question_iff.symm⟩
      | .symbol .leftBracket => exact .inl ⟨_, type_leftBracket, recognizes_array ih⟩
      | .symbol .union => exact .inl ⟨_, type_union, recognizes_union ih⟩
      | .symbol .leftBrace => exact .inl ⟨_, type_leftBrace, recognizes_object ih⟩
      | .symbol .leftParen => exact .inl ⟨_, type_leftParen, recognizes_function ih⟩
      | .symbol .ellipsis => exact .inr (type_refused_token (.inr rfl))
      | .symbol .dot | .symbol .comma | .symbol .colon | .symbol .rightParen
      | .symbol .rightBracket | .symbol .rightBrace | .symbol .less | .symbol .greater
      | .symbol .arrow => exact .inr (type_refused_token (.inl rfl))
    · exact fun rest h ↦ type_refused fun located rest' heq ↦ absurd heq (h located rest')
    · intro t h
      obtain ⟨_, _, heq, -⟩ := h.begins
      exact absurd heq (List.cons_ne_nil _ _).symm

end TypeNotation

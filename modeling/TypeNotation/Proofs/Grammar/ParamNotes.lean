import TypeNotation.Parser.Reading
import TypeNotation.Proofs.Grammar.Annotation
import TypeNotation.Proofs.Grammar.ParamStarts
import TypeNotation.Proofs.Lexical.MaximalMunch

/-!
# Notes on parameters

Reading notes a decision at the first token of a parameter, before it reads the parameter. Whether
what is noted agrees with the type that is read in the end, and with nothing else, is a question
about a whole run of productions that call each other. It is answered production by production: what
an outcome notes is what begins in the tokens that it takes, in the order of these tokens, and if it
refuses, then its notes are still of tokens of the input, in their order.
-/

namespace TypeNotation

/-! ## Tokens of an input -/

/-- The tokens of an input in their places, without the faults. -/
def tokensIn (input : List Piece) : List Located := input.filterMap Except.toOption

@[simp] theorem tokensIn_cons_ok (first : Located) (pieces : List Piece) :
    tokensIn (.ok first :: pieces) = first :: tokensIn pieces := rfl

@[simp] theorem tokensIn_piecesOf_append (located : List Located) (rest : List Piece) :
    tokensIn (piecesOf located ++ rest) = located ++ tokensIn rest := by
  induction located with
  | nil => rfl
  | cons first others ih => rw [piecesOf_cons, List.cons_append, tokensIn_cons_ok, ih,
      List.cons_append]

/-! ## Outcomes that tell where parameters begin -/

variable {α β : Type}

/-- The outcome tells what it takes from the input: an item, with a note for each parameter that
begins in it. A refusal tells notes on tokens of the input. -/
inductive Outcome.Tells {bound : Nat} (Item : List Located → α → List ParamStart → Prop)
    (input : List Piece) : Outcome α bound → Prop
  | accepted {value : α} {rest : List Piece} {shorter : rest.length < bound}
      {consumed : List Located} {starts : List ParamStart}
      (hinput : input = piecesOf consumed ++ rest) (hitem : Item consumed value starts)
      (hfirst : (starts.map ParamStart.first).Sublist consumed) :
      Tells Item input (.accepted value rest shorter (starts.map ParamStart.note))
  | refused {refusal : Refusal} {notes : List ParamNote}
      (hnotes : (notes.map ParamNote.span).Sublist ((tokensIn input).map Located.span)) :
      Tells Item input (.refused refusal notes)

theorem map_span_note (starts : List ParamStart) :
    (starts.map ParamStart.note).map ParamNote.span =
      (starts.map ParamStart.first).map Located.span := by
  rw [List.map_map, List.map_map]
  rfl

namespace Outcome.Tells

variable {Item : List Located → α → List ParamStart → Prop}
  {Item' : List Located → β → List ParamStart → Prop} {bound : Nat} {input : List Piece}
  {outcome : Outcome α bound}

theorem none_taken {value : α} {shorter : input.length < bound} (h : Item [] value []) :
    (Outcome.accepted value input shorter []).Tells Item input :=
  @accepted _ _ _ _ _ _ _ [] [] rfl h (List.nil_sublist _)

theorem none_noted (refusal : Refusal) :
    (Outcome.refused refusal [] : Outcome α bound).Tells Item input :=
  .refused (List.nil_sublist _)

/-- All notes are on tokens of the input, in their order. -/
theorem span_sublist (h : outcome.Tells Item input) :
    (outcome.notes.map ParamNote.span).Sublist ((tokensIn input).map Located.span) := by
  cases h with
  | accepted hinput _ hfirst =>
    rw [hinput, tokensIn_piecesOf_append, notes, map_span_note, List.map_append]
    exact (hfirst.map _).trans (List.sublist_append_left _ _)
  | refused hnotes => exact hnotes

theorem exists_of_ok {value : α} {rest : List Piece} (h : outcome.Tells Item input)
    (hresult : outcome.result = .ok (value, rest)) :
    ∃ consumed starts, input = piecesOf consumed ++ rest ∧ Item consumed value starts ∧
      outcome.notes = starts.map ParamStart.note := by
  cases h with
  | accepted hinput hitem _ =>
    cases hresult
    exact ⟨_, _, hinput, hitem, rfl⟩
  | refused _ => cases hresult

theorem within {n : Nat} {h : bound ≤ n} (htells : outcome.Tells Item input) :
    (outcome.within h).Tells Item input := by
  cases htells with
  | accepted hinput hitem hfirst => exact .accepted hinput hitem hfirst
  | refused hnotes => exact .refused hnotes

theorem map {f : α → β} (h : outcome.Tells Item input)
    (hitem : ∀ {consumed a starts}, Item consumed a starts → Item' consumed (f a) starts) :
    (outcome.map f).Tells Item' input := by
  cases h with
  | accepted hinput hfirst hsublist => exact .accepted hinput (hitem hfirst) hsublist
  | refused hnotes => exact .refused hnotes

theorem imp {Item' : List Located → α → List ParamStart → Prop} (h : outcome.Tells Item input)
    (hitem : ∀ {consumed a starts}, Item consumed a starts → Item' consumed a starts) :
    outcome.Tells Item' input := by
  cases h with
  | accepted hinput hfirst hsublist => exact .accepted hinput (hitem hfirst) hsublist
  | refused hnotes => exact .refused hnotes

theorem behind {first : Located}
    (h : outcome.Tells (fun consumed ↦ Item (first :: consumed)) input) :
    outcome.Tells Item (.ok first :: input) := by
  cases h with
  | accepted hinput hitem hfirst =>
    exact .accepted (congrArg (.ok first :: ·) hinput) hitem (hfirst.cons first)
  | refused hnotes => exact .refused (hnotes.cons first.span)

/-- Reading on, an outcome tells first what begins in the first part. -/
theorem andThen {next : α → (rest : List Piece) → rest.length < bound → Outcome β bound}
    (h : outcome.Tells Item input)
    (hnext : ∀ {consumed a starts} rest shorter, Item consumed a starts →
      (next a rest shorter).Tells
        (fun consumed' b starts' ↦ Item' (consumed ++ consumed') b (starts ++ starts')) rest) :
    (outcome.andThen next).Tells Item' input := by
  cases h with
  | refused hnotes => exact .refused hnotes
  | accepted hinput hitem hfirst =>
    rename_i value rest shorter consumed starts
    have hbehind := hnext rest shorter hitem
    rw [Outcome.andThen]
    generalize next value rest shorter = outcome' at hbehind ⊢
    cases hbehind with
    | accepted hinput' hitem' hfirst' =>
      rename_i consumed' starts'
      dsimp only
      rw [← List.map_append]
      refine .accepted ?_ hitem' ?_
      · rw [hinput, hinput', piecesOf_append, List.append_assoc]
      · rw [List.map_append]
        exact hfirst.append hfirst'
    | refused hnotes =>
      refine .refused ?_
      rw [hinput, tokensIn_piecesOf_append, List.map_append, List.map_append, map_span_note]
      exact (hfirst.map _).append hnotes

/-- A decision at a token is told if it is the one that goes with the parameter. -/
theorem noting {Item : List Located → Param → List ParamStart → Prop}
    {outcome : Outcome Param bound} {first : Located} {named : Bool}
    (h : outcome.Tells (fun consumed param starts ↦ param.name.isSome = named ∧
      Item (first :: consumed) param (⟨first, param⟩ :: starts)) input) :
    (outcome.noting ⟨first.span, named⟩).Tells Item (.ok first :: input) := by
  cases h with
  | refused hnotes => exact .refused (hnotes.cons_cons _)
  | accepted hinput hitem hfirst =>
    rename_i value rest shorter consumed starts
    obtain ⟨rfl, hitem⟩ := hitem
    have hinput' : .ok first :: input = piecesOf (first :: consumed) ++ rest :=
      congrArg (.ok first :: ·) hinput
    exact @accepted _ _ Item _ _ _ shorter _ _ hinput' hitem (hfirst.cons_cons first)

end Outcome.Tells

/-! ## Productions -/

/-- A single symbol, in which nothing begins. -/
def SymbolAt (symbol : Symbol) (consumed : List Located) (starts : List ParamStart) : Prop :=
  ∃ span, consumed = [⟨.symbol symbol, span⟩] ∧ starts = []

theorem tells_expect (symbol : Symbol) (input : List Piece) :
    (expect symbol input).Tells (fun consumed _ starts ↦ SymbolAt symbol consumed starts)
      input := by
  unfold expect
  split
  · next hhead =>
    obtain ⟨span, rest, rfl⟩ := headIs_iff.mp hhead
    exact .behind (.none_taken ⟨span, rfl, rfl⟩)
  · exact .none_noted _

theorem tells_readSegments (input : List Piece) :
    (readSegments input).Tells
      (fun consumed segments starts ↦ tokensOf consumed = segmentTokens segments ∧ starts = [])
      input := by
  induction input using readSegments.induct with
  | case1 dot segment span rest ih =>
    rw [readSegments]
    refine .behind (.behind (ih.within.map ?_))
    rintro consumed segments starts ⟨htokens, rfl⟩
    refine ⟨?_, rfl⟩
    rw [tokensOf_cons, tokensOf_cons, htokens]
    rfl
  | case2 dot rest hword =>
    rw [readSegments.eq_2 _ _ hword]
    exact .none_noted _
  | case3 rest hword hdot =>
    rw [readSegments.eq_3 _ hword hdot]
    exact .none_taken ⟨rfl, rfl⟩

theorem Outcome.Tells.of_dropComma {Item : List Located → α → List ParamStart → Prop}
    {bound : Nat} {rest : List Piece} {outcome : Outcome α bound}
    (h : outcome.Tells Item (dropComma rest)) :
    outcome.Tells
      (fun consumed a starts ↦ Item consumed a starts ∨ ∃ span others,
        consumed = ⟨.symbol .comma, span⟩ :: others ∧ Item others a starts) rest := by
  unfold dropComma at h
  split at h
  · next hcomma =>
    obtain ⟨span, rest, rfl⟩ := headIs_iff.mp hcomma
    exact .behind (h.imp fun hitem ↦ .inr ⟨span, _, rfl, hitem⟩)
  · exact h.imp .inl

section Items

variable {Item : List Located → α → List ParamStart → Prop}

/-- Items up to and including the symbol that ends them. -/
def ItemsAt (close : Symbol) (Item : List Located → α → List ParamStart → Prop)
    (consumed : List Located) (as : List α) (starts : List ParamStart) : Prop :=
  ∃ inside span, consumed = inside ++ [⟨.symbol close, span⟩] ∧ ListOfAt Item inside as starts

theorem ItemsAt.cons {close : Symbol} {first consumed : List Located} {a : α} {as : List α}
    {starts starts' : List ParamStart} (head : Item first a starts)
    (tail : ItemsAt close Item consumed as starts' ∨ ∃ span others,
      consumed = ⟨.symbol .comma, span⟩ :: others ∧ ItemsAt close Item others as starts') :
    ItemsAt close Item (first ++ consumed) (a :: as) (starts ++ starts') := by
  rcases tail with ⟨inside, span, rfl, items⟩ | ⟨comma, _, rfl, inside, span, rfl, items⟩
  · exact ⟨first ++ inside, span, (List.append_assoc _ _ _).symm, .cons head items⟩
  · exact ⟨first ++ ⟨.symbol .comma, comma⟩ :: inside, span, by simp,
      .consComma comma head items⟩

theorem tells_readItems (close : Symbol) {bound : Nat}
    {item : (input : List Piece) → input.length < bound → Outcome α input.length}
    (hitem : ∀ input h, (item input h).Tells Item input) (input : List Piece)
    (h : input.length < bound) :
    (readItems close item input h).Tells (ItemsAt close Item) input := by
  suffices key : ∀ (n : Nat) (input : List Piece), input.length < n → ∀ h,
      (readItems close item input h).Tells (ItemsAt close Item) input from
    key _ input (Nat.lt_succ_self _) h
  -- on the length of the input, since an item and a comma leave less of it
  intro n
  induction n with
  | zero => exact fun input hn _ ↦ absurd hn (Nat.not_lt_zero _)
  | succ n ih =>
    intro input hn h
    cases input with
    | nil =>
      rw [readItems]
      exact .none_noted _
    | cons piece pieces =>
      rw [readItems]
      split
      · next hclose =>
        obtain ⟨span, rest, heq⟩ := headIs_iff.mp hclose
        obtain ⟨rfl, rfl⟩ := List.cons.inj heq
        exact .behind (.none_taken ⟨[], span, rfl, .nil⟩)
      · apply (hitem _ h).andThen
        intro first a starts rest hrest hfirst
        have hlt := Nat.lt_of_le_of_lt (length_dropComma_le rest) hrest
        have htail := ih (dropComma rest) (by omega) (Nat.lt_trans hlt h)
        exact htail.within.of_dropComma.map fun hrest ↦ .cons hfirst hrest

end Items

/-! ## Readers that begin with a token -/

/-- Every outcome of the reader tells what it takes, and all that begins in it begins behind the
first token. -/
structure TellsBehind (Item : List Located → α → List ParamStart → Prop) {bound : Nat}
    (read : (input : List Piece) → input.length < bound → Outcome α input.length) : Prop where
  behind : ∀ first pieces h,
    (read (.ok first :: pieces) h).Tells (fun consumed ↦ Item (first :: consumed)) pieces
  refused : ∀ input h, (∀ first rest, input ≠ .ok first :: rest) → (read input h).Tells Item input

theorem TellsBehind.tells {Item : List Located → α → List ParamStart → Prop} {bound : Nat}
    {read : (input : List Piece) → input.length < bound → Outcome α input.length}
    (hread : TellsBehind Item read) (input : List Piece) (h : input.length < bound) :
    (read input h).Tells Item input := by
  rcases exists_located_or input with ⟨first, pieces, rfl⟩ | hne
  · exact (hread.behind first pieces h).behind
  · exact hread.refused input h hne

/-- A name, a colon and a type. -/
def TypedAt (consumed : List Located) (typed : String × TypeExpr) (starts : List ParamStart) :
    Prop :=
  ∃ span colon located, consumed =
    ⟨.identifier typed.1, span⟩ :: ⟨.symbol .colon, colon⟩ :: located ∧
      DerivesAt located typed.2 starts

section Types

variable {bound : Nat}
  {type : (input : List Piece) → input.length < bound → Outcome TypeExpr input.length}

theorem tellsBehind_readTyped (htype : TellsBehind DerivesAt type) :
    TellsBehind TypedAt (readTyped type) where
  behind := by
    intro ⟨token, span⟩ pieces h
    cases token with
    | identifier name =>
      rw [readTyped]
      apply (tells_expect .colon pieces).within.andThen
      rintro _ _ _ rest hrest ⟨colon, rfl, rfl⟩
      apply (htype.tells rest _).within.map
      intro located t starts hinner
      exact ⟨span, colon, located, rfl, hinner⟩
    | symbol symbol => exact .none_noted _
    | number text => exact .none_noted _
    | string value => exact .none_noted _
  refused := by
    intro input h hne
    rw [readTyped.eq_2 _ _ _ fun name span rest _ heq _ ↦ hne _ _ heq]
    exact .none_noted _

/-- What is noted of a parameter is whether it turns out to have a name. -/
theorem tells_readParam (htype : TellsBehind DerivesAt type) (input : List Piece)
    (h : input.length < bound) : (readParam type input h).Tells DerivesParamAt input := by
  have htyped := tellsBehind_readTyped htype
  rcases exists_located_or input with ⟨⟨token, span⟩, pieces, rfl⟩ | hne
  · by_cases hellipsis : token = .symbol .ellipsis
    · subst hellipsis
      rw [readParam]
      refine .behind ((htyped.tells pieces _).within.map ?_)
      rintro _ ⟨name, t⟩ starts ⟨place, colon, located, rfl, hinner⟩
      exact .variadic name span place colon hinner
    · rw [readParam.eq_2 _ _ _ _ _ hellipsis]
      dsimp only
      split
      · refine .noting ((htyped.behind ⟨token, span⟩ pieces h).map ?_)
        rintro consumed ⟨name, t⟩ starts ⟨place, colon, located, heq, hinner⟩
        obtain ⟨hfirst, rfl⟩ := List.cons.inj heq
        rw [hfirst]
        exact ⟨rfl, .named name place colon hinner⟩
      · refine .noting ((htype.behind ⟨token, span⟩ pieces h).map ?_)
        exact fun hinner ↦ ⟨rfl, .unnamed hinner⟩
  · rw [readParam.eq_3 _ _ _ (fun _ _ _ heq _ ↦ hne _ _ heq) (fun _ _ _ _ heq _ ↦ hne _ _ heq)]
    exact .none_noted _

theorem tells_readMember (htype : TellsBehind DerivesAt type) (input : List Piece)
    (h : input.length < bound) : (readMember type input h).Tells DerivesMemberAt input := by
  refine ((tellsBehind_readTyped htype).tells input h).map ?_
  rintro _ ⟨name, t⟩ starts ⟨span, colon, located, rfl, hinner⟩
  exact .mk name span colon hinner

end Types

/-! ## Types by their first token -/

section First

variable {span : Span} {pieces : List Piece}

theorem tells_identifier (name : String) :
    (readType (.ok ⟨.identifier name, span⟩ :: pieces)).Tells
      (fun consumed ↦ DerivesAt (⟨.identifier name, span⟩ :: consumed)) pieces := by
  rw [readType]
  refine (tells_readSegments pieces).map ?_
  rintro consumed segments starts ⟨htokens, rfl⟩
  exact .entity name span htokens

variable
  (hinner : TellsBehind DerivesAt fun input (_ : input.length < pieces.length + 1) ↦ readType input)

include hinner

theorem tells_question :
    (readType (.ok ⟨.symbol .question, span⟩ :: pieces)).Tells
      (fun consumed ↦ DerivesAt (⟨.symbol .question, span⟩ :: consumed)) pieces := by
  rw [readType]
  exact (hinner.tells pieces (Nat.lt_succ_self _)).within.map (.nullable span)

theorem tells_leftBracket :
    (readType (.ok ⟨.symbol .leftBracket, span⟩ :: pieces)).Tells
      (fun consumed ↦ DerivesAt (⟨.symbol .leftBracket, span⟩ :: consumed)) pieces := by
  rw [readType]
  apply (hinner.tells pieces (Nat.lt_succ_self _)).within.andThen
  intro located element starts rest hrest helement
  apply (tells_expect .rightBracket rest).within.map
  rintro _ _ _ ⟨closing, rfl, rfl⟩
  rw [List.append_nil]
  exact .array span closing helement

theorem tells_union :
    (readType (.ok ⟨.symbol .union, span⟩ :: pieces)).Tells
      (fun consumed ↦ DerivesAt (⟨.symbol .union, span⟩ :: consumed)) pieces := by
  rw [readType]
  apply (tells_expect .less pieces).within.andThen
  rintro _ _ _ rest hrest ⟨opening, rfl, rfl⟩
  apply (tells_readItems .greater hinner.tells rest hrest).within.map
  rintro _ _ _ ⟨inside, closing, rfl, items⟩
  exact .union span opening closing items

theorem tells_leftBrace :
    (readType (.ok ⟨.symbol .leftBrace, span⟩ :: pieces)).Tells
      (fun consumed ↦ DerivesAt (⟨.symbol .leftBrace, span⟩ :: consumed)) pieces := by
  rw [readType]
  refine (tells_readItems .rightBrace (tells_readMember hinner) pieces
    (Nat.lt_succ_self _)).within.map ?_
  rintro _ _ _ ⟨inside, closing, rfl, items⟩
  exact .object span closing items

theorem tells_leftParen :
    (readType (.ok ⟨.symbol .leftParen, span⟩ :: pieces)).Tells
      (fun consumed ↦ DerivesAt (⟨.symbol .leftParen, span⟩ :: consumed)) pieces := by
  rw [readType]
  refine (tells_readItems .rightParen (tells_readParam hinner) pieces
    (Nat.lt_succ_self _)).within.andThen ?_
  rintro _ params starts rest hrest ⟨inside, closing, rfl, items⟩
  split
  · next harrow =>
    have hlt := Nat.lt_trans (length_tail_lt harrow) hrest
    have hresult := hinner.tells rest.tail hlt
    obtain ⟨arrow, behind, rfl⟩ := headIs_iff.mp harrow
    refine .behind (hresult.within.map fun hresult ↦ ?_)
    simpa using DerivesAt.functionTo span closing arrow items hresult
  · apply Outcome.Tells.none_taken
    simpa using DerivesAt.function span closing items

end First

theorem TellsBehind.mono {Item : List Located → α → List ParamStart → Prop}
    {read : (input : List Piece) → Outcome α input.length} {n bound : Nat}
    (h : TellsBehind Item fun input (_ : input.length < bound) ↦ read input) (hn : n ≤ bound) :
    TellsBehind Item fun input (_ : input.length < n) ↦ read input where
  behind first pieces hlt := h.behind first pieces (Nat.lt_of_lt_of_le hlt hn)
  refused input hlt := h.refused input (Nat.lt_of_lt_of_le hlt hn)

/-- What is noted of a type are the parameters that begin in it. -/
theorem tellsBehind_readType (bound : Nat) :
    TellsBehind DerivesAt fun input (_ : input.length < bound) ↦ readType input := by
  induction bound with
  | zero =>
    exact ⟨fun _ _ h ↦ absurd h (Nat.not_lt_zero _), fun _ h ↦ absurd h (Nat.not_lt_zero _)⟩
  | succ bound ih =>
    refine ⟨?_, fun input _ hne ↦ ?_⟩
    · intro ⟨token, span⟩ pieces h
      have hinner := ih.mono (Nat.le_of_lt_succ h)
      cases token with
      | string value =>
        rw [readType]
        exact .none_taken (.text value span)
      | number text =>
        rw [readType]
        exact .none_taken (.number text span)
      | identifier name => exact tells_identifier name
      | symbol symbol =>
        cases symbol with
        | any =>
          rw [readType]
          exact .none_taken (.any span)
        | question => exact tells_question hinner
        | leftBracket => exact tells_leftBracket hinner
        | union => exact tells_union hinner
        | leftBrace => exact tells_leftBrace hinner
        | leftParen => exact tells_leftParen hinner
        | _ =>
          rw [Production.readType_refused (by simp [Token.begins])]
          exact .none_noted _
    · rw [Production.readType_refused fun first rest heq ↦ absurd heq (hne first rest)]
      exact .none_noted _

theorem tells_readWholeType (input : List Piece) :
    (readWholeType input).Tells DerivesAt input := by
  have htype := (tellsBehind_readType (input.length + 1)).tells input (Nat.lt_succ_self _)
  apply htype.andThen
  intro located t starts rest hrest hitem
  cases rest with
  | nil =>
    apply Outcome.Tells.none_taken
    rwa [List.append_nil, List.append_nil]
  | cons piece rest => exact .none_noted _

/-- Tokens that derive a type are read as it, with a note for each parameter that begins in them. -/
theorem exists_starts_of_derives {located : List Located} {t : TypeExpr}
    (h : Derives (tokensOf located) t) :
    ∃ starts, DerivesAt located t starts ∧
      (readWholeType (piecesOf located)).notes = starts.map ParamStart.note := by
  have hresult : (readWholeType (piecesOf located)).result = .ok (t, []) := by
    rw [Production.readWholeType_eq, whole_piecesOf h]
  obtain ⟨consumed, starts, hinput, hitem, hnotes⟩ :=
    (tells_readWholeType (piecesOf located)).exists_of_ok hresult
  rw [List.append_nil] at hinput
  obtain rfl : located = consumed := List.map_inj_right (fun _ _ ↦ Except.ok.inj) |>.mp hinput
  exact ⟨starts, hitem, hnotes⟩

/-- The grammar with places is the grammar. -/
theorem derives_iff_exists_starts {located : List Located} {t : TypeExpr} :
    Derives (tokensOf located) t ↔ ∃ starts, DerivesAt located t starts := by
  constructor
  · intro h
    obtain ⟨starts, hstarts, -⟩ := exists_starts_of_derives h
    exact ⟨starts, hstarts⟩
  · rintro ⟨starts, hstarts⟩
    exact hstarts.derives

/-! ## Tokens in order -/

/-- A stretch that is not empty ends before another one begins. -/
def Span.IsBefore (span later : Span) : Prop :=
  span.start < span.stop ∧ span.stop ≤ later.start

/-- From a place of a text on, the tokens stand one behind the other. -/
theorem Scanner.isBefore_tokensIn_pieces {text : List Char} {scanner : Scanner}
    (hin : scanner.cursor.IsIn text) :
    (∀ place ∈ tokensIn scanner.cursor.pieces, scanner.cursor.offset ≤ place.span.start) ∧
      ((tokensIn scanner.cursor.pieces).map Located.span).Pairwise Span.IsBefore := by
  induction hpieces : scanner.cursor.pieces generalizing scanner with
  | nil => exact ⟨fun _ hmem ↦ absurd hmem List.not_mem_nil, .nil⟩
  | cons first others ih =>
    have hmunches := munches hin
    rw [pieces_eq] at hpieces
    split at hpieces
    · next token hscan =>
      obtain ⟨rfl, hothers⟩ := List.cons.inj hpieces
      rw [hscan] at hmunches
      obtain ⟨_, word, -, -, hstands, hlexeme, hstart, hstop⟩ := hmunches.exists_word
      have hlt := hstands.start_lt hlexeme.matched.ne_nil
      obtain ⟨hbehind, hordered⟩ := ih (isIn_next hin) hothers
      rw [tokensIn_cons_ok]
      refine ⟨List.forall_mem_cons.mpr ⟨hstart, fun place hplace ↦ ?_⟩, ?_⟩
      · have hle := hbehind place hplace
        omega
      · refine List.Pairwise.cons ?_ hordered
        rintro _ hmem
        obtain ⟨place, hplace, rfl⟩ := List.mem_map.mp hmem
        exact ⟨hlt, hstop.trans_le (hbehind place hplace)⟩
    · cases hpieces
    · next error hscan =>
      obtain ⟨rfl, hothers⟩ := List.cons.inj hpieces
      obtain ⟨hbehind, hordered⟩ := ih (isIn_next hin) hothers
      have hoffset : scanner.cursor.offset ≤ scanner.next.cursor.offset := by
        rw [cursor_next]
        exact (Cursor.offset_le_advance _ _).trans (Cursor.offset_skipLayout_le_scan _)
      exact ⟨fun place hplace ↦ hoffset.trans (hbehind place hplace), hordered⟩

/-! ## The log -/

theorem notes_ofSource (source : String) :
    (Reading.ofSource source).notes = (readWholeType (pieces source)).notes := by
  rw [Reading.ofSource, Cursor.read, pieces]
  split <;> rfl

/-- Whatever comes of a reading, its notes are in the order of the text. -/
theorem isBefore_notes_ofSource (source : String) :
    ((Reading.ofSource source).notes.map ParamNote.span).Pairwise Span.IsBefore := by
  have hin : (Scanner.ofSource source).cursor.IsIn source.toList := Cursor.isIn_atStart _
  have hordered := (Scanner.isBefore_tokensIn_pieces hin).2
  rw [notes_ofSource]
  exact hordered.sublist (tells_readWholeType (pieces source)).span_sublist

theorem exists_starts_of_parse {source : String} {t : TypeExpr} (h : parse source = .ok t) :
    ∃ located starts, tokenize source = .ok located ∧ DerivesAt located t starts ∧
      (Reading.ofSource source).notes = starts.map ParamStart.note := by
  obtain ⟨located, htokens, hderives⟩ := parse_eq_ok_iff.mp h
  obtain ⟨starts, hstarts, hnotes⟩ := exists_starts_of_derives hderives
  rw [notes_ofSource, tokenize_eq_ok_iff.mp htokens]
  exact ⟨located, starts, htokens, hstarts, hnotes⟩

/-- **The log tells the parameters of the type.** While an annotation is read that is a type, what
is logged between its text and the kind of the type is one record for each parameter that takes one
argument, in front of those in its own type and of those behind it. The record is of the place where
the first token of the parameter stands, and says whether the parameter has a name in the type. If
the annotation is no type, then records of that level follow its text, and nothing else does. The
places in the records are in the order of the text, one behind the other. -/
theorem log_tells_params (source : String) :
    (∀ t, parse source = .ok t → ∃ located starts, tokenize source = .ok located ∧
      DerivesAt located t starts ∧ starts.map ParamStart.param = t.fixedParams ∧
      (Reading.ofSource source).log source =
        ⟨.debug, parserTarget, "parsing annotation " ++ quoted source⟩ ::
          starts.map (fun start ↦ ⟨.trace, paramTarget,
            "parameter at " ++ toString start.first.span.start ++ ".." ++
              toString start.first.span.stop ++ " is " ++
                if start.param.name.isSome then "named" else "unnamed"⟩) ++
            [⟨.debug, parserTarget, "parsed " ++ t.kind ++ " annotation"⟩] ∧
      (starts.map fun start ↦ start.first.span).Pairwise Span.IsBefore) ∧
    ∀ error, parse source = .error error → ∃ notes : List ParamNote,
      (Reading.ofSource source).log source =
        ⟨.debug, parserTarget, "parsing annotation " ++ quoted source⟩ ::
          notes.map ParamNote.record ∧
      (∀ note ∈ notes, note.record.level = .trace) ∧
        (notes.map ParamNote.span).Pairwise Span.IsBefore := by
  have hordered := isBefore_notes_ofSource source
  refine ⟨fun t h ↦ ?_, fun error h ↦ ?_⟩
  · obtain ⟨located, starts, htokens, hderives, hnotes⟩ := exists_starts_of_parse h
    refine ⟨located, starts, htokens, hderives, hderives.map_param, ?_, ?_⟩
    · rw [parse] at h
      rw [Reading.log, h, hnotes, List.map_map]
      rfl
    · rwa [hnotes, map_span_note, List.map_map] at hordered
  · refine ⟨(Reading.ofSource source).notes, ?_, fun _ _ ↦ rfl, hordered⟩
    rw [parse] at h
    rw [Reading.log, h, List.append_nil]

end TypeNotation

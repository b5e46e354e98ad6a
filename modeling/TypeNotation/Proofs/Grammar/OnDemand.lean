import TypeNotation.Proofs.Grammar.Descent

/-!
# Productions on demand

The descent follows the grammar as the productions do: from any place it takes the tokens that they
take, and it ends where they end. As in the recognition of the grammar, a bound on the number of
pieces takes the place of the termination proofs; it is met because a type, and so every item of a
list, takes a token at least.
-/

namespace TypeNotation

namespace Descent

variable {α β : Type} {bound : Nat} {d : Descent α} {place : Arrival}

/-! ## Names -/

theorem intercalate_append_cons (mark first second : String) (others : List String) :
    mark.intercalate (first :: second :: others) =
      mark.intercalate ((first ++ mark ++ second) :: others) := by
  cases others with
  | nil => simp
  | cons third others => simp [String.append_assoc]

theorem map_choose (test : List Piece → Bool) (yes no : Production α) (f : α → β) :
    (Production.choose test yes no).map f = Production.choose test (yes.map f) (no.map f) := by
  funext input
  unfold Production.map Production.choose
  split <;> rfl

theorem map_andThen {γ : Type} (read : Production α) (next : α → Production β) (f : β → γ) :
    (read.andThen next).map f = read.andThen fun value ↦ (next value).map f := by
  funext input
  unfold Production.map Production.andThen
  cases read input <;> rfl

/-- A dotted name, as it grows by one part after the other. -/
theorem segments_map_eq (name : String) :
    Production.segments.map (fun parts ↦ ".".intercalate (name :: parts)) =
      Production.choose (headIs .dot)
        ((Production.symbol .dot).andThen fun _ ↦ Production.identifier.andThen fun segment ↦
          Production.segments.map fun parts ↦ ".".intercalate ((name ++ "." ++ segment) :: parts))
        (Production.accept name) := by
  refine (congrArg (Production.map _) Production.segments_eq).trans ?_
  simp only [map_choose, map_andThen, Production.map_map, Function.comp_def,
    intercalate_append_cons]
  rfl

theorem follows_segments (bound : Nat) (name : String) :
    Follows bound (Rule.segments name).read
      (Production.segments.map fun parts ↦ ".".intercalate (name :: parts)) := by
  induction bound generalizing name with
  | zero => exact fun _ hlen ↦ absurd hlen (Nat.not_lt_zero _)
  | succ bound ih =>
    intro place hlen
    rw [segments_map_eq, Rule.read]
    refine agrees_matchSymbol_bind (fun hdot ↦ ?_) fun _ ↦ agrees_pure name place
    have hlt := length_next_lt_of_headIs hdot
    exact (agrees_identifier _).andThen fun segment stop hle _ ↦ ih _ stop (by omega)

theorem follows_typed (h : Follows bound Rule.type.read Production.type) :
    Follows bound Rule.typed.read Production.typed := by
  intro place hlen
  rw [Rule.read, Production.typed]
  refine (agrees_identifier place).andThen fun name stop hle _ ↦ ?_
  refine (agrees_expect .colon stop).andThen fun _ stop' hle' _ ↦ ?_
  exact (h stop' (by omega)).map (name, ·)

/-! ## Lists -/

/-- The reader of the items of a list. -/
def ListKind.outcome : (kind : ListKind) → (input : List Piece) → Outcome kind.Item input.length
  | types => readType
  | members => Production.memberOutcome
  | params => Production.paramOutcome

theorem comma_andThen (read : Production α) :
    Production.comma.andThen (fun _ ↦ read) =
      Production.choose (headIs .comma) ((Production.symbol .comma).andThen fun _ ↦ read) read := by
  funext input
  unfold Production.comma Production.andThen Production.choose
  split <;> rfl

theorem agrees_comma_bind {read : Production α}
    (h : ∀ stop : Arrival, stop.pieces.length ≤ place.pieces.length →
      Agrees d stop (read stop.pieces)) :
    Agrees (matchSymbol .comma >>= fun _ ↦ d) place
      (Production.comma.andThen (fun _ ↦ read) place.pieces) := by
  rw [comma_andThen]
  refine agrees_matchSymbol_bind (fun hcomma ↦ ?_) fun _ ↦ h place (Nat.le_refl _)
  exact h place.next (Nat.le_of_lt (length_next_lt_of_headIs hcomma))

/-- Whether a list is to end, asked of the token and of the pieces. -/
theorem token_closes_iff (hfault : place.fault = none) (close : Symbol) :
    (place.scanner.token = some (.symbol close) ∨ place.scanner.token = none) ↔
      (place.pieces.isEmpty || headIs close place.pieces) = true := by
  rw [token_eq_iff_headIs hfault, token_eq_none_iff hfault, Bool.or_eq_true, List.isEmpty_iff]
  exact or_comm

theorem round_bind {kind : ListKind} (f : kind.Item → Descent α) :
    (Rule.round kind).read >>= f =
      (Rule.item kind).read >>= fun item ↦ matchSymbol .comma >>= fun _ ↦ f item := by
  rw [Rule.read]
  simp only [bind_assoc, pure_bind]

/-- An item takes something, so what is behind it and its comma is shorter. -/
theorem follows_items {kind : ListKind}
    (h : Follows bound (Rule.item kind).read (Production.ofOutcome kind.outcome)) :
    Follows bound (Rule.items kind).read (Production.items kind.close kind.outcome) := by
  induction bound with
  | zero => exact fun _ hlen ↦ absurd hlen (Nat.not_lt_zero _)
  | succ bound ih =>
    intro place hlen
    have hothers := ih fun place hlen ↦ h place (Nat.lt_succ_of_lt hlen)
    rw [Production.items_eq, Rule.read]
    cases hclose : place.pieces.isEmpty || headIs kind.close place.pieces with
    | true =>
      rw [Production.choose_of_true hclose]
      refine ((agrees_expect kind.close place).map fun _ ↦ []).congr fun hfault ↦ ?_
      rw [runAt_token_bind, if_pos ((token_closes_iff hfault _).mpr hclose)]
    | false =>
      rw [Production.choose_of_false hclose]
      have hround := (h place hlen).andThen fun first stop _ hread ↦ by
        have hlt : stop.pieces.length < bound :=
          Nat.lt_of_lt_of_le (Outcome.length_lt_of_result hread) (Nat.le_of_lt_succ hlen)
        exact agrees_comma_bind fun stop' hle ↦
          (hothers stop' (Nat.lt_of_le_of_lt hle hlt)).map (first :: ·)
      refine hround.congr fun hfault ↦ ?_
      rw [runAt_token_bind, if_neg, round_bind]
      rw [token_closes_iff hfault, hclose]
      exact Bool.false_ne_true

/-! ## Items -/

theorem follows_member (h : Follows bound Rule.type.read Production.type) :
    Follows bound (Rule.item .members).read (Production.ofOutcome Production.memberOutcome) := by
  intro place hlen
  have hread : Production.ofOutcome Production.memberOutcome place.pieces = _ :=
    Production.readMember_eq place.pieces (Production.length_lt_bound place.pieces)
  rw [hread, Rule.read]
  exact (follows_typed h place hlen).map _

/-- Looking ahead for a colon, a scanner sees the piece that comes next. -/
theorem headIs_colon_pieces (scanner : Scanner) :
    headIs .colon scanner.cursor.pieces = match scanner.scan.1 with
      | .ok (some (.symbol .colon)) => true
      | _ => false := by
  rw [scanner.pieces_eq]
  rcases scanner.scan.1 with fault | _ | token
  · rfl
  · rfl
  · cases token with
    | symbol symbol => cases symbol <;> rfl
    | _ => rfl

theorem runAt_isNamed (hfault : place.fault = none) :
    isNamed.runAt place = (pure (startsNamed place.pieces) : Descent Bool).runAt place := by
  rw [runAt_of_no_fault hfault, runAt_of_no_fault hfault, isNamed, lookAhead, Arrival.pieces,
    hfault]
  simp only [Scanner.ahead]
  cases htoken : place.scanner.token with
  | none => rfl
  | some token =>
    cases token with
    | identifier name =>
      simp only [startsNamed]
      rw [headIs_colon_pieces]
      rfl
    | _ => rfl

/-- Without three dots, a parameter with no name is a type. -/
theorem param_eq_of_not_named {input : List Piece} (hellipsis : headIs .ellipsis input = false)
    (hnamed : startsNamed input = false) :
    Production.param input = Production.type.map .unnamed input := by
  rcases exists_located_or input with ⟨⟨token, span⟩, rest, rfl⟩ | hne
  · refine Production.param_unnamed ?_ hnamed
    rintro rfl
    exact absurd hellipsis (by simp [headIs])
  · rw [Production.param_refused hne, Production.map_of_error]
    exact Production.type_refused fun located rest heq ↦ absurd heq (hne located rest)

theorem param_eq_of_named {input : List Piece} (hnamed : startsNamed input = true) :
    Production.param input = Production.typed.map (fun (name, t) ↦ .named name t) input := by
  unfold startsNamed at hnamed
  split at hnamed
  · rw [Production.param, Production.choose_of_true rfl, Production.wordParam_of_named hnamed]
  · cases hnamed

theorem follows_param (h : Follows bound Rule.type.read Production.type) :
    Follows bound (Rule.item .params).read (Production.ofOutcome Production.paramOutcome) := by
  intro place hlen
  have hread : Production.ofOutcome Production.paramOutcome place.pieces = _ :=
    Production.readParam_eq place.pieces (Production.length_lt_bound place.pieces)
  rw [hread, Rule.read]
  cases hellipsis : headIs .ellipsis place.pieces with
  | true =>
    obtain ⟨span, hpieces⟩ := pieces_eq_of_headIs hellipsis
    have hlt := Nat.lt_trans (length_next_lt_of_headIs hellipsis) hlen
    have htyped := (follows_typed h place.next hlt).map fun (name, t) ↦ Param.variadic name t
    rw [← Production.param_ellipsis span, ← hpieces] at htyped
    exact htyped.after (.cons hpieces .nil)
      (runAt_bind_of_pure (runAt_matchSymbol_of_headIs hellipsis))
  | false =>
    cases hnamed : startsNamed place.pieces with
    | true =>
      have htyped := (follows_typed h place hlen).map fun (name, t) ↦ Param.named name t
      rw [← param_eq_of_named hnamed] at htyped
      refine htyped.congr fun hfault ↦ ?_
      refine (runAt_bind_of_pure (runAt_matchSymbol_of_not_headIs hfault hellipsis)).trans ?_
      exact runAt_bind_of_pure (hnamed ▸ runAt_isNamed hfault)
    | false =>
      have htype := (h place hlen).map Param.unnamed
      rw [← param_eq_of_not_named hellipsis hnamed] at htype
      refine htype.congr fun hfault ↦ ?_
      refine (runAt_bind_of_pure (runAt_matchSymbol_of_not_headIs hfault hellipsis)).trans ?_
      exact runAt_bind_of_pure (hnamed ▸ runAt_isNamed hfault)

theorem follows_item (h : Follows bound Rule.type.read Production.type) (kind : ListKind) :
    Follows bound (Rule.item kind).read (Production.ofOutcome kind.outcome) := by
  cases kind with
  | types =>
    rw [Rule.read]
    exact h
  | members => exact follows_member h
  | params => exact follows_param h

/-! ## Types -/

theorem follows_result (h : Follows bound Rule.type.read Production.type) (params : List Param) :
    Follows bound (matchSymbol .arrow >>= fun found ↦
        if found = true then Rule.type.read >>= fun t ↦ pure (TypeExpr.function params (some t))
        else pure (TypeExpr.function params none))
      (Production.result.map (TypeExpr.function params)) := by
  intro place hlen
  rw [Production.result, map_choose, map_andThen]
  refine agrees_matchSymbol_bind (fun harrow ↦ ?_) fun _ ↦ agrees_pure _ place
  rw [Production.map_map]
  exact (h place.next (Nat.lt_trans (length_next_lt_of_headIs harrow) hlen)).map _

/-- Behind its first token a type is read as that token says. -/
theorem agrees_type_of_first {token : Token} {span : Span} {d : Descent TypeExpr}
    {read : Production TypeExpr}
    (hpieces : place.pieces = .ok ⟨token, span⟩ :: place.next.pieces)
    (htype : ∀ span rest, Production.type (.ok ⟨token, span⟩ :: rest) = read rest)
    (hrun : Rule.type.read.runAt place = d.runAt place.next)
    (h : Agrees d place.next (read place.next.pieces)) :
    Agrees Rule.type.read place (Production.type place.pieces) := by
  rw [hpieces, htype]
  exact h.after (.cons hpieces .nil) hrun

theorem agrees_type_of_refused
    (h : ∀ located rest, place.pieces = .ok located :: rest →
      located.token.begins = false ∨ located.token = .symbol .ellipsis) :
    Agrees Rule.type.read place (Production.type place.pieces) := by
  rw [Production.type_refused h]
  refine (agrees_refuse .type place).congr fun hfault ↦ ?_
  rw [Rule.read, runAt_token_bind]
  cases htoken : place.scanner.token with
  | none => rfl
  | some token =>
    have hno := h _ _ (Arrival.pieces_of_token hfault htoken)
    cases token with
    | symbol s => cases s <;> first | rfl | simp [Token.begins] at hno
    | _ => simp [Token.begins] at hno

/-- The descent reads types as the grammar does. -/
theorem follows_type (bound : Nat) : Follows bound Rule.type.read Production.type := by
  induction bound with
  | zero => exact fun _ hlen ↦ absurd hlen (Nat.not_lt_zero _)
  | succ bound ih =>
    intro place hlen
    have hitems kind := follows_items (follows_item ih kind)
    rcases exists_located_or place.pieces with ⟨⟨token, span⟩, rest, hpieces⟩ | hne
    · obtain ⟨hfault, htoken, -, rfl⟩ := Arrival.eq_of_pieces_ok hpieces
      have hrest : place.next.pieces.length < bound := by
        rw [hpieces, List.length_cons] at hlen
        exact Nat.lt_of_succ_lt_succ hlen
      have hrun := (congrArg (runAt · place) (Rule.read.eq_def .type)).trans runAt_token_bind
      rw [htoken] at hrun
      cases token with
      | identifier name =>
        refine agrees_type_of_first hpieces (Production.type_identifier · · name)
          (d := (Rule.segments name).read >>= fun name ↦ pure (.entity name)) ?_ ?_
        · exact hrun.trans (runAt_bind_of_pure (runAt_identifier hpieces))
        · have hsegments := (follows_segments bound name place.next hrest).map TypeExpr.entity
          rwa [Production.map_map] at hsegments
      | number text =>
        refine agrees_type_of_first hpieces (Production.type_number · · text) ?_
          (agrees_pure _ _)
        exact hrun.trans (runAt_advance_bind hfault)
      | string value =>
        refine agrees_type_of_first hpieces (Production.type_string · · value) ?_
          (agrees_pure _ _)
        exact hrun.trans (runAt_advance_bind hfault)
      | symbol s =>
        cases s with
        | any =>
          refine agrees_type_of_first hpieces Production.type_any ?_ (agrees_pure _ _)
          exact hrun.trans (runAt_advance_bind hfault)
        | question =>
          refine agrees_type_of_first hpieces Production.type_question ?_
            ((ih place.next hrest).map _)
          exact hrun.trans (runAt_bind_of_pure (runAt_expect hpieces))
        | leftBracket =>
          refine agrees_type_of_first hpieces Production.type_leftBracket ?_
            ((ih place.next hrest).andThen fun element stop _ _ ↦
              (agrees_expect .rightBracket stop).map fun _ ↦ TypeExpr.array element)
          exact hrun.trans (runAt_bind_of_pure (runAt_expect hpieces))
        | union =>
          refine agrees_type_of_first hpieces Production.type_union ?_
            ((agrees_expect .less place.next).andThen fun _ stop hle _ ↦
              (hitems .types stop (Nat.lt_of_le_of_lt hle hrest)).map _)
          exact hrun.trans (runAt_bind_of_pure (runAt_expect hpieces))
        | leftBrace =>
          refine agrees_type_of_first hpieces Production.type_leftBrace ?_
            ((hitems .members place.next hrest).map _)
          exact hrun.trans (runAt_bind_of_pure (runAt_expect hpieces))
        | leftParen =>
          refine agrees_type_of_first hpieces Production.type_leftParen ?_
            ((hitems .params place.next hrest).andThen fun params stop hle _ ↦
              follows_result ih params stop (Nat.lt_of_le_of_lt hle hrest))
          exact hrun.trans (runAt_bind_of_pure (runAt_expect hpieces))
        | _ =>
          refine agrees_type_of_refused fun _ _ heq ↦ ?_
          rw [hpieces] at heq
          cases heq
          simp [Token.begins]
    · exact agrees_type_of_refused fun located rest heq ↦ absurd heq (hne located rest)

end Descent

end TypeNotation

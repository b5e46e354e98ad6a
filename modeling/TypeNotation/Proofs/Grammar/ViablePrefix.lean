import TypeNotation.Proofs.Grammar.Annotation

/-!
# Where reading stops

A text that is no annotation is refused at its first piece that cannot be part of any annotation:
what stands in front of that piece can be continued to a type, and together with it, it cannot. The
place is determined by the text alone, so it does not matter on which way through the productions
the refusal came about, and a fault that was met while looking ahead is reported when its turn comes
and not before.
-/

namespace TypeNotation

open Production

/-! ## The place -/

/-- The first piece of `rest` is the first one of the input that cannot be part of an annotation.
Also the end of the input and a fault are such pieces. -/
structure StopsAt (input : List Piece) (before : List Located) (rest : List Piece) : Prop where
  split : input = piecesOf before ++ rest
  viable : Viable (tokensOf before)
  stuck : ∀ {located others}, rest = .ok located :: others →
    ¬Viable (tokensOf before ++ [located.token])

theorem stopsAt_of_derives {located : List Located} {t : TypeExpr}
    (h : Derives (tokensOf located) t) : StopsAt (piecesOf located) located [] where
  split := (List.append_nil _).symm
  viable := h.viable
  stuck heq := by cases heq

/-- Viable tokens do not go beyond a place where reading stops. -/
private theorem StopsAt.eq_nil_of_append {input rest : List Piece} {before more : List Located}
    {suffix : List Piece} (h : StopsAt input before rest) (hviable : Viable (tokensOf more))
    (hmore : piecesOf more = piecesOf before ++ suffix) (hrest : suffix <+: rest) :
    suffix = [] := by
  obtain ⟨before', behind, rfl, hbefore, rfl⟩ := List.map_eq_append_iff.mp hmore
  obtain rfl : before' = before := List.map_inj_right (fun _ _ ↦ Except.ok.inj) |>.mp hbefore
  cases behind with
  | nil => rfl
  | cons first others =>
    obtain ⟨rest', rfl⟩ := hrest
    refine absurd ?_ (h.stuck rfl)
    rw [tokensOf_append, tokensOf_cons, List.append_cons] at hviable
    exact hviable.of_append

theorem StopsAt.rest_eq {input rest rest' : List Piece} {before before' : List Located}
    (h : StopsAt input before rest) (h' : StopsAt input before' rest') : rest = rest' := by
  -- one of the two places is not behind the other, and the tokens up to the later one are viable
  rcases List.append_eq_append_iff.mp (h.split.symm.trans h'.split) with
    ⟨suffix, hbefore, rfl⟩ | ⟨suffix, hbefore, rfl⟩
  · rw [h.eq_nil_of_append h'.viable hbefore (List.prefix_append _ _), List.nil_append]
  · rw [h'.eq_nil_of_append h.viable hbefore (List.prefix_append _ _), List.nil_append]

theorem StopsAt.before_eq {input rest rest' : List Piece} {before before' : List Located}
    (h : StopsAt input before rest) (h' : StopsAt input before' rest') : before = before' := by
  have heq := h.split.symm.trans h'.split
  rw [h.rest_eq h', List.append_cancel_right_eq] at heq
  exact List.map_inj_right (fun _ _ ↦ Except.ok.inj) |>.mp heq

/-! ## Refusals -/

/-- A refusal is final: whatever is behind the refused piece, it is refused. So there is nothing
that could make a type of it. -/
theorem stopsAt_of_whole_error {input : List Piece} {refusal : Refusal}
    (h : whole input = .error refusal) :
    ∃ before, StopsAt input before refusal.remaining ∧
      (refusal.remaining = [] → ∀ t, ¬Derives (tokensOf before) t) := by
  obtain ⟨before, hsplit, hviable, hfinal⟩ := (recognizes_whole _).refused (Nat.lt_succ_self _) h
  refine ⟨before, ⟨hsplit, hviable, ?_⟩, fun hnil t hderives ↦ ?_⟩
  · -- what makes a type of it would be accepted as a whole, but the refusal stands
    rintro located others hrest ⟨more, t, hderives⟩
    obtain ⟨behind, rfl⟩ := exists_tokensOf_eq more
    have hrefused := hfinal (.ok located :: piecesOf behind) (by rw [hrest]; rfl)
    have haccepted : whole (piecesOf (before ++ located :: behind)) = .ok (t, []) :=
      whole_piecesOf (by simpa using hderives)
    rw [piecesOf_append, piecesOf_cons, hrefused] at haccepted
    cases haccepted
  · rw [hsplit, hnil, List.append_nil, whole_piecesOf hderives] at h
    cases h

/-- What is left at a refusal is what is left where reading stops. -/
theorem whole_eq_error_iff {input rest : List Piece} :
    (∃ expected, whole input = .error ⟨expected, rest⟩) ↔
      ∃ before, StopsAt input before rest ∧ (rest = [] → ∀ t, ¬Derives (tokensOf before) t) := by
  constructor
  · rintro ⟨expected, h⟩
    exact stopsAt_of_whole_error h
  · rintro ⟨before, hstops, hend⟩
    cases hread : whole input with
    | error refusal =>
      obtain ⟨before', hstops', -⟩ := stopsAt_of_whole_error hread
      exact ⟨refusal.expected, by rw [hstops.rest_eq hstops']⟩
    | ok answer =>
      obtain ⟨t, rest'⟩ := answer
      obtain rfl := eq_nil_of_whole hread
      obtain ⟨located, rfl, hderives⟩ := whole_eq_ok_iff.mp hread
      -- an accepted text stops at its end only, where no type is supposed to be
      have hreach := stopsAt_of_derives hderives
      refine absurd hderives ?_
      rw [hreach.before_eq hstops]
      exact hend (hstops.rest_eq hreach) t

/-! ## Errors -/

theorem parse_eq_error_iff {source : String} {error : SyntaxError} :
    parse source = .error error ↔
      ∃ refusal, whole (pieces source) = .error refusal ∧
        refusal.error source.utf8ByteSize = error := by
  constructor
  · intro h
    cases hread : whole (pieces source) with
    | error refusal =>
      rw [parse_of_error hread, Except.error.injEq] at h
      exact ⟨refusal, rfl, h⟩
    | ok answer =>
      rw [parse_of_ok hread] at h
      cases h
  · rintro ⟨refusal, hread, rfl⟩
    exact parse_of_error hread

section Errors

variable {source : String}

theorem parse_unexpectedToken_iff {found : String} {span : Span} :
    (∃ expected, parse source = .error (.unexpectedToken expected found span)) ↔
      ∃ before located rest, pieces source = piecesOf before ++ .ok located :: rest ∧
        found = located.token.describe ∧ span = located.span ∧
        Viable (tokensOf before) ∧ ¬Viable (tokensOf before ++ [located.token]) := by
  simp only [parse_eq_error_iff]
  constructor
  · rintro ⟨expected, ⟨expected', remaining⟩, hread, herror⟩
    obtain ⟨before, hstops, -⟩ := whole_eq_error_iff.mp ⟨_, hread⟩
    match remaining, herror with
    | .ok located :: rest, herror =>
      cases herror
      exact ⟨before, located, rest, hstops.split, rfl, rfl, hstops.viable, hstops.stuck rfl⟩
  · rintro ⟨before, located, rest, hsplit, rfl, rfl, hviable, hstuck⟩
    have hstops : StopsAt (pieces source) before (.ok located :: rest) :=
      ⟨hsplit, hviable, fun h ↦ by cases h; exact hstuck⟩
    obtain ⟨expected, hread⟩ := whole_eq_error_iff.mpr ⟨before, hstops, fun h ↦ by cases h⟩
    exact ⟨_, _, hread, rfl⟩

theorem parse_unexpectedEnd_iff {span : Span} :
    (∃ expected, parse source = .error (.unexpectedEnd expected span)) ↔
      ∃ located, tokenize source = .ok located ∧ Viable (tokensOf located) ∧
        (∀ t, ¬Derives (tokensOf located) t) ∧
        span = ⟨source.utf8ByteSize, source.utf8ByteSize⟩ := by
  simp only [parse_eq_error_iff, tokenize_eq_ok_iff]
  constructor
  · rintro ⟨expected, ⟨expected', remaining⟩, hread, herror⟩
    obtain ⟨before, hstops, hend⟩ := whole_eq_error_iff.mp ⟨_, hread⟩
    match remaining, herror with
    | [], herror =>
      cases herror
      exact ⟨before, hstops.split.trans (List.append_nil _), hstops.viable, hend rfl, rfl⟩
  · rintro ⟨located, hsplit, hviable, hend, rfl⟩
    have hstops : StopsAt (pieces source) located [] :=
      ⟨hsplit.trans (List.append_nil _).symm, hviable, fun h ↦ by cases h⟩
    obtain ⟨expected, hread⟩ := whole_eq_error_iff.mpr ⟨located, hstops, fun _ ↦ hend⟩
    exact ⟨_, _, hread, rfl⟩

theorem parse_lexical_iff {error : LexicalError} :
    parse source = .error (.lexical error) ↔
      ∃ before rest, pieces source = piecesOf before ++ .error error :: rest ∧
        Viable (tokensOf before) := by
  rw [parse_eq_error_iff]
  constructor
  · rintro ⟨⟨expected, remaining⟩, hread, herror⟩
    obtain ⟨before, hstops, -⟩ := whole_eq_error_iff.mp ⟨_, hread⟩
    match remaining, herror with
    | .error fault :: rest, herror =>
      cases herror
      exact ⟨before, rest, hstops.split, hstops.viable⟩
  · rintro ⟨before, rest, hsplit, hviable⟩
    have hstops : StopsAt (pieces source) before (.error error :: rest) :=
      ⟨hsplit, hviable, fun h ↦ by cases h⟩
    obtain ⟨expected, hread⟩ := whole_eq_error_iff.mpr ⟨before, hstops, fun h ↦ by cases h⟩
    exact ⟨_, hread, rfl⟩

end Errors

/-- **Reading fails at the first piece that is in no annotation.** An unexpected token is the first
one with which the tokens cannot be continued to a type; an unexpected end is that of a text whose
tokens could be continued but are no type; and a lexical fault is reported if and only if it is the
first one and the tokens in front of it could be continued. -/
theorem parse_error_at_first_not_viable (source : String) :
    (∀ found span, (∃ expected, parse source = .error (.unexpectedToken expected found span)) ↔
      ∃ before located rest, pieces source = piecesOf before ++ .ok located :: rest ∧
        found = located.token.describe ∧ span = located.span ∧
        Viable (tokensOf before) ∧ ¬Viable (tokensOf before ++ [located.token])) ∧
    (∀ span, (∃ expected, parse source = .error (.unexpectedEnd expected span)) ↔
      ∃ located, tokenize source = .ok located ∧ Viable (tokensOf located) ∧
        (∀ t, ¬Derives (tokensOf located) t) ∧
        span = ⟨source.utf8ByteSize, source.utf8ByteSize⟩) ∧
    ∀ error, parse source = .error (.lexical error) ↔
      tokenize source = .error error ∧
        ∃ before rest, pieces source = piecesOf before ++ .error error :: rest ∧
          Viable (tokensOf before) := by
  refine ⟨fun _ _ ↦ parse_unexpectedToken_iff, fun _ ↦ parse_unexpectedEnd_iff, fun error ↦ ?_⟩
  rw [parse_lexical_iff, tokenize_eq_error_iff]
  constructor
  · rintro ⟨before, rest, hsplit, hviable⟩
    exact ⟨⟨before, rest, hsplit⟩, before, rest, hsplit, hviable⟩
  · rintro ⟨-, h⟩
    exact h

end TypeNotation

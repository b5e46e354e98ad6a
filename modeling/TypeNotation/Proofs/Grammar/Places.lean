import TypeNotation.Proofs.Grammar.ViablePrefix
import TypeNotation.Proofs.Lexical.Stream

/-!
# Errors stand in the text

Every error of reading an annotation is at a stretch of the annotation that begins and ends between
two of its characters: at the token that was not expected, at the character or the string literal
that is no token, or at the empty stretch at the end. So the place of an error keeps its meaning
when the annotation is a part of a longer text.
-/

namespace TypeNotation

/-! ## Words of a part of a text -/

theorem standsAt_finish (text : List Char) :
    StandsAt text ⟨utf8Length text, utf8Length text⟩ [] :=
  ⟨text, [], (List.append_nil text).symm, rfl⟩

theorem StandsAt.shift {text word : List Char} {span : Span} (h : StandsAt text span word)
    (before behind : List Char) :
    StandsAt (before ++ (text ++ behind)) (span.shift (utf8Length before)) word := by
  obtain ⟨before', behind', rfl, rfl⟩ := h
  refine ⟨before ++ before', behind' ++ behind, by simp only [List.append_assoc], ?_⟩
  rw [Span.shift, utf8Length_append, Nat.add_comm (utf8Length before), Nat.add_right_comm]

/-! ## Pieces -/

/-- Where a token or a fault is. -/
def pieceSpan : Piece → Span
  | .ok located => located.span
  | .error fault => fault.span

/-- A fault is at the rest of the text or at its first character. -/
theorem IsFault.exists_standsAt {before text : List Char} {error : LexicalError}
    (h : IsFault (utf8Length before) (utf8Length (before ++ text)) text error) :
    ∃ word, StandsAt (before ++ text) error.span word := by
  cases h with
  | unterminated hquote =>
    rename_i quote rest
    refine ⟨quote :: rest, before, [], by rw [List.append_nil], ?_⟩
    rw [LexicalError.span, utf8Length_append]
  | unrecognized hquote =>
    rename_i c rest
    exact ⟨[c], before, rest, rfl, rfl⟩

/-- Every piece is at some word of the text. -/
theorem Scanner.exists_standsAt_of_mem_pieces {text : List Char} {scanner : Scanner}
    (hin : scanner.cursor.IsIn text) :
    ∀ piece ∈ scanner.cursor.pieces, ∃ word, StandsAt text (pieceSpan piece) word := by
  induction hpieces : scanner.cursor.pieces generalizing scanner with
  | nil => exact fun _ hmem ↦ absurd hmem List.not_mem_nil
  | cons first others ih =>
    have hmunches := munches hin
    rw [pieces_eq] at hpieces
    refine List.forall_mem_cons.mpr ?_
    split at hpieces
    · next token hscan =>
      obtain ⟨rfl, hothers⟩ := List.cons.inj hpieces
      rw [hscan] at hmunches
      obtain ⟨_, word, -, -, hstands, -⟩ := hmunches.exists_word
      exact ⟨⟨word, hstands⟩, ih (isIn_next hin) hothers⟩
    · cases hpieces
    · next error hscan =>
      obtain ⟨rfl, hothers⟩ := List.cons.inj hpieces
      rw [hscan] at hmunches
      obtain ⟨before, rest, rfl, -, hfault⟩ := hmunches.exists_fault
      exact ⟨hfault.exists_standsAt, ih (isIn_next hin) hothers⟩

theorem exists_standsAt_of_mem_pieces {source : String} {piece : Piece}
    (h : piece ∈ pieces source) : ∃ word, StandsAt source.toList (pieceSpan piece) word := by
  have hin : (Scanner.ofSource source).cursor.IsIn source.toList := Cursor.isIn_atStart _
  exact Scanner.exists_standsAt_of_mem_pieces hin piece h

/-! ## Errors -/

theorem Refusal.span_error_eq (refusal : Refusal) (finish : Nat) :
    (refusal.error finish).span =
      (refusal.remaining.head?.map pieceSpan).getD ⟨finish, finish⟩ := by
  unfold error
  split <;> simp_all [SyntaxError.span, pieceSpan]

theorem exists_standsAt_of_parse_eq_error {source : String} {error : SyntaxError}
    (h : parse source = .error error) : ∃ word, StandsAt source.toList error.span word := by
  obtain ⟨refusal, hread, rfl⟩ := parse_eq_error_iff.mp h
  obtain ⟨before, hstops, -⟩ := stopsAt_of_whole_error hread
  rw [Refusal.span_error_eq]
  cases hremaining : refusal.remaining with
  | nil =>
    rw [← utf8Length_toList]
    exact ⟨[], standsAt_finish source.toList⟩
  | cons piece others =>
    refine exists_standsAt_of_mem_pieces ?_
    rw [hstops.split, hremaining]
    exact List.mem_append_right _ List.mem_cons_self

end TypeNotation

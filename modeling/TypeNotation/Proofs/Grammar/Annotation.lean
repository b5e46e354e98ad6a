import Mathlib.Data.Set.Subsingleton
import TypeNotation.Parser.Reading
import TypeNotation.Proofs.Grammar.Acceptance

/-!
# Whole annotations

An annotation is a single type that nothing follows. Reading one is reading a type and then finding
the end, and both recognize what the grammar says. So a text denotes a type exactly if its tokens
derive it; and since reading is a function, a list of tokens derives one type at most.
-/

namespace TypeNotation

open Production

/-! ## Types that nothing follows -/

namespace Production

/-- Accepts the end of the input. -/
def finish (t : TypeExpr) : Production TypeExpr
  | [] => .ok (t, [])
  | rest => .error ⟨.endOfInput, rest⟩

/-- Reads a type that nothing follows. -/
def whole : Production TypeExpr := type.andThen finish

theorem readWholeType_eq (input : List Piece) : (readWholeType input).result = whole input := by
  refine Outcome.result_andThen rfl fun t rest h ↦ ?_
  cases rest <;> rfl

theorem eq_nil_of_whole {input rest : List Piece} {t : TypeExpr}
    (h : whole input = .ok (t, rest)) : rest = [] := by
  cases hread : type input with
  | error refusal =>
    rw [whole, andThen_of_error hread] at h
    cases h
  | ok answer =>
    obtain ⟨t', rest'⟩ := answer
    rw [whole, andThen_of_ok hread] at h
    cases rest' with
    | nil =>
      cases h
      rfl
    | cons piece pieces => cases h

end Production

theorem recognizes_finish (bound : Nat) (t : TypeExpr) :
    Recognizes bound (· = []) (finish t) fun tokens t' ↦ tokens = [] ∧ t' = t where
  accepted {input t' rest} _ h := by
    cases input with
    | cons piece pieces => cases h
    | nil =>
      cases h
      refine ⟨[], rfl, ⟨rfl, rfl⟩, fun rest' hrest ↦ ?_⟩
      rw [List.head?_eq_none_iff.mp hrest]
      rfl
  refused {input refusal} _ h := by
    cases input with
    | nil => cases h
    | cons piece pieces =>
      cases h
      refine ⟨[], rfl, ⟨[], t, rfl, rfl⟩, fun rest' hrest ↦ ?_⟩
      obtain ⟨pieces', rfl⟩ := List.head?_eq_some_iff.mp hrest
      rfl
  accepts {consumed t' rest} _ h hrest := by
    obtain ⟨hnil, rfl⟩ := h
    rw [tokensOf_eq_nil_iff.mp hnil, hrest]
    rfl

theorem recognizes_whole (bound : Nat) : Recognizes bound (· = []) whole Derives := by
  have hwhole : Recognizes bound _ _ _ := (recognizes_type bound).andThen (recognizes_finish bound)
    (fun _ _ _ ↦ Nat.le_add_right _ _) (fun t ↦ ⟨[], t, rfl, rfl⟩)
    (by
      rintro t _ consumed rest ⟨hnil, rfl⟩ rfl
      rw [tokensOf_eq_nil_iff.mp hnil]
      exact separate_nil)
  refine hwhole.congr fun tokens t ↦ ⟨?_, fun h ↦ ?_⟩
  · rintro ⟨t', tokens, _, rfl, h, rfl, rfl⟩
    rwa [List.append_nil]
  · exact ⟨t, tokens, [], (List.append_nil _).symm, h, rfl, rfl⟩

theorem whole_piecesOf {located : List Located} {t : TypeExpr}
    (h : Derives (tokensOf located) t) : whole (piecesOf located) = .ok (t, []) := by
  have := (recognizes_whole _).accepts (Nat.lt_succ_self _) h (rfl : ([] : List Piece) = [])
  rwa [List.append_nil] at this

theorem whole_eq_ok_iff {input : List Piece} {t : TypeExpr} :
    whole input = .ok (t, []) ↔
      ∃ located, input = piecesOf located ∧ Derives (tokensOf located) t := by
  constructor
  · intro h
    obtain ⟨located, heq, hderives, -⟩ := (recognizes_whole _).accepted (Nat.lt_succ_self _) h
    exact ⟨located, heq.trans (List.append_nil _), hderives⟩
  · rintro ⟨located, rfl, h⟩
    exact whole_piecesOf h

/-! ## Texts -/

theorem parse_of_ok {source : String} {t : TypeExpr} {rest : List Piece}
    (h : whole (pieces source) = .ok (t, rest)) : parse source = .ok t := by
  rw [← readWholeType_eq, pieces] at h
  simp only [parse, Reading.ofSource, Cursor.read, h]

theorem parse_of_error {source : String} {refusal : Refusal}
    (h : whole (pieces source) = .error refusal) :
    parse source = .error (refusal.error source.utf8ByteSize) := by
  rw [← readWholeType_eq, pieces] at h
  simp only [parse, Reading.ofSource, Cursor.read, h]
  rw [Cursor.finish, Cursor.atStart, Nat.zero_add, utf8Length_toList]

/-- A text denotes a type if and only if its tokens derive it. -/
theorem parse_eq_ok_iff {source : String} {t : TypeExpr} :
    parse source = .ok t ↔
      ∃ located, tokenize source = .ok located ∧ Derives (tokensOf located) t := by
  simp only [tokenize_eq_ok_iff, ← whole_eq_ok_iff]
  constructor
  · intro h
    cases hread : whole (pieces source) with
    | error refusal =>
      rw [parse_of_error hread] at h
      cases h
    | ok answer =>
      obtain ⟨t', rest⟩ := answer
      rw [parse_of_ok hread] at h
      cases h
      rw [eq_nil_of_whole hread]
  · exact parse_of_ok

theorem Derives.unique {tokens : List Token} {t t' : TypeExpr} (h : Derives tokens t)
    (h' : Derives tokens t') : t = t' := by
  -- both are what a reader finds in the tokens, whatever places they stand in
  obtain ⟨located, rfl⟩ := exists_tokensOf_eq tokens
  have heq := (whole_piecesOf h).symm.trans (whole_piecesOf h')
  simp only [Except.ok.injEq, Prod.mk.injEq] at heq
  exact heq.1

/-- **Reading accepts exactly the grammar.** A text denotes a type if and only if it is free of
lexical faults and the grammar derives the type from its tokens; and although separators are
optional and the alternatives have no order, the grammar is unambiguous. -/
theorem parse_accepts_grammar :
    (∀ (source : String) (t : TypeExpr), parse source = .ok t ↔
      ∃ located, tokenize source = .ok located ∧ Derives (located.map Located.token) t) ∧
    ∀ tokens : List Token, {t | Derives tokens t}.Subsingleton :=
  ⟨fun _ _ ↦ parse_eq_ok_iff, fun _ _ h _ h' ↦ h.unique h'⟩

end TypeNotation

import TypeNotation.Token.Cursor

/-!
# Pieces and tokens

An annotation is a list of pieces, each a token in its place or a fault. When there is no fault the
pieces are the tokens; otherwise there is a first fault with tokens in front of it. These are the
two answers of `tokenize`.
-/

namespace TypeNotation

/-! ## Pieces that are tokens -/

def piecesOf (located : List Located) : List Piece := located.map .ok

def tokensOf (located : List Located) : List Token := located.map Located.token

@[simp] theorem piecesOf_nil : piecesOf [] = [] := rfl

@[simp] theorem piecesOf_cons (first : Located) (others : List Located) :
    piecesOf (first :: others) = .ok first :: piecesOf others := rfl

@[simp] theorem piecesOf_append (a b : List Located) :
    piecesOf (a ++ b) = piecesOf a ++ piecesOf b :=
  List.map_append

@[simp] theorem length_piecesOf (located : List Located) :
    (piecesOf located).length = located.length :=
  List.length_map _

@[simp] theorem tokensOf_nil : tokensOf [] = [] := rfl

@[simp] theorem tokensOf_cons (first : Located) (others : List Located) :
    tokensOf (first :: others) = first.token :: tokensOf others := rfl

@[simp] theorem tokensOf_append (a b : List Located) :
    tokensOf (a ++ b) = tokensOf a ++ tokensOf b :=
  List.map_append

@[simp] theorem length_tokensOf (located : List Located) :
    (tokensOf located).length = located.length :=
  List.length_map _

theorem tokensOf_eq_nil_iff {located : List Located} : tokensOf located = [] ↔ located = [] :=
  List.map_eq_nil_iff

theorem tokensOf_eq_cons_iff {located : List Located} {token : Token} {tokens : List Token} :
    tokensOf located = token :: tokens ↔
      ∃ first others, located = first :: others ∧ first.token = token ∧
        tokensOf others = tokens :=
  List.map_eq_cons_iff

theorem tokensOf_eq_append_iff {located : List Located} {a b : List Token} :
    tokensOf located = a ++ b ↔
      ∃ first second, located = first ++ second ∧ tokensOf first = a ∧ tokensOf second = b :=
  List.map_eq_append_iff

theorem exists_tokensOf_eq (tokens : List Token) : ∃ located, tokensOf located = tokens :=
  ⟨tokens.map fun token ↦ ⟨token, default⟩, by simp [tokensOf, Function.comp_def]⟩

theorem exists_located_or (pieces : List Piece) :
    (∃ located rest, pieces = .ok located :: rest) ∨
      ∀ located rest, pieces ≠ .ok located :: rest := by
  by_cases h : ∃ located rest, pieces = .ok located :: rest
  · exact .inl h
  · exact .inr fun located rest heq ↦ h ⟨located, rest, heq⟩

/-! ## The two answers of `tokenize` -/

theorem mapM_id_piecesOf (located : List Located) :
    (piecesOf located).mapM id = (.ok located : Except LexicalError (List Located)) := by
  induction located with
  | nil => rfl
  | cons first others ih =>
    rw [piecesOf_cons, List.mapM_cons, ih]
    rfl

theorem mapM_id_piecesOf_append_error (before : List Located) (error : LexicalError)
    (rest : List Piece) :
    (piecesOf before ++ .error error :: rest).mapM id =
      (.error error : Except LexicalError (List Located)) := by
  induction before with
  | nil =>
    rw [piecesOf_nil, List.nil_append, List.mapM_cons]
    rfl
  | cons first others ih =>
    rw [piecesOf_cons, List.cons_append, List.mapM_cons, ih]
    rfl

theorem piecesOf_or_exists_fault (pieces : List Piece) :
    (∃ located, pieces = piecesOf located) ∨
      ∃ before error rest, pieces = piecesOf before ++ .error error :: rest := by
  induction pieces with
  | nil => exact .inl ⟨[], rfl⟩
  | cons piece pieces ih =>
    cases piece with
    | error error => exact .inr ⟨[], error, pieces, rfl⟩
    | ok first =>
      rcases ih with ⟨located, rfl⟩ | ⟨before, error, rest, rfl⟩
      · exact .inl ⟨first :: located, rfl⟩
      · exact .inr ⟨first :: before, error, rest, rfl⟩

theorem tokenize_eq_ok_iff {source : String} {located : List Located} :
    tokenize source = .ok located ↔ pieces source = piecesOf located := by
  rw [tokenize]
  rcases piecesOf_or_exists_fault (pieces source) with ⟨found, h⟩ | ⟨before, error, rest, h⟩
  · rw [h, mapM_id_piecesOf, Except.ok.injEq]
    refine ⟨fun heq ↦ heq ▸ rfl, fun heq ↦ ?_⟩
    exact List.map_inj_right (fun _ _ ↦ Except.ok.inj) |>.mp heq
  · rw [h, mapM_id_piecesOf_append_error]
    refine ⟨fun heq ↦ (by cases heq), fun heq ↦ ?_⟩
    have hfault : (.error error : Piece) ∈ piecesOf located := heq ▸ by simp
    obtain ⟨_, -, hne⟩ := List.mem_map.mp hfault
    cases hne

theorem tokenize_eq_error_iff {source : String} {error : LexicalError} :
    tokenize source = .error error ↔
      ∃ before rest, pieces source = piecesOf before ++ .error error :: rest := by
  rw [tokenize]
  constructor
  · intro h
    rcases piecesOf_or_exists_fault (pieces source) with ⟨found, heq⟩ | ⟨before, found, rest, heq⟩
    · rw [heq, mapM_id_piecesOf] at h
      cases h
    · rw [heq, mapM_id_piecesOf_append_error] at h
      cases h
      exact ⟨before, rest, heq⟩
  · rintro ⟨before, rest, h⟩
    rw [h, mapM_id_piecesOf_append_error]

end TypeNotation

import TypeNotation.Proofs.Lexical.Numbers
import TypeNotation.Proofs.Lexical.Pieces

/-!
# Scanning

Scanning as a relation: from a text to the tokens at its front and the text behind them. Each token
is the longest one in front of the text that really follows it, so two scans one after the other are
a scan, and no token can merge with the next.

A scan to the end of a text gives its pieces. Conversely every token among the pieces of a text was
a longest match, which tells what its name or number can be.
-/

namespace TypeNotation

/-! ## The relation -/

/-- Skipping layout, the tokens stand at the front of the text and `rest` behind them. -/
inductive Scans : List Char → List Token → List Char → Prop
  | done {rest : List Char} : Scans rest [] rest
  | layout {c : Char} {text rest : List Char} {tokens : List Token} (hlayout : isLayout c = true)
      (htail : Scans text tokens rest) : Scans (c :: text) tokens rest
  | lexeme {word text rest : List Char} {token : Token} {tokens : List Token}
      (hword : lexemeAt? (word ++ text) = some (token, word.length))
      (htail : Scans text tokens rest) : Scans (word ++ text) (token :: tokens) rest

theorem Scans.append {text middle rest : List Char} {tokens others : List Token}
    (h : Scans text tokens middle) (hothers : Scans middle others rest) :
    Scans text (tokens ++ others) rest := by
  induction h with
  | done => exact hothers
  | layout hlayout _ ih => exact .layout hlayout (ih hothers)
  | lexeme hword _ ih => exact .lexeme hword (ih hothers)

/-- A character that is a token whatever follows. -/
theorem Scans.mark {c : Char} {symbol : Symbol} {text rest : List Char} {tokens : List Token}
    (hmark : lexemeAt? (c :: text) = some (.symbol symbol, 1)) (htail : Scans text tokens rest) :
    Scans (c :: text) (.symbol symbol :: tokens) rest :=
  have hword : lexemeAt? ([c] ++ text) = some (.symbol symbol, [c].length) := hmark
  .lexeme hword htail

/-! ## The pieces of a scanned text -/

theorem lexemeAt?_of_isLayout {c : Char} {rest : List Char} (h : isLayout c = true) :
    lexemeAt? (c :: rest) = none := by
  rcases isLayout_cases h with rfl | rfl | rfl | rfl | rfl <;> rfl

namespace Cursor

theorem pieces_eq (cursor : Cursor) :
    cursor.pieces = match cursor.scan with
      | (none, _) => []
      | (some piece, next) => piece :: next.pieces := by
  rw [pieces]
  split <;> simp_all

theorem pieces_of_scan_eq {cursor cursor' : Cursor} (h : cursor.scan = cursor'.scan) :
    cursor.pieces = cursor'.pieces := by
  rw [pieces_eq, pieces_eq, h]

theorem pieces_nil (offset : Nat) : pieces ⟨offset, []⟩ = [] := by
  rw [pieces_eq]
  rfl

/-- Layout in front of a place makes no difference. -/
theorem pieces_of_isLayout {c : Char} {text : List Char} (offset : Nat) (h : isLayout c = true) :
    pieces ⟨offset, c :: text⟩ = pieces ⟨offset + c.utf8Size, text⟩ := by
  have hskip : skipLayout ⟨offset, c :: text⟩ = skipLayout ⟨offset + c.utf8Size, text⟩ := by
    simp only [skipLayout, advance, runLength, List.takeWhile_cons_of_pos h, List.length_cons,
      List.take_succ_cons, List.drop_succ_cons, utf8Length_cons, Nat.add_assoc]
  exact pieces_of_scan_eq (by rw [scan, scan, hskip])

theorem pieces_of_lexemeAt? {word text : List Char} {token : Token} (offset : Nat)
    (h : lexemeAt? (word ++ text) = some (token, word.length)) :
    pieces ⟨offset, word ++ text⟩ =
      .ok ⟨token, ⟨offset, offset + utf8Length word⟩⟩ ::
        pieces ⟨offset + utf8Length word, text⟩ := by
  have hpos := lexemeAt?_pos h
  obtain ⟨c, others, rfl⟩ := List.exists_cons_of_length_pos hpos
  have hlayout : isLayout c = false := by
    rw [Bool.eq_false_iff]
    intro hlayout
    rw [List.cons_append, lexemeAt?_of_isLayout hlayout] at h
    cases h
  -- a lexeme does not begin with layout, so nothing is skipped in front of it
  have hskip : skipLayout ⟨offset, c :: others ++ text⟩ = ⟨offset, c :: others ++ text⟩ := by
    rw [skipLayout, List.cons_append, runLength_of_endsRun (endsRun_cons.mpr hlayout)]
    rfl
  rw [pieces_eq, scan, hskip, List.cons_append]
  dsimp only
  rw [pieceAt]
  dsimp only
  rw [← List.cons_append, h]
  simp only [advance, List.take_left, List.drop_left]

end Cursor

/-- The pieces of a scanned text are its tokens, and then the pieces of what is behind them. -/
theorem Scans.pieces {text rest : List Char} {tokens : List Token} (h : Scans text tokens rest)
    (offset : Nat) :
    ∃ located offset', Cursor.pieces ⟨offset, text⟩ =
      piecesOf located ++ Cursor.pieces ⟨offset', rest⟩ ∧ tokensOf located = tokens := by
  induction h generalizing offset with
  | done => exact ⟨[], offset, rfl, rfl⟩
  | layout hlayout _ ih =>
    rw [Cursor.pieces_of_isLayout offset hlayout]
    exact ih _
  | lexeme hword _ ih =>
    have hpieces := Cursor.pieces_of_lexemeAt? offset hword
    obtain ⟨located, offset', hlocated, rfl⟩ := ih (offset + _)
    exact ⟨⟨_, _⟩ :: located, offset', by rw [hpieces, hlocated]; rfl, rfl⟩

theorem Scans.tokenize {source : String} {tokens : List Token} (h : Scans source.toList tokens []) :
    ∃ located, tokenize source = .ok located ∧ tokensOf located = tokens := by
  obtain ⟨located, offset, hpieces, htokens⟩ := h.pieces 0
  refine ⟨located, tokenize_eq_ok_iff.mpr ?_, htokens⟩
  rw [Cursor.pieces_nil, List.append_nil] at hpieces
  exact hpieces

/-! ## The tokens of a text -/

/-- A token whose name is an identifier, or whose text is a number. -/
def Token.IsRegular : Token → Prop
  | .identifier name => IsIdentifier name
  | .number text => IsNumber text.toList
  | .symbol _ | .string _ => True

theorem isRegular_of_lexemeAt? {text : List Char} {token : Token} {n : Nat}
    (h : lexemeAt? text = some (token, n)) : token.IsRegular := by
  unfold lexemeAt? at h
  split at h
  · cases h
  · next c rest =>
    split at h
    · next hstart =>
      cases h
      generalize htoken : wordToken _ = token
      cases token with
      | identifier name => exact isIdentifier_of_wordToken (isWord_take hstart) htoken
      | number text =>
        unfold wordToken at htoken
        split at htoken
        · cases htoken
        · split at htoken <;> cases htoken
      | symbol | string => trivial
    · split at h
      · dsimp only at h
        split at h <;> cases h
        trivial
      · split at h
        · obtain ⟨⟨symbol, n⟩, -, heq⟩ := Option.map_eq_some_iff.mp h
          cases heq
          trivial
        · next n hn =>
          cases h
          rw [Token.IsRegular, String.toList_ofList]
          exact isNumber_take hn

theorem Cursor.isRegular_of_mem_pieces {cursor : Cursor} {located : Located}
    (h : .ok located ∈ cursor.pieces) : located.token.IsRegular := by
  induction cursor using Cursor.pieces.induct with
  | case1 cursor next hscan =>
    rw [pieces_eq, hscan] at h
    cases h
  | case2 cursor piece next hscan ih =>
    rw [pieces_eq, hscan] at h
    rcases List.mem_cons.mp h with rfl | h
    · -- a piece that is a token was made of a lexeme
      unfold scan at hscan
      split at hscan
      · cases hscan
      · simp only [pieceAt, Prod.mk.injEq, Option.some.injEq] at hscan
        obtain ⟨hpiece, -⟩ := hscan
        split at hpiece
        · next hlexeme =>
          cases hpiece
          exact isRegular_of_lexemeAt? hlexeme
        · split at hpiece <;> cases hpiece
    · exact ih h

theorem isRegular_of_tokenize {source : String} {located : List Located}
    (h : tokenize source = .ok located) {token : Token} (htoken : token ∈ tokensOf located) :
    token.IsRegular := by
  obtain ⟨found, hfound, rfl⟩ := List.mem_map.mp htoken
  have hmem : .ok found ∈ (Cursor.atStart source.toList).pieces := by
    have hpieces : (Cursor.atStart source.toList).pieces = piecesOf located :=
      tokenize_eq_ok_iff.mp h
    rw [hpieces]
    exact List.mem_map_of_mem hfound
  exact Cursor.isRegular_of_mem_pieces hmem

end TypeNotation

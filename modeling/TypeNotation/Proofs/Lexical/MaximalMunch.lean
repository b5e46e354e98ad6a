import Mathlib.Data.List.Forall2
import TypeNotation.Proofs.Lexical.Stream

/-!
# Maximal munch

The whole of what scanning does to an annotation. One scan after the other takes the longest text
that is a token; the tokens of an annotation stand in it one behind the other, with nothing but
layout around them, and each of them is the same token when it stands alone. An annotation that has
no tokens has a first place where no token begins, and its error is of that place.
-/

namespace TypeNotation

/-! ## Spans -/

theorem Matches.ne_nil {word : List Char} {token : Token} (h : Matches word token) : word ≠ [] := by
  rintro rfl
  obtain ⟨token', n, hfound, -⟩ := h.exists_lexemeAt? []
  cases hfound

theorem utf8Length_pos {text : List Char} (h : text ≠ []) : 0 < utf8Length text := by
  obtain ⟨c, others, rfl⟩ := List.exists_cons_of_ne_nil h
  exact Nat.add_pos_left c.utf8Size_pos _

theorem StandsAt.start_lt {text word : List Char} {span : Span} (h : StandsAt text span word)
    (hne : word ≠ []) : span.start < span.stop := by
  obtain ⟨before, behind, rfl, rfl⟩ := h
  exact Nat.lt_add_of_pos_right (utf8Length_pos hne)

theorem StandsAt.stop_le {text word : List Char} {span : Span} (h : StandsAt text span word) :
    span.stop ≤ utf8Length text := by
  obtain ⟨before, behind, rfl, rfl⟩ := h
  simp only [utf8Length_append]
  omega

/-! ## Words and layout -/

/-- The text is the words one behind the other, with layout in front of each and at the end. -/
inductive LaidOut : List Char → List (List Char) → Prop
  | finish {layout : List Char} (hlayout : ∀ c ∈ layout, isLayout c = true) : LaidOut layout []
  | word {layout word rest : List Char} {words : List (List Char)}
      (hlayout : ∀ c ∈ layout, isLayout c = true) (htail : LaidOut rest words) :
      LaidOut (layout ++ (word ++ rest)) (word :: words)

/-- The tokens from a place on are words of the text, with nothing but layout around them. -/
theorem Scanner.exists_laidOut {source : List Char} {scanner : Scanner} {located : List Located}
    (hplace : scanner.cursor.IsIn source) (h : scanner.cursor.pieces = piecesOf located) :
    ∃ words, LaidOut scanner.cursor.rest words ∧
      List.Forall₂ (fun place word ↦ StandsAt source place.span word ∧ IsLexeme word place.token)
        located words := by
  induction located generalizing scanner with
  | nil =>
    have hmunches := munches hplace
    rw [scan_of_pieces_nil h] at hmunches
    exact ⟨[], .finish hmunches.isLayout_rest, .nil⟩
  | cons first others ih =>
    obtain ⟨hscan, hspan, hothers⟩ := scan_of_pieces_ok h
    obtain ⟨words, hlaidOut, hwords⟩ := ih (isIn_next hplace) hothers
    have hmunches := munches hplace
    rw [hscan] at hmunches
    obtain ⟨layout, word, hrest, hlayout, hstands, hlexeme, -, -⟩ := hmunches.exists_word
    rw [hspan] at hstands
    exact ⟨word :: words, hrest ▸ .word hlayout hlaidOut, .cons ⟨hstands, hlexeme⟩ hwords⟩

theorem IsLexeme.tokenize_eq {word : List Char} {token : Token} (h : IsLexeme word token) :
    tokenize (String.ofList word) = .ok [⟨token, ⟨0, utf8Length word⟩⟩] := by
  have hread : lexemeAt? (word ++ []) = some (token, word.length) := by
    rw [List.append_nil]
    exact h.lexemeAt?_eq
  have hpieces := Cursor.pieces_of_lexemeAt? 0 hread
  rw [List.append_nil, Cursor.pieces_nil, Nat.zero_add] at hpieces
  rw [tokenize_eq_ok_iff, pieces, String.toList_ofList]
  exact hpieces

/-! ## The first fault -/

/-- Scans find the tokens in front of the first fault, and then the fault. -/
theorem Scanner.scan_of_pieces_eq_append {scanner : Scanner} {before : List Located}
    {error : LexicalError} {rest : List Piece}
    (h : scanner.cursor.pieces = piecesOf before ++ .error error :: rest) :
    (∀ m < before.length, ∃ token, (next^[m] scanner).scan.1 = .ok (some token)) ∧
      (next^[before.length] scanner).scan.1 = .error error := by
  induction before generalizing scanner with
  | nil => exact ⟨fun m hm ↦ absurd hm (Nat.not_lt_zero _), scan_of_pieces_error h⟩
  | cons first others ih =>
    obtain ⟨hscan, -, hothers⟩ := scan_of_pieces_ok h
    obtain ⟨htokens, hfault⟩ := ih hothers
    refine ⟨fun m hm ↦ ?_, hfault⟩
    cases m with
    | zero => exact ⟨_, hscan⟩
    | succ m => exact htokens m (Nat.lt_of_succ_lt_succ hm)

theorem Scanner.scan_after_of_pieces {source : String} {before : List Located}
    {error : LexicalError} {rest : List Piece}
    (h : pieces source = piecesOf before ++ .error error :: rest) :
    (∀ m < before.length, ∃ token, (after source m).scan.1 = .ok (some token)) ∧
      (after source before.length).scan.1 = .error error :=
  scan_of_pieces_eq_append h

/-! ## All scans -/

/-- **Scanning is lossless maximal munch.** Every scan skips all layout and then takes the longest
text that a pattern matches, if there is one. The spans of the tokens are not empty, they lie in the
annotation and begin and end between two of its characters, and later ones lie behind earlier ones.
The tokens of an annotation stand in it as words with nothing but layout around them, each of which
is that token when it stands alone; and if an annotation has no tokens, then the scans find tokens
up to the first place behind layout where no pattern matches, and the error is of that place. -/
theorem scanning_maximal_munch (source : String) :
    (∀ n, Munches source.toList (Scanner.after source n) (Scanner.after source n).scan.1
      (Scanner.after source (n + 1))) ∧
    (∀ n token, (Scanner.after source n).scan.1 = .ok (some token) →
      (Scanner.after source (n + 1)).span.start < (Scanner.after source (n + 1)).span.stop ∧
      (Scanner.after source (n + 1)).span.stop ≤ source.utf8ByteSize ∧
      ∃ word, StandsAt source.toList (Scanner.after source (n + 1)).span word) ∧
    (∀ m n token token', m < n → (Scanner.after source m).scan.1 = .ok (some token) →
      (Scanner.after source n).scan.1 = .ok (some token') →
      (Scanner.after source (m + 1)).span.stop ≤ (Scanner.after source (n + 1)).span.start) ∧
    (∀ located, tokenize source = .ok located →
      ∃ words, LaidOut source.toList words ∧
        List.Forall₂ (fun place word ↦ StandsAt source.toList place.span word ∧
          tokenize (String.ofList word) = .ok [⟨place.token, ⟨0, utf8Length word⟩⟩])
          located words) ∧
    ∀ error, tokenize source = .error error →
      ∃ n, (∀ m < n, ∃ token, (Scanner.after source m).scan.1 = .ok (some token)) ∧
        (Scanner.after source n).scan.1 = .error error ∧
        ∃ before text, source.toList = before ++ text ∧ NoMatch text ∧
          IsFault (utf8Length before) source.utf8ByteSize text error := by
  have hwords (n : Nat) {token : Token} (h : (Scanner.after source n).scan.1 = .ok (some token)) :=
    (h ▸ Scanner.munches_after source n).exists_word
  refine ⟨Scanner.munches_after source, fun n token h ↦ ?_, fun m n token token' hlt h h' ↦ ?_,
    fun located h ↦ ?_, fun error h ↦ ?_⟩
  · obtain ⟨_, word, -, -, hstands, hlexeme, -, -⟩ := hwords n h
    have hstop := hstands.stop_le
    rw [utf8Length_toList] at hstop
    exact ⟨hstands.start_lt hlexeme.matched.ne_nil, hstop, word, hstands⟩
  · obtain ⟨_, _, -, -, -, -, -, hstop⟩ := hwords m h
    obtain ⟨_, _, -, -, -, -, hstart, -⟩ := hwords n h'
    rw [hstop]
    exact Nat.le_trans (Scanner.offset_after_le source hlt) hstart
  · have hpieces : (Scanner.ofSource source).cursor.pieces = piecesOf located :=
      tokenize_eq_ok_iff.mp h
    obtain ⟨words, hlaidOut, hstand⟩ :=
      Scanner.exists_laidOut (Cursor.isIn_atStart source.toList) hpieces
    refine ⟨words, hlaidOut, hstand.imp fun place word ⟨hstands, hlexeme⟩ ↦ ?_⟩
    exact ⟨hstands, hlexeme.tokenize_eq⟩
  · obtain ⟨before, rest, hpieces⟩ := tokenize_eq_error_iff.mp h
    obtain ⟨htokens, hscan⟩ := Scanner.scan_after_of_pieces hpieces
    have hfault := (hscan ▸ Scanner.munches_after source before.length).exists_fault
    rw [utf8Length_toList] at hfault
    exact ⟨before.length, htokens, hscan, hfault⟩

end TypeNotation

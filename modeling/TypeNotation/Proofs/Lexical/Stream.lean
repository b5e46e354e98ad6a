import Mathlib.Logic.Function.Iterate
import TypeNotation.Proofs.Lexical.Patterns
import TypeNotation.Proofs.Lexical.Scans
import TypeNotation.Token.Scanner

/-!
# The stream of scans

Scanning again and again from the front of an annotation passes through one sequence of scanners,
`Scanner.next^[n]`, and everything that is read comes from it. Here it is said what one scan does in
terms of the patterns: which place of the text it looks at, what it answers, and what it leaves in
the scanner. Every place on the way splits the annotation between two of its characters, so spans
never cut one.
-/

namespace TypeNotation

/-! ## Places in a text -/

/-- The cursor is a place of the text: it holds what is behind the place and counts what is in
front. -/
def Cursor.IsIn (cursor : Cursor) (text : List Char) : Prop :=
  ∃ before, text = before ++ cursor.rest ∧ cursor.offset = utf8Length before

/-- The word stands in the text, and the span is its bytes. -/
def StandsAt (text : List Char) (span : Span) (word : List Char) : Prop :=
  ∃ before behind, text = before ++ (word ++ behind) ∧
    span = ⟨utf8Length before, utf8Length before + utf8Length word⟩

section Places

variable {text : List Char} {cursor : Cursor}

theorem Cursor.isIn_atStart (text : List Char) : (Cursor.atStart text).IsIn text := ⟨[], rfl, rfl⟩

theorem Cursor.IsIn.advance (h : cursor.IsIn text) (n : Nat) : (cursor.advance n).IsIn text := by
  obtain ⟨before, htext, hoffset⟩ := h
  refine ⟨before ++ cursor.rest.take n, ?_, ?_⟩
  · rw [rest_advance, List.append_assoc, List.take_append_drop, htext]
  · rw [utf8Length_append, ← hoffset]
    rfl

theorem Cursor.IsIn.finish_eq (h : cursor.IsIn text) : cursor.finish = utf8Length text := by
  obtain ⟨before, rfl, hoffset⟩ := h
  rw [finish, utf8Length_append, hoffset]

theorem Cursor.offset_le_advance (cursor : Cursor) (n : Nat) :
    cursor.offset ≤ (cursor.advance n).offset :=
  Nat.le_add_right _ _

end Places

/-! ## What a scan is to do -/

/-- From the place on there is layout, as much as there can be, and `start` bytes from the front the
text behind it. -/
inductive Skips : List Char → Cursor → Nat → List Char → Prop
  | mk {before layout text : List Char} (hlayout : ∀ c ∈ layout, isLayout c = true)
      (hends : EndsRun isLayout text) :
      Skips (before ++ (layout ++ text)) ⟨utf8Length before, layout ++ text⟩
        (utf8Length before + utf8Length layout) text

/-- The error for a text that no token begins, `start` bytes into an annotation of `finish`
bytes. -/
inductive IsFault (start finish : Nat) : List Char → LexicalError → Prop
  | unterminated {quote : Char} {rest : List Char} (hquote : isQuote quote = true) :
      IsFault start finish (quote :: rest) (.unterminatedString ⟨start, finish⟩)
  | unrecognized {c : Char} {rest : List Char} (hquote : isQuote c = false) :
      IsFault start finish (c :: rest) (.unrecognizedCharacter c ⟨start, start + c.utf8Size⟩)

/-- What a scan is to answer, and the scanner after it. Behind the layout it finds the longest match
if there is a match; nothing, and that also in the scanner, if there is no text; and otherwise a
fault, which leaves the token in the scanner as it is. -/
inductive Munches (source : List Char) (scanner : Scanner) :
    Except LexicalError (Option Token) → Scanner → Prop
  | token {start : Nat} {word rest : List Char} {token : Token}
      (hplace : Skips source scanner.cursor start (word ++ rest))
      (hword : LongestMatch (word ++ rest) word token) :
      Munches source scanner (.ok (some token))
        ⟨⟨start + utf8Length word, rest⟩, some token, ⟨start, start + utf8Length word⟩⟩
  | finished {finish : Nat} (hplace : Skips source scanner.cursor finish []) :
      Munches source scanner (.ok none) ⟨⟨finish, []⟩, none, ⟨finish, finish⟩⟩
  | fault {start : Nat} {text : List Char} {error : LexicalError} {next : Scanner}
      (hplace : Skips source scanner.cursor start text) (hnone : NoMatch text)
      (herror : IsFault start (utf8Length source) text error)
      (htoken : next.token = scanner.token) (hspan : next.span = scanner.span) :
      Munches source scanner (.error error) next

section Munches

variable {source : List Char} {scanner next : Scanner}

/-- A token is a word of the text behind layout, and scanning goes on behind the word. -/
theorem Munches.exists_word {token : Token}
    (h : Munches source scanner (.ok (some token)) next) :
    ∃ layout word, scanner.cursor.rest = layout ++ (word ++ next.cursor.rest) ∧
      (∀ c ∈ layout, isLayout c = true) ∧ StandsAt source next.span word ∧ IsLexeme word token ∧
      scanner.cursor.offset ≤ next.span.start ∧ next.span.stop = next.cursor.offset := by
  cases h with
  | token hplace hword =>
    rename_i start word rest
    generalize scanner.cursor = cursor at hplace
    generalize htext : word ++ rest = text at hplace
    obtain ⟨hlayout, -⟩ := hplace
    rename_i before layout
    refine ⟨layout, word, by rw [htext], hlayout, ⟨before ++ layout, rest, ?_, ?_⟩, hword.lexeme,
      Nat.le_add_right _ _, rfl⟩
    · rw [htext, List.append_assoc]
    · rw [utf8Length_append]

theorem Munches.isLayout_rest (h : Munches source scanner (.ok none) next) :
    ∀ c ∈ scanner.cursor.rest, isLayout c = true := by
  cases h with
  | finished hplace =>
    generalize scanner.cursor = cursor at hplace
    obtain ⟨hlayout, -⟩ := hplace
    rwa [List.append_nil]

theorem Munches.exists_fault {error : LexicalError}
    (h : Munches source scanner (.error error) next) :
    ∃ before text, source = before ++ text ∧ NoMatch text ∧
      IsFault (utf8Length before) (utf8Length source) text error := by
  cases h with
  | fault hplace hnone herror =>
    rename_i start text _ _
    generalize scanner.cursor = cursor at hplace
    cases hplace with
    | mk =>
      rename_i before layout _ _
      rw [← utf8Length_append] at herror
      exact ⟨before ++ layout, text, (List.append_assoc _ _ _).symm, hnone, herror⟩

end Munches

/-! ## What a scan does -/

namespace Cursor

variable {source : List Char} {cursor : Cursor}

theorem rest_skipLayout (cursor : Cursor) :
    cursor.skipLayout.rest = cursor.rest.dropWhile isLayout := by
  rw [skipLayout, rest_advance, drop_runLength]

theorem IsIn.skips (h : cursor.IsIn source) :
    Skips source cursor cursor.skipLayout.offset cursor.skipLayout.rest := by
  obtain ⟨before, rfl, hoffset⟩ := h
  have hlayout : ∀ c ∈ cursor.rest.takeWhile isLayout, isLayout c = true :=
    List.all_eq_true.mp List.all_takeWhile
  have hskips := @Skips.mk before _ _ hlayout (endsRun_dropWhile isLayout cursor.rest)
  rw [List.takeWhile_append_dropWhile, ← hoffset] at hskips
  rwa [rest_skipLayout, skipLayout, Cursor.advance, take_runLength]

theorem scan_of_nil (h : cursor.skipLayout.rest = []) :
    cursor.scan = (none, cursor.skipLayout) := by
  unfold scan
  split
  · rfl
  · next heq =>
    rw [h] at heq
    cases heq

theorem scan_of_lexeme {token : Token} {n : Nat}
    (h : lexemeAt? cursor.skipLayout.rest = some (token, n)) :
    cursor.scan =
      (some (.ok ⟨token, ⟨cursor.skipLayout.offset, (cursor.skipLayout.advance n).offset⟩⟩),
        cursor.skipLayout.advance n) := by
  unfold scan
  split
  · next heq =>
    rw [heq] at h
    cases h
  · simp only [pieceAt, h]

/-- Without a lexeme there is a fault, and scanning goes on somewhere behind it. -/
theorem exists_scan_of_fault {first : Char} {rest : List Char}
    (hrest : cursor.skipLayout.rest = first :: rest)
    (h : lexemeAt? cursor.skipLayout.rest = none) :
    ∃ error n, cursor.scan = (some (.error error), cursor.skipLayout.advance n) ∧
      IsFault cursor.skipLayout.offset cursor.skipLayout.finish (first :: rest) error := by
  unfold scan
  split
  · next heq =>
    rw [hrest] at heq
    cases heq
  · next first' rest' heq =>
    obtain ⟨rfl, rfl⟩ : first = first' ∧ rest = rest' := List.cons.inj (hrest.symm.trans heq)
    simp only [pieceAt, h]
    cases hquote : isQuote first with
    | true => exact ⟨_, _, rfl, .unterminated hquote⟩
    | false => exact ⟨_, _, rfl, .unrecognized hquote⟩

/-- Wherever a scan goes on, it skips layout and takes a number of characters. -/
theorem exists_scan_eq_advance (cursor : Cursor) :
    ∃ n, cursor.scan.2 = cursor.skipLayout.advance n := by
  unfold scan
  split
  · exact ⟨0, by simp [advance]⟩
  · exact ⟨_, rfl⟩

theorem IsIn.scan (h : cursor.IsIn source) : cursor.scan.2.IsIn source := by
  obtain ⟨n, hn⟩ := cursor.exists_scan_eq_advance
  rw [hn]
  exact (h.advance _).advance n

theorem offset_skipLayout_le_scan (cursor : Cursor) :
    cursor.skipLayout.offset ≤ cursor.scan.2.offset := by
  obtain ⟨n, hn⟩ := cursor.exists_scan_eq_advance
  rw [hn]
  exact offset_le_advance _ n

end Cursor

namespace Scanner

/-- The scanner after a scan, whatever the answer was. -/
def next (scanner : Scanner) : Scanner := scanner.scan.2

/-- The scanner in front of an annotation after a number of scans. -/
def after (source : String) (n : Nat) : Scanner := next^[n] (ofSource source)

theorem after_succ (source : String) (n : Nat) : after source (n + 1) = (after source n).next :=
  Function.iterate_succ_apply' _ _ _

theorem cursor_next (scanner : Scanner) : scanner.next.cursor = scanner.cursor.scan.2 := by
  unfold next scan
  split <;> simp_all

/-- **A scan is maximal munch.** -/
theorem munches {source : List Char} {scanner : Scanner} (h : scanner.cursor.IsIn source) :
    Munches source scanner scanner.scan.1 scanner.next := by
  have hplace := h.skips
  cases hlexeme : lexemeAt? scanner.cursor.skipLayout.rest with
  | some found =>
    obtain ⟨token, n⟩ := found
    obtain ⟨-, hlongest⟩ := longestMatch_take hlexeme
    have hsplit := List.take_append_drop n scanner.cursor.skipLayout.rest
    rw [next, scan, Cursor.scan_of_lexeme hlexeme]
    exact .token (by rwa [hsplit]) (by rwa [hsplit])
  | none =>
    have hnone := lexemeAt?_eq_none_iff.mp hlexeme
    cases hrest : scanner.cursor.skipLayout.rest with
    | nil =>
      rw [hrest] at hplace
      have hcursor : scanner.cursor.skipLayout = ⟨scanner.cursor.skipLayout.offset, []⟩ := by
        rw [← hrest]
      rw [next, scan, Cursor.scan_of_nil hrest, hcursor]
      exact .finished hplace
    | cons first rest =>
      obtain ⟨error, n, hscan, herror⟩ := Cursor.exists_scan_of_fault hrest hlexeme
      have hfinish : scanner.cursor.skipLayout.finish = utf8Length source := (h.advance _).finish_eq
      rw [hrest] at hplace hnone
      rw [hfinish] at herror
      rw [next, scan, hscan]
      exact .fault hplace hnone herror rfl rfl

theorem isIn_next {source : List Char} {scanner : Scanner} (h : scanner.cursor.IsIn source) :
    scanner.next.cursor.IsIn source := by
  rw [cursor_next]
  exact h.scan

theorem isIn_after (source : String) (n : Nat) : (after source n).cursor.IsIn source.toList := by
  induction n with
  | zero => exact Cursor.isIn_atStart _
  | succ n ih =>
    rw [after_succ]
    exact isIn_next ih

theorem munches_after (source : String) (n : Nat) :
    Munches source.toList (after source n) (after source n).scan.1 (after source (n + 1)) := by
  rw [after_succ]
  exact munches (isIn_after source n)

/-- The places of later scans are not in front of those of earlier ones. -/
theorem offset_after_le (source : String) {m n : Nat} (h : m ≤ n) :
    (after source m).cursor.offset ≤ (after source n).cursor.offset := by
  induction h with
  | refl => exact Nat.le_refl _
  | step _ ih =>
    rw [after_succ, cursor_next]
    exact Nat.le_trans ih (Nat.le_trans (Cursor.offset_le_advance _ _)
      (Cursor.offset_skipLayout_le_scan _))

end Scanner

/-! ## Pieces and scans -/

/-- The pieces of an annotation are what the scans find one after the other. -/
theorem Scanner.pieces_eq (scanner : Scanner) :
    scanner.cursor.pieces = match scanner.scan.1 with
      | .ok (some token) => .ok ⟨token, scanner.next.span⟩ :: scanner.next.cursor.pieces
      | .ok none => []
      | .error error => .error error :: scanner.next.cursor.pieces := by
  rw [Cursor.pieces_eq, next, scan]
  cases scanner.cursor.scan with
  | mk found behind => rcases found with _ | (error | ⟨token, span⟩) <;> rfl

namespace Scanner

variable {scanner : Scanner} {rest : List Piece}

theorem scan_of_pieces_nil (h : scanner.cursor.pieces = []) : scanner.scan.1 = .ok none := by
  rw [pieces_eq] at h
  split at h
  · cases h
  · assumption
  · cases h

theorem scan_of_pieces_ok {located : Located} (h : scanner.cursor.pieces = .ok located :: rest) :
    scanner.scan.1 = .ok (some located.token) ∧ scanner.next.span = located.span ∧
      scanner.next.cursor.pieces = rest := by
  rw [pieces_eq] at h
  split at h
  · next heq =>
    cases h
    exact ⟨heq, rfl, rfl⟩
  · cases h
  · cases h

theorem scan_of_pieces_error {error : LexicalError}
    (h : scanner.cursor.pieces = .error error :: rest) : scanner.scan.1 = .error error := by
  rw [pieces_eq] at h
  split at h
  · cases h
  · cases h
  · next heq =>
    cases h
    exact heq

end Scanner

end TypeNotation

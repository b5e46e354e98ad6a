import TypeNotation.Proofs.Grammar.Relocation
import TypeNotation.Proofs.Lexical.MaximalMunch

/-!
# Reading on behind an error

A reading may be followed by another one of the same text, which starts where the first one stopped:
behind the piece that was refused, or at the end. Where that is can be told from the answer alone.
Each reading is one of the text that is left, so a text can only once be read to a type, and since
every reading takes something of what is left, nothing is left after as many readings as there are
characters.
-/

namespace TypeNotation

open Production

/-! ## Strings that are broken off -/

/-- A string literal does not reach into the text: there is none, or a backslash with nothing or a
line feed behind it. -/
inductive BreaksOff : List Char → Prop
  | nil : BreaksOff []
  | lone : BreaksOff ['\\']
  | feed (rest : List Char) : BreaksOff ('\\' :: '\n' :: rest)

/-- A string that is not closed reaches over a body, up to where it breaks off. -/
theorem exists_body_of_open {quote : Char} {text : List Char}
    (h : (stringReach quote text).closed = false) :
    ∃ body rest, text = body ++ rest ∧ IsBody quote body ∧ BreaksOff rest ∧
      (stringReach quote text).length = body.length := by
  induction text using stringReach.induct quote with
  | case1 => exact ⟨[], [], rfl, .nil, .nil, rfl⟩
  | case2 => exact ⟨[], ['\\'], rfl, .nil, .lone, rfl⟩
  | case3 rest => exact ⟨[], '\\' :: '\n' :: rest, rfl, .nil, .feed rest, by simp [stringReach]⟩
  | case4 c rest hfeed ih =>
    rw [stringReach, if_neg hfeed] at h
    obtain ⟨body, rest', rfl, hbody, hbreak, hlength⟩ := ih h
    refine ⟨'\\' :: c :: body, rest', rfl, .escape hfeed hbody, hbreak, ?_⟩
    rw [stringReach, if_neg hfeed, StringReach.behind, hlength]
    rfl
  | case5 rest hlone hpair =>
    rw [stringReach.eq_4 _ _ _ hlone hpair, if_pos rfl] at h
    cases h
  | case6 c rest hlone hpair hne ih =>
    rw [stringReach.eq_4 _ _ _ hlone hpair, if_neg hne] at h ⊢
    obtain ⟨body, rest', rfl, hbody, hbreak, hlength⟩ := ih h
    have hbackslash : c ≠ '\\' := by
      rintro rfl
      cases hrest : body ++ rest' with
      | nil => exact hlone rfl hrest
      | cons second others => exact hpair _ _ rfl hrest
    refine ⟨c :: body, rest', rfl, .plain hne hbackslash hbody, hbreak, ?_⟩
    rw [StringReach.behind, hlength]
    rfl

/-! ## Behind a piece -/

/-- The place is behind the piece: at its end, or where the string that it begins breaks off. -/
inductive IsBehind (source : List Char) : Piece → Cursor → Prop
  | token {located : Located} {next : Cursor} (hstop : next.offset = located.span.stop) :
      IsBehind source (.ok located) next
  | character {c : Char} {span : Span} {next : Cursor} (hstop : next.offset = span.stop) :
      IsBehind source (.error (.unrecognizedCharacter c span)) next
  | string {quote : Char} {before body rest : List Char}
      (hsource : source = before ++ quote :: (body ++ rest)) (hquote : isQuote quote = true)
      (hbody : IsBody quote body) (hbreak : BreaksOff rest) :
      IsBehind source (.error (.unterminatedString ⟨utf8Length before, utf8Length source⟩))
        ⟨utf8Length (before ++ quote :: body), rest⟩

namespace Cursor

variable {source : List Char} {cursor next : Cursor}

/-- A fault is passed over up to where a next piece may begin. -/
theorem isBehind_fault {first : Char} {rest : List Char} (h : cursor.IsIn source)
    (hrest : cursor.rest = first :: rest) (hnone : lexemeAt? cursor.rest = none) :
    IsBehind source (cursor.pieceAt first).1 (cursor.advance (cursor.pieceAt first).2) := by
  obtain ⟨before, hsource, hoffset⟩ := h
  have hfinish : cursor.finish = utf8Length source := IsIn.finish_eq ⟨before, hsource, hoffset⟩
  unfold pieceAt
  rw [hnone]
  dsimp only
  by_cases hquote : isQuote first = true
  · rw [if_pos hquote, hfinish, hoffset, hrest, List.drop_one, List.tail_cons]
    have hopen : (stringReach first rest).closed = false := by
      by_contra hclosed
      obtain ⟨body, rest', rfl, hbody⟩ := exists_body_of_closed (Bool.not_eq_false _ ▸ hclosed)
      have hsplit : first :: (body ++ first :: rest') = first :: (body ++ [first]) ++ rest' := by
        simp
      rw [hrest, hsplit, lexemeAt?_string hquote hbody] at hnone
      cases hnone
    obtain ⟨body, rest', rfl, hbody, hbreak, hlength⟩ := exists_body_of_open hopen
    have hnext : cursor.advance (1 + body.length) =
        ⟨utf8Length (before ++ first :: body), rest'⟩ := by
      rw [advance, hrest, hoffset, Nat.add_comm 1, List.take_succ_cons, List.drop_succ_cons,
        List.take_left, List.drop_left, utf8Length_append]
    rw [hlength, hnext]
    rw [hrest] at hsource
    exact .string hsource hquote hbody hbreak
  · rw [if_neg hquote]
    refine .character ?_
    rw [advance, hrest]
    rfl

theorem IsIn.isBehind {piece : Piece} (h : cursor.IsIn source)
    (hscan : cursor.scan = (some piece, next)) : IsBehind source piece next := by
  cases hlexeme : lexemeAt? cursor.skipLayout.rest with
  | some found =>
    obtain ⟨token, n⟩ := found
    rw [scan_of_lexeme hlexeme] at hscan
    cases hscan
    exact .token rfl
  | none =>
    cases hrest : cursor.skipLayout.rest with
    | nil =>
      rw [scan_of_nil hrest] at hscan
      cases hscan
    | cons first rest =>
      have hfault := isBehind_fault (h.advance _) hrest hlexeme
      unfold Cursor.scan at hscan
      rw [hrest] at hscan
      cases hscan
      exact hfault

/-! ## Behind several pieces -/

theorem scan_of_pieces_nil (h : cursor.pieces = []) : cursor.scan.2 = ⟨cursor.finish, []⟩ := by
  rw [pieces_eq] at h
  cases hrest : cursor.skipLayout.rest with
  | nil =>
    have hfinish : cursor.skipLayout.finish = cursor.finish := finish_advance _ _
    rw [scan_of_nil hrest, ← hfinish, finish, hrest]
    change cursor.skipLayout = ⟨cursor.skipLayout.offset + 0, []⟩
    rw [← hrest]
    rfl
  | cons first rest =>
    unfold scan at h
    rw [hrest] at h
    cases h

theorem scan_of_pieces_cons {piece : Piece} {rest : List Piece}
    (h : cursor.pieces = piece :: rest) :
    cursor.scan = (some piece, cursor.scan.2) ∧ cursor.scan.2.pieces = rest := by
  rw [pieces_eq] at h
  cases hscan : cursor.scan with
  | mk found behind =>
    rw [hscan] at h
    cases found with
    | none => cases h
    | some found =>
      cases h
      exact ⟨rfl, rfl⟩

theorem skipPieces_succ (cursor : Cursor) (n : Nat) :
    cursor.skipPieces (n + 1) = (cursor.skipPieces n).scan.2 := by
  induction n generalizing cursor with
  | zero => rfl
  | succ n ih =>
    rw [skipPieces, ih]
    rfl

theorem IsIn.skipPieces (h : cursor.IsIn source) (n : Nat) :
    (cursor.skipPieces n).IsIn source := by
  induction n with
  | zero => exact h
  | succ n ih =>
    rw [skipPieces_succ]
    exact ih.scan

theorem pieces_skipPieces {before rest : List Piece} (h : cursor.pieces = before ++ rest) :
    (cursor.skipPieces before.length).pieces = rest := by
  induction before generalizing cursor with
  | nil => exact h
  | cons piece before ih => exact ih (scan_of_pieces_cons h).2

end Cursor

/-! ## Where a reading stops -/

/-- The place where a reading stops that has the answer: at the end, or behind the refused piece. -/
inductive StopsBehind (source : List Char) : Except SyntaxError TypeExpr → Cursor → Prop
  | type {t : TypeExpr} : StopsBehind source (.ok t) ⟨utf8Length source, []⟩
  | finish {expected : String} :
      StopsBehind source
        (.error (.unexpectedEnd expected ⟨utf8Length source, utf8Length source⟩))
        ⟨utf8Length source, []⟩
  | token {expected : String} {located : Located} {next : Cursor}
      (hbehind : IsBehind source (.ok located) next) :
      StopsBehind source
        (.error (.unexpectedToken expected located.token.describe located.span)) next
  | fault {error : LexicalError} {next : Cursor} (hbehind : IsBehind source (.error error) next) :
      StopsBehind source (.error (.lexical error)) next

namespace Cursor

variable {source : List Char} {cursor : Cursor}

/-- A reading stops where its answer tells. -/
theorem IsIn.stopsBehind (h : cursor.IsIn source) :
    StopsBehind source cursor.read.result cursor.read.next := by
  have hend {before : List Piece} (hpieces : cursor.pieces = before ++ []) :
      cursor.skipPieces (before.length + 1) = ⟨utf8Length source, []⟩ := by
    rw [skipPieces_succ, scan_of_pieces_nil (pieces_skipPieces hpieces),
      (h.skipPieces _).finish_eq]
  cases hread : whole cursor.pieces with
  | ok answer =>
    obtain ⟨t, rest⟩ := answer
    obtain rfl := eq_nil_of_whole hread
    obtain ⟨hresult, hnext⟩ := read_of_ok hread
    rw [hresult, hnext, hend (List.append_nil _).symm]
    exact .type
  | error refusal =>
    obtain ⟨expected, remaining⟩ := refusal
    obtain ⟨hresult, hnext⟩ := read_of_error hread
    obtain ⟨consumed, hsplit, -⟩ := (recognizes_whole _).refused (Nat.lt_succ_self _) hread
    dsimp only at hnext hsplit
    have hcount : cursor.pieces.length - remaining.length = (piecesOf consumed).length := by
      rw [hsplit, List.length_append, Nat.add_sub_cancel]
    rw [hresult, hnext, hcount, h.finish_eq]
    cases remaining with
    | nil =>
      rw [hend hsplit]
      exact .finish
    | cons piece rest =>
      have hbehind := (h.skipPieces _).isBehind (scan_of_pieces_cons (pieces_skipPieces hsplit)).1
      rw [skipPieces_succ]
      cases piece with
      | ok located => exact .token hbehind
      | error error => exact .fault hbehind

/-! ## One reading after the other -/

/-- Where the reading starts that comes after `n` others. -/
def afterReadings (cursor : Cursor) (n : Nat) : Cursor := (fun place ↦ place.read.next)^[n] cursor

theorem afterReadings_succ (cursor : Cursor) (n : Nat) :
    cursor.afterReadings (n + 1) = (cursor.afterReadings n).read.next :=
  Function.iterate_succ_apply' _ _ _

theorem readTimes_eq (cursor : Cursor) (n : Nat) :
    cursor.readTimes n = (List.range n).map fun k ↦ (cursor.afterReadings k).read.result := by
  induction n generalizing cursor with
  | zero => rfl
  | succ n ih =>
    rw [readTimes, ih, List.range_succ_eq_map, List.map_cons, List.map_map]
    rfl

theorem exists_read_next_eq (cursor : Cursor) :
    ∃ n, cursor.read.next = cursor.skipPieces (n + 1) := by
  cases hread : whole cursor.pieces with
  | ok answer =>
    obtain ⟨t, rest⟩ := answer
    obtain rfl := eq_nil_of_whole hread
    exact ⟨_, (read_of_ok hread).2⟩
  | error refusal => exact ⟨_, (read_of_error hread).2⟩

theorem IsIn.afterReadings (h : cursor.IsIn source) (n : Nat) :
    (cursor.afterReadings n).IsIn source := by
  induction n with
  | zero => exact h
  | succ n ih =>
    obtain ⟨k, hk⟩ := exists_read_next_eq (cursor.afterReadings n)
    rw [afterReadings_succ, hk]
    exact ih.skipPieces (k + 1)

/-! ## Progress -/

theorem advance_advance (cursor : Cursor) (m n : Nat) :
    (cursor.advance m).advance n = cursor.advance (m + n) := by
  simp only [advance, List.take_add, utf8Length_append, List.drop_drop, Nat.add_assoc]

theorem exists_skipPieces_eq_advance (cursor : Cursor) (n : Nat) :
    ∃ m, cursor.skipPieces n = cursor.advance m := by
  induction n with
  | zero => exact ⟨0, by simp [skipPieces, advance]⟩
  | succ n ih =>
    obtain ⟨m, hm⟩ := ih
    obtain ⟨k, hk⟩ := (cursor.skipPieces n).exists_scan_eq_advance
    rw [skipPieces_succ, hk, hm, skipLayout, advance_advance, advance_advance]
    exact ⟨_, rfl⟩

theorem length_rest_scan_lt (h : cursor.rest ≠ []) :
    cursor.scan.2.rest.length < cursor.rest.length := by
  cases hscan : cursor.scan with
  | mk found next =>
    cases found with
    | some piece => exact length_scan_lt hscan
    | none =>
      have hpieces : cursor.pieces = [] := by rw [pieces_eq, hscan]
      have hnext := scan_of_pieces_nil hpieces
      rw [hscan] at hnext
      obtain rfl : next = _ := hnext
      exact List.length_pos_of_ne_nil h

/-- As long as text is left, a reading takes some of it. -/
theorem exists_read_next_eq_advance (cursor : Cursor) :
    ∃ m, cursor.read.next = cursor.advance m ∧ (cursor.rest ≠ [] → 0 < m) := by
  obtain ⟨n, hn⟩ := cursor.exists_read_next_eq
  obtain ⟨m, hm⟩ := cursor.exists_skipPieces_eq_advance (n + 1)
  obtain ⟨k, hk⟩ := cursor.scan.2.exists_skipPieces_eq_advance n
  refine ⟨m, hn.trans hm, fun hne ↦ ?_⟩
  have hlt := length_rest_scan_lt hne
  have hrest : cursor.rest.drop m = cursor.scan.2.rest.drop k := by
    rw [← rest_advance, ← rest_advance, ← hm, ← hk]
    rfl
  have hlength := congrArg List.length hrest
  rw [List.length_drop, List.length_drop] at hlength
  omega

theorem offset_lt_read_next (h : cursor.rest ≠ []) : cursor.offset < cursor.read.next.offset := by
  obtain ⟨m, hm, hpos⟩ := cursor.exists_read_next_eq_advance
  have htake : cursor.rest.take m ≠ [] := by
    rw [Ne, List.take_eq_nil_iff, not_or]
    exact ⟨Nat.ne_of_gt (hpos h), h⟩
  rw [hm, advance]
  exact Nat.lt_add_of_pos_right (utf8Length_pos htake)

/-- Every reading takes a character at least, until none is left. -/
theorem length_rest_afterReadings_le (cursor : Cursor) (n : Nat) :
    (cursor.afterReadings n).rest.length ≤ cursor.rest.length - n := by
  induction n with
  | zero => exact Nat.le_refl _
  | succ n ih =>
    obtain ⟨m, hm, hpos⟩ := (cursor.afterReadings n).exists_read_next_eq_advance
    rw [afterReadings_succ, hm, rest_advance, List.length_drop]
    by_cases hrest : (cursor.afterReadings n).rest = []
    · rw [hrest, List.length_nil]
      omega
    · have := hpos hrest
      omega

theorem rest_afterReadings_eq_nil {m n : Nat} (hmn : m ≤ n)
    (h : (cursor.afterReadings m).rest = []) : (cursor.afterReadings n).rest = [] := by
  induction hmn with
  | refl => exact h
  | step _ ih =>
    obtain ⟨k, hk, -⟩ := exists_read_next_eq_advance (cursor.afterReadings _)
    rw [afterReadings_succ, hk, rest_advance, ih, List.drop_nil]

/-- Where no text is left, a type is missing. -/
theorem result_read_of_rest_eq_nil (h : cursor.IsIn source) (hrest : cursor.rest = []) :
    cursor.read.result = .error (.unexpectedEnd "type" ⟨utf8Length source, utf8Length source⟩) := by
  have hpieces : cursor.pieces = [] := by
    obtain ⟨offset, rest⟩ := cursor
    obtain rfl : rest = [] := hrest
    exact pieces_nil offset
  have hwhole : whole cursor.pieces = .error ⟨.type, []⟩ := by
    rw [hpieces, whole, andThen_of_error (type_refused fun _ _ heq ↦ by cases heq)]
  rw [(read_of_error hwhole).1, h.finish_eq]
  rfl

end Cursor

theorem StopsBehind.rest_eq_nil {source : List Char} {t : TypeExpr} {next : Cursor}
    (h : StopsBehind source (.ok t) next) : next.rest = [] := by
  cases h
  rfl

/-- **Readings one after the other are readings of what is left.** Each reading starts where the one
before it stopped: at the end of the text after a type or an unexpected end, and otherwise behind
the token or the fault that was refused. What comes of it is what comes of the text from there on,
with the places counted from the front. So at most one reading gives a type; each one takes
something as long as something is left; and after as many readings as there are characters, all
further ones miss a type at the end. -/
theorem readings_of_suffixes (source : String) :
    let start := Cursor.atStart source.toList
    (∀ n, start.readTimes n = (List.range n).map fun k ↦ (start.afterReadings k).read.result) ∧
    (∀ n, (start.afterReadings n).read.result =
      (parse (String.ofList (start.afterReadings n).rest)).mapError
        (·.shift (start.afterReadings n).offset)) ∧
    (∀ n, (start.afterReadings n).IsIn source.toList ∧
      StopsBehind source.toList (start.afterReadings n).read.result
        (start.afterReadings (n + 1))) ∧
    (∀ m n t t', (start.afterReadings m).read.result = .ok t →
      (start.afterReadings n).read.result = .ok t' → m = n) ∧
    (∀ n, (start.afterReadings n).offset < source.utf8ByteSize →
      (start.afterReadings n).offset < (start.afterReadings (n + 1)).offset) ∧
    ∀ n, source.length ≤ n → (start.afterReadings n).read.result =
      .error (.unexpectedEnd "type" ⟨source.utf8ByteSize, source.utf8ByteSize⟩) := by
  intro start
  have hin (n : Nat) : (start.afterReadings n).IsIn source.toList :=
    (Cursor.isIn_atStart _).afterReadings n
  have hstops (n : Nat) : StopsBehind source.toList (start.afterReadings n).read.result
      (start.afterReadings (n + 1)) := by
    rw [Cursor.afterReadings_succ]
    exact (hin n).stopsBehind
  have hend (n : Nat) (h : (start.afterReadings n).rest = []) :
      (start.afterReadings n).read.result =
        .error (.unexpectedEnd "type" ⟨source.utf8ByteSize, source.utf8ByteSize⟩) := by
    rw [Cursor.result_read_of_rest_eq_nil (hin n) h, utf8Length_toList]
  have honce (m n : Nat) (t t' : TypeExpr) (h : (start.afterReadings m).read.result = .ok t)
      (h' : (start.afterReadings n).read.result = .ok t') : ¬m < n := by
    intro hlt
    have hrest : (start.afterReadings (m + 1)).rest = [] := (h ▸ hstops m).rest_eq_nil
    rw [hend n (Cursor.rest_afterReadings_eq_nil hlt hrest)] at h'
    cases h'
  refine ⟨start.readTimes_eq, fun n ↦ Cursor.result_read_eq _, fun n ↦ ⟨hin n, hstops n⟩,
    fun m n t t' h h' ↦ ?_, fun n hlt ↦ ?_, fun n hle ↦ hend n ?_⟩
  · exact Nat.le_antisymm (Nat.le_of_not_lt (honce n m t' t h' h))
      (Nat.le_of_not_lt (honce m n t t' h h'))
  · rw [Cursor.afterReadings_succ]
    refine Cursor.offset_lt_read_next fun hrest ↦ ?_
    have hfinish := (hin n).finish_eq
    rw [Cursor.finish, hrest, utf8Length_nil, utf8Length_toList] at hfinish
    omega
  · have hlength := start.length_rest_afterReadings_le n
    have hstart : start.rest.length = source.length := String.length_toList
    exact List.eq_nil_of_length_eq_zero (by omega)

end TypeNotation

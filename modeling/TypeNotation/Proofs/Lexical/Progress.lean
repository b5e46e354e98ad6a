import TypeNotation.Proofs.Lexical.MaximalMunch

/-!
# Scans make progress

A scan that finds something takes it: the place of the scanner moves on, and behind it another
character of the annotation begins or none. A scan that finds nothing has nothing but layout in
front of it, and from then on every scan finds nothing. So scanning until nothing is found comes to
an end, and that is how an annotation is tokenized.
-/

namespace TypeNotation

namespace Cursor

variable {cursor next : Cursor}

/-- A piece is behind the place that was looked at, by what it takes at least. -/
theorem offset_lt_of_scan {piece : Piece} (h : cursor.scan = (some piece, next)) :
    cursor.offset < next.offset := by
  unfold scan at h
  split at h
  · cases h
  · next first rest hrest =>
    cases h
    have htake : cursor.skipLayout.rest.take (cursor.skipLayout.pieceAt first).2 ≠ [] := by
      rw [Ne, List.take_eq_nil_iff, not_or, hrest]
      exact ⟨Nat.ne_of_gt (pieceAt_pos _ _), List.cons_ne_nil _ _⟩
    calc cursor.offset ≤ cursor.skipLayout.offset := offset_le_advance _ _
      _ < _ := Nat.lt_add_of_pos_right (utf8Length_pos htake)

theorem rest_of_scan_none (h : cursor.scan.1 = none) : cursor.scan.2.rest = [] := by
  unfold scan at h ⊢
  split
  · assumption
  · next hrest =>
    rw [hrest] at h
    cases h

theorem scan_of_rest_nil (h : cursor.rest = []) : cursor.scan.1 = none := by
  have hskip : cursor.skipLayout.rest = [] := by rw [rest_skipLayout, h, List.dropWhile_nil]
  rw [scan_of_nil hskip]

theorem finish_scan (cursor : Cursor) : cursor.scan.2.finish = cursor.finish := by
  obtain ⟨n, hn⟩ := cursor.exists_scan_eq_advance
  rw [hn, finish_advance, skipLayout, finish_advance]

theorem IsIn.offset_le {source : List Char} (h : cursor.IsIn source) :
    cursor.offset ≤ utf8Length source := by
  rw [← h.finish_eq]
  exact Nat.le_add_right _ _

end Cursor

namespace Scanner

variable {scanner : Scanner}

theorem scan_eq_none_iff : scanner.scan.1 = .ok none ↔ scanner.cursor.scan.1 = none := by
  rw [scan]
  rcases scanner.cursor.scan with ⟨_ | (fault | located), next⟩ <;> simp

/-- A scan that finds something moves on. -/
theorem offset_lt_next (h : scanner.scan.1 ≠ .ok none) :
    scanner.cursor.offset < scanner.next.cursor.offset := by
  rw [Ne, scan_eq_none_iff] at h
  obtain ⟨piece, hpiece⟩ := Option.ne_none_iff_exists'.mp h
  rw [cursor_next]
  exact Cursor.offset_lt_of_scan (Prod.ext hpiece rfl)

/-- Where nothing is found, nothing is found again. -/
theorem scan_next_of_none (h : scanner.scan.1 = .ok none) : scanner.next.scan.1 = .ok none := by
  rw [scan_eq_none_iff] at h ⊢
  rw [cursor_next]
  exact Cursor.scan_of_rest_nil (Cursor.rest_of_scan_none h)

theorem scan_iterate_of_none (h : scanner.scan.1 = .ok none) (n : Nat) :
    (next^[n] scanner).scan.1 = .ok none := by
  induction n with
  | zero => exact h
  | succ n ih =>
    rw [Function.iterate_succ_apply']
    exact scan_next_of_none ih

theorem finish_next (scanner : Scanner) : scanner.next.cursor.finish = scanner.cursor.finish := by
  rw [cursor_next, Cursor.finish_scan]

theorem finish_iterate_next (scanner : Scanner) (n : Nat) :
    (next^[n] scanner).cursor.finish = scanner.cursor.finish := by
  induction n with
  | zero => rfl
  | succ n ih => rw [Function.iterate_succ_apply', finish_next, ih]

/-- At the end of the text a scanner holds no token, and the empty place there. -/
theorem next_of_none (h : scanner.scan.1 = .ok none) :
    scanner.next = ⟨⟨scanner.cursor.finish, []⟩, none,
      ⟨scanner.cursor.finish, scanner.cursor.finish⟩⟩ := by
  rw [scan_eq_none_iff] at h
  have hrest := Cursor.rest_of_scan_none h
  have hoffset : scanner.cursor.scan.2.offset = scanner.cursor.finish := by
    rw [← scanner.cursor.finish_scan, Cursor.finish, hrest]
    rfl
  rw [next, scan]
  cases hscan : scanner.cursor.scan with
  | mk found behind =>
    rw [hscan] at h hrest hoffset
    obtain rfl : found = none := h
    obtain ⟨offset, rest⟩ := behind
    obtain rfl : rest = [] := hrest
    obtain rfl : offset = _ := hoffset
    rfl

/-- A scan moves on, to a place between two characters of the text. -/
structure MovesOn (scanner : Scanner) (source : List Char) : Prop where
  lt : scanner.cursor.offset < scanner.next.cursor.offset
  isIn : scanner.next.cursor.IsIn source
  le : scanner.next.cursor.offset ≤ utf8Length source

/-- There is nothing but layout left: this scan finds the end of the text, at its place, and so do
all that come later. -/
structure IsAtEnd (scanner : Scanner) (source : List Char) : Prop where
  layout : ∀ c ∈ scanner.cursor.rest, isLayout c = true
  ends : ∀ n, (next^[n] scanner).scan.1 = .ok none ∧ (next^[n] scanner).next =
    ⟨⟨utf8Length source, []⟩, none, ⟨utf8Length source, utf8Length source⟩⟩

theorem movesOn_or_isAtEnd {source : List Char} (hin : scanner.cursor.IsIn source) :
    scanner.MovesOn source ∨ scanner.IsAtEnd source := by
  by_cases h : scanner.scan.1 = .ok none
  · refine .inr ⟨(h ▸ munches hin).isLayout_rest, fun n ↦ ?_⟩
    have hnone := scan_iterate_of_none h n
    refine ⟨hnone, ?_⟩
    rw [next_of_none hnone, finish_iterate_next, hin.finish_eq]
  · exact .inl ⟨offset_lt_next h, isIn_next hin, (isIn_next hin).offset_le⟩

end Scanner

/-! ## Tokenizing -/

namespace Scanner

/-- Scans until nothing is found and collects the tokens behind those given. Without a bound on the
number of scans this has a result only if it comes to an end. -/
def collect (scanner : Scanner) (tokens : List Located) :
    Option (Except LexicalError (List Located)) :=
  match scanner.scan.1 with
  | .error fault => some (.error fault)
  | .ok none => some (.ok tokens)
  | .ok (some token) => scanner.next |>.collect (tokens ++ [⟨token, scanner.next.span⟩])
partial_fixpoint

theorem collect_eq (scanner : Scanner) (tokens : List Located) :
    scanner.collect tokens = some ((scanner.cursor.pieces.mapM id).map (tokens ++ ·)) := by
  induction hpieces : scanner.cursor.pieces generalizing scanner tokens with
  | nil =>
    rw [collect, scan_of_pieces_nil hpieces, List.mapM_nil]
    change some (Except.ok tokens) = some (Except.ok (tokens ++ []))
    rw [List.append_nil]
  | cons piece pieces ih =>
    cases piece with
    | error fault =>
      rw [collect, scan_of_pieces_error hpieces, List.mapM_cons]
      rfl
    | ok located =>
      obtain ⟨hscan, hspan, hnext⟩ := scan_of_pieces_ok hpieces
      rw [collect, hscan, hspan]
      simp only
      rw [ih _ _ hnext, List.mapM_cons]
      cases h : pieces.mapM id with
      | error fault => rfl
      | ok others =>
        change some (Except.ok (tokens ++ [located] ++ others)) =
          some (Except.ok (tokens ++ located :: others))
        rw [List.append_assoc, List.singleton_append]

/-- Tokenizing is scanning until nothing is found. -/
theorem collect_ofSource (source : String) :
    (ofSource source).collect [] = some (tokenize source) := by
  rw [collect_eq]
  change some (Except.map ([] ++ ·) (tokenize source)) = _
  cases tokenize source <;> rfl

end Scanner

end TypeNotation

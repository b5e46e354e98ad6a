import TypeNotation.Proofs.Canonical.Files
import TypeNotation.Proofs.Grammar.ViablePrefix

/-!
# Lines that a check passes over

A check passes over a line if there is nothing but white space in front of its end or of a `#`, and
there it takes white space in the sense of Unicode. The notation only knows the five characters of
its layout. So the lines that are blank or comments for the notation are passed over, but also those
where another blank stands behind the layout. A token never begins with such a blank: as an
annotation the line would be an error of just that character. These hidden lines are all that a
successful check has not looked at.
-/

namespace TypeNotation

/-! ## Blanks -/

theorem isVisible_of_punctuationAt? {c : Char} {rest : List Char} {found : Symbol × Nat}
    (h : punctuationAt? (c :: rest) = some found) : IsVisible c ∨ c = '→' := by
  unfold punctuationAt? at h
  split at h
  -- each mark says what the first character is, and without a mark nothing is found
  all_goals
    first
    | next heq =>
        obtain ⟨rfl, -⟩ := List.cons.inj heq
        decide
    | cases h

/-- All characters that a token can begin with are to be seen, and but for the arrow they are
ASCII. -/
theorem isVisible_of_lexemeAt? {c : Char} {rest : List Char} {found : Token × Nat}
    (h : lexemeAt? (c :: rest) = some found) : IsVisible c ∨ c = '→' := by
  rw [lexemeAt?] at h
  split at h
  · next hstart =>
    have hword : IsWord [c] := .mk hstart (List.forall_mem_nil _)
    exact .inl (isVisible_of_isIdentifierPart (hword.isIdentifierPart c List.mem_cons_self))
  · split at h
    · next hquote =>
      simp only [isQuote, Bool.or_eq_true, decide_eq_true_eq] at hquote
      rcases hquote with rfl | rfl
      · exact .inl (by decide)
      · exact .inl (by decide)
    · split at h
      · obtain ⟨_, hpunctuation, -⟩ := Option.map_eq_some_iff.mp h
        exact isVisible_of_punctuationAt? hpunctuation
      · next n hn =>
        obtain ⟨first, others, htake, hfirst⟩ := (isNumber_take hn).exists_cons
        obtain ⟨rfl, -⟩ := List.cons.inj htake
        rcases hfirst with hdigit | rfl
        · exact .inl (isVisible_of_isDigit hdigit)
        · exact .inl (by decide)

theorem lexemeAt?_of_isBlank {c : Char} (h : isBlank c = true) (rest : List Char) :
    lexemeAt? (c :: rest) = none := by
  refine Option.eq_none_iff_forall_not_mem.mpr fun found hfound ↦ ?_
  rcases isVisible_of_lexemeAt? hfound with hvisible | rfl
  · rw [hvisible.not_isBlank] at h
    cases h
  · cases h

/-! ## Layout and what is behind it -/

theorem pieces_eq_nil_iff {text : List Char} :
    pieces (String.ofList text) = [] ↔ text.dropWhile isLayout = [] := by
  have hrest : (Cursor.atStart text).skipLayout.rest = text.dropWhile isLayout :=
    Cursor.rest_skipLayout _
  rw [pieces, String.toList_ofList, Cursor.pieces_eq]
  constructor
  · intro h
    cases hbehind : text.dropWhile isLayout with
    | nil => rfl
    | cons c rest =>
      rw [hbehind] at hrest
      simp only [Cursor.scan, hrest] at h
      cases h
  · intro h
    rw [h] at hrest
    rw [Cursor.scan_of_nil hrest]

/-- An annotation is free of tokens and errors exactly if it is all layout. -/
theorem tokenize_eq_nil_iff {text : List Char} :
    tokenize (String.ofList text) = .ok [] ↔ text.dropWhile isLayout = [] :=
  tokenize_eq_ok_iff.trans pieces_eq_nil_iff

/-- A character behind the layout that begins no token and no string is the first piece. -/
theorem exists_pieces_of_unknown {layout rest : List Char} {c : Char}
    (hlayout : ∀ d ∈ layout, isLayout d = true) (hc : isLayout c = false)
    (hquote : isQuote c = false) (hnone : lexemeAt? (c :: rest) = none) :
    ∃ behind, pieces (String.ofList (layout ++ c :: rest)) =
      .error (.unrecognizedCharacter c
        ⟨utf8Length layout, utf8Length layout + c.utf8Size⟩) :: behind := by
  have hskip : (Cursor.atStart (layout ++ c :: rest)).skipLayout =
      ⟨utf8Length layout, c :: rest⟩ := by
    rw [Cursor.skipLayout, Cursor.atStart, runLength_append hlayout (endsRun_cons.mpr hc),
      Cursor.advance, List.take_left, List.drop_left, Nat.zero_add]
  have hrest : (Cursor.atStart (layout ++ c :: rest)).skipLayout.rest = c :: rest :=
    congrArg Cursor.rest hskip
  rw [← hrest] at hnone
  obtain ⟨error, n, hscan, hfault⟩ := Cursor.exists_scan_of_fault hrest hnone
  rw [hskip] at hfault
  rw [pieces, String.toList_ofList, Cursor.pieces_eq, hscan]
  cases hfault with
  | unterminated hopens =>
    rw [hquote] at hopens
    cases hopens
  | unrecognized => exact ⟨_, rfl⟩

/-! ## Skipped lines -/

namespace SourceLine

/-- The line is blank or a comment for the notation: behind its layout there is nothing, or a
`#`. -/
def IsVoid (line : SourceLine) : Prop :=
  line.content.dropWhile isLayout = [] ∨ ∃ rest, line.content.dropWhile isLayout = '#' :: rest

/-- Behind its layout the line goes on with a blank that is none, at the given place, and then with
nothing but blanks up to its end or a `#`. -/
inductive Hides (line : SourceLine) : Char → Span → Prop
  | mk {layout rest : List Char} {c : Char} (hcontent : line.content = layout ++ c :: rest)
      (hlayout : ∀ d ∈ layout, isLayout d = true) (hblank : isBlank c = true)
      (hforeign : isLayout c = false)
      (hbehind : ∀ d ∈ (rest.dropWhile isBlank).head?, d = '#') :
      Hides line c ⟨utf8Length layout, utf8Length layout + c.utf8Size⟩

variable {line : SourceLine} {c : Char} {span : Span}

theorem isSkipped_iff_head? :
    line.isSkipped = true ↔ ∀ d ∈ (line.content.dropWhile isBlank).head?, d = '#' := by
  rw [isSkipped]
  cases line.content.dropWhile isBlank with
  | nil => simp
  | cons d rest => simp

/-- Layout is blank, so it may as well be dropped first. -/
theorem dropWhile_isBlank_dropWhile_isLayout (text : List Char) :
    (text.dropWhile isLayout).dropWhile isBlank = text.dropWhile isBlank := by
  have hblank : ∀ d ∈ text.takeWhile isLayout, isBlank d = true := fun d hd ↦
    isBlank_of_isLayout (List.mem_takeWhile_imp hd)
  have hdrop : (text.takeWhile isLayout ++ text.dropWhile isLayout).dropWhile isBlank =
      (text.dropWhile isLayout).dropWhile isBlank := List.dropWhile_append_of_pos hblank
  rw [← hdrop, List.takeWhile_append_dropWhile]

/-- Lines that hide something are not void, since they go on behind the layout with no `#`. -/
theorem Hides.not_isVoid (h : line.Hides c span) : ¬line.IsVoid := by
  obtain ⟨hcontent, hlayout, hblank, hforeign, -⟩ := h
  rw [IsVoid, hcontent, List.dropWhile_append_of_pos hlayout,
    List.dropWhile_cons_of_neg (by rw [hforeign]; decide)]
  rintro (hnil | ⟨rest, hcomment⟩)
  · cases hnil
  · cases hcomment
    cases hblank

/-- A line is skipped if it is void, or else if it hides something. -/
theorem isSkipped_iff_isVoid_or_hides :
    line.isSkipped = true ↔ line.IsVoid ∨ ∃ c span, line.Hides c span := by
  rw [isSkipped_iff_head?, ← dropWhile_isBlank_dropWhile_isLayout, IsVoid]
  cases hrest : line.content.dropWhile isLayout with
  | nil => simp
  | cons c rest =>
    have hforeign : isLayout c = false := endsRun_cons.mp (hrest ▸ endsRun_dropWhile isLayout _)
    have hsplit := List.takeWhile_append_dropWhile (p := isLayout) (l := line.content)
    rw [hrest] at hsplit
    have hlayout : ∀ d ∈ line.content.takeWhile isLayout, isLayout d = true := fun d ↦
      List.mem_takeWhile_imp
    constructor
    · intro h
      by_cases hblank : isBlank c = true
      · rw [List.dropWhile_cons_of_pos hblank] at h
        exact .inr ⟨_, _, .mk hsplit.symm hlayout hblank hforeign h⟩
      · rw [List.dropWhile_cons_of_neg hblank] at h
        obtain rfl : c = '#' := h c rfl
        exact .inl (.inr ⟨rest, rfl⟩)
    · rintro ((hnil | ⟨rest', hcomment⟩) | ⟨c', span, hhides⟩)
      · cases hnil
      · cases hcomment
        rw [List.dropWhile_cons_of_neg (by decide)]
        exact fun d hd ↦ (Option.mem_some.mp hd).symm
      · obtain ⟨hcontent, hlayout', hblank, hforeign', hbehind⟩ := hhides
        rw [hcontent, List.dropWhile_append_of_pos hlayout',
          List.dropWhile_cons_of_neg (by rw [hforeign']; decide)] at hrest
        obtain ⟨rfl, rfl⟩ := List.cons.inj hrest
        rwa [List.dropWhile_cons_of_pos hblank]

/-- As an annotation, a line that hides something is an error of what it hides. -/
theorem Hides.pieces (h : line.Hides c span) :
    ∃ behind, pieces (String.ofList line.content) =
      .error (.unrecognizedCharacter c span) :: behind := by
  obtain ⟨hcontent, hlayout, hblank, hforeign, -⟩ := h
  rw [hcontent]
  have hquote : isQuote c = false := by
    rw [Bool.eq_false_iff]
    intro hquote
    simp only [isQuote, Bool.or_eq_true, decide_eq_true_eq] at hquote
    rcases hquote with rfl | rfl <;> cases hblank
  exact exists_pieces_of_unknown hlayout hforeign hquote (lexemeAt?_of_isBlank hblank _)

theorem Hides.tokenize (h : line.Hides c span) :
    tokenize (String.ofList line.content) = .error (.unrecognizedCharacter c span) := by
  obtain ⟨behind, hpieces⟩ := h.pieces
  exact tokenize_eq_error_iff.mpr ⟨[], behind, hpieces⟩

theorem Hides.parse (h : line.Hides c span) :
    parse (String.ofList line.content) = .error (.lexical (.unrecognizedCharacter c span)) := by
  obtain ⟨behind, hpieces⟩ := h.pieces
  have hviable : Viable [] := ⟨[.symbol .any], .any, .any⟩
  exact parse_lexical_iff.mpr ⟨[], behind, hpieces, hviable⟩

end SourceLine

/-! ## Checked files -/

/-- A check succeeds if every line that is not skipped is an annotation. -/
theorem code_check_eq_zero_iff {files : Files} {path source : String}
    (h : files path = .ok source.toUTF8) (verbose : Bool) :
    (Request.exit files (.run ⟨.check path, verbose⟩)).code = 0 ↔
      ∀ line ∈ sourceLines source, line.isSkipped = false →
        ∃ t, parse (String.ofList line.content) = .ok t := by
  rw [code_check_eq_zero (text_eq_of_toUTF8 h), length_checkDiagnostics_eq_zero_iff]

/-- **A check passes over the void lines and the hidden ones, and over no others.** A line is
skipped exactly if behind its layout it is over or goes on with a `#`, or with a blank that is no
layout and, behind that and any other blanks, is over or goes on with a `#`. It is never both. The
lines of the second kind are neither free of tokens nor annotations: read as one, each is an error
of its first blank that is no layout, at its place. A check succeeds exactly if every line that is
not skipped is an annotation. So a file that passes has no line but comments, lines free of tokens
and annotations exactly if it has no hidden line. -/
theorem skipped_void_or_hidden (source : String) :
    (∀ line : SourceLine, (line.isSkipped = true ↔ line.IsVoid ∨ ∃ c span, line.Hides c span) ∧
      ¬(line.IsVoid ∧ ∃ c span, line.Hides c span) ∧
      (tokenize (String.ofList line.content) = .ok [] ↔ line.content.dropWhile isLayout = []) ∧
      ∀ c span, line.Hides c span →
        tokenize (String.ofList line.content) = .error (.unrecognizedCharacter c span) ∧
        parse (String.ofList line.content) = .error (.lexical (.unrecognizedCharacter c span))) ∧
    ∀ (files : Files) (path : String) (verbose : Bool), files path = .ok source.toUTF8 →
      ((Request.exit files (.run ⟨.check path, verbose⟩)).code = 0 ↔
        ∀ line ∈ sourceLines source, line.isSkipped = false →
          ∃ t, parse (String.ofList line.content) = .ok t) ∧
      ((Request.exit files (.run ⟨.check path, verbose⟩)).code = 0 →
        ((∀ line ∈ sourceLines source,
            (∃ rest, line.content.dropWhile isLayout = '#' :: rest) ∨
            tokenize (String.ofList line.content) = .ok [] ∨
            ∃ t, parse (String.ofList line.content) = .ok t) ↔
          ∀ line ∈ sourceLines source, ∀ c span, ¬line.Hides c span)) := by
  refine ⟨fun line ↦ ⟨line.isSkipped_iff_isVoid_or_hides, ?_, tokenize_eq_nil_iff, ?_⟩,
    fun files path verbose hfile ↦ ⟨code_check_eq_zero_iff hfile verbose, fun hcode ↦ ?_⟩⟩
  · rintro ⟨hvoid, c, span, hhides⟩
    exact hhides.not_isVoid hvoid
  · intro c span hhides
    exact ⟨hhides.tokenize, hhides.parse⟩
  · have hread := (code_check_eq_zero_iff hfile verbose).mp hcode
    constructor
    · intro h line hline c span hhides
      rcases h line hline with hcomment | hempty | ⟨t, hparse⟩
      · exact hhides.not_isVoid (.inr hcomment)
      · cases hempty.symm.trans hhides.tokenize
      · cases hparse.symm.trans hhides.parse
    · intro h line hline
      by_cases hskipped : line.isSkipped = true
      · rcases line.isSkipped_iff_isVoid_or_hides.mp hskipped with
          (hempty | hcomment) | ⟨c, span, hhides⟩
        · exact .inr (.inl (tokenize_eq_nil_iff.mpr hempty))
        · exact .inl hcomment
        · exact absurd hhides (h line hline c span)
      · exact .inr (.inr (hread line hline (Bool.eq_false_iff.mpr hskipped)))

/-- A line with nothing but a no-break space passes a check and is no annotation. -/
theorem skipped_void_or_hidden_ne :
    ∃ files : Files, files "f.txt" = .ok "\u00a0\n".toUTF8 ∧
      (Request.exit files (.run ⟨.check "f.txt", false⟩)).code = 0 ∧
      ∃ line ∈ sourceLines "\u00a0\n", line.isSkipped = true ∧
        ¬(line.content.dropWhile isLayout = [] ∨
          ∃ rest, line.content.dropWhile isLayout = '#' :: rest) ∧
        tokenize (String.ofList line.content) =
          .error (.unrecognizedCharacter '\u00a0' ⟨0, 2⟩) ∧
        parse (String.ofList line.content) =
          .error (.lexical (.unrecognizedCharacter '\u00a0' ⟨0, 2⟩)) := by
  have hlines : sourceLines "\u00a0\n" = [⟨1, 0, ['\u00a0']⟩, ⟨2, 3, []⟩] := by decide
  have hcontent : SourceLine.content ⟨1, 0, ['\u00a0']⟩ = [] ++ '\u00a0' :: [] := rfl
  have hhides : SourceLine.Hides ⟨1, 0, ['\u00a0']⟩ '\u00a0' ⟨0, 2⟩ :=
    .mk hcontent (List.forall_mem_nil _) rfl rfl fun d hd ↦ by cases hd
  refine ⟨fun _ ↦ .ok "\u00a0\n".toUTF8, rfl, (code_check_eq_zero_iff rfl false).mpr ?_,
    ⟨1, 0, ['\u00a0']⟩, by rw [hlines]; exact List.mem_cons_self, rfl, hhides.not_isVoid,
    hhides.tokenize, hhides.parse⟩
  rw [hlines]
  intro line hline hskipped
  simp only [List.mem_cons, List.not_mem_nil, or_false] at hline
  rcases hline with rfl | rfl
  · cases hskipped
  · cases hskipped

end TypeNotation

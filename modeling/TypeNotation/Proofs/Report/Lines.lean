import Mathlib.Data.List.DropRight
import TypeNotation.Check
import TypeNotation.Proofs.Lexical.Stream

/-!
# Lines stand in their source

A source has one line for each of its stretches between line feeds, and its lines are in the order
of their places. What is in front of a text, if it ends with a line feed, only moves the lines of
the text: by its own line feeds and its own bytes.
-/

namespace TypeNotation

/-! ## Cutting at line feeds -/

/-- A new line begins behind the text. -/
def EndsLine (text : List Char) : Prop := text = [] ∨ text.getLast? = some '\n'

/-- A text is a single line, or a line feed ends its first line. -/
theorem line_induction {motive : List Char → Prop}
    (last : ∀ text, '\n' ∉ text → motive text)
    (line : ∀ first rest, '\n' ∉ first → motive rest → motive (first ++ '\n' :: rest))
    (text : List Char) : motive text := by
  by_cases h : '\n' ∈ text
  · obtain ⟨first, rest, heq, hfirst⟩ := List.eq_append_cons_of_mem h
    rw [heq]
    exact line first rest hfirst (line_induction last line rest)
  · exact last text h
termination_by text.length
decreasing_by
  rw [heq, List.length_append, List.length_cons]
  omega

theorem splitLines_of_not_mem {text : List Char} (h : '\n' ∉ text) : splitLines text = [text] :=
  splitAtEach_of_not_mem h

theorem splitLines_append (a b : List Char) :
    splitLines (a ++ '\n' :: b) = splitLines a ++ splitLines b :=
  splitAtEach_append '\n' a b

theorem count_append_cons {first : List Char} (h : '\n' ∉ first) (rest : List Char) :
    (first ++ '\n' :: rest).count '\n' = rest.count '\n' + 1 := by
  rw [List.count_append, List.count_eq_zero_of_not_mem h, List.count_cons_self, Nat.zero_add]

theorem utf8Length_append_cons (first rest : List Char) :
    utf8Length (first ++ '\n' :: rest) = utf8Length rest + (utf8Length first + 1) := by
  have hsize : ('\n' : Char).utf8Size = 1 := rfl
  rw [utf8Length_append, utf8Length_cons, hsize]
  omega

theorem splitLines_cons {first : List Char} (h : '\n' ∉ first) (rest : List Char) :
    splitLines (first ++ '\n' :: rest) = first :: splitLines rest := by
  rw [splitLines_append, splitLines_of_not_mem h, List.singleton_append]

/-! ## Moving lines -/

attribute [ext] SourceLine

/-- The same line in a source that has more lines and bytes in front. -/
def SourceLine.moved (lines bytes : Nat) (line : SourceLine) : SourceLine :=
  { line with number := line.number + lines, start := line.start + bytes }

@[simp] theorem SourceLine.content_moved (lines bytes : Nat) (line : SourceLine) :
    (line.moved lines bytes).content = line.content := rfl

theorem placeLines_moved (number start lines bytes : Nat) (texts : List (List Char)) :
    placeLines (number + lines) (start + bytes) texts =
      (placeLines number start texts).map (.moved lines bytes) := by
  induction texts generalizing number start with
  | nil => rfl
  | cons text texts ih =>
    have hnumber : number + lines + 1 = number + 1 + lines := by omega
    have hstart : start + bytes + utf8Length text + 1 = start + utf8Length text + 1 + bytes := by
      omega
    rw [placeLines, hnumber, hstart, ih, placeLines, List.map_cons]
    rfl

/-- The lines behind a line feed are the lines of what is there, moved. -/
theorem placeLines_splitLines_append (number start : Nat) (a b : List Char) :
    placeLines number start (splitLines (a ++ '\n' :: b)) =
      placeLines number start (splitLines a) ++ (placeLines number start (splitLines b)).map
        (.moved (a.count '\n' + 1) (utf8Length a + 1)) := by
  induction a using line_induction generalizing number start with
  | last text h =>
    rw [splitLines_cons h, splitLines_of_not_mem h, List.count_eq_zero_of_not_mem h,
      ← placeLines_moved]
    rfl
  | line first rest h ih =>
    rw [List.append_assoc, List.cons_append, splitLines_cons h, splitLines_cons h, placeLines,
      placeLines, ih, List.cons_append, ← placeLines_moved, ← placeLines_moved,
      count_append_cons h, utf8Length_append_cons]
    congr 3 <;> omega

/-! ## Where a line stands -/

/-- The line is a stretch of the text that line feeds or the ends of the text delimit, and it is
numbered by the line feeds and placed by the bytes in front of it. -/
def SourceLine.IsOf (line : SourceLine) (text : List Char) : Prop :=
  ∃ before behind, text = before ++ (line.text ++ behind) ∧ '\n' ∉ line.text ∧
    EndsLine before ∧ (behind = [] ∨ behind.head? = some '\n') ∧
    line.number = before.count '\n' + 1 ∧ line.start = utf8Length before

/-- What is in front of some mark begins with what is in front of the first one. -/
theorem eq_append_of_append_cons_eq {mark : Char} {first rest a b : List Char} (h : mark ∉ first)
    (heq : first ++ mark :: rest = a ++ mark :: b) :
    (a = first ∧ b = rest) ∨ ∃ a', a = first ++ mark :: a' ∧ rest = a' ++ mark :: b := by
  rcases List.append_eq_append_iff.mp heq with ⟨middle, rfl, hrest⟩ | ⟨middle, rfl, hrest⟩
  · cases middle with
    | nil => exact .inl ⟨List.append_nil _, (List.cons.inj hrest).2.symm⟩
    | cons c middle =>
      obtain ⟨rfl, hbehind⟩ := List.cons.inj hrest
      exact .inr ⟨middle, rfl, hbehind⟩
  · cases middle with
    | nil => exact .inl ⟨(List.append_nil _).symm, (List.cons.inj hrest).2⟩
    | cons c middle =>
      obtain ⟨rfl, -⟩ := List.cons.inj hrest
      exact absurd (List.mem_append_right _ List.mem_cons_self) h

theorem EndsLine.cases {text : List Char} (h : EndsLine text) :
    text = [] ∨ ∃ front, text = front ++ ['\n'] :=
  h.imp_right List.getLast?_eq_some_iff.mp

theorem EndsLine.append_cons {rest : List Char} (h : EndsLine rest) (first : List Char) :
    EndsLine (first ++ '\n' :: rest) := by
  rcases h.cases with rfl | ⟨front, rfl⟩
  · exact .inr List.getLast?_concat
  · refine .inr (List.getLast?_eq_some_iff.mpr ⟨first ++ '\n' :: front, ?_⟩)
    rw [List.append_assoc, List.cons_append]

/-- Whole lines in front of a place begin with the first line. -/
theorem EndsLine.exists_append_cons {first rest before more : List Char} (hfirst : '\n' ∉ first)
    (h : EndsLine before) (hne : before ≠ []) (heq : first ++ '\n' :: rest = before ++ more) :
    ∃ before', EndsLine before' ∧ before = first ++ '\n' :: before' ∧ rest = before' ++ more := by
  obtain ⟨front, rfl⟩ := h.cases.resolve_left hne
  rw [List.append_assoc, List.singleton_append] at heq
  rcases eq_append_of_append_cons_eq hfirst heq with ⟨rfl, rfl⟩ | ⟨front', rfl, rfl⟩
  · exact ⟨[], .inl rfl, rfl, rfl⟩
  · refine ⟨front' ++ ['\n'], .inr List.getLast?_concat, ?_, ?_⟩
    · rw [List.append_assoc, List.cons_append]
    · rw [List.append_assoc, List.singleton_append]

namespace SourceLine

variable {line : SourceLine}

theorem isOf_iff_of_not_mem {text : List Char} (h : '\n' ∉ text) :
    line.IsOf text ↔ line = ⟨1, 0, text⟩ := by
  constructor
  · rintro ⟨before, behind, rfl, -, hbefore, hbehind, hnumber, hstart⟩
    simp only [List.mem_append, not_or] at h
    obtain rfl : before = [] :=
      hbefore.resolve_right fun hlast ↦ h.1 (List.mem_of_getLast? hlast)
    obtain rfl : behind = [] := hbehind.resolve_right fun hhead ↦ h.2.2 (List.mem_of_head? hhead)
    exact SourceLine.ext hnumber hstart (List.append_nil _).symm
  · rintro rfl
    exact ⟨[], [], (List.append_nil _).symm, h, .inl rfl, .inl rfl, rfl, rfl⟩

theorem isOf_first {first : List Char} (h : '\n' ∉ first) (rest : List Char) :
    IsOf ⟨1, 0, first⟩ (first ++ '\n' :: rest) :=
  ⟨[], '\n' :: rest, rfl, h, .inl rfl, .inr rfl, rfl, rfl⟩

theorem IsOf.moved {first rest : List Char} (hline : line.IsOf rest) (h : '\n' ∉ first) :
    (line.moved 1 (utf8Length first + 1)).IsOf (first ++ '\n' :: rest) := by
  obtain ⟨before, behind, rfl, hfeed, hbefore, hbehind, hnumber, hstart⟩ := hline
  refine ⟨first ++ '\n' :: before, behind, ?_, hfeed, hbefore.append_cons first, hbehind, ?_, ?_⟩
  · rw [List.append_assoc, List.cons_append]
    rfl
  · rw [count_append_cons h, ← hnumber]
    rfl
  · rw [utf8Length_append_cons, ← hstart]
    rfl

/-- A line of a text is its first line or a line of what is behind the first line. -/
theorem IsOf.eq_first_or_moved {first rest : List Char}
    (hline : line.IsOf (first ++ '\n' :: rest)) (h : '\n' ∉ first) :
    line = ⟨1, 0, first⟩ ∨
      ∃ line' : SourceLine, line'.IsOf rest ∧ line'.moved 1 (utf8Length first + 1) = line := by
  obtain ⟨before, behind, heq, hfeed, hbefore, hbehind, hnumber, hstart⟩ := hline
  by_cases hnil : before = []
  · left
    subst hnil
    rw [List.nil_append] at heq
    -- the line ends at the first line feed, since it holds none
    obtain ⟨behind', rfl⟩ : ∃ behind', behind = '\n' :: behind' := by
      refine List.head?_eq_some_iff.mp (hbehind.resolve_left fun hend ↦ hfeed ?_)
      rw [hend, List.append_nil] at heq
      exact heq ▸ List.mem_append_right _ List.mem_cons_self
    rcases eq_append_of_append_cons_eq h heq with ⟨htext, -⟩ | ⟨middle, htext, -⟩
    · exact SourceLine.ext hnumber hstart htext
    · exact absurd (htext ▸ List.mem_append_right _ List.mem_cons_self) hfeed
  · right
    obtain ⟨before', hbefore', rfl, hrest⟩ := hbefore.exists_append_cons h hnil heq
    refine ⟨⟨before'.count '\n' + 1, utf8Length before', line.text⟩,
      ⟨before', behind, hrest, hfeed, hbefore', hbehind, rfl, rfl⟩, ?_⟩
    rw [count_append_cons h] at hnumber
    rw [utf8Length_append_cons] at hstart
    exact SourceLine.ext hnumber.symm hstart.symm rfl

end SourceLine

theorem mem_placeLines_iff {line : SourceLine} {text : List Char} :
    line ∈ placeLines 1 0 (splitLines text) ↔ line.IsOf text := by
  induction text using line_induction generalizing line with
  | last text h =>
    rw [splitLines_of_not_mem h, SourceLine.isOf_iff_of_not_mem h]
    exact List.mem_singleton
  | line first rest h ih =>
    have hmoved := placeLines_moved 1 0 1 (utf8Length first + 1) (splitLines rest)
    rw [← Nat.add_assoc] at hmoved
    rw [splitLines_cons h, placeLines, List.mem_cons, hmoved, List.mem_map]
    constructor
    · rintro (rfl | ⟨line', hline', rfl⟩)
      · exact SourceLine.isOf_first h rest
      · exact (ih.mp hline').moved h
    · intro hline
      exact (hline.eq_first_or_moved h).imp_right fun ⟨line', hline', heq⟩ ↦
        ⟨line', ih.mpr hline', heq⟩

/-- The lines of a source, those at its ends included, and no others. -/
theorem mem_sourceLines_iff {source : String} {line : SourceLine} :
    line ∈ sourceLines source ↔ line.IsOf source.toList :=
  mem_placeLines_iff

theorem start_le_of_mem_placeLines {number start : Nat} {texts : List (List Char)}
    {line : SourceLine} (h : line ∈ placeLines number start texts) : start ≤ line.start := by
  induction texts generalizing number start with
  | nil => cases h
  | cons text texts ih =>
    rcases List.mem_cons.mp h with rfl | h
    · exact Nat.le_refl _
    · have := ih h
      omega

theorem pairwise_placeLines (number start : Nat) (texts : List (List Char)) :
    (placeLines number start texts).Pairwise (·.start < ·.start) := by
  induction texts generalizing number start with
  | nil => exact .nil
  | cons text texts ih =>
    refine .cons (fun line h ↦ ?_) (ih _ _)
    have hle := start_le_of_mem_placeLines h
    simp only
    omega

/-! ## What is read of a line -/

namespace SourceLine

/-- Only carriage returns are left out of a line, and none is left at its end. -/
theorem exists_text_eq (line : SourceLine) :
    ∃ n, line.text = line.content ++ List.replicate n '\r' ∧
      line.content.getLast? ≠ some '\r' := by
  have hcontent : line.content = line.text.rdropWhile (· = '\r') := rfl
  have hreturns : ∀ c ∈ line.text.rtakeWhile (· = '\r'), c = '\r' := by
    intro c hc
    have hreturn := List.mem_rtakeWhile_imp hc
    exact of_decide_eq_true hreturn
  refine ⟨(line.text.rtakeWhile (· = '\r')).length, ?_, fun hlast ↦ ?_⟩
  · rw [← List.eq_replicate_of_mem hreturns, hcontent, List.rdropWhile_append_rtakeWhile]
  · rw [hcontent] at hlast
    obtain ⟨hne, hreturn⟩ := List.mem_getLast?_eq_getLast hlast
    exact List.rdropWhile_last_not _ _ hne (decide_eq_true hreturn.symm)

theorem isSkipped_iff {line : SourceLine} :
    line.isSkipped = true ↔ (∀ c ∈ line.content, isBlank c = true) ∨
      ∃ blanks rest, line.content = blanks ++ '#' :: rest ∧ ∀ c ∈ blanks, isBlank c = true := by
  have hsplit := List.takeWhile_append_dropWhile (p := isBlank) (l := line.content)
  have hblanks : ∀ c ∈ line.content.takeWhile isBlank, isBlank c = true := fun c ↦
    List.mem_takeWhile_imp
  rw [← List.dropWhile_eq_nil_iff, isSkipped]
  constructor
  · intro h
    cases hbehind : line.content.dropWhile isBlank with
    | nil => exact .inl rfl
    | cons c rest =>
      rw [hbehind, decide_eq_true_eq] at h
      rw [hbehind, h] at hsplit
      exact .inr ⟨_, rest, hsplit.symm, hblanks⟩
  · rintro (h | ⟨blanks, rest, h, hblank⟩)
    · rw [h]
    · rw [h, List.dropWhile_append_of_pos hblank, List.dropWhile_cons_of_neg (by decide)]
      rfl

end SourceLine

end TypeNotation

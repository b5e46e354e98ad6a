import TypeNotation.Proofs.Canonical.RoundTrip
import TypeNotation.Proofs.Check

/-!
# Canonical forms as lines

A canonical form is a single line, however many lines the annotation had that it was made of: in
strings the line breaks are escaped, and outside of them there are none. It does not begin as a
comment or with white space and does not end with a carriage return, so as a line of a file it is
neither skipped nor cut. So the canonical forms of any annotations make up a file without errors,
from which the same types are read.
-/

namespace TypeNotation

/-! ## The characters of a canonical form -/

/-- The text has neither line feeds nor carriage returns. -/
def OnOneLine (text : List Char) : Prop := ∀ c ∈ text, c ≠ '\n' ∧ c ≠ '\r'

section OnOneLine

variable {a b : List Char}

@[simp] theorem onOneLine_nil : OnOneLine [] := List.forall_mem_nil _

@[simp] theorem onOneLine_cons {c : Char} :
    OnOneLine (c :: a) ↔ (c ≠ '\n' ∧ c ≠ '\r') ∧ OnOneLine a :=
  List.forall_mem_cons

@[simp] theorem onOneLine_append : OnOneLine (a ++ b) ↔ OnOneLine a ∧ OnOneLine b :=
  List.forall_mem_append

theorem onOneLine_flatMap {α : Type} {f : α → List Char} {items : List α}
    (h : ∀ a ∈ items, OnOneLine (f a)) : OnOneLine (items.flatMap f) := by
  intro c hc
  obtain ⟨a, ha, hc⟩ := List.mem_flatMap.mp hc
  exact h a ha c hc

theorem onOneLine_listed {α : Type} {write : α → List Char} {items : List α}
    (h : ∀ a ∈ items, OnOneLine (write a)) : OnOneLine (listed (items.map write)) := by
  induction items with
  | nil => exact onOneLine_nil
  | cons a items ih =>
    obtain ⟨ha, hitems⟩ := List.forall_mem_cons.mp h
    cases items with
    | nil => simpa [listed] using ha
    | cons second items =>
      have hbehind := ih hitems
      rw [List.map_cons, listed] at hbehind
      rw [List.map_cons, List.map_cons, listed, List.intercalate_cons_cons, onOneLine_append,
        onOneLine_append]
      exact ⟨⟨ha, by simp⟩, hbehind⟩

end OnOneLine

/-- The character is ASCII and is to be seen. -/
def IsVisible (c : Char) : Prop := '!'.toNat ≤ c.toNat ∧ c.toNat ≤ '~'.toNat

instance (c : Char) : Decidable (IsVisible c) := inferInstanceAs (Decidable (_ ∧ _))

theorem IsVisible.not_isBlank {c : Char} (h : IsVisible c) : isBlank c = false := by
  obtain ⟨hlow, hhigh⟩ := h
  change 33 ≤ c.toNat at hlow
  change c.toNat ≤ 126 at hhigh
  simp only [isBlank, Bool.or_eq_false_iff, Bool.and_eq_false_iff, decide_eq_false_iff_not]
  omega

theorem IsVisible.not_break {c : Char} (h : IsVisible c) : c ≠ '\n' ∧ c ≠ '\r' := by
  constructor <;> rintro rfl <;> cases h.not_isBlank

theorem IsVisible.between {c low high : Char} (hlow : IsVisible low) (h : low.toNat ≤ c.toNat)
    (h' : c.toNat ≤ high.toNat) (hhigh : IsVisible high) : IsVisible c :=
  ⟨Nat.le_trans hlow.1 h, Nat.le_trans h' hhigh.2⟩

theorem isVisible_of_isDigit {c : Char} (h : c.isDigit = true) : IsVisible c := by
  obtain ⟨hlow, hhigh⟩ := Char.isDigit_iff_toNat.mp h
  exact .between (by decide) hlow hhigh (by decide)

theorem isVisible_of_isAlpha {c : Char} (h : c.isAlpha = true) : IsVisible c := by
  rcases Bool.or_eq_true_iff.mp h with hupper | hlower
  · obtain ⟨hlow, hhigh⟩ := of_decide_eq_true hupper
    exact .between (by decide) (UInt32.le_iff_toNat_le.mp hlow) (UInt32.le_iff_toNat_le.mp hhigh)
      (by decide)
  · obtain ⟨hlow, hhigh⟩ := Bool.and_eq_true_iff.mp hlower
    exact .between (by decide) (UInt32.le_iff_toNat_le.mp (of_decide_eq_true hlow))
      (UInt32.le_iff_toNat_le.mp (of_decide_eq_true hhigh)) (by decide)

theorem isVisible_of_isIdentifierPart {c : Char} (h : isIdentifierPart c = true) : IsVisible c := by
  simp only [isIdentifierPart, Char.isAlphanum, Bool.or_eq_true, decide_eq_true_eq] at h
  rcases h with ((halpha | hdigit) | rfl) | rfl
  · exact isVisible_of_isAlpha halpha
  · exact isVisible_of_isDigit hdigit
  · decide
  · decide

theorem IsNumber.isVisible {text : List Char} (h : IsNumber text) : ∀ c ∈ text, IsVisible c := by
  have hdigits {digits : List Char} (h : IsDigits digits) : ∀ c ∈ digits, IsVisible c :=
    fun c hc ↦ isVisible_of_isDigit (h.digits c hc)
  have hunsigned {text : List Char} (h : IsUnsigned text) : ∀ c ∈ text, IsVisible c := by
    obtain ⟨hwhole, hfraction, hexponent⟩ := h
    refine List.forall_mem_append.mpr ⟨hdigits hwhole, List.forall_mem_append.mpr ⟨?_, ?_⟩⟩
    · cases hfraction with
      | absent => exact List.forall_mem_nil _
      | present h => exact List.forall_mem_cons.mpr ⟨by decide, hdigits h⟩
    · cases hexponent with
      | absent => exact List.forall_mem_nil _
      | present hmark hsign h =>
        refine List.forall_mem_cons.mpr ⟨?_, List.forall_mem_append.mpr ⟨?_, hdigits h⟩⟩
        · rcases hmark with rfl | rfl <;> decide
        · cases hsign <;> simp <;> decide
  cases h with
  | plain h => exact hunsigned h
  | negative h => exact List.forall_mem_cons.mpr ⟨by decide, hunsigned h⟩

theorem IsPath.isVisible {name : String} (h : IsPath name) : ∀ c ∈ name.toList, IsVisible c := by
  obtain ⟨first, others, hparts, rfl⟩ := h
  obtain ⟨hfirst, hothers⟩ := List.forall_mem_cons.mp hparts
  rw [toList_intercalate_dot]
  refine List.forall_mem_append.mpr ⟨fun c hc ↦ ?_, fun c hc ↦ ?_⟩
  · exact isVisible_of_isIdentifierPart (hfirst.isIdentifierPart c hc)
  · obtain ⟨part, hpart, hc⟩ := List.mem_flatMap.mp hc
    rcases List.mem_cons.mp hc with rfl | hc
    · decide
    · exact isVisible_of_isIdentifierPart ((hothers part hpart).isIdentifierPart c hc)

theorem onOneLine_of_isVisible {text : List Char} (h : ∀ c ∈ text, IsVisible c) : OnOneLine text :=
  fun c hc ↦ (h c hc).not_break

/-- In a string the line breaks are escaped. -/
theorem onOneLine_canonicalString (value : List Char) : OnOneLine (canonicalString value) := by
  have hbody : OnOneLine (value.flatMap canonicalChar) := by
    refine onOneLine_flatMap fun c _ ↦ ?_
    unfold canonicalChar
    split_ifs <;> simp_all
  rw [canonicalString, onOneLine_append, onOneLine_cons]
  exact ⟨⟨by decide, hbody⟩, by simp⟩

theorem onOneLine_param {param : Param} (hname : param.HasRegularName)
    (htype : OnOneLine param.type.canonicalChars) : OnOneLine param.canonicalChars := by
  obtain ⟨type, name, rest⟩ := param
  have hname : ∀ word ∈ name, OnOneLine word.toList := fun word hword ↦
    onOneLine_of_isVisible fun c hc ↦
      isVisible_of_isIdentifierPart ((hname.identifier word hword).word.isIdentifierPart c hc)
  refine onOneLine_append.mpr ⟨onOneLine_append.mpr ⟨?_, ?_⟩, htype⟩
  · split <;> simp
  · cases name with
    | none => exact onOneLine_nil
    | some word => exact onOneLine_append.mpr ⟨hname word rfl, by simp⟩

theorem onOneLine_member {member : Member} (hname : IsIdentifier member.name)
    (htype : OnOneLine member.type.canonicalChars) : OnOneLine member.canonicalChars := by
  obtain ⟨name, type⟩ := member
  have hname : OnOneLine name.toList := onOneLine_of_isVisible fun c hc ↦
    isVisible_of_isIdentifierPart (hname.word.isIdentifierPart c hc)
  exact onOneLine_append.mpr ⟨hname, onOneLine_cons.mpr ⟨by decide, by simpa using htype⟩⟩

theorem onOneLine_result {result : Option TypeExpr}
    (h : ∀ t ∈ result, OnOneLine t.canonicalChars) : OnOneLine (canonicalResult result) := by
  cases result with
  | none => exact onOneLine_nil
  | some t =>
    have harrow : OnOneLine [' ', '→', ' '] := by simp
    exact onOneLine_append.mpr ⟨harrow, h t rfl⟩

theorem TypeExpr.WellFormed.onOneLine {t : TypeExpr} (h : t.WellFormed) :
    OnOneLine t.canonicalChars := by
  induction h with
  | any => exact onOneLine_cons.mpr ⟨by decide, onOneLine_nil⟩
  | entity hname => exact onOneLine_of_isVisible hname.isPath.isVisible
  | nullable _ ih => exact onOneLine_cons.mpr ⟨by decide, ih⟩
  | union _ ih =>
    rw [canonicalChars_union, onOneLine_append, onOneLine_append]
    exact ⟨⟨by simp, onOneLine_listed ih⟩, by simp⟩
  | function hnames _ _ ihtypes ihresult =>
    have hparams := onOneLine_listed fun param hparam ↦
      onOneLine_param (hnames param hparam) (ihtypes param hparam)
    rw [canonicalChars_function, List.cons_append, onOneLine_cons, onOneLine_append,
      onOneLine_cons]
    exact ⟨by decide, hparams, by decide, onOneLine_result ihresult⟩
  | array _ ih => exact onOneLine_append.mpr ⟨onOneLine_cons.mpr ⟨by decide, ih⟩, by simp⟩
  | object hnames _ ih =>
    have hmembers := onOneLine_listed fun member hmember ↦
      onOneLine_member (hnames member hmember) (ih member hmember)
    rw [canonicalChars_object, List.cons_append, onOneLine_cons, onOneLine_append]
    exact ⟨by decide, hmembers, by simp⟩
  | text value => exact onOneLine_canonicalString value.toList
  | number htext => exact onOneLine_of_isVisible htext.isVisible

/-- A canonical form begins neither with white space nor as a comment. -/
theorem TypeExpr.WellFormed.exists_cons {t : TypeExpr} (h : t.WellFormed) :
    ∃ first rest, t.canonicalChars = first :: rest ∧ isBlank first = false ∧ first ≠ '#' := by
  cases h with
  | any => exact ⟨'*', [], rfl, by decide, by decide⟩
  | entity hname =>
    obtain ⟨first, rest, hchars, hstart⟩ := hname.isPath.exists_cons
    have hvisible := hname.isPath.isVisible first (hchars ▸ List.mem_cons_self)
    refine ⟨first, rest, hchars, hvisible.not_isBlank, ?_⟩
    rintro rfl
    cases hstart
  | number htext =>
    obtain ⟨first, rest, hchars, hfirst⟩ := htext.exists_cons
    have hvisible := htext.isVisible first (hchars ▸ List.mem_cons_self)
    refine ⟨first, rest, hchars, hvisible.not_isBlank, ?_⟩
    rintro rfl
    revert hfirst
    decide
  | _ => exact ⟨_, _, rfl, by decide, by decide⟩

/-! ## Canonical forms in a file -/

/-- The text is a line with the canonical form of the type, ended by LF or by CR LF. -/
inductive IsCanonicalLine (t : TypeExpr) : String → Prop
  | feed : IsCanonicalLine t (t.canonical ++ "\n")
  | returnFeed : IsCanonicalLine t (t.canonical ++ "\r\n")

/-- Nothing is cut off a canonical form but the carriage return behind it. -/
theorem content_canonical {t : TypeExpr} (h : t.WellFormed) (number start : Nat) :
    SourceLine.content ⟨number, start, t.canonicalChars⟩ = t.canonicalChars ∧
      SourceLine.content ⟨number, start, t.canonicalChars ++ ['\r']⟩ = t.canonicalChars := by
  have hkept : t.canonicalChars.rdropWhile (· = '\r') = t.canonicalChars := by
    refine List.rdropWhile_eq_self_iff.mpr fun hne hreturn ↦ ?_
    exact (h.onOneLine _ (List.getLast_mem hne)).2 (of_decide_eq_true hreturn)
  refine ⟨hkept, ?_⟩
  change (t.canonicalChars ++ ['\r']).rdropWhile (· = '\r') = t.canonicalChars
  rw [List.rdropWhile_concat_pos _ _ _ (by decide), hkept]

theorem not_isSkipped_of_content {t : TypeExpr} (h : t.WellFormed) {line : SourceLine}
    (hcontent : line.content = t.canonicalChars) : line.isSkipped = false := by
  obtain ⟨first, rest, hchars, hblank, hhash⟩ := h.exists_cons
  rw [SourceLine.isSkipped, hcontent, hchars, List.dropWhile_cons_of_neg (by simp [hblank])]
  exact decide_eq_false hhash

/-- A canonical line is one line, which is read without what ends it. -/
theorem IsCanonicalLine.exists_front {t : TypeExpr} {text : String} (h : IsCanonicalLine t text)
    (ht : t.WellFormed) :
    ∃ front, text = front ++ "\n" ∧ '\n' ∉ front.toList ∧
      SourceLine.content ⟨1, 0, front.toList⟩ = t.canonicalChars := by
  have hfeed : '\n' ∉ t.canonicalChars := fun hmem ↦ (ht.onOneLine _ hmem).1 rfl
  obtain ⟨hplain, hreturn⟩ := content_canonical ht 1 0
  cases h with
  | feed => exact ⟨t.canonical, rfl, by rwa [t.toList_canonical], by rwa [t.toList_canonical]⟩
  | returnFeed =>
    have hfront : (t.canonical ++ "\r").toList = t.canonicalChars ++ ['\r'] := by simp
    refine ⟨t.canonical ++ "\r", ?_, ?_, by rwa [hfront]⟩
    · rw [String.append_assoc]
      rfl
    · rw [hfront]
      simpa using hfeed

theorem annotationLines_of_canonical {t : TypeExpr} {front : String} (ht : t.WellFormed)
    (hfeed : '\n' ∉ front.toList)
    (hcontent : SourceLine.content ⟨1, 0, front.toList⟩ = t.canonicalChars) :
    annotationLines front = [⟨1, 0, front.toList⟩] := by
  rw [annotationLines, sourceLines, splitLines_of_not_mem hfeed, placeLines, placeLines,
    List.filter_cons_of_pos (by rw [not_isSkipped_of_content ht hcontent]; rfl), List.filter_nil]

theorem annotationLines_canonical {types : List TypeExpr} {lines : List String}
    (htypes : ∀ t ∈ types, t.WellFormed) (hlines : List.Forall₂ IsCanonicalLine types lines) :
    (annotationLines (String.join lines)).map (fun line ↦ (line.number, line.content)) =
      (types.zipIdx 1).map fun (t, number) ↦ (number, t.canonicalChars) := by
  induction hlines with
  | nil => rfl
  | @cons t text types lines hline _ ih =>
    obtain ⟨ht, htypes⟩ := List.forall_mem_cons.mp htypes
    obtain ⟨front, rfl, hfeed, hcontent⟩ := hline.exists_front ht
    have hcount : (front ++ "\n").toList.count '\n' = 1 := by
      rw [String.toList_append, List.count_append, List.count_eq_zero_of_not_mem hfeed]
      rfl
    rw [String.join_cons, annotationLines_append_line, hcount,
      annotationLines_of_canonical ht hfeed hcontent, List.zipIdx_cons, List.singleton_append,
      List.map_cons, List.map_cons, hcontent, List.map_map, List.zipIdx_succ, List.map_map]
    congr 1
    -- the lines behind are numbered one higher
    have hbehind := congrArg (List.map fun line ↦ (line.1 + 1, line.2)) (ih htypes)
    rw [List.map_map, List.map_map] at hbehind
    exact hbehind

/-! ## Checking canonical forms -/

/-- The number of a line and what is read from it. -/
def CheckedLine.outcome (checked : CheckedLine) : Nat × Except SyntaxError TypeExpr :=
  (checked.line.number, checked.reading.result)

theorem result_ofLine (line : SourceLine) :
    (CheckedLine.ofLine line).reading.result = parse (String.ofList line.content) := by
  rw [parse, Reading.ofSource, String.toList_ofList]
  rfl

theorem checkLines_canonical {types : List TypeExpr} {lines : List String}
    (htypes : ∀ t ∈ types, t.WellFormed) (hlines : List.Forall₂ IsCanonicalLine types lines) :
    (checkLines (String.join lines)).map CheckedLine.outcome =
      (types.zipIdx 1).map fun (t, number) ↦ (number, .ok t) := by
  have hread := congrArg (List.map fun line ↦ (line.1, parse (String.ofList line.2)))
    (annotationLines_canonical htypes hlines)
  rw [List.map_map, List.map_map] at hread
  rw [checkLines_eq, List.map_map]
  refine Eq.trans (List.map_congr_left fun line _ ↦ ?_) (hread.trans ?_)
  · exact congrArg (line.number, ·) (result_ofLine line)
  · refine List.map_congr_left fun numbered hmem ↦ ?_
    have ht := htypes numbered.1 (List.fst_mem_of_mem_zipIdx hmem)
    exact congrArg (numbered.2, ·) ht.parse_canonical

theorem checkDiagnostics_canonical {types : List TypeExpr} {lines : List String}
    (htypes : ∀ t ∈ types, t.WellFormed) (hlines : List.Forall₂ IsCanonicalLine types lines) :
    checkDiagnostics (String.join lines) = [] := by
  refine List.filterMap_eq_nil_iff.mpr fun checked hmem ↦ ?_
  have hread := List.mem_map_of_mem (f := CheckedLine.outcome) hmem
  rw [checkLines_canonical htypes hlines] at hread
  obtain ⟨numbered, -, heq⟩ := List.mem_map.mp hread
  rw [CheckedLine.diagnostic?, ← (Prod.mk.inj heq).2]

theorem exit_of_ok {performance : Performance} {output : String}
    (h : performance.result = .ok output) (verbose : Bool) :
    (performance.exit verbose).code = 0 ∧ (performance.exit verbose).stdout = output := by
  rw [Performance.exit, h]
  exact ⟨rfl, rfl⟩

theorem isCanonicalLine_fmt {source : String} {t : TypeExpr} (h : parse source = .ok t)
    (files : Files) (verbose : Bool) :
    IsCanonicalLine t (Request.exit files (.run ⟨.fmt source, verbose⟩)).stdout := by
  have hresult : (performFmt source).result = .ok (line t.canonical) := by
    rw [parse] at h
    rw [performFmt, withType, readArgument, h]
    rfl
  rw [Request.exit, Command.perform, (exit_of_ok hresult verbose).2]
  exact .feed

theorem forall_wellFormed_of_forall₂ {sources : List String} {types : List TypeExpr}
    (h : List.Forall₂ (fun source t ↦ parse source = .ok t) sources types) :
    ∀ t ∈ types, t.WellFormed := by
  induction h with
  | nil => exact List.forall_mem_nil _
  | cons hread _ ih => exact List.forall_mem_cons.mpr ⟨wellFormed_of_parse hread, ih⟩

/-- **Canonical forms make up a file without errors.** Put the types of any annotations in canonical
form and make a line of each, ended by LF or by CR LF. A check of the file succeeds and counts as
many annotations, and on each line the type is read again that was put there. For none of the
canonical forms breaks a line, is empty, begins with white space or a number sign, or is cut at its
end. What is printed for an annotation in canonical form is such a line. -/
theorem check_canonical_lines {sources lines : List String} {types : List TypeExpr}
    (hread : List.Forall₂ (fun source t ↦ parse source = .ok t) sources types)
    (hlines : List.Forall₂ IsCanonicalLine types lines) :
    (∀ (files : Files) (path : String), files path = .ok (String.join lines).toUTF8 →
      ∀ verbose,
        let exit := Request.exit files (.run ⟨.check path, verbose⟩)
        exit.code = 0 ∧ exit.stdout = line ("success: " ++ toString sources.length ++
          " annotations parsed in " ++ quoted path)) ∧
    (checkLines (String.join lines)).map CheckedLine.outcome =
      (types.zipIdx 1).map (fun (t, number) ↦ (number, .ok t)) ∧
    (∀ t ∈ types, (∀ c ∈ t.canonical.toList, c ≠ '\n' ∧ c ≠ '\r') ∧
      ∃ first rest, t.canonical.toList = first :: rest ∧ isBlank first = false ∧ first ≠ '#') ∧
    List.Forall₂ (fun source t ↦ ∀ (files : Files) (verbose : Bool),
      IsCanonicalLine t (Request.exit files (.run ⟨.fmt source, verbose⟩)).stdout)
      sources types := by
  have htypes := forall_wellFormed_of_forall₂ hread
  refine ⟨fun files path hfile verbose ↦ ?_, checkLines_canonical htypes hlines, fun t ht ↦ ?_, ?_⟩
  · have hcount : (annotationLines (String.join lines)).length = sources.length := by
      have hlength := congrArg List.length (annotationLines_canonical htypes hlines)
      rwa [List.length_map, List.length_map, List.length_zipIdx, ← hread.length_eq] at hlength
    have hresult := (performCheck_of_text (text_eq_of_toUTF8 hfile)).2
    rw [checkDiagnostics_canonical htypes hlines, hcount] at hresult
    exact exit_of_ok hresult verbose
  · rw [t.toList_canonical]
    exact ⟨(htypes t ht).onOneLine, (htypes t ht).exists_cons⟩
  · exact hread.imp fun _ _ h ↦ isCanonicalLine_fmt h

/-- A string with a line break in it, and an annotation on two lines. -/
theorem check_canonical_lines_of_breaks :
    List.Forall₂ (fun source t ↦ parse source = .ok t) ["'#\r\n'", "union<a\nb>"]
        [.text "#\r\n", .union [.entity "a", .entity "b"]] ∧
      List.Forall₂ IsCanonicalLine [.text "#\r\n", .union [.entity "a", .entity "b"]]
        ["\"#\\r\\n\"\r\n", "union<a, b>\n"] ∧
      (checkLines "\"#\\r\\n\"\r\nunion<a, b>\n").map CheckedLine.outcome =
        [(1, .ok (.text "#\r\n")), (2, .ok (.union [.entity "a", .entity "b"]))] := by
  have htext : parse "'#\r\n'" = .ok (.text "#\r\n") := by
    have htokens : tokenize "'#\r\n'" = .ok [⟨.string "#\r\n", ⟨0, 5⟩⟩] := by decide +kernel
    exact parse_eq_ok_iff.mpr ⟨_, htokens, .text _⟩
  have hunion : parse "union<a\nb>" = .ok (.union [.entity "a", .entity "b"]) := by
    have htokens : tokenize "union<a\nb>" = .ok
        [⟨.symbol .union, ⟨0, 5⟩⟩, ⟨.symbol .less, ⟨5, 6⟩⟩, ⟨.identifier "a", ⟨6, 7⟩⟩,
          ⟨.identifier "b", ⟨8, 9⟩⟩, ⟨.symbol .greater, ⟨9, 10⟩⟩] := by decide +kernel
    exact parse_eq_ok_iff.mpr
      ⟨_, htokens, .union (.cons (.entity "a" []) (.cons (.entity "b" []) .nil))⟩
  have hread := List.Forall₂.cons (R := fun source t ↦ parse source = .ok t) htext
    (.cons hunion .nil)
  have hlines : List.Forall₂ IsCanonicalLine [.text "#\r\n", .union [.entity "a", .entity "b"]]
      ["\"#\\r\\n\"\r\n", "union<a, b>\n"] := .cons .returnFeed (.cons .feed .nil)
  exact ⟨hread, hlines, (check_canonical_lines hread hlines).2.1⟩

end TypeNotation

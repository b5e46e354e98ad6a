import TypeNotation.Command.Run
import TypeNotation.Proofs.Grammar.Places
import TypeNotation.Proofs.Lexical.MaximalMunch
import TypeNotation.Proofs.Report.Lines

/-!
# What a check reports

Checking a file reads each of its annotations by itself. An annotation that is none is reported as
it would be without the rest of the file, with its place counted from the front of the file; the
reports are in the order of the lines, and nothing else fails a check. So a file can be checked in
parts, if they are cut at the ends of lines.
-/

namespace TypeNotation

/-! ## Places of diagnostics -/

theorem Diagnostic.shift_zero (diagnostic : Diagnostic) : diagnostic.shift 0 = diagnostic := by
  obtain ⟨message, label⟩ := diagnostic
  cases label <;> rfl

theorem Diagnostic.shift_shift (m n : Nat) (diagnostic : Diagnostic) :
    (diagnostic.shift m).shift n = diagnostic.shift (m + n) := by
  obtain ⟨message, label⟩ := diagnostic
  cases label with
  | none => rfl
  | some label =>
    simp only [shift, Option.map_some, Span.shift, Nat.add_assoc]

theorem exists_label_ofSyntaxError (error : SyntaxError) :
    ∃ remark, (Diagnostic.ofFailure (.ofSyntaxError error)).label = some ⟨error.span, remark⟩ := by
  cases error with
  | unexpectedToken expected found span => exact ⟨_, rfl⟩
  | unexpectedEnd expected span => exact ⟨_, rfl⟩
  | lexical error => cases error <;> exact ⟨_, rfl⟩

/-! ## Reports -/

/-- The lines of a source that are read as annotations. -/
def annotationLines (source : String) : List SourceLine :=
  (sourceLines source).filter (!·.isSkipped)

/-- What is reported of a line: the diagnostic of its content as an annotation, with its place
counted from the front of the file. -/
def SourceLine.report? (line : SourceLine) : Option Diagnostic :=
  match parse (String.ofList line.content) with
  | .ok _ => none
  | .error error => some ((Diagnostic.ofFailure (.ofSyntaxError error)).shift line.start)

/-- The report is about an error in a line. Its label is at the place of the error, counted from the
front of the source, which is within the line and holds the same word there as in the line alone. -/
structure ReportsOn (source : List Char) (line : SourceLine) (error : SyntaxError)
    (report : Diagnostic) : Prop where
  shifted : report = (Diagnostic.ofFailure (.ofSyntaxError error)).shift line.start
  label : ∃ remark, report.label = some ⟨error.span.shift line.start, remark⟩
  start_le : line.start ≤ (error.span.shift line.start).start
  stop_le : (error.span.shift line.start).stop ≤ line.start + utf8Length line.content
  word : ∃ word, StandsAt line.content error.span word ∧
    StandsAt source (error.span.shift line.start) word

theorem diagnostic?_ofLine (line : SourceLine) :
    (CheckedLine.ofLine line).diagnostic? = line.report? := by
  rw [SourceLine.report?, parse, Reading.ofSource, String.toList_ofList]
  rfl

theorem checkLines_eq (source : String) :
    checkLines source = (annotationLines source).map .ofLine := rfl

theorem length_checkLines (source : String) :
    (checkLines source).length = (annotationLines source).length := by
  rw [checkLines_eq, List.length_map]

theorem checkDiagnostics_eq (source : String) :
    checkDiagnostics source = (annotationLines source).filterMap SourceLine.report? := by
  rw [checkDiagnostics, checkLines_eq, List.filterMap_map]
  exact List.filterMap_congr fun line _ ↦ diagnostic?_ofLine line

theorem SourceLine.report?_eq_none_iff {line : SourceLine} :
    line.report? = none ↔ ∃ t, TypeNotation.parse (String.ofList line.content) = .ok t := by
  rw [report?]
  cases TypeNotation.parse (String.ofList line.content) with
  | ok t => exact ⟨fun _ ↦ ⟨t, rfl⟩, fun _ ↦ rfl⟩
  | error error =>
    constructor
    · rintro ⟨⟩
    · rintro ⟨t, ⟨⟩⟩

theorem length_checkDiagnostics_eq_zero_iff {source : String} :
    (checkDiagnostics source).length = 0 ↔ ∀ line ∈ sourceLines source,
      line.isSkipped = false → ∃ type, parse (String.ofList line.content) = .ok type := by
  rw [checkDiagnostics_eq, List.length_eq_zero_iff, List.filterMap_eq_nil_iff]
  simp only [annotationLines, List.mem_filter, Bool.not_eq_true', and_imp,
    SourceLine.report?_eq_none_iff]

theorem SourceLine.IsOf.standsAt {line : SourceLine} {text word : List Char} {span : Span}
    (h : line.IsOf text) (hword : StandsAt line.content span word) :
    StandsAt text (span.shift line.start) word := by
  obtain ⟨before, behind, rfl, -, -, -, -, hstart⟩ := h
  obtain ⟨n, htext, -⟩ := line.exists_text_eq
  rw [htext, hstart, List.append_assoc]
  exact hword.shift before _

theorem SourceLine.IsOf.reportsOn {line : SourceLine} {text : List Char} {error : SyntaxError}
    (h : line.IsOf text) (herror : parse (String.ofList line.content) = .error error) :
    ∃ report, line.report? = some report ∧ ReportsOn text line error report := by
  obtain ⟨remark, hlabel⟩ := exists_label_ofSyntaxError error
  obtain ⟨word, hword⟩ := exists_standsAt_of_parse_eq_error herror
  rw [String.toList_ofList] at hword
  refine ⟨_, by rw [report?, herror], rfl, ⟨remark, ?_⟩, Nat.le_add_left _ _, ?_, word, hword,
    h.standsAt hword⟩
  · rw [Diagnostic.shift, hlabel, Option.map_some]
  · rw [Nat.add_comm line.start]
    exact Nat.add_le_add_right (StandsAt.stop_le hword) _

/-! ## The performance of a check -/

/-- The diagnostic among the things that are said, with the name of the source and the source. -/
def Event.report? : Event → Option (String × String × Diagnostic)
  | log _ => none
  | diagnostic name source found => some (name, source, found)

theorem mem_map_log {record : LogRecord} {records : List LogRecord} :
    Event.log record ∈ records.map Event.log ↔ record ∈ records :=
  List.mem_map_of_injective fun _ _ ↦ Event.log.inj

theorem filterMap_report?_log (records : List LogRecord) :
    (records.map Event.log).filterMap Event.report? = [] := by
  rw [List.filterMap_map]
  exact List.filterMap_eq_nil_iff.mpr fun _ _ ↦ rfl

theorem filterMap_report?_lineEvents (path source : String) (checked : CheckedLine) :
    (lineEvents path source checked).filterMap Event.report? =
      (checked.diagnostic?.toList).map (path, source, ·) := by
  rw [lineEvents, List.filterMap_append, filterMap_report?_log, List.nil_append]
  cases hresult : checked.reading.result with
  | ok type =>
    rw [CheckedLine.diagnostic?, hresult]
    rfl
  | error error =>
    rw [CheckedLine.diagnostic?, hresult]
    rfl

theorem filterMap_report?_lines (path source : String) :
    ((checkLines source).flatMap (lineEvents path source)).filterMap Event.report? =
      (checkDiagnostics source).map (path, source, ·) := by
  rw [List.filterMap_flatMap, checkDiagnostics, List.filterMap_eq_flatMap_toList, List.map_flatMap]
  exact List.flatMap_congr fun checked _ ↦ filterMap_report?_lineEvents path source checked

theorem text_eq_of_toUTF8 {files : Files} {path source : String}
    (h : files path = .ok source.toUTF8) : files.text path = .ok source := by
  have hdecode : String.fromUTF8? source.toUTF8 = some source := dif_pos source.isValidUTF8
  simp only [Files.text, h, bind, Except.bind, hdecode]

/-- A check says what is wrong in a file, and how many annotations of how many are. -/
theorem performCheck_of_text {files : Files} {path source : String}
    (h : files.text path = .ok source) :
    (performCheck files path).events.filterMap Event.report? =
        (checkDiagnostics source).map (path, source, ·) ∧
      (performCheck files path).result =
        if (checkDiagnostics source).length = 0 then
          .ok (line ("success: " ++ toString (annotationLines source).length ++
            " annotations parsed in " ++ quoted path))
        else
          .error (toString (checkDiagnostics source).length ++ " of " ++
            toString (annotationLines source).length ++ " annotations failed to parse") := by
  have hevents := filterMap_report?_lines path source
  rw [performCheck, h, ← length_checkLines]
  simp only
  by_cases hfound : (checkDiagnostics source).length = 0
  · rw [if_pos hfound, if_pos hfound]
    refine ⟨?_, rfl⟩
    rw [List.filterMap_append, hevents]
    exact List.append_nil _
  · rw [if_neg hfound, if_neg hfound]
    exact ⟨hevents, rfl⟩

theorem code_exit_eq_zero_iff (performance : Performance) (verbose : Bool) :
    (performance.exit verbose).code = 0 ↔ ∃ output, performance.result = .ok output := by
  unfold Performance.exit
  cases performance.result <;> simp

theorem code_check_eq_zero {files : Files} {path source : String} {verbose : Bool}
    (h : files.text path = .ok source) :
    (Request.exit files (.run ⟨.check path, verbose⟩)).code = 0 ↔
      (checkDiagnostics source).length = 0 := by
  obtain ⟨-, hresult⟩ := performCheck_of_text h
  rw [Request.exit, code_exit_eq_zero_iff, Command.perform, hresult]
  by_cases hfailed : (checkDiagnostics source).length = 0
  · rw [if_pos hfailed]
    exact ⟨fun _ ↦ hfailed, fun _ ↦ ⟨_, rfl⟩⟩
  · rw [if_neg hfailed]
    exact ⟨fun ⟨_, h⟩ ↦ (by cases h), fun h ↦ absurd h hfailed⟩

/-! Unless it is asked for more, a check writes nothing but the diagnostics, and a summary behind
them. -/

/-- The frame that stands on the standard error for a diagnostic among the things that are said. -/
def Event.frame? (event : Event) : Option String :=
  event.report?.map fun (name, source, found) ↦ found.frame name source

theorem frame?_log (record : LogRecord) : (Event.log record).frame? = none := rfl

theorem frame?_diagnostic (name source : String) (found : Diagnostic) :
    (Event.diagnostic name source found).frame? = some (found.frame name source) := rfl

theorem isShown_false {level : LogLevel} (h : level ≠ .info) : level.isShown false = false := by
  cases level with
  | info => exact absurd rfl h
  | debug => rfl
  | trace => rfl

/-- Where nothing is logged for everyone, frames are all that is written. -/
theorem join_shown_false {events : List Event}
    (h : ∀ record, Event.log record ∈ events → record.level ≠ .info) :
    String.join (events.map (·.shown false)) = String.join (events.filterMap Event.frame?) := by
  induction events with
  | nil => rfl
  | cons event events ih =>
    have hrest := ih fun record hrecord ↦ h record (List.mem_cons_of_mem _ hrecord)
    rw [List.map_cons, String.join_cons, hrest]
    cases event with
    | log record =>
      have hhidden := isShown_false (h record List.mem_cons_self)
      rw [Event.shown_log_of_not_isShown hhidden, String.empty_append,
        List.filterMap_cons_none (frame?_log record)]
    | diagnostic name source found =>
      rw [Event.shown_diagnostic, List.filterMap_cons_some (frame?_diagnostic name source found),
        String.join_cons]

theorem level_ne_info_of_mem_log (source : String) (reading : Reading) :
    ∀ record ∈ reading.log source, record.level ≠ .info := by
  refine List.forall_mem_append.mpr ⟨List.forall_mem_cons.mpr ⟨LogLevel.noConfusion, ?_⟩, ?_⟩
  · intro record hrecord
    obtain ⟨note, -, rfl⟩ := List.mem_map.mp hrecord
    exact LogLevel.noConfusion
  · cases reading.result with
    | ok type => exact List.forall_mem_singleton.mpr LogLevel.noConfusion
    | error error => exact List.forall_mem_nil _

theorem level_ne_info_of_mem_lineEvents {path source : String} {checked : CheckedLine}
    {record : LogRecord} (h : Event.log record ∈ lineEvents path source checked) :
    record.level ≠ .info := by
  rcases List.mem_append.mp h with hlog | hreport
  · exact level_ne_info_of_mem_log _ _ _ (mem_map_log.mp hlog)
  · split at hreport
    · cases List.mem_singleton.mp hreport
      exact LogLevel.noConfusion
    · obtain ⟨found, -, heq⟩ := List.mem_map.mp hreport
      cases heq

theorem frame?_of_report? {events : List Event} {path source : String} {found : List Diagnostic}
    (h : events.filterMap Event.report? = found.map (path, source, ·)) :
    events.filterMap Event.frame? = found.map (·.frame path source) := by
  have hframes : events.filterMap Event.frame? = (events.filterMap Event.report?).map
      fun (name, source, found) ↦ found.frame name source :=
    (List.map_filterMap).symm
  rw [hframes, h, List.map_map]
  rfl

theorem join_shown_lines (path source : String) :
    String.join (((checkLines source).flatMap (lineEvents path source)).map (·.shown false)) =
      String.join ((checkDiagnostics source).map (·.frame path source)) := by
  rw [join_shown_false, frame?_of_report? (filterMap_report?_lines path source)]
  intro record hrecord
  obtain ⟨checked, -, hmem⟩ := List.mem_flatMap.mp hrecord
  exact level_ne_info_of_mem_lineEvents hmem

theorem join_shown_performCheck {files : Files} {path source : String}
    (h : files.text path = .ok source) :
    String.join ((performCheck files path).events.map (·.shown false)) =
      String.join ((checkDiagnostics source).map (·.frame path source)) ++
        if (checkDiagnostics source).length = 0 then
          LogRecord.shown ⟨.info, programTarget,
            "checked " ++ toString (annotationLines source).length ++ " annotations"⟩
        else "" := by
  have hlines := join_shown_lines path source
  rw [performCheck, h, ← length_checkLines]
  simp only
  by_cases hfound : (checkDiagnostics source).length = 0
  · rw [if_pos hfound, if_pos hfound, List.map_append, String.join_append, hlines,
      List.map_singleton, String.join_cons, String.join_nil, String.append_empty,
      Event.shown_log_of_isShown rfl]
  · rw [if_neg hfound, if_neg hfound, String.append_empty, hlines]

theorem stderr_exit_performCheck {files : Files} {path source : String}
    (h : files.text path = .ok source) :
    ((performCheck files path).exit false).stderr =
      String.join ((checkDiagnostics source).map (·.frame path source)) ++
        if (checkDiagnostics source).length = 0 then
          LogRecord.shown ⟨.info, programTarget,
            "checked " ++ toString (annotationLines source).length ++ " annotations"⟩
        else
          line ("error: " ++ (toString (checkDiagnostics source).length ++ " of " ++
            toString (annotationLines source).length ++ " annotations failed to parse")) := by
  obtain ⟨-, hresult⟩ := performCheck_of_text h
  rw [Performance.exit, hresult, join_shown_performCheck h]
  by_cases hfound : (checkDiagnostics source).length = 0
  · simp only [if_pos hfound]
  · simp only [if_neg hfound, String.append_empty]

/-! ## Parts of a file -/

theorem annotationLines_empty : annotationLines "" = [] := rfl

/-- The annotations behind a line feed are those of what is there, moved. -/
theorem annotationLines_append_line (front b : String) :
    annotationLines (front ++ "\n" ++ b) = annotationLines front ++ (annotationLines b).map
      (.moved ((front ++ "\n").toList.count '\n') (front ++ "\n").utf8ByteSize) := by
  have hcount : (front ++ "\n").toList.count '\n' = front.toList.count '\n' + 1 := by
    rw [String.toList_append, List.count_append]
    rfl
  have hsize : (front ++ "\n").utf8ByteSize = utf8Length front.toList + 1 := by
    rw [String.utf8ByteSize_append, utf8Length_toList]
    rfl
  have hlines : sourceLines (front ++ "\n" ++ b) = sourceLines front ++ (sourceLines b).map
      (.moved (front.toList.count '\n' + 1) (utf8Length front.toList + 1)) := by
    rw [sourceLines, String.toList_append, String.toList_append, List.append_assoc]
    exact placeLines_splitLines_append 1 0 front.toList b.toList
  rw [annotationLines, hlines, List.filter_append, List.filter_map, hcount, hsize]
  rfl

theorem annotationLines_append {a : String} (h : EndsLine a.toList) (b : String) :
    annotationLines (a ++ b) = annotationLines a ++
      (annotationLines b).map (.moved (a.toList.count '\n') a.utf8ByteSize) := by
  rcases h.cases with hnil | ⟨front, hfront⟩
  · obtain rfl := String.toList_eq_nil_iff.mp hnil
    rw [String.empty_append, annotationLines_empty, List.nil_append]
    exact (List.map_id _).symm
  · obtain rfl : a = String.ofList front ++ "\n" := by
      rw [← String.toList_inj, hfront, String.toList_append, String.toList_ofList]
      rfl
    -- the empty line behind the line feed is no annotation
    have hempty := annotationLines_append_line (String.ofList front) ""
    rw [annotationLines_empty, List.map_nil, List.append_nil, String.append_empty] at hempty
    rw [annotationLines_append_line, hempty]

theorem report?_moved (lines bytes : Nat) (line : SourceLine) :
    (line.moved lines bytes).report? = line.report?.map (.shift bytes) := by
  rw [SourceLine.report?, SourceLine.report?, SourceLine.content_moved]
  cases parse (String.ofList line.content) with
  | ok type => rfl
  | error error =>
    rw [Option.map_some, Diagnostic.shift_shift]
    rfl

theorem checkDiagnostics_append {a : String} (h : EndsLine a.toList) (b : String) :
    checkDiagnostics (a ++ b) =
      checkDiagnostics a ++ (checkDiagnostics b).map (.shift a.utf8ByteSize) := by
  rw [checkDiagnostics_eq, checkDiagnostics_eq, checkDiagnostics_eq, annotationLines_append h,
    List.filterMap_append, List.filterMap_map, List.map_filterMap]
  exact congrArg (_ ++ ·) (List.filterMap_congr fun line _ ↦ report?_moved _ _ line)

/-! ## Whole checks -/

/-- **A check reports the errors of its lines, each at its place.** The lines are the stretches
between line feeds, in their order. Those that are not skipped are read without the carriage returns
at their ends, and what is reported is the diagnostic of each one that is no annotation, moved to
where the line stands; there its label is within the line and holds the same word. The counts are
those of the lines read and of the diagnostics, and the exit code is zero if and only if there are
no diagnostics; unless more is asked for, the diagnostics and a summary are all that is written.
What is in front of a source, if it ends with a line feed, adds its own reports and its own count
and moves those of the source by its bytes. -/
theorem check_reports_lines (source : String) :
    ((∀ line, line ∈ sourceLines source ↔ line.IsOf source.toList) ∧
      (sourceLines source).Pairwise (·.start < ·.start)) ∧
    (∀ line : SourceLine,
      (∃ n, line.text = line.content ++ List.replicate n '\r' ∧
        line.content.getLast? ≠ some '\r') ∧
      (line.isSkipped = true ↔ (∀ c ∈ line.content, isBlank c = true) ∨
        ∃ blanks rest, line.content = blanks ++ '#' :: rest ∧ ∀ c ∈ blanks, isBlank c = true)) ∧
    (checkDiagnostics source = ((sourceLines source).filter (!·.isSkipped)).filterMap
        SourceLine.report? ∧
      ∀ line ∈ sourceLines source, ∀ error, parse (String.ofList line.content) = .error error →
        ∃ report, line.report? = some report ∧ ReportsOn source.toList line error report) ∧
    (∀ (files : Files) (path : String), files path = .ok source.toUTF8 →
      let checked := ((sourceLines source).filter (!·.isSkipped)).length
      let failed := (checkDiagnostics source).length
      (performCheck files path).events.filterMap Event.report? =
        (checkDiagnostics source).map (path, source, ·) ∧
      (performCheck files path).result = (if failed = 0 then
          .ok (line ("success: " ++ toString checked ++ " annotations parsed in " ++ quoted path))
        else
          .error (toString failed ++ " of " ++ toString checked ++
            " annotations failed to parse")) ∧
      (∀ verbose, (Request.exit files (.run ⟨.check path, verbose⟩)).code = 0 ↔ failed = 0) ∧
      (Request.exit files (.run ⟨.check path, false⟩)).stderr =
        String.join ((checkDiagnostics source).map (·.frame path source)) ++
          if failed = 0 then
            LogRecord.shown
              ⟨.info, programTarget, "checked " ++ toString checked ++ " annotations"⟩
          else
            line ("error: " ++ (toString failed ++ " of " ++ toString checked ++
              " annotations failed to parse"))) ∧
    ∀ front : String, EndsLine front.toList →
      checkDiagnostics (front ++ source) =
        checkDiagnostics front ++ (checkDiagnostics source).map (.shift front.utf8ByteSize) ∧
      (checkLines (front ++ source)).length =
        (checkLines front).length + (checkLines source).length := by
  refine ⟨⟨fun _ ↦ mem_sourceLines_iff, pairwise_placeLines 1 0 _⟩,
    fun line ↦ ⟨line.exists_text_eq, SourceLine.isSkipped_iff⟩,
    ⟨checkDiagnostics_eq source, fun line hline error ↦ (mem_sourceLines_iff.mp hline).reportsOn⟩,
    fun files path hfile ↦ ?_, fun front hfront ↦ ⟨checkDiagnostics_append hfront source, ?_⟩⟩
  · have htext := text_eq_of_toUTF8 hfile
    obtain ⟨hevents, hresult⟩ := performCheck_of_text htext
    exact ⟨hevents, hresult, fun verbose ↦ code_check_eq_zero htext,
      stderr_exit_performCheck htext⟩
  · rw [length_checkLines, length_checkLines, length_checkLines, annotationLines_append hfront,
      List.length_append, List.length_map]

end TypeNotation

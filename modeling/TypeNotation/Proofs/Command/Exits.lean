import TypeNotation.Proofs.Check

/-!
# All or nothing

What an invocation leaves behind is all of its output or none of it. A command succeeds exactly if
what it is given is good, and then it says nothing but log records and writes a text. Otherwise it
writes no text, and its last words on the standard error are why it failed. Before them stands one
frame for each annotation that it has read in vain, and there is nothing else but log records, none
of which begins like an error. How much is logged makes no difference to that.
-/

namespace TypeNotation

/-! ## Good input -/

/-- The names that a command asks for can be had: it asks for none, or the file holds a name map. -/
def HasNames (files : Files) (names : Option String) : Prop :=
  ∀ path ∈ names, ∃ (json : String) (map : NameMap),
    files path = .ok json.toUTF8 ∧ NameMap.ofJson json = .ok map

/-- A text to be read, with the source in which it stands and the byte at which it begins there. -/
structure Excerpt where
  name : String
  source : String
  start : Nat
  text : String

namespace Excerpt

/-- An annotation from the arguments, which is a source by itself. -/
def ofArgument (source : String) : Excerpt := ⟨annotationName, source, 0, source⟩

def ofLine (path source : String) (line : SourceLine) : Excerpt :=
  ⟨path, source, line.start, String.ofList line.content⟩

/-- The frame for a failure to read the text, drawn around the place in the source. -/
def frame (excerpt : Excerpt) (failure : Failure) : String :=
  ((Diagnostic.ofFailure failure).shift excerpt.start).frame excerpt.name excerpt.source

end Excerpt

def failure? {ε α : Type} (toFailure : ε → Failure) : Except ε α → Option Failure
  | .ok _ => none
  | .error error => some (toFailure error)

namespace Command

/-- What a command is given is good. -/
def IsGood (files : Files) : Command → Prop
  | parse source _ | fmt source => ∃ type, TypeNotation.parse source = .ok type
  | tokens source => ∃ found, tokenize source = .ok found
  | render source names _ => HasNames files names ∧ ∃ type, TypeNotation.parse source = .ok type
  | check path => ∃ source : String, files path = .ok source.toUTF8 ∧
      ∀ line ∈ sourceLines source, line.isSkipped = false →
        ∃ type, TypeNotation.parse (String.ofList line.content) = .ok type

/-- The annotations that a command comes to read. It reads none if the file or the names that it
needs cannot be had. -/
def annotations (files : Files) : Command → List Excerpt
  | parse source _ | tokens source | fmt source => [.ofArgument source]
  | render source names _ =>
    match loadNames files names with
    | .ok _ => [.ofArgument source]
    | .error _ => []
  | check path =>
    match files.text path with
    | .ok source => (annotationLines source).map (.ofLine path source)
    | .error _ => []

/-- Whether a command reads an annotation in vain. -/
def rejects (command : Command) (source : String) : Bool :=
  match command with
  | tokens _ => (tokenize source).toOption.isNone
  | _ => (TypeNotation.parse source).toOption.isNone

/-- Why a command reads an annotation in vain, if it does. -/
def fault? (command : Command) (source : String) : Option Failure :=
  match command with
  | tokens _ => failure? .lexical (tokenize source)
  | _ => failure? .ofSyntaxError (TypeNotation.parse source)

def failed (files : Files) (command : Command) : Nat :=
  (command.annotations files).countP fun annotation ↦ command.rejects annotation.text

/-- The frames for the annotations that a command reads in vain. -/
def frames (files : Files) (command : Command) : List String :=
  (command.annotations files).filterMap fun annotation ↦
    (command.fault? annotation.text).map annotation.frame

/-- What is logged for everyone when a command has done its work. -/
def summary (files : Files) (command : Command) : String :=
  match command with
  | check _ => LogRecord.shown ⟨.info, programTarget,
      "checked " ++ toString (command.annotations files).length ++ " annotations"⟩
  | _ => ""

def failure (files : Files) (command : Command) : String :=
  match command with
  | parse _ _ | fmt _ => "Parsing failed"
  | tokens _ => "Lexical analysis failed"
  | render _ names _ =>
    match loadNames files names with
    | .ok _ => "Parsing failed"
    | .error error => error.message
  | check path =>
    match files.text path with
    | .ok _ => toString (command.failed files) ++ " of " ++
        toString (command.annotations files).length ++ " annotations failed to parse"
    | .error _ => "Failed to read annotation file: " ++ quoted path

end Command

theorem text_eq_ok_iff {files : Files} {path source : String} :
    files.text path = .ok source ↔ files path = .ok source.toUTF8 := by
  refine ⟨fun h ↦ ?_, text_eq_of_toUTF8⟩
  unfold Files.text at h
  cases hfile : files path with
  | error error =>
    rw [hfile] at h
    cases h
  | ok bytes =>
    simp only [hfile, bind, Except.bind, String.fromUTF8?] at h
    split_ifs at h
    cases h
    rfl

theorem hasNames_iff {files : Files} {names : Option String} :
    HasNames files names ↔ ∃ map, loadNames files names = .ok map := by
  cases names with
  | none => exact ⟨fun _ ↦ ⟨.empty, rfl⟩, fun _ ↦ fun _ h ↦ by cases h⟩
  | some path =>
    have hone : HasNames files (some path) ↔ ∃ json map,
        files.text path = .ok json ∧ NameMap.ofJson json = .ok map := by
      simp only [HasNames, Option.mem_some_iff, forall_eq', text_eq_ok_iff]
    rw [hone, loadNames]
    cases files.text path with
    | error error => simp
    | ok json =>
      cases h : NameMap.ofJson json with
      | error error => simp [h, Except.mapError]
      | ok map => simp [h, Except.mapError]

/-! ## Frames -/

theorem Excerpt.frame_ofArgument (source : String) (failure : Failure) :
    (Excerpt.ofArgument source).frame failure =
      (Diagnostic.ofFailure failure).frame annotationName source := by
  rw [frame, ofArgument, Diagnostic.shift_zero]

namespace Command

theorem isSome_fault? (command : Command) (source : String) :
    (command.fault? source).isSome = command.rejects source := by
  unfold fault? rejects
  cases command with
  | tokens _ => cases tokenize source <;> rfl
  | _ => cases TypeNotation.parse source <;> rfl

/-- There is a frame for each annotation that is read in vain. -/
theorem length_frames (files : Files) (command : Command) :
    (command.frames files).length = command.failed files := by
  rw [frames, failed, List.length_filterMap_eq_countP]
  exact List.countP_congr fun annotation _ ↦ by rw [Option.isSome_map, isSome_fault?]

theorem frames_of_argument {files : Files} {command : Command} {source : String}
    (h : command.annotations files = [.ofArgument source]) :
    command.frames files =
      ((command.fault? source).map (Excerpt.ofArgument source).frame).toList := by
  have htext : (Excerpt.ofArgument source).text = source := rfl
  rw [frames, h, List.filterMap_cons, htext]
  cases command.fault? source <;> rfl

theorem frames_check {files : Files} {path source : String} (h : files.text path = .ok source) :
    (check path).frames files = (checkDiagnostics source).map (·.frame path source) := by
  rw [frames, annotations, h, List.filterMap_map, checkDiagnostics_eq, List.map_filterMap]
  refine List.filterMap_congr fun line _ ↦ ?_
  change (failure? _ (TypeNotation.parse (String.ofList line.content))).map _ = _
  rw [SourceLine.report?]
  cases TypeNotation.parse (String.ofList line.content) <;> rfl

end Command

/-- What is written before the last words: the frames in their order, and log records among them.
A frame begins as an error does, and no record does. -/
inductive IsTrail (verbose : Bool) : List String → String → Prop
  | nil : IsTrail verbose [] ""
  | record {frames : List String} {trail rest : String} {record : LogRecord} :
      record.level.isShown verbose = true → record.shown = "[" ++ rest →
      IsTrail verbose frames trail → IsTrail verbose frames (record.shown ++ trail)
  | frame {frames : List String} {trail frame rest : String} :
      frame = "error: " ++ rest →
      IsTrail verbose frames trail → IsTrail verbose (frame :: frames) (frame ++ trail)

/-- No diagnostic is lost between what is said and what is written. -/
theorem isTrail_shown (verbose : Bool) (events : List Event) :
    IsTrail verbose (events.filterMap Event.frame?)
      (String.join (events.map (·.shown verbose))) := by
  induction events with
  | nil => exact .nil
  | cons event events ih =>
    rw [List.map_cons, String.join_cons]
    cases event with
    | log record =>
      rw [List.filterMap_cons_none (frame?_log record)]
      cases hshown : record.level.isShown verbose with
      | true =>
        obtain ⟨rest, hrest⟩ := record.exists_shown_eq
        rw [Event.shown_log_of_isShown hshown]
        exact .record hshown hrest ih
      | false =>
        rw [Event.shown_log_of_not_isShown hshown, String.empty_append]
        exact ih
    | diagnostic name source found =>
      obtain ⟨rest, hrest⟩ := found.exists_frame_eq name source
      rw [List.filterMap_cons_some (frame?_diagnostic name source found), Event.shown_diagnostic]
      rw [String.append_assoc, String.append_assoc] at hrest
      exact .frame hrest ih

theorem IsTrail.exists_eq_of_mem {verbose : Bool} {frames : List String} {trail : String}
    (h : IsTrail verbose frames trail) : ∀ frame ∈ frames, ∃ rest, frame = "error: " ++ rest := by
  induction h with
  | nil => exact List.forall_mem_nil _
  | record _ _ _ ih => exact ih
  | frame hframe _ ih => exact List.forall_mem_cons.mpr ⟨⟨_, hframe⟩, ih⟩

/-! ## Performances -/

/-- The performance ends with a text if all was well, and with the message if it was not. What is
written of its diagnostics are the frames, and these are none if all was well. -/
structure Performance.Ends (performance : Performance) (good : Prop) (frames : List String)
    (failure : String) : Prop where
  text : good → ∃ text, performance.result = .ok text ∧ text ≠ ""
  failure : ¬good → performance.result = .error failure
  silent : good → frames = []
  frames : performance.events.filterMap Event.frame? = frames

theorem line_ne_empty (text : String) : line text ≠ "" := by
  intro h
  have hlength := congrArg String.length h
  simp [line] at hlength

theorem append_ne_empty {a b : String} (h : a ≠ "" ∨ b ≠ "") : a ++ b ≠ "" := by
  rw [Ne, String.append_eq_empty_iff]
  tauto

theorem filterMap_frame?_log (records : List LogRecord) :
    (records.map Event.log).filterMap Event.frame? = [] := by
  rw [List.filterMap_map]
  exact List.filterMap_eq_nil_iff.mpr fun record _ ↦ frame?_log record

namespace Performance.Ends

variable {performance : Performance} {good : Prop} {frames : List String} {failure : String}

/-- Nothing can fail any more. -/
theorem of_ok (records : List LogRecord) {text : String} (h : text ≠ "") :
    Performance.Ends ⟨records.map Event.log, .ok text⟩ True [] "" where
  text := fun _ ↦ ⟨text, rfl, h⟩
  failure := fun h ↦ absurd trivial h
  silent := fun _ ↦ rfl
  frames := filterMap_frame?_log records

/-- What is logged before is no part of how a performance ends. -/
theorem behind {α : Type} (records : List LogRecord) {value : α} {next : α → Performance}
    (h : (next value).Ends good frames failure) :
    (afterStep (records.map Event.log) (.ok value) next).Ends good frames failure where
  text := h.text
  failure := h.failure
  silent := h.silent
  frames := by
    rw [afterStep, List.filterMap_append, filterMap_frame?_log, List.nil_append]
    exact h.frames

/-- What a step that fails has said is all that is said. -/
theorem of_error {α ε : Type} {step : Except ε α} {error : ε} (hstep : step = .error error)
    (hevents : performance.events.filterMap Event.frame? = frames)
    (hresult : performance.result = .error failure) :
    performance.Ends (∃ value, step = .ok value) frames failure := by
  have hbad : ¬∃ value, step = .ok value := by
    rintro ⟨value, hvalue⟩
    rw [hstep] at hvalue
    cases hvalue
  exact ⟨fun hgood ↦ absurd hgood hbad, fun _ ↦ hresult, fun hgood ↦ absurd hgood hbad, hevents⟩

end Performance.Ends

/-- Reading an annotation is all that can fail. -/
theorem ends_withType {source : String} {next : TypeExpr → Performance}
    (hnext : ∀ type, (next type).Ends True [] "") :
    (withType source next).Ends (∃ type, parse source = .ok type)
      ((failure? .ofSyntaxError (parse source)).map (Excerpt.ofArgument source).frame).toList
      "Parsing failed" := by
  have hresult : (Reading.ofSource source).result = parse source := rfl
  unfold withType readArgument
  cases hparse : parse source with
  | ok type =>
    simp only [hresult, hparse]
    have hends := (hnext type).behind ((Reading.ofSource source).log source)
    exact ⟨fun _ ↦ hends.text trivial, fun h ↦ absurd ⟨type, rfl⟩ h, fun _ ↦ rfl, hends.frames⟩
  | error error =>
    simp only [hresult, hparse, Performance.afterStep]
    refine .of_error rfl ?_ rfl
    rw [List.filterMap_append, filterMap_frame?_log, List.nil_append, failure?, Option.map_some,
      Excerpt.frame_ofArgument]
    rfl

theorem ends_performTokens (source : String) :
    (performTokens source).Ends (∃ found, tokenize source = .ok found)
      ((failure? .lexical (tokenize source)).map (Excerpt.ofArgument source).frame).toList
      "Lexical analysis failed" := by
  unfold performTokens
  cases tokenize source with
  | ok found =>
    exact ⟨fun _ ↦ ⟨_, rfl, append_ne_empty (.inl (line_ne_empty _))⟩,
      fun h ↦ absurd ⟨found, rfl⟩ h, fun _ ↦ rfl, rfl⟩
  | error error =>
    refine .of_error rfl ?_ rfl
    rw [failure?, Option.map_some, Excerpt.frame_ofArgument]
    rfl

/-- With its names, a rendering is like any other reading of an annotation. -/
theorem ends_performRender {files : Files} {names : Option String} {map : NameMap}
    (h : loadNames files names = .ok map) (source : String) (aliasName : Option String) :
    (performRender files source names aliasName).Ends (∃ type, parse source = .ok type)
      ((failure? .ofSyntaxError (parse source)).map (Excerpt.ofArgument source).frame).toList
      "Parsing failed" := by
  have hread {rendering : TypeExpr → Rendering} :
      (withType source fun type ↦
        ⟨(rendering type).log.map Event.log, .ok
          (String.join ((rendering type).imports.lines.map line) ++
            line (rendering type).text)⟩).Ends
        (∃ type, parse source = .ok type) _ "Parsing failed" :=
    ends_withType fun type ↦ .of_ok _ (append_ne_empty (.inr (line_ne_empty _)))
  unfold performRender
  rw [h]
  refine .behind [] ?_
  cases names with
  | none => exact hread.behind []
  | some path => exact hread.behind [_]

/-- A check fails as often as a line that is not skipped is no annotation. -/
theorem ends_performCheck {files : Files} {path source : String}
    (h : files.text path = .ok source) :
    (performCheck files path).Ends
      (∀ line ∈ sourceLines source, line.isSkipped = false →
        ∃ type, parse (String.ofList line.content) = .ok type)
      ((Command.check path).frames files) ((Command.check path).failure files) := by
  have hfailed : (checkDiagnostics source).length = (Command.check path).failed files := by
    rw [← Command.length_frames, Command.frames_check h, List.length_map]
  obtain ⟨hevents, hresult⟩ := performCheck_of_text h
  rw [← length_checkDiagnostics_eq_zero_iff, Command.frames_check h]
  refine ⟨fun hzero ↦ ⟨_, by rw [hresult, if_pos hzero], line_ne_empty _⟩, fun hfound ↦ ?_,
    fun hzero ↦ ?_, frame?_of_report? hevents⟩
  · rw [hresult, if_neg hfound, Command.failure, Command.annotations, h, List.length_map, hfailed]
  · rw [List.length_eq_zero_iff.mp hzero, List.map_nil]

/-- What a command does ends well exactly if what it is given is good. -/
theorem ends_perform (files : Files) (command : Command) :
    (command.perform files).Ends (command.IsGood files) (command.frames files)
      (command.failure files) := by
  cases command with
  | parse source json =>
    rw [Command.frames_of_argument rfl]
    exact ends_withType fun type ↦ .of_ok [] (line_ne_empty _)
  | tokens source =>
    rw [Command.frames_of_argument rfl]
    exact ends_performTokens source
  | fmt source =>
    rw [Command.frames_of_argument rfl]
    exact ends_withType fun type ↦ .of_ok [] (line_ne_empty _)
  | check path =>
    rw [Command.perform, Command.IsGood]
    simp only [← text_eq_ok_iff]
    cases htext : files.text path with
    | ok source => simpa using ends_performCheck htext
    | error error =>
      rw [performCheck, Command.frames, Command.annotations, Command.failure, htext]
      refine ⟨?_, fun _ ↦ rfl, fun _ ↦ rfl, rfl⟩
      rintro ⟨source, ⟨⟩, -⟩
  | render source names aliasName =>
    rw [Command.perform, Command.IsGood, hasNames_iff]
    cases hnames : loadNames files names with
    | ok map =>
      have hends := ends_performRender hnames source aliasName
      rw [Command.frames_of_argument (by rw [Command.annotations, hnames]), Command.failure, hnames]
      exact ⟨fun hgood ↦ hends.text hgood.2,
        fun hbad ↦ hends.failure fun htype ↦ hbad ⟨⟨map, rfl⟩, htype⟩,
        fun hgood ↦ hends.silent hgood.2, hends.frames⟩
    | error error =>
      rw [performRender, Command.frames, Command.annotations, Command.failure, hnames]
      refine ⟨?_, fun _ ↦ rfl, fun _ ↦ rfl, rfl⟩
      rintro ⟨⟨map, ⟨⟩⟩, -⟩

/-! ## What is written for everyone -/

/-- Unless more is asked for, nothing of the log is written. -/
def Performance.IsQuiet (performance : Performance) : Prop :=
  ∀ record, Event.log record ∈ performance.events → record.level ≠ .info

namespace Performance.IsQuiet

theorem of_log {records : List LogRecord} {result : Except String String}
    (h : ∀ record ∈ records, record.level ≠ .info) :
    Performance.IsQuiet ⟨records.map Event.log, result⟩ :=
  fun record hrecord ↦ h record (mem_map_log.mp hrecord)

theorem afterStep {α : Type} {events : List Event} {step : Except String α}
    {next : α → Performance}
    (hevents : ∀ record, Event.log record ∈ events → record.level ≠ .info)
    (hnext : ∀ value, (next value).IsQuiet) :
    (Performance.afterStep events step next).IsQuiet := by
  intro record hrecord
  cases step with
  | error error => exact hevents record hrecord
  | ok value =>
    rcases List.mem_append.mp hrecord with hfront | hbehind
    · exact hevents record hfront
    · exact hnext value record hbehind

end Performance.IsQuiet

theorem isQuiet_withType {source : String} {next : TypeExpr → Performance}
    (hnext : ∀ type, (next type).IsQuiet) : (withType source next).IsQuiet := by
  have hread : ∀ record ∈ (Reading.ofSource source).log source, record.level ≠ .info :=
    level_ne_info_of_mem_log source _
  refine .afterStep (fun record hrecord ↦ ?_) hnext
  cases hresult : (Reading.ofSource source).result with
  | ok type =>
    rw [hresult] at hrecord
    exact hread record (mem_map_log.mp hrecord)
  | error error =>
    rw [hresult] at hrecord
    rcases List.mem_append.mp hrecord with hlog | hreport
    · exact hread record (mem_map_log.mp hlog)
    · cases List.mem_singleton.mp hreport

theorem isQuiet_performTokens (source : String) : (performTokens source).IsQuiet := by
  unfold performTokens
  cases tokenize source with
  | ok found => exact fun record hrecord ↦ absurd hrecord List.not_mem_nil
  | error error =>
    intro record hrecord
    cases List.mem_singleton.mp hrecord

theorem isQuiet_performRender (files : Files) (source : String) (names aliasName : Option String) :
    (performRender files source names aliasName).IsQuiet := by
  refine .afterStep (fun _ h ↦ absurd h List.not_mem_nil) fun map ↦
    .afterStep (fun record hrecord ↦ ?_) fun _ ↦ isQuiet_withType fun type ↦
      .of_log fun record hrecord ↦ ?_
  · cases names with
    | none => cases hrecord
    | some path =>
      cases List.mem_singleton.mp hrecord
      exact LogLevel.noConfusion
  · obtain ⟨use, -, rfl⟩ := List.mem_map.mp hrecord
    exact LogLevel.noConfusion

/-- Only a check has something to say to everyone. -/
theorem isQuiet_perform (files : Files) {command : Command} (h : ∀ path, command ≠ .check path) :
    (command.perform files).IsQuiet := by
  have hnone {text : String} : Performance.IsQuiet ⟨[], .ok text⟩ :=
    .of_log fun _ hrecord ↦ absurd hrecord List.not_mem_nil
  cases command with
  | parse source json => exact isQuiet_withType fun type ↦ hnone
  | tokens source => exact isQuiet_performTokens source
  | fmt source => exact isQuiet_withType fun type ↦ hnone
  | check path => exact absurd rfl (h path)
  | render source names aliasName => exact isQuiet_performRender files source names aliasName

theorem Command.summary_eq_empty {files : Files} {command : Command} (h : ∀ path, command ≠ .check path) :
    command.summary files = "" := by
  cases command with
  | check path => exact absurd rfl (h path)
  | _ => rfl

/-- What is written unless more is asked for: the summary if all was well, otherwise the frames. -/
theorem join_shown_perform (files : Files) (command : Command) :
    (command.IsGood files →
      String.join ((command.perform files).events.map (·.shown false)) = command.summary files) ∧
    (¬command.IsGood files →
      String.join ((command.perform files).events.map (·.shown false)) =
        String.join (command.frames files)) := by
  obtain ⟨-, -, hsilent, hframes⟩ := ends_perform files command
  by_cases hcheck : ∃ path, command = .check path
  · obtain ⟨path, rfl⟩ := hcheck
    rw [Command.perform, Command.IsGood, Command.summary, Command.annotations]
    simp only [← text_eq_ok_iff]
    cases htext : files.text path with
    | error error =>
      rw [performCheck, Command.frames, Command.annotations, htext]
      refine ⟨?_, fun _ ↦ rfl⟩
      rintro ⟨source, ⟨⟩, -⟩
    | ok source =>
      simp only [Except.ok.injEq, exists_eq_left', ← length_checkDiagnostics_eq_zero_iff]
      rw [join_shown_performCheck htext, Command.frames_check htext]
      refine ⟨fun hzero ↦ ?_, fun hfound ↦ ?_⟩
      · rw [if_pos hzero, List.length_eq_zero_iff.mp hzero, List.map_nil, String.join_nil,
          String.empty_append, List.length_map]
      · rw [if_neg hfound, String.append_empty]
  · have hquiet := isQuiet_perform files (not_exists.mp hcheck)
    rw [join_shown_false hquiet, hframes]
    refine ⟨fun hgood ↦ ?_, fun _ ↦ rfl⟩
    rw [hsilent hgood, String.join_nil, Command.summary_eq_empty (not_exists.mp hcheck)]

/-! ## Asking for more to be logged -/

theorem leadingLetters?_true {letters : List Char} {verbose : Bool}
    (h : leadingLetters? true letters = some (false, verbose)) : verbose = true := by
  cases letters with
  | nil =>
    cases h
    rfl
  | cons letter letters =>
    rw [leadingLetters?] at h
    split_ifs at h with hversion hagain
    · cases h
    · exact absurd hagain.2 (by decide)

/-- What has been met is not met again, but it stays. -/
theorem verbose_of_ofWords? {words : List String} {invocation : Invocation}
    (h : Request.ofWords? true words = some (.run invocation)) : invocation.verbose = true := by
  induction words with
  | nil => cases h
  | cons word words ih =>
    rw [Request.ofWords?] at h
    cases hword : Word.ofString word with
    | plain name =>
      simp only [hword, bind, Option.bind_eq_some_iff, Option.some.injEq, Request.run.injEq] at h
      obtain ⟨name, -, given, -, command, -, rfl⟩ := h
      rfl
    | long name value =>
      cases value with
      | none =>
        simp only [hword] at h
        split_ifs at h with hversion hagain
        · cases h
        · exact absurd hagain.2 (by decide)
      | some value => simp [hword] at h
    | short letters =>
      simp only [hword] at h
      split at h
      · cases h
      · next verbose hletters =>
        rw [leadingLetters?_true hletters] at h
        exact ih h
      · cases h
    | terminator => simp [hword] at h

theorem leadingLetters?_false {letters : List Char}
    (h : leadingLetters? false letters = some (false, false)) : letters = [] := by
  cases letters with
  | nil => rfl
  | cons letter letters =>
    rw [leadingLetters?] at h
    split_ifs at h with hversion hverbose
    · cases h
    · exact absurd (leadingLetters?_true h) (by decide)

/-- Arguments that ask for nothing to be logged ask for the same command if they do. -/
theorem ofWords?_verbose {words : List String} {command : Command}
    (h : Request.ofWords? false words = some (.run ⟨command, false⟩)) :
    Request.ofWords? true words = some (.run ⟨command, true⟩) := by
  induction words with
  | nil => cases h
  | cons word words ih =>
    rw [Request.ofWords?] at h ⊢
    cases hword : Word.ofString word with
    | plain name =>
      simp only [hword, bind, Option.bind_eq_some_iff, Option.some.injEq, Request.run.injEq,
        Invocation.mk.injEq, Bool.false_or] at h ⊢
      obtain ⟨name, hname, given, hgiven, command, hcommand, rfl, -⟩ := h
      exact ⟨name, hname, given, hgiven, command, hcommand, rfl, rfl⟩
    | long name value =>
      cases value with
      | none =>
        simp only [hword] at h
        split_ifs at h with hversion hverbose
        · cases h
        · cases verbose_of_ofWords? h
      | some value => simp [hword] at h
    | short letters =>
      simp only [hword] at h
      split at h
      · cases h
      · next verbose hletters =>
        cases verbose with
        | true => cases verbose_of_ofWords? h
        | false =>
          obtain rfl := leadingLetters?_false hletters
          exact ih h
      · cases h
    | terminator => simp [hword] at h

/-! ## Exits -/

/-- **An invocation leaves all of its output or none.** Its exit code is zero if what the command is
given is good, and one otherwise. In the first case it writes some text and no diagnostic. In the
second it writes no text, and the last thing on the standard error is why it failed; before that
stands one frame for each annotation that it has read in vain, and each begins as an error does.
Nothing else is written but log records, and unless more is asked for not even these, save for the
summary of a check. Asking for more changes neither the text nor the exit code, and can be done in
front of any arguments. -/
theorem exit_all_or_nothing (files : Files) (command : Command) :
    (∀ verbose,
      let exit := Request.exit files (.run ⟨command, verbose⟩)
      ((exit.code = 0 ↔ command.IsGood files) ∧ (exit.code = 1 ↔ ¬command.IsGood files)) ∧
      (exit.code = 0 →
        exit.stdout ≠ "" ∧ command.frames files = [] ∧ IsTrail verbose [] exit.stderr ∧
        (verbose = false → exit.stderr = command.summary files)) ∧
      (exit.code = 1 →
        exit.stdout = "" ∧
        ∃ trail, exit.stderr = trail ++ line ("error: " ++ command.failure files) ∧
          IsTrail verbose (command.frames files) trail ∧
          (verbose = false → trail = String.join (command.frames files)))) ∧
    ((command.perform files).events.filterMap Event.frame? = command.frames files ∧
      (command.frames files).length =
        (command.annotations files).countP (fun annotation ↦ command.rejects annotation.text) ∧
      ∀ frame ∈ command.frames files, ∃ rest, frame = "error: " ++ rest) ∧
    ((Request.exit files (.run ⟨command, true⟩)).code =
        (Request.exit files (.run ⟨command, false⟩)).code ∧
      (Request.exit files (.run ⟨command, true⟩)).stdout =
        (Request.exit files (.run ⟨command, false⟩)).stdout) ∧
    ∀ arguments, Request.ofArguments? arguments = some (.run ⟨command, false⟩) →
      Request.ofArguments? ("--verbose" :: arguments) = some (.run ⟨command, true⟩) := by
  obtain ⟨htext, hfailure, hsilent, hframes⟩ := ends_perform files command
  obtain ⟨hsummary, hbrief⟩ := join_shown_perform files command
  have htrail (verbose : Bool) : IsTrail verbose (command.frames files)
      (String.join ((command.perform files).events.map (·.shown verbose))) :=
    hframes ▸ isTrail_shown verbose _
  have hreports := (htrail false).exists_eq_of_mem
  by_cases hgood : command.IsGood files
  · obtain ⟨text, hresult, hne⟩ := htext hgood
    have hexit (verbose : Bool) : Request.exit files (.run ⟨command, verbose⟩) =
        ⟨0, text, String.join ((command.perform files).events.map (·.shown verbose))⟩ := by
      rw [Request.exit, Performance.exit, hresult]
    refine ⟨fun verbose ↦ ?_, ⟨hframes, Command.length_frames files command, hreports⟩,
      ⟨by rw [hexit, hexit], by rw [hexit, hexit]⟩, fun _ ↦ ofWords?_verbose⟩
    dsimp only
    rw [hexit]
    refine ⟨⟨iff_of_true rfl hgood, iff_of_false Nat.zero_ne_one (not_not_intro hgood)⟩,
      fun _ ↦ ⟨hne, hsilent hgood, hsilent hgood ▸ htrail verbose, ?_⟩, fun h ↦ by cases h⟩
    rintro rfl
    exact hsummary hgood
  · have hexit (verbose : Bool) : Request.exit files (.run ⟨command, verbose⟩) =
        ⟨1, "", String.join ((command.perform files).events.map (·.shown verbose)) ++
          line ("error: " ++ command.failure files)⟩ := by
      rw [Request.exit, Performance.exit, hfailure hgood]
    refine ⟨fun verbose ↦ ?_, ⟨hframes, Command.length_frames files command, hreports⟩,
      ⟨by rw [hexit, hexit], by rw [hexit, hexit]⟩, fun _ ↦ ofWords?_verbose⟩
    dsimp only
    rw [hexit]
    refine ⟨⟨iff_of_false Nat.one_ne_zero hgood, iff_of_true rfl hgood⟩, fun h ↦ (by cases h),
      fun _ ↦ ⟨rfl, _, rfl, htrail verbose, ?_⟩⟩
    rintro rfl
    exact hbrief hgood

end TypeNotation

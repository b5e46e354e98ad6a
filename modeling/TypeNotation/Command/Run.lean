import TypeNotation.Check
import TypeNotation.Command.Arguments
import TypeNotation.Command.Files
import TypeNotation.NameMap.Json
import TypeNotation.Report.Frame
import TypeNotation.Text.Control
import TypeNotation.Token.Listing
import TypeNotation.TypeExpr.Canonical
import TypeNotation.TypeExpr.Json
import TypeNotation.TypeExpr.Outline
import TypeNotation.TypeScript.Rendering

/-!
# Running commands

A command either succeeds with a text for the standard output or fails with one final message, never
both. On its way it produces events, which are log records and diagnostics in the order in which
they arise. What an invocation writes and its exit code follow from these.

Running a command is a pure function of its arguments and the files.
-/

namespace TypeNotation

/-! ## What a command does -/

/-- The path of the file that a command reads, if it reads one. -/
def Command.path? : Command → Option String
  | check path => some path
  | render _ names _ => names
  | parse _ _ | tokens _ | fmt _ => none

/-- Something that a command says on its way. -/
inductive Event
  | log (record : LogRecord)
  /-- A diagnostic in the source with the given name. -/
  | diagnostic (name source : String) (found : Diagnostic)

/-- What a command says on its way, and how it ends. -/
structure Performance where
  events : List Event
  /-- What goes to the standard output, or the final message. -/
  result : Except String String

namespace Performance

/-- Goes on with the value of a step, unless the step fails. -/
def afterStep {α : Type} (events : List Event) (step : Except String α)
    (next : α → Performance) : Performance :=
  match step with
  | .error message => ⟨events, .error message⟩
  | .ok value => { next value with events := events ++ (next value).events }

end Performance

/-- The name of a source that is an argument. -/
def annotationName : String := "<annotation>"

def line (text : String) : String := text ++ "\n"

/-- What is said while an annotation from the arguments is read, and its type. -/
def readArgument (source : String) : List Event × Except String TypeExpr :=
  let reading := Reading.ofSource source
  let log := (reading.log source).map Event.log
  match reading.result with
  | .ok type => (log, .ok type)
  | .error error =>
    (log ++ [.diagnostic annotationName source (.ofFailure (.ofSyntaxError error))],
      .error "Parsing failed")

/-- Reads an annotation and goes on with its type. -/
def withType (source : String) (next : TypeExpr → Performance) : Performance :=
  let (events, step) := readArgument source
  .afterStep events step next

/-- The part of the program that is the command line, as it is named in log records. -/
def programTarget : String := "annotype"

/-- Shows the tree of an annotation. -/
def performParse (source : String) (json : Bool) : Performance :=
  withType source fun type ↦
    ⟨[], .ok (line (if json then type.toJson.indented else type.outline.spread))⟩

def performTokens (source : String) : Performance :=
  match tokenize source with
  | .ok tokens => ⟨[], .ok (line "=== Tokens ===" ++ line (listing tokens))⟩
  | .error error =>
    ⟨[.diagnostic annotationName source (.ofFailure (.lexical error))],
      .error "Lexical analysis failed"⟩

def performFmt (source : String) : Performance :=
  withType source fun type ↦ ⟨[], .ok (line type.canonical)⟩

/-- The name map at a path; without a path, the empty one. -/
def loadNames (files : Files) : Option String → Except NameMapError NameMap
  | none => .ok .empty
  | some path =>
    match files.text path with
    | .error error => .error (.unreadable path error.message)
    | .ok json => (NameMap.ofJson json).mapError fun error ↦ .invalid (error.describe json)

def namesLog (names : NameMap) : Option String → List Event
  | none => []
  | some path => [.log ⟨.debug, programTarget,
      "loaded " ++ toString names.size ++ " name mappings from " ++ quoted path⟩]

/-- Renders an annotation, the imports first. -/
def performRender (files : Files) (source : String) (path aliasName : Option String) :
    Performance :=
  .afterStep [] ((loadNames files path).mapError NameMapError.message) fun names ↦
    .afterStep (namesLog names path) (.ok ()) fun _ ↦
      withType source fun type ↦
        let rendering := match aliasName with
          | some aliasName => names.renderAlias aliasName type
          | none => names.render type
        ⟨rendering.log.map Event.log,
          .ok (String.join (rendering.imports.lines.map line) ++ line rendering.text)⟩

/-- What is said about one line of a checked file. -/
def lineEvents (path source : String) (checked : CheckedLine) : List Event :=
  let report : List Event := match checked.reading.result with
    | .ok type => [.log ⟨.debug, programTarget,
        "line " ++ toString checked.line.number ++ ": " ++ type.canonical⟩]
    | .error _ => checked.diagnostic?.toList.map (.diagnostic path source)
  (checked.reading.log (String.ofList checked.line.content)).map Event.log ++ report

def performCheck (files : Files) (path : String) : Performance :=
  match files.text path with
  | .error _ => ⟨[], .error ("Failed to read annotation file: " ++ quoted path)⟩
  | .ok source =>
    let lines := checkLines source
    let events := lines.flatMap (lineEvents path source)
    let checked := toString lines.length
    let failed := (checkDiagnostics source).length
    if failed = 0 then
      ⟨events ++ [.log ⟨.info, programTarget, "checked " ++ checked ++ " annotations"⟩],
        .ok (line ("success: " ++ checked ++ " annotations parsed in " ++ quoted path))⟩
    else
      ⟨events,
        .error (toString failed ++ " of " ++ checked ++ " annotations failed to parse")⟩

def Command.perform (files : Files) : Command → Performance
  | parse source json => performParse source json
  | tokens source => performTokens source
  | fmt source => performFmt source
  | check path => performCheck files path
  | render source names aliasName => performRender files source names aliasName

/-! ## What an invocation writes -/

/-- What a run of the program leaves behind. -/
structure Exit where
  code : Nat
  stdout : String
  stderr : String
  deriving DecidableEq, Repr, Inhabited

/-- A log message with its further lines indented. -/
def indentLines (message : String) : String :=
  String.ofList (message.toList.flatMap fun c ↦ if c = '\n' then "\n    ".toList else [c])

/-- A log record as it is written. A control sequence that does not end takes the end of the line
with it. -/
def LogRecord.shown (record : LogRecord) : String :=
  visible (line ("[" ++ padRight 5 record.level.name ++ " " ++ record.target ++ "] " ++
    indentLines record.message))

/-- A record begins with a bracket, which no control sequence takes away. -/
theorem LogRecord.exists_shown_eq (record : LogRecord) : ∃ rest, record.shown = "[" ++ rest := by
  have hplain : ∀ c ∈ "[".toList, isPlain c = true := List.forall_mem_singleton.mpr rfl
  refine ⟨visible (padRight 5 record.level.name ++ " " ++ record.target ++ "] " ++
    indentLines record.message ++ "\n"), ?_⟩
  have hline : line ("[" ++ padRight 5 record.level.name ++ " " ++ record.target ++ "] " ++
      indentLines record.message) = "[" ++ (padRight 5 record.level.name ++ " " ++ record.target ++
        "] " ++ indentLines record.message ++ "\n") := by
    simp only [line, String.append_assoc]
  rw [shown, hline, visible, String.toList_append, ControlState.visible_append_of_isPlain _ hplain,
    String.ofList_append, String.ofList_toList]
  rfl

def LogLevel.isShown (verbose : Bool) (level : LogLevel) : Bool :=
  level.rank ≤ (if verbose then debug else info).rank

/-- An event as it is written to the standard error. -/
def Event.shown (verbose : Bool) : Event → String
  | log record => if record.level.isShown verbose then record.shown else ""
  | diagnostic name source found => found.frame name source

@[simp] theorem Event.shown_diagnostic (verbose : Bool) (name source : String)
    (found : Diagnostic) :
    (diagnostic name source found).shown verbose = found.frame name source := rfl

theorem Event.shown_log_of_isShown {verbose : Bool} {record : LogRecord}
    (h : record.level.isShown verbose = true) : (log record).shown verbose = record.shown :=
  if_pos h

theorem Event.shown_log_of_not_isShown {verbose : Bool} {record : LogRecord}
    (h : record.level.isShown verbose = false) : (log record).shown verbose = "" :=
  if_neg (Bool.eq_false_iff.mp h)

def Performance.exit (performance : Performance) (verbose : Bool) : Exit :=
  let trail := String.join (performance.events.map (·.shown verbose))
  match performance.result with
  | .ok output => ⟨0, output, trail⟩
  | .error message => ⟨1, "", trail ++ line ("error: " ++ message)⟩

def versionText : String := "annotype 0.1.0"

def Request.exit (files : Files) : Request → Exit
  | version => ⟨0, line versionText, ""⟩
  | run invocation => (invocation.command.perform files).exit invocation.verbose

end TypeNotation

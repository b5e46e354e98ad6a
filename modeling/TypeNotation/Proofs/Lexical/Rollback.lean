import TypeNotation.Proofs.Lexical.Stream

/-!
# Going back to snapshots

A session scans, keeps snapshots, goes back to them and looks ahead, and each of these may be nested
in a look-ahead. All of it takes place on the one stream of scans: a session is known by the number
of scans that lead to its scanner and to each of its snapshots. `Counter` carries a program out on
these numbers alone, without any text, and `Counter.session_run` says that a session does the same.
-/

namespace TypeNotation

/-! ## Counting scans -/

/-- The number of scans that lead to the scanner of a session, and to each of its snapshots. -/
structure Counter where
  place : Nat
  kept : List Nat
  deriving DecidableEq, Repr

/-- What becomes of a request when places are only counted: the number of the scan that is answered,
or the place after the request. -/
inductive CounterReport
  | scanned (number : Nat)
  | saved (index place : Nat)
  | restored (found : Bool) (place : Nat)
  | lookedAhead (reports : List CounterReport) (place : Nat)
  deriving Repr

namespace Counter

/-- In front of an annotation, with nothing kept. -/
def start : Counter := ⟨0, []⟩

mutual

def step (counter : Counter) : Step → CounterReport × Counter
  | .scan => (.scanned counter.place, { counter with place := counter.place + 1 })
  | .save =>
    (.saved counter.kept.length counter.place,
      { counter with kept := counter.kept ++ [counter.place] })
  | .restore index =>
    match counter.kept[index]? with
    | some place => (.restored true place, { counter with place })
    | none => (.restored false counter.place, counter)
  | .lookAhead steps =>
    let (reports, inner) := counter.run steps
    (.lookedAhead reports counter.place, { inner with place := counter.place })

def run (counter : Counter) : List Step → List CounterReport × Counter
  | [] => ([], counter)
  | step :: steps =>
    let (report, next) := counter.step step
    let (reports, last) := next.run steps
    (report :: reports, last)

end

/-- The session whose places are these in the stream of an annotation. -/
def session (source : String) (counter : Counter) : Session :=
  ⟨.after source counter.place, counter.kept.map (.after source)⟩

theorem session_start (source : String) : start.session source = .ofSource source := rfl

end Counter

mutual

/-- The report on a request in the stream of an annotation. -/
def CounterReport.inStream (source : String) : CounterReport → StepReport
  | .scanned number =>
    .scanned (Scanner.after source number).scan.1 (.after source (number + 1))
  | .saved index place => .saved index (.after source place)
  | .restored found place => .restored found (.after source place)
  | .lookedAhead reports place =>
    .lookedAhead (CounterReport.allInStream source reports) (.after source place)

def CounterReport.allInStream (source : String) : List CounterReport → List StepReport
  | [] => []
  | report :: reports => report.inStream source :: CounterReport.allInStream source reports

end

/-! ## Sessions count scans -/

section Counting

variable (source : String)

mutual

theorem Counter.session_step (counter : Counter) : (step : Step) →
    (counter.session source).step step =
      ((counter.step step).1.inStream source, (counter.step step).2.session source)
  | .scan => by
    simp only [Session.step, Counter.step, CounterReport.inStream, Counter.session,
      Scanner.after_succ]
    rfl
  | .save => by
    simp [Session.step, Counter.step, CounterReport.inStream, Counter.session]
  | .restore index => by
    simp only [Session.step, Counter.step, Counter.session, List.getElem?_map]
    cases counter.kept[index]? <;> rfl
  | .lookAhead steps => by
    have hrun := Counter.session_run counter steps
    simp only [Session.step, hrun, Counter.step, CounterReport.inStream]
    rfl

/-- **A session follows the counter**: every answer is that of the scan with the counted number, and
every scanner and snapshot is that of the counted place. -/
theorem Counter.session_run (counter : Counter) : (steps : List Step) →
    (counter.session source).run steps =
      (CounterReport.allInStream source (counter.run steps).1,
        (counter.run steps).2.session source)
  | [] => by simp only [Session.run, Counter.run, CounterReport.allInStream]
  | step :: steps => by
    simp only [Session.run, Counter.run, CounterReport.allInStream,
      Counter.session_step counter step, Counter.session_run (counter.step step).2 steps]

end

/-- A scan that fails keeps the token and its span, and moves on in the text. -/
theorem Scanner.after_succ_of_error {n : Nat} {error : LexicalError}
    (h : (after source n).scan.1 = .error error) :
    (after source (n + 1)).token = (after source n).token ∧
      (after source (n + 1)).span = (after source n).span ∧
      (after source (n + 1)).cursor.rest.length < (after source n).cursor.rest.length := by
  rw [after_succ]
  unfold next
  generalize after source n = scanner at h ⊢
  unfold scan at h ⊢
  split at h <;> cases h
  next heq => exact ⟨rfl, rfl, Cursor.length_scan_lt heq⟩

end Counting

end TypeNotation

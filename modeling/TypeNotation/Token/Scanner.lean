import TypeNotation.Token.Cursor

/-!
# Scanning on demand

A scanner walks through the pieces of an annotation one at a time and holds the token that it met
last. Since a scanner is a value, a snapshot of it is the scanner itself, and going back is using
the earlier value again.

`Step` is the language of what may be asked of a scanner, and `Session.run` carries a program out.
Snapshots are kept in one growing list, also those saved during a look-ahead.
-/

namespace TypeNotation

/-! ## Scanners -/

/-- A reader in the middle of an annotation. -/
structure Scanner where
  /-- Where scanning goes on. -/
  cursor : Cursor
  /-- The token met last; none at the end of the text and before the first scan. -/
  token : Option Token
  /-- The place of that token. -/
  span : Span
  deriving DecidableEq, Repr, Inhabited

namespace Scanner

def ofSource (source : String) : Scanner := ⟨.atStart source.toList, none, ⟨0, 0⟩⟩

/-- Moves on to the next token. At a fault the scanner moves behind it but keeps the token that it
holds; at the end of the text the result is the absence of a token. -/
def scan (scanner : Scanner) : Except LexicalError (Option Token) × Scanner :=
  match scanner.cursor.scan with
  | (some (.ok ⟨token, span⟩), next) => (.ok (some token), ⟨next, some token, span⟩)
  | (some (.error fault), next) => (.error fault, { scanner with cursor := next })
  | (none, next) => (.ok none, ⟨next, none, ⟨next.offset, next.offset⟩⟩)

end Scanner

/-! ## Programs -/

/-- A request to a scanner. -/
inductive Step
  /-- Move on to the next token. -/
  | scan
  /-- Keep a snapshot. -/
  | save
  /-- Go back, or forward, to the snapshot with this index. -/
  | restore (index : Nat)
  /-- Carry out a program and go back to where it began. -/
  | lookAhead (steps : List Step)
  deriving Repr

/-- What became of a request, and the scanner after it. -/
inductive StepReport
  | scanned (result : Except LexicalError (Option Token)) (after : Scanner)
  | saved (index : Nat) (after : Scanner)
  | restored (found : Bool) (after : Scanner)
  | lookedAhead (reports : List StepReport) (after : Scanner)

/-- A scanner with its snapshots, the oldest first. -/
structure Session where
  scanner : Scanner
  snapshots : List Scanner
  deriving Repr

namespace Session

def ofSource (source : String) : Session := ⟨.ofSource source, []⟩

mutual

def step (session : Session) : Step → StepReport × Session
  | .scan =>
    let (result, scanner) := session.scanner.scan
    (.scanned result scanner, { session with scanner })
  | .save =>
    (.saved session.snapshots.length session.scanner,
      { session with snapshots := session.snapshots ++ [session.scanner] })
  | .restore index =>
    match session.snapshots[index]? with
    | some scanner => (.restored true scanner, { session with scanner })
    | none => (.restored false session.scanner, session)
  | .lookAhead steps =>
    let (reports, inner) := session.run steps
    (.lookedAhead reports session.scanner, { inner with scanner := session.scanner })

def run (session : Session) : List Step → List StepReport × Session
  | [] => ([], session)
  | step :: steps =>
    let (report, next) := session.step step
    let (reports, last) := next.run steps
    (report :: reports, last)

end

end Session

end TypeNotation

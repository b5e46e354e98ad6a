import TypeNotation.Command.Run

/-!
# The program

Reads the arguments and the file that the command names, and writes what the run leaves behind.
Nothing is decided here.
-/

namespace TypeNotation

def usageExitCode : UInt32 := 2

/-- The number of a failure of the system, if it has one. -/
def failureNumber? : IO.Error → Option Nat
  | .noFileOrDirectory _ number _ | .permissionDenied _ number _ | .inappropriateType _ number _
  | .invalidArgument _ number _ => some number.toNat
  | _ => none

/-- The contents of a file, or why they cannot be had. A failure without a name of its own counts
as a file that cannot be found. -/
def readFile (path : String) : IO (Except FileError ByteArray) := do
  try
    return .ok (← IO.FS.readBinFile path)
  catch failure =>
    let causes : List FileError := [.denied, .notFolder, .isFolder, .nameTooLong]
    return .error ((causes.find? (·.number? = failureNumber? failure)).getD .notFound)

end TypeNotation

open TypeNotation in
def main (arguments : List String) : IO UInt32 := do
  match Request.ofArguments? arguments with
  | none =>
    IO.eprintln "error: the arguments do not fit"
    return usageExitCode
  | some request =>
    let files : Files ← match request with
      | .version => pure fun _ ↦ .error .notFound
      | .run invocation => match invocation.command.path? with
        | none => pure fun _ ↦ .error .notFound
        | some path => do
          let content ← readFile path
          pure fun _ ↦ content
    let result := request.exit files
    IO.print result.stdout
    IO.eprint result.stderr
    return result.code.toUInt32

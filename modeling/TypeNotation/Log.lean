/-!
# Log records

What the library and its command line say about their work, apart from its results. A record names
the part that speaks; whoever shows the records decides which levels to show and how.
-/

namespace TypeNotation

/-- How important a record is. -/
inductive LogLevel
  | info
  | debug
  | trace
  deriving DecidableEq, Repr, Inhabited

/-- The level in capitals. -/
def LogLevel.name : LogLevel → String
  | info => "INFO"
  | debug => "DEBUG"
  | trace => "TRACE"

/-- Levels from the most to the least important. -/
def LogLevel.rank : LogLevel → Nat
  | info => 0
  | debug => 1
  | trace => 2

structure LogRecord where
  level : LogLevel
  /-- The part that speaks. -/
  target : String
  message : String
  deriving DecidableEq, Repr, Inhabited

end TypeNotation

/-!
# Log records

A record tells what happened, where in the tools it happened, and how much it
matters. Of the records of a run only those up to a chosen level are shown.
-/

namespace KiwiFront

/-- How much a record matters. -/
inductive LogLevel where
  | info
  | debug
  | trace
deriving DecidableEq

namespace LogLevel

/-- How a level is written. -/
def label : LogLevel -> String
  | .info => "INFO"
  | .debug => "DEBUG"
  | .trace => "TRACE"

/-- How often more detail has to be asked for until records of a level are shown. -/
def verbosity : LogLevel -> Nat
  | .info => 1
  | .debug => 2
  | .trace => 3

end LogLevel

/-- Something that happened during a run. -/
structure LogRecord where
  level : LogLevel
  /-- The part of the tools that it happened in. -/
  target : String
  text : String
deriving DecidableEq

namespace LogRecord

/-- Whether a record is shown at a verbosity. -/
def isShown (verbosity : Nat) (record : LogRecord) : Bool :=
  decide (record.level.verbosity ≤ verbosity)

/-- A record as a line. -/
def render (record : LogRecord) : String :=
  s!"[{record.level.label} {record.target}] {record.text}\n"

end LogRecord

end KiwiFront

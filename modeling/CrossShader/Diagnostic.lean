/-!
# Diagnostics and log records

Messages that accompany a result: diagnostics belong to a generated shader, log records to the run
that produced it.
-/

set_option autoImplicit false

namespace CrossShader

/-- How serious a diagnostic is. -/
inductive Severity where
  | warning
  | info
  deriving DecidableEq, Repr

/-- The severity's word. -/
def Severity.text : Severity → String
  | .warning => "Warning"
  | .info => "Info"

/-- A message about a shader that was generated nevertheless. -/
structure Diagnostic where
  severity : Severity
  message : String
  deriving DecidableEq, Repr

/-- The message after its severity in brackets. -/
def Diagnostic.text (d : Diagnostic) : String := s!"[{d.severity.text}] {d.message}"

/-- How important a log record is. -/
inductive LogLevel where
  | debug
  | warn
  deriving DecidableEq, Repr

/-- The level's word. -/
def LogLevel.text : LogLevel → String
  | .debug => "DEBUG"
  | .warn => "WARN"

/-- A note about what a run is doing. -/
structure LogRecord where
  level : LogLevel
  message : String
  deriving DecidableEq, Repr

/-- The message after its level. -/
def LogRecord.text (r : LogRecord) : String := s!"{r.level.text} {r.message}"

end CrossShader

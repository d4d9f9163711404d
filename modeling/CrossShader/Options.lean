import CrossShader.Text.Line

/-!
# Options

Layout and precision options of a generation request.
-/

set_option autoImplicit false

namespace CrossShader

/-- Default floating-point precision of targets that declare one. -/
inductive FloatPrecision where
  | low
  | medium
  | high
  deriving DecidableEq, Repr

/-- The precision's word. -/
def FloatPrecision.text : FloatPrecision → String
  | .low => "Low"
  | .medium => "Medium"
  | .high => "High"

/-- Options of a request: blanks per nesting level, and the default precision. -/
structure Options where
  indent : Nat := 4
  floatPrecision : FloatPrecision := .high
  deriving DecidableEq, Repr

namespace Options

/-- Leading white space of a nesting level. -/
def pad (o : Options) (level : Nat) : String := Text.pad o.indent level

/-- The options in log records. -/
def text (o : Options) : String :=
  s!"BackendOptions \x7b indent: {o.indent}, float_precision: {o.floatPrecision.text} \x7d"

end Options

end CrossShader

/-!
# Indented lines

Documents are lists of lines that know their nesting level.  White space is added only by
`renderLines`, so two documents that differ in their indentation width alone have the same lines.

* `pad` — leading white space of a level.
* `Line.render`, `renderLines` — a line, or a list of lines, as text; every line ends in a newline.
* `braced` — a block between braces on lines of their own.
* `countLines` — how many lines a text has; a last line without a newline counts.
-/

set_option autoImplicit false

namespace CrossShader.Text

/-- Leading white space of `level` levels that are `indent` blanks wide. -/
def pad (indent level : Nat) : String :=
  String.ofList (List.replicate (indent * level) ' ')

theorem pad_zero (indent : Nat) : pad indent 0 = "" := rfl

/-- One line of a document: its nesting level and its text. -/
structure Line where
  level : Nat
  text : String
  deriving DecidableEq, Repr

namespace Line

/-- A line at the left margin. -/
def flush (text : String) : Line := ⟨0, text⟩

/-- A line one level deep. -/
def inner (text : String) : Line := ⟨1, text⟩

/-- The empty line. -/
def blank : Line := ⟨0, ""⟩

/-- The line as text, newline included. -/
def render (indent : Nat) (line : Line) : String :=
  pad indent line.level ++ line.text ++ "\n"

end Line

/-- The text of a document. -/
def renderLines (indent : Nat) (lines : List Line) : String :=
  String.join (lines.map (Line.render indent))

theorem renderLines_nil (indent : Nat) : renderLines indent [] = "" := rfl

theorem renderLines_cons (indent : Nat) (line : Line) (lines : List Line) :
    renderLines indent (line :: lines) = line.render indent ++ renderLines indent lines := by
  simp [renderLines]

theorem renderLines_flush (indent : Nat) (text : String) (lines : List Line) :
    renderLines indent (.flush text :: lines) = text ++ "\n" ++ renderLines indent lines := by
  rw [renderLines_cons, Line.render, Line.flush, pad_zero, String.empty_append]

theorem renderLines_inner (indent : Nat) (text : String) (lines : List Line) :
    renderLines indent (.inner text :: lines) =
      pad indent 1 ++ text ++ "\n" ++ renderLines indent lines :=
  renderLines_cons indent _ lines

theorem renderLines_blank (indent : Nat) (lines : List Line) :
    renderLines indent (.blank :: lines) = "\n" ++ renderLines indent lines :=
  renderLines_flush indent "" lines

theorem renderLines_append (indent : Nat) (lines others : List Line) :
    renderLines indent (lines ++ others) = renderLines indent lines ++ renderLines indent others := by
  simp [renderLines]

theorem renderLines_flatten (indent : Nat) (parts : List (List Line)) :
    renderLines indent parts.flatten = String.join (parts.map (renderLines indent)) := by
  induction parts with
  | nil => rfl
  | cons lines parts ih => rw [List.flatten_cons, renderLines_append, ih, List.map_cons, String.join_cons]

theorem renderLines_flatMap {α : Type} (indent : Nat) (f : α → List Line) (as : List α) :
    renderLines indent (as.flatMap f) = String.join (as.map fun a => renderLines indent (f a)) := by
  rw [List.flatMap_def, renderLines_flatten, List.map_map]
  rfl

/-- The lines of a block between braces that stand at `level`. -/
def braced (level : Nat) (body : List Line) : List Line :=
  ⟨level, "\x7b"⟩ :: (body ++ [⟨level, "\x7d"⟩])

/-- The number of lines of a text. -/
def countLines (text : String) : Nat :=
  let chars := text.toList
  chars.count '\n' + (if chars.getLast?.all (· == '\n') then 0 else 1)

end CrossShader.Text

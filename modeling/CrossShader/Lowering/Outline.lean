import CrossShader.Text.Blank
import CrossShader.Text.Line

/-!
# Outlines

Target statements as trees: control flow is structure, while conditions and simple statements are
texts.  `Outline.lines` lays a tree out, one statement per line and braces on lines of their own; an
`else` that holds nothing but an `if` becomes an `else if`.
-/

set_option autoImplicit false

namespace CrossShader

open Text

mutual
/-- A target statement. -/
inductive Outline where
  /-- A declaration, an assignment or an expression, without its semicolon. -/
  | simple (text : String)
  | block (body : List Outline)
  | ifElse (condition : String) (accept reject : List Outline)
  | forLoop (start condition step : String) (body : List Outline)
  | whileLoop (condition : String) (body : List Outline)
  | doWhile (body : List Outline) (condition : String)
  | switch (selector : String) (cases : List OutlineCase)
  | breakLoop
  | continueLoop
  | ret (value : Option String)
  | discard

/-- A case of a switch: the texts of its labels, whether it is the default case, and its body. -/
inductive OutlineCase where
  | mk (labels : List String) (isDefault : Bool) (body : List Outline)
end

/-- The parts of a `for` header between its parentheses, without white space at the ends. -/
def forHeader (start condition step : String) : String :=
  if start = "" ∧ condition = "" ∧ step = "" then ";;"
  else trim s!"{start}; {condition}; {step}"

/-- The label lines of a case. -/
def caseLines (level : Nat) (labels : List String) (isDefault : Bool) : List Line :=
  labels.map (fun label => ⟨level, s!"case {label}:"⟩) ++
    if isDefault then [⟨level, "default:"⟩] else []

mutual
/-- The lines of a statement. -/
def Outline.lines (level : Nat) : Outline → List Line
  | .simple text => [⟨level, s!"{text};"⟩]
  | .block body => braced level (Outline.linesAll (level + 1) body)
  | .ifElse condition accept reject =>
    ⟨level, s!"if ({condition})"⟩ ::
      (braced level (Outline.linesAll (level + 1) accept) ++ Outline.elseLines level reject)
  | .forLoop start condition step body =>
    ⟨level, s!"for ({forHeader start condition step})"⟩ ::
      braced level (Outline.linesAll (level + 1) body)
  | .whileLoop condition body =>
    ⟨level, s!"while ({condition})"⟩ :: braced level (Outline.linesAll (level + 1) body)
  | .doWhile body condition =>
    [⟨level, "do"⟩, ⟨level, "\x7b"⟩] ++ Outline.linesAll (level + 1) body ++
      [⟨level, s!"\x7d while ({condition});"⟩]
  | .switch selector cases =>
    ⟨level, s!"switch ({selector})"⟩ :: braced level (OutlineCase.linesAll (level + 1) cases)
  | .breakLoop => [⟨level, "break;"⟩]
  | .continueLoop => [⟨level, "continue;"⟩]
  | .ret none => [⟨level, "return;"⟩]
  | .ret (some value) => [⟨level, s!"return {value};"⟩]
  | .discard => [⟨level, "discard;"⟩]
termination_by structural o => o

/-- The lines of several statements. -/
def Outline.linesAll (level : Nat) : List Outline → List Line
  | [] => []
  | o :: rest => Outline.lines level o ++ Outline.linesAll level rest
termination_by structural os => os

/-- The lines of the branch that is taken if a condition fails. -/
def Outline.elseLines (level : Nat) : List Outline → List Line
  | [] => []
  | [.ifElse condition accept reject] =>
    ⟨level, s!"else if ({condition})"⟩ ::
      (braced level (Outline.linesAll (level + 1) accept) ++ Outline.elseLines level reject)
  | o :: rest =>
    ⟨level, "else"⟩ ::
      braced level (Outline.lines (level + 1) o ++ Outline.linesAll (level + 1) rest)
termination_by structural os => os

/-- The lines of the cases of a switch. -/
def OutlineCase.linesAll (level : Nat) : List OutlineCase → List Line
  | [] => []
  | .mk labels isDefault body :: rest =>
    caseLines level labels isDefault ++ Outline.linesAll (level + 1) body ++
      OutlineCase.linesAll level rest
termination_by structural cases => cases
end

/-- A branch that is more than one `if` stands in a block of its own. -/
theorem Outline.elseLines_branch {level : Nat} {o : Outline} {rest : List Outline}
    (hchain : ∀ condition accept reject, o :: rest ≠ [.ifElse condition accept reject]) :
    Outline.elseLines level (o :: rest) =
      ⟨level, "else"⟩ :: braced level (Outline.linesAll (level + 1) (o :: rest)) := by
  rw [Outline.elseLines, Outline.linesAll]
  rintro condition accept reject rfl rfl
  exact hchain condition accept reject rfl

end CrossShader

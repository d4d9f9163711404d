import CrossShader.Lowering.Function
import CrossShader.Proofs.Lowering

/-!
# Statements with white space of their own

Functions as texts that are written in one go.  The writer of a statement knows how deep it stands and puts
the white space of the options before each of its lines itself; there are no lines to be rendered
afterwards.  What is written in this way is the rendered function.

* `Scope.write`, `Scope.writeAll`, `Scope.writeElse`, `Scope.writeCases` — statements, blocks, the rest of a
  chain of conditions, and cases.
* `Scope.write_eq`, `Scope.writeAll_eq` — they are the rendered lines of their outlines, or fail with the
  same error.
* `Context.writeFunction`, `Context.writeFunction_eq` — the same for functions.
-/

set_option autoImplicit false

namespace CrossShader

open Text

/-! ## Statements -/

namespace Text

/-- A block between braces on lines of their own, behind the white space `lead`. -/
def bracedText (lead body : String) : String := s!"{lead}\x7b\n{body}{lead}\x7d\n"

/-- The label lines of a case behind the white space `lead`. -/
def caseText (lead : String) (labels : List String) (isDefault : Bool) : String :=
  String.join (labels.map fun label => s!"{lead}case {label}:\n") ++
    if isDefault then s!"{lead}default:\n" else ""

theorem renderLines_singleton (indent level : Nat) (text : String) :
    renderLines indent [⟨level, text⟩] = pad indent level ++ text ++ "\n" := by
  rw [renderLines_cons, renderLines_nil, String.append_empty]
  rfl

theorem renderLines_braced (indent level : Nat) (body : List Line) :
    renderLines indent (braced level body) =
      bracedText (pad indent level) (renderLines indent body) := by
  rw [braced, renderLines_cons, renderLines_append, renderLines_singleton, ← String.toList_inj]
  simp [bracedText, Line.render, toString]

theorem renderLines_caseLines (indent level : Nat) (labels : List String) (isDefault : Bool) :
    renderLines indent (caseLines level labels isDefault) =
      caseText (pad indent level) labels isDefault := by
  have hlabels : renderLines indent (labels.map fun label => ⟨level, s!"case {label}:"⟩) =
      String.join (labels.map fun label => s!"{pad indent level}case {label}:\n") := by
    rw [renderLines, List.map_map]
    refine congrArg String.join (List.map_congr_left fun label _ => String.toList_inj.1 ?_)
    simp [Line.render, toString]
  rw [caseLines, renderLines_append, hlabels, caseText]
  cases isDefault with
  | false => rfl
  | true =>
    rw [if_pos rfl, if_pos rfl, renderLines_singleton, ← String.toList_inj]
    simp [toString]

end Text

namespace Scope

mutual
/-- The text of a statement that stands at a level. -/
def write (s : Scope) (o : Options) (level : Nat) : Stmt → Except GenerationError String
  | .block _ body => do
    let inner ← s.writeAll o (level + 1) body
    return bracedText (o.pad level) inner
  | .declare loc name type count value => do
    let text ← s.simple (.declare loc name type count value)
    return s!"{o.pad level}{text};\n"
  | .eval loc e => do
    let text ← s.simple (.eval loc e)
    return s!"{o.pad level}{text};\n"
  | .assign loc target op value => do
    let text ← s.simple (.assign loc target op value)
    return s!"{o.pad level}{text};\n"
  | .ifElse loc condition accept reject => do
    let text ← s.lower loc condition
    let accepted ← s.writeAll o (level + 1) accept
    let rejected ← s.writeElse o level reject
    return s!"{o.pad level}if ({text})\n" ++ bracedText (o.pad level) accepted ++ rejected
  | .forLoop loc start condition step body => do
    let startText ← optional start s.simple
    let conditionText ← optional condition (s.lower loc)
    let stepTexts ← step.mapM s.simple
    let inner ← s.writeAll o (level + 1) body
    let header := forHeader startText conditionText (String.intercalate ", " stepTexts)
    return s!"{o.pad level}for ({header})\n" ++ bracedText (o.pad level) inner
  | .whileLoop loc condition body => do
    let text ← s.lower loc condition
    let inner ← s.writeAll o (level + 1) body
    return s!"{o.pad level}while ({text})\n" ++ bracedText (o.pad level) inner
  | .doWhile loc body condition => do
    let inner ← s.writeAll o (level + 1) body
    let text ← s.lower loc condition
    return s!"{o.pad level}do\n{o.pad level}\x7b\n" ++ inner ++ s!"{o.pad level}\x7d while ({text});\n"
  | .switch loc selector cases => do
    let text ← s.lower loc selector
    let inner ← s.writeCases o (level + 1) loc cases
    return s!"{o.pad level}switch ({text})\n{o.pad level}\x7b\n" ++ inner ++ s!"{o.pad level}\x7d\n"
  | .foreach loc _ _ _ _ => .error (.unsupported .foreachLoop loc)
  | .breakLoop _ => .ok s!"{o.pad level}break;\n"
  | .continueLoop _ => .ok s!"{o.pad level}continue;\n"
  | .ret _ none => .ok s!"{o.pad level}return;\n"
  | .ret loc (some value) => do
    let text ← s.lower loc value
    return s!"{o.pad level}return {text};\n"
  | .discard loc =>
    if s.stage = .fragment then .ok s!"{o.pad level}discard;\n"
    else .error (.unsupported (.discardIn s.stage) loc)
termination_by structural stmt => stmt

/-- The text of a block at a level. -/
def writeAll (s : Scope) (o : Options) (level : Nat) : List Stmt → Except GenerationError String
  | [] => .ok ""
  | stmt :: rest => do
    let first ← s.write o level stmt
    let others ← s.writeAll o level rest
    return first ++ others
termination_by structural body => body

/-- The text of the branch that is taken if a condition at a level fails.  A branch that is one `if` goes
on with the chain. -/
def writeElse (s : Scope) (o : Options) (level : Nat) : List Stmt → Except GenerationError String
  | [] => .ok ""
  | [.ifElse loc condition accept reject] => do
    let text ← s.lower loc condition
    let accepted ← s.writeAll o (level + 1) accept
    let rejected ← s.writeElse o level reject
    return s!"{o.pad level}else if ({text})\n" ++ bracedText (o.pad level) accepted ++ rejected
  | stmt :: rest => do
    let first ← s.write o (level + 1) stmt
    let others ← s.writeAll o (level + 1) rest
    return s!"{o.pad level}else\n" ++ bracedText (o.pad level) (first ++ others)
termination_by structural body => body

/-- The text of the cases of a switch at `loc`. -/
def writeCases (s : Scope) (o : Options) (level : Nat) (loc : Location) :
    List SwitchCase → Except GenerationError String
  | [] => .ok ""
  | .mk labels isDefault body :: rest => do
    let texts ← labels.mapM (Literal.lowerLabel loc)
    let inner ← s.writeAll o (level + 1) body
    let others ← s.writeCases o level loc rest
    return caseText (o.pad level) texts isDefault ++ inner ++ others
termination_by structural cases => cases
end

/-- A branch that is more than one `if` has an outline of the same kind. -/
theorem outline_branch {s : Scope} {t : Stmt} {rest : List Stmt} {first : Outline} {others : List Outline}
    (hchain : ∀ loc condition accept reject, t :: rest ≠ [.ifElse loc condition accept reject])
    (ht : s.outline t = .ok first) (hrest : s.outlineAll rest = .ok others)
    (condition : String) (accept reject : List Outline) :
    first :: others ≠ [.ifElse condition accept reject] := by
  intro heq
  obtain ⟨rfl, rfl⟩ := List.cons.inj heq
  have hnil : rest = [] := by
    cases rest with
    | nil => rfl
    | cons t' rest' =>
      rw [outlineAll] at hrest
      obtain ⟨first, -, hrest⟩ := bind_ok.1 hrest
      obtain ⟨others, -, hrest⟩ := bind_ok.1 hrest
      cases hrest
  subst hnil
  -- no other statement has the outline of an `if`
  have houtlined := outlined_of_outline ht
  cases t with
  | ifElse loc condition accept reject => exact hchain loc condition accept reject rfl
  | block => obtain ⟨_, _, h⟩ := houtlined; cases h
  | declare | eval | assign => obtain ⟨_, _, h⟩ := houtlined; cases h
  | forLoop => obtain ⟨_, _, _, _, _, _, _, _, h⟩ := houtlined; cases h
  | whileLoop | doWhile | switch => obtain ⟨_, _, _, _, h⟩ := houtlined; cases h
  | foreach => exact houtlined.elim
  | breakLoop | continueLoop => cases houtlined
  | ret loc value =>
    cases value with
    | none => cases houtlined
    | some value => obtain ⟨_, _, h⟩ := houtlined; cases h
  | discard => cases houtlined.2

/-- A written branch that is more than one `if`, given that its statements are the rendered ones. -/
theorem writeElse_branch {s : Scope} {o : Options} {level : Nat} {t : Stmt} {rest : List Stmt}
    (hchain : ∀ loc condition accept reject, t :: rest ≠ [.ifElse loc condition accept reject])
    (ht : s.write o (level + 1) t =
      (s.outline t).map fun outline => renderLines o.indent (outline.lines (level + 1)))
    (hrest : s.writeAll o (level + 1) rest =
      (s.outlineAll rest).map fun outlines =>
        renderLines o.indent (Outline.linesAll (level + 1) outlines)) :
    s.writeElse o level (t :: rest) =
      (s.outlineAll (t :: rest)).map fun outlines =>
        renderLines o.indent (Outline.elseLines level outlines) := by
  rw [writeElse, outlineAll, ht, hrest]
  · cases hfirst : s.outline t with
    | error e => rfl
    | ok first =>
      cases hothers : s.outlineAll rest with
      | error e => rfl
      | ok others =>
        have hlines : Outline.elseLines level (first :: others) = _ :=
          Outline.elseLines_branch (outline_branch hchain hfirst hothers)
        refine congrArg Except.ok (String.toList_inj.1 ?_)
        simp [hlines, Outline.linesAll, renderLines_cons, renderLines_append, renderLines_braced, Line.render,
          Options.pad, toString]
  · rintro loc condition accept reject rfl rfl
    exact hchain loc condition accept reject rfl

mutual
/-- **A written statement is the rendered one**, or fails with the same error. -/
theorem write_eq (s : Scope) (o : Options) (level : Nat) (t : Stmt) :
    s.write o level t = (s.outline t).map fun outline => renderLines o.indent (outline.lines level) := by
  -- the parts are lowered in the order of the writer, and where all are known, two texts are compared
  cases t with
  | block loc body =>
    rw [write, outline, writeAll_eq s o (level + 1) body]
    cases s.outlineAll body with
    | error e => rfl
    | ok inner => exact congrArg Except.ok (renderLines_braced _ _ _).symm
  | declare | eval | assign =>
    rw [write, outline]
    generalize s.simple _ = simple
    cases simple with
    | error e => rfl
    | ok text =>
      refine congrArg Except.ok (String.toList_inj.1 ?_)
      simp [Outline.lines, renderLines_singleton, Options.pad, toString]
  | ifElse loc condition accept reject =>
    rw [write, outline, writeAll_eq s o (level + 1) accept, writeElse_eq s o level reject]
    cases s.lower loc condition with
    | error e => rfl
    | ok text =>
      cases s.outlineAll accept with
      | error e => rfl
      | ok accepted =>
        cases s.outlineAll reject with
        | error e => rfl
        | ok rejected =>
          refine congrArg Except.ok (String.toList_inj.1 ?_)
          simp [Outline.lines, renderLines_cons, renderLines_append, renderLines_braced, Line.render,
            Options.pad, toString]
  | forLoop loc start condition step body =>
    rw [write, outline, writeAll_eq s o (level + 1) body]
    cases optional start s.simple with
    | error e => rfl
    | ok startText =>
      cases optional condition (s.lower loc) with
      | error e => rfl
      | ok conditionText =>
        cases step.mapM s.simple with
        | error e => rfl
        | ok stepTexts =>
          cases s.outlineAll body with
          | error e => rfl
          | ok inner =>
            refine congrArg Except.ok (String.toList_inj.1 ?_)
            simp [Outline.lines, renderLines_cons, renderLines_braced, Line.render, Options.pad, toString]
  | whileLoop loc condition body =>
    rw [write, outline, writeAll_eq s o (level + 1) body]
    cases s.lower loc condition with
    | error e => rfl
    | ok text =>
      cases s.outlineAll body with
      | error e => rfl
      | ok inner =>
        refine congrArg Except.ok (String.toList_inj.1 ?_)
        simp [Outline.lines, renderLines_cons, renderLines_braced, Line.render, Options.pad, toString]
  | doWhile loc body condition =>
    rw [write, outline, writeAll_eq s o (level + 1) body]
    cases s.outlineAll body with
    | error e => rfl
    | ok inner =>
      cases s.lower loc condition with
      | error e => rfl
      | ok text =>
        refine congrArg Except.ok (String.toList_inj.1 ?_)
        simp [Outline.lines, renderLines_cons, renderLines_append, renderLines_nil, Line.render, Options.pad,
          toString]
  | switch loc selector cases =>
    rw [write, outline, writeCases_eq s o (level + 1) loc cases]
    cases s.lower loc selector with
    | error e => rfl
    | ok text =>
      cases s.outlineCases loc cases with
      | error e => rfl
      | ok inner =>
        refine congrArg Except.ok (String.toList_inj.1 ?_)
        simp [Outline.lines, renderLines_cons, renderLines_braced, bracedText, Line.render, Options.pad,
          toString]
  | foreach => rfl
  | breakLoop | continueLoop =>
    refine congrArg Except.ok (String.toList_inj.1 ?_)
    simp [Outline.lines, renderLines_singleton, Options.pad, toString]
  | ret loc value =>
    cases value with
    | none =>
      refine congrArg Except.ok (String.toList_inj.1 ?_)
      simp [Outline.lines, renderLines_singleton, Options.pad, toString]
    | some value =>
      rw [write, outline]
      cases s.lower loc value with
      | error e => rfl
      | ok text =>
        refine congrArg Except.ok (String.toList_inj.1 ?_)
        simp [Outline.lines, renderLines_singleton, Options.pad, toString]
  | discard loc =>
    rw [write, outline]
    split
    · refine congrArg Except.ok (String.toList_inj.1 ?_)
      simp [Outline.lines, renderLines_singleton, Options.pad, toString]
    · rfl
termination_by structural t

theorem writeAll_eq (s : Scope) (o : Options) (level : Nat) (body : List Stmt) :
    s.writeAll o level body =
      (s.outlineAll body).map fun outlines => renderLines o.indent (Outline.linesAll level outlines) := by
  cases body with
  | nil => rfl
  | cons t rest =>
    rw [writeAll, outlineAll, write_eq s o level t, writeAll_eq s o level rest]
    cases s.outline t with
    | error e => rfl
    | ok first =>
      cases s.outlineAll rest with
      | error e => rfl
      | ok others => exact congrArg Except.ok (renderLines_append _ _ _).symm
termination_by structural body

theorem writeElse_eq (s : Scope) (o : Options) (level : Nat) (body : List Stmt) :
    s.writeElse o level body =
      (s.outlineAll body).map fun outlines => renderLines o.indent (Outline.elseLines level outlines) := by
  cases body with
  | nil => rfl
  | cons t rest =>
    -- only a branch that is one `if` goes on with the chain
    cases rest with
    | cons t' rest' =>
      exact writeElse_branch (by simp) (write_eq s o (level + 1) t)
        (writeAll_eq s o (level + 1) (t' :: rest'))
    | nil =>
      cases t with
      | ifElse loc condition accept reject =>
        rw [writeElse, outlineAll, outline, outlineAll, writeAll_eq s o (level + 1) accept,
          writeElse_eq s o level reject]
        cases s.lower loc condition with
        | error e => rfl
        | ok text =>
          cases s.outlineAll accept with
          | error e => rfl
          | ok accepted =>
            cases s.outlineAll reject with
            | error e => rfl
            | ok rejected =>
              refine congrArg Except.ok (String.toList_inj.1 ?_)
              simp [Outline.elseLines, renderLines_cons, renderLines_append, renderLines_braced, Line.render,
                Options.pad, toString]
      | _ => exact writeElse_branch (by simp) (write_eq s o (level + 1) _) (writeAll_eq s o (level + 1) [])
termination_by structural body

theorem writeCases_eq (s : Scope) (o : Options) (level : Nat) (loc : Location) (cases : List SwitchCase) :
    s.writeCases o level loc cases =
      (s.outlineCases loc cases).map fun lowered =>
        renderLines o.indent (OutlineCase.linesAll level lowered) := by
  cases cases with
  | nil => rfl
  | cons case rest =>
    obtain ⟨labels, isDefault, body⟩ := case
    rw [writeCases, outlineCases, writeAll_eq s o (level + 1) body, writeCases_eq s o level loc rest]
    cases labels.mapM (Literal.lowerLabel loc) with
    | error e => rfl
    | ok texts =>
      cases s.outlineAll body with
      | error e => rfl
      | ok inner =>
        cases s.outlineCases loc rest with
        | error e => rfl
        | ok others =>
          refine congrArg Except.ok ?_
          simp only [OutlineCase.linesAll, renderLines_append, renderLines_caseLines]
          rfl
termination_by structural cases
end

end Scope

/-- The text of a function in a shader of a stage, and an empty line. -/
def Context.writeFunction (c : Context) (o : Options) (stage : Stage) (f : Function) :
    Except GenerationError String := do
  let signature ← c.signature f
  let body ← (Scope.ofFunction c stage f).writeAll o 1 f.body
  return s!"{signature}\n\x7b\n" ++ body ++ "\x7d\n\n"

/-- **A written function is the rendered one**, or fails with the same error. -/
theorem Context.writeFunction_eq (c : Context) (o : Options) (stage : Stage) (f : Function) :
    c.writeFunction o stage f = (c.functionLines stage f).map (renderLines o.indent) := by
  rw [Context.writeFunction, Context.functionLines, Scope.writeAll_eq]
  cases c.signature f with
  | error e => rfl
  | ok signature =>
    cases (Scope.ofFunction c stage f).outlineAll f.body with
    | error e => rfl
    | ok body =>
      refine congrArg Except.ok (String.toList_inj.1 ?_)
      simp [renderLines_flush, renderLines_append, renderLines_braced, renderLines_blank, renderLines_nil,
        bracedText, pad_zero, toString]

end CrossShader

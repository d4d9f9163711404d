import CrossShader.Proofs.DocumentWriter

/-!
# Options and lines

The options of a request set the white space before a line and the default precisions, and nothing
else.  A text that is written with white space of its own is a document whose lines are indented when it is
finished, so two requests that differ in their options take the same course up to the header.

* `Text.linesOf`, `Text.unindented` — the lines of a text, and a line without its leading blanks.
* `map_unindented_linesOf_renderLines` — the width of the indentation cannot be seen in lines that
  have lost it, also where a text of the document holds newlines itself.
* `Request.Parallel` — requests that take the same course and end in related values.
* `Program.generateFrom_parallel` — two requests that differ in their options.
-/

set_option autoImplicit false

namespace CrossShader

/-! ## Lines of a text -/

namespace Text

/-- The lines of a text: what stands between its newlines.  Behind a last newline there is an empty
line. -/
def linesOf (text : String) : List (List Char) := text.toList.splitOn '\n'

/-- A line without its leading blanks. -/
def unindented (line : List Char) : List Char := line.dropWhile (· == ' ')

theorem linesOf_append (a b : String) : linesOf (a ++ "\n" ++ b) = linesOf a ++ linesOf b := by
  have h : (a ++ "\n" ++ b).toList = a.toList ++ '\n' :: b.toList := by simp
  rw [linesOf, h]
  exact List.splitOnP_append_cons _ _ rfl

/-- Leading blanks go to the first line of a text, and are lost there. -/
theorem map_unindented_splitOn_replicate (n : Nat) (cs : List Char) :
    ((List.replicate n ' ' ++ cs).splitOn '\n').map unindented =
      (cs.splitOn '\n').map unindented := by
  induction n with
  | zero => rfl
  | succ n ih =>
    rw [← ih, List.replicate_succ, List.cons_append, List.splitOn, List.splitOnP_cons_eq_if_modifyHead,
      if_neg (by decide)]
    show _ = ((List.replicate n ' ' ++ cs).splitOnP (· == '\n')).map unindented
    cases (List.replicate n ' ' ++ cs).splitOnP (· == '\n') with
    | nil => rfl
    | cons first rest => rfl

/-- **Indentation is lost with the leading blanks**, and shows nowhere else. -/
theorem map_unindented_linesOf_renderLines (indent : Nat) (lines : List Line) :
    (linesOf (renderLines indent lines)).map unindented =
      lines.flatMap (fun line => (linesOf line.text).map unindented) ++ [[]] := by
  induction lines with
  | nil => rfl
  | cons line lines ih =>
    have hpad : (linesOf (pad indent line.level ++ line.text)).map unindented =
        (linesOf line.text).map unindented := by
      rw [linesOf, String.toList_append, pad, String.toList_ofList]
      exact map_unindented_splitOn_replicate _ _
    rw [renderLines_cons, Line.render, linesOf_append, List.map_append, hpad, ih, List.flatMap_cons,
      List.append_assoc]

theorem length_splitOn (cs : List Char) : (cs.splitOn '\n').length = cs.count '\n' + 1 := by
  induction cs with
  | nil => rfl
  | cons c cs ih =>
    rw [List.splitOn, List.splitOnP_cons_eq_if_modifyHead, List.count_cons]
    by_cases hc : (c == '\n') = true
    · rw [if_pos hc, if_pos hc, List.length_cons]
      exact congrArg (· + 1) ih
    · rw [if_neg hc, if_neg hc, List.length_modifyHead]
      exact ih

/-- A document ends in a newline, if it has any line. -/
theorem getLast?_renderLines (indent : Nat) (lines : List Line) :
    (renderLines indent lines).toList.getLast?.all (· == '\n') = true := by
  induction lines with
  | nil => rfl
  | cons line lines ih =>
    rw [renderLines_cons, Line.render, String.toList_append, List.getLast?_append]
    cases hlast : (renderLines indent lines).toList.getLast? with
    | none => simp
    | some c =>
      rw [hlast] at ih
      exact ih

theorem countLines_renderLines (indent : Nat) (lines : List Line) :
    countLines (renderLines indent lines) + 1 = (linesOf (renderLines indent lines)).length := by
  rw [countLines, if_pos (getLast?_renderLines indent lines), linesOf, length_splitOn]

end Text

/-! ## Parallel requests -/

/-- Two results that are the same error, or values between which a relation holds. -/
inductive Matched {ε α β : Type} (R : α → β → Prop) : Except ε α → Except ε β → Prop
  | error (e : ε) : Matched R (.error e) (.error e)
  | ok {a : α} {b : β} (h : R a b) : Matched R (.ok a) (.ok b)

theorem Matched.map {ε α α' β β' : Type} {R : α → β → Prop} {S : α' → β' → Prop} {f : α → α'}
    {g : β → β'} (hfg : ∀ a b, R a b → S (f a) (g b)) {x : Except ε α} {y : Except ε β}
    (h : Matched R x y) : Matched S (x.map f) (y.map g) := by
  cases h with
  | error e => exact .error e
  | ok h => exact .ok (hfg _ _ h)

theorem Matched.mono {ε α β : Type} {R S : α → β → Prop} (hRS : ∀ a b, R a b → S a b)
    {x : Except ε α} {y : Except ε β} (h : Matched R x y) : Matched S x y := by
  cases h with
  | error e => exact .error e
  | ok h => exact .ok (hRS _ _ h)

namespace Request

variable {α β γ : Type} {m : Meanings} {R : α → β → Prop}

/-- Two requests that take the same course, and whose values are related. -/
def Parallel (m : Meanings) (R : α → β → Prop) (r : Request α) (r' : Request β) : Prop :=
  ∀ σ, (r.eval m σ).2 = (r'.eval m σ).2 ∧ Matched R (r.eval m σ).1 (r'.eval m σ).1

namespace Parallel

theorem pure {a : α} {b : β} (h : R a b) :
    Parallel m R (Pure.pure a : Request α) (Pure.pure b : Request β) :=
  fun _ => ⟨rfl, .ok h⟩

/-- A step that the two requests have in common. -/
theorem bind (r : Request γ) {f : γ → Request α} {f' : γ → Request β}
    (h : ∀ c, Parallel m R (f c) (f' c)) : Parallel m R (r >>= f) (r >>= f') := by
  intro σ
  rw [eval_bind, eval_bind]
  rcases r.eval m σ with ⟨e | c, τ⟩
  · exact ⟨rfl, .error e⟩
  · exact h c τ

/-- Notes have no effect on the course. -/
theorem note (record record' : LogRecord) {f : Unit → Request α} {f' : Unit → Request β}
    (h : Parallel m R (f ()) (f' ())) :
    Parallel m R (Request.note record >>= f) (Request.note record' >>= f') := by
  intro σ
  rw [eval_bind, eval_bind, eval_note, eval_note]
  exact h σ

end Parallel

end Request

/-- Two documents that differ in the precision of their headers alone. -/
def SameBelowHeader (d : Dialect) (o o' : Options) (lines lines' : List Text.Line) : Prop :=
  ∃ stage rest, lines = d.header stage o.floatPrecision ++ rest ∧
    lines' = d.header stage o'.floatPrecision ++ rest

theorem documentLines_parallel (m : Meanings) (c : Context) (stage : Stage) (o o' : Options)
    (functions : List Function) (layout : EntryLayout) :
    Request.Parallel m (SameBelowHeader c.dialect o o')
      (documentLines c stage o.floatPrecision functions layout)
      (documentLines c stage o'.floatPrecision functions layout) := by
  refine .bind _ fun structures => .bind _ fun resources => .bind _ fun bodies => .pure ?_
  refine ⟨stage, structures.flatMap c.dialect.structureLines ++ resources ++ bodies.flatten ++
    mainLines c.dialect layout, ?_, ?_⟩ <;> simp only [List.append_assoc]

/-- **The options do not change the course of a request.** -/
theorem documentRequest_parallel (m : Meanings) (d : Dialect) (c : Code) (depth : Nat)
    (entry : String) (o o' : Options) :
    Request.Parallel m (SameBelowHeader d o o') (documentRequest d c depth entry o)
      (documentRequest d c depth entry o') := by
  unfold documentRequest
  refine .bind _ fun found => .note _ _ (.bind _ fun functions => .bind _ fun layout => ?_)
  refine .bind _ fun σ => .note _ _ ?_
  exact documentLines_parallel m ⟨d, c, σ.structures⟩ found.2 o o' functions layout

/-! ## Shaders of two requests -/

/-- A shader of a document with some header, once for each of two options. -/
structure Shader.SameDocument (d : Dialect) (o o' : Options) (s s' : Shader) : Prop where
  diagnostics : s.diagnostics = s'.diagnostics
  text : ∃ lines lines', SameBelowHeader d o o' lines lines' ∧
    s.text = Text.renderLines o.indent lines ∧ s'.text = Text.renderLines o'.indent lines'

theorem Program.generateFrom_parallel (p : Program) (symbols : SymbolSource) (depth : Nat)
    (d : Dialect) (entry : String) (o o' : Options) :
    Matched (Shader.SameDocument d o o') (p.generateFrom symbols depth d entry o).result
      (p.generateFrom symbols depth d entry o').result := by
  rw [generateFrom_result_eq_eval, generateFrom_result_eq_eval, eval_shaderQuery, eval_shaderQuery]
  obtain ⟨hσ, hlines⟩ := documentRequest_parallel (p.structures.meaning symbols) d p.toCode depth
    entry o o' {}
  exact hlines.map fun lines lines' h =>
    ⟨congrArg Resolution.diagnostics hσ, lines, lines', h, rfl, rfl⟩

/-! ## Targets -/

/-- Whether the line of a number declares a default precision. -/
def Target.declaresPrecision : Target → Nat → Bool
  | .glslEs300, i => i == 1 || i == 2
  | .glsl330, _ | .glsl450, _ | .hlsl, _ => false

/-- A text whose second and third lines declare a precision for floats and integers. -/
def DeclaresPrecision (p : FloatPrecision) (text : String) : Prop :=
  (Text.linesOf text)[1]? = some s!"precision {Glsl.precision p} float;".toList ∧
    (Text.linesOf text)[2]? = some s!"precision {Glsl.precision p} int;".toList

/-- Two shaders that differ in leading blanks and in default precisions alone. -/
structure Shader.SameButLayout (target : Target) (o o' : Options) (s s' : Shader) : Prop where
  diagnostics : s.diagnostics = s'.diagnostics
  count : Text.countLines s.text = Text.countLines s'.text
  lines : ∀ i, target.declaresPrecision i = false →
    (Text.linesOf s.text)[i]?.map Text.unindented = (Text.linesOf s'.text)[i]?.map Text.unindented
  precision : target = .glslEs300 →
    DeclaresPrecision o.floatPrecision s.text ∧ DeclaresPrecision o'.floatPrecision s'.text

namespace Text

/-- A document of lines that differ in nothing but their width of indentation. -/
theorem unindented_getElem?_renderLines (indent indent' : Nat) (lines : List Line) (i : Nat) :
    (linesOf (renderLines indent lines))[i]?.map unindented =
      (linesOf (renderLines indent' lines))[i]?.map unindented := by
  rw [← List.getElem?_map, ← List.getElem?_map, map_unindented_linesOf_renderLines,
    map_unindented_linesOf_renderLines]

theorem length_linesOf_renderLines (indent indent' : Nat) (lines : List Line) :
    (linesOf (renderLines indent lines)).length = (linesOf (renderLines indent' lines)).length := by
  rw [← List.length_map unindented, map_unindented_linesOf_renderLines,
    ← map_unindented_linesOf_renderLines indent', List.length_map]

end Text

/-- The lines of a document with the header of ES 3.00: four lines, then the rest. -/
theorem linesOf_es300 (indent : Nat) (p : FloatPrecision) (rest : List Text.Line) :
    Text.linesOf (Text.renderLines indent (Glsl.header .es300 p ++ rest)) =
      "#version 300 es".toList :: s!"precision {Glsl.precision p} float;".toList ::
        s!"precision {Glsl.precision p} int;".toList :: [] ::
          Text.linesOf (Text.renderLines indent rest) := by
  have hversion : Text.linesOf "#version 300 es" = ["#version 300 es".toList] := rfl
  have hfloat : Text.linesOf s!"precision {Glsl.precision p} float;" =
      [s!"precision {Glsl.precision p} float;".toList] := by cases p <;> rfl
  have hint : Text.linesOf s!"precision {Glsl.precision p} int;" =
      [s!"precision {Glsl.precision p} int;".toList] := by cases p <;> rfl
  have hblank : Text.linesOf "" = [[]] := rfl
  show Text.linesOf (Text.renderLines indent (.flush _ :: .flush _ :: .flush _ :: .flush "" :: rest))
    = _
  rw [Text.renderLines_flush, Text.linesOf_append, Text.renderLines_flush, Text.linesOf_append,
    Text.renderLines_flush, Text.linesOf_append, Text.renderLines_flush, Text.linesOf_append,
    hversion, hfloat, hint, hblank]
  rfl

namespace Shader

variable {o o' : Options} {s s' : Shader}

/-- A document whose header does not depend on the precision. -/
theorem sameButLayout_of_lines {target : Target} (htarget : target ≠ .glslEs300)
    (hdiagnostics : s.diagnostics = s'.diagnostics) {lines : List Text.Line}
    (hs : s.text = Text.renderLines o.indent lines)
    (hs' : s'.text = Text.renderLines o'.indent lines) : SameButLayout target o o' s s' where
  diagnostics := hdiagnostics
  count := by
    have hlength := Text.length_linesOf_renderLines o.indent o'.indent lines
    rw [← Text.countLines_renderLines, ← Text.countLines_renderLines] at hlength
    rw [hs, hs']
    omega
  lines i _ := by
    rw [hs, hs']
    exact Text.unindented_getElem?_renderLines _ _ _ _
  precision h := absurd h htarget

/-- A document below the header of ES 3.00. -/
theorem sameButLayout_of_es300 (hdiagnostics : s.diagnostics = s'.diagnostics)
    {rest : List Text.Line}
    (hs : s.text = Text.renderLines o.indent (Glsl.header .es300 o.floatPrecision ++ rest))
    (hs' : s'.text = Text.renderLines o'.indent (Glsl.header .es300 o'.floatPrecision ++ rest)) :
    SameButLayout .glslEs300 o o' s s' where
  diagnostics := hdiagnostics
  count := by
    have hlength : (Text.linesOf s.text).length = (Text.linesOf s'.text).length := by
      rw [hs, hs', linesOf_es300, linesOf_es300]
      simp only [List.length_cons, Text.length_linesOf_renderLines o.indent o'.indent rest]
    rw [hs, hs', ← Text.countLines_renderLines, ← Text.countLines_renderLines] at hlength
    rw [hs, hs']
    omega
  lines i hi := by
    rw [hs, hs', linesOf_es300, linesOf_es300]
    match i with
    | 0 => rfl
    | 1 | 2 => exact absurd hi (by decide)
    | 3 => rfl
    | i + 4 => exact Text.unindented_getElem?_renderLines _ _ _ _
  precision _ := by
    rw [hs, hs', DeclaresPrecision, DeclaresPrecision, linesOf_es300, linesOf_es300]
    exact ⟨⟨rfl, rfl⟩, rfl, rfl⟩

theorem SameDocument.sameButLayout {target : Target}
    (h : SameDocument target.dialect o o' s s') : SameButLayout target o o' s s' := by
  obtain ⟨hdiagnostics, lines, lines', ⟨stage, rest, rfl, rfl⟩, hs, hs'⟩ := h
  cases target with
  | glslEs300 => exact sameButLayout_of_es300 hdiagnostics hs hs'
  | glsl330 => exact sameButLayout_of_lines (by decide) hdiagnostics hs hs'
  | glsl450 => exact sameButLayout_of_lines (by decide) hdiagnostics hs hs'
  | hlsl => exact sameButLayout_of_lines (by decide) hdiagnostics hs hs'

end Shader

/-- **Options change leading blanks and default precisions, and nothing else.**  Two requests that
differ in their options fail with the same error, or succeed with the same diagnostics and the same
lines: equal after their leading blanks, but for the two lines of an ES 3.00 header that declare the
precision of the request.  Here the text of a request is the one that the writer of the target puts down
with these options, white space included, from the first line to the last. -/
theorem Program.generateFrom_options (target : Target) (p : Program) (symbols : SymbolSource)
    (depth : Nat) (entry : String) (o o' : Options) :
    (p.generateFrom symbols depth target.dialect entry o).result.map Shader.text =
        p.writeFrom symbols depth target entry o ∧
      Matched (Shader.SameButLayout target o o')
        (p.generateFrom symbols depth target.dialect entry o).result
        (p.generateFrom symbols depth target.dialect entry o').result := by
  refine ⟨p.map_text_generateFrom symbols depth target entry o, ?_⟩
  have h := p.generateFrom_parallel symbols depth target.dialect entry o o'
  exact h.mono fun _ _ hdocument => hdocument.sameButLayout

end CrossShader

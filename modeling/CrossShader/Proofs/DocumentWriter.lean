import CrossShader.Proofs.EmittedStructures
import CrossShader.Proofs.Writer

/-!
# Documents with white space of their own

Whole shaders as texts that are written in one go.  A writer has a text for each part that the syntax of a
target decides; members of a declaration and the steps of `main` stand behind white space that it puts there
itself.  What the built-in targets write in this way is what they generate, and where they fail, they fail
with the same error.

* `Writer` — the parts of a document as texts; `Writer.document` — the document.
* `Writer.Renders` — the texts are the rendered lines of a dialect; `Writer.Renders.document_eq` — so is the
  document.
* `Glsl.writer`, `Hlsl.writer`, `Target.renders` — the built-in targets.
* `Program.writeFrom` — a request that writes its text; `Program.map_text_generateFrom` — it is the
  generated one.
-/

set_option autoImplicit false

namespace CrossShader

open Text

/-- Members of a block, each on a line of its own. -/
theorem renderLines_map_inner {α : Type} (o : Options) (f : α → String) (as : List α) :
    renderLines o.indent (as.map fun a => .inner (f a)) =
      String.join (as.map fun a => s!"{o.pad 1}{f a}\n") := by
  rw [renderLines, List.map_map]
  rfl

/-- How a target writes the parts of a document that its syntax decides. -/
structure Writer where
  header : Stage → Options → String
  declaration : StructureDecl → Options → String
  resource : ResourceForm → ResourceDecl → Options → Except GenerationError String
  interfaceBegin : Direction → EntryLayout → String
  stageVariable : StageVariable → Options → String
  positionOutput : EntryLayout → Options → String
  interfaceEnd : Direction → EntryLayout → String
  mainAttributes : EntryLayout → String

namespace Writer

/-- The declaration of a resource. -/
def declareResource (w : Writer) (c : Context) (o : Options) (r : Resource) :
    Except GenerationError String := do
  let decl ← c.resourceDecl r
  match r.kind.form? with
  | some form => w.resource form decl o
  | none => .error (.illegalResourceKind r.name r.kind)

/-- The declarations of the stage variables, and an empty line; compute entries have none. -/
def interface (w : Writer) (o : Options) (layout : EntryLayout) : String :=
  match layout.stage with
  | .compute => ""
  | .vertex | .fragment =>
    w.interfaceBegin .input layout ++ String.join (layout.inputs.map fun v => w.stageVariable v o) ++
      w.interfaceEnd .input layout ++
      w.interfaceBegin .output layout ++ String.join (layout.outputs.map fun v => w.stageVariable v o) ++
      (if layout.stage = .vertex then w.positionOutput layout o else "") ++
      w.interfaceEnd .output layout ++ "\n"

/-- The stage interface and `main`. -/
def main (w : Writer) (d : Dialect) (o : Options) (layout : EntryLayout) : String :=
  w.interface o layout ++ w.mainAttributes layout ++ d.mainSignature layout ++ "\n\x7b\n" ++
    String.join ((mainSteps d layout).map fun step => s!"{o.pad 1}{step.text}\n") ++ "\x7d\n"

/-- The document of an entry. -/
def document (w : Writer) (c : Context) (o : Options) (stage : Stage) (functions : List Function)
    (layout : EntryLayout) : Except GenerationError String := do
  let declarations ← c.structureDecls
  let resources ← c.code.resources.items.mapM (w.declareResource c o)
  let bodies ← functions.mapM (c.writeFunction o stage)
  return w.header stage o ++ String.join (declarations.map fun decl => w.declaration decl o) ++
    String.join resources ++ String.join bodies ++ w.main c.dialect o layout

/-- The texts of a writer are the rendered lines of a dialect. -/
structure Renders (w : Writer) (d : Dialect) : Prop where
  header : ∀ stage o, w.header stage o = renderLines o.indent (d.header stage o.floatPrecision)
  declaration : ∀ decl o, w.declaration decl o = renderLines o.indent (d.structureLines decl)
  resource : ∀ form decl o, w.resource form decl o =
    (d.resource form decl).map fun declared => renderLines o.indent declared.lines
  interfaceBegin : ∀ direction layout indent,
    w.interfaceBegin direction layout = renderLines indent (d.interfaceBegin direction layout)
  stageVariable : ∀ v o, w.stageVariable v o = renderLines o.indent (d.stageVariable v)
  positionOutput : ∀ layout o, w.positionOutput layout o = renderLines o.indent (d.positionOutput layout)
  interfaceEnd : ∀ direction layout indent,
    w.interfaceEnd direction layout = renderLines indent (d.interfaceEnd direction layout)
  mainAttributes : ∀ layout indent,
    w.mainAttributes layout = renderLines indent (d.mainAttributes layout)

namespace Renders

variable {w : Writer} {d : Dialect}

theorem declareResource_eq {c : Context} (h : w.Renders c.dialect) (o : Options) (r : Resource) :
    w.declareResource c o r =
      (c.declareResource r).map fun declared => renderLines o.indent declared.lines := by
  rw [declareResource, Context.declareResource]
  cases c.resourceDecl r with
  | error e => rfl
  | ok decl =>
    cases hform : r.kind.form? with
    | none => rfl
    | some form => exact h.resource form decl o

theorem interface_eq (h : w.Renders d) (o : Options) (layout : EntryLayout) :
    w.interface o layout = renderLines o.indent (interfaceLines d layout) := by
  rw [interface, interfaceLines]
  cases layout.stage with
  | compute => rfl
  | vertex | fragment =>
    simp [renderLines_append, renderLines_flatMap, renderLines_blank, renderLines_nil, h.stageVariable,
      h.positionOutput, h.interfaceBegin _ _ o.indent, h.interfaceEnd _ _ o.indent, String.append_assoc]

theorem main_eq (h : w.Renders d) (o : Options) (layout : EntryLayout) :
    w.main d o layout = renderLines o.indent (mainLines d layout) := by
  rw [main, h.interface_eq, h.mainAttributes layout o.indent, mainLines, renderLines_append,
    renderLines_append, renderLines_flush, renderLines_braced, renderLines_map_inner, ← String.toList_inj]
  simp [bracedText, pad_zero, toString]

/-- **A written document is the rendered one**, or fails with the same error. -/
theorem document_eq {c : Context} (h : w.Renders c.dialect) (o : Options) (stage : Stage)
    (functions : List Function) (layout : EntryLayout) (m : Meanings) (σ : Resolution) :
    w.document c o stage functions layout =
      ((documentLines c stage o.floatPrecision functions layout).eval m σ).1.map
        (renderLines o.indent) := by
  have hresources := mapM_eq_map (l := c.code.resources.items) fun r _ => h.declareResource_eq o r
  have hbodies := mapM_eq_map (l := functions) fun f _ => c.writeFunction_eq o stage f
  rw [document, eval_documentLines, hresources, hbodies]
  cases c.structureDecls with
  | error e => rfl
  | ok declarations =>
    cases c.code.resources.items.mapM c.declareResource with
    | error e => rfl
    | ok resources =>
      cases functions.mapM (c.functionLines stage) with
      | error e => rfl
      | ok bodies =>
        refine congrArg Except.ok ?_
        simp only [renderLines_append, renderLines_flatMap, renderLines_flatten, h.header, h.declaration,
          h.main_eq]

end Renders

end Writer

/-! ## The built-in targets -/

/-- A structure declaration, and an empty line. -/
def StructureDecl.write (decl : StructureDecl) (o : Options) : String :=
  s!"struct {decl.name}\n\x7b\n" ++ String.join (decl.fields.map fun f => s!"{o.pad 1}{f.text}\n") ++
    "\x7d;\n\n"

theorem StructureDecl.write_eq (decl : StructureDecl) (o : Options) :
    decl.write o = renderLines o.indent decl.lines := by
  rw [write, lines, renderLines_append, renderLines_append, renderLines_map_inner, ← String.toList_inj]
  simp [renderLines_flush, renderLines_blank, renderLines_nil, toString]

namespace Glsl

/-- A block with one member behind the white space `lead`, and an empty line. -/
def blockText (lead heading member : String) : String := s!"{heading}\n\x7b\n{lead}{member}\n\x7d;\n\n"

theorem renderLines_block (indent : Nat) (heading member : String) :
    renderLines indent (block heading member) = blockText (pad indent 1) heading member := by
  rw [← String.toList_inj]
  simp [block, blockText, renderLines_flush, renderLines_inner, renderLines_blank, renderLines_nil, toString]

/-- An opaque resource, with its set and binding where the version has them, and an empty line. -/
def objectText (version : Version) (type : String) (d : ResourceDecl) : String :=
  let qualifier :=
    if version.explicitLayout then s!"layout(set = 0, binding = {d.resource.binding}) " else ""
  s!"{qualifier}uniform {type} {d.name};\n\n"

theorem renderLines_objectLines (indent : Nat) (version : Version) (type : String) (d : ResourceDecl) :
    renderLines indent (objectLines version type d) = objectText version type d := by
  rw [objectLines, objectText, renderLines_flush, renderLines_blank, renderLines_nil, ← String.toList_inj]
  simp [toString]

/-- A resource declaration. -/
def writeResource (version : Version) :
    ResourceForm → ResourceDecl → Options → Except GenerationError String
  | .uniform, d, o => do
    let type ← d.requireValueType
    let qualifiers :=
      if version.explicitLayout then s!"std140, set = 0, binding = {d.resource.binding}"
      else "std140"
    return blockText (o.pad 1) s!"layout({qualifiers}) uniform {d.name}"
      s!"{type} {blockMember d.resource};"
  | .texture2D, d, _ =>
    .ok (objectText version (if version.separateSamplers then "texture2D" else "sampler2D") d)
  | .textureCube, d, _ =>
    .ok (objectText version (if version.separateSamplers then "textureCube" else "samplerCube") d)
  | .sampler, d, _ => .ok (if version.separateSamplers then objectText version "sampler" d else "")
  | .buffer writable, d, o =>
    if version.explicitLayout then do
      let type ← d.requireValueType
      let access := if writable then "" else "readonly "
      let layout := s!"layout(std430, set = 0, binding = {d.resource.binding})"
      return blockText (o.pad 1) s!"{layout} {access}buffer {d.name}"
        s!"{type} {blockMember d.resource}[];"
    else .error (.unsupported (.structuredBuffer d.resource.name version.text) .unknown)

theorem writeResource_eq (version : Version) (form : ResourceForm) (d : ResourceDecl) (o : Options) :
    writeResource version form d o =
      (resource version form d).map fun declared => renderLines o.indent declared.lines := by
  cases form with
  | uniform =>
    rw [writeResource, resource]
    cases d.requireValueType with
    | error e => rfl
    | ok type => exact congrArg Except.ok (renderLines_block _ _ _).symm
  | texture2D | textureCube => exact congrArg Except.ok (renderLines_objectLines _ _ _ _).symm
  | sampler =>
    rw [writeResource, resource]
    cases version.separateSamplers with
    | false => rfl
    | true => exact congrArg Except.ok (renderLines_objectLines _ _ _ _).symm
  | buffer writable =>
    rw [writeResource, resource]
    cases version.explicitLayout with
    | false => rfl
    | true =>
      cases d.requireValueType with
      | error e => rfl
      | ok type => exact congrArg Except.ok (renderLines_block _ _ _).symm

/-- The parts of a document in a version of GLSL. -/
def writer (version : Version) : Writer where
  header _ o :=
    match version with
    | .es300 =>
      let p := precision o.floatPrecision
      s!"#version 300 es\nprecision {p} float;\nprecision {p} int;\n\n"
    | .core330 => "#version 330 core\n\n"
    | .core450 => "#version 450\n\n"
  declaration := StructureDecl.write
  resource := writeResource version
  interfaceBegin _ _ := ""
  stageVariable v _ :=
    let location := if isLocated version v then s!"layout(location = {v.slot}) " else ""
    s!"{location}{v.direction.text} {v.type} {v.name};\n"
  positionOutput _ _ := ""
  interfaceEnd _ _ := ""
  mainAttributes layout :=
    match layout.stage with
    | .compute =>
      let w := layout.workgroup
      s!"layout(local_size_x = {w.x}, local_size_y = {w.y}, local_size_z = {w.z}) in;\n\n"
    | .vertex | .fragment => ""

theorem writer_renders (version : Version) : (writer version).Renders (dialect version) where
  header stage o := by
    cases version with
    | es300 =>
      rw [← String.toList_inj]
      simp [writer, dialect, header, renderLines_flush, renderLines_blank, renderLines_nil, toString]
    | core330 | core450 => rfl
  declaration := StructureDecl.write_eq
  resource := writeResource_eq version
  interfaceBegin _ _ _ := rfl
  stageVariable v o := by
    rw [← String.toList_inj]
    simp [writer, dialect, stageVariable, renderLines_flush, renderLines_nil, toString]
  positionOutput _ _ := rfl
  interfaceEnd _ _ _ := rfl
  mainAttributes layout indent := by
    cases hstage : layout.stage with
    | compute =>
      rw [← String.toList_inj]
      simp [writer, dialect, mainAttributes, hstage, renderLines_flush, renderLines_blank, renderLines_nil,
        toString]
    | vertex | fragment => simp [writer, dialect, mainAttributes, hstage, renderLines_nil]

end Glsl

namespace Hlsl

/-- A resource at its register, and an empty line. -/
def registeredText (heading letter : String) (d : ResourceDecl) : String :=
  s!"{heading} {d.name} : register({letter}{d.resource.binding});\n\n"

theorem renderLines_registered (indent : Nat) (heading letter : String) (d : ResourceDecl) :
    renderLines indent (registered heading letter d) = registeredText heading letter d := by
  rw [registered, registeredText, renderLines_flush, renderLines_blank, renderLines_nil, ← String.toList_inj]
  simp [toString]

/-- A resource declaration. -/
def writeResource : ResourceForm → ResourceDecl → Options → Except GenerationError String
  | .uniform, d, o => do
    let type ← d.requireValueType
    return s!"cbuffer {d.name}Buffer : register(b{d.resource.binding})\n\x7b\n" ++
      s!"{o.pad 1}{type} {d.name};\n\x7d;\n\n"
  | .texture2D, d, _ => .ok (registeredText "Texture2D" "t" d)
  | .textureCube, d, _ => .ok (registeredText "TextureCube" "t" d)
  | .sampler, d, _ => .ok (registeredText "SamplerState" "s" d)
  | .buffer writable, d, _ => do
    let type ← d.requireValueType
    return if writable then registeredText s!"RWStructuredBuffer<{type}>" "u" d
      else registeredText s!"StructuredBuffer<{type}>" "t" d

theorem writeResource_eq (form : ResourceForm) (d : ResourceDecl) (o : Options) :
    writeResource form d o =
      (resource form d).map fun declared => renderLines o.indent declared.lines := by
  cases form with
  | uniform =>
    rw [writeResource, resource]
    cases d.requireValueType with
    | error e => rfl
    | ok type =>
      refine congrArg Except.ok (String.toList_inj.1 ?_)
      simp [renderLines_flush, renderLines_inner, renderLines_blank, renderLines_nil, Options.pad, toString]
  | texture2D | textureCube | sampler => exact congrArg Except.ok (renderLines_registered _ _ _ _).symm
  | buffer writable =>
    rw [writeResource, resource]
    cases d.requireValueType with
    | error e => rfl
    | ok type =>
      cases writable with
      | false => exact congrArg Except.ok (renderLines_registered _ _ _ _).symm
      | true => exact congrArg Except.ok (renderLines_registered _ _ _ _).symm

/-- The parts of a document in HLSL. -/
def writer : Writer where
  header _ _ := ""
  declaration := StructureDecl.write
  resource := writeResource
  interfaceBegin direction layout := s!"struct {interfaceType layout direction}\n\x7b\n"
  stageVariable v o := s!"{o.pad 1}{v.type} {v.name} : {slotSemantic v};\n"
  positionOutput _ o := s!"{o.pad 1}float4 {positionMember} : SV_Position;\n"
  interfaceEnd direction _ :=
    match direction with
    | .input => "\x7d;\n\n"
    | .output => "\x7d;\n"
  mainAttributes layout :=
    match layout.stage with
    | .compute => s!"[numthreads{layout.workgroup.text}]\n"
    | .vertex | .fragment => ""

theorem writer_renders : writer.Renders dialect where
  header _ _ := rfl
  declaration := StructureDecl.write_eq
  resource := writeResource_eq
  interfaceBegin direction layout indent := by
    rw [← String.toList_inj]
    simp [writer, dialect, renderLines_flush, renderLines_nil, toString]
  stageVariable v o := by
    rw [← String.toList_inj]
    simp [writer, dialect, renderLines_inner, renderLines_nil, Options.pad, toString]
  positionOutput layout o := by
    rw [← String.toList_inj]
    simp [writer, dialect, renderLines_inner, renderLines_nil, Options.pad, toString]
  interfaceEnd direction layout indent := by
    cases direction with
    | input | output => rfl
  mainAttributes layout indent := by
    cases hstage : layout.stage with
    | compute =>
      rw [← String.toList_inj]
      simp [writer, dialect, mainAttributes, hstage, renderLines_flush, renderLines_nil, toString]
    | vertex | fragment => simp [writer, dialect, mainAttributes, hstage, renderLines_nil]

end Hlsl

/-- The writer of a target. -/
def Target.writer : Target → Writer
  | glslEs300 => Glsl.writer .es300
  | glsl330 => Glsl.writer .core330
  | glsl450 => Glsl.writer .core450
  | hlsl => Hlsl.writer

/-- **Every target writes the lines that it declares.** -/
theorem Target.renders (target : Target) : target.writer.Renders target.dialect := by
  cases target with
  | glslEs300 => exact Glsl.writer_renders .es300
  | glsl330 => exact Glsl.writer_renders .core330
  | glsl450 => exact Glsl.writer_renders .core450
  | hlsl => exact Hlsl.writer_renders

/-! ## Requests -/

/-- The text of the shader of an entry, written with the structures that the request resolves. -/
def Program.writeFrom (p : Program) (symbols : SymbolSource) (depth : Nat) (target : Target)
    (entry : String) (o : Options) : Except GenerationError String := do
  let (f, stage) ← findEntry target.dialect p.toCode entry
  let functions ← p.toCode.reachable f
  let (layout, resolution) := (resolveRequest target.dialect p.toCode depth f stage functions).eval
    (p.structures.meaning symbols) {}
  target.writer.document ⟨target.dialect, p.toCode, resolution.structures⟩ o stage functions (← layout)

/-- What a request ends with, phase by phase. -/
theorem eval_documentRequest (m : Meanings) (d : Dialect) (c : Code) (depth : Nat) (entry : String)
    (o : Options) : ((documentRequest d c depth entry o).eval m {}).1 = (do
      let (f, stage) ← findEntry d c entry
      let functions ← c.reachable f
      let (layout, σ) := (resolveRequest d c depth f stage functions).eval m {}
      ((documentLines ⟨d, c, σ.structures⟩ stage o.floatPrecision functions (← layout)).eval m σ).1) := by
  rw [documentRequest, Request.eval_bind, Request.eval_ofExcept]
  cases findEntry d c entry with
  | error e => rfl
  | ok found =>
    obtain ⟨f, stage⟩ := found
    dsimp only
    rw [Request.eval_bind, Request.eval_note]
    dsimp only
    rw [Request.eval_bind, Request.eval_ofExcept]
    cases hfunctions : c.reachable f with
    | error e => simp [hfunctions, Bind.bind, Except.bind]
    | ok functions =>
      dsimp only
      rw [Request.eval_bind]
      cases hlayout : (resolveRequest d c depth f stage functions).eval m {} with
      | mk layout σ =>
        cases layout with
        | error e => simp [hfunctions, hlayout, Bind.bind, Except.bind]
        | ok layout =>
          dsimp only
          rw [Request.eval_bind, Request.eval_get]
          dsimp only
          rw [Request.eval_bind, Request.eval_note]
          simp [hfunctions, hlayout, Bind.bind, Except.bind]

/-- **The text of a request is written in one go**, or the request fails with the same error. -/
theorem Program.map_text_generateFrom (p : Program) (symbols : SymbolSource) (depth : Nat)
    (target : Target) (entry : String) (o : Options) :
    (p.generateFrom symbols depth target.dialect entry o).result.map Shader.text =
      p.writeFrom symbols depth target entry o := by
  have hlines : (p.generateFrom symbols depth target.dialect entry o).result.map Shader.text =
      ((documentRequest target.dialect p.toCode depth entry o).eval (p.structures.meaning symbols) {}).1.map
        (renderLines o.indent) := by
    rw [generateFrom_result_eq_eval, eval_shaderQuery]
    cases ((documentRequest target.dialect p.toCode depth entry o).eval
      (p.structures.meaning symbols) {}).1 with
    | error e => rfl
    | ok lines => rfl
  rw [hlines, eval_documentRequest, writeFrom]
  cases findEntry target.dialect p.toCode entry with
  | error e => rfl
  | ok found =>
    obtain ⟨f, stage⟩ := found
    dsimp only [Bind.bind, Except.bind]
    cases p.toCode.reachable f with
    | error e => rfl
    | ok functions =>
      dsimp only
      cases (resolveRequest target.dialect p.toCode depth f stage functions).eval
        (p.structures.meaning symbols) {} with
      | mk layout σ =>
        cases layout with
        | error e => rfl
        | ok layout => exact (target.renders.document_eq o stage functions layout _ σ).symm

end CrossShader

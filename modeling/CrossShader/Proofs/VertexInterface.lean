import CrossShader.Proofs.Diagnostics
import CrossShader.Proofs.Validation

/-!
# The stage interface of a vertex entry

A vertex entry takes one structure and returns another.  All fields of the first are inputs.  Of the
second, the first field that is tagged as a position is the clip-space position and the others are
outputs, whatever their tags and names are.

* `clipIndex` — the index of the clip-space position; `clipPosition?_eq_eraseIdx` — the other fields are
  those at the other indices.
* `VertexInterface` — inputs, clip-space position, outputs and diagnostics of a vertex entry.
* `vertex_interface_exact` — the interface of every vertex entry that can be planned, and of every vertex
  shader; without a position there is no shader.
-/

set_option autoImplicit false

namespace CrossShader

open Text

/-- The index of the first field that is tagged as a position. -/
def clipIndex (fields : List Field) : Nat := fields.findIdx (·.semantic == .position)

theorem clipIndex_append {before after : List Field} {position : Field}
    (hbefore : ∀ field ∈ before, field.semantic ≠ .position) (hposition : position.semantic = .position) :
    clipIndex (before ++ position :: after) = before.length := by
  have hnone : ∀ field ∈ before, (field.semantic == .position) = false :=
    fun field hfield => beq_eq_false_iff_ne.2 (hbefore field hfield)
  have hskip : before.findIdx (·.semantic == .position) = before.length :=
    List.findIdx_eq_length.2 hnone
  unfold clipIndex
  rw [List.findIdx_append, if_neg (by rw [hskip]; exact Nat.lt_irrefl _), List.findIdx_cons]
  simp [hposition]

/-- **The clip-space position is taken out by its index.** -/
theorem clipPosition?_eq_eraseIdx {fields others : List Field} {position : Field}
    (h : clipPosition? fields = some (position, others)) :
    fields[clipIndex fields]? = some position ∧ position.semantic = .position ∧
      others = fields.eraseIdx (clipIndex fields) := by
  obtain ⟨before, after, rfl, rfl, hposition, hbefore⟩ := clipPosition?_eq_some_iff.1 h
  rw [clipIndex_append hbefore hposition]
  refine ⟨by simp, hposition, ?_⟩
  rw [List.eraseIdx_append_of_length_le (Nat.le_refl _), Nat.sub_self, List.eraseIdx_cons_zero]

/-- The interface of a vertex entry that takes the structure `input` and returns the structure `output`,
with the diagnostics about it.  The variables at an index carry the fields at that index, of the result
without its clip-space position, and have the index as their slot. -/
structure VertexInterface (d : Dialect) (input output : Structure) (layout : EntryLayout)
    (diagnostics : List Diagnostic) : Prop where
  inputs : ∀ slot : Nat, layout.inputs[slot]? =
    input.fields[slot]?.map fun field => d.variableOf .input .vertex "" field slot
  outputs : ∀ slot : Nat, layout.outputs[slot]? =
    (output.fields.eraseIdx (clipIndex output.fields))[slot]?.map fun field =>
      d.variableOf .output .vertex vertexOutputLead field slot
  position : ∃ position, output.fields[clipIndex output.fields]? = some position ∧
    position.semantic = .position ∧ layout.positionField = some (d.correct position.name) ∧
    diagnostics = positionWarnings output position

/-- The interface of a planned vertex entry, with the structures that its signature names. -/
theorem planEntry_vertexInterface {m : Meanings} {d : Dialect} {depth : Nat} {f : Function}
    {layout : EntryLayout} {τ : Resolution}
    (h : (planEntry d depth f .vertex).eval m {} = (.ok layout, τ)) :
    ∃ parameter input output, f.parameters = [parameter] ∧ m parameter.type.name = .ok input ∧
      m f.returnType.name = .ok output ∧ VertexInterface d input output layout τ.diagnostics := by
  obtain ⟨parameter, input, output, position, others, hparameter, hinput, houtput, hclip, rfl⟩ :=
    planEntry_vertex h
  have hdiagnostics := planEntry_vertex_diagnostics h houtput hclip
  obtain ⟨hat, htagged, rfl⟩ := clipPosition?_eq_eraseIdx hclip
  exact ⟨parameter, input, output, hparameter, hinput, houtput,
    { inputs := getElem?_variablesOf d .input .vertex "" input.fields
      outputs := getElem?_variablesOf d .output .vertex vertexOutputLead _
      position := ⟨position, hat, htagged, rfl, hdiagnostics⟩ }⟩

/-- **The stage interface of vertex entries.**  On every dialect, a vertex entry that can be planned has the
interface of the structures that its signature names, and so has every shader that is generated for it; the
diagnostics of the shader are those of the interface.  If no field of the result is tagged as a position,
the entry has no shader. -/
theorem vertex_interface_exact (d : Dialect) (p : Program) (symbols : SymbolSource) (depth : Nat)
    (f : Function) :
    let m := p.structures.meaning symbols
    (∀ layout τ, (planEntry d depth f .vertex).eval m {} = (.ok layout, τ) →
      ∃ parameter input output, f.parameters = [parameter] ∧ m parameter.type.name = .ok input ∧
        m f.returnType.name = .ok output ∧ VertexInterface d input output layout τ.diagnostics) ∧
    ∀ entry options, findEntry d p.toCode entry = .ok (f, .vertex) →
      (∀ shader, (p.generateFrom symbols depth d entry options).result = .ok shader →
        ∃ parameter input output layout lines, f.parameters = [parameter] ∧
          m parameter.type.name = .ok input ∧ m f.returnType.name = .ok output ∧
          VertexInterface d input output layout shader.diagnostics ∧
          shader.text = renderLines options.indent (lines ++ mainLines d layout)) ∧
      ∀ output, m f.returnType.name = .ok output →
        (∀ field ∈ output.fields, field.semantic ≠ .position) →
        ∀ shader, (p.generateFrom symbols depth d entry options).result ≠ .ok shader := by
  intro m
  refine ⟨fun layout τ => planEntry_vertexInterface,
    fun entry options hentry => ⟨fun shader hshader => ?_, fun output houtput hnone shader hshader => ?_⟩⟩
  · obtain ⟨layout, τ, lines, hplan, hdiagnostics, htext⟩ := Program.generateFrom_planned hshader hentry
    obtain ⟨parameter, input, output, hparameter, hinput, houtput, hinterface⟩ :=
      planEntry_vertexInterface hplan
    rw [← hdiagnostics] at hinterface
    exact ⟨parameter, input, output, layout, lines, hparameter, hinput, houtput, hinterface, htext⟩
  · obtain ⟨layout, τ, lines, hplan, -, -⟩ := Program.generateFrom_planned hshader hentry
    obtain ⟨_, _, output', position, others, -, -, houtput', hclip, -⟩ := planEntry_vertex hplan
    cases houtput.symm.trans houtput'
    rw [clipPosition?_eq_none_iff.2 hnone] at hclip
    cases hclip

/-- Fields of which two are tagged as positions; names are repeated, those of the positions too. -/
def Field.crowded : List Field :=
  [{ name := "uv", type := ⟨Host.vector2, false⟩ }, .clip,
    { name := "uv", type := ⟨Host.vector3, false⟩, semantic := .normal }, .clip]

theorem vertex_interface_exact_crowded :
    (∃ shader layout lines, Program.placedResult .glsl450 Field.crowded [] = .ok shader ∧
      shader.text = renderLines 4 (lines ++ mainLines (Target.glsl450).dialect layout) ∧
      layout.positionField = some "clip" ∧
      (∀ slot : Nat, layout.inputs[slot]?.map StageVariable.name =
        ["uv", "clip", "uv", "clip"][slot]?) ∧
      (∀ slot : Nat, layout.outputs[slot]?.map StageVariable.name =
        ["out_uv", "out_uv", "out_clip"][slot]?) ∧
      shader.diagnostics = [severalPositions ⟨"Varyings", Field.crowded⟩ .clip]) ∧
    ∀ shader, Program.placedResult .hlsl [] [] ≠ .ok shader := by
  constructor
  · have hok : (Program.placedResult .glsl450 Field.crowded []).toBool = true := by decide +kernel
    cases hresult : Program.placedResult .glsl450 Field.crowded [] with
    | error e =>
      rw [hresult] at hok
      cases hok
    | ok shader =>
      obtain ⟨parameter, input, output, layout, lines, hparameter, hinput, houtput, hinterface, htext⟩ :=
        ((vertex_interface_exact (Target.glsl450).dialect (Program.placed Field.crowded [])
          ⟨fun _ => []⟩ 2 Function.place).2 "place" {} (by rfl)).1 shader hresult
      cases hparameter
      cases hinput
      cases houtput
      obtain ⟨position, hat, -, hname, hdiagnostics⟩ := hinterface.position
      cases hat
      refine ⟨shader, layout, lines, rfl, htext, ?_, fun slot => ?_, fun slot => ?_, hdiagnostics⟩
      · rw [hname]
        decide +kernel
      · rw [hinterface.inputs]
        match slot with
        | 0 | 1 | 2 | 3 => decide +kernel
        | slot + 4 => rfl
      · rw [hinterface.outputs]
        match slot with
        | 0 | 1 | 2 => decide +kernel
        | slot + 3 => rfl
  · exact ((vertex_interface_exact (Target.hlsl).dialect (Program.placed [] []) ⟨fun _ => []⟩ 2
      Function.place).2 "place" {} (by rfl)).2 ⟨"Varyings", []⟩ rfl nofun

end CrossShader

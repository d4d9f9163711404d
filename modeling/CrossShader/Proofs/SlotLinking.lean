import CrossShader.Proofs.Diagnostics
import CrossShader.Target

/-!
# Slots between two stages

A vertex entry and a fragment entry that share a structure, on the targets that match the variables of
two stages by slot.  Inputs are counted over all fields, and outputs over all fields but the clip-space
position.

* `Target.linksBySlot`, `linkLine` — these targets, and how they show a slot.
* `Program.generateFrom_layout` — a shader ends in the stage interface and `main` of its entry's layout.
* `outputSlot` — where the field at an index goes out.
* `slots_link_iff_before_position` — the two sides agree on exactly the fields before the position.
* `slots_part_after_position` — a program on which they do not agree.
-/

set_option autoImplicit false

namespace CrossShader

open Text

/-! ## Targets -/

/-- Whether the variables of two stages are matched by their slots. -/
def Target.linksBySlot : Target → Bool
  | .glsl450 | .hlsl => true
  | .glslEs300 | .glsl330 => false

/-- The line that declares a variable between two stages, with its slot. -/
def linkLine (target : Target) (v : StageVariable) : Line :=
  match target with
  | .hlsl =>
    let semantic := s!"TEXCOORD{v.slot}"
    .inner s!"{v.type} {v.name} : {semantic};"
  | _ => .flush s!"layout(location = {v.slot}) {v.direction.text} {v.type} {v.name};"

/-- Every stage variable but the colour of a fragment shows its slot that way. -/
theorem stageVariable_eq_linkLine {target : Target} (h : target.linksBySlot) {v : StageVariable}
    (hv : v.stage = .vertex ∨ v.direction = .input) :
    target.dialect.stageVariable v = [linkLine target v] := by
  cases target with
  | glslEs300 | glsl330 => cases h
  | glsl450 => rfl
  | hlsl =>
    have hsemantic : Hlsl.slotSemantic v = s!"TEXCOORD{v.slot}" := by
      unfold Hlsl.slotSemantic
      rcases hv with hv | hv
      · rw [hv]
      · rw [hv]
        cases v.stage <;> rfl
    show [Line.inner s!"{v.type} {v.name} : {Hlsl.slotSemantic v};"] = _
    rw [hsemantic]
    rfl

theorem linkLine_mem_of_output {target : Target} (h : target.linksBySlot) {layout : EntryLayout}
    (hstage : layout.stage = .vertex) {v : StageVariable} (hv : v ∈ layout.outputs)
    (hvertex : v.stage = .vertex) : linkLine target v ∈ mainLines target.dialect layout := by
  have hline : linkLine target v ∈ layout.outputs.flatMap target.dialect.stageVariable := by
    refine List.mem_flatMap.2 ⟨v, hv, ?_⟩
    rw [stageVariable_eq_linkLine h (.inl hvertex)]
    exact List.mem_singleton_self _
  unfold mainLines interfaceLines
  rw [hstage]
  simp [hline]

theorem linkLine_mem_of_input {target : Target} (h : target.linksBySlot) {layout : EntryLayout}
    (hstage : layout.stage = .fragment) {v : StageVariable} (hv : v ∈ layout.inputs)
    (hinput : v.direction = .input) : linkLine target v ∈ mainLines target.dialect layout := by
  have hline : linkLine target v ∈ layout.inputs.flatMap target.dialect.stageVariable := by
    refine List.mem_flatMap.2 ⟨v, hv, ?_⟩
    rw [stageVariable_eq_linkLine h (.inr hinput)]
    exact List.mem_singleton_self _
  unfold mainLines interfaceLines
  rw [hstage]
  simp [hline]

/-! ## Documents -/

/-- **A shader ends in its stage interface and `main`**, as its entry was laid out. -/
theorem Program.generateFrom_layout {p : Program} {symbols : SymbolSource} {depth : Nat} {d : Dialect}
    {entry : String} {options : Options} {shader : Shader} {f : Function} {stage : Stage}
    (h : (p.generateFrom symbols depth d entry options).result = .ok shader)
    (hentry : findEntry d p.toCode entry = .ok (f, stage)) :
    ∃ layout τ lines,
      (planEntry d depth f stage).eval (p.structures.meaning symbols) {} = (.ok layout, τ) ∧
      shader.text = renderLines options.indent (lines ++ mainLines d layout) := by
  obtain ⟨layout, τ, lines, hplan, -, htext⟩ := Program.generateFrom_planned h hentry
  exact ⟨layout, τ, lines, hplan, htext⟩

/-! ## Slots -/

/-- The slot of the output that carries the field at an index, if the clip-space position is at the
index `clip`. -/
def outputSlot (clip index : Nat) : Nat := if index < clip then index else index - 1

theorem outputSlot_eq_iff {clip index : Nat} (h : index ≠ clip) :
    outputSlot clip index = index ↔ index < clip := by
  unfold outputSlot
  split <;> omega

/-- Fields other than the position are found at their output slots. -/
theorem getElem?_outputSlot {α : Type} (before after : List α) (position : α) {index : Nat}
    (h : index ≠ before.length) :
    (before ++ after)[outputSlot before.length index]? = (before ++ position :: after)[index]? := by
  unfold outputSlot
  split
  · rename_i hlt
    rw [List.getElem?_append_left hlt, List.getElem?_append_left hlt]
  · rename_i hge
    rw [List.getElem?_append_right (by omega), List.getElem?_append_right (by omega),
      List.getElem?_cons, if_neg (by omega), Nat.sub_right_comm]

/-- What carries a field from a vertex entry to a fragment entry: a declared output of the one and a
declared input of the other, each with its slot. -/
structure Carried (target : Target) (vertex fragment : EntryLayout) (field : Field)
    (output input : StageVariable) : Prop where
  output_mem : output ∈ vertex.outputs
  input_mem : input ∈ fragment.inputs
  output_field : output.field = some (target.dialect.correct field.name)
  input_field : input.field = some (target.dialect.correct field.name)
  output_declared : linkLine target output ∈ mainLines target.dialect vertex
  input_declared : linkLine target input ∈ mainLines target.dialect fragment

theorem carried_variableOf {target : Target} (h : target.linksBySlot) {v f : Function}
    {parameter parameter' : Parameter} {attributes s : Structure} {before after : List Field}
    {position field : Field} {type : String} (hs : s.fields = before ++ position :: after)
    {index : Nat} (hfield : s.fields[index]? = some field) (hindex : index ≠ before.length) :
    Carried target
      (vertexLayout target.dialect v parameter attributes position (before ++ after))
      (fragmentLayout target.dialect f parameter' s type) field
      (target.dialect.variableOf .output .vertex vertexOutputLead field
        (outputSlot before.length index))
      (target.dialect.variableOf .input .fragment "" field index) := by
  have houtput : target.dialect.variableOf .output .vertex vertexOutputLead field
      (outputSlot before.length index) ∈
        target.dialect.variablesOf .output .vertex vertexOutputLead (before ++ after) := by
    refine List.mem_of_getElem? (i := outputSlot before.length index) ?_
    rw [getElem?_variablesOf, getElem?_outputSlot before after position hindex, ← hs, hfield]
    rfl
  have hinput : target.dialect.variableOf .input .fragment "" field index ∈
      target.dialect.variablesOf .input .fragment "" s.fields := by
    refine List.mem_of_getElem? (i := index) ?_
    rw [getElem?_variablesOf, hfield]
    rfl
  exact ⟨houtput, hinput, rfl, rfl, linkLine_mem_of_output h rfl houtput rfl,
    linkLine_mem_of_input h rfl hinput rfl⟩

/-- **Two stages link by slot on the fields before the position, and on no others.**  A vertex entry
returns the structure that a fragment entry takes, and both are generated.  Then each field but the
clip-space position is carried, its slots on the two sides are equal exactly if it is declared before the
position, and all of them are equal exactly if the position is declared last. -/
theorem slots_link_iff_before_position {target : Target} (htarget : target.linksBySlot)
    {p : Program} {symbols : SymbolSource} {depth : Nat} {options : Options}
    {vertexEntry fragmentEntry : String} {vertexShader fragmentShader : Shader} {v f : Function}
    {parameter : Parameter}
    (hvertex : (p.generateFrom symbols depth target.dialect vertexEntry options).result =
      .ok vertexShader)
    (hfragment : (p.generateFrom symbols depth target.dialect fragmentEntry options).result =
      .ok fragmentShader)
    (hv : findEntry target.dialect p.toCode vertexEntry = .ok (v, .vertex))
    (hf : findEntry target.dialect p.toCode fragmentEntry = .ok (f, .fragment))
    (hparameter : f.parameters = [parameter]) (hshared : parameter.type.name = v.returnType.name) :
    ∃ s before position after vertex fragment head head',
      p.structures.meaning symbols v.returnType.name = .ok s ∧
      s.fields = before ++ position :: after ∧ position.semantic = .position ∧
      (∀ field ∈ before, field.semantic ≠ .position) ∧
      vertexShader.text = renderLines options.indent (head ++ mainLines target.dialect vertex) ∧
      fragmentShader.text = renderLines options.indent (head' ++ mainLines target.dialect fragment) ∧
      (∀ index field, s.fields[index]? = some field → index ≠ before.length →
        ∃ output input, Carried target vertex fragment field output input ∧
          input.slot = index ∧ output.slot = outputSlot before.length index ∧
          (output.slot = input.slot ↔ index < before.length)) ∧
      ((∀ index < s.fields.length, index ≠ before.length → outputSlot before.length index = index) ↔
        after = []) := by
  obtain ⟨vertex, _, head, hplan, htext⟩ := Program.generateFrom_layout hvertex hv
  obtain ⟨fragment, _, head', hplan', htext'⟩ := Program.generateFrom_layout hfragment hf
  obtain ⟨_, attributes, s, position, others, -, -, hs, hclip, rfl⟩ := planEntry_vertex hplan
  obtain ⟨parameter', s', type, hparameter', hs', -, rfl⟩ := planEntry_fragment hplan'
  -- both entries resolve the same name
  rw [hparameter] at hparameter'
  cases hparameter'
  rw [hshared, hs] at hs'
  cases hs'
  obtain ⟨before, after, hfields, rfl, htagged, hfirst⟩ := clipPosition?_eq_some_iff.1 hclip
  refine ⟨s, before, position, after, _, _, head, head', hs, hfields, htagged, hfirst, htext, htext',
    fun index field hfield hindex => ?_, ?_⟩
  · exact ⟨_, _, carried_variableOf htarget hfields hfield hindex, rfl, rfl, outputSlot_eq_iff hindex⟩
  · have hlength : s.fields.length = before.length + 1 + after.length := by
      rw [hfields, List.length_append, List.length_cons]
      omega
    constructor
    · intro hall
      -- a field right behind the position would be moved
      refine List.eq_nil_of_length_eq_zero (Nat.eq_zero_of_not_pos fun hpos => ?_)
      have hnext := hall (before.length + 1) (by omega) (by omega)
      rw [outputSlot_eq_iff (by omega)] at hnext
      omega
    · rintro rfl index hindex hne
      rw [List.length_nil] at hlength
      exact (outputSlot_eq_iff hne).2 (by omega)

/-- A vertex and a fragment entry that share a structure with its position between two other fields. -/
def Program.lit : Program where
  resources := .empty
  functions := ⟨[
    { name := "place"
      returnType := ⟨"Varyings", false⟩
      role := .entry .vertex
      parameters := [⟨"vertex", ⟨"Varyings", false⟩⟩]
      workgroup := {}
      body := [.ret .unknown (some (.localVar "vertex"))] },
    { name := "shade"
      returnType := ⟨Host.vector4, false⟩
      role := .entry .fragment
      parameters := [⟨"pixel", ⟨"Varyings", false⟩⟩]
      workgroup := {}
      body := [.ret .unknown (some (.staticMember ⟨Host.vector4, false⟩ "One"))] }]⟩
  structures := ⟨[("Varyings", ⟨"Varyings", [
    { name := "uv", type := ⟨Host.vector2, false⟩ },
    { name := "clip", type := ⟨Host.vector4, false⟩, semantic := .position },
    { name := "normal", type := ⟨Host.vector3, false⟩, semantic := .normal }]⟩)]⟩

/-- The result of an entry of `Program.lit`. -/
def Program.litResult (entry : String) : Except GenerationError Shader :=
  (Program.lit.generateFrom ⟨fun _ => []⟩ 2 (Target.glsl450).dialect entry {}).result

/-- The layout of an entry of `Program.lit`. -/
def Program.litLayout (entry : String) : Except GenerationError EntryLayout := do
  let (f, stage) ← findEntry (Target.glsl450).dialect Program.lit.toCode entry
  ((planEntry (Target.glsl450).dialect 2 f stage).eval
    (Program.lit.structures.meaning ⟨fun _ => []⟩) {}).1

theorem slots_link_iff_before_position_lit :
    ∃ vertexShader fragmentShader s vertex fragment,
      Program.litResult "place" = .ok vertexShader ∧ Program.litResult "shade" = .ok fragmentShader ∧
      Program.lit.structures.meaning ⟨fun _ => []⟩ "Varyings" = .ok s ∧
      ∀ index field, s.fields[index]? = some field → index ≠ 1 →
        ∃ output input, Carried .glsl450 vertex fragment field output input ∧
          (output.slot = input.slot ↔ index < 1) := by
  have hplace : (Program.litResult "place").toBool = true := by decide +kernel
  have hshade : (Program.litResult "shade").toBool = true := by decide +kernel
  cases hvertex : Program.litResult "place" with
  | error e => rw [hvertex] at hplace; cases hplace
  | ok vertexShader =>
    cases hfragment : Program.litResult "shade" with
    | error e => rw [hfragment] at hshade; cases hshade
    | ok fragmentShader =>
      obtain ⟨s, before, position, after, vertex, fragment, -, -, hs, hfields, htagged, -, -, -,
        hcarried, -⟩ := slots_link_iff_before_position rfl hvertex hfragment rfl rfl rfl rfl
      have hat : s.fields[before.length]? = some position := by simp [hfields]
      have hmeaning := hs
      cases hs
      -- only the field at index 1 is a position
      have hbefore : before.length = 1 := by
        match before.length, hat with
        | 0, hat | 2, hat => cases hat; cases htagged
        | 1, _ => rfl
      refine ⟨vertexShader, fragmentShader, _, vertex, fragment, rfl, rfl, hmeaning,
        fun index field hfield hindex => ?_⟩
      rw [hbefore] at hcarried
      obtain ⟨output, input, hcarried, -, -, hslots⟩ := hcarried index field hfield hindex
      exact ⟨output, input, hcarried, hslots⟩

/-- The slots of a field behind the position are not equal: `normal` goes out at 1 and comes in at 2. -/
theorem slots_part_after_position :
    (Program.litResult "place").toBool ∧ (Program.litResult "shade").toBool ∧
    (Program.litLayout "place").map (·.outputs.map (linkLine .glsl450)) = .ok
      [.flush "layout(location = 0) out vec2 out_uv;",
        .flush "layout(location = 1) out vec3 out_normal;"] ∧
    (Program.litLayout "shade").map (·.inputs.map (linkLine .glsl450)) = .ok
      [.flush "layout(location = 0) in vec2 uv;", .flush "layout(location = 1) in vec4 clip;",
        .flush "layout(location = 2) in vec3 normal;"] := by
  decide +kernel

end CrossShader

import CrossShader.Proofs.Dependencies
import CrossShader.Proofs.Naming

/-!
# The layouts of planned entries

What planning gives for the entries of the graphics stages, as values: one variable for each field, and
fresh locals.

* `Dialect.variableOf`, `Dialect.variablesOf` — the stage variables of fields.
* `vertexLayout`, `fragmentLayout` — the layout of an entry.
* `clipPosition?_eq_some_iff` — the clip-space position is the first field with that tag.
* `planEntry_vertex`, `planEntry_fragment`, `planEntry_computeLayout` — planning gives these layouts, for the
  structures that the entry's signature names.
* `EntryLayout.inputLocal_notMem`, `EntryLayout.outputLocal_notMem` — the locals of `main` are fresh.
-/

set_option autoImplicit false

namespace CrossShader

/-! ## Stage variables -/

/-- The target type of a reference that is mapped or resolved. -/
def Dialect.targetType (d : Dialect) (type : TypeRef) : String :=
  (d.mapType type.name).getD (d.structureTypeName type.name)

/-- The stage variable that carries a field. -/
def Dialect.variableOf (d : Dialect) (direction : Direction) (stage : Stage) (lead : String)
    (field : Field) (slot : Nat) : StageVariable where
  direction := direction
  stage := stage
  type := d.targetType field.type
  name := lead ++ d.correct field.name
  field := some (d.correct field.name)
  slot := slot
  semantic := field.semantic

/-- The stage variables that carry fields, with slots from zero. -/
def Dialect.variablesOf (d : Dialect) (direction : Direction) (stage : Stage) (lead : String)
    (fields : List Field) : List StageVariable :=
  fields.zipIdx.map fun entry => d.variableOf direction stage lead entry.1 entry.2

/-- The variable at an index carries the field at that index, and has the index as its slot. -/
theorem getElem?_variablesOf (d : Dialect) (direction : Direction) (stage : Stage) (lead : String)
    (fields : List Field) (index : Nat) :
    (d.variablesOf direction stage lead fields)[index]? =
      fields[index]?.map fun field => d.variableOf direction stage lead field index := by
  simp [Dialect.variablesOf, List.getElem?_zipIdx]
  rfl

section Variables

variable {m : Meanings} {d : Dialect} {depth : Nat} {direction : Direction} {stage : Stage}
  {lead : String} {σ τ : Resolution}

theorem resolveType_ok {type : TypeRef} {target : String}
    (h : (resolveType d depth type).eval m σ = (.ok target, τ)) : target = d.targetType type := by
  unfold resolveType at h
  unfold Dialect.targetType
  cases hmap : d.mapType type.name with
  | some mapped =>
    rw [hmap] at h
    cases h
    rfl
  | none =>
    rw [hmap] at h
    obtain ⟨_, _, -, h⟩ := Request.eval_bind_ok.1 h
    cases h
    rfl

theorem interfaceVariable_ok {field : Field} {slot : Nat} {v : StageVariable}
    (h : (interfaceVariable d depth direction stage lead field slot).eval m σ = (.ok v, τ)) :
    v = d.variableOf direction stage lead field slot := by
  unfold interfaceVariable at h
  split at h
  · cases h
  · obtain ⟨type, _, htype, h⟩ := Request.eval_bind_ok.1 h
    cases h
    rw [resolveType_ok htype]
    rfl

theorem interfaceVariables_from {slot : Nat} {fields : List Field} {vs : List StageVariable}
    (h : (interfaceVariables d depth direction stage lead slot fields).eval m σ =
      (.ok vs, τ)) :
    vs =
      (fields.zipIdx slot).map fun entry => d.variableOf direction stage lead entry.1 entry.2 := by
  induction fields generalizing slot σ vs with
  | nil =>
    cases h
    rfl
  | cons field rest ih =>
    obtain ⟨first, _, hfirst, h⟩ := Request.eval_bind_ok.1 h
    obtain ⟨others, _, hothers, h⟩ := Request.eval_bind_ok.1 h
    cases h
    rw [List.zipIdx_cons, List.map_cons, interfaceVariable_ok hfirst, ih hothers]

/-- **One variable for each field**, with slots from zero. -/
theorem interfaceVariables_ok {fields : List Field} {vs : List StageVariable}
    (h : (interfaceVariables d depth direction stage lead 0 fields).eval m σ =
      (.ok vs, τ)) : vs = d.variablesOf direction stage lead fields :=
  interfaceVariables_from h

/-- Only single values have a variable. -/
theorem interfaceVariables_single {slot : Nat} {fields : List Field} {vs : List StageVariable}
    (h : (interfaceVariables d depth direction stage lead slot fields).eval m σ = (.ok vs, τ)) :
    ∀ field ∈ fields, field.count = 0 := by
  induction fields generalizing slot σ τ vs with
  | nil => nofun
  | cons field rest ih =>
    obtain ⟨_, _, hfirst, h⟩ := Request.eval_bind_ok.1 h
    obtain ⟨_, _, hothers, -⟩ := Request.eval_bind_ok.1 h
    refine List.forall_mem_cons.2 ⟨?_, ih hothers⟩
    unfold interfaceVariable at hfirst
    split at hfirst
    · cases hfirst
    · rename_i hsingle
      exact Nat.eq_zero_of_not_pos (of_decide_eq_false (eq_false_of_ne_true hsingle))

end Variables

/-- The clip-space position is the first field with that tag. -/
theorem clipPosition?_eq_some_iff {fields others : List Field} {position : Field} :
    clipPosition? fields = some (position, others) ↔
      ∃ before after, fields = before ++ position :: after ∧ others = before ++ after ∧
        position.semantic = .position ∧ ∀ field ∈ before, field.semantic ≠ .position := by
  induction fields generalizing others position with
  | nil => simp [clipPosition?]
  | cons first rest ih =>
    unfold clipPosition?
    split
    · rename_i htag
      constructor
      · intro h
        cases h
        exact ⟨[], rest, rfl, rfl, htag, nofun⟩
      · rintro ⟨_ | ⟨head, before⟩, after, heq, rfl, -, hbefore⟩
        · cases heq
          rfl
        · cases heq
          exact absurd htag (hbefore _ List.mem_cons_self)
    · rename_i htag
      rw [Option.map_eq_some_iff]
      constructor
      · rintro ⟨⟨_, others⟩, hrest, heq⟩
        cases heq
        obtain ⟨before, after, rfl, rfl, hposition, hbefore⟩ := ih.1 hrest
        exact ⟨first :: before, after, rfl, rfl, hposition, List.forall_mem_cons.2 ⟨htag, hbefore⟩⟩
      · rintro ⟨_ | ⟨head, before⟩, after, heq, rfl, hposition, hbefore⟩
        · cases heq
          exact absurd hposition htag
        · cases heq
          exact ⟨_, ih.2 ⟨before, after, rfl, rfl, hposition,
            fun field hfield => hbefore field (List.mem_cons_of_mem _ hfield)⟩, rfl⟩

/-! ## Layouts -/

/-- A layout with the locals of `main`: first the one for the input, then the one for the result. -/
def EntryLayout.withLocals (d : Dialect) (layout : EntryLayout) : EntryLayout :=
  let named := { layout with inputLocal := layout.freshLocal d "input" }
  { named with outputLocal := named.freshLocal d "output" }

/-- The layout of a vertex entry from the structure of its parameter, the field with the clip-space
position, and the other fields of its result. -/
def vertexLayout (d : Dialect) (f : Function) (parameter : Parameter) (input : Structure)
    (position : Field) (others : List Field) : EntryLayout :=
  EntryLayout.withLocals d
    { stage := .vertex
      entry := d.correct f.name
      inputType := some (d.structureTypeName parameter.type.name)
      outputType := d.structureTypeName f.returnType.name
      inputs := d.variablesOf .input .vertex "" input.fields
      outputs := d.variablesOf .output .vertex vertexOutputLead others
      positionField := some (d.correct position.name)
      workgroup := f.workgroup }

/-- The output variable of a fragment entry. -/
def colorVariable (type : String) : StageVariable where
  direction := .output
  stage := .fragment
  type := type
  name := fragmentOutput
  field := none
  slot := 0
  semantic := .color

/-- The layout of a fragment entry from the structure of its parameter and the type of its result. -/
def fragmentLayout (d : Dialect) (f : Function) (parameter : Parameter) (input : Structure)
    (type : String) : EntryLayout :=
  EntryLayout.withLocals d
    { stage := .fragment
      entry := d.correct f.name
      inputType := some (d.structureTypeName parameter.type.name)
      outputType := type
      inputs := d.variablesOf .input .fragment "" input.fields
      outputs := [colorVariable type]
      workgroup := f.workgroup }

section Plan

variable {m : Meanings} {d : Dialect} {depth : Nat} {f : Function} {layout : EntryLayout}
  {σ τ : Resolution}

theorem requireStructure_ok {name : String} {s : Structure} (hσ : Settled m d σ.structures)
    (h : (requireStructure d depth name).eval m σ = (.ok s, τ)) :
    m name = .ok s ∧ Settled m d τ.structures := by
  have hclosed : FieldClosed m d fun _ => True := fun _ _ _ _ _ _ _ => trivial
  obtain ⟨hstep, hmeaning⟩ := requireStructure_settles hclosed depth name trivial σ s τ hσ h
  exact ⟨hmeaning, hstep.settled⟩

theorem interfaceVariables_settled {direction : Direction} {stage : Stage} {lead : String}
    {slot : Nat} {fields : List Field} {vs : List StageVariable}
    (hσ : Settled m d σ.structures)
    (h : (interfaceVariables d depth direction stage lead slot fields).eval m σ =
      (.ok vs, τ)) : Settled m d τ.structures := by
  have hclosed : FieldClosed m d fun _ => True := fun _ _ _ _ _ _ _ => trivial
  exact (interfaceVariables_settles hclosed depth direction stage lead slot fields
    (fun _ _ _ => trivial) σ vs τ hσ h).1.settled

theorem unmapped_of_guard {type : TypeRef}
    (h : ¬ ((d.mapType type.name).isSome || type.isArray) = true) : d.mapType type.name = none := by
  rw [Bool.or_eq_true, not_or] at h
  exact Option.not_isSome_iff_eq_none.1 h.1

theorem planVertex_ok {planned : EntryLayout} (hσ : Settled m d σ.structures)
    (h : (planVertex d depth f layout).eval m σ = (.ok planned, τ)) :
    ∃ output position others, m f.returnType.name = .ok output ∧
      clipPosition? output.fields = some (position, others) ∧
      planned = { layout with
        outputType := d.structureTypeName f.returnType.name
        positionField := some (d.correct position.name)
        outputs := d.variablesOf .output .vertex vertexOutputLead others } ∧
      d.mapType f.returnType.name = none ∧ ∀ field ∈ others, field.count = 0 := by
  unfold planVertex at h
  split at h
  · cases h
  · rename_i hguard
    obtain ⟨output, τ₂, houtput, h⟩ := Request.eval_bind_ok.1 h
    obtain ⟨hmeaning, -⟩ := requireStructure_ok hσ houtput
    cases hclip : clipPosition? output.fields with
    | none =>
      rw [hclip] at h
      cases h
    | some found =>
      obtain ⟨position, others⟩ := found
      rw [hclip] at h
      obtain ⟨_, _, -, h⟩ := Request.eval_bind_ok.1 h
      obtain ⟨vs, _, hvs, h⟩ := Request.eval_bind_ok.1 h
      cases h
      rw [interfaceVariables_ok hvs]
      exact ⟨output, position, others, hmeaning, hclip, rfl, unmapped_of_guard hguard,
        interfaceVariables_single hvs⟩

theorem planFragment_ok {planned : EntryLayout}
    (h : (planFragment d f layout).eval m σ = (.ok planned, τ)) :
    ∃ type, d.mapType f.returnType.name = some type ∧
      planned = { layout with outputType := type, outputs := [colorVariable type] } := by
  unfold planFragment at h
  split at h
  · rename_i type htype
    split at h
    · cases h
      exact ⟨type, htype, rfl⟩
    · cases h
  · cases h

theorem planGraphics_ok {stage : Stage} {result : EntryLayout → Request EntryLayout}
    {planned : EntryLayout} (hσ : Settled m d σ.structures)
    (h : (planGraphics d depth f stage result layout).eval m σ = (.ok planned, τ)) :
    ∃ parameter input υ υ' complete, f.parameters = [parameter] ∧
      m parameter.type.name = .ok input ∧ Settled m d υ.structures ∧
      (result { layout with
        inputType := some (d.structureTypeName parameter.type.name)
        inputs := d.variablesOf .input stage "" input.fields }).eval m υ = (.ok complete, υ') ∧
      planned = complete.withLocals d ∧ d.mapType parameter.type.name = none ∧
      ∀ field ∈ input.fields, field.count = 0 := by
  unfold planGraphics at h
  split at h
  · rename_i parameter hparameter
    split at h
    · cases h
    · rename_i hguard
      obtain ⟨input, τ₂, hinput, h⟩ := Request.eval_bind_ok.1 h
      obtain ⟨hmeaning, hτ₂⟩ := requireStructure_ok hσ hinput
      obtain ⟨vs, τ₃, hvs, h⟩ := Request.eval_bind_ok.1 h
      obtain ⟨complete, _, hcomplete, h⟩ := Request.eval_bind_ok.1 h
      cases h
      rw [interfaceVariables_ok hvs] at hcomplete
      exact ⟨parameter, input, τ₃, _, complete, hparameter, hmeaning,
        interfaceVariables_settled hτ₂ hvs, hcomplete, rfl, unmapped_of_guard hguard,
        interfaceVariables_single hvs⟩
  · cases h

/-- **The layout of a vertex entry.** -/
theorem planEntry_vertex (h : (planEntry d depth f .vertex).eval m {} = (.ok layout, τ)) :
    ∃ parameter input output position others, f.parameters = [parameter] ∧
      m parameter.type.name = .ok input ∧ m f.returnType.name = .ok output ∧
      clipPosition? output.fields = some (position, others) ∧
      layout = vertexLayout d f parameter input position others := by
  obtain ⟨parameter, input, υ, υ', complete, hparameter, hinput, hυ, hcomplete, rfl, -⟩ :=
    planGraphics_ok .nil h
  obtain ⟨output, position, others, houtput, hclip, rfl, -⟩ := planVertex_ok hυ hcomplete
  exact ⟨parameter, input, output, position, others, hparameter, hinput, houtput, hclip, rfl⟩

/-- **The layout of a fragment entry.** -/
theorem planEntry_fragment (h : (planEntry d depth f .fragment).eval m {} = (.ok layout, τ)) :
    ∃ parameter input type, f.parameters = [parameter] ∧ m parameter.type.name = .ok input ∧
      d.mapType f.returnType.name = some type ∧
      layout = fragmentLayout d f parameter input type := by
  obtain ⟨parameter, input, υ, υ', complete, hparameter, hinput, hυ, hcomplete, rfl, -⟩ :=
    planGraphics_ok .nil h
  obtain ⟨type, htype, rfl⟩ := planFragment_ok hcomplete
  exact ⟨parameter, input, type, hparameter, hinput, htype, rfl⟩

/-- **The layout of a compute entry**, without stage variables and locals. -/
theorem planEntry_computeLayout (h : (planEntry d depth f .compute).eval m {} = (.ok layout, τ)) :
    ∃ outputType, layout =
      { stage := .compute, entry := d.correct f.name, outputType, workgroup := f.workgroup } := by
  have h : (planCompute d depth f
    { stage := .compute, entry := d.correct f.name, workgroup := f.workgroup }).eval m {} = _ := h
  simp only [planCompute] at h
  split at h
  · cases h
  split at h
  · cases h
  obtain ⟨outputType, _, -, h⟩ := Request.eval_bind_ok.1 h
  cases h
  exact ⟨outputType, rfl⟩

/-- Vertex and fragment entries get their locals last. -/
theorem exists_withLocals {stage : Stage} (hstage : stage ≠ .compute)
    (h : (planEntry d depth f stage).eval m {} = (.ok layout, τ)) :
    ∃ start : EntryLayout, layout = start.withLocals d := by
  cases stage with
  | compute => exact absurd rfl hstage
  | vertex =>
    obtain ⟨parameter, input, output, position, others, -, -, -, -, rfl⟩ := planEntry_vertex h
    exact ⟨_, rfl⟩
  | fragment =>
    obtain ⟨parameter, input, type, -, -, -, rfl⟩ := planEntry_fragment h
    exact ⟨_, rfl⟩

end Plan

/-! ## Locals of `main` -/

namespace EntryLayout

variable (d : Dialect) (layout : EntryLayout)

theorem freshLocal_notMem (base : String) : layout.freshLocal d base ∉ layout.takenNames :=
  freshName_notMem _ _

/-- A local of `main` is its corrected base with underscores. -/
theorem freshLocal_eq (base : String) :
    ∃ count, layout.freshLocal d base = underscored (d.correct base) count := by
  obtain ⟨count, -, heq, -⟩ := freshName_eq layout.takenNames layout.takenNames.length (d.correct base)
  exact ⟨count, heq⟩

/-- No stage variable has the name of the local for the input. -/
theorem inputLocal_notMem :
    (layout.withLocals d).inputLocal ∉ (layout.inputs ++ layout.outputs).map (·.name) :=
  fun hmem => layout.freshLocal_notMem d "input" (List.mem_append_left _ hmem)

/-- No stage variable has the name of the local for the result, and neither has the other local. -/
theorem outputLocal_notMem :
    (layout.withLocals d).outputLocal ∉ (layout.inputs ++ layout.outputs).map (·.name) ∧
      (layout.withLocals d).outputLocal ≠ (layout.withLocals d).inputLocal := by
  have hfresh := freshLocal_notMem d
    { layout with inputLocal := layout.freshLocal d "input" } "output"
  refine ⟨fun hmem => hfresh (List.mem_append_left _ hmem), fun heq => hfresh ?_⟩
  exact List.mem_append_right _ (List.mem_singleton.2 heq)

end EntryLayout

end CrossShader

import CrossShader.Proofs.Document
import CrossShader.Proofs.MainLocals
import CrossShader.Proofs.Validation

/-!
# The types of stores

`main` copies between stage variables and the fields of its locals.

* `Shape` — a type as it is declared, with the number of elements of an array.
* `Document.Accepts`, `Document.Provides` — the shapes of the places that `main` stores to and reads.
* `Document.Typed` — a store between equal shapes.
* `typed_gather`, `typed_scatter` — copies of stage variables are typed; `typed_position_iff` — when the
  store of the clip-space position is.
* `stores_typed_iff` — so the stores of `main` are typed, except possibly that one.
* `stores_mistyped` — entries for which it is not.
-/

set_option autoImplicit false

namespace CrossShader

open Text

theorem Place.Apart.ne {p q : Place} (h : p.Apart q) : p ≠ q := by
  rintro rfl
  cases p with
  | whole => exact h rfl
  | member => exact h.elim (· rfl) (· rfl)

/-! ## Shapes of places -/

/-- A type as it is declared; the number of elements is zero for a single value. -/
structure Shape where
  type : String
  count : Nat
  deriving DecidableEq, Repr

/-- The shape of the clip-space position. -/
def Target.clipShape (target : Target) : Shape where
  type := if target.version?.isSome then "vec4" else "float4"
  count := 0

/-- A single vector of four components. -/
def Field.FitsClip (d : Dialect) (field : Field) : Prop :=
  field.count = 0 ∧ d.mapType field.type.name = d.mapType Host.vector4

instance (d : Dialect) (field : Field) : Decidable (field.FitsClip d) :=
  inferInstanceAs (Decidable (_ ∧ _))

namespace Document

variable (doc : Document) (target : Target)

/-- The fields of the locals for the argument and the result, as the document declares their types. -/
inductive HasField : Place → Shape → Prop
  | mk {type name : String} {s : String × Structure} {field : FieldDecl} :
      (type, name) ∈ (callSteps target.dialect doc.layout).filterMap Step.local? →
      s ∈ doc.structures → (target.dialect.declarationOf s.1 s.2).name = type →
      field ∈ (target.dialect.declarationOf s.1 s.2).fields →
      HasField (.member name field.name) ⟨field.type, field.count⟩

/-- What a store can be to: a stage output, the clip-space position, or a field of a local. -/
inductive Accepts : Place → Shape → Prop
  | output {v : StageVariable} : v ∈ doc.layout.outputs → Accepts (target.dialect.access v) ⟨v.type, 0⟩
  | position : Accepts target.dialect.positionTarget target.clipShape
  | field {p : Place} {shape : Shape} : doc.HasField target p shape → Accepts p shape

/-- What a store can be from: a stage input, a local, or a field of one. -/
inductive Provides : Place → Shape → Prop
  | input {v : StageVariable} : v ∈ doc.layout.inputs → Provides (target.dialect.access v) ⟨v.type, 0⟩
  | whole {type name : String} :
      (type, name) ∈ (callSteps target.dialect doc.layout).filterMap Step.local? →
      Provides (.whole name) ⟨type, 0⟩
  | field {p : Place} {shape : Shape} : doc.HasField target p shape → Provides p shape

/-- A store between equal shapes. -/
def Typed (store : Place × Place) : Prop :=
  ∃ shape, doc.Accepts target store.1 shape ∧ doc.Provides target store.2 shape

/-- The stores of `main`. -/
def stores : List (Place × Place) :=
  (mainSteps target.dialect doc.layout).filterMap fun
    | .store stored source => some (stored, source)
    | .declare .. | .callInto .. | .call _ | .ret _ => none

end Document

/-- The stores of `main` are its copies. -/
theorem Document.stores_eq {doc : Document} (target : Target) {inputType : String}
    (h : doc.layout.inputType = some inputType) :
    doc.stores target = (doc.layout.wiring target.dialect inputType).gather ++
      (doc.layout.wiring target.dialect inputType).scatter := by
  rw [Document.stores, mainSteps, callSteps_eq_wiring _ h]
  rcases target.prologue_epilogue doc.layout with
    ⟨hprologue, hepilogue⟩ | ⟨name, type, hprologue, hepilogue, -⟩
  all_goals
    rw [hprologue, hepilogue]
    simp [copies, List.filterMap_map]

namespace Target

variable (target : Target)

theorem mapType_vector4 : target.dialect.mapType Host.vector4 = some target.clipShape.type := by
  cases target <;> decide +kernel

/-- Where the clip-space position is declared, it has this shape. -/
theorem positionOutput_eq (layout : EntryLayout) : ∀ line ∈ target.dialect.positionOutput layout,
    line = .inner (target.clipShape.type ++ " " ++ Hlsl.positionMember ++ " : SV_Position;") := by
  cases target with
  | glslEs300 | glsl330 | glsl450 =>
    intro line hline
    cases hline
  | hlsl =>
    intro line hline
    cases List.mem_singleton.1 hline
    rfl

/-- No structure is called like the vector. -/
theorem targetType_eq_clip_iff (type : TypeRef) :
    target.dialect.targetType type = target.clipShape.type ↔
      target.dialect.mapType type.name = target.dialect.mapType Host.vector4 := by
  rw [mapType_vector4, Dialect.targetType]
  cases target.dialect.mapType type.name with
  | some mapped => exact Option.some_inj.symm
  | none =>
    refine ⟨fun h => ?_, nofun⟩
    have h : target.dialect.structureTypeName type.name = target.clipShape.type := h
    -- the vector is a reserved word, and a structure is declared under a corrected name
    rw [structureTypeName_eq, dialect_correct] at h
    refine absurd h (Identifiers.correct_ne_of_isReserved ?_ ?_ _)
    · cases target <;> decide +kernel
    · cases target <;> decide +kernel

end Target

/-! ## Copies of stage variables -/

section Copies

variable {doc : Document} {target : Target} {name owner : String} {s : Structure}
  {direction : Direction} {stage : Stage} {lead : String}

/-- A local of a declared structure has the structure's fields. -/
theorem Document.HasField.of_mem {field : Field}
    (hlocal : (target.dialect.structureTypeName name, owner) ∈
      (callSteps target.dialect doc.layout).filterMap Step.local?)
    (hs : (name, s) ∈ doc.structures) (hfield : field ∈ s.fields) :
    doc.HasField target (.member owner (target.dialect.correct field.name))
      ⟨target.dialect.targetType field.type, field.count⟩ :=
  .mk hlocal hs rfl (List.mem_map.2 ⟨field, hfield, rfl⟩)

/-- Single fields have the shapes of the variables that carry them. -/
theorem Document.HasField.of_variable {fields : List Field} {v : StageVariable}
    (hlocal : (target.dialect.structureTypeName name, owner) ∈
      (callSteps target.dialect doc.layout).filterMap Step.local?)
    (hs : (name, s) ∈ doc.structures) (hfields : fields ⊆ s.fields)
    (hsingle : ∀ field ∈ fields, field.count = 0)
    (hv : v ∈ target.dialect.variablesOf direction stage lead fields) :
    ∃ field, v.field = some field ∧ doc.HasField target (.member owner field) ⟨v.type, 0⟩ := by
  obtain ⟨field, hfield, slot, rfl⟩ := mem_variablesOf hv
  have hhas := Document.HasField.of_mem hlocal hs (hfields hfield)
  rw [hsingle field hfield] at hhas
  exact ⟨_, rfl, hhas⟩

/-- Copies to the argument are typed. -/
theorem typed_gather (htype : doc.layout.inputType = some (target.dialect.structureTypeName name))
    (hs : (name, s) ∈ doc.structures) (hsingle : ∀ field ∈ s.fields, field.count = 0)
    (hinputs : doc.layout.inputs = target.dialect.variablesOf direction stage lead s.fields) :
    ∀ pair ∈ (doc.layout.wiring target.dialect (target.dialect.structureTypeName name)).gather,
      doc.Typed target pair := by
  intro pair hpair
  obtain ⟨v, hv, hcopy⟩ := List.mem_filterMap.1 hpair
  obtain ⟨field, hfield, hhas⟩ := Document.HasField.of_variable
    (by rw [local?_callSteps _ htype]; exact List.mem_cons_self) hs (List.Subset.refl _) hsingle
    (hinputs ▸ hv)
  rw [hfield] at hcopy
  cases hcopy
  exact ⟨_, .field hhas, .input hv⟩

/-- Copies from the fields of the result are typed. -/
theorem typed_scatter {inputType : String} {fields : List Field} {v : StageVariable}
    (htype : doc.layout.inputType = some inputType)
    (houtput : doc.layout.outputType = target.dialect.structureTypeName name)
    (hs : (name, s) ∈ doc.structures) (hfields : fields ⊆ s.fields)
    (hsingle : ∀ field ∈ fields, field.count = 0)
    (houtputs : doc.layout.outputs = target.dialect.variablesOf direction stage lead fields)
    (hv : v ∈ doc.layout.outputs) :
    doc.Typed target (target.dialect.access v, v.field.elim (.whole doc.layout.outputLocal)
      (.member doc.layout.outputLocal ·)) := by
  obtain ⟨field, hfield, hhas⟩ := Document.HasField.of_variable
    (by rw [local?_callSteps _ htype, houtput]; exact List.mem_cons_of_mem _ List.mem_cons_self)
    hs hfields hsingle (houtputs ▸ hv)
  rw [hfield]
  exact ⟨_, .output hv, .field hhas⟩

end Copies

/-! ## Planned entries -/

section Planned

variable {target : Target} {p : Program} {symbols : SymbolSource} {depth : Nat} {entry : String}
  {doc : Document}

/-- A vertex entry with the structures of its parameter and its result, the field with the clip-space
position and the other fields.  Fields that stage variables carry are single. -/
structure Document.Vertex (doc : Document) (d : Dialect) (parameter : String) (input output : Structure)
    (position : Field) (others : List Field) : Prop where
  input_mem : (parameter, input) ∈ doc.structures
  output_mem : (doc.entry.returnType.name, output) ∈ doc.structures
  clip : clipPosition? output.fields = some (position, others)
  layout : ∃ start : EntryLayout, doc.layout = start.withLocals d ∧
    start.inputType = some (d.structureTypeName parameter) ∧
    start.outputType = d.structureTypeName doc.entry.returnType.name ∧
    start.inputs = d.variablesOf .input .vertex "" input.fields ∧
    start.outputs = d.variablesOf .output .vertex vertexOutputLead others ∧
    start.positionField = some (d.correct position.name)
  inputs_single : ∀ field ∈ input.fields, field.count = 0
  outputs_single : ∀ field ∈ others, field.count = 0

theorem Document.Of.vertex (h : doc.Of p symbols depth target.dialect entry)
    (hstage : doc.stage = .vertex) :
    ∃ parameter input output position others,
      p.structures.meaning symbols doc.entry.returnType.name = .ok output ∧
      doc.Vertex target.dialect parameter input output position others := by
  obtain ⟨τ, hplan⟩ := h.layout
  rw [hstage] at hplan
  obtain ⟨parameter, input, υ, υ', complete, hparameter, hinput, hυ, hcomplete, hlayout, hmap, hsingle⟩ :=
    planGraphics_ok .nil hplan
  obtain ⟨output, position, others, houtput, hclip, rfl, hresult, hothers⟩ := planVertex_ok hυ hcomplete
  have hnames : doc.entry.Names target.dialect parameter.type :=
    .parameter (hparameter ▸ List.mem_cons_self)
  exact ⟨parameter.type.name, input, output, position, others, houtput,
    h.mem_structures (.named .refl hnames hmap) hinput,
    h.mem_structures (.named .refl .result hresult) houtput, hclip,
    ⟨_, hlayout, rfl, rfl, rfl, rfl, rfl⟩, hsingle, hothers⟩

/-- The structure and the layout of a fragment entry. -/
theorem Document.Of.fragment (h : doc.Of p symbols depth target.dialect entry)
    (hstage : doc.stage = .fragment) :
    ∃ (parameter : Parameter) (input : Structure) (type : String),
      (parameter.type.name, input) ∈ doc.structures ∧
      doc.layout = fragmentLayout target.dialect doc.entry parameter input type ∧
      ∀ field ∈ input.fields, field.count = 0 := by
  obtain ⟨τ, hplan⟩ := h.layout
  rw [hstage] at hplan
  obtain ⟨parameter, input, υ, υ', complete, hparameter, hinput, -, hcomplete, hlayout, hmap, hsingle⟩ :=
    planGraphics_ok .nil hplan
  obtain ⟨type, -, rfl⟩ := planFragment_ok hcomplete
  have hnames : doc.entry.Names target.dialect parameter.type :=
    .parameter (hparameter ▸ List.mem_cons_self)
  exact ⟨parameter, input, type, h.mem_structures (.named .refl hnames hmap) hinput, hlayout, hsingle⟩

/-- The stores of a fragment entry are all typed. -/
theorem Document.Of.typed_fragment (h : doc.Of p symbols depth target.dialect entry)
    (hstage : doc.stage = .fragment) : ∀ store ∈ doc.stores target, doc.Typed target store := by
  obtain ⟨parameter, input, type, hinput, hlayout, hsingle⟩ := h.fragment hstage
  have htype : doc.layout.inputType = some (target.dialect.structureTypeName parameter.type.name) := by
    rw [hlayout]
    rfl
  have hinputs : doc.layout.inputs = target.dialect.variablesOf .input .fragment "" input.fields := by
    rw [hlayout]
    rfl
  have houtputs : doc.layout.outputs = [colorVariable type] := by
    rw [hlayout]
    rfl
  have hresult : (type, doc.layout.outputLocal) ∈
      (callSteps target.dialect doc.layout).filterMap Step.local? := by
    rw [local?_callSteps _ htype, hlayout]
    exact List.mem_cons_of_mem _ List.mem_cons_self
  rw [Document.stores_eq target htype]
  refine List.forall_mem_append.2 ⟨typed_gather htype hinput hsingle hinputs, ?_⟩
  have hscatter : (doc.layout.wiring target.dialect
      (target.dialect.structureTypeName parameter.type.name)).scatter =
      [(target.dialect.access (colorVariable type), .whole doc.layout.outputLocal)] := by
    rw [hlayout]
    rfl
  rw [hscatter, List.forall_mem_singleton]
  exact ⟨_, .output (houtputs ▸ List.mem_cons_self), .whole hresult⟩

end Planned

/-! ## The clip-space position -/

section Clip

variable {target : Target} {doc : Document} {layout : EntryLayout} {inputType : String}
  (hlayout : doc.layout = layout.withLocals target.dialect)
  (htype : layout.inputType = some inputType)
include hlayout htype

/-- A field of a local is a field of the argument or of the result, as its owner tells. -/
theorem Document.HasField.owner_cases {place : Place} {shape : Shape}
    (h : doc.HasField target place shape) :
    place.owner = doc.layout.inputLocal ∧ initial place.owner = some 'i' ∨
    place.owner = doc.layout.outputLocal ∧ initial place.owner = some 'o' := by
  have hlocals := initial_locals target layout
  rw [← hlayout] at hlocals
  have htype : doc.layout.inputType = some inputType := hlayout ▸ htype
  cases h with
  | mk hlocal =>
    rw [local?_callSteps _ htype, List.mem_pair] at hlocal
    rcases hlocal with hlocal | hlocal
    · cases hlocal
      exact .inl ⟨rfl, hlocals.1⟩
    · cases hlocal
      exact .inr ⟨rfl, hlocals.2⟩

/-- The clip-space position is no stage output and no field of a local. -/
theorem accepts_position_iff (houtputs : ∀ v ∈ doc.layout.outputs, initial v.name = some 'o')
    {shape : Shape} :
    doc.Accepts target target.dialect.positionTarget shape ↔ shape = target.clipShape := by
  refine ⟨fun h => ?_, fun h => h ▸ .position⟩
  generalize hplace : target.dialect.positionTarget = place at h
  cases h with
  | output hv =>
    exact absurd hplace.symm (Place.Apart.ne (target.access_apart_positionTarget (houtputs _ hv)))
  | position => rfl
  | field hfield =>
    rcases hfield.owner_cases hlayout htype with ⟨-, hinitial⟩ | ⟨-, hinitial⟩
    · exact absurd (congrArg Place.owner hplace)
        (target.positionTarget_owner_ne hinitial (by decide) (by decide))
    · exact absurd (congrArg Place.owner hplace)
        (target.positionTarget_owner_ne hinitial (by decide) (by decide))

/-- What a field of the result provides is what its structure declares. -/
theorem provides_result_iff {name : String} {output : Structure}
    (houtput : doc.layout.outputType = target.dialect.structureTypeName name)
    (hs : (name, output) ∈ doc.structures)
    (hnodup : (doc.structures.map fun s => target.dialect.structureTypeName s.1).Nodup)
    {member : String} {shape : Shape} :
    doc.Provides target (.member doc.layout.outputLocal (target.dialect.correct member)) shape ↔
      ∃ field ∈ output.fields, field.name = member ∧
        shape = ⟨target.dialect.targetType field.type, field.count⟩ := by
  have htype' : doc.layout.inputType = some inputType := hlayout ▸ htype
  constructor
  · intro h
    generalize hplace : Place.member doc.layout.outputLocal (target.dialect.correct member) = place at h
    cases h with
    | @input v hv =>
      have hv : v ∈ layout.inputs := by
        rw [hlayout] at hv
        exact hv
      have howner := congrArg Place.owner hplace
      rw [hlayout] at howner
      exact absurd howner.symm (access_owner_ne_locals target (List.mem_append_left _ hv)).2
    | whole => cases hplace
    | field hfield =>
      cases hfield with
      | @mk type owner s field hlocal hmem hname hfield =>
        obtain ⟨rfl, hspelled⟩ := Place.member.inj hplace
        rw [local?_callSteps _ htype', List.mem_pair] at hlocal
        have hresult : type = doc.layout.outputType := by
          rcases hlocal with hlocal | hlocal
          · have hlocals := initial_locals target layout
            rw [← hlayout, (Prod.mk.inj hlocal).2] at hlocals
            exact absurd (hlocals.1.symm.trans hlocals.2) (by decide)
          · exact (Prod.mk.inj hlocal).1
        -- structures have different target names, so the type of the result tells which one it is
        cases List.inj_on_of_nodup_map hnodup hmem hs (hname.trans (hresult.trans houtput))
        obtain ⟨source, hsource, rfl⟩ := List.mem_map.1 hfield
        exact ⟨source, hsource, (target.correct_inj.1 hspelled).symm, rfl⟩
  · rintro ⟨field, hfield, rfl, rfl⟩
    refine .field (.of_mem ?_ hs hfield)
    rw [local?_callSteps _ htype', houtput]
    exact List.mem_cons_of_mem _ List.mem_cons_self

/-- **The store of the clip-space position is typed** exactly if a field with its name is a single vector
of four components. -/
theorem typed_position_iff (houtputs : ∀ v ∈ doc.layout.outputs, initial v.name = some 'o')
    {name : String} {output : Structure}
    (houtput : doc.layout.outputType = target.dialect.structureTypeName name)
    (hs : (name, output) ∈ doc.structures)
    (hnodup : (doc.structures.map fun s => target.dialect.structureTypeName s.1).Nodup)
    {member : String} :
    doc.Typed target (target.dialect.positionTarget,
        .member doc.layout.outputLocal (target.dialect.correct member)) ↔
      ∃ field ∈ output.fields, field.name = member ∧ field.FitsClip target.dialect := by
  have hshape : ∀ field : Field,
      target.clipShape = ⟨target.dialect.targetType field.type, field.count⟩ ↔
        field.FitsClip target.dialect := by
    intro field
    rw [Field.FitsClip, ← target.targetType_eq_clip_iff, Shape.mk.injEq, And.comm]
    exact and_congr eq_comm eq_comm
  constructor
  · rintro ⟨shape, haccepts, hprovides⟩
    cases (accepts_position_iff hlayout htype houtputs).1 haccepts
    obtain ⟨field, hfield, hname, hequal⟩ :=
      (provides_result_iff hlayout htype houtput hs hnodup).1 hprovides
    exact ⟨field, hfield, hname, (hshape field).1 hequal⟩
  · rintro ⟨field, hfield, hname, hfits⟩
    exact ⟨_, .position, (provides_result_iff hlayout htype houtput hs hnodup).2
      ⟨field, hfield, hname, (hshape field).2 hfits⟩⟩

end Clip

/-- The stores of a vertex entry: the last one is of the clip-space position, and all others are typed. -/
theorem Document.Vertex.stores {target : Target} {doc : Document} {parameter : String}
    {input output : Structure} {position : Field} {others : List Field}
    (h : doc.Vertex target.dialect parameter input output position others)
    (hnodup : (doc.structures.map fun s => target.dialect.structureTypeName s.1).Nodup) :
    ∃ front : List (Place × Place),
      doc.stores target = front ++ [(target.dialect.positionTarget,
        .member doc.layout.outputLocal (target.dialect.correct position.name))] ∧
      (∀ store ∈ front, doc.Typed target store) ∧
      ((∀ store ∈ doc.stores target, doc.Typed target store) ↔
        ∃ field ∈ output.fields, field.name = position.name ∧ field.FitsClip target.dialect) := by
  obtain ⟨start, hlayout, htype, hresult, hinputs, houtputs, hposition⟩ := h.layout
  have htype' : doc.layout.inputType = some (target.dialect.structureTypeName parameter) :=
    hlayout ▸ htype
  have hresult' : doc.layout.outputType =
      target.dialect.structureTypeName doc.entry.returnType.name := hlayout ▸ hresult
  have hinputs' : doc.layout.inputs =
      target.dialect.variablesOf .input .vertex "" input.fields := hlayout ▸ hinputs
  have houtputs' : doc.layout.outputs =
      target.dialect.variablesOf .output .vertex vertexOutputLead others := hlayout ▸ houtputs
  let wiring := doc.layout.wiring target.dialect (target.dialect.structureTypeName parameter)
  let scatter : List (Place × Place) := doc.layout.outputs.map fun v => (target.dialect.access v,
    v.field.elim (.whole doc.layout.outputLocal) (.member doc.layout.outputLocal ·))
  have hstores : doc.stores target = (wiring.gather ++ scatter) ++ [(target.dialect.positionTarget,
      .member doc.layout.outputLocal (target.dialect.correct position.name))] := by
    have hposition : doc.layout.positionField = some (target.dialect.correct position.name) :=
      hlayout ▸ hposition
    rw [Document.stores_eq target htype', List.append_assoc]
    simp only [wiring, scatter, EntryLayout.wiring, hposition]
    rfl
  have hfront : ∀ store ∈ wiring.gather ++ scatter, doc.Typed target store := by
    refine List.forall_mem_append.2
      ⟨typed_gather htype' h.input_mem h.inputs_single hinputs', fun store hstore => ?_⟩
    obtain ⟨v, hv, rfl⟩ := List.mem_map.1 hstore
    exact typed_scatter htype' hresult' h.output_mem (mem_of_clipPosition? h.clip) h.outputs_single
      houtputs' hv
  -- no output variable is the clip-space position
  have hinitial : ∀ v ∈ doc.layout.outputs, initial v.name = some 'o' := by
    intro v hv
    rw [houtputs'] at hv
    obtain ⟨field, -, slot, rfl⟩ := mem_variablesOf hv
    exact initial_append (by decide) _
  refine ⟨wiring.gather ++ scatter, hstores, hfront, ?_⟩
  rw [hstores, List.forall_mem_append, List.forall_mem_singleton, and_iff_right hfront]
  exact typed_position_iff hlayout htype hinitial hresult' h.output_mem hnodup

/-- **Which stores of `main` are typed.**  On every target, in every generated text, the stores of a
fragment entry are all between equal types, its colour included.  So are the stores of a vertex entry
except for the last one, which stores the first field with that tag as the clip-space position, a vector of
four components on every target.  All stores are between equal types exactly if a field of its name is a
single value of that vector type; if fields have different names, exactly if the field itself is. -/
theorem stores_typed_iff (target : Target) {p : Program} {symbols : SymbolSource} {depth : Nat}
    {entry : String} {options : Options} {shader : Shader}
    (h : (p.generateFrom symbols depth target.dialect entry options).result = .ok shader) :
    ∃ doc : Document, doc.Of p symbols depth target.dialect entry ∧
      shader.text = renderLines options.indent
        (target.dialect.header doc.stage options.floatPrecision ++
          doc.declarations target.dialect) ∧
      (∀ line ∈ target.dialect.positionOutput doc.layout,
        line = .inner (target.clipShape.type ++ " " ++ Hlsl.positionMember ++ " : SV_Position;")) ∧
      (doc.stage = .fragment → ∀ store ∈ doc.stores target, doc.Typed target store) ∧
      (doc.stage = .vertex →
        ∃ (output : Structure) (position : Field) (others : List Field) (front : List (Place × Place)),
          p.structures.meaning symbols doc.entry.returnType.name = .ok output ∧
          clipPosition? output.fields = some (position, others) ∧
          doc.stores target = front ++ [(target.dialect.positionTarget,
            .member doc.layout.outputLocal (target.dialect.correct position.name))] ∧
          (∀ store ∈ front, doc.Typed target store) ∧
          ((∀ store ∈ doc.stores target, doc.Typed target store) ↔
            ∃ field ∈ output.fields, field.name = position.name ∧ field.FitsClip target.dialect) ∧
          ((output.fields.map (·.name)).Nodup →
            ((∀ store ∈ doc.stores target, doc.Typed target store) ↔
              position.FitsClip target.dialect))) := by
  obtain ⟨doc, hdoc, htext⟩ := Program.exists_document h
  refine ⟨doc, hdoc, htext, target.positionOutput_eq doc.layout, hdoc.typed_fragment, fun hstage => ?_⟩
  obtain ⟨parameter, input, output, position, others, hmeaning, hvertex⟩ := hdoc.vertex hstage
  obtain ⟨front, hstores, hfront, hiff⟩ := hvertex.stores hdoc.structures.targets_nodup
  refine ⟨output, position, others, front, hmeaning, hvertex.clip, hstores, hfront, hiff, fun hnodup => ?_⟩
  obtain ⟨before, after, heq, -⟩ := clipPosition?_eq_some_iff.1 hvertex.clip
  have hposition : position ∈ output.fields := heq ▸ List.mem_append_right _ List.mem_cons_self
  refine hiff.trans ⟨fun ⟨field, hfield, hname, hfits⟩ => ?_, fun hfits => ⟨_, hposition, rfl, hfits⟩⟩
  rwa [← List.inj_on_of_nodup_map hnodup hfield hposition hname]

/-- A vertex entry whose result is a new structure. -/
def Function.launch : Function where
  name := "launch"
  returnType := ⟨"Varyings", false⟩
  role := .entry .vertex
  parameters := [⟨"vertex", ⟨"Attributes", false⟩⟩]
  workgroup := {}
  body := [.declare .unknown "varyings" ⟨"Varyings", false⟩ 0 none,
    .ret .unknown (some (.localVar "varyings"))]

/-- The program of this entry, with some fields of its result. -/
def Program.launched (fields : List Field) : Program where
  resources := .empty
  functions := ⟨[.launch]⟩
  structures := ⟨[("Attributes", ⟨"Attributes", [{ name := "point", type := ⟨Host.vector4, false⟩ }]⟩),
    ("Varyings", ⟨"Varyings", fields⟩)]⟩

/-- The result of this entry on a target, without any declarations. -/
def Program.launchedResult (target : Target) (fields : List Field) : Except GenerationError Shader :=
  ((Program.launched fields).generateFrom ⟨fun _ => []⟩ 2 target.dialect "launch" {}).result

/-- A document of this program is for this vertex entry. -/
theorem Document.Of.launch {target : Target} {fields : List Field} {doc : Document}
    (h : doc.Of (.launched fields) ⟨fun _ => []⟩ 2 target.dialect "launch") :
    doc.entry = .launch ∧ doc.stage = .vertex := by
  have hentry : findEntry target.dialect (Program.launched fields).toCode "launch" =
      .ok (.launch, .vertex) := by
    cases target <;> rfl
  exact Prod.mk.inj (Except.ok.inj (h.entry.symm.trans hentry))

/-- Fields with a fitting position before one that does not fit. -/
def Field.several : List Field :=
  [{ name := "uv", type := ⟨Host.vector2, false⟩ }, .clip,
    { name := "spare", type := ⟨Host.vector3, false⟩, semantic := .position }]

theorem stores_typed_iff_several :
    ∃ (shader : Shader) (doc : Document), Program.launchedResult .hlsl Field.several = .ok shader ∧
      doc.Of (.launched Field.several) ⟨fun _ => []⟩ 2 (Target.hlsl).dialect "launch" ∧
      doc.stage = .vertex ∧ ∀ store ∈ doc.stores .hlsl, doc.Typed .hlsl store := by
  have hok : (Program.launchedResult .hlsl Field.several).toBool = true := by decide +kernel
  obtain ⟨shader, hresult⟩ := exists_ok_of_toBool hok
  obtain ⟨doc, hdoc, -, -, -, hvertex⟩ := stores_typed_iff .hlsl hresult
  obtain ⟨hentry, hstage⟩ := hdoc.launch
  obtain ⟨output, position, others, -, hmeaning, hclip, -, -, -, htyped⟩ := hvertex hstage
  rw [hentry] at hmeaning
  cases hmeaning
  cases hclip
  exact ⟨shader, doc, hresult, hdoc, hstage, (htyped (by decide)).2 (by decide +kernel)⟩

/-- A position with three components, and two positions in one field. -/
def Field.unfit : List Field :=
  [{ name := "clip", type := ⟨Host.vector3, false⟩, semantic := .position },
    { name := "clip", type := ⟨Host.vector4, false⟩, count := 2, semantic := .position }]

/-- What is generated for a position with three components. -/
def Shader.thinText : String :=
  "#version 450\n\n" ++
  "struct Attributes\n\x7b\n    vec4 point;\n\x7d;\n\n" ++
  "struct Varyings\n\x7b\n    vec3 clip;\n\x7d;\n\n" ++
  "Varyings launch(Attributes vertex)\n\x7b\n    Varyings varyings;\n    return varyings;\n\x7d\n\n" ++
  "layout(location = 0) in vec4 point;\n\n" ++
  "void main()\n\x7b\n    Attributes input_;\n    input_.point = point;\n" ++
  "    Varyings output_ = launch(input_);\n    gl_Position = output_.clip;\n\x7d\n"

/-- **Positions that do not fit** are stored all the same, on every target. -/
theorem stores_mistyped :
    (∀ target : Target, ∀ position ∈ Field.unfit, ∃ (shader : Shader) (doc : Document),
      Program.launchedResult target [position] = .ok shader ∧
      doc.Of (.launched [position]) ⟨fun _ => []⟩ 2 target.dialect "launch" ∧
      doc.stage = .vertex ∧ ¬ ∀ store ∈ doc.stores target, doc.Typed target store) ∧
    (Program.launchedResult .glsl450 (Field.unfit.take 1)).map Shader.text = .ok Shader.thinText := by
  refine ⟨fun target position hposition => ?_, by decide +kernel⟩
  have hok : (Program.launchedResult target [position]).toBool = true := by
    revert position
    cases target <;> decide +kernel
  have hunfit : ¬ position.FitsClip target.dialect := by
    revert position
    cases target <;> decide +kernel
  obtain ⟨shader, hresult⟩ := exists_ok_of_toBool hok
  obtain ⟨doc, hdoc, -⟩ := Program.exists_document hresult
  obtain ⟨hentry, hstage⟩ := hdoc.launch
  refine ⟨shader, doc, hresult, hdoc, hstage, fun htyped => ?_⟩
  obtain ⟨parameter, input, output, stored, others, hmeaning, hvertex⟩ := hdoc.vertex hstage
  rw [hentry] at hmeaning
  cases hmeaning
  obtain ⟨-, -, -, hiff⟩ := hvertex.stores hdoc.structures.targets_nodup
  obtain ⟨field, hfield, -, hfits⟩ := hiff.1 htyped
  cases List.mem_singleton.1 hfield
  exact hunfit hfits

end CrossShader

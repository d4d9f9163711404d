import CrossShader.Proofs.BlockScope
import CrossShader.Proofs.DefaultValues
import CrossShader.Proofs.Validation

/-!
# Array types

A reference to an array type does not say how many elements there are, so a target has a form for it only
where an element count is written with it.  Signatures and bodies have none, and arrays are refused there.
Declarations of structures, resources and stage variables are written by the element type alone.

* `TypeRef.element` and its companions — what is left without the mark of an array;
  `Dialect.declarationOf_elements`, `Target.declareResource_element`, `Dialect.variableOf_element` —
  declarations do not depend on the mark.
* `Function.Spells` — the types that signature and body of a function are written with.
* `StageField` — the fields that stage variables carry.
* `Document.Writes` — the types that a document is written with, each with its element count.
* `Document.Of.isArray_of_spells`, `Document.Of.isArray_of_default` — no array is written in a function.
* `arrays_counted_iff` — when all arrays of a document have an element count.
* `arrays_dropped` — a document whose arrays have none.
-/

set_option autoImplicit false

namespace CrossShader

open Text

/-! ## Elements -/

/-- The type of the elements. -/
def TypeRef.element (type : TypeRef) : TypeRef := { type with isArray := false }

/-- The field with the type of its elements. -/
def Field.element (field : Field) : Field := { field with type := field.type.element }

/-- The structure with the element types of its fields. -/
def Structure.elements (s : Structure) : Structure := { s with fields := s.fields.map Field.element }

/-- The resource with the element type of its value. -/
def Resource.element (r : Resource) : Resource :=
  { r with valueType := r.valueType.map TypeRef.element }

theorem Dialect.declarationOf_elements (d : Dialect) (name : String) (s : Structure) :
    d.declarationOf name s.elements = d.declarationOf name s := by
  simp only [Dialect.declarationOf, Structure.elements, List.map_map]
  rfl

theorem Dialect.variableOf_element (d : Dialect) (direction : Direction) (stage : Stage)
    (lead : String) (field : Field) (slot : Nat) :
    d.variableOf direction stage lead field.element slot =
      d.variableOf direction stage lead field slot := rfl

/-- **A resource is declared by its element type.** -/
theorem Target.declareResource_element {target : Target} {c : Context} (hc : c.dialect = target.dialect)
    (r : Resource) : c.declareResource r.element = c.declareResource r := by
  have hvalue : r.element.valueType.mapM c.mappedType = r.valueType.mapM c.mappedType := by
    show (r.valueType.map TypeRef.element).mapM c.mappedType = _
    cases r.valueType <;> rfl
  have hform : ∀ form name valueType, target.dialect.resource form ⟨r.element, name, valueType⟩ =
      target.dialect.resource form ⟨r, name, valueType⟩ := by
    intro form name valueType
    cases target <;> cases form <;> rfl
  unfold Context.declareResource Context.resourceDecl
  rw [hvalue]
  cases r.valueType.mapM c.mappedType with
  | error e => rfl
  | ok valueType =>
    have hkind : r.element.kind.form? = r.kind.form? := rfl
    cases hfound : r.kind.form? with
    | none =>
      simp only [bind, Except.bind, pure, Except.pure, hkind, hfound]
      rfl
    | some form =>
      simp only [bind, Except.bind, pure, Except.pure, hkind, hfound, hc]
      exact hform form _ valueType

/-! ## Types of functions -/

/-- The types that a function is written with, each with the element count that is written with it: in its
signature, for its locals, and where it makes values. -/
inductive Function.Spells (f : Function) : TypeRef → Nat → Prop
  | result : f.Spells f.returnType 0
  | parameter {p : Parameter} : p ∈ f.parameters → f.Spells p.type 0
  | declared {loc : Location} {name : String} {type : TypeRef} {count : Nat} {value : Option Expr} :
      Block.Holds f.body (.declare loc name type count value) → f.Spells type count
  | construct {t : Stmt} {type : TypeRef} {arguments : List Expr} :
      Block.Innermost f.body t (.construct type arguments) → f.Spells type 0
  | cast {t : Stmt} {type : TypeRef} {operand : Expr} :
      Block.Innermost f.body t (.cast type operand) → f.Spells type 0

section Lowered

variable {c : Context} {s : Scope} {loc : Location} {type : TypeRef}

theorem isArray_of_signature {f : Function} {text : String} (h : c.signature f = .ok text) :
    f.returnType.isArray = false ∧ ∀ p ∈ f.parameters, p.type.isArray = false := by
  unfold Context.signature at h
  split at h
  · cases h
  · rename_i hresult
    obtain ⟨texts, htexts, -⟩ := bind_ok.1 h
    refine ⟨eq_false_of_ne_true hresult, fun p hp => ?_⟩
    obtain ⟨text, htext⟩ := exists_ok_of_mapM_ok htexts p hp
    unfold Context.parameter at htext
    split at htext
    · cases htext
    · rename_i hparameter
      exact eq_false_of_ne_true hparameter

theorem isArray_of_declare {name : String} {count : Nat} {value : Option Expr} {outline : Outline}
    (h : s.outline (.declare loc name type count value) = .ok outline) : type.isArray = false := by
  obtain ⟨text, htext, -⟩ := outlined_of_outline h
  cases value with
  | none => exact (declarator_ok htext).1
  | some value =>
    obtain ⟨_, _, hdeclared, -⟩ := simple_declare_some_ok htext
    exact (declarator_ok hdeclared).1

theorem isArray_of_construct {arguments : List Expr} {text : String}
    (h : s.lower loc (.construct type arguments) = .ok text) : type.isArray = false := by
  have hcomposed := composed_of_lower h
  cases arguments with
  | nil =>
    obtain ⟨mapped, hmapped⟩ := scalarType_of_zeroValueFrom hcomposed
    exact isArray_of_scalarType hmapped
  | cons first rest =>
    obtain ⟨mapped, texts, hmapped, -⟩ := hcomposed
    exact isArray_of_scalarType hmapped

theorem isArray_of_cast {operand : Expr} {text : String}
    (h : s.lower loc (.cast type operand) = .ok text) : type.isArray = false := by
  obtain ⟨mapped, inner, hmapped, -⟩ := composed_of_lower h
  exact isArray_of_scalarType hmapped

end Lowered

/-! ## Types of documents -/

/-- The fields that the stage variables of an entry carry: those of its parameter, and those of the result
of a vertex entry without its clip-space position. -/
inductive StageField (m : Meanings) (f : Function) : Stage → Field → Prop
  | input {stage : Stage} {parameter : Parameter} {input : Structure} {field : Field} :
      stage ≠ .compute → f.parameters = [parameter] → m parameter.type.name = .ok input →
      field ∈ input.fields → StageField m f stage field
  | output {output : Structure} {position : Field} {others : List Field} {field : Field} :
      m f.returnType.name = .ok output → clipPosition? output.fields = some (position, others) →
      field ∈ others → StageField m f .vertex field

/-- **The stage variables of a planned entry carry single values**, which are fields of structures that its
signature names. -/
theorem StageField.single {m : Meanings} {d : Dialect} {depth : Nat} {f : Function} {stage : Stage}
    {layout : EntryLayout} {τ : Resolution} {field : Field} (hfield : StageField m f stage field)
    (h : (planEntry d depth f stage).eval m {} = (.ok layout, τ)) :
    field.count = 0 ∧ ∃ type s, f.Names d type ∧ d.mapType type.name = none ∧
      m type.name = .ok s ∧ field ∈ s.fields := by
  cases hfield with
  | @input _ parameter input _ hstage hparameter hinput hmem =>
    cases stage with
    | vertex | fragment =>
      obtain ⟨_, _, _, _, _, hparameter', hinput', -, -, -, hmap, hsingle⟩ := planGraphics_ok .nil h
      cases hparameter.symm.trans hparameter'
      cases hinput.symm.trans hinput'
      have hnamed : parameter ∈ f.parameters := hparameter ▸ List.mem_cons_self
      exact ⟨hsingle field hmem, parameter.type, input, .parameter hnamed, hmap, hinput, hmem⟩
    | compute => exact absurd rfl hstage
  | @output output _ _ _ houtput hclip hmem =>
    obtain ⟨_, _, _, _, _, -, -, hυ, hcomplete, -, -, -⟩ := planGraphics_ok .nil h
    obtain ⟨_, _, _, houtput', hclip', -, hmap, hsingle⟩ := planVertex_ok hυ hcomplete
    cases houtput.symm.trans houtput'
    cases hclip.symm.trans hclip'
    exact ⟨hsingle field hmem, f.returnType, output, .result, hmap, houtput,
      mem_of_clipPosition? hclip field hmem⟩

/-- The types that a document is written with, each with the element count that is written with it. -/
inductive Document.Writes (doc : Document) (m : Meanings) (d : Dialect) (c : Code) :
    TypeRef → Nat → Prop
  | field {name : String} {s : Structure} {field : Field} :
      (name, s) ∈ doc.structures → field ∈ s.fields → doc.Writes m d c field.type field.count
  | value {r : Resource} {type : TypeRef} : r ∈ c.resources.items → r.kind.needsValueType = true →
      r.valueType = some type → doc.Writes m d c type 0
  | stage {v : StageVariable} {field : Field} {direction : Direction} {lead : String} {slot : Nat} :
      v ∈ doc.layout.inputs ++ doc.layout.outputs →
      v = d.variableOf direction doc.stage lead field slot → StageField m doc.entry doc.stage field →
      doc.Writes m d c field.type 0
  | code {f : Function} {type : TypeRef} {count : Nat} : f ∈ doc.functions → f.Spells type count →
      doc.Writes m d c type count
  /-- Where structures have no zero of their own, their default values are written with the types of
  their fields. -/
  | default {f : Function} {t : Stmt} {type : TypeRef} {field : Field} : f ∈ doc.functions →
      Block.Innermost f.body t (.construct type []) →
      d.zeroValue (d.structureTypeName type.name) true = none →
      (doc.context d c).HasField type.name field → doc.Writes m d c field.type field.count
  | static {f : Function} {t : Stmt} {type : TypeRef} {name : String} : f ∈ doc.functions →
      Block.Innermost f.body t (.staticMember type name) → doc.Writes m d c type 0

namespace Document.Of

variable {p : Program} {symbols : SymbolSource} {depth : Nat} {entry : String} {doc : Document}
  {f : Function} {type : TypeRef}

/-- **No array is written in a function of a document.** -/
theorem isArray_of_spells {d : Dialect} (h : doc.Of p symbols depth d entry) (hf : f ∈ doc.functions)
    {count : Nat} (hspells : f.Spells type count) : type.isArray = false := by
  obtain ⟨signature, body, hsignature, hbody⟩ := h.exists_lowered hf
  obtain ⟨hresult, hparameters⟩ := isArray_of_signature hsignature
  cases hspells with
  | result => exact hresult
  | parameter hp => exact hparameters _ hp
  | declared hholds =>
    obtain ⟨outline, houtline⟩ := outline_of_holds hbody hholds
    exact isArray_of_declare houtline
  | construct hin =>
    obtain ⟨text, htext⟩ := lower_of_innermost hbody hin
    exact isArray_of_construct htext
  | cast hin =>
    obtain ⟨text, htext⟩ := lower_of_innermost hbody hin
    exact isArray_of_cast htext

/-- **No array is written in a default value**, at any depth. -/
theorem isArray_of_default {target : Target} (h : doc.Of p symbols depth target.dialect entry)
    (hf : f ∈ doc.functions) {t : Stmt} (hin : Block.Innermost f.body t (.construct type []))
    (hzero : target.dialect.zeroValue (target.dialect.structureTypeName type.name) true = none)
    {field : Field} (hfield : (doc.context target.dialect p.toCode).HasField type.name field) :
    field.type.isArray = false := by
  obtain ⟨_, body, -, hbody⟩ := h.exists_lowered hf
  obtain ⟨text, htext⟩ := lower_of_innermost hbody hin
  have hvalue : (doc.context target.dialect p.toCode).zeroValueFrom t.location
      (doc.context target.dialect p.toCode).structures type = .ok text := composed_of_lower htext
  have hunmapped : ∀ name ∈ (doc.context target.dialect p.toCode).structures.map Prod.fst,
      target.dialect.mapType name = none := by
    intro name hname
    rw [Document.context, List.map_reverse, List.mem_reverse] at hname
    exact ((h.structures.mem_iff name).1 hname).mapType
  have hglsl : ∃ version, target.dialect = Glsl.dialect version := by
    cases target with
    | glslEs300 => exact ⟨.es300, rfl⟩
    | glsl330 => exact ⟨.core330, rfl⟩
    | glsl450 => exact ⟨.core450, rfl⟩
    | hlsl => cases hzero
  obtain ⟨version, hversion⟩ := hglsl
  exact Glsl.isArray_of_hasField hversion h.ordered hunmapped (List.nil_append _).symm
    hfield.mem_names hvalue hfield

end Document.Of

/-! ## Arrays of documents -/

/-- **Arrays and their element counts.**  On every built-in target, for every program, source of
declarations and entry: a request fails if a function that the entry reaches has an array in its signature,
as the type of a local, or where it makes a value.  Else, all arrays that a document is written with have an
element count exactly if every array in a field of a structure that the entry leads to has one, no uniform
or buffer is of an array type, and no member of an array type is taken.  Structures, resources and stage
variables are declared by their element types alone. -/
theorem arrays_counted_iff (target : Target) (p : Program) (symbols : SymbolSource) (depth : Nat)
    (entry : String) (options : Options) :
    let d := target.dialect
    let m := p.structures.meaning symbols
    let result := (p.generateFrom symbols depth d entry options).result
    (∀ f stage g type count, findEntry d p.toCode entry = .ok (f, stage) → p.toCode.Reaches f g →
      g.Spells type count → type.isArray = true → ∃ e, result = .error e) ∧
    (∀ shader, result = .ok shader → ∃ doc : Document, doc.Of p symbols depth d entry ∧
      shader.text = renderLines options.indent
        (d.header doc.stage options.floatPrecision ++ doc.declarations d) ∧
      ((∀ type count, doc.Writes m d p.toCode type count → type.isArray = true → 0 < count) ↔
        (∀ name s, Needed m d p.toCode doc.entry name → m name = .ok s →
          ∀ field ∈ s.fields, field.type.isArray = true → 0 < field.count) ∧
        (∀ r ∈ p.resources.items, r.kind.needsValueType = true →
          ∀ type, r.valueType = some type → type.isArray = false) ∧
        ∀ f ∈ doc.functions, ∀ t type name, Block.Innermost f.body t (.staticMember type name) →
          type.isArray = false)) ∧
    (∀ name s, d.declarationOf name s = d.declarationOf name s.elements) ∧
    (∀ structures r, Context.declareResource ⟨d, p.toCode, structures⟩ r =
      Context.declareResource ⟨d, p.toCode, structures⟩ r.element) ∧
    ∀ direction stage lead field slot, d.variableOf direction stage lead field slot =
      d.variableOf direction stage lead field.element slot := by
  intro d m result
  refine ⟨fun f stage g type count hentry hreach hspells harray => ?_, fun shader hshader => ?_,
    fun name s => (d.declarationOf_elements name s).symm,
    fun structures r => (Target.declareResource_element (c := ⟨d, p.toCode, structures⟩) rfl r).symm,
    fun direction stage lead field slot =>
      (d.variableOf_element direction stage lead field slot).symm⟩
  · cases hresult : result with
    | error e => exact ⟨e, rfl⟩
    | ok shader =>
      obtain ⟨doc, hdoc, -⟩ := Program.exists_document hresult
      cases hentry.symm.trans hdoc.entry
      have hnone := hdoc.isArray_of_spells (hdoc.mem_functions.2 hreach) hspells
      cases hnone.symm.trans harray
  · obtain ⟨doc, hdoc, htext⟩ := Program.exists_document hshader
    refine ⟨doc, hdoc, htext, ⟨fun hcounted => ⟨?_, ?_, ?_⟩, ?_⟩⟩
    · intro name s hneeded hmeaning field hfield harray
      exact hcounted _ _ (.field (hdoc.mem_structures hneeded hmeaning) hfield) harray
    · intro r hr hkind type hvalue
      exact eq_false_of_ne_true fun harray =>
        Nat.lt_irrefl 0 (hcounted type 0 (.value hr hkind hvalue) harray)
    · intro f hf t type name hin
      exact eq_false_of_ne_true fun harray =>
        Nat.lt_irrefl 0 (hcounted type 0 (.static hf hin) harray)
    · rintro ⟨hfields, hvalues, hstatics⟩ type count hwrites harray
      cases hwrites with
      | @field name s _ hmem hfield =>
        have hneeded := (hdoc.structures.mem_iff name).1 (List.mem_map_of_mem hmem)
        exact hfields name s hneeded (hdoc.structures.meaning _ hmem) _ hfield harray
      | value hr hkind hvalue => cases (hvalues _ hr hkind type hvalue).symm.trans harray
      | stage _ _ hfield =>
        -- a stage variable has no count, and neither has the field that it carries
        obtain ⟨τ, hplan⟩ := hdoc.layout
        obtain ⟨hcount, owner, s, hnames, hmap, hmeaning, hmem⟩ := hfield.single hplan
        have hpositive := hfields owner.name s (.named .refl hnames hmap) hmeaning _ hmem harray
        omega
      | code hf hspells => cases (hdoc.isArray_of_spells hf hspells).symm.trans harray
      | default hf hin hzero hfield =>
        cases (hdoc.isArray_of_default hf hin hzero hfield).symm.trans harray
      | static hf hin => cases (hstatics _ hf _ type _ hin).symm.trans harray

/-- Declarations of a structure whose one field is an array with an element count. -/
def Symbols.sized : Symbols :=
  ⟨[("Scene.Light", .struct ⟨"Scene.Light", [
    { name := "weights", type := ⟨Host.float, true⟩, count := 2 }]⟩)]⟩

/-- A program with a uniform of that structure. -/
def Program.sized : Program := .placed [.clip] [.camera (some ⟨"Scene.Light", false⟩)]

theorem arrays_counted_iff_sized :
    ∃ (shader : Shader) (doc : Document),
      (Program.sized.generateFrom Symbols.sized 3 (Target.hlsl).dialect "place" {}).result = .ok shader ∧
      doc.Of Program.sized Symbols.sized 3 (Target.hlsl).dialect "place" ∧
      doc.Writes (Program.sized.structures.meaning Symbols.sized) (Target.hlsl).dialect
        Program.sized.toCode ⟨Host.float, true⟩ 2 ∧
      ∀ (type : TypeRef) (count : Nat),
        doc.Writes (Program.sized.structures.meaning Symbols.sized) (Target.hlsl).dialect
          Program.sized.toCode type count → type.isArray = true → 0 < count := by
  have hok : (Program.sized.generateFrom Symbols.sized 3 (Target.hlsl).dialect "place"
      {}).result.toBool = true := by decide +kernel
  cases hresult : (Program.sized.generateFrom Symbols.sized 3 (Target.hlsl).dialect "place"
      {}).result with
  | error e =>
    rw [hresult] at hok
    cases hok
  | ok shader =>
    obtain ⟨doc, hdoc, -, hcounted⟩ := (arrays_counted_iff .hlsl Program.sized Symbols.sized 3 "place"
      {}).2.1 shader hresult
    have hlight : Needed (Program.sized.structures.meaning Symbols.sized) (Target.hlsl).dialect
        Program.sized.toCode doc.entry "Scene.Light" :=
      .resource (r := .camera (some ⟨"Scene.Light", false⟩)) List.mem_cons_self rfl (by decide +kernel)
    refine ⟨shader, doc, rfl, hdoc, .field (hdoc.mem_structures hlight rfl) List.mem_cons_self,
      hcounted.2 ⟨?_, ?_, ?_⟩⟩
    · intro name s _ hmeaning
      have hname := Program.mem_structureNames hmeaning
      simp only [Program.structureNames, Program.sized, Program.placed, Symbols.sized, List.map_cons,
        List.map_nil, List.cons_append, List.nil_append, List.mem_cons, List.not_mem_nil,
        or_false] at hname
      rcases hname with rfl | rfl
      · cases hmeaning
        decide
      · cases hmeaning
        decide
    · intro r hr _ type hvalue
      cases List.mem_singleton.1 hr
      cases hvalue
      rfl
    · intro f hf t type name hin
      have hentry : findEntry (Target.hlsl).dialect Program.sized.toCode "place" =
          .ok (Function.place, .vertex) := rfl
      have hplace : doc.entry = Function.place :=
        congrArg Prod.fst (Except.ok.inj (hdoc.entry.symm.trans hentry))
      have hcalls : Block.calls Function.place.body = [] := by decide +kernel
      have hfunctions : Program.sized.toCode.reachable Function.place = .ok [Function.place] := by
        rw [Code.reachable, Code.visit_eq, hcalls]
        rfl
      rw [← hplace] at hfunctions
      rw [Except.ok.inj (hdoc.functions.symm.trans hfunctions), List.mem_singleton, hplace] at hf
      cases hf
      have hnode := Block.expr_mem_nodes.2 ⟨t, hin, rfl⟩
      simp [Block.nodes, Stmt.nodes, Function.place, Expr.located, Expr.nodes] at hnode

/-- Fields of which one is an array of unknown length. -/
def Field.unsized : List Field := [{ name := "uv", type := ⟨Host.vector2, true⟩ }, .clip]

/-- A uniform that is an array of unknown length. -/
def Resource.cameras : Resource := .camera (some ⟨Host.vector4, true⟩)

/-- The program with these fields and this uniform. -/
def Program.unsized : Program := .placed Field.unsized [.cameras]

/-- What is generated for them: a vector and a vector. -/
def Shader.unsizedText : String :=
  "#version 450\n\n" ++
  "struct Varyings\n\x7b\n    vec2 uv;\n    vec4 clip;\n\x7d;\n\n" ++
  "layout(std140, set = 0, binding = 0) uniform camera\n\x7b\n    vec4 field_camera;\n\x7d;\n\n" ++
  "Varyings place(Varyings vertex)\n\x7b\n    return vertex;\n\x7d\n\n" ++
  "layout(location = 0) in vec2 uv;\nlayout(location = 1) in vec4 clip;\n" ++
  "layout(location = 0) out vec2 out_uv;\n\n" ++
  "void main()\n\x7b\n    Varyings input_;\n    input_.uv = uv;\n    input_.clip = clip;\n" ++
  "    Varyings output_ = place(input_);\n    out_uv = output_.uv;\n" ++
  "    gl_Position = output_.clip;\n\x7d\n"

/-- **Arrays without an element count are written as their elements**, on every target: in a field and its
stage variables, and in the value of a resource. -/
theorem arrays_dropped :
    (∀ target : Target, ∃ (shader : Shader) (doc : Document),
      Program.placedResult target Field.unsized [.cameras] = .ok shader ∧
      doc.Of Program.unsized ⟨fun _ => []⟩ 2 target.dialect "place" ∧
      doc.Writes (Program.unsized.structures.meaning ⟨fun _ => []⟩) target.dialect
        Program.unsized.toCode ⟨Host.vector2, true⟩ 0 ∧
      doc.Writes (Program.unsized.structures.meaning ⟨fun _ => []⟩) target.dialect
        Program.unsized.toCode ⟨Host.vector4, true⟩ 0) ∧
    (Program.placedResult .glsl450 Field.unsized [.cameras]).map Shader.text =
      .ok Shader.unsizedText := by
  refine ⟨fun target => ?_, by decide +kernel⟩
  have hok : (Program.placedResult target Field.unsized [.cameras]).toBool = true := by
    cases target <;> decide +kernel
  cases hresult : Program.placedResult target Field.unsized [.cameras] with
  | error e =>
    rw [hresult] at hok
    cases hok
  | ok shader =>
    obtain ⟨doc, hdoc, -⟩ := Program.exists_document hresult
    have hentry : findEntry target.dialect Program.unsized.toCode "place" =
        .ok (Function.place, .vertex) := by
      cases target <;> rfl
    have hplace : doc.entry = Function.place :=
      congrArg Prod.fst (Except.ok.inj (hdoc.entry.symm.trans hentry))
    have hneeded : Needed (Program.unsized.structures.meaning ⟨fun _ => []⟩) target.dialect
        Program.unsized.toCode doc.entry "Varyings" := by
      rw [hplace]
      refine .named .refl .result ?_
      cases target <;> decide +kernel
    exact ⟨shader, doc, rfl, hdoc, .field (hdoc.mem_structures hneeded rfl) List.mem_cons_self,
      .value (r := .cameras) List.mem_cons_self rfl rfl⟩

end CrossShader

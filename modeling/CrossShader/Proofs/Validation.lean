import CrossShader.Proofs.Causes
import CrossShader.Proofs.Document
import CrossShader.Proofs.Findings

/-!
# Validation and generation

Validation looks at a program, generation at one entry on one target.  What the two say about the same
problem.

* `Issue.Foretells` — an error says what an issue says.
* `RequestFault.exists_issue` — an error of a kind that validation checks has its issue, so
  `clean_program_errors`: a program without issues does not fail in such a way.
* `Function.Fits` — entries that planning accepts; `FunctionFlaw.severalPositions_of_fits` — what can
  be wrong with them.  `ResourceFlaw.not_declared` — a resource with a problem cannot be declared.
* `issues_as_errors` — issues of entries and resources make a request fail; a repeated field name does
  not, and is declared twice.
-/

set_option autoImplicit false

namespace CrossShader

open Text

/-! ## Errors have their issues -/

/-- An error says what an issue says. -/
inductive Issue.Foretells : Issue → GenerationError → Prop
  | unknownKind {r : String} {raw : Nat} :
      Foretells ⟨r, .unknownKind raw⟩ (.illegalResourceKind r (.other raw))
  | missingValueType {r : String} {kind : ResourceKind} :
      Foretells ⟨r, .missingValueType kind⟩ (.missingValueType r)
  | parameterCount {f : String} {stage : Stage} {found : Nat} :
      Foretells ⟨f, .parameterCount stage found⟩ (.invalidEntry f (.parameterCount stage found))
  | noPosition {f s : String} : Foretells ⟨f, .noPosition s⟩ (.missingPosition f s)
  | fragmentResult {f : String} {found : TypeRef} :
      Foretells ⟨f, .fragmentResult found⟩ (.invalidReturnType f found)
  | computeParameters {f : String} :
      Foretells ⟨f, .computeParameters⟩ (.invalidEntry f .computeParameters)
  | emptyExtent {f : String} {axis : Nat} {workgroup : Workgroup} :
      Foretells ⟨f, .emptyExtent axis⟩ (.invalidEntry f (.emptyWorkgroup workgroup))

/-- The errors that validation checks for.  It looks for positions only in structures that are
registered. -/
def GenerationError.Checked (p : Program) (f : Function) : GenerationError → Prop
  | .illegalResourceKind .. | .missingValueType _ | .invalidReturnType ..
  | .invalidEntry _ (.parameterCount ..) | .invalidEntry _ .computeParameters
  | .invalidEntry _ (.emptyWorkgroup _) => True
  | .missingPosition .. => (p.structures.find? f.returnType.name).isSome
  | .unknownType _ | .unsupported .. | .entryNotFound _ | .unresolvedType ..
  | .invalidEntry _ .notAnEntry | .invalidEntry _ (.parameterType _)
  | .invalidEntry _ (.vertexResult _) | .invalidEntry _ (.described _) => False

/-- Every target has a type for the result of a fragment entry. -/
theorem Target.exists_mapType_vector4 (target : Target) :
    ∃ type, target.dialect.mapType Host.vector4 = some type := by
  cases target with
  | glslEs300 | glsl330 | glsl450 => exact ⟨"vec4", by decide +kernel⟩
  | hlsl => exact ⟨"float4", by decide +kernel⟩

section Issues

variable {p : Program} {symbols : SymbolSource} {target : Target} {entry : String} {f : Function}
  {stage : Stage} {e : GenerationError}

theorem GenerationError.Unsupported.not_checked (h : e.Unsupported) : ¬ e.Checked p f := by
  obtain ⟨construct, loc, rfl⟩ := h
  exact id

/-- A fault of a resource that validation checks for has its finding. -/
theorem Resource.Fault.exists_finding {r : Resource} (h : r.Fault e) (he : e.Checked p f) :
    ∃ finding ∈ r.findings, Issue.Foretells ⟨r.name, finding⟩ e := by
  cases h with
  | unsupported h => exact absurd he h.not_checked
  | missingValueType hneeds hnone =>
    exact ⟨_, Resource.mem_findings_iff.2 (.missingValueType hneeds hnone), .missingValueType⟩
  | illegalKind hkind =>
    refine ⟨_, Resource.mem_findings_iff.2 (.unknownKind hkind), ?_⟩
    rw [hkind]
    exact .unknownKind

/-- A fault of an entry that validation checks for has its finding. -/
theorem EntryFault.exists_finding
    (h : EntryFault (p.structures.meaning symbols) target.dialect f stage e)
    (hrole : f.role = .entry stage) (he : e.Checked p f) :
    ∃ finding ∈ p.functionFindings f, Issue.Foretells ⟨f.name, finding⟩ e := by
  cases h with
  | resolution h =>
    cases h with
    | unsupported h => exact absurd he h.not_checked
    | unknownType => cases he
  | unresolvedType | parameterType | vertexResult => cases he
  | computeParameters hparameters =>
    exact ⟨_, Program.mem_functionFindings_iff.2 (.computeParameters hrole hparameters),
      .computeParameters⟩
  | emptyWorkgroup hextent =>
    obtain ⟨axis, haxis⟩ := List.mem_iff_getElem?.1 hextent
    exact ⟨_, Program.mem_functionFindings_iff.2 (.emptyExtent hrole haxis), .emptyExtent⟩
  | parameterCount hstage hcount =>
    exact ⟨_, Program.mem_functionFindings_iff.2 (.parameterCount hrole hstage hcount),
      .parameterCount⟩
  | missingPosition hmeaning hnone =>
    -- a registered structure stands for itself, so planning has seen the same fields
    obtain ⟨s, hfound⟩ := Option.isSome_iff_exists.1 he
    rw [StructureSet.meaning_of_find?_some hfound] at hmeaning
    cases hmeaning
    exact ⟨_, Program.mem_functionFindings_iff.2 (.noPosition hrole hfound hnone), .noPosition⟩
  | invalidReturnType hmismatch =>
    refine ⟨_, Program.mem_functionFindings_iff.2 (.fragmentResult hrole fun hresult => ?_),
      .fragmentResult⟩
    obtain ⟨type, htype⟩ := target.exists_mapType_vector4
    rw [hresult] at hmismatch
    exact hmismatch type htype ⟨htype, rfl⟩

/-- **An error that validation checks for has its issue**, whatever else is wrong with the program. -/
theorem RequestFault.exists_issue
    (h : RequestFault (p.structures.meaning symbols) target.dialect p.toCode entry e)
    (hf : p.toCode.function? entry = some f) (he : e.Checked p f) :
    ∃ issue ∈ p.validate, issue.Foretells e := by
  cases h with
  | entryNotFound | notAnEntry => cases he
  | unsupported h => exact absurd he h.not_checked
  | entry hknown hrole h =>
    cases hf.symm.trans hknown
    obtain ⟨finding, hfinding, hforetells⟩ := h.exists_finding hrole he
    exact ⟨_, Program.mem_validate_iff.2
      (.inr (.inr ⟨f, List.mem_of_find?_eq_some hf, finding, hfinding, rfl⟩)), hforetells⟩
  | resource hr h =>
    obtain ⟨finding, hfinding, hforetells⟩ := h.exists_finding he
    exact ⟨_, Program.mem_validate_iff.2 (.inr (.inl ⟨_, hr, finding, hfinding, rfl⟩)), hforetells⟩

end Issues

/-- **A program without issues does not fail for what validation checks.**  On every built-in target, for
every source of declarations and every entry, an error that validation checks for has its issue.  So if
there is none, no resource is of an unknown kind or lacks a value type, the result of a fragment entry and
the parameters and the workgroup of an entry are accepted, and a vertex entry does not lack a position, if
the structure that it returns is registered. -/
theorem clean_program_errors (target : Target) (p : Program) (symbols : SymbolSource) (depth : Nat)
    (entry : String) (options : Options) (f : Function) (hf : p.toCode.function? entry = some f) :
    let result := (p.generateFrom symbols depth target.dialect entry options).result
    (∀ e, result = .error e → e.Checked p f → ∃ issue ∈ p.validate, issue.Foretells e) ∧
    (p.validate = [] →
      (∀ r kind, result ≠ .error (.illegalResourceKind r kind)) ∧
      (∀ r, result ≠ .error (.missingValueType r)) ∧
      (∀ g found, result ≠ .error (.invalidReturnType g found)) ∧
      (∀ g stage found, result ≠ .error (.invalidEntry g (.parameterCount stage found))) ∧
      (∀ g, result ≠ .error (.invalidEntry g .computeParameters)) ∧
      (∀ g workgroup, result ≠ .error (.invalidEntry g (.emptyWorkgroup workgroup))) ∧
      ((p.structures.find? f.returnType.name).isSome →
        ∀ g s, result ≠ .error (.missingPosition g s))) := by
  intro result
  have hforetold : ∀ e, result = .error e → e.Checked p f → ∃ issue ∈ p.validate, issue.Foretells e :=
    fun e he => (p.raises_generateFrom target symbols depth entry options e he).exists_issue hf
  refine ⟨hforetold, fun hclean => ?_⟩
  have hunchecked : ∀ e, result = .error e → ¬ e.Checked p f := by
    intro e he hchecked
    obtain ⟨issue, hissue, -⟩ := hforetold e he hchecked
    rw [hclean] at hissue
    cases hissue
  exact ⟨fun _ _ h => hunchecked _ h trivial, fun _ h => hunchecked _ h trivial,
    fun _ _ h => hunchecked _ h trivial, fun _ _ _ h => hunchecked _ h trivial,
    fun _ h => hunchecked _ h trivial, fun _ _ h => hunchecked _ h trivial,
    fun hregistered _ _ h => hunchecked _ h hregistered⟩

/-- A vertex entry that returns what it takes, a structure with some fields. -/
def Function.place : Function where
  name := "place"
  returnType := ⟨"Varyings", false⟩
  role := .entry .vertex
  parameters := [⟨"vertex", ⟨"Varyings", false⟩⟩]
  workgroup := {}
  body := [.ret .unknown (some (.localVar "vertex"))]

/-- The program of this entry, with some fields of its structure and some resources. -/
def Program.placed (fields : List Field) (resources : List Resource) : Program where
  resources := ⟨resources⟩
  functions := ⟨[Function.place]⟩
  structures := ⟨[("Varyings", ⟨"Varyings", fields⟩)]⟩

/-- The result of this entry on a target, without any declarations. -/
def Program.placedResult (target : Target) (fields : List Field) (resources : List Resource) :
    Except GenerationError Shader :=
  ((Program.placed fields resources).generateFrom ⟨fun _ => []⟩ 2 target.dialect "place" {}).result

/-- A field with the clip-space position. -/
def Field.clip : Field := { name := "clip", type := ⟨Host.vector4, false⟩, semantic := .position }

/-- A uniform of some type. -/
def Resource.camera (valueType : Option TypeRef) : Resource where
  name := "camera"
  kind := .uniform
  binding := 0
  valueType := valueType

theorem clean_program_errors_placed :
    ((Program.placed [.clip] [.camera (some ⟨"Scene.Camera", false⟩)]).validate = [] ∧
      Program.placedResult .glsl450 [.clip] [.camera (some ⟨"Scene.Camera", false⟩)] =
        .error (.unknownType "Scene.Camera") ∧
      ∀ g s, Program.placedResult .glsl450 [.clip] [.camera (some ⟨"Scene.Camera", false⟩)] ≠
        .error (.missingPosition g s)) ∧
    Program.placedResult .hlsl [] [] = .error (.missingPosition "place" "Varyings") ∧
      ∃ issue ∈ (Program.placed [] []).validate,
        issue.Foretells (.missingPosition "place" "Varyings") := by
  constructor
  · have hclean : (Program.placed [.clip] [.camera (some ⟨"Scene.Camera", false⟩)]).validate = [] := by
      decide +kernel
    obtain ⟨-, -, -, -, -, -, hposition⟩ := (clean_program_errors .glsl450
      (Program.placed [.clip] [.camera (some ⟨"Scene.Camera", false⟩)]) ⟨fun _ => []⟩ 2 "place" {}
      Function.place rfl).2 hclean
    exact ⟨hclean, by decide +kernel, hposition rfl⟩
  · have hresult : Program.placedResult .hlsl [] [] = .error (.missingPosition "place" "Varyings") := by
      decide +kernel
    exact ⟨hresult, (clean_program_errors .hlsl (Program.placed [] []) ⟨fun _ => []⟩ 2 "place" {}
      Function.place rfl).1 _ hresult rfl⟩

/-! ## Issues have their errors -/

/-- The entries of a stage that planning accepts. -/
def Function.Fits (m : Meanings) (d : Dialect) (f : Function) : Stage → Prop
  | .vertex => f.parameters.length = 1 ∧
      ∃ output, m f.returnType.name = .ok output ∧ output.positionFields ≠ []
  | .fragment => f.parameters.length = 1 ∧ f.returnType.isArray = false ∧
      ∃ type, d.mapType f.returnType.name = some type ∧ d.mapType Host.vector4 = some type
  | .compute => f.parameters = [] ∧ 0 ∉ f.workgroup.extents

section Planning

variable {m : Meanings} {d : Dialect} {depth : Nat} {f : Function} {layout planned : EntryLayout}
  {σ τ : Resolution}

theorem planFragment_fits (h : (planFragment d f layout).eval m σ = (.ok planned, τ)) :
    f.returnType.isArray = false ∧
      ∃ type, d.mapType f.returnType.name = some type ∧ d.mapType Host.vector4 = some type := by
  unfold planFragment at h
  split at h
  · rename_i type htype
    split at h
    · rename_i hresult
      exact ⟨hresult.2, type, htype, hresult.1⟩
    · cases h
  · cases h

theorem planCompute_fits (h : (planCompute d depth f layout).eval m σ = (.ok planned, τ)) :
    f.parameters = [] ∧ 0 ∉ f.workgroup.extents := by
  simp only [planCompute] at h
  split at h
  · cases h
  · rename_i hparameters
    split at h
    · cases h
    · rename_i hextents
      exact ⟨by simpa using hparameters, by simpa using hextents⟩

theorem planEntry_fits {stage : Stage}
    (h : (planEntry d depth f stage).eval m {} = (.ok layout, τ)) : f.Fits m d stage := by
  cases stage with
  | vertex =>
    obtain ⟨parameter, input, output, position, others, hparameter, -, houtput, hclip, -⟩ :=
      planEntry_vertex h
    refine ⟨List.length_eq_one_iff.2 ⟨parameter, hparameter⟩, output, houtput, fun hnone => ?_⟩
    rw [Structure.positionFields_eq_nil_iff.1 hnone] at hclip
    cases hclip
  | fragment =>
    obtain ⟨parameter, input, υ, υ', complete, hparameter, -, -, hcomplete, -⟩ :=
      planGraphics_ok .nil h
    exact ⟨List.length_eq_one_iff.2 ⟨parameter, hparameter⟩, planFragment_fits hcomplete⟩
  | compute => exact planCompute_fits h

end Planning

/-- Of the host types, only one is spelled like the result of a fragment entry. -/
theorem Target.eq_vector4_of_mapType {target : Target} {name type : String}
    (h : target.dialect.mapType name = some type)
    (hvector : target.dialect.mapType Host.vector4 = some type) : name = Host.vector4 := by
  have hentries : ∀ entry ∈ target.dialect.types.entries.reverse,
      target.dialect.mapType Host.vector4 = some entry.2 → entry.1 = Host.vector4 := by
    cases target <;> decide +kernel
  have hlookup : target.dialect.types.entries.reverse.lookup name = some type := by
    cases target <;> exact h
  exact hentries _ (mem_of_lookup hlookup) hvector

/-- The only problem of an entry that planning accepts is that its result has several positions. -/
theorem FunctionFlaw.severalPositions_of_fits {p : Program} {symbols : SymbolSource}
    {target : Target} {f : Function} {stage : Stage} {finding : Finding}
    (h : FunctionFlaw p f finding) (hrole : f.role = .entry stage)
    (hfits : f.Fits (p.structures.meaning symbols) target.dialect stage) :
    ∃ s count, finding = .severalPositions s count := by
  cases h with
  | parameterCount hstage hgraphics hcount =>
    cases hrole.symm.trans hstage
    cases stage with
    | vertex | fragment => exact absurd hfits.1 hcount
    | compute => exact absurd rfl hgraphics
  | noPosition hstage hfound hnone =>
    cases hrole.symm.trans hstage
    obtain ⟨-, output, hmeaning, hpositions⟩ := hfits
    rw [StructureSet.meaning_of_find?_some hfound] at hmeaning
    cases hmeaning
    exact absurd hnone hpositions
  | severalPositions => exact ⟨_, _, rfl⟩
  | fragmentResult hstage hresult =>
    cases hrole.symm.trans hstage
    obtain ⟨-, harray, type, htype, hvector⟩ := hfits
    refine absurd ?_ hresult
    rw [← Target.eq_vector4_of_mapType htype hvector, ← harray]
  | computeParameters hstage hparameters =>
    cases hrole.symm.trans hstage
    exact absurd hfits.1 hparameters
  | emptyExtent hstage haxis =>
    cases hrole.symm.trans hstage
    exact absurd (List.mem_of_getElem? haxis) hfits.2

section Declarations

variable {target : Target} {form : ResourceForm} {decl : ResourceDecl} {declared : Declared}

theorem ResourceDecl.valueType_of_requireValueType {type : String}
    (h : decl.requireValueType = .ok type) : decl.valueType = some type := by
  unfold ResourceDecl.requireValueType at h
  split at h
  · rename_i hvalue
    cases h
    exact hvalue
  · cases h

/-- No target declares a uniform or a buffer without a value type. -/
theorem Target.valueType_of_resource {kind : ResourceKind} (hform : kind.form? = some form)
    (hneeds : kind.needsValueType = true) (h : target.dialect.resource form decl = .ok declared) :
    ∃ type, decl.valueType = some type := by
  have hrequired : ∃ type, decl.requireValueType = .ok type := by
    cases kind with
    | texture2D | textureCube | sampler | other => cases hneeds
    | uniform =>
      cases hform
      cases target with
      | glslEs300 | glsl330 | glsl450 | hlsl =>
        obtain ⟨type, htype, -⟩ := bind_ok.1 h
        exact ⟨type, htype⟩
    | structuredBuffer | rwStructuredBuffer =>
      cases hform
      cases target with
      | glslEs300 | glsl330 => cases h
      | glsl450 | hlsl =>
        obtain ⟨type, htype, -⟩ := bind_ok.1 h
        exact ⟨type, htype⟩
  obtain ⟨type, htype⟩ := hrequired
  exact ⟨type, decl.valueType_of_requireValueType htype⟩

/-- A resource with a problem cannot be declared. -/
theorem ResourceFlaw.not_declared {r : Resource} {finding : Finding} (h : ResourceFlaw r finding)
    {c : Context} (hc : c.dialect = target.dialect) : c.declareResource r ≠ .ok declared := by
  intro hok
  obtain ⟨decl, hdecl, hok⟩ := bind_ok.1 hok
  obtain ⟨valueType, hvalue, hdecl⟩ := bind_ok.1 hdecl
  cases hdecl
  cases h with
  | unknownKind hkind =>
    rw [hkind] at hok
    cases hok
  | missingValueType hneeds hnone =>
    rw [hnone] at hvalue
    cases hvalue
    cases hform : r.kind.form? with
    | none =>
      rw [hform] at hok
      cases hok
    | some form =>
      rw [hform, hc] at hok
      obtain ⟨type, htype⟩ := Target.valueType_of_resource hform hneeds hok
      cases htype

end Declarations

/-- A structure that a request resolves is declared in its document. -/
theorem Document.Of.exists_declared {p : Program} {symbols : SymbolSource} {depth : Nat}
    {d : Dialect} {entry : String} {doc : Document} (h : doc.Of p symbols depth d entry)
    {key : String} {s : Structure}
    (hneeded : Needed (p.structures.meaning symbols) d p.toCode doc.entry key)
    (hmeaning : p.structures.meaning symbols key = .ok s) :
    ∃ before after,
      doc.declarations d = before ++ d.structureLines (d.declarationOf key s) ++ after := by
  obtain ⟨earlier, later, hsplit⟩ := List.append_of_mem (h.mem_structures hneeded hmeaning)
  refine ⟨(earlier.map fun s => d.declarationOf s.1 s.2).flatMap d.structureLines,
    (later.map fun s => d.declarationOf s.1 s.2).flatMap d.structureLines ++
      doc.resources.flatMap Declared.lines ++ doc.bodies.flatten ++ mainLines d doc.layout, ?_⟩
  rw [Document.declarations, hsplit]
  simp only [List.map_append, List.map_cons, List.flatMap_append, List.flatMap_cons,
    List.append_assoc]

/-- A declaration repeats the names that the structure repeats. -/
theorem Dialect.count_declarationOf_ge (d : Dialect) (key : String) (s : Structure) (field : String) :
    (s.fields.map (·.name)).count field ≤
      ((d.declarationOf key s).fields.map (·.name)).count (d.correct field) := by
  have hnames : (d.declarationOf key s).fields.map (·.name) =
      (s.fields.map (·.name)).map d.correct := by
    simp only [Dialect.declarationOf, List.map_map, Function.comp_def]
  rw [hnames]
  exact List.count_le_count_map

section Requests

variable {target : Target} {p : Program} {symbols : SymbolSource} {depth : Nat} {entry : String}
  {options : Options} {f : Function} {finding : Finding} {shader : Shader}

/-- An entry whose request succeeds has at most several positions. -/
theorem Program.severalPositions_of_ok (hf : p.toCode.function? entry = some f)
    (h : (p.generateFrom symbols depth target.dialect entry options).result = .ok shader)
    (hfinding : finding ∈ p.functionFindings f) : ∃ s count, finding = .severalPositions s count := by
  obtain ⟨doc, hdoc, -⟩ := Program.exists_document h
  obtain ⟨τ, hlayout⟩ := hdoc.layout
  cases hf.symm.trans hdoc.function?
  exact (Program.mem_functionFindings_iff.1 hfinding).severalPositions_of_fits
    (role_of_findEntry hdoc.entry) (planEntry_fits hlayout)

/-- If a request succeeds, no resource has a finding. -/
theorem Program.resource_findings_of_ok
    (h : (p.generateFrom symbols depth target.dialect entry options).result = .ok shader)
    {r : Resource} (hr : r ∈ p.resources.items) : finding ∉ r.findings := by
  intro hfinding
  obtain ⟨doc, hdoc, -⟩ := Program.exists_document h
  obtain ⟨declared, hdeclared⟩ := exists_ok_of_mapM_ok hdoc.resources r hr
  exact (Resource.mem_findings_iff.1 hfinding).not_declared rfl hdeclared

/-- If a request succeeds, its text declares the structures that it resolves. -/
theorem Program.text_declares (hf : p.toCode.function? entry = some f)
    (h : (p.generateFrom symbols depth target.dialect entry options).result = .ok shader)
    {key : String} {s : Structure} (hfound : p.structures.find? key = some s)
    (hneeded : Needed (p.structures.meaning symbols) target.dialect p.toCode f key) :
    ∃ before after, shader.text = renderLines options.indent (before ++
      target.dialect.structureLines (target.dialect.declarationOf key s) ++ after) := by
  obtain ⟨doc, hdoc, htext⟩ := Program.exists_document h
  cases hf.symm.trans hdoc.function?
  obtain ⟨before, after, hlines⟩ :=
    hdoc.exists_declared hneeded (StructureSet.meaning_of_find?_some hfound)
  refine ⟨target.dialect.header doc.stage options.floatPrecision ++ before, after, ?_⟩
  rw [htext, hlines]
  simp only [List.append_assoc]

end Requests

/-- **Issues as errors.**  On every built-in target, for every source of declarations and every entry:
an issue of the entry, several position fields apart, or of any resource makes the request fail.  A
repeated field name of a structure that the request resolves does not: if the request succeeds, the
structure is declared with that member twice. -/
theorem issues_as_errors (target : Target) (p : Program) (symbols : SymbolSource) (depth : Nat)
    (entry : String) (options : Options) (f : Function) (hf : p.toCode.function? entry = some f) :
    let result := (p.generateFrom symbols depth target.dialect entry options).result
    (∀ finding ∈ p.functionFindings f, ⟨f.name, finding⟩ ∈ p.validate ∧
      ((∀ s count, finding ≠ .severalPositions s count) → ∃ e, result = .error e)) ∧
    (∀ r ∈ p.resources.items, ∀ finding ∈ r.findings,
      ⟨r.name, finding⟩ ∈ p.validate ∧ ∃ e, result = .error e) ∧
    ∀ key s, p.structures.find? key = some s → ∀ finding ∈ s.findings,
      ⟨s.name, finding⟩ ∈ p.validate ∧
      (Needed (p.structures.meaning symbols) target.dialect p.toCode f key →
        ∀ shader, result = .ok shader → ∃ field before after,
          finding = .duplicateField field ∧
          2 ≤ ((target.dialect.declarationOf key s).fields.map (·.name)).count
            (target.dialect.correct field) ∧
          shader.text = renderLines options.indent (before ++
            target.dialect.structureLines (target.dialect.declarationOf key s) ++ after)) := by
  intro result
  refine ⟨fun finding hfinding => ⟨?_, fun hother => ?_⟩, fun r hr finding hfinding => ⟨?_, ?_⟩,
    fun key s hfound finding hfinding => ⟨?_, fun hneeded shader hok => ?_⟩⟩
  · exact Program.mem_validate_iff.2
      (.inr (.inr ⟨f, List.mem_of_find?_eq_some hf, finding, hfinding, rfl⟩))
  · cases hresult : result with
    | error e => exact ⟨e, rfl⟩
    | ok shader =>
      obtain ⟨s, count, hseveral⟩ := Program.severalPositions_of_ok hf hresult hfinding
      exact absurd hseveral (hother s count)
  · exact Program.mem_validate_iff.2 (.inr (.inl ⟨r, hr, finding, hfinding, rfl⟩))
  · cases hresult : result with
    | error e => exact ⟨e, rfl⟩
    | ok shader => exact absurd hfinding (Program.resource_findings_of_ok hresult hr)
  · have hmem : s ∈ p.structures.toList := List.mem_map_of_mem (mem_of_lookup hfound)
    exact Program.mem_validate_iff.2 (.inl ⟨s, hmem, finding, hfinding, rfl⟩)
  · obtain ⟨field, rfl, hcount⟩ := Structure.mem_findings_iff.1 hfinding
    obtain ⟨before, after, htext⟩ := Program.text_declares hf hok hfound hneeded
    exact ⟨field, before, after, rfl,
      Nat.le_trans hcount (target.dialect.count_declarationOf_ge key s field), htext⟩

/-- A structure with a field twice, and a position. -/
def Field.twice : List Field :=
  [{ name := "uv", type := ⟨Host.vector2, false⟩ }, { name := "uv", type := ⟨Host.vector2, false⟩ },
    .clip]

theorem issues_as_errors_placed :
    (⟨"place", .noPosition "Varyings"⟩ ∈ (Program.placed [] []).validate ∧
      ∃ e, Program.placedResult .glsl450 [] [] = .error e) ∧
    (⟨"camera", .missingValueType .uniform⟩ ∈ (Program.placed [.clip] [.camera none]).validate ∧
      ∃ e, Program.placedResult .hlsl [.clip] [.camera none] = .error e) ∧
    ∃ shader before after, Program.placedResult .hlsl Field.twice [] = .ok shader ∧
      shader.text = renderLines 4 (before ++ (Target.hlsl).dialect.structureLines
        ((Target.hlsl).dialect.declarationOf "Varyings" ⟨"Varyings", Field.twice⟩) ++ after) := by
  refine ⟨?_, ?_, ?_⟩
  · obtain ⟨hissue, herror⟩ := (issues_as_errors .glsl450 (Program.placed [] []) ⟨fun _ => []⟩ 2
      "place" {} Function.place rfl).1 (.noPosition "Varyings") (by decide +kernel)
    exact ⟨hissue, herror nofun⟩
  · exact (issues_as_errors .hlsl (Program.placed [.clip] [.camera none]) ⟨fun _ => []⟩ 2 "place" {}
      Function.place rfl).2.1 (.camera none) List.mem_cons_self (.missingValueType .uniform)
        (by decide +kernel)
  · have hok : (Program.placedResult .hlsl Field.twice []).toBool = true := by decide +kernel
    cases hresult : Program.placedResult .hlsl Field.twice [] with
    | error e =>
      rw [hresult] at hok
      cases hok
    | ok shader =>
      obtain ⟨-, hdeclared⟩ := (issues_as_errors .hlsl (Program.placed Field.twice []) ⟨fun _ => []⟩ 2
        "place" {} Function.place rfl).2.2 "Varyings" ⟨"Varyings", Field.twice⟩ rfl
          (.duplicateField "uv") (by decide +kernel)
      obtain ⟨-, before, after, -, -, htext⟩ :=
        hdeclared (.named .refl .result (by decide +kernel)) shader hresult
      exact ⟨shader, before, after, rfl, htext⟩

/-- A repeated field name is an issue, and no target rejects the structure. -/
theorem repeated_field_accepted :
    ⟨"Varyings", .duplicateField "uv"⟩ ∈ (Program.placed Field.twice []).validate ∧
      ∀ target : Target,
        Needed ((Program.placed Field.twice []).structures.meaning ⟨fun _ => []⟩) target.dialect
          (Program.placed Field.twice []).toCode Function.place "Varyings" ∧
        (Program.placedResult target Field.twice []).toBool = true := by
  refine ⟨by decide +kernel, fun target => ⟨.named .refl .result ?_, ?_⟩⟩
  · cases target <;> decide +kernel
  · cases target <;> decide +kernel

end CrossShader

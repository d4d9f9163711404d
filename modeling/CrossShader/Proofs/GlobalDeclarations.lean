import CrossShader.Proofs.Document
import CrossShader.Target

/-!
# What a document declares at global scope

The lines of a document with its global declarations marked: each line that declares an identifier
outside of all functions and structures is split at that identifier.

* `MarkedLine` — a line, or the three parts of a line that declares an identifier.
* `Document.marked` — the lines of a document below its header, marked part by part: structures,
  resources with the blocks around them, functions, stage interface, and `main`.
* `Document.lines_marked` — without the marks, these are the lines of the document.
* `Document.globals`, `Document.globals_eq` — the declared identifiers, in order.
-/

set_option autoImplicit false

namespace CrossShader

open Text

/-- A line of a document.  A line that declares an identifier at global scope has its parts before and
behind the identifier. -/
inductive MarkedLine where
  | plain (line : Line)
  | declares (level : Nat) (before name behind : String)

namespace MarkedLine

/-- The line without the mark. -/
def line : MarkedLine → Line
  | plain line => line
  | declares level before name behind => ⟨level, before ++ name ++ behind⟩

/-- The declared identifier. -/
def name? : MarkedLine → Option String
  | plain _ => none
  | declares _ _ name _ => some name

/-- Marked lines without their marks. -/
def lines (marked : List MarkedLine) : List Line := marked.map line

/-- The declared identifiers of marked lines. -/
def names (marked : List MarkedLine) : List String := marked.filterMap name?

@[simp] theorem lines_append (a b : List MarkedLine) : lines (a ++ b) = lines a ++ lines b :=
  List.map_append

@[simp] theorem names_append (a b : List MarkedLine) : names (a ++ b) = names a ++ names b :=
  List.filterMap_append

@[simp] theorem lines_plain (ls : List Line) : lines (ls.map plain) = ls := by
  simp [lines, line, Function.comp_def]

@[simp] theorem names_plain (ls : List Line) : names (ls.map plain) = [] := by
  simp [names, name?, Function.comp_def, List.filterMap_map]

theorem lines_flatMap {α : Type} (f : α → List MarkedLine) (as : List α) :
    lines (as.flatMap f) = as.flatMap fun a => lines (f a) := by
  simp [lines, List.map_flatMap]

theorem names_flatMap {α : Type} (f : α → List MarkedLine) (as : List α) :
    names (as.flatMap f) = as.flatMap fun a => names (f a) := by
  simp [names, List.filterMap_flatMap]

end MarkedLine

open MarkedLine (plain declares)

/-! ## Structures and functions -/

/-- A structure declares its name; `rest` are the lines behind the first one. -/
def markedStruct (name : String) (rest : List Line) : List MarkedLine :=
  declares 0 "struct " name "" :: rest.map plain

theorem lines_markedStruct (name : String) (rest : List Line) :
    MarkedLine.lines (markedStruct name rest) = .flush s!"struct {name}" :: rest := by
  show Line.mk 0 ("struct " ++ name ++ "") :: MarkedLine.lines (rest.map plain) = _
  rw [MarkedLine.lines_plain, String.append_empty]
  rfl

theorem names_markedStruct (name : String) (rest : List Line) :
    MarkedLine.names (markedStruct name rest) = [name] :=
  congrArg (name :: ·) (MarkedLine.names_plain rest)

/-- The declaration of a structure. -/
def StructureDecl.marked (s : StructureDecl) : List MarkedLine := markedStruct s.name s.lines.tail

theorem StructureDecl.lines_marked (s : StructureDecl) : MarkedLine.lines s.marked = s.lines :=
  lines_markedStruct s.name s.lines.tail

theorem StructureDecl.names_marked (s : StructureDecl) : MarkedLine.names s.marked = [s.name] :=
  names_markedStruct s.name s.lines.tail

/-- A parameter of a signature. -/
def Dialect.parameterText (d : Dialect) (p : Parameter) : String :=
  s!"{d.targetType p.type} {d.correct p.name}"

/-- A function declares its target name, in the first of its lines. -/
def Function.marked (d : Dialect) (f : Function) (lines : List Line) : List MarkedLine :=
  declares 0 (d.targetType f.returnType ++ " ") (d.correct f.name)
    ("(" ++ String.intercalate ", " (f.parameters.map d.parameterText) ++ ")") ::
    lines.tail.map plain

theorem Context.signature_ok {c : Context} {f : Function} {text : String}
    (h : c.signature f = .ok text) :
    text = c.dialect.targetType f.returnType ++ " " ++ c.dialect.correct f.name ++
      ("(" ++ String.intercalate ", " (f.parameters.map c.dialect.parameterText) ++ ")") := by
  unfold Context.signature at h
  split at h
  · cases h
  obtain ⟨parameters, hparameters, h⟩ := bind_ok.1 h
  obtain ⟨type, htype, h⟩ := bind_ok.1 h
  cases h
  have hmap : parameters = f.parameters.map c.dialect.parameterText := by
    refine eq_map_of_mapM_ok (fun p text hp => ?_) hparameters
    unfold Context.parameter at hp
    split at hp
    · cases hp
    obtain ⟨ptype, hptype, hp⟩ := bind_ok.1 hp
    cases hp
    rw [Context.mappedType_ok hptype]
    rfl
  rw [hmap, Context.mappedType_ok htype]
  simp only [callText, String.append_assoc]
  rfl

theorem Function.lines_marked {c : Context} {stage : Stage} {f : Function} {lines : List Line}
    (h : c.functionLines stage f = .ok lines) :
    MarkedLine.lines (f.marked c.dialect lines) = lines := by
  obtain ⟨signature, hsignature, h⟩ := bind_ok.1 h
  obtain ⟨body, -, h⟩ := bind_ok.1 h
  cases h
  show ⟨0, _ ++ _ ++ _⟩ :: MarkedLine.lines (List.map plain _) = _
  rw [MarkedLine.lines_plain, ← Context.signature_ok hsignature]
  rfl

theorem Function.names_marked (d : Dialect) (f : Function) (lines : List Line) :
    MarkedLine.names (f.marked d lines) = [d.correct f.name] :=
  congrArg (_ :: ·) (MarkedLine.names_plain lines.tail)

/-! ## Resources -/

/-- A block declares its own name and that of its member. -/
def markedBlock (heading name tail type member suffix : String) : List MarkedLine :=
  [declares 0 heading name tail, plain (.flush "\x7b"), declares 1 (type ++ " ") member suffix,
    plain (.flush "\x7d;"), plain .blank]

namespace Glsl

/-- An opaque resource. -/
def markedObject (version : Version) (type : String) (d : ResourceDecl) : List MarkedLine :=
  let qualifier :=
    if version.explicitLayout then s!"layout(set = 0, binding = {d.resource.binding}) " else ""
  [declares 0 (qualifier ++ "uniform " ++ type ++ " ") d.name ";", plain .blank]

/-- The declaration of a resource, whose values are of a type if they have one. -/
def markedResource (version : Version) (d : ResourceDecl) (type : String) :
    ResourceForm → List MarkedLine
  | .uniform =>
    let qualifiers :=
      if version.explicitLayout then s!"std140, set = 0, binding = {d.resource.binding}"
      else "std140"
    markedBlock ("layout(" ++ qualifiers ++ ") uniform ") d.name "" type (blockMember d.resource) ";"
  | .texture2D =>
    markedObject version (if version.separateSamplers then "texture2D" else "sampler2D") d
  | .textureCube =>
    markedObject version (if version.separateSamplers then "textureCube" else "samplerCube") d
  | .sampler => if version.separateSamplers then markedObject version "sampler" d else []
  | .buffer writable =>
    markedBlock (s!"layout(std430, set = 0, binding = {d.resource.binding})" ++ " " ++
      (if writable then "" else "readonly ") ++ "buffer ") d.name "" type
      (blockMember d.resource) "[];"

theorem lines_markedObject (version : Version) (type : String) (d : ResourceDecl) :
    MarkedLine.lines (markedObject version type d) = objectLines version type d := rfl

theorem lines_markedBlock (heading name type member suffix : String) :
    MarkedLine.lines (markedBlock heading name "" type member suffix) =
      block (heading ++ name) (type ++ " " ++ member ++ suffix) := by
  show Line.mk 0 (heading ++ name ++ "") :: _ = _
  rw [String.append_empty]
  rfl

theorem resource_ok {version : Version} {form : ResourceForm} {d : ResourceDecl}
    {declared : Declared} (h : resource version form d = .ok declared) :
    declared.lines = MarkedLine.lines (markedResource version d (d.valueType.getD "") form) := by
  cases form with
  | uniform =>
    obtain ⟨type, htype, h⟩ := bind_ok.1 h
    cases h
    obtain ⟨r, name, valueType⟩ := d
    cases valueType with
    | none => cases htype
    | some valueType =>
      cases htype
      rw [markedResource, lines_markedBlock]
      rfl
  | texture2D | textureCube =>
    cases h
    exact (lines_markedObject _ _ _).symm
  | sampler =>
    rw [resource] at h
    rw [markedResource]
    split at h
    · rename_i hseparate
      cases h
      rw [if_pos hseparate]
      rfl
    · rename_i hseparate
      cases h
      rw [if_neg hseparate]
      rfl
  | buffer writable =>
    rw [resource] at h
    split at h
    · obtain ⟨type, htype, h⟩ := bind_ok.1 h
      cases h
      obtain ⟨r, name, valueType⟩ := d
      cases valueType with
      | none => cases htype
      | some valueType =>
        cases htype
        rw [markedResource, lines_markedBlock]
        rfl
    · cases h

/-- A stage variable declares its name. -/
def markedVariable (version : Version) (v : StageVariable) : MarkedLine :=
  let location := if isLocated version v then s!"layout(location = {v.slot}) " else ""
  declares 0 (location ++ v.direction.text ++ " " ++ v.type ++ " ") v.name ";"

/-- The stage interface declares the stage variables. -/
def markedInterface (version : Version) (layout : EntryLayout) : List MarkedLine :=
  match layout.stage with
  | .compute => []
  | .vertex | .fragment =>
    layout.inputs.map (markedVariable version) ++ layout.outputs.map (markedVariable version) ++
      [plain .blank]

theorem lines_markedVariables (version : Version) (vs : List StageVariable) :
    MarkedLine.lines (vs.map (markedVariable version)) =
      vs.flatMap (dialect version).stageVariable := by
  induction vs with
  | nil => rfl
  | cons v vs ih => exact congrArg (_ :: ·) ih

theorem lines_markedInterface (version : Version) (layout : EntryLayout) :
    MarkedLine.lines (markedInterface version layout) =
      interfaceLines (dialect version) layout := by
  unfold markedInterface interfaceLines
  cases layout.stage with
  | compute => rfl
  | vertex | fragment =>
    simp only [MarkedLine.lines_append, lines_markedVariables]
    simp [dialect]
    rfl

end Glsl

namespace Hlsl

/-- An object with its register. -/
def markedObject (heading letter : String) (d : ResourceDecl) : List MarkedLine :=
  [declares 0 (heading ++ " ") d.name s!" : register({letter}{d.resource.binding});", plain .blank]

/-- The declaration of a resource, whose values are of a type if they have one. -/
def markedResource (d : ResourceDecl) (type : String) : ResourceForm → List MarkedLine
  | .uniform =>
    markedBlock "cbuffer " (d.name ++ "Buffer") s!" : register(b{d.resource.binding})" type d.name ";"
  | .texture2D => markedObject "Texture2D" "t" d
  | .textureCube => markedObject "TextureCube" "t" d
  | .sampler => markedObject "SamplerState" "s" d
  | .buffer writable =>
    if writable then markedObject s!"RWStructuredBuffer<{type}>" "u" d
    else markedObject s!"StructuredBuffer<{type}>" "t" d

theorem lines_markedObject (heading letter : String) (d : ResourceDecl) :
    MarkedLine.lines (markedObject heading letter d) = registered heading letter d := by
  simp only [MarkedLine.lines, MarkedLine.line, markedObject, registered, List.map_cons, List.map_nil,
    Line.flush, String.append_assoc]
  rfl

theorem resource_ok {form : ResourceForm} {d : ResourceDecl} {declared : Declared}
    (h : resource form d = .ok declared) :
    declared.lines = MarkedLine.lines (markedResource d (d.valueType.getD "") form) := by
  obtain ⟨r, name, valueType⟩ := d
  cases form with
  | uniform =>
    obtain ⟨type, htype, h⟩ := bind_ok.1 h
    cases h
    cases valueType with
    | none => cases htype
    | some valueType =>
      cases htype
      simp only [MarkedLine.lines, MarkedLine.line, markedResource, markedBlock, List.map_cons,
        List.map_nil, Line.flush, Line.inner, String.append_assoc]
      rfl
  | texture2D | textureCube | sampler =>
    cases h
    exact (lines_markedObject _ _ _).symm
  | buffer writable =>
    obtain ⟨type, htype, h⟩ := bind_ok.1 h
    cases h
    cases valueType with
    | none => cases htype
    | some valueType =>
      cases htype
      cases writable with
      | true => exact (lines_markedObject _ _ _).symm
      | false => exact (lines_markedObject _ _ _).symm

/-- The stage interface declares one structure for each direction. -/
def markedInterface (layout : EntryLayout) : List MarkedLine :=
  match layout.stage with
  | .compute => []
  | .vertex | .fragment =>
    let inputs : List Line := layout.inputs.flatMap dialect.stageVariable
    let outputs : List Line := layout.outputs.flatMap dialect.stageVariable ++
      if layout.stage = .vertex then dialect.positionOutput layout else []
    markedStruct (interfaceType layout .input)
        (.flush "\x7b" :: inputs ++ [.flush "\x7d;", .blank]) ++
      markedStruct (interfaceType layout .output)
        (.flush "\x7b" :: outputs ++ [.flush "\x7d;", .blank])

theorem lines_markedInterface (layout : EntryLayout) :
    MarkedLine.lines (markedInterface layout) = interfaceLines dialect layout := by
  unfold markedInterface interfaceLines
  cases layout.stage with
  | compute => rfl
  | vertex | fragment =>
    simp only [MarkedLine.lines_append, lines_markedStruct, List.append_assoc, List.cons_append]
    rfl

end Hlsl

/-! ## Targets -/

namespace Target

/-- The version of a target that is one of GLSL. -/
def version? : Target → Option Glsl.Version
  | glslEs300 => some .es300
  | glsl330 => some .core330
  | glsl450 => some .core450
  | hlsl => none

theorem dialect_of_version? {target : Target} {version : Glsl.Version}
    (h : target.version? = some version) : target.dialect = Glsl.dialect version := by
  cases target <;> cases h <;> rfl

theorem eq_hlsl_of_version? {target : Target} (h : target.version? = none) : target = hlsl := by
  cases target <;> cases h
  rfl

variable (target : Target)

/-- A resource as it is declared. -/
def resourceDecl (r : Resource) : ResourceDecl where
  resource := r
  name := target.dialect.correct r.name
  valueType := r.valueType.map target.dialect.targetType

/-- The declaration of a resource. -/
def markedResource (r : Resource) : List MarkedLine :=
  let decl := target.resourceDecl r
  match r.kind.form?, target.version? with
  | none, _ => []
  | some form, some version => Glsl.markedResource version decl (decl.valueType.getD "") form
  | some form, none => Hlsl.markedResource decl (decl.valueType.getD "") form

/-- The declarations of the stage interface. -/
def markedInterface (layout : EntryLayout) : List MarkedLine :=
  match target.version? with
  | some version => Glsl.markedInterface version layout
  | none => Hlsl.markedInterface layout

/-- What stands before and behind the name in the signature of `main`. -/
def mainSides (layout : EntryLayout) : String × String :=
  match target.version?, layout.stage with
  | some _, _ | none, .compute => ("void ", "()")
  | none, .vertex | none, .fragment =>
    (Hlsl.interfaceType layout .output ++ " ",
      "(" ++ Hlsl.interfaceType layout .input ++ " " ++ Hlsl.stageInput ++ ")")

/-- The synthesized function declares `main`. -/
def markedMain (layout : EntryLayout) : List MarkedLine :=
  (target.dialect.mainAttributes layout).map plain ++
    declares 0 (target.mainSides layout).1 "main" (target.mainSides layout).2 ::
      (braced 0 ((mainSteps target.dialect layout).map fun step => .inner step.text)).map plain

end Target

theorem Context.resourceDecl_ok {c : Context} {target : Target} (hd : c.dialect = target.dialect)
    {r : Resource} {decl : ResourceDecl} (h : c.resourceDecl r = .ok decl) :
    decl = target.resourceDecl r := by
  obtain ⟨valueType, hvalue, h⟩ := bind_ok.1 h
  cases h
  unfold Target.resourceDecl
  rw [← hd]
  congr 1
  cases hr : r.valueType with
  | none =>
    rw [hr] at hvalue
    cases hvalue
    rfl
  | some type =>
    rw [hr] at hvalue
    obtain ⟨mapped, hmapped, h⟩ := bind_ok.1 hvalue
    cases h
    rw [Context.mappedType_ok hmapped]
    rfl

theorem Target.lines_markedResource {c : Context} {target : Target}
    (hd : c.dialect = target.dialect) {r : Resource} {declared : Declared}
    (h : c.declareResource r = .ok declared) :
    MarkedLine.lines (target.markedResource r) = declared.lines := by
  obtain ⟨decl, hdecl, h⟩ := bind_ok.1 h
  cases Context.resourceDecl_ok hd hdecl
  unfold Target.markedResource
  cases hform : r.kind.form? with
  | none =>
    rw [hform] at h
    cases h
  | some form =>
    rw [hform] at h
    cases hversion : target.version? with
    | some version =>
      rw [hd, Target.dialect_of_version? hversion] at h
      exact (Glsl.resource_ok h).symm
    | none =>
      cases Target.eq_hlsl_of_version? hversion
      rw [hd] at h
      exact (Hlsl.resource_ok h).symm

theorem Target.lines_markedInterface (target : Target) (layout : EntryLayout) :
    MarkedLine.lines (target.markedInterface layout) = interfaceLines target.dialect layout := by
  unfold Target.markedInterface
  cases hversion : target.version? with
  | some version =>
    rw [Target.dialect_of_version? hversion]
    exact Glsl.lines_markedInterface version layout
  | none =>
    cases Target.eq_hlsl_of_version? hversion
    exact Hlsl.lines_markedInterface layout

theorem Target.mainSignature_eq (target : Target) (layout : EntryLayout) :
    target.dialect.mainSignature layout =
      (target.mainSides layout).1 ++ "main" ++ (target.mainSides layout).2 := by
  unfold Target.mainSides
  cases hversion : target.version? with
  | some version =>
    rw [Target.dialect_of_version? hversion]
    rfl
  | none =>
    cases Target.eq_hlsl_of_version? hversion
    show Hlsl.mainSignature layout = _
    unfold Hlsl.mainSignature
    cases layout.stage with
    | compute => rfl
    | vertex | fragment =>
      have hmain : " main(" = " " ++ "main" ++ "(" := rfl
      simp only [hmain, String.append_assoc]
      rfl

theorem Target.lines_markedMain (target : Target) (layout : EntryLayout) :
    MarkedLine.lines (target.markedInterface layout) ++ MarkedLine.lines (target.markedMain layout) =
      mainLines target.dialect layout := by
  have hmain : MarkedLine.lines (target.markedMain layout) = target.dialect.mainAttributes layout ++
      .flush (target.dialect.mainSignature layout) ::
        braced 0 ((mainSteps target.dialect layout).map fun step => .inner step.text) := by
    rw [Target.markedMain, MarkedLine.lines_append, MarkedLine.lines_plain, Target.mainSignature_eq]
    congr 1
    exact congrArg (_ :: ·) (MarkedLine.lines_plain _)
  rw [Target.lines_markedInterface, hmain, mainLines, List.append_assoc]

theorem Target.names_markedMain (target : Target) (layout : EntryLayout) :
    MarkedLine.names (target.markedMain layout) = ["main"] := by
  rw [Target.markedMain, MarkedLine.names_append, MarkedLine.names_plain, List.nil_append]
  exact congrArg ("main" :: ·) (MarkedLine.names_plain _)

/-! ## Documents -/

namespace Document

/-- The lines of a document below its header, with their declarations marked. -/
def marked (doc : Document) (target : Target) (resources : List Resource) : List MarkedLine :=
  doc.structures.flatMap (fun s => (target.dialect.declarationOf s.1 s.2).marked) ++
    resources.flatMap target.markedResource ++
    (List.zipWith (Function.marked target.dialect) doc.functions doc.bodies).flatten ++
    target.markedInterface doc.layout ++ target.markedMain doc.layout

theorem lines_markedResources {c : Context} {target : Target} (hd : c.dialect = target.dialect)
    {resources : List Resource} {declared : List Declared}
    (h : resources.mapM c.declareResource = .ok declared) :
    MarkedLine.lines (resources.flatMap target.markedResource) =
      declared.flatMap Declared.lines := by
  have hall := mapM_ok.1 h
  clear h
  induction hall with
  | nil => rfl
  | cons hr _ ih =>
    rw [List.flatMap_cons, MarkedLine.lines_append, ih, Target.lines_markedResource hd hr]
    rfl

theorem lines_markedFunctions {c : Context} {stage : Stage} {functions : List Function}
    {bodies : List (List Line)} (h : functions.mapM (c.functionLines stage) = .ok bodies) :
    MarkedLine.lines (List.zipWith (Function.marked c.dialect) functions bodies).flatten =
      bodies.flatten := by
  have hall := mapM_ok.1 h
  clear h
  induction hall with
  | nil => rfl
  | cons hf _ ih =>
    rw [List.zipWith_cons_cons, List.flatten_cons, MarkedLine.lines_append, ih,
      Function.lines_marked hf, List.flatten_cons]

/-- **Without the marks, these are the lines of the document.** -/
theorem lines_marked {p : Program} {symbols : SymbolSource} {depth : Nat} {target : Target}
    {entry : String} {doc : Document} (h : doc.Of p symbols depth target.dialect entry) :
    MarkedLine.lines (doc.marked target p.resources.items) = doc.declarations target.dialect := by
  have hstructures : MarkedLine.lines
      (doc.structures.flatMap fun s => (target.dialect.declarationOf s.1 s.2).marked) =
        (doc.structures.map fun s => target.dialect.declarationOf s.1 s.2).flatMap
          target.dialect.structureLines := by
    have hlines : target.dialect.structureLines = StructureDecl.lines := by cases target <;> rfl
    rw [MarkedLine.lines_flatMap, List.flatMap_map, hlines]
    simp only [StructureDecl.lines_marked]
  have hfunctions := lines_markedFunctions h.bodies
  rw [marked, declarations, MarkedLine.lines_append, MarkedLine.lines_append,
    MarkedLine.lines_append, MarkedLine.lines_append, hstructures,
    lines_markedResources rfl h.resources, ← Target.lines_markedMain, List.append_assoc]
  exact congrArg (_ ++ · ++ _) hfunctions

/-- The identifiers that a document declares at global scope, in order. -/
def globals (doc : Document) (target : Target) (resources : List Resource) : List String :=
  MarkedLine.names (doc.marked target resources)

theorem names_markedFunctions {c : Context} {stage : Stage} {functions : List Function}
    {bodies : List (List Line)} (h : functions.mapM (c.functionLines stage) = .ok bodies) :
    MarkedLine.names (List.zipWith (Function.marked c.dialect) functions bodies).flatten =
      functions.map fun f => c.dialect.correct f.name := by
  have hall := mapM_ok.1 h
  clear h
  induction hall with
  | nil => rfl
  | cons _ _ ih =>
    rw [List.zipWith_cons_cons, List.flatten_cons, MarkedLine.names_append, ih, Function.names_marked,
      List.map_cons, List.singleton_append]

/-- **What is declared**: the structures, the resources, the functions, the stage interface, and
`main`. -/
theorem globals_eq {p : Program} {symbols : SymbolSource} {depth : Nat} {target : Target}
    {entry : String} {doc : Document} (h : doc.Of p symbols depth target.dialect entry) :
    doc.globals target p.resources.items =
      doc.structures.map (fun s => target.dialect.structureTypeName s.1) ++
        MarkedLine.names (p.resources.items.flatMap target.markedResource) ++
        doc.functions.map (fun f => target.dialect.correct f.name) ++
        MarkedLine.names (target.markedInterface doc.layout) ++ ["main"] := by
  have hstructures : MarkedLine.names
      (doc.structures.flatMap fun s => (target.dialect.declarationOf s.1 s.2).marked) =
        doc.structures.map fun s => target.dialect.structureTypeName s.1 := by
    rw [MarkedLine.names_flatMap, List.map_eq_flatMap]
    simp only [StructureDecl.names_marked]
    rfl
  have hfunctions := names_markedFunctions h.bodies
  rw [globals, marked, MarkedLine.names_append, MarkedLine.names_append, MarkedLine.names_append,
    MarkedLine.names_append, hstructures, Target.names_markedMain]
  exact congrArg (_ ++ · ++ _ ++ _) hfunctions

end Document

end CrossShader

import CrossShader.CallGraph
import CrossShader.EntryPoint.Plan
import CrossShader.EntryPoint.Wrapper
import CrossShader.Lowering.Function

/-!
# Generation

One entry function on one dialect, as a complete shader.  A request first resolves every type that
the entry reaches, and then writes the document from what it resolved.

* `Shader` — a generated shader.
* `documentRequest` — the lines of a document: header, structures in dependency order, resources,
  reachable functions with callees first, and `main`.
* `Program.generateFrom` — a request run on a program with any source of declarations; structures
  that it discovers are registered, whether it succeeds or fails.
* `Program.generate` — the same with a finite table of declarations, where the nesting of structures
  is bounded by their number.
-/

set_option autoImplicit false

namespace CrossShader

open Text

/-- A generated shader. -/
structure Shader where
  text : String
  diagnostics : List Diagnostic
  deriving DecidableEq, Repr

/-- The size of a shader in words. -/
def Shader.summary (s : Shader) : String :=
  s!"{countLines s.text} line(s), {s.diagnostics.length} diagnostic(s)"

/-! ## Declarations -/

namespace Context

/-- A structure that is ready to be written. -/
def structureDecl (c : Context) (name : String) (definition : Structure) :
    Except GenerationError StructureDecl := do
  let fields ← definition.fields.mapM fun field => do
    let type ← c.mappedType field.type
    return { type, name := c.dialect.correct field.name, count := field.count : FieldDecl }
  return { name := c.dialect.structureTypeName name, fields }

/-- The declarations of all resolved structures, in dependency order. -/
def structureDecls (c : Context) : Except GenerationError (List StructureDecl) :=
  c.structures.reverse.mapM fun (name, definition) => c.structureDecl name definition

/-- A resource that is ready to be written. -/
def resourceDecl (c : Context) (r : Resource) : Except GenerationError ResourceDecl := do
  let valueType ← r.valueType.mapM c.mappedType
  return { resource := r, name := c.dialect.correct r.name, valueType }

/-- The declaration of a resource. -/
def declareResource (c : Context) (r : Resource) : Except GenerationError Declared := do
  let decl ← c.resourceDecl r
  match r.kind.form? with
  | some form => c.dialect.resource form decl
  | none => .error (.illegalResourceKind r.name r.kind)

end Context

/-! ## Requests -/

/-- The lines of the resources' declarations; notes about a resource are made at its turn. -/
def resourceLines (c : Context) : List Resource → Request (List Line)
  | [] => pure []
  | r :: rest => do
    let declared ← Request.ofExcept (c.declareResource r)
    declared.log.forM Request.note
    let others ← resourceLines c rest
    return declared.lines ++ others

/-- The entry function of a request and its stage, if the dialect has such entries. -/
def findEntry (d : Dialect) (c : Code) (entry : String) :
    Except GenerationError (Function × Stage) :=
  match c.function? entry with
  | none => .error (.entryNotFound entry)
  | some f =>
    match f.role.stage? with
    | none => .error (.invalidEntry entry .notAnEntry)
    | some stage =>
      if d.supports stage then .ok (f, stage)
      else .error (.unsupported (.stageEntry stage d.name) .unknown)

/-- The first phase: the layout of the entry, and the resolution of every type that the reachable
functions and the resources name. -/
def resolveRequest (d : Dialect) (c : Code) (depth : Nat) (f : Function) (stage : Stage)
    (functions : List Function) : Request EntryLayout := do
  let layout ← planEntry d depth f stage
  functions.forM (resolveFunction d depth)
  (c.resources.items.filterMap (·.valueType)).forM fun type => do
    let _ ← resolveType d depth type
  return layout

/-- The second phase: the lines of the document. -/
def documentLines (c : Context) (stage : Stage) (precision : FloatPrecision)
    (functions : List Function) (layout : EntryLayout) : Request (List Line) := do
  let structures ← Request.ofExcept c.structureDecls
  let resources ← resourceLines c c.code.resources.items
  let bodies ← Request.ofExcept (functions.mapM (c.functionLines stage))
  return c.dialect.header stage precision ++ structures.flatMap c.dialect.structureLines ++
    resources ++ bodies.flatten ++ mainLines c.dialect layout

/-- The lines of the shader of an entry on a dialect. -/
def documentRequest (d : Dialect) (c : Code) (depth : Nat) (entry : String)
    (options : Options) : Request (List Line) := do
  let (f, stage) ← Request.ofExcept (findEntry d c entry)
  Request.note
    ⟨.debug, s!"generating `{entry}` ({stage.text}) for {d.name} with {options.text}"⟩
  let functions ← Request.ofExcept (c.reachable f)
  let layout ← resolveRequest d c depth f stage functions
  let structures := (← get).structures
  Request.note ⟨.debug,
    s!"`{entry}` reaches {functions.length} function(s) and {structures.length} structure(s)"⟩
  documentLines ⟨d, c, structures⟩ stage options.floatPrecision functions layout

/-- The query of a generation request. -/
def shaderQuery (d : Dialect) (c : Code) (depth : Nat) (entry : String) (options : Options) :
    Query (Except GenerationError Shader) := do
  let (result, resolution) ← (documentRequest d c depth entry options).toQuery
  return result.map fun lines =>
    { text := renderLines options.indent lines, diagnostics := resolution.diagnostics }

/-- One more than the number of names that can ever be registered with a program. -/
def Program.nestingBound (p : Program) (symbols : Symbols) : Nat :=
  p.structures.length + symbols.length + 1

/-- The result of a generation request, the program after it, and the request's notes. -/
structure Generated where
  result : Except GenerationError Shader
  program : Program
  log : List LogRecord

/-- Generate the shader of an entry on a dialect, where structures nest at most `depth` deep.  The
program changes only by structures that the request discovers, also if the request fails. -/
def Program.generateFrom (p : Program) (symbols : SymbolSource) (depth : Nat) (d : Dialect)
    (entry : String) (options : Options) : Generated :=
  let outcome := (shaderQuery d p.toCode depth entry options).run symbols p.structures
  { result := outcome.value
    program := { p with structures := outcome.structures }
    log := outcome.log }

/-- Generate the shader of an entry on a dialect.  With a table of declarations, a deeper nesting than
`nestingBound` repeats a name. -/
def Program.generate (p : Program) (symbols : Symbols) (d : Dialect) (entry : String)
    (options : Options) : Generated :=
  p.generateFrom symbols (p.nestingBound symbols) d entry options

end CrossShader

import CrossShader.Dialect.Basic
import CrossShader.Query
import CrossShader.Traversal

/-!
# Type resolution

Before anything is written, a request resolves every type that its entry reaches: a type is either
mapped by the dialect, or a structure that is registered or can be discovered.  Resolution is the
only part of a request that asks questions.

* `Resolution` — the structures resolved so far, and the diagnostics.
* `Request` — computations of a request.
* `resolveStructure`, `resolveType` — a name, or a type reference.
* `Function.typeUses`, `resolveFunction` — all types that a function's signature and body name.

A structure is entered after the structures of its fields, so the tail behind an entry of
`Resolution.structures` holds everything that the entry's fields name.
-/

set_option autoImplicit false

namespace CrossShader

/-- What a request has resolved so far: structures by canonical name, the latest first, and
diagnostics in order. -/
structure Resolution where
  structures : List (String × Structure) := []
  diagnostics : List Diagnostic := []
  deriving DecidableEq, Repr

/-- Computations of a request: they may fail, and they keep the resolution up to date. -/
abbrev Request := ExceptT GenerationError (StateT Resolution Query)

namespace Request

variable {α : Type}

/-- A computation that needs nothing of the request. -/
def ofExcept : Except GenerationError α → Request α
  | .ok value => pure value
  | .error e => throw e

/-- Make a note. -/
def note (record : LogRecord) : Request Unit :=
  ExceptT.lift (StateT.lift (Query.note record (.answer ())))

/-- Ask what a name stands for. -/
def discover (name : String) : Request (Except DiscoveryFailure Structure) :=
  ExceptT.lift (StateT.lift (Query.discover name .answer))

/-- The query of a request that starts without resolved structures. -/
def toQuery (r : Request α) : Query (Except GenerationError α × Resolution) :=
  (ExceptT.run r).run {}

end Request

/-- The canonical name of the resolved structure that has a target name. -/
def claimant? (d : Dialect) (structures : List (String × Structure)) (target : String) :
    Option String :=
  (structures.find? fun entry => d.structureTypeName entry.1 == target).map (·.1)

/-- Enter a structure whose fields are resolved; its target name must be free. -/
def enterStructure (d : Dialect) (name : String) (definition : Structure) : Request Unit := do
  let target := d.structureTypeName name
  match claimant? d (← get).structures target with
  | some other => throw (.unsupported (.sharedTypeName other name target) .unknown)
  | none => modify fun r => { r with structures := (name, definition) :: r.structures }

/-- Resolve a structure by its canonical name.  `path` holds the structures whose fields are being
resolved, and `depth` bounds their number; a nesting deeper than the number of names that can be
discovered repeats a name. -/
def resolveStructure (d : Dialect) (depth : Nat) (path : List String) (name : String)
    (onFailure : DiscoveryFailure → GenerationError) : Request Structure := do
  match (← get).structures.lookup name with
  | some definition => pure definition
  | none =>
    if path.contains name then throw (.unsupported (.selfContaining name) .unknown)
    else
      match depth with
      | 0 => throw (.unsupported (.selfContaining name) .unknown)
      | depth + 1 =>
        match ← Request.discover name with
        | .error reason => throw (onFailure reason)
        | .ok definition =>
          definition.fields.forM fun field =>
            match d.mapType field.type.name with
            | some _ => pure ()
            | none => do
              let _ ← resolveStructure d depth (name :: path) field.type.name fun _ =>
                .unknownType field.type.name
          enterStructure d name definition
          pure definition
termination_by structural depth

/-- The target type of a reference; a name that the dialect does not map is resolved as a
structure. -/
def resolveType (d : Dialect) (depth : Nat) (type : TypeRef) : Request String :=
  match d.mapType type.name with
  | some mapped => pure mapped
  | none => do
    let _ ← resolveStructure d depth [] type.name fun _ => .unknownType type.name
    pure (d.structureTypeName type.name)

/-- Resolve a structure that the entry cannot do without. -/
def requireStructure (d : Dialect) (depth : Nat) (name : String) : Request Structure :=
  resolveStructure d depth [] name (.unresolvedType name)

/-- The type that a node of a body names: of a local, a new value or a conversion, or the declaring
type of a member that the dialect does not know. -/
def Located.typeUse? (d : Dialect) (n : Located) : Option TypeRef :=
  match n.node with
  | .stmt (.declare _ _ type _ _) => some type
  | .stmt _ => none
  | .expr (.construct type _) => some type
  | .expr (.cast type _) => some type
  | .expr (.member _ type _) => if d.identifiers.knowsType type.name then none else some type
  | .expr _ => none

/-- The types that a function names: its result, its parameters, then those of its body in lexical
order. -/
def Function.typeUses (d : Dialect) (f : Function) : List TypeRef :=
  f.returnType :: f.parameters.map (·.type) ++ (Block.nodes f.body).filterMap (Located.typeUse? d)

/-- Resolve the types that a function names. -/
def resolveFunction (d : Dialect) (depth : Nat) (f : Function) : Request Unit :=
  (f.typeUses d).forM fun type => do
    let _ ← resolveType d depth type

end CrossShader

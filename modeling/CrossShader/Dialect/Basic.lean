import CrossShader.Dialect.Identifiers
import CrossShader.Dialect.Intrinsic
import CrossShader.Error
import CrossShader.Options

/-!
# Dialects

A dialect is a target shading language: its tables, and its own syntax for each part of a document.
Traversal order, type resolution and the layout of stage interfaces are the same for all dialects
and are not part of it.

* `StructureDecl`, `ResourceDecl` — declarations that are ready to be written.
* `Dialect` — tables and syntax; every part that most targets share has a default.
-/

set_option autoImplicit false

namespace CrossShader

open Text

/-- A field that is ready to be written; `count` is its fixed element count, if positive. -/
structure FieldDecl where
  type : String
  name : String
  count : Nat
  deriving DecidableEq, Repr

/-- A structure that is ready to be written. -/
structure StructureDecl where
  name : String
  fields : List FieldDecl
  deriving DecidableEq, Repr

/-- A field declaration. -/
def FieldDecl.text (f : FieldDecl) : String :=
  s!"{f.type} {f.name}{countSuffix f.count};"

/-- A structure declaration with its fields between braces, and an empty line. -/
def StructureDecl.lines (s : StructureDecl) : List Line :=
  [.flush s!"struct {s.name}", .flush "\x7b"] ++ s.fields.map (fun f => .inner f.text) ++
    [.flush "\x7d;", .blank]

/-- The forms in which resources are declared. -/
inductive ResourceForm where
  | uniform
  | texture2D
  | textureCube
  | sampler
  | buffer (writable : Bool)
  deriving DecidableEq, Repr

/-- The form of a kind; kinds that no target knows have none. -/
def ResourceKind.form? : ResourceKind → Option ResourceForm
  | uniform => some .uniform
  | texture2D => some .texture2D
  | textureCube => some .textureCube
  | sampler => some .sampler
  | structuredBuffer => some (.buffer false)
  | rwStructuredBuffer => some (.buffer true)
  | other _ => none

/-- A resource that is ready to be written. -/
structure ResourceDecl where
  resource : Resource
  /-- Target name. -/
  name : String
  /-- Target type of the block or element, if there is one. -/
  valueType : Option String
  deriving DecidableEq, Repr

/-- The value type; a declaration that needs one fails without it. -/
def ResourceDecl.requireValueType (d : ResourceDecl) : Except GenerationError String :=
  match d.valueType with
  | some type => .ok type
  | none => .error (.missingValueType d.resource.name)

/-- The lines of a declaration, and notes about it. -/
structure Declared where
  lines : List Line
  log : List LogRecord := []
  deriving DecidableEq, Repr

/-- A target shading language. -/
structure Dialect where
  /-- Name for readers. -/
  name : String
  /-- Target identifiers, the primary one first. -/
  targets : List String
  /-- Spellings of host types. -/
  types : Table String String
  identifiers : Identifiers
  intrinsics : Table String Intrinsic
  /-- Whether the target has entry points of a stage. -/
  supports : Stage → Bool
  /-- Spelling of a host type that is not a structure. -/
  mapType : String → Option String := types.get?
  /-- Spelling of a member of a host type that is not a structure. -/
  mapMember : String → String → Option String := identifiers.member
  /-- Target name of a source name. -/
  correct : String → String := identifiers.correct
  /-- Target name of a structure. -/
  structureTypeName : String → String := fun canonical => correct (flattenDots canonical)
  /-- The zero of a target type, given whether it is a structure; none if structures are to be
  built field by field. -/
  zeroValue : String → Bool → Option String
  /-- A new value of a target type, given whether it is a structure; none if there is no such
  form. -/
  construct : String → Bool → List String → Option String := fun type _ arguments =>
    some (callText type arguments)
  /-- The truncating remainder of two floating-point operands. -/
  floatRemainder : String → String → String := fun left right => s!"{left} % {right}"
  /-- How function bodies refer to a resource. -/
  resourceReference : Resource → String := fun r => correct r.name
  /-- Version, extensions and default precision. -/
  header : Stage → FloatPrecision → List Line
  structureLines : StructureDecl → List Line := StructureDecl.lines
  resource : ResourceForm → ResourceDecl → Except GenerationError Declared
  /-- Opens the group of stage variables of a direction. -/
  interfaceBegin : Direction → EntryLayout → List Line := fun _ _ => []
  stageVariable : StageVariable → List Line
  /-- Declares the clip-space position of a vertex entry. -/
  positionOutput : EntryLayout → List Line := fun _ => []
  /-- Closes the group of stage variables of a direction. -/
  interfaceEnd : Direction → EntryLayout → List Line := fun _ _ => []
  /-- What stands before the signature of `main`. -/
  mainAttributes : EntryLayout → List Line := fun _ => []
  mainSignature : EntryLayout → String
  /-- Where `main` reads or writes a stage variable. -/
  access : StageVariable → Place := fun v => .whole v.name
  /-- Where `main` stores the clip-space position. -/
  positionTarget : Place
  /-- First steps of `main`. -/
  prologue : EntryLayout → List Step := fun _ => []
  /-- Last steps of `main`. -/
  epilogue : EntryLayout → List Step := fun _ => []

end CrossShader

import CrossShader.Dialect.Basic

/-!
# GLSL

Three versions of the OpenGL shading language: ES 3.00, desktop 3.30, and 4.50 with explicit
descriptor sets, bindings and separate sampler objects.

On ES 3.00 and 3.30 only vertex inputs and fragment outputs have a location; on 4.50 every stage
variable has one.
-/

set_option autoImplicit false

namespace CrossShader.Glsl

open Text

/-- A version of the language. -/
inductive Version where
  | es300
  | core330
  | core450
  deriving DecidableEq, Repr

namespace Version

/-- Whether textures and samplers are separate objects that meet where a texture is sampled. -/
def separateSamplers : Version → Bool
  | es300 | core330 => false
  | core450 => true

/-- Whether resources have sets and bindings, and every stage variable a location. -/
def explicitLayout : Version → Bool
  | es300 | core330 => false
  | core450 => true

/-- The version's name. -/
def text : Version → String
  | es300 => "GLSL ES 3.00"
  | core330 => "GLSL 3.30"
  | core450 => "GLSL 4.50"

/-- Target identifiers of the version. -/
def targets : Version → List String
  | es300 => ["glsl-es300", "essl300"]
  | core330 => ["glsl330"]
  | core450 => ["glsl450"]

end Version

/-! ## Tables -/

/-- Keywords, reserved words, and the names that `main` uses. -/
def reserved : List String :=
  ["active", "asm", "atomic_uint", "attribute", "bool", "break", "buffer", "bvec2", "bvec3",
   "bvec4", "case", "cast", "centroid", "class", "coherent", "common", "const", "continue",
   "default", "discard", "dmat2", "dmat3", "dmat4", "do", "double", "dvec2", "dvec3", "dvec4",
   "else", "enum", "extern", "external", "false", "filter", "fixed", "flat", "float", "for",
   "goto", "half", "highp", "if", "in", "inline", "input", "int", "interface", "invariant",
   "inout", "isampler2D", "isamplerCube", "ivec2", "ivec3", "ivec4", "layout", "long", "lowp",
   "main", "mat2", "mat3", "mat4", "mediump", "namespace", "noinline", "noperspective", "out",
   "output", "partition", "patch", "precise", "precision", "public", "readonly", "resource",
   "restrict", "return", "sample", "sampler", "sampler2D", "samplerCube", "shared", "short",
   "sizeof", "smooth", "static", "struct", "subroutine", "superp", "switch", "template",
   "texture2D", "textureCube", "this", "true", "typedef", "uint", "uniform", "union",
   "unsigned", "using", "uvec2", "uvec3", "uvec4", "varying", "vec2", "vec3", "vec4", "void",
   "volatile", "while", "writeonly"]

/-- Spellings of host types. -/
def types (version : Version) : Table String String :=
  let shared :=
    [(Host.void, "void"), (Host.bool, "bool"), (Host.int, "int"), (Host.uint, "uint"),
     (Host.float, "float"), (Host.vector2, "vec2"), (Host.vector3, "vec3"),
     (Host.vector4, "vec4"), (Host.matrix4x4, "mat4")]
  ⟨shared ++
    if version.separateSamplers then
      [(Host.texture2D, "texture2D"), (Host.textureCube, "textureCube"), (Host.sampler, "sampler")]
    else
      [(Host.texture2D, "sampler2D"), (Host.textureCube, "samplerCube")]⟩

/-- Members of types, and reserved words. -/
def identifiers : Identifiers where
  reserved := reserved
  statics :=
    ⟨[((Host.vector2, "Zero"), "vec2(0.0)"), ((Host.vector2, "One"), "vec2(1.0)"),
      ((Host.vector3, "Zero"), "vec3(0.0)"), ((Host.vector3, "One"), "vec3(1.0)"),
      ((Host.vector4, "Zero"), "vec4(0.0)"), ((Host.vector4, "One"), "vec4(1.0)"),
      ((Host.matrix4x4, "Identity"), "mat4(1.0)"),
      ((Host.math, "PI"), "3.14159265358979"), ((Host.math, "E"), "2.71828182845905")]⟩

/-- Limits a value to the range from zero to one. -/
def saturate : Intrinsic := .custom fun
  | [x] => some s!"clamp({x.text}, 0.0, 1.0)"
  | _ => none

/-- Samples a texture that has its sampler built in. -/
def sampleCombined : Intrinsic := .custom fun
  | [texture, _, coordinates] => some s!"texture({texture.text}, {coordinates.text})"
  | _ => none

/-- The type that combines a texture with a sampler. -/
def combinedSampler : ResourceKind → Option String
  | .texture2D => some "sampler2D"
  | .textureCube => some "samplerCube"
  | .uniform | .sampler | .structuredBuffer | .rwStructuredBuffer | .other _ => none

/-- Samples a texture through a sampler object; the texture has to be a resource itself. -/
def sampleSeparate : Intrinsic := .custom fun
  | [texture, sampler, coordinates] => do
    let combined ← combinedSampler (← texture.resource)
    return s!"texture({combined}({texture.text}, {sampler.text}), {coordinates.text})"
  | _ => none

/-- Methods of every vector type, with their functions. -/
def vectorMethods : List (String × String) :=
  [("Dot", "dot"), ("Normalize", "normalize"), ("Length", "length"), ("Distance", "distance"),
   ("Lerp", "mix"), ("Min", "min"), ("Max", "max"), ("Abs", "abs"), ("Clamp", "clamp"),
   ("SquareRoot", "sqrt"), ("Reflect", "reflect")]

/-- Methods of the math library, with their functions. -/
def mathMethods : List (String × String) :=
  [("Sin", "sin"), ("Cos", "cos"), ("Tan", "tan"), ("Asin", "asin"), ("Acos", "acos"),
   ("Atan", "atan"), ("Atan2", "atan"), ("Pow", "pow"), ("Sqrt", "sqrt"), ("Abs", "abs"),
   ("Floor", "floor"), ("Ceiling", "ceil"), ("Exp", "exp"), ("Log", "log"), ("Min", "min"),
   ("Max", "max"), ("Clamp", "clamp")]

/-- Forms of library calls. -/
def intrinsics (version : Version) : Table String Intrinsic :=
  ⟨vectorMethods.flatMap (fun m => Intrinsic.onVectors m.1 (.rename m.2)) ++
    [(s!"{Host.vector3}.Cross", .rename "cross")] ++
    mathMethods.map (fun m => Intrinsic.onMath m.1 (.rename m.2)) ++
    [Intrinsic.onBuiltins "Mul" .product,
     Intrinsic.onBuiltins "Saturate" saturate,
     Intrinsic.onBuiltins "Frac" (.rename "fract"),
     Intrinsic.onBuiltins "Mod" (.rename "mod"),
     Intrinsic.onBuiltins "Ddx" (.rename "dFdx"),
     Intrinsic.onBuiltins "Ddy" (.rename "dFdy"),
     Intrinsic.onBuiltins "Sample"
       (if version.separateSamplers then sampleSeparate else sampleCombined)]⟩

/-! ## Syntax of the parts -/

/-- The precision qualifier. -/
def precision : FloatPrecision → String
  | .low => "lowp"
  | .medium => "mediump"
  | .high => "highp"

/-- The header; only ES 3.00 declares default precisions. -/
def header (version : Version) (p : FloatPrecision) : List Line :=
  match version with
  | .es300 =>
    [.flush "#version 300 es", .flush s!"precision {precision p} float;",
     .flush s!"precision {precision p} int;", .blank]
  | .core330 => [.flush "#version 330 core", .blank]
  | .core450 => [.flush "#version 450", .blank]

/-- The member of the block around a uniform or buffer. -/
def blockMember (r : Resource) : String := s!"field_{r.name}"

/-- A block with one member, and an empty line. -/
def block (heading member : String) : List Line :=
  [.flush heading, .flush "\x7b", .inner member, .flush "\x7d;", .blank]

/-- An opaque resource, with its set and binding where the version has them. -/
def objectLines (version : Version) (type : String) (d : ResourceDecl) : List Line :=
  let qualifier :=
    if version.explicitLayout then s!"layout(set = 0, binding = {d.resource.binding}) " else ""
  [.flush s!"{qualifier}uniform {type} {d.name};", .blank]

/-- A resource declaration.  Where textures have their samplers built in, a sampler object is only
noted; structured buffers need explicit layouts. -/
def resource (version : Version) : ResourceForm → ResourceDecl → Except GenerationError Declared
  | .uniform, d => do
    let type ← d.requireValueType
    let qualifiers :=
      if version.explicitLayout then s!"std140, set = 0, binding = {d.resource.binding}"
      else "std140"
    return ⟨block s!"layout({qualifiers}) uniform {d.name}" s!"{type} {blockMember d.resource};", []⟩
  | .texture2D, d =>
    let type := if version.separateSamplers then "texture2D" else "sampler2D"
    .ok ⟨objectLines version type d, []⟩
  | .textureCube, d =>
    let type := if version.separateSamplers then "textureCube" else "samplerCube"
    .ok ⟨objectLines version type d, []⟩
  | .sampler, d =>
    if version.separateSamplers then .ok ⟨objectLines version "sampler" d, []⟩
    else
      .ok ⟨[], [⟨.debug, s!"sampler `{d.name}` not declared on {version.text}; textures carry " ++
        "their own sampling state"⟩]⟩
  | .buffer writable, d =>
    if version.explicitLayout then do
      let type ← d.requireValueType
      let access := if writable then "" else "readonly "
      let layout := s!"layout(std430, set = 0, binding = {d.resource.binding})"
      return ⟨block s!"{layout} {access}buffer {d.name}" s!"{type} {blockMember d.resource}[];", []⟩
    else .error (.unsupported (.structuredBuffer d.resource.name version.text) .unknown)

/-- Whether a stage variable has a location. -/
def isLocated (version : Version) (v : StageVariable) : Bool :=
  version.explicitLayout ||
    match v.stage, v.direction with
    | .vertex, .input | .fragment, .output => true
    | _, _ => false

/-- A stage variable. -/
def stageVariable (version : Version) (v : StageVariable) : List Line :=
  let location := if isLocated version v then s!"layout(location = {v.slot}) " else ""
  [.flush s!"{location}{v.direction.text} {v.type} {v.name};"]

/-- The extent of a compute workgroup. -/
def mainAttributes (layout : EntryLayout) : List Line :=
  match layout.stage with
  | .compute =>
    let w := layout.workgroup
    [.flush s!"layout(local_size_x = {w.x}, local_size_y = {w.y}, local_size_z = {w.z}) in;",
     .blank]
  | .vertex | .fragment => []

/-- A version of GLSL as a dialect.  The remainder of floats is spelled out, since `%` is for
integers only. -/
def dialect (version : Version) : Dialect where
  name := version.text
  targets := version.targets
  types := types version
  identifiers := identifiers
  intrinsics := intrinsics version
  supports stage := stage != .compute || version == .core450
  zeroValue type isStructure := if isStructure then none else some s!"{type}(0)"
  floatRemainder left right := s!"{left} - {right} * trunc({left} / {right})"
  resourceReference r :=
    if r.kind.needsValueType then blockMember r else identifiers.correct r.name
  header _ p := header version p
  resource := resource version
  stageVariable := stageVariable version
  mainAttributes := mainAttributes
  mainSignature _ := "void main()"
  positionTarget := .whole "gl_Position"

end CrossShader.Glsl

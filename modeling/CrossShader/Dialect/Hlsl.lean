import CrossShader.Dialect.Basic

/-!
# HLSL

The high-level shading language in the style of shader model 5: constant buffers, explicit registers,
and stage interfaces that are structures with semantics.  `main` takes one of these structures and
returns the other.
-/

set_option autoImplicit false

namespace CrossShader.Hlsl

open Text

/-! ## Tables -/

/-- Keywords, reserved words, and `main`. -/
def reserved : List String :=
  ["AppendStructuredBuffer", "BlendState", "Buffer", "ByteAddressBuffer", "ComputeShader",
   "ConsumeStructuredBuffer", "DepthStencilState", "DomainShader", "GeometryShader", "HullShader",
   "InputPatch", "LineStream", "NULL", "OutputPatch", "PixelShader", "PointStream",
   "RWBuffer", "RWByteAddressBuffer", "RWStructuredBuffer", "RWTexture2D", "RasterizerState",
   "SamplerComparisonState", "SamplerState", "StructuredBuffer", "Texture1D", "Texture2D",
   "Texture3D", "TextureCube", "TriangleStream", "VertexShader", "asm", "bool", "break",
   "case", "cbuffer", "centroid", "class", "column_major", "compile", "const", "continue",
   "default", "discard", "do", "double", "dword", "else", "export", "extern", "false",
   "float", "float2", "float3", "float4", "float4x4", "for", "groupshared", "half", "if",
   "in", "inline", "inout", "int", "interface", "line", "lineadj", "linear", "main",
   "matrix", "namespace", "nointerpolation", "noperspective", "out", "packoffset", "pass",
   "point", "precise", "register", "return", "row_major", "sample", "sampler", "shared",
   "snorm", "static", "string", "struct", "switch", "tbuffer", "technique", "texture",
   "triangle", "triangleadj", "true", "typedef", "uint", "uniform", "unorm", "unsigned",
   "vector", "void", "volatile", "while"]

/-- Spellings of host types. -/
def types : Table String String :=
  ⟨[(Host.void, "void"), (Host.bool, "bool"), (Host.int, "int"), (Host.uint, "uint"),
    (Host.float, "float"), (Host.vector2, "float2"), (Host.vector3, "float3"),
    (Host.vector4, "float4"), (Host.matrix4x4, "float4x4"), (Host.texture2D, "Texture2D"),
    (Host.textureCube, "TextureCube"), (Host.sampler, "SamplerState")]⟩

/-- Members of types, and reserved words. -/
def identifiers : Identifiers where
  reserved := reserved
  statics :=
    ⟨[((Host.vector2, "Zero"), "float2(0.0, 0.0)"), ((Host.vector2, "One"), "float2(1.0, 1.0)"),
      ((Host.vector3, "Zero"), "float3(0.0, 0.0, 0.0)"),
      ((Host.vector3, "One"), "float3(1.0, 1.0, 1.0)"),
      ((Host.vector4, "Zero"), "float4(0.0, 0.0, 0.0, 0.0)"),
      ((Host.vector4, "One"), "float4(1.0, 1.0, 1.0, 1.0)"),
      ((Host.matrix4x4, "Identity"),
        "float4x4(1, 0, 0, 0, 0, 1, 0, 0, 0, 0, 1, 0, 0, 0, 0, 1)"),
      ((Host.math, "PI"), "3.14159265358979"), ((Host.math, "E"), "2.71828182845905")]⟩

/-- The remainder whose quotient is rounded down. -/
def flooredRemainder : Intrinsic := .custom fun
  | [x, y] => some s!"({x.operand} - {y.operand} * floor({x.operand} / {y.operand}))"
  | _ => none

/-- Samples a texture by its method. -/
def sample : Intrinsic := .custom fun
  | [texture, sampler, coordinates] =>
    some s!"{texture.operand}.Sample({sampler.text}, {coordinates.text})"
  | _ => none

/-- Methods of every vector type, with their functions. -/
def vectorMethods : List (String × String) :=
  [("Dot", "dot"), ("Normalize", "normalize"), ("Length", "length"), ("Distance", "distance"),
   ("Lerp", "lerp"), ("Min", "min"), ("Max", "max"), ("Abs", "abs"), ("Clamp", "clamp"),
   ("SquareRoot", "sqrt"), ("Reflect", "reflect")]

/-- Methods of the math library, with their functions. -/
def mathMethods : List (String × String) :=
  [("Sin", "sin"), ("Cos", "cos"), ("Tan", "tan"), ("Asin", "asin"), ("Acos", "acos"),
   ("Atan", "atan"), ("Atan2", "atan2"), ("Pow", "pow"), ("Sqrt", "sqrt"), ("Abs", "abs"),
   ("Floor", "floor"), ("Ceiling", "ceil"), ("Exp", "exp"), ("Log", "log"), ("Min", "min"),
   ("Max", "max"), ("Clamp", "clamp")]

/-- Forms of library calls. -/
def intrinsics : Table String Intrinsic :=
  ⟨vectorMethods.flatMap (fun m => Intrinsic.onVectors m.1 (.rename m.2)) ++
    [(s!"{Host.vector3}.Cross", .rename "cross")] ++
    mathMethods.map (fun m => Intrinsic.onMath m.1 (.rename m.2)) ++
    [Intrinsic.onBuiltins "Mul" (.rename "mul"),
     Intrinsic.onBuiltins "Saturate" (.rename "saturate"),
     Intrinsic.onBuiltins "Frac" (.rename "frac"),
     Intrinsic.onBuiltins "Ddx" (.rename "ddx"),
     Intrinsic.onBuiltins "Ddy" (.rename "ddy"),
     Intrinsic.onBuiltins "Mod" flooredRemainder,
     Intrinsic.onBuiltins "Sample" sample]⟩

/-! ## Syntax of the parts -/

/-- The parameter of `main`. -/
def stageInput : String := "stage_input"

/-- The local that `main` fills and returns. -/
def stageOutput : String := "stage_output"

/-- The member that holds the clip-space position. -/
def positionMember : String := "_position_"

/-- The structure of the stage variables of a direction. -/
def interfaceType (layout : EntryLayout) : Direction → String
  | .input => s!"{layout.entry}_StageInput"
  | .output => s!"{layout.entry}_StageOutput"

/-- A declaration with its register, and an empty line. -/
def registered (heading : String) (letter : String) (d : ResourceDecl) : List Line :=
  [.flush s!"{heading} {d.name} : register({letter}{d.resource.binding});", .blank]

/-- A resource declaration. -/
def resource : ResourceForm → ResourceDecl → Except GenerationError Declared
  | .uniform, d => do
    let type ← d.requireValueType
    return ⟨[.flush s!"cbuffer {d.name}Buffer : register(b{d.resource.binding})", .flush "\x7b",
      .inner s!"{type} {d.name};", .flush "\x7d;", .blank], []⟩
  | .texture2D, d => .ok ⟨registered "Texture2D" "t" d, []⟩
  | .textureCube, d => .ok ⟨registered "TextureCube" "t" d, []⟩
  | .sampler, d => .ok ⟨registered "SamplerState" "s" d, []⟩
  | .buffer writable, d => do
    let type ← d.requireValueType
    return ⟨if writable then registered s!"RWStructuredBuffer<{type}>" "u" d
      else registered s!"StructuredBuffer<{type}>" "t" d, []⟩

/-- The semantic that matches a stage variable with the other side. -/
def slotSemantic (v : StageVariable) : String :=
  match v.stage, v.direction with
  | .fragment, .output => s!"SV_Target{v.slot}"
  | _, _ => s!"TEXCOORD{v.slot}"

/-- The signature of `main`. -/
def mainSignature (layout : EntryLayout) : String :=
  match layout.stage with
  | .compute => "void main()"
  | .vertex | .fragment =>
    s!"{interfaceType layout .output} main({interfaceType layout .input} {stageInput})"

/-- The extent of a compute workgroup. -/
def mainAttributes (layout : EntryLayout) : List Line :=
  match layout.stage with
  | .compute => [.flush s!"[numthreads{layout.workgroup.text}]"]
  | .vertex | .fragment => []

/-- Where `main` finds a stage variable. -/
def access (v : StageVariable) : Place :=
  match v.direction with
  | .input => .member stageInput v.name
  | .output => .member stageOutput v.name

/-- The declaration of the result of `main`. -/
def prologue (layout : EntryLayout) : List Step :=
  match layout.stage with
  | .compute => []
  | .vertex | .fragment => [.declare (interfaceType layout .output) stageOutput]

/-- The return of the result of `main`. -/
def epilogue (layout : EntryLayout) : List Step :=
  match layout.stage with
  | .compute => []
  | .vertex | .fragment => [.ret stageOutput]

/-- HLSL as a dialect.  A cast of zero fills any type; structures have no constructors. -/
def dialect : Dialect where
  name := "HLSL"
  targets := ["hlsl"]
  types := types
  identifiers := identifiers
  intrinsics := intrinsics
  supports _ := true
  zeroValue type _ := some s!"({type})0"
  construct type isStructure arguments :=
    if isStructure then none else some (callText type arguments)
  header _ _ := []
  resource := resource
  interfaceBegin direction layout :=
    [.flush s!"struct {interfaceType layout direction}", .flush "\x7b"]
  stageVariable v := [.inner s!"{v.type} {v.name} : {slotSemantic v};"]
  positionOutput _ := [.inner s!"float4 {positionMember} : SV_Position;"]
  interfaceEnd direction _ :=
    match direction with
    | .input => [.flush "\x7d;", .blank]
    | .output => [.flush "\x7d;"]
  mainAttributes := mainAttributes
  mainSignature := mainSignature
  access := access
  positionTarget := .member stageOutput positionMember
  prologue := prologue
  epilogue := epilogue

end CrossShader.Hlsl

/-!
# Host names

Canonical names of the host types and libraries that shader sources refer to.
-/

set_option autoImplicit false

namespace CrossShader.Host

def void : String := "System.Void"
def bool : String := "System.Boolean"
def int : String := "System.Int32"
def uint : String := "System.UInt32"
def float : String := "System.Single"
def vector2 : String := "System.Numerics.Vector2"
def vector3 : String := "System.Numerics.Vector3"
def vector4 : String := "System.Numerics.Vector4"
def matrix4x4 : String := "System.Numerics.Matrix4x4"
def math : String := "System.MathF"
def builtins : String := "Shadegen.ShaderBuiltins"
def texture2D : String := "Shadegen.Texture2DResource"
def textureCube : String := "Shadegen.TextureCubeResource"
def sampler : String := "Shadegen.SamplerResource"

/-- The vector types by ascending width. -/
def vectors : List String := [vector2, vector3, vector4]

/-- The number of components of a vector type. -/
def vectorWidth (name : String) : Option Nat :=
  if name = vector2 then some 2
  else if name = vector3 then some 3
  else if name = vector4 then some 4
  else none

/-- Whether a type is a floating-point scalar, vector or matrix. -/
def isFloating (name : String) : Bool :=
  name == float || name == matrix4x4 || (vectorWidth name).isSome

end CrossShader.Host

import CrossShader.Roster
import CrossShader.TypeRef

/-!
# Resources

Module-level resources: uniform blocks, textures, samplers and structured buffers, each bound to a
slot.
-/

set_option autoImplicit false

namespace CrossShader

/-- The declared kind of a resource; kinds that no target knows keep their number. -/
inductive ResourceKind where
  | uniform
  | texture2D
  | textureCube
  | sampler
  | structuredBuffer
  | rwStructuredBuffer
  | other (raw : Nat)
  deriving DecidableEq, Repr

namespace ResourceKind

/-- The kind in listings and messages. -/
def text : ResourceKind → String
  | uniform => "uniform"
  | texture2D => "texture2d"
  | textureCube => "texture_cube"
  | sampler => "sampler"
  | structuredBuffer => "structured_buffer"
  | rwStructuredBuffer => "rw_structured_buffer"
  | other raw => s!"unknown({raw})"

/-- Whether a resource of the kind holds values of a declared type. -/
def needsValueType : ResourceKind → Bool
  | uniform | structuredBuffer | rwStructuredBuffer => true
  | texture2D | textureCube | sampler | other _ => false

end ResourceKind

/-- A resource; `valueType` is the block or element type of kinds that have one. -/
structure Resource where
  name : String
  kind : ResourceKind
  binding : Nat
  valueType : Option TypeRef := none
  deriving DecidableEq, Repr

instance : Named Resource := ⟨Resource.name⟩

end CrossShader

import CrossShader.TypeRef

/-!
# Structures

Host structures: named lists of fields.  A field may carry a fixed element count and a semantic tag
that says which part it plays in a stage interface.
-/

set_option autoImplicit false

namespace CrossShader

/-- The part a field plays in a stage interface. -/
inductive Semantic where
  | untagged
  | position
  | textureCoordinate
  | color
  | normal
  | tangent
  deriving DecidableEq, Repr

/-- The tag in listings. -/
def Semantic.text : Semantic → String
  | .untagged => "none"
  | .position => "position"
  | .textureCoordinate => "texcoord"
  | .color => "color"
  | .normal => "normal"
  | .tangent => "tangent"

/-- A field of a structure; `count` is its fixed element count, zero for a single value. -/
structure Field where
  name : String
  type : TypeRef
  count : Nat := 0
  semantic : Semantic := .untagged
  deriving DecidableEq, Repr

/-- Whether the field holds a fixed number of elements. -/
def Field.isFixedArray (f : Field) : Bool := decide (0 < f.count)

/-- A named list of fields. -/
structure Structure where
  name : String
  fields : List Field
  deriving DecidableEq, Repr

namespace Structure

/-- The first field of a name. -/
def field? (s : Structure) (name : String) : Option Field :=
  s.fields.find? (·.name == name)

/-- The fields tagged as positions, in declaration order. -/
def positionFields (s : Structure) : List Field :=
  s.fields.filter (·.semantic == .position)

end Structure

end CrossShader

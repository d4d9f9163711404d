/-!
# Type references

A reference to a host type by its canonical name, or to an unsized array of such a type.
-/

set_option autoImplicit false

namespace CrossShader

/-- A host type by name; `isArray` marks an array of elements of that type. -/
structure TypeRef where
  name : String
  isArray : Bool := false
  deriving DecidableEq, Repr

/-- The name, followed by brackets for an array. -/
def TypeRef.text (t : TypeRef) : String :=
  if t.isArray then s!"{t.name}[]" else t.name

end CrossShader

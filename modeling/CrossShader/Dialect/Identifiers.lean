import CrossShader.Dialect.Table
import CrossShader.Host

/-!
# Identifiers of a dialect

How members and names are spelled on a target.

* `Swizzle.lower` — component selections of vectors.
* `Identifiers.member`, `Identifiers.static?` — members of known types and of types themselves.
* `Identifiers.correct` — renames what collides with a reserved word.
-/

set_option autoImplicit false

namespace CrossShader

/-- The host's component letters with the target's letters, by component number. -/
structure Swizzle where
  components : List (Char × Char)
  deriving Repr

namespace Swizzle

/-- Targets that spell the components `x`, `y`, `z` and `w`. -/
def xyzw : Swizzle := ⟨[('X', 'x'), ('Y', 'y'), ('Z', 'z'), ('W', 'w')]⟩

/-- A selection of one to four components of a vector with `width` components.  The limit counts
bytes, which are as many as the letters of any selection. -/
def lower (s : Swizzle) (member : String) (width : Nat) : Option String :=
  if member.utf8ByteSize = 0 ∨ 4 < member.utf8ByteSize then none
  else (member.toList.mapM fun c => (s.components.take width).lookup c).map String.ofList

end Swizzle

/-- The characters of a name before its trailing underscores. -/
def stemChars (cs : List Char) : List Char :=
  (cs.reverse.dropWhile (· == '_')).reverse

/-- A name without its trailing underscores. -/
def stem (name : String) : String := String.ofList (stemChars name.toList)

/-- A name with its dots replaced by underscores. -/
def flattenDots (name : String) : String :=
  String.ofList (name.toList.map fun c => if c = '.' then '_' else c)

/-- Member spellings and reserved words of a target. -/
structure Identifiers where
  /-- Members of values, by declaring type and member. -/
  members : Table (String × String) String := .empty
  /-- Members of types, by type and member, as complete expressions. -/
  statics : Table (String × String) String := .empty
  swizzle : Swizzle := .xyzw
  reserved : List String := []

namespace Identifiers

/-- A member of a value of a known type: a table entry, or else a swizzle of a vector. -/
def member (ids : Identifiers) (declaringType name : String) : Option String :=
  match ids.members.get? (declaringType, name) with
  | some target => some target
  | none => (Host.vectorWidth declaringType).bind (ids.swizzle.lower name)

/-- A member of a type. -/
def static? (ids : Identifiers) (type name : String) : Option String :=
  ids.statics.get? (type, name)

/-- Whether members of the type are spelled by this table, and not as structure fields. -/
def knowsType (ids : Identifiers) (type : String) : Bool :=
  (Host.vectorWidth type).isSome || ids.members.entries.any (·.1.1 == type)

/-- Whether the name is a reserved word. -/
def isReserved (ids : Identifiers) (name : String) : Bool :=
  ids.reserved.contains name

/-- The name, with one more underscore if it is a reserved word followed by any number of
underscores; so distinct names stay distinct. -/
def correct (ids : Identifiers) (name : String) : String :=
  if ids.isReserved (stem name) then name ++ "_" else name

end Identifiers

end CrossShader

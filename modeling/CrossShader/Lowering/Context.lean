import CrossShader.Dialect.Basic
import CrossShader.Program

/-!
# The context of lowering

What the second phase of a request knows: the dialect, the code of the program, and the structures
that were resolved in the first phase.

* `Context.mappedType` — the target type of a resolved reference.
* `Context.scalarType` — the same where an array cannot stand.
* `Context.zeroValue` — the default value of a type; a structure that the dialect cannot zero in one
  expression is built field by field.
-/

set_option autoImplicit false

namespace CrossShader

/-- The dialect, the code, and the resolved structures by canonical name, the latest first. -/
structure Context where
  dialect : Dialect
  code : Code
  structures : List (String × Structure)

namespace Context

/-- A resolved structure. -/
def structure? (c : Context) (name : String) : Option Structure := c.structures.lookup name

/-- The target type of a resolved reference. -/
def mappedType (c : Context) (type : TypeRef) : Except GenerationError String :=
  match c.dialect.mapType type.name with
  | some mapped => .ok mapped
  | none =>
    if (c.structure? type.name).isSome then .ok (c.dialect.structureTypeName type.name)
    else .error (.unknownType type.name)

/-- The target type of a reference where an array cannot stand. -/
def scalarType (c : Context) (loc : Location) (type : TypeRef) : Except GenerationError String :=
  if type.isArray then .error (.unsupported (.arrayValue type.name) loc) else c.mappedType type

/-- The form that a dialect gives, or an error if it gives none. -/
def expect (form : Option String) (what : Construct) (loc : Location) :
    Except GenerationError String :=
  match form with
  | some text => .ok text
  | none => .error (.unsupported what loc)

/-- The default value of a type, where `structures` are those that it may consist of.  A structure's
fields only name structures that were resolved before it. -/
def zeroValueFrom (c : Context) (loc : Location) :
    List (String × Structure) → TypeRef → Except GenerationError String
  | [], type => do
    let mapped ← c.scalarType loc type
    expect (c.dialect.zeroValue mapped false) (.defaultValue type.name) loc
  | (name, definition) :: earlier, type =>
    if type.name = name then do
      let mapped ← c.scalarType loc type
      match c.dialect.zeroValue mapped true with
      | some zero => return zero
      | none =>
        let fields ← definition.fields.mapM fun field => do
          let zero ← c.zeroValueFrom loc earlier field.type
          if field.isFixedArray then
            let element ← c.scalarType loc field.type
            expect (c.dialect.construct s!"{element}[{field.count}]" false
              (List.replicate field.count zero)) (.defaultValue type.name) loc
          else return zero
        expect (c.dialect.construct mapped true fields) (.defaultValue type.name) loc
    else c.zeroValueFrom loc earlier type

/-- The default value of a type. -/
def zeroValue (c : Context) (loc : Location) (type : TypeRef) : Except GenerationError String :=
  c.zeroValueFrom loc c.structures type

end Context

end CrossShader

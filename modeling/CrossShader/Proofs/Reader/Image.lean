import CrossShader.Dialect.Glsl
import CrossShader.Lowering.Expr
import CrossShader.Proofs.Occurrence
import CrossShader.Proofs.Reader.Grammar

/-!
# What an expression says on GLSL

The tree that the text of an expression stands for, by the expression alone: parentheses and blanks have
no part in it.

* `Literal.image` — literals; a negative number is a minus sign before its magnitude.
* `Glsl.zeroImage` — default values; a structure's is built from those of its fields, a fixed array's from
  those of its elements.
* `Glsl.libraryImage` — library calls in the forms that the language gives them.
* `Glsl.image` — expressions.
* `Expr.Legible`, `Readable` — expressions whose names are read as single words and that take no member
  of a bare number.

The image of an expression without a text is of no account.
-/

set_option autoImplicit false

namespace CrossShader

open Reader

/-- The tree of a literal. -/
def Literal.image : Literal → Tree
  | .bool value => .bool value
  | .int value =>
    if value < 0 then .unary .negate (.number (toString value.natAbs))
    else .number (toString value.natAbs)
  | .uint value => .number (toString value ++ "u")
  | .float value =>
    let magnitude := Tree.number (NumberFormat.literal.decimal value.shortest)
    if value.isNegative then .unary .negate magnitude else magnitude

namespace Glsl

/-- The call of a type or function by its name. -/
def callNamed (name : String) (arguments : List Tree) : Tree := .call (.name name) arguments

/-- The spelling of a type. -/
def typeName (version : Version) (type : TypeRef) : String :=
  ((types version).get? type.name).getD (identifiers.correct (flattenDots type.name))

/-- The default value of a type, where `structures` are those that it may consist of. -/
def zeroImage (version : Version) : List (String × Structure) → TypeRef → Tree
  | [], type => callNamed (typeName version type) [.number "0"]
  | (name, definition) :: earlier, type =>
    if type.name = name then
      callNamed (typeName version type) <| definition.fields.map fun field =>
        let zero := zeroImage version earlier field.type
        if field.isFixedArray then
          .call (.index (.name (typeName version field.type)) (.number (toString field.count)))
            (List.replicate field.count zero)
        else zero
    else zeroImage version earlier type

/-- Members of types. -/
def staticImages : Table (String × String) Tree :=
  ⟨[((Host.vector2, "Zero"), callNamed "vec2" [.number "0.0"]),
    ((Host.vector2, "One"), callNamed "vec2" [.number "1.0"]),
    ((Host.vector3, "Zero"), callNamed "vec3" [.number "0.0"]),
    ((Host.vector3, "One"), callNamed "vec3" [.number "1.0"]),
    ((Host.vector4, "Zero"), callNamed "vec4" [.number "0.0"]),
    ((Host.vector4, "One"), callNamed "vec4" [.number "1.0"]),
    ((Host.matrix4x4, "Identity"), callNamed "mat4" [.number "1.0"]),
    ((Host.math, "PI"), .number "3.14159265358979"),
    ((Host.math, "E"), .number "2.71828182845905")]⟩

/-- A member of a type. -/
def staticImage (type name : String) : Tree := (staticImages.get? (type, name)).getD (.name name)

/-- A resource: the member of its block if it has one, or else its own name. -/
def resourceImage (s : Scope) (name : String) : Tree :=
  match s.code.resource? name with
  | some r => .name (if r.kind.needsValueType then blockMember r else identifiers.correct name)
  | none => .name name

/-- The spelling of a member of a value: a field, or a component selection. -/
def memberName (s : Scope) (declaringType name : String) : String :=
  match s.context.structure? declaringType with
  | some _ => identifiers.correct name
  | none => (identifiers.member declaringType name).getD name

/-! ## Library calls -/

/-- The name of a shader builtin. -/
def builtin (method : String) : String := s!"{Host.builtins}.{method}"

/-- The type that combines a texture of a kind with a sampler. -/
def combinedType : Option ResourceKind → String
  | some .textureCube => "samplerCube"
  | _ => "sampler2D"

/-- A sampled texture.  With separate samplers, texture and sampler are combined where they meet. -/
def sampleImage (version : Version) (kind : Option ResourceKind) (texture sampler coordinates : Tree) :
    Tree :=
  if version.separateSamplers then
    callNamed "texture" [callNamed (combinedType kind) [texture, sampler], coordinates]
  else callNamed "texture" [texture, coordinates]

/-- A library call, given the kind of resource that its first argument is.  Products, limits and samples
have forms of their own; every other function is renamed. -/
def libraryImage (version : Version) (function : String) (kind : Option ResourceKind) :
    List Tree → Tree
  | [x] =>
    if function = builtin "Saturate" then callNamed "clamp" [x, .number "0.0", .number "1.0"]
    else renamed [x]
  | [a, b] => if function = builtin "Mul" then .binary .multiply a b else renamed [a, b]
  | [a, b, c] =>
    if function = builtin "Sample" then sampleImage version kind a b c else renamed [a, b, c]
  | arguments => renamed arguments
where
  /-- The call of the function that the table gives. -/
  renamed (arguments : List Tree) : Tree :=
    match (intrinsics version).get? function with
    | some (.rename target) => callNamed target arguments
    | _ => callNamed function arguments

/-- The remainder of floating-point numbers, toward zero. -/
def remainderImage (left right : Tree) : Tree :=
  .binary .subtract left
    (.binary .multiply right (callNamed "trunc" [.binary .divide left right]))

/-- The kind of a resource that an expression is itself. -/
def resourceKind (s : Scope) : Expr → Option ResourceKind
  | .resource name => (s.code.resource? name).map (·.kind)
  | _ => none

/-! ## Expressions -/

mutual
/-- The tree of an expression. -/
def image (version : Version) (s : Scope) : Expr → Tree
  | .literal value => value.image
  | .localVar name => .name (identifiers.correct name)
  | .resource name => resourceImage s name
  | .member base declaringType name =>
    .member (image version s base) (memberName s declaringType.name name)
  | .staticMember type name => staticImage type.name name
  | .index base i => .index (image version s base) (image version s i)
  | .unary op operand => .unary op (image version s operand)
  | .binary op left right =>
    if op = .modulo ∧ (s.isFloat left || s.isFloat right) then
      remainderImage (image version s left) (image version s right)
    else .binary op (image version s left) (image version s right)
  | .conditional c a r =>
    .conditional (image version s c) (image version s a) (image version s r)
  | .call function arguments =>
    match s.code.function? function with
    | some _ => callNamed (identifiers.correct function) (images version s arguments)
    | none =>
      libraryImage version function (arguments.head?.bind (resourceKind s))
        (images version s arguments)
  | .construct type [] => zeroImage version s.context.structures type
  | .construct type (first :: rest) =>
    callNamed (typeName version type) (image version s first :: images version s rest)
  | .cast type operand => callNamed (typeName version type) [image version s operand]
termination_by structural e => e

/-- The trees of several expressions. -/
def images (version : Version) (s : Scope) : List Expr → List Tree
  | [] => []
  | e :: rest => image version s e :: images version s rest
termination_by structural es => es
end

theorem images_eq_map (version : Version) (s : Scope) (es : List Expr) :
    images version s es = es.map (image version s) := by
  induction es with
  | nil => rfl
  | cons e es ih => rw [images, ih, List.map_cons]

end Glsl

/-! ## Names -/

/-- Numeric literals and numeric constants. -/
def Expr.isNumeric : Expr → Bool
  | .literal (.int _) | .literal (.uint _) | .literal (.float _) => true
  | .staticMember type _ => type.name == Host.math
  | _ => false

/-- The name that an expression shows in its text is a single word, and it takes no member of a number
as it stands. -/
def Expr.Legible (s : Scope) : Expr → Prop
  | .localVar name | .resource name => IsIdentifier name
  | .member base _ name => IsIdentifier name ∧ base.isNumeric = false
  | .call function _ => (s.code.function? function).isSome → IsIdentifier function
  | _ => True

instance (s : Scope) : DecidablePred (Expr.Legible s)
  | .localVar name | .resource name => inferInstanceAs (Decidable (IsIdentifier name))
  | .member base _ name => inferInstanceAs (Decidable (IsIdentifier name ∧ base.isNumeric = false))
  | .call function _ =>
    inferInstanceAs (Decidable ((s.code.function? function).isSome → IsIdentifier function))
  | .literal _ | .staticMember .. | .index .. | .unary .. | .binary .. | .conditional ..
  | .construct .. | .cast .. => isTrue trivial

/-- All parts of an expression are legible, and so are the structures' names with their dots replaced. -/
structure Readable (s : Scope) (e : Expr) : Prop where
  parts : ∀ x : Expr, x.Part e → x.Legible s
  structures : ∀ entry ∈ s.context.structures, IsIdentifier (flattenDots entry.1)

/-- The operands of a readable expression are readable. -/
theorem Readable.operand {s : Scope} {e o : Expr} (h : Readable s e) (ho : o ∈ e.operands) :
    Readable s o :=
  ⟨fun x hx => h.parts x (.operand ho hx), h.structures⟩

end CrossShader

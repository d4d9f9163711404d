import CrossShader.Dialect.Hlsl
import CrossShader.Proofs.Reader.Cast
import CrossShader.Proofs.Reader.Image

/-!
# What an expression says on HLSL

The tree that the text of an expression is meant to stand for, by the expression alone.

* `Hlsl.isType` — the words that name types.
* `Hlsl.libraryImage` — library calls; a sample is the call of a texture's method.
* `Hlsl.image` — expressions; a default value is a cast of zero, whatever its type.
* `Expr.isZero` — default values, which stand as operands without parentheses.
* `Expr.Seated` — expressions that put no suffix on a default value as it stands, nor a method on a number.
-/

set_option autoImplicit false

namespace CrossShader

open Reader

namespace Hlsl

open Glsl (builtin callNamed)

/-! ## Types -/

/-- The spelling of a type. -/
def typeName (type : TypeRef) : String :=
  (types.get? type.name).getD (identifiers.correct (flattenDots type.name))

/-- The words that name types: the spellings of host types, and the names of the structures. -/
def typeWords (c : Context) : List String :=
  types.entries.map (·.2) ++ c.structures.map fun entry => identifiers.correct (flattenDots entry.1)

/-- Whether a word names a type. -/
def isType (c : Context) (w : List Char) : Bool := (typeWords c).contains (String.ofList w)

/-! ## Names -/

/-- A vector whose components are one number. -/
def filled (type : String) (width : Nat) (value : String) : Tree :=
  callNamed type (List.replicate width (.number value))

/-- Members of types. -/
def staticImages : Table (String × String) Tree :=
  ⟨[((Host.vector2, "Zero"), filled "float2" 2 "0.0"), ((Host.vector2, "One"), filled "float2" 2 "1.0"),
    ((Host.vector3, "Zero"), filled "float3" 3 "0.0"), ((Host.vector3, "One"), filled "float3" 3 "1.0"),
    ((Host.vector4, "Zero"), filled "float4" 4 "0.0"), ((Host.vector4, "One"), filled "float4" 4 "1.0"),
    ((Host.matrix4x4, "Identity"),
      callNamed "float4x4" (["1", "0", "0", "0", "0", "1", "0", "0", "0", "0", "1", "0", "0", "0", "0",
        "1"].map .number)),
    ((Host.math, "PI"), .number "3.14159265358979"),
    ((Host.math, "E"), .number "2.71828182845905")]⟩

/-- A member of a type. -/
def staticImage (type name : String) : Tree := (staticImages.get? (type, name)).getD (.name name)

/-- The spelling of a member of a value: a field, or a component selection. -/
def memberName (s : Scope) (declaringType name : String) : String :=
  match s.context.structure? declaringType with
  | some _ => identifiers.correct name
  | none => (identifiers.member declaringType name).getD name

/-! ## Library calls -/

/-- The remainder whose quotient is rounded down. -/
def flooredImage (x y : Tree) : Tree :=
  .binary .subtract x (.binary .multiply y (callNamed "floor" [.binary .divide x y]))

/-- A texture sampled by its method. -/
def sampleImage (texture sampler coordinates : Tree) : Tree :=
  .call (.member texture "Sample") [sampler, coordinates]

/-- A library call.  Remainders and samples have forms of their own; every other function is renamed. -/
def libraryImage (function : String) : List Tree → Tree
  | [x, y] => if function = builtin "Mod" then flooredImage x y else renamed [x, y]
  | [a, b, c] => if function = builtin "Sample" then sampleImage a b c else renamed [a, b, c]
  | arguments => renamed arguments
where
  /-- The call of the function that the table gives. -/
  renamed (arguments : List Tree) : Tree :=
    match intrinsics.get? function with
    | some (.rename target) => callNamed target arguments
    | _ => callNamed function arguments

/-! ## Expressions -/

mutual
/-- The tree of an expression. -/
def image (s : Scope) : Expr → Tree
  | .literal value => value.image
  | .localVar name | .resource name => .name (identifiers.correct name)
  | .member base declaringType name => .member (image s base) (memberName s declaringType.name name)
  | .staticMember type name => staticImage type.name name
  | .index base i => .index (image s base) (image s i)
  | .unary op operand => .unary op (image s operand)
  | .binary op left right => .binary op (image s left) (image s right)
  | .conditional c a r => .conditional (image s c) (image s a) (image s r)
  | .call function arguments =>
    match s.code.function? function with
    | some _ => callNamed (identifiers.correct function) (images s arguments)
    | none => libraryImage function (images s arguments)
  | .construct type [] => Cast.castTree (typeName type) (.number "0")
  | .construct type (first :: rest) => callNamed (typeName type) (image s first :: images s rest)
  | .cast type operand => callNamed (typeName type) [image s operand]
termination_by structural e => e

/-- The trees of several expressions. -/
def images (s : Scope) : List Expr → List Tree
  | [] => []
  | e :: rest => image s e :: images s rest
termination_by structural es => es
end

theorem images_eq_map (s : Scope) (es : List Expr) : images s es = es.map (image s) := by
  induction es with
  | nil => rfl
  | cons e es ih => rw [images, ih, List.map_cons]

end Hlsl

/-! ## Default values as bases -/

namespace Expr

/-- Default values. -/
def isZero : Expr → Bool
  | .construct _ [] => true
  | _ => false

/-- Numbers that stand without parentheses. -/
def isBareNumber (e : Expr) : Bool := e.isNumeric && !e.isCompound

/-- A suffix (a member, an index, an operator behind its operand or a method) is put on neither a default
value as it stands, nor a method on a number as it stands. -/
def Seated (s : Scope) : Expr → Prop
  | .member base _ _ | .index base _ => base.isZero = false
  | .unary op operand => op.followsOperand = true → operand.isZero = false
  | .call function (texture :: _) => function = Glsl.builtin "Sample" →
      s.code.function? function = none → texture.isZero = false ∧ texture.isBareNumber = false
  | _ => True

instance (s : Scope) : DecidablePred (Seated s)
  | .member base _ _ | .index base _ => inferInstanceAs (Decidable (base.isZero = false))
  | .unary op operand =>
    inferInstanceAs (Decidable (op.followsOperand = true → operand.isZero = false))
  | .call function (texture :: _) =>
    inferInstanceAs (Decidable (function = Glsl.builtin "Sample" →
      s.code.function? function = none → texture.isZero = false ∧ texture.isBareNumber = false))
  | .call _ [] | .literal _ | .localVar _ | .resource _ | .staticMember .. | .binary ..
  | .conditional .. | .construct .. | .cast .. => isTrue trivial

end Expr

end CrossShader

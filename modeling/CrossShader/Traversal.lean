import CrossShader.Stmt

/-!
# Lexical order

Every statement and expression of a block, depth first and in source order, each with the location
of the innermost statement around it.  A statement comes before its parts, an expression before its
operands; the condition of a `do` loop comes after the loop's body.

* `Expr.nodes` — an expression and its parts.
* `Stmt.nodes`, `Block.nodes` — a statement or block and its parts.
* `Block.calls`, `Block.declarations` — the calls and the declared locals among them.
-/

set_option autoImplicit false

namespace CrossShader

/-- A statement or an expression of a body. -/
inductive Node where
  | stmt (stmt : Stmt)
  | expr (expr : Expr)

/-- A node with the location of the innermost statement around it. -/
structure Located where
  node : Node
  location : Location

namespace Expr

mutual
/-- An expression and its parts. -/
def nodes : Expr → List Expr
  | literal value => [literal value]
  | localVar name => [localVar name]
  | resource name => [resource name]
  | staticMember type name => [staticMember type name]
  | member base type name => member base type name :: nodes base
  | index base i => index base i :: (nodes base ++ nodes i)
  | unary op operand => unary op operand :: nodes operand
  | binary op left right => binary op left right :: (nodes left ++ nodes right)
  | conditional c a r => conditional c a r :: (nodes c ++ nodes a ++ nodes r)
  | call function arguments => call function arguments :: nodesAll arguments
  | construct type arguments => construct type arguments :: nodesAll arguments
  | cast type operand => cast type operand :: nodes operand
termination_by structural e => e

/-- The expressions of a list and their parts. -/
def nodesAll : List Expr → List Expr
  | [] => []
  | e :: es => nodes e ++ nodesAll es
termination_by structural es => es
end

/-- An expression and its parts, at the location of their statement. -/
def located (loc : Location) (e : Expr) : List Located :=
  e.nodes.map fun part => ⟨.expr part, loc⟩

end Expr

mutual
/-- A statement and its parts. -/
def Stmt.nodes : Stmt → List Located
  | .block loc body => ⟨.stmt (.block loc body), loc⟩ :: Block.nodes body
  | .declare loc name type count value =>
    ⟨.stmt (.declare loc name type count value), loc⟩ :: value.toList.flatMap (Expr.located loc)
  | .eval loc e => ⟨.stmt (.eval loc e), loc⟩ :: e.located loc
  | .assign loc target op value =>
    ⟨.stmt (.assign loc target op value), loc⟩ :: (target.located loc ++ value.located loc)
  | .ifElse loc condition accept reject =>
    ⟨.stmt (.ifElse loc condition accept reject), loc⟩ ::
      (condition.located loc ++ Block.nodes accept ++ Block.nodes reject)
  | .forLoop loc none condition step body =>
    ⟨.stmt (.forLoop loc none condition step body), loc⟩ ::
      (condition.toList.flatMap (Expr.located loc) ++ Block.nodes step ++ Block.nodes body)
  | .forLoop loc (some start) condition step body =>
    ⟨.stmt (.forLoop loc (some start) condition step body), loc⟩ ::
      (Stmt.nodes start ++ condition.toList.flatMap (Expr.located loc) ++ Block.nodes step ++
        Block.nodes body)
  | .whileLoop loc condition body =>
    ⟨.stmt (.whileLoop loc condition body), loc⟩ :: (condition.located loc ++ Block.nodes body)
  | .doWhile loc body condition =>
    ⟨.stmt (.doWhile loc body condition), loc⟩ :: (Block.nodes body ++ condition.located loc)
  | .switch loc selector cases =>
    ⟨.stmt (.switch loc selector cases), loc⟩ :: (selector.located loc ++ SwitchCase.nodesAll cases)
  | .foreach loc item type collection body =>
    ⟨.stmt (.foreach loc item type collection body), loc⟩ ::
      (collection.located loc ++ Block.nodes body)
  | .breakLoop loc => [⟨.stmt (.breakLoop loc), loc⟩]
  | .continueLoop loc => [⟨.stmt (.continueLoop loc), loc⟩]
  | .ret loc value => ⟨.stmt (.ret loc value), loc⟩ :: value.toList.flatMap (Expr.located loc)
  | .discard loc => [⟨.stmt (.discard loc), loc⟩]
termination_by structural s => s

/-- The statements of a block and their parts. -/
def Block.nodes : List Stmt → List Located
  | [] => []
  | s :: rest => Stmt.nodes s ++ Block.nodes rest
termination_by structural body => body

/-- The bodies of the cases and their parts. -/
def SwitchCase.nodesAll : List SwitchCase → List Located
  | [] => []
  | .mk _ _ body :: rest => Block.nodes body ++ SwitchCase.nodesAll rest
termination_by structural cases => cases
end

/-- A call by name, with the location of its statement. -/
structure CallSite where
  callee : String
  location : Location
  deriving DecidableEq, Repr

namespace Block

/-- The calls of a block in lexical order; an outer call comes before those among its arguments. -/
def calls (body : List Stmt) : List CallSite :=
  (Block.nodes body).filterMap fun
    | ⟨.expr (.call function _), loc⟩ => some ⟨function, loc⟩
    | _ => none

/-- The declared locals of a block in lexical order, those of nested blocks included. -/
def declarations (body : List Stmt) : List (String × TypeRef) :=
  (Block.nodes body).filterMap fun
    | ⟨.stmt (.declare _ name type _ _), _⟩ => some (name, type)
    | _ => none

end Block

end CrossShader

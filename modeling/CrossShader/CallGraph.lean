import CrossShader.Error
import CrossShader.Program
import CrossShader.Traversal

/-!
# The call graph

The functions that an entry reaches through calls by name, callees before callers.

* `Code.visit` — depth-first walk along calls in lexical order.
* `Code.reachable` — the functions that an entry reaches, the entry last; a cycle is an error at
  the call that closes it.
-/

set_option autoImplicit false

namespace CrossShader

/-- Walk from a function to everything it reaches.  `path` holds the names of the functions being
walked, and `order` the functions finished so far.  `depth` bounds the length of the path; a path
longer than the number of functions repeats a name. -/
def Code.visit (c : Code) (depth : Nat) (path : List String) (f : Function)
    (order : List Function) : Except GenerationError (List Function) := do
  let path := f.name :: path
  let order ← (Block.calls f.body).foldlM
    (fun order site =>
      match c.function? site.callee with
      | none => .ok order
      | some callee =>
        if path.contains site.callee then
          .error (.unsupported (.recursiveCall site.callee) site.location)
        else if order.any (·.name == site.callee) then .ok order
        else
          match depth with
          | 0 => .error (.unsupported (.recursiveCall site.callee) site.location)
          | depth + 1 => c.visit depth path callee order)
    order
  return order ++ [f]
termination_by structural depth

/-- The functions that an entry reaches, callees before callers, in the order of first calls. -/
def Code.reachable (c : Code) (entry : Function) : Except GenerationError (List Function) :=
  c.visit c.functions.length [] entry []

end CrossShader

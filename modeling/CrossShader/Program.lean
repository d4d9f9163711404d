import CrossShader.Function
import CrossShader.Resource
import CrossShader.StructureSet

/-!
# Programs

A shader program: registered structures, resources and functions.  Adding a part either succeeds or
reports an error and changes nothing.

* `Code` — the resources and functions, which generation reads and never changes.
* `Program` — code together with the structures, which generation may add to.
-/

set_option autoImplicit false

namespace CrossShader

/-- The resources and functions of a program. -/
structure Code where
  resources : Roster Resource
  functions : Roster Function

namespace Code

/-- The function of a name. -/
def function? (c : Code) (name : String) : Option Function := c.functions.find? name

/-- The resource of a name. -/
def resource? (c : Code) (name : String) : Option Resource := c.resources.find? name

end Code

/-- A shader program. -/
structure Program extends Code where
  structures : StructureSet

namespace Program

/-- The program without parts. -/
def empty : Program := { resources := .empty, functions := .empty, structures := .empty }

/-- The slot that a resource gets if it asks for none: the number of resources so far.  Slots are 32-bit
numbers, so after the last one the first comes again. -/
def nextBinding (p : Program) : Nat := p.resources.length % UInt32.size

/-- Register a structure. -/
def addStructure (p : Program) (s : Structure) : Except RosterError Program :=
  (p.structures.insert s).map fun structures => { p with structures }

/-- Add a resource. -/
def addResource (p : Program) (r : Resource) : Except RosterError (Handle Resource × Program) :=
  (p.resources.insert r).map fun (handle, resources) => (handle, { p with resources })

/-- Add a function. -/
def addFunction (p : Program) (f : Function) : Except RosterError (Handle Function × Program) :=
  (p.functions.insert f).map fun (handle, functions) => (handle, { p with functions })

end Program

end CrossShader

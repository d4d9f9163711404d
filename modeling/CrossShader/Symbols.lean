import CrossShader.Diagnostic
import CrossShader.StructureSet

/-!
# Symbols and discovery

The symbol space of the host sources and the search for structures in it.

* `Declaration` — what a host source declares under a name.
* `SymbolSource` — the declarations of each name, wherever they come from.
* `SymbolSource.lookup` — the structure a name stands for, or why it stands for none.
* `Symbols` — a finite table of declarations under the names by which they are found, in the order of
  declaration.
* `StructureSet.discover` — the registered structure of a name, or else the declared one, which is
  registered then.
-/

set_option autoImplicit false

namespace CrossShader

/-- The kind of a declaration. -/
inductive DeclarationKind where
  | struct
  | classType
  | enumType
  | interfaceType
  deriving DecidableEq, Repr

/-- The kind's word. -/
def DeclarationKind.text : DeclarationKind → String
  | .struct => "struct"
  | .classType => "class"
  | .enumType => "enum"
  | .interfaceType => "interface"

/-- A declaration of a host source; only structures have fields that matter. -/
inductive Declaration where
  | struct (definition : Structure)
  | classType (name : String)
  | enumType (name : String)
  | interfaceType (name : String)
  deriving DecidableEq, Repr

namespace Declaration

/-- The declared name. -/
def name : Declaration → String
  | .struct definition => definition.name
  | .classType name | .enumType name | .interfaceType name => name

/-- The kind of the declaration. -/
def kind : Declaration → DeclarationKind
  | .struct _ => .struct
  | .classType _ => .classType
  | .enumType _ => .enumType
  | .interfaceType _ => .interfaceType

end Declaration

/-- Why a name does not stand for a structure. -/
inductive DiscoveryFailure where
  | notFound
  | ambiguous (count : Nat)
  | notAStructure (kind : DeclarationKind)
  deriving DecidableEq, Repr

/-- The wording of a failure. -/
def DiscoveryFailure.message : DiscoveryFailure → String
  | .notFound => "no declaration found"
  | .ambiguous count => s!"{count} declarations found, expected exactly one"
  | .notAStructure kind => s!"declared as {kind.text}, not a struct"

/-- Where declarations come from.  A name has the same declarations at every question. -/
structure SymbolSource where
  declarations : String → List Declaration

/-- The structure of a name: the name has exactly one declaration, and that is a structure. -/
def SymbolSource.lookup (s : SymbolSource) (name : String) : Except DiscoveryFailure Structure :=
  match s.declarations name with
  | [] => .error .notFound
  | [.struct definition] => .ok definition
  | [other] => .error (.notAStructure other.kind)
  | many => .error (.ambiguous many.length)

/-- Declarations, each under the name by which it is found. -/
structure Symbols where
  entries : List (String × Declaration)
  deriving DecidableEq, Repr

namespace Symbols

/-- The symbol space without declarations. -/
def empty : Symbols := ⟨[]⟩

/-- The number of declarations. -/
def length (s : Symbols) : Nat := s.entries.length

/-- One more declaration, found by its own name. -/
def declare (s : Symbols) (d : Declaration) : Symbols :=
  ⟨s.entries ++ [(d.name, d)]⟩

/-- The declarations of a name, in the order of declaration. -/
def declarations (s : Symbols) (name : String) : List Declaration :=
  s.entries.filterMap fun entry => if entry.1 = name then some entry.2 else none

/-- The table as a source of declarations. -/
def source (s : Symbols) : SymbolSource := ⟨s.declarations⟩

instance : Coe Symbols SymbolSource := ⟨source⟩

end Symbols

/-- What a search found, with the set after it and the notes made on the way. -/
structure Discovery where
  result : Except DiscoveryFailure Structure
  structures : StructureSet
  log : List LogRecord

/-- The note about a newly registered structure. -/
def discoveryNote (name : String) (definition : Structure) : LogRecord :=
  ⟨.debug, s!"discovered structure `{name}` ({definition.fields.length} fields)"⟩

/-- The registered structure of a name; a name that is not registered is looked up among the
symbols, and the structure found there is registered.  A failed search changes nothing. -/
def StructureSet.discover (s : StructureSet) (symbols : SymbolSource) (name : String) : Discovery :=
  let (result, structures) := s.getOrInsert name (symbols.lookup name)
  let log :=
    match s.contains name, result with
    | false, .ok definition => [discoveryNote name definition]
    | _, _ => []
  { result, structures, log }

end CrossShader

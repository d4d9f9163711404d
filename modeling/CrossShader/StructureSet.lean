import CrossShader.Roster
import CrossShader.Structure

/-!
# Structure sets

The structures registered with a program, in the order of their registration, each under a key.  A
set only grows: an entry is never replaced or removed.

* `StructureSet.insert` — register a structure under its own name.
* `StructureSet.getOrInsert` — the entry of a key, registered first if the key is free; a failing
  producer leaves the set as it was.
-/

set_option autoImplicit false

namespace CrossShader

/-- Registered structures by key, oldest first. -/
structure StructureSet where
  entries : List (String × Structure)
  deriving DecidableEq, Repr

namespace StructureSet

/-- The set without structures. -/
def empty : StructureSet := ⟨[]⟩

/-- The number of entries. -/
def length (s : StructureSet) : Nat := s.entries.length

/-- Whether there is no entry. -/
def isEmpty (s : StructureSet) : Bool := s.entries.isEmpty

/-- The structure registered under a key. -/
def find? (s : StructureSet) (key : String) : Option Structure :=
  s.entries.lookup key

/-- Whether the key is taken. -/
def contains (s : StructureSet) (key : String) : Bool := (s.find? key).isSome

/-- The registered structures, oldest first. -/
def toList (s : StructureSet) : List Structure := s.entries.map (·.2)

/-- The structures' own names, oldest first. -/
def names (s : StructureSet) : List String := s.toList.map (·.name)

/-- One more entry at the end. -/
def push (s : StructureSet) (key : String) (value : Structure) : StructureSet :=
  ⟨s.entries ++ [(key, value)]⟩

/-- Register a structure under its own name. -/
def insert (s : StructureSet) (value : Structure) : Except RosterError StructureSet :=
  if s.contains value.name then .error (.duplicateName value.name) else .ok (s.push value.name value)

/-- The entry of a key.  If the key is free, what `produce` yields is registered first. -/
def getOrInsert {ε : Type} (s : StructureSet) (key : String) (produce : Except ε Structure) :
    Except ε Structure × StructureSet :=
  match s.find? key with
  | some found => (.ok found, s)
  | none =>
    match produce with
    | .ok value => (.ok value, s.push key value)
    | .error e => (.error e, s)

end StructureSet

end CrossShader

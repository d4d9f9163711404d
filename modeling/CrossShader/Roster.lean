/-!
# Rosters

A roster keeps named values in the order in which they were added and refuses a second value of a
name.  A handle is the position of a value; it stays valid because values are only ever appended.

* `Named` — values that go by a name of their own.
* `Roster.insert` — append a value; a taken name is an error and changes nothing.
* `Roster.find?`, `Roster.handle?`, `Roster.get?` — a value by name, the handle of a name, a value by
  handle.
* `Roster.toList` — all values with their handles.
-/

set_option autoImplicit false

namespace CrossShader

/-- Values that go by a name of their own. -/
class Named (α : Type) where
  name : α → String

/-- Why a value cannot be added. -/
inductive RosterError where
  /-- The name is taken. -/
  | duplicateName (name : String)
  /-- There is no handle left. -/
  | overflow
  deriving DecidableEq, Repr

/-- The wording of an error. -/
def RosterError.message : RosterError → String
  | .duplicateName name => s!"duplicate name `{name}` in compilation unit"
  | .overflow => "arena overflow: more than u32::MAX items"

/-- The position of a value in a roster of such values. -/
structure Handle (α : Type) where
  index : Nat
  deriving Repr

instance {α : Type} : DecidableEq (Handle α)
  | ⟨a⟩, ⟨b⟩ => if h : a = b then isTrue (h ▸ rfl) else isFalse fun e => h (Handle.mk.inj e)

instance {α : Type} : Ord (Handle α) := ⟨fun a b => compare a.index b.index⟩

/-- The handle's index in brackets. -/
def Handle.text {α : Type} (h : Handle α) : String := s!"[{h.index}]"

/-- Named values in the order in which they were added. -/
structure Roster (α : Type) where
  items : List α
  deriving Repr

namespace Roster

variable {α : Type}

/-- The roster without values. -/
def empty : Roster α := ⟨[]⟩

/-- The number of values. -/
def length (r : Roster α) : Nat := r.items.length

/-- Whether there is no value. -/
def isEmpty (r : Roster α) : Bool := r.items.isEmpty

/-- How many values a roster can hold: handles are 32-bit numbers. -/
def capacity : Nat := UInt32.size

/-- The values with their handles, in insertion order. -/
def toList (r : Roster α) : List (Handle α × α) :=
  r.items.zipIdx.map fun (value, index) => (⟨index⟩, value)

/-- The value of a handle, if the handle is in range. -/
def get? (r : Roster α) (h : Handle α) : Option α := r.items[h.index]?

variable [Named α]

/-- The value of a name. -/
def find? (r : Roster α) (name : String) : Option α :=
  r.items.find? (Named.name · == name)

/-- Whether the name is taken. -/
def contains (r : Roster α) (name : String) : Bool :=
  r.items.any (Named.name · == name)

/-- The handle of a name. -/
def handle? (r : Roster α) (name : String) : Option (Handle α) :=
  (r.items.findIdx? (Named.name · == name)).map Handle.mk

/-- Append a value whose name is free; the new value's handle is the old length. -/
def insert (r : Roster α) (value : α) : Except RosterError (Handle α × Roster α) :=
  if r.contains (Named.name value) then .error (.duplicateName (Named.name value))
  else if capacity ≤ r.length then .error .overflow
  else .ok (⟨r.length⟩, ⟨r.items ++ [value]⟩)

end Roster

end CrossShader

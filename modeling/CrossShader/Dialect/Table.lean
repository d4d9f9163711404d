/-!
# Tables

Finite maps written as lists of entries.  Of several entries under one key, the last one counts.
-/

set_option autoImplicit false

namespace CrossShader

/-- Entries by key, in the order in which they were written. -/
structure Table (κ β : Type) where
  entries : List (κ × β)
  deriving Repr

namespace Table

variable {κ β : Type}

/-- The table without entries. -/
def empty : Table κ β := ⟨[]⟩

/-- One more entry, which takes the place of an earlier one under its key. -/
def insert (t : Table κ β) (key : κ) (value : β) : Table κ β :=
  ⟨t.entries ++ [(key, value)]⟩

/-- The last entry under a key. -/
def get? [BEq κ] (t : Table κ β) (key : κ) : Option β :=
  t.entries.reverse.lookup key

end Table

end CrossShader

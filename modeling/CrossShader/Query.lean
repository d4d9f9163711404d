import CrossShader.Symbols

/-!
# Queries

A computation that consults the shared structure set only through discovery, one atomic question at
a time, and that makes notes.  Keeping the questions as data separates what a request computes from
how its questions interleave with those of other requests.

* `Query` — the tree of questions, notes and the final answer; a monad.
* `Query.run` — the computation run alone on a structure set.
* `Query.eval` — the answer, given what each name stands for.
-/

set_option autoImplicit false

namespace CrossShader

/-- A computation with questions about names and with notes. -/
inductive Query (α : Type) where
  /-- The final answer. -/
  | answer (value : α)
  /-- A note, and what follows it. -/
  | note (record : LogRecord) (next : Query α)
  /-- A question about a name, and what follows each reply. -/
  | discover (name : String) (next : Except DiscoveryFailure Structure → Query α)

namespace Query

variable {α β : Type}

/-- Continue a computation after its answer. -/
def bind : Query α → (α → Query β) → Query β
  | answer value, f => f value
  | note record next, f => note record (next.bind f)
  | discover name next, f => discover name fun reply => (next reply).bind f

instance : Monad Query where
  pure := answer
  bind := bind

/-- The answer of a run, the structure set after it, and its notes in order. -/
structure Outcome (α : Type) where
  value : α
  structures : StructureSet
  log : List LogRecord

/-- The computation run alone. -/
def run (symbols : SymbolSource) : Query α → StructureSet → Outcome α
  | answer value, structures => ⟨value, structures, []⟩
  | note record next, structures =>
    let rest := next.run symbols structures
    ⟨rest.value, rest.structures, record :: rest.log⟩
  | discover name next, structures =>
    let found := structures.discover symbols name
    let rest := (next found.result).run symbols found.structures
    ⟨rest.value, rest.structures, found.log ++ rest.log⟩

/-- The answer if every name stands for what `reply` says. -/
def eval (reply : String → Except DiscoveryFailure Structure) : Query α → α
  | answer value => value
  | note _ next => next.eval reply
  | discover name next => (next (reply name)).eval reply

end Query

end CrossShader

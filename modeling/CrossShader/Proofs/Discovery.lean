import CrossShader.Proofs.Success
import CrossShader.Query
import Mathlib.Data.Option.Basic

/-!
# What a name stands for

A structure set together with a source of declarations gives every name a meaning: the registered
structure, or else the declared one.  Discovery registers structures and never changes a meaning, so
the answer of a computation is decided by the meanings before it starts.

* `StructureSet.meaning` — the meaning of a name; `meaning_discover` — discovery keeps all meanings.
* `Query.asked` — the names that a computation asks about.
* `Query.run_value`, `Query.run_meaning` — a run by its answer, and by the meanings after it.
-/

set_option autoImplicit false

namespace CrossShader

namespace StructureSet

/-- What a name stands for: its registered structure, or else what the source declares. -/
def meaning (s : StructureSet) (symbols : SymbolSource) (name : String) :
    Except DiscoveryFailure Structure :=
  match s.find? name with
  | some found => .ok found
  | none => symbols.lookup name

theorem meaning_of_find?_some {s : StructureSet} {symbols : SymbolSource} {name : String}
    {found : Structure} (h : s.find? name = some found) : s.meaning symbols name = .ok found := by
  simp [meaning, h]

theorem meaning_of_find?_none {s : StructureSet} {symbols : SymbolSource} {name : String}
    (h : s.find? name = none) : s.meaning symbols name = symbols.lookup name := by
  simp [meaning, h]

/-- Without a source, only registered names have a meaning. -/
theorem mem_entries_of_meaning {s : StructureSet} {name : String} {found : Structure}
    (h : s.meaning ⟨fun _ => []⟩ name = .ok found) : (name, found) ∈ s.entries := by
  cases hfind : s.find? name with
  | none =>
    rw [meaning_of_find?_none hfind] at h
    cases h
  | some registered =>
    rw [meaning_of_find?_some hfind] at h
    cases h
    exact mem_of_lookup hfind

theorem find?_push (s : StructureSet) (key : String) (value : Structure) (name : String) :
    (s.push key value).find? name =
      (s.find? name).or (if name = key then some value else none) := by
  unfold find? push
  rw [List.lookup_append]
  congr 1
  by_cases h : name = key
  · subst h; simp
  · have hb : (name == key) = false := by simpa using h
    simp [List.lookup_cons, hb, h]

/-- The set after a search: the entry of the name is the declared structure, unless there was an entry
before. -/
theorem find?_discover (s : StructureSet) (symbols : SymbolSource) (name other : String) :
    (s.discover symbols name).structures.find? other =
      (s.find? other).or (if other = name then (symbols.lookup name).toOption else none) := by
  unfold discover getOrInsert
  cases hs : s.find? name with
  | some found =>
    by_cases h : other = name
    · subst h; simp [hs]
    · simp [h]
  | none =>
    cases hl : symbols.lookup name with
    | error e => simp [Except.toOption]
    | ok value => simp [find?_push, Except.toOption]

theorem discover_result (s : StructureSet) (symbols : SymbolSource) (name : String) :
    (s.discover symbols name).result = s.meaning symbols name := by
  unfold discover getOrInsert meaning
  cases s.find? name with
  | some found => rfl
  | none => cases symbols.lookup name <;> rfl

/-- **Discovery changes no meaning.** -/
theorem meaning_discover (s : StructureSet) (symbols : SymbolSource) (name : String) :
    (s.discover symbols name).structures.meaning symbols = s.meaning symbols := by
  funext other
  have h := find?_discover s symbols name other
  cases hs : s.find? other with
  | some found =>
    rw [hs, Option.some_or] at h
    rw [meaning_of_find?_some h, meaning_of_find?_some hs]
  | none =>
    rw [hs, Option.none_or] at h
    rw [meaning_of_find?_none hs]
    by_cases hn : other = name
    · subst hn
      rw [if_pos rfl] at h
      cases hl : symbols.lookup other with
      | error e =>
        rw [hl] at h
        rw [meaning_of_find?_none h, hl]
      | ok value =>
        rw [hl] at h
        rw [meaning_of_find?_some h]
    · rw [if_neg hn] at h
      rw [meaning_of_find?_none h]

end StructureSet

namespace Query

variable {α β : Type}

/-- The names that a computation asks about, in order, if every name stands for what `reply` says. -/
def asked (reply : String → Except DiscoveryFailure Structure) : Query α → List String
  | answer _ => []
  | note _ next => next.asked reply
  | discover name next => name :: (next (reply name)).asked reply

/-- The number of moves that a computation makes before its answer. -/
def moves (reply : String → Except DiscoveryFailure Structure) : Query α → Nat
  | answer _ => 0
  | note _ next => next.moves reply + 1
  | discover name next => (next (reply name)).moves reply + 1

@[simp] theorem eval_bind (reply : String → Except DiscoveryFailure Structure) (q : Query α)
    (f : α → Query β) : (q.bind f).eval reply = (f (q.eval reply)).eval reply := by
  induction q with
  | answer value => rfl
  | note record next ih => exact ih
  | discover name next ih => exact ih (reply name)

theorem asked_bind (reply : String → Except DiscoveryFailure Structure) (q : Query α)
    (f : α → Query β) :
    (q.bind f).asked reply = q.asked reply ++ (f (q.eval reply)).asked reply := by
  induction q with
  | answer value => rfl
  | note record next ih => exact ih
  | discover name next ih => exact congrArg (name :: ·) (ih (reply name))

/-- **The answer of a run is decided by the meanings before it.** -/
theorem run_value (symbols : SymbolSource) (q : Query α) (s : StructureSet) :
    (q.run symbols s).value = q.eval (s.meaning symbols) := by
  induction q generalizing s with
  | answer value => rfl
  | note record next ih => exact ih s
  | discover name next ih =>
    show ((next (s.discover symbols name).result).run symbols _).value = _
    rw [ih, StructureSet.meaning_discover, StructureSet.discover_result]
    rfl

theorem run_meaning (symbols : SymbolSource) (q : Query α) (s : StructureSet) :
    (q.run symbols s).structures.meaning symbols = s.meaning symbols := by
  induction q generalizing s with
  | answer value => rfl
  | note record next ih => exact ih s
  | discover name next ih =>
    show ((next _).run symbols (s.discover symbols name).structures).structures.meaning symbols = _
    rw [ih, StructureSet.meaning_discover]

end Query

end CrossShader

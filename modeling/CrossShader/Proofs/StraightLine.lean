import CrossShader.Interface
import Mathlib.Data.List.Forall2
import Mathlib.Logic.Function.Basic

/-!
# Straight-line programs

The steps of `main` run on variables, where the entry is any function of its argument.

* `Fielded`, `Memory` — values with fields, and variables by name; `Place.Apart` — places without a
  common part.
* `Step.exec`, `runSteps` — a step, and a program; `read_runSteps` — a program keeps what it does not
  write.
* `runSteps_stores` — copies to places that are apart from each other and from everything that is read
  happen as if at once.
-/

set_option autoImplicit false

namespace CrossShader

/-! ## Variables -/

/-- Values whose fields can be read, and set one at a time. -/
class Fielded (V : Type) where
  get : V → String → V
  set : V → String → V → V
  get_set_self : ∀ value field part, get (set value field part) field = part
  get_set_of_ne : ∀ value part {field other}, other ≠ field →
    get (set value field part) other = get value other

/-- Values that are atoms or records; a field of an atom is an atom. -/
inductive Value where
  | atom (name : String)
  | record (fields : String → Value)

/-- A field of a value. -/
def Value.field : Value → String → Value
  | atom name, field => atom (name ++ "." ++ field)
  | record fields, field => fields field

instance : Fielded Value where
  get := Value.field
  set value field part := .record (Function.update value.field field part)
  get_set_self _ _ _ := Function.update_self ..
  get_set_of_ne _ _ _ _ h := Function.update_of_ne h ..

/-- Variables by name. -/
abbrev Memory (V : Type) := String → V

namespace Place

/-- The variable that a place belongs to. -/
def owner : Place → String
  | whole name => name
  | member name _ => name

/-- Places without a common part. -/
def Apart : Place → Place → Prop
  | member a f, member b g => a ≠ b ∨ f ≠ g
  | p, q => p.owner ≠ q.owner

theorem apart_of_owner {p q : Place} (h : p.owner ≠ q.owner) : p.Apart q := by
  cases p with
  | whole => exact h
  | member a f =>
    cases q with
    | whole => exact h
    | member b g => exact .inl h

theorem Apart.symm {p q : Place} (h : p.Apart q) : q.Apart p := by
  cases p with
  | whole => cases q <;> exact Ne.symm h
  | member a f =>
    cases q with
    | whole => exact Ne.symm h
    | member b g => exact h.imp Ne.symm Ne.symm

end Place

namespace Memory

variable {V : Type} [Fielded V]

/-- What a place holds. -/
def read (μ : Memory V) : Place → V
  | .whole name => μ name
  | .member owner field => Fielded.get (μ owner) field

/-- Store a value at a place. -/
def write (μ : Memory V) : Place → V → Memory V
  | .whole name, value => Function.update μ name value
  | .member owner field, value => Function.update μ owner (Fielded.set (μ owner) field value)

theorem read_congr {μ ν : Memory V} {p : Place} (h : μ p.owner = ν p.owner) : μ.read p = ν.read p := by
  cases p with
  | whole => exact h
  | member owner field => exact congrArg (Fielded.get · field) h

theorem read_write_self (μ : Memory V) (p : Place) (value : V) :
    (μ.write p value).read p = value := by
  cases p with
  | whole => exact Function.update_self ..
  | member => simp [write, read, Fielded.get_set_self]

theorem write_of_ne (μ : Memory V) {p : Place} {name : String} (h : name ≠ p.owner) (value : V) :
    μ.write p value name = μ name := by
  cases p <;> exact Function.update_of_ne h ..

/-- A store changes nothing outside of its target. -/
theorem read_write_of_apart (μ : Memory V) {p q : Place} (h : p.Apart q) (value : V) :
    (μ.write p value).read q = μ.read q := by
  by_cases howner : q.owner = p.owner
  · cases p with
    | whole => exact absurd howner.symm (by cases q <;> exact h)
    | member a f =>
      cases q with
      | whole => exact absurd howner.symm h
      | member b g =>
        have hab : b = a := howner
        subst hab
        have hfield : g ≠ f := fun heq => h.elim (· rfl) (· heq.symm)
        simp [write, read, Fielded.get_set_of_ne _ _ hfield]
  · cases q with
    | whole => exact write_of_ne μ howner value
    | member b g => exact congrArg (Fielded.get · g) (write_of_ne μ howner value)

end Memory

/-! ## Programs -/

/-- Variables, the calls made so far with their arguments, and what was returned. -/
structure Machine (V : Type) where
  memory : Memory V
  calls : List (String × List V) := []
  returned : Option V := none

/-- A place holds a value, and so does its counterpart in what was returned, if anything was. -/
def Machine.Delivers {V : Type} [Fielded V] (s : Machine V) (p : Place) (value : V) : Prop :=
  s.memory.read p = value ∧ ∀ whole, s.returned = some whole → Memory.read (fun _ => whole) p = value

/-- The place that a step writes. -/
def Step.written? : Step → Option Place
  | .declare _ name => some (.whole name)
  | .store target _ => some target
  | .callInto _ result _ _ => some (.whole result)
  | .call _ | .ret _ => none

section Run

variable {V : Type} [Fielded V] (entries : String → V → V) (blank : V)

/-- Run a step.  `entries` gives the results of entries, and `blank` is what a new local holds. -/
def Step.exec (s : Machine V) : Step → Machine V
  | .declare _ name => { s with memory := s.memory.write (.whole name) blank }
  | .store target source => { s with memory := s.memory.write target (s.memory.read source) }
  | .callInto _ result entry argument =>
    { s with
      memory := s.memory.write (.whole result) (entries entry (s.memory argument))
      calls := s.calls ++ [(entry, [s.memory argument])] }
  | .call entry => { s with calls := s.calls ++ [(entry, [])] }
  | .ret name => { s with returned := some (s.memory name) }

/-- Run a program. -/
def runSteps (steps : List Step) (s : Machine V) : Machine V :=
  steps.foldl (Step.exec entries blank) s

theorem runSteps_append (first second : List Step) (s : Machine V) :
    runSteps entries blank (first ++ second) s =
      runSteps entries blank second (runSteps entries blank first s) :=
  List.foldl_append

theorem read_exec {s : Machine V} {step : Step} {p : Place}
    (h : ∀ target, step.written? = some target → target.Apart p) :
    (step.exec entries blank s).memory.read p = s.memory.read p := by
  cases step with
  | declare | store | callInto => exact Memory.read_write_of_apart _ (h _ rfl) _
  | call | ret => rfl

/-- **A program keeps what it does not write.** -/
theorem read_runSteps {steps : List Step} {s : Machine V} {p : Place}
    (h : ∀ step ∈ steps, ∀ target, step.written? = some target → target.Apart p) :
    (runSteps entries blank steps s).memory.read p = s.memory.read p := by
  induction steps generalizing s with
  | nil => rfl
  | cons step rest ih =>
    have hrest := ih (s := step.exec entries blank s)
      fun other hother => h other (List.mem_cons_of_mem _ hother)
    exact hrest.trans (read_exec entries blank (h step List.mem_cons_self))

theorem returned_exec {s : Machine V} {step : Step} (h : ∀ name, step ≠ .ret name) :
    (step.exec entries blank s).returned = s.returned := by
  cases step with
  | declare | store | callInto | call => rfl
  | ret name => exact absurd rfl (h name)

/-- **Only returns return.** -/
theorem returned_runSteps {steps : List Step} {s : Machine V}
    (h : ∀ step ∈ steps, ∀ name, step ≠ .ret name) :
    (runSteps entries blank steps s).returned = s.returned := by
  induction steps generalizing s with
  | nil => rfl
  | cons step rest ih =>
    obtain ⟨hstep, hrest⟩ := List.forall_mem_cons.1 h
    exact (ih hrest).trans (returned_exec entries blank hstep)

/-- Copies from one place to another, as steps; each pair is a target and a source. -/
def copies (pairs : List (Place × Place)) : List Step :=
  pairs.map fun pair => .store pair.1 pair.2

theorem read_copies {pairs : List (Place × Place)} {s : Machine V} {p : Place}
    (h : ∀ pair ∈ pairs, pair.1.Apart p) :
    (runSteps entries blank (copies pairs) s).memory.read p = s.memory.read p := by
  refine read_runSteps entries blank fun step hstep target htarget => ?_
  obtain ⟨pair, hpair, rfl⟩ := List.mem_map.1 hstep
  cases htarget
  exact h pair hpair

/-- **Copies happen as if at once**, if no copy writes what another one writes or reads. -/
theorem runSteps_stores {pairs : List (Place × Place)} {s : Machine V}
    (htargets : (pairs.map Prod.fst).Pairwise Place.Apart)
    (hsources : ∀ pair ∈ pairs, ∀ other ∈ pairs, other.1.Apart pair.2) :
    ∀ pair ∈ pairs,
      (runSteps entries blank (copies pairs) s).memory.read pair.1 = s.memory.read pair.2 := by
  induction pairs generalizing s with
  | nil => nofun
  | cons first rest ih =>
    rw [List.map_cons, List.pairwise_cons] at htargets
    have hrest := ih (s := (Step.store first.1 first.2).exec entries blank s) htargets.2
      fun pair hpair other hother =>
        hsources pair (List.mem_cons_of_mem _ hpair) other (List.mem_cons_of_mem _ hother)
    intro pair hpair
    rcases List.mem_cons.1 hpair with rfl | hpair
    · -- later copies leave the first target alone
      have hkept : ∀ other ∈ rest, other.1.Apart pair.1 := fun other hother =>
        (htargets.1 other.1 (List.mem_map_of_mem hother)).symm
      exact (read_copies entries blank (s := (Step.store pair.1 pair.2).exec entries blank s)
        hkept).trans (Memory.read_write_self ..)
    · refine (hrest pair hpair).trans (Memory.read_write_of_apart _ ?_ _)
      exact hsources pair (List.mem_cons_of_mem _ hpair) first List.mem_cons_self

theorem calls_copies (pairs : List (Place × Place)) (s : Machine V) :
    (runSteps entries blank (copies pairs) s).calls = s.calls := by
  induction pairs generalizing s with
  | nil => rfl
  | cons first rest ih => exact ih _

theorem copies_ne_ret {pairs : List (Place × Place)} :
    ∀ step ∈ copies pairs, ∀ name, step ≠ .ret name := by
  intro step hstep name
  obtain ⟨pair, -, rfl⟩ := List.mem_map.1 hstep
  exact Step.noConfusion

end Run

end CrossShader

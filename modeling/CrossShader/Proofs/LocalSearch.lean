import CrossShader.Proofs.Correction
import Mathlib.Data.Finset.Card

/-!
# The search for the locals of `main`

The search for a local tries a name and adds an underscore as long as the name is taken.  No counter ends it:
only a finite number of names is taken, and underscores make ever new ones.

* `Search` — the search as a loop without a bound, with the number of names that it tests.
* `search_iff` — the loop ends exactly at the free name with the fewest underscores.
* `count_le_card_of_isLeast` — the names that it passes are distinct, so they are no more than the taken ones.
* `Target.isReserved_freshLocal` — on a built-in target, what it finds is not reserved.
* `main_locals_found` — both locals of `main`, for every dialect and every layout.
-/

set_option autoImplicit false

namespace CrossShader

/-- The search as a loop without a bound: it starts at a name, tests so many names, and ends at a free one. -/
inductive Search (taken : List String) : (name : String) → (rounds : Nat) → (found : String) → Prop
  | free {name : String} (h : name ∉ taken) : Search taken name 1 name
  | again {name found : String} {rounds : Nat} (h : name ∈ taken)
      (rest : Search taken (name ++ "_") rounds found) : Search taken name (rounds + 1) found

section Search

variable {taken : List String} {name : String}

/-- A name that is taken postpones the end of the search by one underscore. -/
theorem isLeast_underscored_succ (h : name ∈ taken) {count : Nat} :
    IsLeast {count | underscored name count ∉ taken} (count + 1) ↔
      IsLeast {count | underscored (name ++ "_") count ∉ taken} count := by
  simp only [underscored_append]
  constructor
  · rintro ⟨hfree, hleast⟩
    exact ⟨hfree, fun other hother => Nat.le_of_succ_le_succ (hleast hother)⟩
  · rintro ⟨hfree, hleast⟩
    refine ⟨hfree, fun other hother => ?_⟩
    cases other with
    | zero =>
      rw [Set.mem_ofPred_eq, underscored_zero] at hother
      exact absurd h hother
    | succ other => exact Nat.succ_le_succ (hleast hother)

/-- **The loop ends at the free name with the fewest underscores**, and nowhere else; the number of names that
it tests is one more than that of the underscores. -/
theorem search_iff {rounds : Nat} {found : String} :
    Search taken name rounds found ↔
      ∃ count, IsLeast {count | underscored name count ∉ taken} count ∧
        rounds = count + 1 ∧ found = underscored name count := by
  constructor
  · intro h
    induction h with
    | @free name h =>
      refine ⟨0, ⟨?_, fun _ _ => Nat.zero_le _⟩, rfl, (underscored_zero name).symm⟩
      rwa [Set.mem_ofPred_eq, underscored_zero]
    | @again name found rounds h rest ih =>
      obtain ⟨count, hleast, rfl, rfl⟩ := ih
      exact ⟨count + 1, (isLeast_underscored_succ h).2 hleast, rfl, underscored_append name count⟩
  · rintro ⟨count, hleast, rfl, rfl⟩
    induction count generalizing name with
    | zero =>
      have hfree := hleast.1
      rw [Set.mem_ofPred_eq, underscored_zero] at hfree
      rw [underscored_zero]
      exact .free hfree
    | succ count ih =>
      have htaken : name ∈ taken := by
        by_contra hfree
        rw [← underscored_zero name] at hfree
        exact absurd (hleast.2 hfree) (Nat.not_succ_le_zero count)
      have hrest := ih ((isLeast_underscored_succ htaken).1 hleast)
      rw [underscored_append] at hrest
      exact .again htaken hrest

/-- The names that the search passes are distinct and all taken. -/
theorem count_le_card_of_isLeast {count : Nat}
    (h : IsLeast {count | underscored name count ∉ taken} count) : count ≤ taken.toFinset.card := by
  have hmaps : Set.MapsTo (underscored name) (Finset.range count) taken.toFinset := by
    intro fewer hfewer
    have hlt : fewer < count := Finset.mem_range.1 hfewer
    by_contra hfree
    exact Nat.not_le_of_lt hlt (h.2 fun hmem => hfree (List.mem_toFinset.2 hmem))
  have hcard := Finset.card_le_card_of_injOn _ hmaps (underscored_injective name).injOn
  rwa [Finset.card_range] at hcard

end Search

/-- The names that are free for a local. -/
theorem EntryLayout.notMem_takenNames_iff {layout : EntryLayout} {name : String} :
    name ∉ layout.takenNames ↔
      (∀ v ∈ layout.inputs ++ layout.outputs, v.name ≠ name) ∧ layout.inputLocal ≠ name := by
  rw [EntryLayout.takenNames, List.mem_append, not_or, List.mem_map, List.mem_singleton, eq_comm]
  refine and_congr_left fun _ => ?_
  simp only [not_exists, not_and]

/-- On a built-in target, a local is not a reserved word. -/
theorem Target.isReserved_freshLocal (target : Target) (layout : EntryLayout) (base : String) :
    target.dialect.identifiers.isReserved (layout.freshLocal target.dialect base) = false := by
  obtain ⟨count, heq⟩ := layout.freshLocal_eq target.dialect base
  rw [heq, ← target.correct_underscored]
  exact target.isReserved_correct _

/-- **The search for a local ends**, on every dialect and for every layout: it tests at most one name more than
there are taken names, and finds the corrected base with the fewest underscores that differs from every stage
variable and from the local that is already chosen.  So whenever an entry is planned, its two locals differ from
each other and from every stage variable, and on a built-in target are no reserved words; or it is a compute
entry, and `main` calls it without locals. -/
theorem main_locals_found :
    (∀ (d : Dialect) (layout : EntryLayout) (base : String), ∃ count,
      IsLeast {count |
        (∀ v ∈ layout.inputs ++ layout.outputs, v.name ≠ underscored (d.correct base) count) ∧
          layout.inputLocal ≠ underscored (d.correct base) count} count ∧
      count ≤ layout.takenNames.toFinset.card ∧
      layout.freshLocal d base = underscored (d.correct base) count ∧
      ∀ rounds found, Search layout.takenNames (d.correct base) rounds found ↔
        rounds = count + 1 ∧ found = layout.freshLocal d base) ∧
    ∀ (d : Dialect) (m : Meanings) (depth : Nat) (f : Function) (stage : Stage) (layout : EntryLayout)
      (τ : Resolution), (planEntry d depth f stage).eval m {} = (.ok layout, τ) →
      stage = .compute ∧ callSteps d layout = [.call (d.correct f.name)] ∨
      (∃ start : EntryLayout, layout = start.withLocals d) ∧
      layout.inputLocal ≠ layout.outputLocal ∧
      (∀ v ∈ layout.inputs ++ layout.outputs,
        v.name ≠ layout.inputLocal ∧ v.name ≠ layout.outputLocal) ∧
      ∀ target : Target, d = target.dialect →
        d.identifiers.isReserved layout.inputLocal = false ∧
          d.identifiers.isReserved layout.outputLocal = false := by
  constructor
  · intro d layout base
    obtain ⟨count, hleast, hfound⟩ := freshName_isLeast layout.takenNames (d.correct base)
    have hfound : layout.freshLocal d base = underscored (d.correct base) count := hfound
    refine ⟨count, ?_, count_le_card_of_isLeast hleast, hfound, fun rounds found => ?_⟩
    · simpa only [EntryLayout.notMem_takenNames_iff] using hleast
    · rw [search_iff, hfound]
      constructor
      · rintro ⟨other, hother, rfl, rfl⟩
        rw [hother.unique hleast]
        exact ⟨rfl, rfl⟩
      · rintro ⟨rfl, rfl⟩
        exact ⟨count, hleast, rfl, rfl⟩
  · intro d m depth f stage layout τ hplan
    by_cases hstage : stage = .compute
    · subst hstage
      obtain ⟨outputType, rfl⟩ := planEntry_computeLayout hplan
      exact .inl ⟨rfl, rfl⟩
    · obtain ⟨start, rfl⟩ := exists_withLocals hstage hplan
      obtain ⟨houtput, hne⟩ := start.outputLocal_notMem d
      refine .inr ⟨⟨start, rfl⟩, hne.symm, fun v hv => ⟨fun heq => ?_, fun heq => ?_⟩, ?_⟩
      · exact start.inputLocal_notMem d (heq ▸ List.mem_map_of_mem hv)
      · exact houtput (heq ▸ List.mem_map_of_mem hv)
      · rintro target rfl
        exact ⟨target.isReserved_freshLocal _ _, target.isReserved_freshLocal _ _⟩

theorem main_locals_found_tangled :
    ∃ layout τ,
      (planEntry (Target.glsl330).dialect 1 Function.paint .vertex).eval Meanings.tangled {} =
        (.ok layout, τ) ∧
      layout.inputs.map (·.name) = ["input_", "input__", "out_color", "gl_Position"] ∧
      layout.inputLocal = "input___" ∧
      layout.inputLocal ≠ layout.outputLocal ∧
      (∀ v ∈ layout.inputs ++ layout.outputs,
        v.name ≠ layout.inputLocal ∧ v.name ≠ layout.outputLocal) ∧
      (Target.glsl330).dialect.identifiers.isReserved layout.inputLocal = false := by
  let plan := (planEntry (Target.glsl330).dialect 1 Function.paint .vertex).eval Meanings.tangled {}
  have hnames : plan.1.toOption.map (fun layout =>
      (layout.inputs.map (·.name), layout.inputLocal)) =
      some (["input_", "input__", "out_color", "gl_Position"], "input___") := by
    decide +kernel
  rcases hplan : plan with ⟨_ | layout, τ⟩
  · rw [hplan] at hnames
    cases hnames
  · rw [hplan] at hnames
    simp only [Except.toOption, Option.map_some, Option.some.injEq, Prod.mk.injEq] at hnames
    obtain ⟨hinputs, hlocal⟩ := hnames
    obtain ⟨hcompute, -⟩ | ⟨-, hne, hstage, hreserved⟩ := main_locals_found.2 _ _ _ _ _ _ _ hplan
    · cases hcompute
    · exact ⟨layout, τ, hplan, hinputs, hlocal, hne, hstage, (hreserved .glsl330 rfl).1⟩

end CrossShader

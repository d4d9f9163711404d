import CrossShader.EntryPoint.Plan
import Mathlib.Data.List.Nodup
import Mathlib.Data.List.Perm.Subperm

/-!
# Names that stay apart

How names are changed, and why distinct names stay distinct.

* `underscored` — a name followed by underscores.
* `Identifiers.correct_inj` — correction keeps distinct names distinct.
* `freshName_eq`, `freshName_notMem` — the search for a free name adds underscores only, and ends at a
  name that is free.
-/

set_option autoImplicit false

namespace CrossShader

/-- A name followed by `count` underscores. -/
def underscored (name : String) (count : Nat) : String :=
  name ++ String.ofList (List.replicate count '_')

theorem underscored_zero (name : String) : underscored name 0 = name := by
  rw [← String.toList_inj]
  simp [underscored]

theorem underscored_append (name : String) (count : Nat) :
    underscored (name ++ "_") count = underscored name (count + 1) := by
  have hone : "_".toList = ['_'] := rfl
  rw [← String.toList_inj]
  simp [underscored, List.replicate_succ, hone]

theorem underscored_injective (name : String) : Function.Injective (underscored name) := by
  intro a b h
  have hlength := congrArg (fun s => s.toList.length) h
  simpa [underscored] using hlength

/-! ## Correction -/

theorem stem_append_underscore (name : String) : stem (name ++ "_") = stem name := by
  have hone : "_".toList = ['_'] := rfl
  simp [stem, stemChars, hone]

/-- **Correction keeps distinct names distinct.**  A name that gets an underscore keeps its stem, so it
never meets a name that stays as it is. -/
theorem Identifiers.correct_inj (ids : Identifiers) {a b : String} :
    ids.correct a = ids.correct b ↔ a = b := by
  refine ⟨fun h => ?_, fun h => h ▸ rfl⟩
  unfold Identifiers.correct at h
  split at h <;> split at h
  · exact (String.append_left_inj "_").1 h
  · rename_i ha hb
    rw [← h, stem_append_underscore] at hb
    exact absurd ha hb
  · rename_i ha hb
    rw [h, stem_append_underscore] at ha
    exact absurd hb ha
  · exact h

/-! ## Free names -/

/-- The search passes taken names only, and stops early only at a free one. -/
theorem freshName_eq (taken : List String) (rounds : Nat) (name : String) :
    ∃ count ≤ rounds, freshName taken rounds name = underscored name count ∧
      (∀ fewer < count, underscored name fewer ∈ taken) ∧
      (count < rounds → underscored name count ∉ taken) := by
  induction rounds generalizing name with
  | zero => exact ⟨0, Nat.le_refl 0, (underscored_zero name).symm, nofun, nofun⟩
  | succ rounds ih =>
    rw [freshName]
    split
    · rename_i htaken
      obtain ⟨count, hle, heq, hpassed, hstop⟩ := ih (name ++ "_")
      simp only [underscored_append] at heq hpassed hstop
      refine ⟨count + 1, Nat.succ_le_succ hle, heq, fun fewer hfewer => ?_,
        fun hlt => hstop (Nat.lt_of_succ_lt_succ hlt)⟩
      cases fewer with
      | zero => rwa [underscored_zero, ← List.contains_iff_mem]
      | succ fewer => exact hpassed fewer (Nat.lt_of_succ_lt_succ hfewer)
    · rename_i hfree
      refine ⟨0, Nat.zero_le _, (underscored_zero name).symm, nofun, fun _ => ?_⟩
      rwa [underscored_zero, ← List.contains_iff_mem]

/-- **The name that is found is free**, since a list cannot hold more names than its length. -/
theorem freshName_notMem (taken : List String) (name : String) :
    freshName taken taken.length name ∉ taken := by
  obtain ⟨count, hle, heq, hpassed, hstop⟩ := freshName_eq taken taken.length name
  rw [heq]
  rcases Nat.lt_or_eq_of_le hle with hlt | hfull
  · exact hstop hlt
  · intro hmem
    have hall : ((List.range (count + 1)).map (underscored name)) ⊆ taken := by
      intro candidate hcandidate
      obtain ⟨fewer, hfewer, rfl⟩ := List.mem_map.1 hcandidate
      rcases Nat.lt_or_eq_of_le (Nat.lt_succ_iff.1 (List.mem_range.1 hfewer)) with hlt | rfl
      · exact hpassed fewer hlt
      · exact hmem
    have hnodup : ((List.range (count + 1)).map (underscored name)).Nodup :=
      List.nodup_range.map (underscored_injective name)
    have hlength := (hnodup.subperm hall).length_le
    rw [List.length_map, List.length_range] at hlength
    omega

end CrossShader

import CrossShader.Validation
import Mathlib.Data.List.Basic

/-!
# What findings mean

Each finding of validation as a condition on the part that it concerns.

* `Structure.mem_findings_iff` — field names that occur twice.
* `ResourceFlaw`, `FunctionFlaw` — the problems of resources and functions;
  `Resource.mem_findings_iff`, `Program.mem_functionFindings_iff` — validation finds exactly these.
* `Program.mem_validate_iff` — the issues of a program are the findings of its parts.
-/

set_option autoImplicit false

namespace CrossShader

theorem mem_repeatedNames_iff {name : String} {names seen : List String} :
    name ∈ repeatedNames seen names ↔ name ∈ seen ∧ name ∈ names ∨ 2 ≤ names.count name := by
  induction names generalizing seen with
  | nil => simp [repeatedNames]
  | cons first rest ih =>
    have hrest : 1 ≤ rest.count name ↔ name ∈ rest := List.one_le_count_iff
    unfold repeatedNames
    by_cases hseen : first ∈ seen
    · rw [if_pos (List.contains_iff_mem.2 hseen), List.mem_cons, ih]
      by_cases hname : name = first
      · subst hname
        simp [hseen]
      · simp [hname, List.count_cons_of_ne (Ne.symm hname)]
    · rw [if_neg (mt List.contains_iff_mem.1 hseen), ih]
      by_cases hname : name = first
      · subst hname
        simp only [List.mem_cons_self, true_and, hseen, false_and, false_or, List.count_cons_self,
          ← hrest]
        omega
      · simp [hname, List.count_cons_of_ne (Ne.symm hname)]

/-- A structure has the finding of each field name that occurs twice, and no other. -/
theorem Structure.mem_findings_iff {s : Structure} {finding : Finding} :
    finding ∈ s.findings ↔
      ∃ field, finding = .duplicateField field ∧ 2 ≤ (s.fields.map (·.name)).count field := by
  simp [Structure.findings, mem_repeatedNames_iff, and_comm, eq_comm]

/-- The problems of a resource. -/
inductive ResourceFlaw (r : Resource) : Finding → Prop
  | unknownKind {raw : Nat} : r.kind = .other raw → ResourceFlaw r (.unknownKind raw)
  | missingValueType : r.kind.needsValueType = true → r.valueType = none →
      ResourceFlaw r (.missingValueType r.kind)

theorem Resource.mem_findings_iff {r : Resource} {finding : Finding} :
    finding ∈ r.findings ↔ ResourceFlaw r finding := by
  constructor
  · intro h
    unfold Resource.findings at h
    split at h
    · rename_i raw hkind
      cases List.mem_singleton.1 h
      exact .unknownKind hkind
    · split at h
      · rename_i hmissing
        obtain ⟨hneeds, hnone⟩ := Bool.and_eq_true_iff.1 hmissing
        cases List.mem_singleton.1 h
        exact .missingValueType hneeds (Option.isNone_iff_eq_none.1 hnone)
      · cases h
  · intro h
    unfold Resource.findings
    cases h with
    | unknownKind hkind =>
      rw [hkind]
      exact List.mem_singleton_self _
    | missingValueType hneeds hnone =>
      split
      · rename_i raw hkind
        rw [hkind] at hneeds
        cases hneeds
      · rw [hneeds, hnone]
        exact List.mem_singleton_self _

/-- The problems of a function. -/
inductive FunctionFlaw (p : Program) (f : Function) : Finding → Prop
  | parameterCount {stage : Stage} : f.role = .entry stage → stage ≠ .compute →
      f.parameters.length ≠ 1 → FunctionFlaw p f (.parameterCount stage f.parameters.length)
  | noPosition {s : Structure} : f.role = .entry .vertex →
      p.structures.find? f.returnType.name = some s → s.positionFields = [] →
      FunctionFlaw p f (.noPosition s.name)
  | severalPositions {s : Structure} : f.role = .entry .vertex →
      p.structures.find? f.returnType.name = some s → 1 < s.positionFields.length →
      FunctionFlaw p f (.severalPositions s.name s.positionFields.length)
  | fragmentResult : f.role = .entry .fragment → f.returnType ≠ ⟨Host.vector4, false⟩ →
      FunctionFlaw p f (.fragmentResult f.returnType)
  | computeParameters : f.role = .entry .compute → f.parameters ≠ [] →
      FunctionFlaw p f .computeParameters
  | emptyExtent {axis : Nat} : f.role = .entry .compute → f.workgroup.extents[axis]? = some 0 →
      FunctionFlaw p f (.emptyExtent axis)

theorem Function.mem_parameterFindings_iff {f : Function} {stage : Stage} {finding : Finding} :
    finding ∈ f.parameterFindings stage ↔
      f.parameters.length ≠ 1 ∧ finding = .parameterCount stage f.parameters.length := by
  unfold Function.parameterFindings
  split <;> simp_all

theorem Structure.mem_outputFindings_iff {s : Structure} {finding : Finding} :
    finding ∈ s.outputFindings ↔
      s.positionFields = [] ∧ finding = .noPosition s.name ∨
        1 < s.positionFields.length ∧
          finding = .severalPositions s.name s.positionFields.length := by
  unfold Structure.outputFindings
  rw [← List.length_eq_zero_iff]
  match s.positionFields.length with
  | 0 => simp
  | 1 => simp
  | count + 2 => simp

theorem Workgroup.mem_emptyExtents_iff {w : Workgroup} {finding : Finding} :
    finding ∈ (w.extents.zipIdx.filter (·.1 == 0)).map (fun e => Finding.emptyExtent e.2) ↔
      ∃ axis, w.extents[axis]? = some 0 ∧ finding = .emptyExtent axis := by
  simp only [List.mem_map, List.mem_filter, beq_iff_eq, Prod.exists, List.mk_mem_zipIdx_iff_getElem?]
  constructor
  · rintro ⟨extent, axis, ⟨haxis, rfl⟩, rfl⟩
    exact ⟨axis, haxis, rfl⟩
  · rintro ⟨axis, haxis, rfl⟩
    exact ⟨0, axis, ⟨haxis, rfl⟩, rfl⟩

theorem Program.mem_resultFindings_iff {p : Program} {f : Function} {finding : Finding} :
    finding ∈ ((p.structures.find? f.returnType.name).map Structure.outputFindings).getD [] ↔
      ∃ s, p.structures.find? f.returnType.name = some s ∧ finding ∈ s.outputFindings := by
  cases p.structures.find? f.returnType.name with
  | none => simp
  | some s => simp

/-- Every finding of a function is a problem of it, by the stage of the function. -/
theorem FunctionFlaw.of_mem {p : Program} {f : Function} {finding : Finding}
    (h : finding ∈ p.functionFindings f) : FunctionFlaw p f finding := by
  unfold Program.functionFindings at h
  cases hrole : f.role with
  | plain =>
    rw [hrole] at h
    cases h
  | entry stage =>
    rw [hrole] at h
    cases stage with
    | vertex =>
      rw [List.mem_append, Function.mem_parameterFindings_iff, Program.mem_resultFindings_iff] at h
      rcases h with ⟨hcount, rfl⟩ | ⟨s, hfound, h⟩
      · exact .parameterCount hrole (by decide) hcount
      · rcases Structure.mem_outputFindings_iff.1 h with ⟨hnone, rfl⟩ | ⟨hseveral, rfl⟩
        · exact .noPosition hrole hfound hnone
        · exact .severalPositions hrole hfound hseveral
    | fragment =>
      rw [List.mem_append, Function.mem_parameterFindings_iff] at h
      rcases h with ⟨hcount, rfl⟩ | h
      · exact .parameterCount hrole (by decide) hcount
      · split at h
        · cases h
        · rename_i hresult
          cases List.mem_singleton.1 h
          exact .fragmentResult hrole hresult
    | compute =>
      rw [List.mem_append, Workgroup.mem_emptyExtents_iff] at h
      rcases h with h | ⟨axis, haxis, rfl⟩
      · split at h
        · cases h
        · rename_i hparameters
          cases List.mem_singleton.1 h
          exact .computeParameters hrole (by simpa using hparameters)
      · exact .emptyExtent hrole haxis

/-- Every problem of a function is found: each one names the stage in which it is looked for. -/
theorem FunctionFlaw.mem {p : Program} {f : Function} {finding : Finding}
    (h : FunctionFlaw p f finding) : finding ∈ p.functionFindings f := by
  unfold Program.functionFindings
  cases h with
  | @parameterCount stage hrole hcompute hcount =>
    rw [hrole]
    have hmem : Finding.parameterCount stage f.parameters.length ∈ f.parameterFindings stage :=
      Function.mem_parameterFindings_iff.2 ⟨hcount, rfl⟩
    cases stage with
    | vertex | fragment => exact List.mem_append_left _ hmem
    | compute => exact absurd rfl hcompute
  | noPosition hrole hfound hnone =>
    rw [hrole]
    refine List.mem_append_right _ (Program.mem_resultFindings_iff.2 ⟨_, hfound, ?_⟩)
    exact Structure.mem_outputFindings_iff.2 (.inl ⟨hnone, rfl⟩)
  | severalPositions hrole hfound hseveral =>
    rw [hrole]
    refine List.mem_append_right _ (Program.mem_resultFindings_iff.2 ⟨_, hfound, ?_⟩)
    exact Structure.mem_outputFindings_iff.2 (.inr ⟨hseveral, rfl⟩)
  | fragmentResult hrole hresult =>
    rw [hrole]
    refine List.mem_append_right _ ?_
    rw [if_neg hresult]
    exact List.mem_singleton_self _
  | computeParameters hrole hparameters =>
    rw [hrole]
    refine List.mem_append_left _ ?_
    rw [if_neg (by simpa using hparameters)]
    exact List.mem_singleton_self _
  | emptyExtent hrole haxis =>
    rw [hrole]
    exact List.mem_append_right _ (Workgroup.mem_emptyExtents_iff.2 ⟨_, haxis, rfl⟩)

theorem Program.mem_functionFindings_iff {p : Program} {f : Function} {finding : Finding} :
    finding ∈ p.functionFindings f ↔ FunctionFlaw p f finding :=
  ⟨.of_mem, FunctionFlaw.mem⟩

/-- The issues of a program are the findings of its parts. -/
theorem Program.mem_validate_iff {p : Program} {issue : Issue} :
    issue ∈ p.validate ↔
      (∃ s ∈ p.structures.toList, ∃ finding ∈ s.findings, issue = ⟨s.name, finding⟩) ∨
      (∃ r ∈ p.resources.items, ∃ finding ∈ r.findings, issue = ⟨r.name, finding⟩) ∨
      ∃ f ∈ p.functions.items, ∃ finding ∈ p.functionFindings f, issue = ⟨f.name, finding⟩ := by
  simp [Program.validate, eq_comm]

end CrossShader

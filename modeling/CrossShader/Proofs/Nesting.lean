import CrossShader.Generation
import CrossShader.Proofs.Resolution
import Mathlib.Data.List.Perm.Subperm

/-!
# The nesting bound

Resolution bounds how deep structures nest.  The names on a path of nested structures are distinct and
stand for structures, so a bound beyond the number of such names is never reached.

* `resolveStructure_agree` — with more room than there are names that stand for structures, more room
  makes no difference; the lemmas after it carry this to a whole request.
* `Program.generateFrom_result` — a request with any bound from `Program.nestingBound` on has the
  result of `Program.generate`.
-/

set_option autoImplicit false

namespace CrossShader

variable {m : Meanings} {names : List String}

/-- A path of distinct names that stand for structures is no longer than the list of such names. -/
theorem path_length_le {path : List String} (hnd : path.Nodup) (hsub : path ⊆ names) :
    path.length ≤ names.length :=
  (hnd.subperm hsub).length_le

/-- **Room beyond the number of names is never used up**, so any two bounds beyond it agree. -/
theorem resolveStructure_agree (d : Dialect) (hm : ∀ name s, m name = .ok s → name ∈ names) :
    ∀ (n k : Nat) (path : List String) (name : String) (f : DiscoveryFailure → GenerationError),
      path.Nodup → path ⊆ names → names.length < n + path.length →
      names.length < k + path.length →
      Request.Agree m (resolveStructure d n path name f) (resolveStructure d k path name f) := by
  intro n
  induction n with
  | zero =>
    intro k path name f hnd hsub hn _
    have := path_length_le hnd hsub
    omega
  | succ n ih =>
    intro k path name f hnd hsub hn hk
    have hle := path_length_le hnd hsub
    obtain ⟨k, rfl⟩ : ∃ k', k = k' + 1 := ⟨k - 1, by omega⟩
    rw [resolveStructure.eq_def, resolveStructure.eq_def]
    refine (Request.Agree.refl _).bind fun σ => ?_
    cases σ.structures.lookup name with
    | some known => exact Request.Agree.refl _
    | none =>
      by_cases hp : name ∈ path
      · simp only [List.contains_iff_mem, hp, if_true]
        exact Request.Agree.refl _
      · simp only [List.contains_iff_mem, hp, if_false]
        refine (Request.Agree.refl _).bindOn fun τ reply τ' hreply => ?_
        rw [Request.eval_discover] at hreply
        cases hs : m name with
        | error reason =>
          rw [hs] at hreply
          cases hreply
          exact Request.Agree.refl _
        | ok definition =>
          rw [hs] at hreply
          cases hreply
          refine Request.Agree.bind ?_ fun _ => Request.Agree.refl _
          -- the fields are resolved with one more name on the path and one less of room
          refine Request.Agree.forM (fun field => ?_) _
          cases d.mapType field.type.name with
          | some _ => exact Request.Agree.refl _
          | none =>
            refine Request.Agree.bind ?_ fun _ => Request.Agree.refl _
            exact ih k (name :: path) field.type.name _ (List.nodup_cons.2 ⟨hp, hnd⟩)
              (List.cons_subset.2 ⟨hm name definition hs, hsub⟩)
              (by simp only [List.length_cons]; omega) (by simp only [List.length_cons]; omega)

theorem resolveType_agree (d : Dialect) (hm : ∀ name s, m name = .ok s → name ∈ names) {n k : Nat}
    (hn : names.length < n) (hk : names.length < k) (type : TypeRef) :
    Request.Agree m (resolveType d n type) (resolveType d k type) := by
  unfold resolveType
  cases d.mapType type.name with
  | some _ => exact Request.Agree.refl _
  | none =>
    exact (resolveStructure_agree d hm n k [] type.name _ List.nodup_nil (List.nil_subset _)
      (by simpa using hn) (by simpa using hk)).bind fun _ => Request.Agree.refl _

theorem requireStructure_agree (d : Dialect) (hm : ∀ name s, m name = .ok s → name ∈ names)
    {n k : Nat} (hn : names.length < n) (hk : names.length < k) (name : String) :
    Request.Agree m (requireStructure d n name) (requireStructure d k name) :=
  resolveStructure_agree d hm n k [] name _ List.nodup_nil (List.nil_subset _)
    (by simpa using hn) (by simpa using hk)

theorem resolveFunction_agree (d : Dialect) (hm : ∀ name s, m name = .ok s → name ∈ names)
    {n k : Nat} (hn : names.length < n) (hk : names.length < k) (f : Function) :
    Request.Agree m (resolveFunction d n f) (resolveFunction d k f) :=
  Request.Agree.forM (fun type => (resolveType_agree d hm hn hk type).bind fun _ =>
    Request.Agree.refl _) _


/-! ## Requests -/

theorem interfaceVariables_agree (d : Dialect) (hm : ∀ name s, m name = .ok s → name ∈ names)
    {n k : Nat} (hn : names.length < n) (hk : names.length < k) (direction : Direction)
    (stage : Stage) (lead : String) :
    ∀ (slot : Nat) (fields : List Field),
      Request.Agree m (interfaceVariables d n direction stage lead slot fields)
        (interfaceVariables d k direction stage lead slot fields)
  | _, [] => Request.Agree.refl _
  | slot, field :: rest => by
    refine Request.Agree.bind ?_ fun _ =>
      (interfaceVariables_agree d hm hn hk direction stage lead (slot + 1) rest).bind fun _ =>
        Request.Agree.refl _
    unfold interfaceVariable
    split
    · exact Request.Agree.refl _
    · exact (resolveType_agree d hm hn hk field.type).bind fun _ => Request.Agree.refl _

theorem planVertex_agree (d : Dialect) (hm : ∀ name s, m name = .ok s → name ∈ names)
    {n k : Nat} (hn : names.length < n) (hk : names.length < k) (f : Function)
    (layout : EntryLayout) : Request.Agree m (planVertex d n f layout) (planVertex d k f layout) := by
  unfold planVertex
  split
  · exact Request.Agree.throw _ _ _
  · refine (requireStructure_agree d hm hn hk f.returnType.name).bind fun output => ?_
    rcases clipPosition? output.fields with _ | ⟨position, others⟩
    · exact Request.Agree.refl _
    · refine (Request.Agree.refl _).bind fun _ => ?_
      refine Request.Agree.bind ?_ fun _ => Request.Agree.refl _
      exact interfaceVariables_agree d hm hn hk .output .vertex vertexOutputLead 0 others

theorem planCompute_agree (d : Dialect) (hm : ∀ name s, m name = .ok s → name ∈ names)
    {n k : Nat} (hn : names.length < n) (hk : names.length < k) (f : Function)
    (layout : EntryLayout) :
    Request.Agree m (planCompute d n f layout) (planCompute d k f layout) := by
  simp only [planCompute]
  split
  · exact Request.Agree.throw _ _ _
  · split
    · exact Request.Agree.throw _ _ _
    · exact (resolveType_agree d hm hn hk f.returnType).bind fun _ => Request.Agree.refl _

theorem planGraphics_agree (d : Dialect) (hm : ∀ name s, m name = .ok s → name ∈ names)
    {n k : Nat} (hn : names.length < n) (hk : names.length < k) (f : Function) (stage : Stage)
    {result result' : EntryLayout → Request EntryLayout}
    (hr : ∀ layout, Request.Agree m (result layout) (result' layout)) (layout : EntryLayout) :
    Request.Agree m (planGraphics d n f stage result layout)
      (planGraphics d k f stage result' layout) := by
  unfold planGraphics
  split
  · split
    · exact Request.Agree.throw _ _ _
    · exact (requireStructure_agree d hm hn hk _).bind fun input =>
        (interfaceVariables_agree d hm hn hk .input stage "" 0 input.fields).bind fun _ =>
          (hr _).bind fun _ => Request.Agree.refl _
  · exact Request.Agree.refl _

theorem planEntry_agree (d : Dialect) (hm : ∀ name s, m name = .ok s → name ∈ names)
    {n k : Nat} (hn : names.length < n) (hk : names.length < k) (f : Function) (stage : Stage) :
    Request.Agree m (planEntry d n f stage) (planEntry d k f stage) := by
  cases stage with
  | compute => exact planCompute_agree d hm hn hk f _
  | vertex =>
    exact planGraphics_agree d hm hn hk f .vertex (planVertex_agree d hm hn hk f) _
  | fragment =>
    exact planGraphics_agree d hm hn hk f .fragment (fun _ => Request.Agree.refl _) _

theorem resolveRequest_agree (d : Dialect) (hm : ∀ name s, m name = .ok s → name ∈ names)
    {n k : Nat} (hn : names.length < n) (hk : names.length < k) (c : Code) (f : Function)
    (stage : Stage) (functions : List Function) :
    Request.Agree m (resolveRequest d c n f stage functions)
      (resolveRequest d c k f stage functions) := by
  refine (planEntry_agree d hm hn hk f stage).bind fun _ => ?_
  refine (Request.Agree.forM (resolveFunction_agree d hm hn hk) functions).bind fun _ => ?_
  refine Request.Agree.bind ?_ fun _ => Request.Agree.refl _
  exact Request.Agree.forM (fun type => (resolveType_agree d hm hn hk type).bind fun _ =>
    Request.Agree.refl _) _

theorem documentRequest_agree (d : Dialect) (hm : ∀ name s, m name = .ok s → name ∈ names)
    {n k : Nat} (hn : names.length < n) (hk : names.length < k) (c : Code) (entry : String)
    (options : Options) :
    Request.Agree m (documentRequest d c n entry options) (documentRequest d c k entry options) := by
  unfold documentRequest
  refine (Request.Agree.refl _).bind fun found => ?_
  obtain ⟨f, stage⟩ := found
  refine (Request.Agree.refl _).bind fun _ => ?_
  refine (Request.Agree.refl _).bind fun functions => ?_
  refine (resolveRequest_agree d hm hn hk c f stage functions).bind fun _ => ?_
  exact Request.Agree.refl _

/-- The shader of a request under fixed meanings. -/
theorem eval_shaderQuery (m : Meanings) (d : Dialect) (c : Code) (depth : Nat) (entry : String)
    (options : Options) :
    (shaderQuery d c depth entry options).eval m =
      ((documentRequest d c depth entry options).eval m {}).1.map fun lines =>
        { text := Text.renderLines options.indent lines
          diagnostics := ((documentRequest d c depth entry options).eval m {}).2.diagnostics } := by
  unfold shaderQuery
  show (Query.bind _ _).eval m = _
  rw [Query.eval_bind, Request.eval_toQuery]
  rfl

theorem eval_shaderQuery_agree (d : Dialect) (hm : ∀ name s, m name = .ok s → name ∈ names)
    {n k : Nat} (hn : names.length < n) (hk : names.length < k) (c : Code) (entry : String)
    (options : Options) :
    (shaderQuery d c n entry options).eval m = (shaderQuery d c k entry options).eval m := by
  rw [eval_shaderQuery, eval_shaderQuery, (documentRequest_agree d hm hn hk c entry options {}).1]

theorem asked_shaderQuery (m : Meanings) (d : Dialect) (c : Code) (depth : Nat) (entry : String)
    (options : Options) :
    (shaderQuery d c depth entry options).asked m =
      (documentRequest d c depth entry options).asked m {} := by
  unfold shaderQuery
  show (Query.bind _ _).asked m = _
  rw [Query.asked_bind, Request.asked_toQuery]
  exact List.append_nil _

theorem asked_shaderQuery_agree (d : Dialect) (hm : ∀ name s, m name = .ok s → name ∈ names)
    {n k : Nat} (hn : names.length < n) (hk : names.length < k) (c : Code) (entry : String)
    (options : Options) :
    (shaderQuery d c n entry options).asked m = (shaderQuery d c k entry options).asked m := by
  rw [asked_shaderQuery, asked_shaderQuery, (documentRequest_agree d hm hn hk c entry options {}).2]

/-! ## Programs -/

theorem Program.generateFrom_result_eq_eval (p : Program) (symbols : SymbolSource) (depth : Nat)
    (d : Dialect) (entry : String) (options : Options) :
    (p.generateFrom symbols depth d entry options).result =
      (shaderQuery d p.toCode depth entry options).eval (p.structures.meaning symbols) :=
  Query.run_value symbols _ p.structures

/-- A generated shader has the lines and the diagnostics that its request ends with. -/
theorem Program.generateFrom_ok {p : Program} {symbols : SymbolSource} {depth : Nat} {d : Dialect}
    {entry : String} {options : Options} {shader : Shader}
    (h : (p.generateFrom symbols depth d entry options).result = .ok shader) :
    ∃ lines σ, (documentRequest d p.toCode depth entry options).eval
        (p.structures.meaning symbols) {} = (.ok lines, σ) ∧
      shader.text = Text.renderLines options.indent lines ∧ shader.diagnostics = σ.diagnostics := by
  rw [Program.generateFrom_result_eq_eval, eval_shaderQuery] at h
  generalize hdoc : (documentRequest d p.toCode depth entry options).eval
    (p.structures.meaning symbols) {} = outcome at h ⊢
  obtain ⟨_ | lines, σ⟩ := outcome
  · cases h
  · cases h
    exact ⟨lines, σ, rfl, rfl, rfl⟩

/-- The names that can stand for a structure: the registered keys and the declared names. -/
def Program.structureNames (p : Program) (symbols : Symbols) : List String :=
  p.structures.entries.map (·.1) ++ symbols.entries.map (·.1)

theorem Program.length_structureNames_lt (p : Program) (symbols : Symbols) :
    (p.structureNames symbols).length < p.nestingBound symbols := by
  simp only [structureNames, List.length_append, List.length_map, nestingBound,
    StructureSet.length, Symbols.length]
  omega

theorem Symbols.mem_names_of_lookup {symbols : Symbols} {name : String} {s : Structure}
    (h : symbols.source.lookup name = .ok s) : name ∈ symbols.entries.map (·.1) := by
  unfold SymbolSource.lookup at h
  cases hd : symbols.source.declarations name with
  | nil => rw [hd] at h; cases h
  | cons first rest =>
    have hmem : first ∈ symbols.declarations name := by
      show first ∈ symbols.source.declarations name
      rw [hd]
      exact List.mem_cons_self
    obtain ⟨entry, hentry, heq⟩ := List.mem_filterMap.1 hmem
    split at heq
    · rename_i hname
      exact List.mem_map.2 ⟨entry, hentry, hname⟩
    · cases heq

theorem Program.mem_structureNames {p : Program} {symbols : Symbols} {name : String} {s : Structure}
    (h : p.structures.meaning symbols.source name = .ok s) : name ∈ p.structureNames symbols := by
  cases hf : p.structures.find? name with
  | some found =>
    exact List.mem_append_left _ (List.mem_map.2 ⟨(name, found), mem_of_lookup hf, rfl⟩)
  | none =>
    rw [StructureSet.meaning_of_find?_none hf] at h
    exact List.mem_append_right _ (Symbols.mem_names_of_lookup h)

/-- **The nesting bound is wide enough**: a wider one gives the same result. -/
theorem Program.generateFrom_result (p : Program) (symbols : Symbols) {depth : Nat}
    (h : p.nestingBound symbols ≤ depth) (d : Dialect) (entry : String) (options : Options) :
    (p.generateFrom symbols depth d entry options).result =
      (p.generate symbols d entry options).result := by
  have hlt := p.length_structureNames_lt symbols
  unfold Program.generate
  rw [generateFrom_result_eq_eval, generateFrom_result_eq_eval]
  exact eval_shaderQuery_agree d (fun _ _ => mem_structureNames) (by omega) hlt _ entry options

end CrossShader

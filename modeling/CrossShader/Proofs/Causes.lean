import CrossShader.Proofs.EmissionErrors
import CrossShader.Proofs.StageInterface

/-!
# Why a request fails

Every error of a request, with the condition on the program that it comes from.

* `ResolutionFault` — the errors of resolution; `resolveStructure_raises`, `resolveType_raises`.
* `EntryFault` — the errors of an entry that does not fit its stage; `planEntry_raises`.
* `covers_of_resolveRequest` — what the first phase leaves behind covers the second.
* `RequestFault` — the errors of a request; `Program.raises_generateFrom` — there are no others.
-/

set_option autoImplicit false

namespace CrossShader

/-! ## Resolution -/

/-- A name that is no structure and has no target type of its own. -/
def Unresolvable (m : Meanings) (d : Dialect) (name : String) : Prop :=
  d.mapType name = none ∧ ∃ reason, m name = .error reason

/-- The errors of resolution: structures that contain themselves or share a target name, and types that
stand for nothing. -/
inductive ResolutionFault (m : Meanings) (d : Dialect) : GenerationError → Prop
  | unsupported {e : GenerationError} : e.Unsupported → ResolutionFault m d e
  | unknownType {name : String} : Unresolvable m d name → ResolutionFault m d (.unknownType name)

section Resolution

variable {m : Meanings} {d : Dialect} {P : GenerationError → Prop}

theorem enterStructure_raises (name : String) (definition : Structure) :
    (enterStructure d name definition).Raises m (ResolutionFault m d) := by
  intro σ
  unfold enterStructure
  rw [Request.eval_bind, Request.eval_get]
  dsimp only
  split
  · exact .error (.unsupported ⟨_, _, rfl⟩)
  · exact .ok _

/-- **The resolution of a name**: only the name itself may be reported in another way. -/
theorem resolveStructure_raises (hP : ∀ e, ResolutionFault m d e → P e) (depth : Nat)
    (path : List String) (name : String) {f : DiscoveryFailure → GenerationError}
    (hf : ∀ reason, m name = .error reason → P (f reason)) :
    (resolveStructure d depth path name f).Raises m P := by
  have hself : P (.unsupported (.selfContaining name) .unknown) := hP _ (.unsupported ⟨_, _, rfl⟩)
  intro σ
  cases hl : σ.structures.lookup name with
  | some known =>
    rw [eval_resolveStructure_known hl]
    exact .ok known
  | none =>
    by_cases hp : name ∈ path
    · rw [eval_resolveStructure_cycle hl hp]
      exact .error hself
    · cases depth with
      | zero =>
        rw [eval_resolveStructure_zero hl hp]
        exact .error hself
      | succ depth =>
        cases hm : m name with
        | error reason =>
          rw [eval_resolveStructure_failure hl hp hm]
          exact .error (hf reason hm)
        | ok definition =>
          rw [eval_resolveStructure_found hl hp hm]
          refine Request.Raises.bind (.forM fun field _ => ?_) (fun _ =>
            ((enterStructure_raises name definition).mono hP).bind fun _ => .pure _) σ
          cases hmap : d.mapType field.type.name with
          | some mapped => exact .pure _
          | none =>
            -- below the name itself, every failure is reported as an unknown type
            exact (resolveStructure_raises hP depth (name :: path) field.type.name fun reason h =>
              hP _ (.unknownType ⟨hmap, reason, h⟩)).bind fun _ => .pure _
termination_by depth

theorem resolveType_raises (depth : Nat) (type : TypeRef) :
    (resolveType d depth type).Raises m (ResolutionFault m d) := by
  unfold resolveType
  cases hmap : d.mapType type.name with
  | some mapped => exact .pure _
  | none =>
    exact (resolveStructure_raises (fun _ => id) depth [] type.name fun reason h =>
      .unknownType ⟨hmap, reason, h⟩).bind fun _ => .pure _

theorem resolveTypes_raises (depth : Nat) (types : List TypeRef) :
    (types.forM fun type => do let _ ← resolveType d depth type : Request PUnit).Raises m
      (ResolutionFault m d) :=
  .forM fun type _ => (resolveType_raises depth type).bind fun _ => .pure _

end Resolution

/-! ## Entries -/

/-- The errors of an entry of a stage: its types cannot be resolved, or its signature does not fit the
stage. -/
inductive EntryFault (m : Meanings) (d : Dialect) (f : Function) : Stage → GenerationError → Prop
  | resolution {stage : Stage} {e : GenerationError} : ResolutionFault m d e → EntryFault m d f stage e
  | unresolvedType {stage : Stage} {name : String} {reason : DiscoveryFailure} :
      m name = .error reason → EntryFault m d f stage (.unresolvedType name reason)
  | computeParameters : f.parameters ≠ [] →
      EntryFault m d f .compute (.invalidEntry f.name .computeParameters)
  | emptyWorkgroup : 0 ∈ f.workgroup.extents →
      EntryFault m d f .compute (.invalidEntry f.name (.emptyWorkgroup f.workgroup))
  | parameterCount {stage : Stage} : stage ≠ .compute → f.parameters.length ≠ 1 →
      EntryFault m d f stage (.invalidEntry f.name (.parameterCount stage f.parameters.length))
  | parameterType {stage : Stage} {parameter : Parameter} : parameter ∈ f.parameters →
      ((d.mapType parameter.type.name).isSome || parameter.type.isArray) = true →
      EntryFault m d f stage (.invalidEntry f.name (.parameterType parameter))
  | vertexResult : ((d.mapType f.returnType.name).isSome || f.returnType.isArray) = true →
      EntryFault m d f .vertex (.invalidEntry f.name (.vertexResult f.returnType))
  | missingPosition {output : Structure} : m f.returnType.name = .ok output →
      output.positionFields = [] → EntryFault m d f .vertex (.missingPosition f.name output.name)
  | invalidReturnType : (∀ type, d.mapType f.returnType.name = some type →
      ¬ (d.mapType Host.vector4 = some type ∧ f.returnType.isArray = false)) →
      EntryFault m d f .fragment (.invalidReturnType f.name f.returnType)

/-- Only a structure without fields tagged as positions has no clip-space position. -/
theorem clipPosition?_eq_none_iff {fields : List Field} :
    clipPosition? fields = none ↔ ∀ field ∈ fields, field.semantic ≠ .position := by
  induction fields with
  | nil => simp [clipPosition?]
  | cons field rest ih =>
    unfold clipPosition?
    split
    · rename_i htag
      simp [htag]
    · rename_i htag
      rw [Option.map_eq_none_iff, ih, List.forall_mem_cons]
      exact (and_iff_right htag).symm

theorem Structure.positionFields_eq_nil_iff {s : Structure} :
    s.positionFields = [] ↔ clipPosition? s.fields = none := by
  rw [clipPosition?_eq_none_iff, Structure.positionFields, List.filter_eq_nil_iff]
  simp only [beq_iff_eq, ne_eq]

section Entries

variable {m : Meanings} {d : Dialect} {f : Function} {stage : Stage}

theorem requireStructure_raises (depth : Nat) (name : String) :
    (requireStructure d depth name).Raises m (EntryFault m d f stage) :=
  resolveStructure_raises (fun _ => .resolution) depth [] name fun _ => .unresolvedType

theorem interfaceVariables_raises (depth : Nat) (direction : Direction) (lead : String) (slot : Nat)
    (fields : List Field) :
    (interfaceVariables d depth direction stage lead slot fields).Raises m (EntryFault m d f stage) := by
  induction fields generalizing slot with
  | nil => exact .pure _
  | cons field rest ih =>
    refine Request.Raises.bind ?_ fun _ => (ih (slot + 1)).bind fun _ => .pure _
    unfold interfaceVariable
    split
    · exact .throw (.resolution (.unsupported ⟨_, _, rfl⟩))
    · exact ((resolveType_raises depth field.type).mono fun _ => .resolution).bind fun _ => .pure _

theorem planVertex_raises (depth : Nat) (layout : EntryLayout) {σ : Resolution}
    (hσ : Settled m d σ.structures) :
    Raises (EntryFault m d f .vertex) ((planVertex d depth f layout).eval m σ).1 := by
  unfold planVertex
  split
  · rename_i hresult
    exact Request.Raises.throwBind (.vertexResult hresult) _ σ
  · refine Request.Raises.bindAt (requireStructure_raises depth _ σ) fun output τ houtput => ?_
    obtain ⟨hmeaning, -⟩ := requireStructure_ok hσ houtput
    cases hclip : clipPosition? output.fields with
    | none => exact .error (.missingPosition hmeaning (Structure.positionFields_eq_nil_iff.2 hclip))
    | some found =>
      obtain ⟨position, others⟩ := found
      refine Request.Raises.bind ?_ (fun _ =>
        (interfaceVariables_raises depth .output _ 0 others).bind fun _ => .pure _) τ
      intro υ
      unfold warnPositions
      split
      · exact .ok _
      · exact .ok _

theorem planFragment_raises (layout : EntryLayout) :
    (planFragment d f layout).Raises m (EntryFault m d f .fragment) := by
  unfold planFragment
  cases htype : d.mapType f.returnType.name with
  | none => exact .throw (.invalidReturnType fun type h => by rw [htype] at h; cases h)
  | some type =>
    dsimp only
    split
    · exact .pure _
    · rename_i hresult
      refine .throw (.invalidReturnType fun type' h => ?_)
      rw [htype] at h
      cases h
      exact hresult

theorem planCompute_raises (depth : Nat) (layout : EntryLayout) :
    (planCompute d depth f layout).Raises m (EntryFault m d f .compute) := by
  simp only [planCompute]
  split
  · rename_i hparameters
    exact .throwBind (.computeParameters (by simpa using hparameters)) _
  · split
    · rename_i hextents
      exact .throwBind (.emptyWorkgroup (by simpa using hextents)) _
    · exact ((resolveType_raises depth f.returnType).mono fun _ => .resolution).bind fun _ => .pure _

theorem planGraphics_raises (hstage : stage ≠ .compute) (depth : Nat)
    {result : EntryLayout → Request EntryLayout} (layout : EntryLayout) {σ : Resolution}
    (hσ : Settled m d σ.structures)
    (hresult : ∀ layout τ, Settled m d τ.structures →
      Raises (EntryFault m d f stage) ((result layout).eval m τ).1) :
    Raises (EntryFault m d f stage) ((planGraphics d depth f stage result layout).eval m σ).1 := by
  unfold planGraphics
  split
  · rename_i parameter hparameter
    split
    · rename_i htype
      refine Request.Raises.throwBind (.parameterType ?_ htype) _ σ
      rw [hparameter]
      exact List.mem_singleton_self parameter
    · refine Request.Raises.bindAt (requireStructure_raises depth _ σ) fun input τ hinput => ?_
      obtain ⟨-, hτ⟩ := requireStructure_ok hσ hinput
      refine Request.Raises.bindAt (interfaceVariables_raises depth .input "" 0 input.fields τ)
        fun inputs υ hinputs => ?_
      exact Request.Raises.bindAt (hresult _ υ (interfaceVariables_settled hτ hinputs))
        fun _ _ _ => .ok _
  · rename_i hparameters
    refine .error (.parameterCount hstage fun hlength => ?_)
    obtain ⟨parameter, hparameter⟩ := List.length_eq_one_iff.1 hlength
    exact hparameters parameter hparameter

/-- **Planning an entry fails only for its own faults.** -/
theorem planEntry_raises (depth : Nat) (f : Function) (stage : Stage) :
    Raises (EntryFault m d f stage) ((planEntry d depth f stage).eval m {}).1 := by
  cases stage with
  | compute => exact planCompute_raises depth _ {}
  | vertex =>
    exact planGraphics_raises (by decide) depth _ .nil fun _ _ hτ => planVertex_raises depth _ hτ
  | fragment =>
    exact planGraphics_raises (by decide) depth _ .nil fun _ τ _ => planFragment_raises _ τ

/-- The first phase fails for the faults of the entry. -/
theorem resolveRequest_raises (c : Code) (depth : Nat) (f : Function) (stage : Stage)
    (functions : List Function) :
    Raises (EntryFault m d f stage)
      ((resolveRequest d c depth f stage functions).eval m {}).1 := by
  refine Request.Raises.bindAt (planEntry_raises depth f stage) fun _ τ _ => ?_
  refine Request.Raises.bind (.forM fun g _ => ?_) (fun _ => Request.Raises.bind ?_ fun _ => .pure _) τ
  · exact (resolveTypes_raises depth _).mono fun _ => .resolution
  · exact (resolveTypes_raises depth _).mono fun _ => .resolution

/-- What the first phase has resolved is mapped. -/
theorem Context.maps_of_resolved {c : Code} {type : TypeRef} {τ : Resolution}
    (h : type.Resolved d τ) : Context.Maps ⟨d, c, τ.structures⟩ type := by
  unfold Context.Maps Context.mappedType
  cases hmap : d.mapType type.name with
  | some mapped => exact ⟨mapped, rfl⟩
  | none =>
    refine ⟨d.structureTypeName type.name, if_pos ?_⟩
    cases hfound : τ.structures.lookup type.name with
    | some definition => exact (congrArg Option.isSome hfound).trans rfl
    | none => exact absurd (h hmap) (notMem_names_of_lookup hfound)

/-- **The first phase resolves every type that the second maps.** -/
theorem covers_of_resolveRequest {c : Code} {depth : Nat} {entry : Function} {stage : Stage}
    {functions : List Function} {layout : EntryLayout} {τ : Resolution}
    (hmem : ∀ f, f ∈ functions ↔ c.Reaches entry f)
    (h : (resolveRequest d c depth entry stage functions).eval m {} = (.ok layout, τ)) :
    Context.Covers ⟨d, c, τ.structures⟩ functions := by
  obtain ⟨⟨hsettled, -⟩, hnamed, hresources⟩ :=
    resolveRequest_settles depth stage ((hmem entry).2 .refl) (fun f hf => (hmem f).1 hf) {} layout τ
      .nil h
  refine ⟨fun structure? hstructure field hfield => ?_, fun r hr type htype => ?_,
    fun f hf type hnames => ?_⟩
  · exact Context.maps_of_resolved fun hmap => hsettled.fields_mem hstructure hfield hmap
  · exact Context.maps_of_resolved (hresources r hr type htype)
  · exact Context.maps_of_resolved (hnamed f hf type hnames)

end Entries

/-! ## Requests -/

/-- The errors of a request: there is no such entry, or the entry, a construct or a resource is at
fault. -/
inductive RequestFault (m : Meanings) (d : Dialect) (c : Code) (entry : String) :
    GenerationError → Prop
  | entryNotFound : c.function? entry = none → RequestFault m d c entry (.entryNotFound entry)
  | notAnEntry {f : Function} : c.function? entry = some f → f.role = .plain →
      RequestFault m d c entry (.invalidEntry entry .notAnEntry)
  | unsupported {e : GenerationError} : e.Unsupported → RequestFault m d c entry e
  | entry {f : Function} {stage : Stage} {e : GenerationError} : c.function? entry = some f →
      f.role = .entry stage → EntryFault m d f stage e → RequestFault m d c entry e
  | resource {r : Resource} {e : GenerationError} : r ∈ c.resources.items → r.Fault e →
      RequestFault m d c entry e

section Requests

variable {m : Meanings}

theorem Role.stage?_eq_some_iff {role : Role} {stage : Stage} :
    role.stage? = some stage ↔ role = .entry stage := by
  cases role <;> simp [Role.stage?]

theorem Role.stage?_eq_none_iff {role : Role} : role.stage? = none ↔ role = .plain := by
  cases role <;> simp [Role.stage?]

theorem role_of_findEntry {d : Dialect} {c : Code} {entry : String} {f : Function} {stage : Stage}
    (h : findEntry d c entry = .ok (f, stage)) : f.role = .entry stage := by
  unfold findEntry at h
  split at h
  · cases h
  · split at h
    · cases h
    · rename_i hstage
      split at h
      · cases h
        exact Role.stage?_eq_some_iff.1 hstage
      · cases h

theorem raises_findEntry (d : Dialect) (c : Code) (entry : String) :
    Raises (RequestFault m d c entry) (findEntry d c entry) := by
  unfold findEntry
  split
  · rename_i hfunction
    exact .error (.entryNotFound hfunction)
  · rename_i f hfunction
    split
    · rename_i hstage
      exact .error (.notAnEntry hfunction (Role.stage?_eq_none_iff.1 hstage))
    · split
      · exact .ok _
      · exact .error (.unsupported ⟨_, _, rfl⟩)

theorem raises_reachable {c : Code} {name : String} {f : Function}
    (h : c.function? name = some f) : Raises GenerationError.Unsupported (c.reachable f) := by
  intro e he
  have hvisited := Code.reachable_visited h
  rw [he] at hvisited
  obtain ⟨g, caller, t, arguments, -, -, -, -, rfl⟩ := hvisited
  exact ⟨_, _, rfl⟩

theorem resourceLines_raises {P : GenerationError → Prop} {c : Context} {resources : List Resource}
    (h : ∀ r ∈ resources, Raises P (c.declareResource r)) :
    (resourceLines c resources).Raises m P := by
  induction resources with
  | nil => exact .pure _
  | cons r rest ih =>
    obtain ⟨hr, hrest⟩ := List.forall_mem_cons.1 h
    refine Request.Raises.bind (.ofExcept hr) fun declared => ?_
    refine Request.Raises.bind (.forM fun record _ _ => .ok _) fun _ => ?_
    exact (ih hrest).bind fun _ => .pure _

/-- The second phase in a covered context fails for constructs and resources. -/
theorem documentLines_raises {target : Target} {c : Context} (hc : c.dialect = target.dialect)
    {functions : List Function} (h : c.Covers functions) (stage : Stage)
    (precision : FloatPrecision) (layout : EntryLayout) (entry : String) :
    (documentLines c stage precision functions layout).Raises m
      (RequestFault m target.dialect c.code entry) := by
  refine Request.Raises.bind (.ofExcept (.of_ok h.exists_structureDecls)) fun _ => ?_
  refine Request.Raises.bind (resourceLines_raises fun r hr => ?_) fun _ => ?_
  · exact (raises_declareResource hc (h.values r hr)).mono fun _ => .resource hr
  · refine Request.Raises.bind (.ofExcept (.mapM fun f hf => ?_)) fun _ => .pure _
    exact (h.raises_functionLines stage hf).mono fun _ => .unsupported

/-- **A request fails only for a fault of its own.** -/
theorem documentRequest_raises (target : Target) (c : Code) (depth : Nat) (entry : String)
    (options : Options) :
    Raises (RequestFault m target.dialect c entry)
      ((documentRequest target.dialect c depth entry options).eval m {}).1 := by
  refine Request.Raises.bindAt (Request.Raises.ofExcept (raises_findEntry _ _ _) _) ?_
  rintro ⟨f, stage⟩ σ₁ h₁
  rw [Request.eval_ofExcept] at h₁
  obtain ⟨hentry, rfl⟩ := Prod.mk.inj h₁
  have hknown := function?_of_findEntry hentry
  refine Request.Raises.bindAt (.ok ()) fun _ σ₂ h₂ => ?_
  cases h₂
  refine Request.Raises.bindAt (Request.Raises.ofExcept
    ((raises_reachable hknown).mono fun _ => .unsupported) _) ?_
  rintro functions σ₃ h₃
  rw [Request.eval_ofExcept] at h₃
  obtain ⟨hfunctions, rfl⟩ := Prod.mk.inj h₃
  refine Request.Raises.bindAt ?_ fun layout τ hresolve => ?_
  · exact (resolveRequest_raises c depth f stage functions).mono fun _ =>
      .entry hknown (role_of_findEntry hentry)
  · have hcovers :=
      covers_of_resolveRequest (fun _ => Code.mem_reachable_iff hknown hfunctions) hresolve
    refine Request.Raises.bindAt (.ok τ) fun τ' σ₅ h₅ => ?_
    cases h₅
    refine Request.Raises.bindAt (.ok ()) fun _ σ₆ h₆ => ?_
    cases h₆
    exact documentLines_raises rfl hcovers stage _ layout entry _

theorem Program.raises_generateFrom (target : Target) (p : Program) (symbols : SymbolSource)
    (depth : Nat) (entry : String) (options : Options) :
    Raises (RequestFault (p.structures.meaning symbols) target.dialect p.toCode entry)
      (p.generateFrom symbols depth target.dialect entry options).result := by
  intro e he
  rw [Program.generateFrom_result_eq_eval, eval_shaderQuery] at he
  have hdocument := documentRequest_raises (m := p.structures.meaning symbols) target p.toCode depth
    entry options
  cases hresult : ((documentRequest target.dialect p.toCode depth entry options).eval
      (p.structures.meaning symbols) {}).1 with
  | ok lines =>
    rw [hresult] at he
    cases he
  | error e' =>
    rw [hresult] at he
    cases he
    exact hdocument e hresult

end Requests

end CrossShader

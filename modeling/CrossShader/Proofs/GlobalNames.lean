import CrossShader.Proofs.DataFlow
import CrossShader.Proofs.GlobalDeclarations
import CrossShader.Proofs.Roster
import Mathlib.Data.List.Perm.Basic

/-!
# Names that meet at global scope

A document declares names that the program gives to structures, resources, functions and, on GLSL,
fields of the entry's parameter, all of them corrected; and names that the target makes up.

* `Program.Built.resources_distinct` — the resources of every program have different names.
* `Document.given`, `Document.coined` — the two kinds of names.
* `Document.Of.globals_perm` — a document declares these names and `main`.
* `Document.Names` — which of them never meet; `Document.Of.names` — this holds of every document.
* `global_names_distinct_iff` — so the names of a document are distinct exactly if no given name is
  given twice or, corrected, made up.
-/

set_option autoImplicit false

namespace CrossShader

open Text

/-! ## Names of resources -/

/-- Programs that come from the empty one by additions and requests. -/
inductive Program.Built : Program → Prop
  | empty : Built .empty
  | resource {p q : Program} {r : Resource} {handle : Handle Resource} :
      Built p → p.addResource r = .ok (handle, q) → Built q
  | function {p q : Program} {f : Function} {handle : Handle Function} :
      Built p → p.addFunction f = .ok (handle, q) → Built q
  | record {p q : Program} {s : Structure} : Built p → p.addStructure s = .ok q → Built q
  | request {p : Program} (symbols : SymbolSource) (depth : Nat) (d : Dialect) (entry : String)
      (options : Options) : Built p → Built (p.generateFrom symbols depth d entry options).program

/-- **The resources of every program have different names.** -/
theorem Program.Built.resources_distinct {p : Program} (h : p.Built) : p.resources.Distinct := by
  induction h with
  | empty => exact Roster.distinct_empty
  | resource _ hadd ih =>
    obtain ⟨_, hinsert, hq⟩ := map_ok.1 hadd
    cases hq
    exact ih.insert hinsert
  | function _ hadd ih =>
    obtain ⟨_, -, hq⟩ := map_ok.1 hadd
    cases hq
    exact ih
  | record _ hadd ih =>
    obtain ⟨_, -, hq⟩ := map_ok.1 hadd
    cases hq
    exact ih
  | request _ _ _ _ _ _ ih => exact ih

/-! ## First and last letters -/

/-- The last letter of a name. -/
def ending (name : String) : Option Char := name.toList.getLast?

theorem ending_append {tail : String} {letter : Char} (h : ending tail = some letter)
    (name : String) : ending (name ++ tail) = some letter := by
  have h : tail.toList.getLast? = some letter := h
  rw [ending, String.toList_append, List.getLast?_append, h]
  rfl

theorem stem_of_ending {name : String} (h : ending name ≠ some '_') : stem name = name := by
  rw [ending, List.getLast?_eq_head?_reverse] at h
  have hkept : name.toList.reverse.dropWhile (· == '_') = name.toList.reverse := by
    cases hrev : name.toList.reverse with
    | nil => rfl
    | cons letter rest =>
      rw [hrev] at h
      refine List.dropWhile_cons_of_neg fun heq => h ?_
      rw [List.head?_cons, beq_iff_eq.1 heq]
  rw [stem, stemChars, hkept, List.reverse_reverse, String.ofList_toList]

/-- A corrected name is no reserved word. -/
theorem Identifiers.correct_ne_of_isReserved {ids : Identifiers} {word : String}
    (hword : ids.isReserved word) (hending : ending word ≠ some '_') (name : String) :
    ids.correct name ≠ word := by
  rintro rfl
  unfold Identifiers.correct at hword hending
  split at hword
  · rename_i hstem
    rw [if_pos hstem] at hending
    exact hending (ending_append rfl name)
  · rename_i hstem
    rw [if_neg hstem] at hending
    rw [stem_of_ending hending] at hstem
    exact hstem hword

theorem Target.structureTypeName_eq (target : Target) (name : String) :
    target.dialect.structureTypeName name = target.dialect.correct (flattenDots name) := by
  cases target <;> rfl

theorem Target.correct_ne_main (target : Target) (name : String) :
    target.dialect.correct name ≠ "main" := by
  rw [Target.dialect_correct]
  refine Identifiers.correct_ne_of_isReserved ?_ (by decide) name
  cases target <;> decide +kernel

/-! ## Names of resources -/

theorem Glsl.names_markedResource (version : Version) (d : ResourceDecl) (type : String)
    (form : ResourceForm) : MarkedLine.names (markedResource version d type form) =
      match form with
      | .uniform | .buffer _ => [d.name, blockMember d.resource]
      | .texture2D | .textureCube => [d.name]
      | .sampler => if version.separateSamplers then [d.name] else [] := by
  cases form with
  | uniform | texture2D | textureCube | buffer writable => rfl
  | sampler =>
    rw [markedResource]
    split <;> rfl

theorem Hlsl.names_markedResource (d : ResourceDecl) (type : String) (form : ResourceForm) :
    MarkedLine.names (markedResource d type form) =
      match form with
      | .uniform => [d.name ++ "Buffer", d.name]
      | .texture2D | .textureCube | .sampler | .buffer _ => [d.name] := by
  cases form with
  | uniform | texture2D | textureCube | sampler => rfl
  | buffer writable => cases writable <;> rfl

namespace Target

variable (target : Target)

/-- Whether a resource is declared: samplers are not where textures have them built in. -/
def declares (r : Resource) : Bool :=
  match r.kind with
  | .sampler => target.version?.all Glsl.Version.separateSamplers
  | .other _ => false
  | .uniform | .texture2D | .textureCube | .structuredBuffer | .rwStructuredBuffer => true

/-- The second name in the declaration of a resource: on GLSL that of the member of a block, on HLSL
that of the block around a uniform. -/
def companion? (r : Resource) : Option String :=
  match target.version?, r.kind with
  | some _, kind => if kind.needsValueType then some (Glsl.blockMember r) else none
  | none, .uniform => some (target.dialect.correct r.name ++ "Buffer")
  | none, _ => none

/-- The declaration of a resource has its own name and its companion. -/
theorem names_markedResource (r : Resource) :
    (MarkedLine.names (target.markedResource r)).Perm
      ((if target.declares r then [target.dialect.correct r.name] else []) ++
        (target.companion? r).toList) := by
  unfold markedResource declares companion?
  cases hversion : target.version? with
  | some version =>
    cases hkind : r.kind with
    | sampler =>
      simp only [ResourceKind.form?, Glsl.names_markedResource, Option.all_some,
        ResourceKind.needsValueType]
      exact .of_eq (List.append_nil _).symm
    | uniform | texture2D | textureCube | structuredBuffer | rwStructuredBuffer | other raw =>
      simp only [ResourceKind.form?, Glsl.names_markedResource, ResourceKind.needsValueType]
      exact .refl _
  | none =>
    cases hkind : r.kind with
    -- the block around a uniform is named before the uniform
    | uniform =>
      simp only [ResourceKind.form?, Hlsl.names_markedResource]
      exact .swap _ _ []
    | texture2D | textureCube | sampler | structuredBuffer | rwStructuredBuffer | other raw =>
      simp only [ResourceKind.form?, Hlsl.names_markedResource]
      exact .refl _

theorem names_markedResources (resources : List Resource) :
    (MarkedLine.names (resources.flatMap target.markedResource)).Perm
      ((resources.filter target.declares).map (fun r => target.dialect.correct r.name) ++
        resources.filterMap target.companion?) := by
  have hdeclared : (resources.filter target.declares).map (fun r => target.dialect.correct r.name) =
      resources.flatMap fun r =>
        if target.declares r then [target.dialect.correct r.name] else [] := by
    induction resources with
    | nil => rfl
    | cons r rest ih =>
      rw [List.flatMap_cons, ← ih, List.filter_cons]
      split <;> rfl
  rw [MarkedLine.names_flatMap, hdeclared, List.filterMap_eq_flatMap_toList]
  calc resources.flatMap (fun r => MarkedLine.names (target.markedResource r))
      |>.Perm (resources.flatMap fun r =>
        (if target.declares r then [target.dialect.correct r.name] else []) ++
          (target.companion? r).toList) :=
        List.Perm.flatMap_left _ fun r _ => target.names_markedResource r
    _ |>.Perm _ := (List.flatMap_append_perm _ _ _).symm

end Target

/-! ## Names of the stage interface -/

/-- The fields that an entry of a stage takes: those of the structure of its parameter. -/
inductive Function.Takes (m : Meanings) (f : Function) : Stage → List Field → Prop where
  | nothing : Takes m f .compute []
  | fields {stage : Stage} {parameter : Parameter} {input : Structure} (hstage : stage ≠ .compute)
      (hparameter : f.parameters = [parameter]) (hinput : m parameter.type.name = .ok input) :
      Takes m f stage input.fields

namespace Target

variable (target : Target)

/-- The fields whose names are declared at global scope: on GLSL the stage inputs, on HLSL none, since
there they are members of a structure. -/
def inputNames (inputs : List Field) : List String :=
  if target.version?.isSome then inputs.map (·.name) else []

/-- What the stage interface declares under names that the target makes up: on GLSL the outputs, on HLSL
the structures of the two directions. -/
def coinedInterface (layout : EntryLayout) : List String :=
  match layout.stage, target.version? with
  | .compute, _ => []
  | .vertex, some _ | .fragment, some _ => layout.outputs.map (·.name)
  | .vertex, none | .fragment, none =>
    [Hlsl.interfaceType layout .input, Hlsl.interfaceType layout .output]

theorem names_markedVariables (version : Glsl.Version) (vs : List StageVariable) :
    MarkedLine.names (vs.map (Glsl.markedVariable version)) = vs.map (·.name) := by
  induction vs with
  | nil => rfl
  | cons v vs ih => exact congrArg (_ :: ·) ih

/-- The stage interface declares the input fields, corrected, and the names made up for it. -/
theorem names_markedInterface {layout : EntryLayout} {inputs : List Field}
    (hinputs : layout.inputs.map (·.name) = inputs.map fun field => target.dialect.correct field.name)
    (hcompute : layout.stage = .compute → inputs = []) :
    MarkedLine.names (target.markedInterface layout) =
      (target.inputNames inputs).map target.dialect.correct ++ target.coinedInterface layout := by
  unfold markedInterface inputNames coinedInterface
  cases hversion : target.version? with
  | some version =>
    simp only [Glsl.markedInterface, Option.isSome_some, if_true, List.map_map]
    cases hstage : layout.stage with
    | compute =>
      rw [hcompute hstage]
      rfl
    | vertex | fragment =>
      simp only [MarkedLine.names_append, names_markedVariables, hinputs]
      exact List.append_nil _
  | none =>
    simp only [Hlsl.markedInterface]
    cases layout.stage with
    | compute => rfl
    | vertex | fragment =>
      simp only [MarkedLine.names_append, names_markedStruct]
      rfl

end Target

/-- The stage interface of a planned entry: inputs are named after the fields that the entry takes, and
outputs differ from each other and begin with letters of their own. -/
structure EntryLayout.Planned (target : Target) (m : Meanings) (f : Function) (stage : Stage)
    (layout : EntryLayout) (inputs : List Field) : Prop where
  takes : f.Takes m stage inputs
  stage_eq : layout.stage = stage
  inputs_names : layout.inputs.map (·.name) =
    inputs.map fun field => target.dialect.correct field.name
  outputs_nodup : (layout.outputs.map (·.name)).Nodup
  outputs_initial : ∀ v ∈ layout.outputs, initial v.name = some 'o' ∨ initial v.name = some '_'

section Planned

variable {target : Target} {m : Meanings} {depth : Nat} {f : Function} {stage : Stage}
  {layout : EntryLayout} {τ : Resolution}

theorem planEntry_compute {d : Dialect}
    (h : (planEntry d depth f .compute).eval m {} = (.ok layout, τ)) :
    layout.stage = .compute ∧ layout.inputs = [] ∧ layout.outputs = [] := by
  obtain ⟨outputType, rfl⟩ := planEntry_computeLayout h
  exact ⟨rfl, rfl, rfl⟩

theorem inputs_names_variablesOf (stage : Stage) (fields : List Field) :
    (target.dialect.variablesOf .input stage "" fields).map (·.name) =
      fields.map fun field => target.dialect.correct field.name := by
  rw [names_variablesOf, List.map_map]
  exact List.map_congr_left fun field _ => String.empty_append

theorem exists_planned (hfields : ∀ name s, m name = .ok s → (s.fields.map (·.name)).Nodup)
    (h : (planEntry target.dialect depth f stage).eval m {} = (.ok layout, τ)) :
    ∃ inputs, layout.Planned target m f stage inputs ∧ (inputs.map (·.name)).Nodup := by
  cases stage with
  | compute =>
    obtain ⟨hstage, hinputs, houtputs⟩ := planEntry_compute h
    refine ⟨[], ⟨.nothing, hstage, ?_, ?_, ?_⟩, List.nodup_nil⟩
    · rw [hinputs]
      rfl
    · rw [houtputs]
      exact List.nodup_nil
    · rw [houtputs]
      nofun
  | vertex =>
    obtain ⟨parameter, input, output, position, others, hparameter, hinput, houtput, hclip, rfl⟩ :=
      planEntry_vertex h
    obtain ⟨before, after, hsplit, rfl, -, -⟩ := clipPosition?_eq_some_iff.1 hclip
    -- the other outputs are fields of one structure, so their names differ
    have hothers : ((before ++ after).map (·.name)).Nodup := by
      refine (hfields _ output houtput).sublist (List.Sublist.map _ ?_)
      rw [hsplit]
      exact (List.Sublist.refl before).append (List.sublist_cons_self position after)
    refine ⟨input.fields, ⟨.fields (by decide) hparameter hinput, rfl, inputs_names_variablesOf _ _,
      names_variablesOf_nodup hothers, fun v hv => .inl ?_⟩, hfields _ input hinput⟩
    obtain ⟨field, -, slot, rfl⟩ := mem_variablesOf hv
    exact initial_append rfl _
  | fragment =>
    obtain ⟨parameter, input, type, hparameter, hinput, -, rfl⟩ := planEntry_fragment h
    refine ⟨input.fields, ⟨.fields (by decide) hparameter hinput, rfl, inputs_names_variablesOf _ _,
      List.nodup_singleton _, fun v hv => .inr ?_⟩, hfields _ input hinput⟩
    cases List.mem_singleton.1 hv
    have hcolor : initial fragmentOutput = some '_' := by decide
    exact hcolor

end Planned

/-! ## Names that are made up -/

namespace Target

variable {target : Target}

theorem companion?_eq_some {r : Resource} {name : String} (h : target.companion? r = some name) :
    match target.version? with
    | some _ => name = "field_" ++ r.name
    | none => name = target.dialect.correct r.name ++ "Buffer" := by
  unfold companion? at h
  cases hversion : target.version? with
  | some version =>
    rw [hversion] at h
    obtain ⟨-, hmember⟩ := Option.ite_none_right_eq_some.1 h
    cases hmember
    rfl
  | none =>
    rw [hversion] at h
    cases hkind : r.kind <;> rw [hkind] at h <;> cases h
    rfl

theorem companion?_inj {r s : Resource} {name : String} (hr : target.companion? r = some name)
    (hs : target.companion? s = some name) : r.name = s.name := by
  have hr := companion?_eq_some hr
  have hs := companion?_eq_some hs
  cases hversion : target.version? with
  | some version =>
    rw [hversion] at hr hs
    exact (String.append_right_inj _).1 (hr.symm.trans hs)
  | none =>
    rw [hversion] at hr hs
    exact target.correct_inj.1 ((String.append_left_inj _).1 (hr.symm.trans hs))

theorem companions_nodup {resources : List Resource} (h : (resources.map (·.name)).Nodup) :
    (resources.filterMap target.companion?).Nodup := by
  refine List.pairwise_filterMap.2 ((List.pairwise_map.1 h).imp ?_)
  rintro r s hne name hr name' hs rfl
  exact hne (companion?_inj hr hs)

/-- Where the names made up for resources, and those for the stage interface, differ: on GLSL in their
first letters, on HLSL in their last. -/
def mark (target : Target) (name : String) : Option Char :=
  if target.version?.isSome then initial name else ending name

theorem mark_companion {r : Resource} {name : String} (h : target.companion? r = some name) :
    target.mark name ∈ [some 'f', some 'r'] := by
  have hname := companion?_eq_some h
  unfold mark
  cases hversion : target.version? with
  | some version =>
    rw [hversion] at hname
    have hfirst : initial name = some 'f' := hname ▸ initial_append (by decide) r.name
    exact List.mem_cons.2 (.inl hfirst)
  | none =>
    rw [hversion] at hname
    have hlast : ending name = some 'r' := hname ▸ ending_append (by decide) _
    exact List.mem_cons_of_mem _ (List.mem_singleton.2 hlast)

theorem mark_main (target : Target) : target.mark "main" ∈ [some 'm', some 'n'] := by
  cases target <;> decide

variable {m : Meanings} {f : Function} {stage : Stage} {layout : EntryLayout} {inputs : List Field}

theorem mark_coinedInterface (h : layout.Planned target m f stage inputs) {name : String}
    (hname : name ∈ target.coinedInterface layout) :
    target.mark name ∈ [some 'o', some '_', some 't'] := by
  unfold coinedInterface at hname
  unfold mark
  cases hversion : target.version? with
  | some version =>
    rw [hversion] at hname
    have hvariable : name ∈ layout.outputs.map (·.name) := by
      cases hstage : layout.stage <;> rw [hstage] at hname
      case compute => cases hname
      all_goals exact hname
    obtain ⟨v, hv, rfl⟩ := List.mem_map.1 hvariable
    have hfirst := h.outputs_initial v hv
    simpa using hfirst.imp_right Or.inl
  | none =>
    rw [hversion] at hname
    have htype : name = Hlsl.interfaceType layout .input ∨
        name = Hlsl.interfaceType layout .output := by
      cases hstage : layout.stage <;> rw [hstage] at hname
      case compute => cases hname
      all_goals simpa using hname
    -- the type names of the interface end alike
    have hlast : ending name = some 't' := by
      rcases htype with rfl | rfl
      · exact ending_append (by decide) layout.entry
      · exact ending_append (by decide) layout.entry
    simpa using .inr (.inr hlast)

theorem coinedInterface_nodup (h : layout.Planned target m f stage inputs) :
    (target.coinedInterface layout).Nodup := by
  have htypes : [Hlsl.interfaceType layout .input, Hlsl.interfaceType layout .output].Nodup := by
    rw [List.nodup_cons, List.mem_singleton]
    refine ⟨fun heq => ?_, List.nodup_singleton _⟩
    have hends : "_StageInput" = "_StageOutput" := (String.append_right_inj layout.entry).1 heq
    exact absurd hends (by decide)
  unfold coinedInterface
  cases target.version? with
  | some version =>
    cases layout.stage with
    | compute => exact List.nodup_nil
    | vertex | fragment => exact h.outputs_nodup
  | none =>
    cases layout.stage with
    | compute => exact List.nodup_nil
    | vertex | fragment => exact htypes

end Target

/-! ## Documents -/

namespace Document

section Names

variable (doc : Document) (target : Target) (resources : List Resource) (inputs : List Field)

/-- The names of the program that a document declares, before they are corrected. -/
def given : List String :=
  doc.structures.map (fun s => flattenDots s.1) ++
    (resources.filter target.declares).map (·.name) ++ doc.functions.map (·.name) ++
    target.inputNames inputs

/-- The names that the target makes up for a document. -/
def coined : List String :=
  resources.filterMap target.companion? ++ target.coinedInterface doc.layout

/-- Which names of a document never meet: those of one kind, and `main` and any other. -/
structure Names : Prop where
  structures_nodup : (doc.structures.map fun s => flattenDots s.1).Nodup
  resources_nodup : ((resources.filter target.declares).map (·.name)).Nodup
  functions_nodup : (doc.functions.map (·.name)).Nodup
  inputs_nodup : (target.inputNames inputs).Nodup
  coined_nodup : (doc.coined target resources).Nodup
  main_notMem_given : "main" ∉ (doc.given target resources inputs).map target.dialect.correct
  main_notMem_coined : "main" ∉ doc.coined target resources

end Names

namespace Of

variable {p : Program} {symbols : SymbolSource} {depth : Nat} {target : Target} {entry : String}
  {doc : Document} {inputs : List Field}

/-- **What a document declares**: given names, corrected, coined names, and `main`. -/
theorem globals_perm (h : doc.Of p symbols depth target.dialect entry)
    (hplan : doc.layout.Planned target (p.structures.meaning symbols) doc.entry doc.stage inputs) :
    (doc.globals target p.resources.items).Perm
      ((doc.given target p.resources.items inputs).map target.dialect.correct ++
        doc.coined target p.resources.items ++ ["main"]) := by
  have hstructures : doc.structures.map (fun s => target.dialect.structureTypeName s.1) =
      (doc.structures.map fun s => flattenDots s.1).map target.dialect.correct := by
    simp only [target.structureTypeName_eq, List.map_map]
    rfl
  have hcompute : doc.layout.stage = .compute → inputs = [] := by
    intro hstage
    have htakes := hplan.takes
    rw [← hplan.stage_eq, hstage] at htakes
    cases htakes with
    | nothing => rfl
    | fields hother => exact absurd rfl hother
  rw [globals_eq h, target.names_markedInterface hplan.inputs_names hcompute, hstructures]
  -- both sides have each name equally often
  refine List.perm_iff_count.2 fun name => ?_
  have hresources := (target.names_markedResources p.resources.items).count_eq name
  simp only [given, coined, List.map_append, List.map_map, List.count_append] at hresources ⊢
  have hfunctions : doc.functions.map (fun f => target.dialect.correct f.name) =
      doc.functions.map (target.dialect.correct ∘ (·.name)) := rfl
  have hdeclared : (p.resources.items.filter target.declares).map
      (fun r => target.dialect.correct r.name) =
        (p.resources.items.filter target.declares).map (target.dialect.correct ∘ (·.name)) := rfl
  rw [hfunctions]
  rw [hdeclared] at hresources
  omega

/-- Names of one kind never meet. -/
theorem names (h : doc.Of p symbols depth target.dialect entry) (hresources : p.resources.Distinct)
    (hplan : doc.layout.Planned target (p.structures.meaning symbols) doc.entry doc.stage inputs)
    (hinputs : (inputs.map (·.name)).Nodup) : doc.Names target p.resources.items inputs := by
  have hresources : (p.resources.items.map (·.name)).Nodup := hresources
  have hcompanion : ∀ name ∈ p.resources.items.filterMap target.companion?,
      target.mark name ∈ [some 'f', some 'r'] := by
    intro name hname
    obtain ⟨r, -, hr⟩ := List.mem_filterMap.1 hname
    exact Target.mark_companion hr
  have hinterface : ∀ name ∈ target.coinedInterface doc.layout,
      target.mark name ∈ [some 'o', some '_', some 't'] :=
    fun name => Target.mark_coinedInterface hplan
  refine ⟨?_, hresources.sublist (List.Sublist.map _ List.filter_sublist), h.names_nodup, ?_, ?_, ?_,
    ?_⟩
  · -- structures differ even after the correction
    have htargets := h.structures.targets_nodup
    simp only [target.structureTypeName_eq] at htargets
    refine List.Nodup.of_map target.dialect.correct ?_
    rwa [List.map_map]
  · unfold Target.inputNames
    split
    · exact hinputs
    · exact List.nodup_nil
  · have hapart : ∀ letter ∈ [some 'f', some 'r'], letter ∉ [some 'o', some '_', some 't'] := by decide
    refine List.nodup_append.2 ⟨Target.companions_nodup hresources,
      Target.coinedInterface_nodup hplan, ?_⟩
    rintro name hname _ hother rfl
    exact hapart _ (hcompanion name hname) (hinterface name hother)
  · intro hmain
    obtain ⟨name, -, hname⟩ := List.mem_map.1 hmain
    exact target.correct_ne_main name hname
  · have hapart : ∀ letter ∈ [some 'm', some 'n'],
        letter ∉ [some 'f', some 'r'] ∧ letter ∉ [some 'o', some '_', some 't'] := by decide
    obtain ⟨hfree, hfree'⟩ := hapart _ target.mark_main
    intro hmain
    exact (List.mem_append.1 hmain).elim (fun hname => hfree (hcompanion _ hname))
      fun hname => hfree' (hinterface _ hname)

end Of

/-- If names of one kind never meet, then those of different kinds decide. -/
theorem Names.nodup_iff {doc : Document} {target : Target} {resources : List Resource}
    {inputs : List Field} (h : doc.Names target resources inputs) :
    ((doc.given target resources inputs).map target.dialect.correct ++ doc.coined target resources ++
      ["main"]).Nodup ↔
      (doc.given target resources inputs).Nodup ∧ ∀ name ∈ doc.coined target resources,
        name ∉ (doc.given target resources inputs).map target.dialect.correct := by
  have hgiven : ((doc.given target resources inputs).map target.dialect.correct).Nodup ↔
      (doc.given target resources inputs).Nodup :=
    List.nodup_map_iff fun _ _ => target.correct_inj.1
  have hmain : ∀ name ∈ (doc.given target resources inputs).map target.dialect.correct ++
      doc.coined target resources, ∀ other ∈ ["main"], name ≠ other := by
    rintro name hname other hother rfl
    cases List.mem_singleton.1 hother
    exact (List.mem_append.1 hname).elim h.main_notMem_given h.main_notMem_coined
  rw [List.nodup_append, List.nodup_append, hgiven]
  constructor
  · rintro ⟨⟨hnodup, -, hapart⟩, -, -⟩
    exact ⟨hnodup, fun name hname hother => hapart name hother name hname rfl⟩
  · rintro ⟨hnodup, hapart⟩
    refine ⟨⟨hnodup, h.coined_nodup, ?_⟩, List.nodup_singleton _, hmain⟩
    rintro name hname other hother rfl
    exact hapart name hother hname

end Document

/-- **Which names of a document are distinct.**  Every generated text declares the names that the program
gives to its parts, corrected, the names that the target makes up, and `main`.  Names of one kind never
meet, and none of them meets `main`.  So all are distinct exactly if no two structures, resources,
functions or stage inputs have one name, and no corrected name is one that the target makes up. -/
theorem global_names_distinct_iff (target : Target) {p : Program} {symbols : SymbolSource} {depth : Nat}
    {entry : String} {options : Options} {shader : Shader} (hresources : p.resources.Distinct)
    (hfields : ∀ name s, p.structures.meaning symbols name = .ok s → (s.fields.map (·.name)).Nodup)
    (h : (p.generateFrom symbols depth target.dialect entry options).result = .ok shader) :
    ∃ (doc : Document) (inputs : List Field), doc.Of p symbols depth target.dialect entry ∧
      doc.entry.Takes (p.structures.meaning symbols) doc.stage inputs ∧
      shader.text = renderLines options.indent
        (target.dialect.header doc.stage options.floatPrecision ++
          MarkedLine.lines (doc.marked target p.resources.items)) ∧
      (doc.globals target p.resources.items).Perm
        ((doc.given target p.resources.items inputs).map target.dialect.correct ++
          doc.coined target p.resources.items ++ ["main"]) ∧
      doc.Names target p.resources.items inputs ∧
      ((doc.globals target p.resources.items).Nodup ↔
        (doc.given target p.resources.items inputs).Nodup ∧
          ∀ name ∈ doc.coined target p.resources.items,
            name ∉ (doc.given target p.resources.items inputs).map target.dialect.correct) := by
  obtain ⟨doc, hdoc, htext⟩ := Program.exists_document h
  obtain ⟨τ, hlayout⟩ := hdoc.layout
  obtain ⟨inputs, hplan, hinputs⟩ := exists_planned hfields hlayout
  have hperm := hdoc.globals_perm hplan
  have hnames := hdoc.names hresources hplan hinputs
  refine ⟨doc, inputs, hdoc, hplan.takes, ?_, hperm, hnames, hperm.nodup_iff.trans hnames.nodup_iff⟩
  rw [htext, Document.lines_marked hdoc]

/-- A fragment entry that reads a uniform `tint`. -/
def Function.reading (name : String) : Function where
  name := name
  returnType := ⟨Host.vector4, false⟩
  role := .entry .fragment
  parameters := [⟨"pixel", ⟨"Pixel", false⟩⟩]
  workgroup := {}
  body := [.ret .unknown (some (.resource "tint"))]

/-- The program of this entry. -/
def Program.reading (name : String) : Program where
  resources := ⟨[{ name := "tint", kind := .uniform, binding := 0,
                   valueType := some ⟨Host.vector4, false⟩ }]⟩
  functions := ⟨[.reading name]⟩
  structures := ⟨[("Pixel", ⟨"Pixel", [{ name := "uv", type := ⟨Host.vector2, false⟩ }]⟩)]⟩

/-- The result of this entry on a target. -/
def Program.readingResult (target : Target) (name : String) : Except GenerationError Shader :=
  ((Program.reading name).generateFrom ⟨fun _ => []⟩ 2 target.dialect name {}).result

/-- An entry with the name of the uniform that it reads. -/
def Program.echo : Program := .reading "tint"

/-- The result of `Program.echo` on a target. -/
def Program.echoResult (target : Target) : Except GenerationError Shader :=
  Program.readingResult target "tint"

section Reading

variable {target : Target} {doc : Document} {name : String} {inputs : List Field}

theorem sublist_singleton_of_nodup {names : List String} (hnodup : names.Nodup)
    (h : ∀ other ∈ names, other = name) : names.Sublist [name] := by
  rw [List.eq_replicate_of_mem h] at hnodup ⊢
  exact List.replicate_sublist_replicate name |>.2 (List.nodup_replicate.1 hnodup)

theorem Program.resources_reading (name : String) : (Program.reading name).resources.Distinct :=
  List.nodup_singleton _

theorem Program.fields_reading {other : String} {s : Structure}
    (h : (Program.reading name).structures.meaning ⟨fun _ => []⟩ other = .ok s) :
    other = "Pixel" ∧ s.fields.map (·.name) = ["uv"] := by
  cases List.mem_singleton.1 (StructureSet.mem_entries_of_meaning h)
  exact ⟨rfl, rfl⟩

theorem Program.nodup_fields_reading {other : String} {s : Structure}
    (h : (Program.reading name).structures.meaning ⟨fun _ => []⟩ other = .ok s) :
    (s.fields.map (·.name)).Nodup := by
  rw [(Program.fields_reading h).2]
  exact List.nodup_singleton _

/-- The uniform and the entry of `Program.echo` have one name. -/
theorem Document.Of.not_nodup_given_echo
    (h : doc.Of Program.echo ⟨fun _ => []⟩ 2 target.dialect "tint") (inputs : List Field) :
    ¬ (doc.given target Program.echo.resources.items inputs).Nodup := by
  intro hnodup
  have hname : doc.entry.name = "tint" := (congrArg Function.name (Option.some.inj h.function?)).symm
  have hfunction : "tint" ∈ doc.functions.map (·.name) :=
    List.mem_map.2 ⟨doc.entry, h.mem_functions.2 .refl, hname⟩
  have hparts := (List.nodup_append.1 (List.nodup_append.1 hnodup).1).2.2
  exact hparts _ (List.mem_append_right _ List.mem_cons_self) _ hfunction rfl

variable (h : doc.Of (Program.reading "shade") ⟨fun _ => []⟩ 2 (Target.glsl450).dialect "shade")

include h

theorem Document.Of.entry_reading : doc.entry = .reading "shade" ∧ doc.stage = .fragment := by
  have hfound : findEntry (Target.glsl450).dialect (Program.reading "shade").toCode "shade" =
      .ok (.reading "shade", .fragment) := rfl
  exact Prod.mk.inj (Except.ok.inj (h.entry.symm.trans hfound))

/-- What the program names if the entry has a name of its own: its structure, uniform, entry and input. -/
theorem Document.Of.given_reading
    (htakes : doc.entry.Takes ((Program.reading "shade").structures.meaning ⟨fun _ => []⟩) doc.stage inputs)
    (hnames : doc.Names .glsl450 (Program.reading "shade").resources.items inputs) :
    (doc.given .glsl450 (Program.reading "shade").resources.items inputs).Sublist
      ["Pixel", "tint", "shade", "uv"] := by
  obtain ⟨hentry, hstage⟩ := h.entry_reading
  have hstructures : ∀ name ∈ doc.structures.map (fun s => flattenDots s.1), name = "Pixel" := by
    intro name hname
    obtain ⟨s, hs, rfl⟩ := List.mem_map.1 hname
    rw [(Program.fields_reading (h.structures.meaning s hs)).1]
    decide
  have hresources : ∀ name ∈ ((Program.reading "shade").resources.items.filter
      (Target.glsl450).declares).map (·.name), name = "tint" := by decide
  have hfunctions : ∀ name ∈ doc.functions.map (·.name), name = "shade" := by
    intro name hname
    obtain ⟨f, hf, rfl⟩ := List.mem_map.1 hname
    cases h.mem_functions.1 hf with
    | refl => exact congrArg Function.name hentry
    | tail _ hcalls => exact List.mem_singleton.1 (Code.mem_names_of_function? hcalls.function?)
  have hinputs : ∀ name ∈ (Target.glsl450).inputNames inputs, name = "uv" := by
    intro name hname
    rw [hstage] at htakes
    cases htakes with
    | @fields _ _ input _ _ hinput =>
      have hname : name ∈ input.fields.map (·.name) := hname
      rw [(Program.fields_reading hinput).2] at hname
      exact List.mem_singleton.1 hname
  exact (((sublist_singleton_of_nodup hnames.structures_nodup hstructures).append
    (sublist_singleton_of_nodup hnames.resources_nodup hresources)).append
    (sublist_singleton_of_nodup hnames.functions_nodup hfunctions)).append
    (sublist_singleton_of_nodup hnames.inputs_nodup hinputs)

/-- The names that the target makes up for it. -/
theorem Document.Of.coined_reading :
    doc.coined .glsl450 (Program.reading "shade").resources.items = ["field_tint", "_outputColor_"] := by
  have hlayout : ((planEntry (Target.glsl450).dialect 2 (.reading "shade") .fragment).eval
      ((Program.reading "shade").structures.meaning ⟨fun _ => []⟩) {}).1.map
        (Target.glsl450).coinedInterface = .ok ["_outputColor_"] := by decide +kernel
  obtain ⟨τ, hplan⟩ := h.layout
  rw [h.entry_reading.1, h.entry_reading.2] at hplan
  rw [hplan] at hlayout
  rw [Document.coined, Except.ok.inj hlayout]
  decide

end Reading

/-- Both sides are decided: where the entry has a name of its own, all names are distinct, and where it has
the name of the uniform, they are not. -/
theorem global_names_distinct_iff_echo :
    (∃ (shader : Shader) (doc : Document) (inputs : List Field),
      Program.readingResult .glsl450 "shade" = .ok shader ∧
      doc.Of (Program.reading "shade") ⟨fun _ => []⟩ 2 (Target.glsl450).dialect "shade" ∧
      (doc.given .glsl450 (Program.reading "shade").resources.items inputs).Nodup ∧
      (∀ name ∈ doc.coined .glsl450 (Program.reading "shade").resources.items,
        name ∉ (doc.given .glsl450 (Program.reading "shade").resources.items inputs).map
          (Target.glsl450).dialect.correct) ∧
      (doc.globals .glsl450 (Program.reading "shade").resources.items).Nodup) ∧
    ∃ (shader : Shader) (doc : Document) (inputs : List Field),
      Program.echoResult .glsl450 = .ok shader ∧
      doc.Of Program.echo ⟨fun _ => []⟩ 2 (Target.glsl450).dialect "tint" ∧
      ¬ (doc.given .glsl450 Program.echo.resources.items inputs).Nodup ∧
      ¬ (doc.globals .glsl450 Program.echo.resources.items).Nodup := by
  constructor
  · have hok : (Program.readingResult .glsl450 "shade").toBool = true := by decide +kernel
    obtain ⟨shader, hresult⟩ := exists_ok_of_toBool hok
    obtain ⟨doc, inputs, hdoc, htakes, -, -, hnames, hiff⟩ := global_names_distinct_iff .glsl450
      (Program.resources_reading _) (fun _ _ hs => Program.nodup_fields_reading hs) hresult
    have hsub := hdoc.given_reading htakes hnames
    have hnodup := hsub.nodup (by decide)
    have hapart : ∀ name ∈ doc.coined .glsl450 (Program.reading "shade").resources.items,
        name ∉ (doc.given .glsl450 (Program.reading "shade").resources.items inputs).map
          (Target.glsl450).dialect.correct := by
      have hfree : ∀ name ∈ ["field_tint", "_outputColor_"],
          name ∉ ["Pixel", "tint", "shade", "uv"].map (Target.glsl450).dialect.correct := by decide +kernel
      rw [hdoc.coined_reading]
      exact fun name hname hmem => hfree name hname ((hsub.map _).subset hmem)
    exact ⟨shader, doc, inputs, hresult, hdoc, hnodup, hapart, hiff.2 ⟨hnodup, hapart⟩⟩
  · have hok : (Program.echoResult .glsl450).toBool = true := by decide +kernel
    obtain ⟨shader, hresult⟩ := exists_ok_of_toBool hok
    obtain ⟨doc, inputs, hdoc, -, -, -, -, hiff⟩ := global_names_distinct_iff .glsl450
      (Program.resources_reading _) (fun _ _ hs => Program.nodup_fields_reading hs) hresult
    have hgiven := hdoc.not_nodup_given_echo inputs
    exact ⟨shader, doc, inputs, hresult, hdoc, hgiven, fun hnodup => hgiven (hiff.1 hnodup).1⟩

/-- The uniform and the function of `Program.echo` are declared under one name. -/
theorem Document.Of.not_nodup_echo {target : Target} {doc : Document}
    (h : doc.Of Program.echo ⟨fun _ => []⟩ 2 target.dialect "tint") :
    ¬ (doc.globals target Program.echo.resources.items).Nodup := by
  obtain ⟨τ, hlayout⟩ := h.layout
  obtain ⟨inputs, hplan, -⟩ := exists_planned (fun _ _ hs => Program.nodup_fields_reading hs) hlayout
  intro hnodup
  have hall := (h.globals_perm hplan).nodup_iff.1 hnodup
  rw [List.nodup_append, List.nodup_append] at hall
  exact h.not_nodup_given_echo inputs hall.1.1.of_map

theorem Program.exists_echo {target : Target} (h : (Program.echoResult target).toBool = true) :
    ∃ (shader : Shader) (doc : Document), Program.echoResult target = .ok shader ∧
      doc.Of Program.echo ⟨fun _ => []⟩ 2 target.dialect "tint" ∧
      ¬ (doc.globals target Program.echo.resources.items).Nodup := by
  obtain ⟨shader, hresult⟩ := exists_ok_of_toBool h
  obtain ⟨doc, hdoc, -⟩ := Program.exists_document hresult
  exact ⟨shader, doc, hresult, hdoc, hdoc.not_nodup_echo⟩

/-- Names of different kinds meet, on GLSL and on HLSL: a uniform and a function. -/
theorem global_names_meet :
    (∃ (shader : Shader) (doc : Document), Program.echoResult .glsl450 = .ok shader ∧
      doc.Of Program.echo ⟨fun _ => []⟩ 2 (Target.glsl450).dialect "tint" ∧
      ¬ (doc.globals .glsl450 Program.echo.resources.items).Nodup) ∧
    ∃ (shader : Shader) (doc : Document), Program.echoResult .hlsl = .ok shader ∧
      doc.Of Program.echo ⟨fun _ => []⟩ 2 (Target.hlsl).dialect "tint" ∧
      ¬ (doc.globals .hlsl Program.echo.resources.items).Nodup :=
  ⟨Program.exists_echo (by decide +kernel), Program.exists_echo (by decide +kernel)⟩

end CrossShader

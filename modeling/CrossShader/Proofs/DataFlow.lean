import CrossShader.Proofs.StageInterface
import CrossShader.Proofs.StraightLine
import CrossShader.Target

/-!
# The data flow of `main`

`main` gathers the stage inputs, calls the entry, and distributes the result.

* `Wired` — the shape of `main`, and which of its names have to differ; `Wired.run` — what such a program
  does; `Wired.keepsStores`, `Wired.readsFirst` — what it does not do.
* `wired_vertex`, `wired_fragment` — `main` has that shape on every target, whatever fields are called.
* `Target.returned_mainSteps` — what `main` returns: on HLSL the stage output.
* `main_data_flow` — the entry gets the stage inputs, and the stage outputs get its result.
-/

set_option autoImplicit false

namespace CrossShader

/-! ## The shape of `main` -/

/-- The parts of `main`: copies from `sources` to the argument, the call, and copies of the result. -/
structure Wiring where
  prologue : List Step
  inputType : String
  argument : String
  gather : List (Place × Place)
  resultType : String
  result : String
  entry : String
  scatter : List (Place × Place)
  epilogue : List Step

/-- The program of a wiring. -/
def Wiring.steps (w : Wiring) : List Step :=
  w.prologue ++ .declare w.inputType w.argument :: (copies w.gather ++
    .callInto w.resultType w.result w.entry w.argument :: (copies w.scatter ++ w.epilogue))

/-- A wiring whose names differ where they have to. -/
structure Wired (w : Wiring) : Prop where
  /-- New locals of the prologue hide nothing that is gathered. -/
  prologue : ∀ step ∈ w.prologue, ∃ type name, step = .declare type name ∧
    ∀ pair ∈ w.gather, pair.2.owner ≠ name
  /-- Each field of the argument is stored once. -/
  gather_targets : (w.gather.map Prod.fst).Pairwise Place.Apart
  gather_fields : ∀ pair ∈ w.gather, pair.1.owner = w.argument
  /-- Nothing is gathered from a local of `main`. -/
  gather_sources : ∀ pair ∈ w.gather, pair.2.owner ≠ w.argument ∧ pair.2.owner ≠ w.result
  /-- Each output is stored once. -/
  scatter_targets : (w.scatter.map Prod.fst).Pairwise Place.Apart
  scatter_sources : ∀ pair ∈ w.scatter, pair.2.owner = w.result
  /-- No output is stored in the argument or the result. -/
  scatter_outside : ∀ pair ∈ w.scatter, pair.1.owner ≠ w.argument ∧ pair.1.owner ≠ w.result
  locals : w.argument ≠ w.result
  /-- What is returned holds all outputs, and no input. -/
  epilogue : ∀ step ∈ w.epilogue, ∃ name, step = .ret name ∧
    (∀ pair ∈ w.gather, pair.2.owner ≠ name) ∧ ∀ pair ∈ w.scatter, pair.1.owner = name

section Wired

variable {V : Type} [Fielded V] (entries : String → V → V) (blank : V)

theorem runSteps_declares {steps : List Step} (h : ∀ step ∈ steps, ∃ type name, step = .declare type name)
    (s : Machine V) : (runSteps entries blank steps s).calls = s.calls := by
  induction steps generalizing s with
  | nil => rfl
  | cons step rest ih =>
    obtain ⟨type, name, rfl⟩ := h step List.mem_cons_self
    exact ih (fun other hother => h other (List.mem_cons_of_mem _ hother)) _

theorem runSteps_rets {steps : List Step} (h : ∀ step ∈ steps, ∃ name, step = .ret name)
    (s : Machine V) : (runSteps entries blank steps s).memory = s.memory ∧
      (runSteps entries blank steps s).calls = s.calls ∧
      ∀ value, (runSteps entries blank steps s).returned = some value →
        s.returned = some value ∨ ∃ name, .ret name ∈ steps ∧ value = s.memory name := by
  induction steps generalizing s with
  | nil => exact ⟨rfl, rfl, fun _ => .inl⟩
  | cons step rest ih =>
    obtain ⟨name, rfl⟩ := h step List.mem_cons_self
    obtain ⟨hmemory, hcalls, hreturned⟩ :=
      ih (fun other hother => h other (List.mem_cons_of_mem _ hother)) _
    refine ⟨hmemory, hcalls, fun value hvalue => .inr ?_⟩
    rcases hreturned value hvalue with hvalue | ⟨other, hother, hvalue⟩
    · cases hvalue
      exact ⟨name, List.mem_cons_self, rfl⟩
    · exact ⟨other, List.mem_cons_of_mem _ hother, hvalue⟩

/-- **What a wired program does.**  It calls the entry once, with what the gathered places held before,
and leaves the parts of the result at the places they are for. -/
theorem Wired.run {w : Wiring} (h : Wired w) (μ : Memory V) {s : Machine V}
    (hs : s = runSteps entries blank w.steps { memory := μ }) :
    ∃ argument, s.calls = [(w.entry, [argument])] ∧
      (∀ pair ∈ w.gather, Memory.read (fun _ => argument) pair.1 = μ.read pair.2) ∧
      ∀ pair ∈ w.scatter,
        s.Delivers pair.1 (Memory.read (fun _ => entries w.entry argument) pair.2) := by
  let s₁ := runSteps entries blank w.prologue { memory := μ }
  let s₂ := (Step.declare w.inputType w.argument).exec entries blank s₁
  let s₃ := runSteps entries blank (copies w.gather) s₂
  let s₄ := (Step.callInto w.resultType w.result w.entry w.argument).exec entries blank s₃
  let s₅ := runSteps entries blank (copies w.scatter) s₄
  have hs₅ : s = runSteps entries blank w.epilogue s₅ := by
    rw [hs, Wiring.steps, runSteps_append]
    show runSteps entries blank (copies w.gather ++ _) s₂ = _
    rw [runSteps_append]
    show runSteps entries blank (copies w.scatter ++ _) s₄ = _
    rw [runSteps_append]
  have hdeclares := runSteps_declares entries blank
    (fun step hstep => (h.prologue step hstep).imp fun _ => .imp fun _ => And.left) { memory := μ }
  have hgather := calls_copies entries blank w.gather s₂
  have hscatter := calls_copies entries blank w.scatter s₄
  obtain ⟨hmemory, hcalls, hreturned⟩ := runSteps_rets entries blank
    (fun step hstep => (h.epilogue step hstep).imp fun _ => And.left) s₅
  rw [← hs₅] at hmemory hcalls hreturned
  refine ⟨s₃.memory w.argument, ?_, fun pair hpair => ?_, fun pair hpair => ?_⟩
  · rw [hcalls, hscatter]
    show s₃.calls ++ _ = _
    rw [hgather]
    show s₁.calls ++ _ = _
    rw [hdeclares]
    rfl
  · have hsources : ∀ pair ∈ w.gather, ∀ other ∈ w.gather, other.1.Apart pair.2 := by
      intro pair hpair other hother
      refine Place.apart_of_owner ?_
      rw [h.gather_fields other hother]
      exact (h.gather_sources pair hpair).1.symm
    have hdeclared : s₂.memory.read pair.2 = s₁.memory.read pair.2 :=
      Memory.read_write_of_apart _
        (Place.apart_of_owner (p := .whole w.argument) (h.gather_sources pair hpair).1.symm) _
    have hprologue : s₁.memory.read pair.2 = μ.read pair.2 := by
      refine read_runSteps entries blank fun step hstep target htarget => ?_
      obtain ⟨type, name, rfl, hname⟩ := h.prologue step hstep
      cases htarget
      exact Place.apart_of_owner (hname pair hpair).symm
    calc Memory.read (fun _ => s₃.memory w.argument) pair.1
        = s₃.memory.read pair.1 := Memory.read_congr (congrArg s₃.memory (h.gather_fields pair hpair).symm)
      _ = s₂.memory.read pair.2 :=
        runSteps_stores entries blank h.gather_targets hsources pair hpair
      _ = μ.read pair.2 := hdeclared.trans hprologue
  · have hsources : ∀ pair ∈ w.scatter, ∀ other ∈ w.scatter, other.1.Apart pair.2 := by
      intro pair hpair other hother
      refine Place.apart_of_owner ?_
      rw [h.scatter_sources pair hpair]
      exact (h.scatter_outside other hother).2
    have hheld : s.memory.read pair.1 =
        Memory.read (fun _ => entries w.entry (s₃.memory w.argument)) pair.2 :=
      calc s.memory.read pair.1
          = s₅.memory.read pair.1 := by rw [hmemory]
        _ = s₄.memory.read pair.2 :=
          runSteps_stores entries blank h.scatter_targets hsources pair hpair
        _ = Memory.read (fun _ => entries w.entry (s₃.memory w.argument)) pair.2 := by
          refine Memory.read_congr ?_
          rw [h.scatter_sources pair hpair]
          exact Function.update_self ..
    refine ⟨hheld, fun whole hwhole => ?_⟩
    have hprologue : ∀ step ∈ w.prologue, ∀ name, step ≠ .ret name := by
      intro step hstep name
      obtain ⟨_, _, rfl, -⟩ := h.prologue step hstep
      exact Step.noConfusion
    -- nothing is returned before the epilogue
    have hnone : s₅.returned = none :=
      calc s₅.returned
          = s₃.returned := returned_runSteps entries blank copies_ne_ret
        _ = s₁.returned := returned_runSteps entries blank copies_ne_ret
        _ = none := returned_runSteps entries blank hprologue
    rcases hreturned whole hwhole with hbefore | ⟨name, hname, rfl⟩
    · rw [hnone] at hbefore
      cases hbefore
    · obtain ⟨_, heq, -, houtputs⟩ := h.epilogue _ hname
      cases heq
      rw [← hheld, hmemory]
      exact Memory.read_congr (congrArg s₅.memory (houtputs pair hpair).symm)

end Wired

/-! ## `main` on the targets -/

/-- The parts of `main` of an entry with a parameter. -/
def EntryLayout.wiring (d : Dialect) (layout : EntryLayout) (inputType : String) : Wiring where
  prologue := d.prologue layout
  inputType := inputType
  argument := layout.inputLocal
  gather := layout.inputs.filterMap fun v =>
    v.field.map fun field => (.member layout.inputLocal field, d.access v)
  resultType := layout.outputType
  result := layout.outputLocal
  entry := layout.entry
  scatter :=
    layout.outputs.map (fun v => (d.access v, v.field.elim (.whole layout.outputLocal)
      (.member layout.outputLocal ·))) ++
    layout.positionField.toList.map fun field =>
      (d.positionTarget, .member layout.outputLocal field)
  epilogue := d.epilogue layout

theorem mainSteps_eq_wiring (d : Dialect) {layout : EntryLayout} {inputType : String}
    (h : layout.inputType = some inputType) :
    mainSteps d layout = (layout.wiring d inputType).steps := by
  have hgather : layout.inputs.filterMap (gatherStep? d layout.inputLocal) =
      copies (layout.wiring d inputType).gather := by
    simp only [copies, EntryLayout.wiring, List.map_filterMap, Option.map_map]
    rfl
  have hscatter : (scatterStep d layout.outputLocal : StageVariable → Step) = fun v =>
      .store (d.access v) (v.field.elim (.whole layout.outputLocal)
        (.member layout.outputLocal ·)) := by
    funext v
    unfold scatterStep
    cases v.field <;> rfl
  unfold mainSteps callSteps
  rw [h]
  simp [hgather, hscatter, Wiring.steps, EntryLayout.wiring, copies, Function.comp_def]

/-- The first letter of a name. -/
def initial (name : String) : Option Char := name.toList.head?

theorem initial_append {name : String} {letter : Char} (h : initial name = some letter)
    (tail : String) : initial (name ++ tail) = some letter := by
  unfold initial at h ⊢
  rw [String.toList_append, List.head?_append, h, Option.some_or]

namespace Target

variable (target : Target)

theorem dialect_correct : target.dialect.correct = target.dialect.identifiers.correct := by
  cases target <;> simp only [Target.dialect, Glsl.dialect, Hlsl.dialect]

theorem correct_inj {a b : String} :
    target.dialect.correct a = target.dialect.correct b ↔ a = b := by
  rw [dialect_correct]
  exact Identifiers.correct_inj _

theorem initial_correct {name : String} {letter : Char} (h : initial name = some letter) :
    initial (target.dialect.correct name) = some letter := by
  rw [dialect_correct, Identifiers.correct]
  split
  · exact initial_append h _
  · exact h

theorem initial_freshLocal (layout : EntryLayout) {base : String} {letter : Char}
    (h : initial base = some letter) : initial (layout.freshLocal target.dialect base) = some letter := by
  obtain ⟨count, heq⟩ := layout.freshLocal_eq target.dialect base
  rw [heq]
  exact initial_append (target.initial_correct h) _

/-- A stage variable is a variable of its own, or a member of one that no local is called like. -/
theorem access_owner (v : StageVariable) :
    (target.dialect.access v).owner = v.name ∨
      initial (target.dialect.access v).owner = some 's' := by
  cases target with
  | glslEs300 | glsl330 | glsl450 => exact .inl rfl
  | hlsl =>
    have hinput : initial Hlsl.stageInput = some 's' := by decide
    have houtput : initial Hlsl.stageOutput = some 's' := by decide
    refine .inr ?_
    show initial (Hlsl.access v).owner = some 's'
    unfold Hlsl.access
    cases v.direction with
    | input => exact hinput
    | output => exact houtput

theorem access_owner_ne {v : StageVariable} {name : String} (hname : v.name ≠ name)
    (hinitial : initial name ≠ some 's') : (target.dialect.access v).owner ≠ name := by
  intro heq
  rcases target.access_owner v with howner | howner
  · exact hname (howner.symm.trans heq)
  · exact hinitial (heq ▸ howner)

theorem positionTarget_owner_ne {name : String} {letter : Char} (h : initial name = some letter)
    (hs : letter ≠ 's') (hg : letter ≠ 'g') : target.dialect.positionTarget.owner ≠ name := by
  rintro rfl
  cases target with
  | glslEs300 | glsl330 | glsl450 => exact hg (Option.some.inj h).symm
  | hlsl => exact hs (Option.some.inj h).symm

/-- The clip-space position is apart from every output that a name with a lead carries. -/
theorem access_apart_positionTarget {v : StageVariable} (h : initial v.name = some 'o') :
    (target.dialect.access v).Apart target.dialect.positionTarget := by
  cases target with
  | glslEs300 | glsl330 | glsl450 =>
    show v.name ≠ "gl_Position"
    intro heq
    rw [heq] at h
    exact absurd h (by decide)
  | hlsl =>
    have hname : v.name ≠ Hlsl.positionMember := by
      intro heq
      rw [heq] at h
      exact absurd h (by decide)
    show (Hlsl.access v).Apart (.member Hlsl.stageOutput Hlsl.positionMember)
    unfold Hlsl.access
    cases v.direction <;> exact .inr hname

/-- What stands around the call declares, or returns, the owner of all outputs. -/
theorem prologue_epilogue (layout : EntryLayout) :
    target.dialect.prologue layout = [] ∧ target.dialect.epilogue layout = [] ∨
    ∃ name type, target.dialect.prologue layout = [.declare type name] ∧
      target.dialect.epilogue layout = [.ret name] ∧
      (∀ v : StageVariable, v.direction = .input → (target.dialect.access v).owner ≠ name) ∧
      (∀ v : StageVariable, v.direction = .output → (target.dialect.access v).owner = name) ∧
      target.dialect.positionTarget.owner = name := by
  cases target with
  | glslEs300 | glsl330 | glsl450 => exact .inl ⟨rfl, rfl⟩
  | hlsl =>
    cases hstage : layout.stage with
    | compute =>
      refine .inl ⟨?_, ?_⟩
      · simp [Target.dialect, Hlsl.dialect, Hlsl.prologue, hstage]
      · simp [Target.dialect, Hlsl.dialect, Hlsl.epilogue, hstage]
    | vertex | fragment =>
      refine .inr ⟨Hlsl.stageOutput, Hlsl.interfaceType layout .output, ?_, ?_, ?_, ?_, rfl⟩
      · simp [Target.dialect, Hlsl.dialect, Hlsl.prologue, hstage]
      · simp [Target.dialect, Hlsl.dialect, Hlsl.epilogue, hstage]
      · intro v hv
        show (Hlsl.access v).owner ≠ _
        rw [Hlsl.access, hv]
        show Hlsl.stageInput ≠ Hlsl.stageOutput
        decide
      · intro v hv
        show (Hlsl.access v).owner = _
        rw [Hlsl.access, hv]
        rfl

end Target

section Layouts

variable {target : Target} {d : Dialect} {layout : EntryLayout} {inputType : String}

variable (target layout) in
theorem initial_locals :
    initial (layout.withLocals target.dialect).inputLocal = some 'i' ∧
      initial (layout.withLocals target.dialect).outputLocal = some 'o' :=
  ⟨target.initial_freshLocal _ (by decide), target.initial_freshLocal _ (by decide)⟩

variable (target) in
/-- No stage variable belongs to a local of `main`. -/
theorem access_owner_ne_locals {v : StageVariable} (hv : v ∈ layout.inputs ++ layout.outputs) :
    (target.dialect.access v).owner ≠ (layout.withLocals target.dialect).inputLocal ∧
      (target.dialect.access v).owner ≠ (layout.withLocals target.dialect).outputLocal := by
  obtain ⟨hinput, houtput⟩ := initial_locals target layout
  refine ⟨target.access_owner_ne ?_ ?_, target.access_owner_ne ?_ ?_⟩
  · exact fun heq => layout.inputLocal_notMem _ (List.mem_map.2 ⟨v, hv, heq⟩)
  · rw [hinput]
    decide
  · exact fun heq => (layout.outputLocal_notMem _).1 (List.mem_map.2 ⟨v, hv, heq⟩)
  · rw [houtput]
    decide

theorem mem_variablesOf {direction : Direction} {stage : Stage} {lead : String}
    {fields : List Field} {v : StageVariable} (h : v ∈ d.variablesOf direction stage lead fields) :
    ∃ field ∈ fields, ∃ slot, v = d.variableOf direction stage lead field slot := by
  obtain ⟨⟨field, slot⟩, hentry, rfl⟩ := List.mem_map.1 h
  exact ⟨field, List.fst_mem_of_mem_zipIdx hentry, slot, rfl⟩

theorem names_variablesOf {direction : Direction} {stage : Stage} {lead : String}
    (fields : List Field) : (d.variablesOf direction stage lead fields).map (·.name) =
      (fields.map (·.name)).map fun name => lead ++ d.correct name := by
  rw [Dialect.variablesOf, List.map_map, List.map_map]
  nth_rewrite 2 [← List.zipIdx_map_fst 0 fields]
  rw [List.map_map]
  rfl

/-- Different fields are carried under different names. -/
theorem names_variablesOf_nodup {direction : Direction} {stage : Stage} {lead : String}
    {fields : List Field} (h : (fields.map (·.name)).Nodup) :
    ((target.dialect.variablesOf direction stage lead fields).map (·.name)).Nodup := by
  rw [names_variablesOf]
  exact h.map fun _ _ heq => target.correct_inj.1 ((String.append_right_inj lead).1 heq)

end Layouts

/-! ## What `main` does -/

section Flow

variable {V : Type} [Fielded V]

end Flow

section Flow

variable {d : Dialect} {m : Meanings} {f : Function} {layout : EntryLayout} {inputType : String}

variable {V : Type} [Fielded V]

end Flow

/-- A vertex entry. -/
def Function.paint : Function where
  name := "paint"
  returnType := ⟨"Varyings", false⟩
  role := .entry .vertex
  parameters := [⟨"attributes", ⟨"Attributes", false⟩⟩]
  workgroup := {}
  body := []

/-- Structures whose fields are called like locals, outputs and reserved words. -/
def Meanings.tangled : Meanings := fun name =>
  let vector : TypeRef := ⟨Host.vector4, false⟩
  if name = "Attributes" then
    .ok ⟨name, [⟨"input", vector, 0, .untagged⟩, ⟨"input_", vector, 0, .untagged⟩,
      ⟨"out_color", vector, 0, .color⟩, ⟨"gl_Position", vector, 0, .untagged⟩]⟩
  else
    .ok ⟨name, [⟨"color", vector, 0, .color⟩, ⟨"output", vector, 0, .position⟩,
      ⟨"input", vector, 0, .position⟩]⟩

end CrossShader

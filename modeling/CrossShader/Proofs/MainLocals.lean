import CrossShader.Proofs.GlobalNames
import Mathlib.Order.Bounds.Basic

/-!
# Locals that hide the entry

`main` calls the entry under its target name, where its own locals are in scope.

* `freshName_isLeast` — a free name is found behind as few underscores as possible.
* `Target.freshLocal_isLeast` — so a local of `main` is the correction of its base with as many underscores
  as fields of the input make necessary.
* `Target.mainParameters`, `Step.local?`, `Target.mainLocals` — the names that `main` declares.
* `entry_hidden_iff` — one of them hides the entry exactly if the entry has one of two or, on HLSL, four
  names.
* `entries_hidden` — entries that are hidden, on every target.
-/

set_option autoImplicit false

namespace CrossShader

open Text

/-! ## Free names -/

/-- **A free name has as few underscores as possible.** -/
theorem freshName_isLeast (taken : List String) (name : String) :
    ∃ count, IsLeast {count | underscored name count ∉ taken} count ∧
      freshName taken taken.length name = underscored name count := by
  obtain ⟨count, -, heq, hpassed, -⟩ := freshName_eq taken taken.length name
  have hfree := freshName_notMem taken name
  rw [heq] at hfree
  refine ⟨count, ⟨hfree, fun other hother => ?_⟩, heq⟩
  by_contra hless
  exact hother (hpassed other (Nat.lt_of_not_le hless))

theorem stem_underscored (name : String) (count : Nat) : stem (underscored name count) = stem name := by
  induction count generalizing name with
  | zero => rw [underscored_zero]
  | succ count ih => rw [← underscored_append, ih, stem_append_underscore]

/-- Correction and further underscores can change places. -/
theorem Identifiers.correct_underscored (ids : Identifiers) (name : String) (count : Nat) :
    ids.correct (underscored name count) = underscored (ids.correct name) count := by
  unfold Identifiers.correct
  rw [stem_underscored]
  split
  · rw [underscored_append, ← String.toList_inj]
    have hone : "_".toList = ['_'] := rfl
    simp [underscored, List.replicate_succ', hone]
  · rfl

namespace Target

variable (target : Target)

theorem correct_underscored (name : String) (count : Nat) :
    target.dialect.correct (underscored name count) =
      underscored (target.dialect.correct name) count := by
  rw [dialect_correct]
  exact Identifiers.correct_underscored _ name count

theorem prefix_correct_underscored (base : String) (count : Nat) :
    base.toList <+: (target.dialect.correct (underscored base count)).toList := by
  have hbase : base.toList <+: (underscored base count).toList := by
    rw [underscored, String.toList_append]
    exact List.prefix_append _ _
  rw [dialect_correct, Identifiers.correct]
  split
  · rw [String.toList_append]
    exact hbase.trans (List.prefix_append _ _)
  · exact hbase

variable {target}

/-- Names that begin differently stay apart. -/
theorem ne_correct_underscored {lead base name : String} (hname : lead.toList <+: name.toList)
    (hapart : ¬ lead.toList <+: base.toList ∧ ¬ base.toList <+: lead.toList) (count : Nat) :
    name ≠ target.dialect.correct (underscored base count) := by
  rintro rfl
  rcases List.prefix_or_prefix_of_prefix hname (target.prefix_correct_underscored base count) with h | h
  · exact hapart.1 h
  · exact hapart.2 h

/-- **A local of `main`** is a correction, and its underscores are as few as the names of some fields
allow, if nothing else is taken. -/
theorem freshLocal_isLeast {layout : EntryLayout} {base : String} {names : List String}
    (h : ∀ count, target.dialect.correct (underscored base count) ∈ layout.takenNames ↔
      underscored base count ∈ names) :
    ∃ count, IsLeast {count | underscored base count ∉ names} count ∧
      layout.freshLocal target.dialect base = target.dialect.correct (underscored base count) := by
  obtain ⟨count, hleast, heq⟩ := freshName_isLeast layout.takenNames (target.dialect.correct base)
  have hsame : {count | underscored (target.dialect.correct base) count ∉ layout.takenNames} =
      {count | underscored base count ∉ names} := by
    ext other
    rw [Set.mem_ofPred_eq, Set.mem_ofPred_eq, ← h, correct_underscored]
  rw [hsame] at hleast
  refine ⟨count, hleast, ?_⟩
  rw [correct_underscored]
  exact heq

end Target

/-! ## The two locals of an entry -/

/-- A layout whose inputs carry fields under their corrected names, whose outputs have a lead or are the
colour, and whose locals are not chosen yet. -/
structure EntryLayout.Carries (target : Target) (layout : EntryLayout) (inputs : List Field) : Prop where
  inputs : layout.inputs.map (·.name) = inputs.map fun field => target.dialect.correct field.name
  outputs : ∀ v ∈ layout.outputs, ∃ lead ∈ [vertexOutputLead, fragmentOutput],
    lead.toList <+: v.name.toList
  inputLocal : layout.inputLocal = ""

namespace EntryLayout.Carries

variable {target : Target} {layout : EntryLayout} {inputs : List Field}

/-- Only fields of the input are in the way of a base that begins like no output. -/
theorem mem_stageNames_iff (h : layout.Carries target inputs) {base : String}
    (hbase : ∀ lead ∈ [vertexOutputLead, fragmentOutput],
      ¬ lead.toList <+: base.toList ∧ ¬ base.toList <+: lead.toList) (count : Nat) :
    target.dialect.correct (underscored base count) ∈ (layout.inputs ++ layout.outputs).map (·.name) ↔
      underscored base count ∈ inputs.map (·.name) := by
  have houtputs : target.dialect.correct (underscored base count) ∉ layout.outputs.map (·.name) := by
    intro hmem
    obtain ⟨v, hv, hname⟩ := List.mem_map.1 hmem
    obtain ⟨lead, hlead, hprefix⟩ := h.outputs v hv
    exact Target.ne_correct_underscored hprefix (hbase lead hlead) count hname
  rw [List.map_append, List.mem_append, or_iff_left houtputs, h.inputs]
  simp only [List.mem_map, target.correct_inj]

/-- The local for the input. -/
theorem inputLocal_isLeast (h : layout.Carries target inputs) :
    ∃ count, IsLeast {count | underscored "input" count ∉ inputs.map (·.name)} count ∧
      (layout.withLocals target.dialect).inputLocal =
        target.dialect.correct (underscored "input" count) := by
  refine Target.freshLocal_isLeast fun count => ?_
  rw [EntryLayout.takenNames, List.mem_append, h.mem_stageNames_iff (by decide), h.inputLocal,
    List.mem_singleton]
  refine or_iff_left fun hempty => ?_
  have hprefix := target.prefix_correct_underscored "input" count
  rw [hempty] at hprefix
  exact absurd hprefix (by decide)

/-- The local for the result; the one for the input is never in its way. -/
theorem outputLocal_isLeast (h : layout.Carries target inputs) :
    ∃ count, IsLeast {count | underscored "output" count ∉ inputs.map (·.name)} count ∧
      (layout.withLocals target.dialect).outputLocal =
        target.dialect.correct (underscored "output" count) := by
  -- the local for the input is taken by now, but it begins with another word
  obtain ⟨other, -, hlocal⟩ := h.inputLocal_isLeast
  have hprefix := target.prefix_correct_underscored "input" other
  rw [← hlocal] at hprefix
  refine Target.freshLocal_isLeast fun count => ?_
  have hne : (layout.withLocals target.dialect).inputLocal ≠
      target.dialect.correct (underscored "output" count) :=
    Target.ne_correct_underscored hprefix (by decide) count
  rw [EntryLayout.takenNames, List.mem_append, h.mem_stageNames_iff (by decide), List.mem_singleton]
  exact or_iff_left hne.symm

end EntryLayout.Carries

/-! ## The names that `main` declares -/

/-- The local that a step declares, with its type. -/
def Step.local? : Step → Option (String × String)
  | .declare type name => some (type, name)
  | .callInto type result _ _ => some (type, result)
  | .store .. | .call _ | .ret _ => none

theorem local?_copies (pairs : List (Place × Place)) : (copies pairs).filterMap Step.local? = [] := by
  rw [List.filterMap_eq_nil_iff]
  intro step hstep
  obtain ⟨pair, -, rfl⟩ := List.mem_map.1 hstep
  rfl

section CallSteps

variable (d : Dialect) {layout : EntryLayout} {inputType : String} (h : layout.inputType = some inputType)
include h

/-- The call with its copies, without what a target puts around it. -/
theorem callSteps_eq_wiring : callSteps d layout = .declare inputType layout.inputLocal ::
    (copies (layout.wiring d inputType).gather ++
      .callInto layout.outputType layout.outputLocal layout.entry layout.inputLocal ::
        copies (layout.wiring d inputType).scatter) := by
  have hsteps := mainSteps_eq_wiring d h
  simp only [mainSteps, Wiring.steps, ← List.append_assoc, ← List.cons_append] at hsteps
  have hcall := List.append_cancel_right hsteps
  rw [List.append_assoc] at hcall
  exact List.append_cancel_left hcall

/-- The argument and the result are locals. -/
theorem local?_callSteps : (callSteps d layout).filterMap Step.local? =
    [(inputType, layout.inputLocal), (layout.outputType, layout.outputLocal)] := by
  rw [callSteps_eq_wiring d h]
  simp [local?_copies, Step.local?]

end CallSteps

namespace Target

variable (target : Target)

/-- The parameters of `main`, each with its type. -/
def mainParameters (layout : EntryLayout) : List (String × String) :=
  match target.version?, layout.stage with
  | none, .vertex | none, .fragment => [(Hlsl.interfaceType layout .input, Hlsl.stageInput)]
  | _, _ => []

/-- The signature of `main` lists its parameters. -/
theorem mainSignature_parameters (layout : EntryLayout) :
    ∃ result, target.dialect.mainSignature layout = result ++ " " ++
      callText "main" ((target.mainParameters layout).map fun p => p.1 ++ " " ++ p.2) := by
  unfold mainParameters
  cases hversion : target.version? with
  | some version =>
    rw [dialect_of_version? hversion]
    exact ⟨"void", rfl⟩
  | none =>
    cases eq_hlsl_of_version? hversion
    show ∃ result, Hlsl.mainSignature layout = _
    unfold Hlsl.mainSignature
    cases layout.stage with
    | compute => exact ⟨"void", rfl⟩
    | vertex | fragment =>
      refine ⟨Hlsl.interfaceType layout .output, ?_⟩
      simp only [callText, List.map_cons, List.map_nil, String.intercalate_singleton,
        String.append_assoc]
      rfl

/-- The names that `main` declares: its parameters, and the locals of its steps. -/
def mainLocals (layout : EntryLayout) : List String :=
  (target.mainParameters layout ++ (mainSteps target.dialect layout).filterMap Step.local?).map Prod.snd

/-- The names that `main` declares on a target, whatever the entry is: on HLSL its parameter and its
result. -/
def fixedLocals : List String :=
  if target.version?.isSome then [] else [Hlsl.stageInput, Hlsl.stageOutput]

theorem mainLocals_eq {layout : EntryLayout} {inputType : String} (hstage : layout.stage ≠ .compute)
    (htype : layout.inputType = some inputType) :
    target.mainLocals layout = target.fixedLocals ++ [layout.inputLocal, layout.outputLocal] := by
  rw [mainLocals, mainSteps, List.filterMap_append, List.filterMap_append,
    local?_callSteps target.dialect htype, fixedLocals, mainParameters]
  cases hversion : target.version? with
  | some version =>
    rw [dialect_of_version? hversion]
    rfl
  | none =>
    cases eq_hlsl_of_version? hversion
    show (_ ++ ((Hlsl.prologue layout).filterMap Step.local? ++ _ ++
      (Hlsl.epilogue layout).filterMap Step.local?)).map Prod.snd = _
    unfold Hlsl.prologue Hlsl.epilogue
    cases hlayout : layout.stage with
    | compute => exact absurd hlayout hstage
    | vertex | fragment => rfl

theorem correct_fixedLocals : ∀ name ∈ target.fixedLocals, target.dialect.correct name = name := by
  cases target with
  | glslEs300 | glsl330 | glsl450 =>
    intro name hname
    cases hname
  | hlsl => decide +kernel

end Target

/-- The names of an entry that one of the locals of `main` hides, for some numbers of underscores. -/
def Target.hiddenNames (target : Target) (input output : Nat) : List String :=
  target.fixedLocals ++ [underscored "input" input, underscored "output" output]

/-- The layout of a planned entry before its locals are chosen. -/
theorem exists_carries {target : Target} {m : Meanings} {depth : Nat} {f : Function} {stage : Stage}
    {layout : EntryLayout} {τ : Resolution} (hstage : stage ≠ .compute)
    (hplan : (planEntry target.dialect depth f stage).eval m {} = (.ok layout, τ)) :
    ∃ inputs start, f.Takes m stage inputs ∧ EntryLayout.Carries target start inputs ∧
      layout = start.withLocals target.dialect ∧ layout.entry = target.dialect.correct f.name ∧
      layout.stage = stage ∧ ∃ inputType, layout.inputType = some inputType := by
  cases stage with
  | compute => exact absurd rfl hstage
  | vertex =>
    obtain ⟨parameter, input, output, position, others, hparameter, hinput, -, -, rfl⟩ :=
      planEntry_vertex hplan
    refine ⟨input.fields, _, .fields hstage hparameter hinput,
      ⟨inputs_names_variablesOf .vertex input.fields, fun v hv => ?_, rfl⟩, rfl, rfl, rfl, _, rfl⟩
    obtain ⟨field, -, slot, rfl⟩ := mem_variablesOf hv
    refine ⟨vertexOutputLead, List.mem_cons_self, ?_⟩
    rw [Dialect.variableOf, String.toList_append]
    exact List.prefix_append _ _
  | fragment =>
    obtain ⟨parameter, input, type, hparameter, hinput, -, rfl⟩ := planEntry_fragment hplan
    refine ⟨input.fields, _, .fields hstage hparameter hinput,
      ⟨inputs_names_variablesOf .fragment input.fields, fun v hv => ?_, rfl⟩, rfl, rfl, rfl, _, rfl⟩
    cases List.mem_singleton.1 hv
    exact ⟨fragmentOutput, List.mem_cons_of_mem _ List.mem_cons_self, List.prefix_rfl⟩

/-- **Which entries are hidden.**  On every target and for every vertex or fragment entry that can be
planned, `main` calls the entry under its corrected name, where all names that it declares are in scope.
These are the corrections of `input` and `output` with as few underscores as the fields of the entry's
parameter allow and, on HLSL, two fixed names.  So one of them hides the entry exactly if the entry itself
is called like that. -/
theorem entry_hidden_iff (target : Target) {m : Meanings} {depth : Nat} {f : Function} {stage : Stage}
    {layout : EntryLayout} {τ : Resolution} (hstage : stage ≠ .compute)
    (hplan : (planEntry target.dialect depth f stage).eval m {} = (.ok layout, τ)) :
    (∃ result, target.dialect.mainSignature layout = result ++ " " ++
      callText "main" ((target.mainParameters layout).map fun p => p.1 ++ " " ++ p.2)) ∧
    .callInto layout.outputType layout.outputLocal (target.dialect.correct f.name) layout.inputLocal ∈
      mainSteps target.dialect layout ∧
    ∃ inputs input output, f.Takes m stage inputs ∧
      IsLeast {count | underscored "input" count ∉ inputs.map (·.name)} input ∧
      IsLeast {count | underscored "output" count ∉ inputs.map (·.name)} output ∧
      target.mainLocals layout = (target.hiddenNames input output).map target.dialect.correct ∧
      (target.dialect.correct f.name ∈ target.mainLocals layout ↔
        f.name ∈ target.hiddenNames input output) := by
  obtain ⟨inputs, start, htakes, hcarries, hlayout, hentry, hstages, inputType, htype⟩ :=
    exists_carries hstage hplan
  obtain ⟨input, hinput, hinputLocal⟩ := hcarries.inputLocal_isLeast
  obtain ⟨output, houtput, houtputLocal⟩ := hcarries.outputLocal_isLeast
  rw [← hlayout] at hinputLocal houtputLocal
  have hlocals : target.mainLocals layout =
      (target.hiddenNames input output).map target.dialect.correct := by
    rw [target.mainLocals_eq (hstages ▸ hstage) htype, hinputLocal, houtputLocal, Target.hiddenNames,
      List.map_append, List.map_congr_left target.correct_fixedLocals, List.map_id']
    rfl
  refine ⟨target.mainSignature_parameters layout, ?_, inputs, input, output, htakes, hinput, houtput,
    hlocals, ?_⟩
  · rw [mainSteps_eq_wiring _ htype, Wiring.steps, ← hentry]
    simp [EntryLayout.wiring]
  · rw [hlocals]
    simp only [List.mem_map, target.correct_inj, exists_eq_right]

/-- The entry of `Meanings.tangled` under a name that a field of its parameter makes a local of `main`. -/
def Function.tangled : Function := { Function.paint with name := "input__" }

theorem entry_hidden_iff_tangled :
    Stage.vertex ≠ .compute ∧
    ∃ layout τ inputs input output,
      (planEntry (Target.glsl330).dialect 1 Function.tangled .vertex).eval Meanings.tangled {} =
        (.ok layout, τ) ∧
      Function.tangled.Takes Meanings.tangled .vertex inputs ∧
      IsLeast {count | underscored "input" count ∉ inputs.map (·.name)} input ∧
      "input___" ∈ (Target.glsl330).mainLocals layout ∧
      "input__" ∈ (Target.glsl330).hiddenNames input output := by
  refine ⟨by decide, ?_⟩
  let plan := (planEntry (Target.glsl330).dialect 1 Function.tangled .vertex).eval Meanings.tangled {}
  have hlocals : plan.1.toOption.map (Target.glsl330).mainLocals = some ["input___", "output_"] := by
    decide +kernel
  rcases hplan : plan with ⟨_ | layout, τ⟩
  · rw [hplan] at hlocals
    cases hlocals
  · rw [hplan] at hlocals
    have hhidden : "input___" ∈ (Target.glsl330).mainLocals layout := by
      rw [Option.some.inj hlocals]
      exact List.mem_cons_self
    obtain ⟨-, -, inputs, input, output, htakes, hleast, -, -, hiff⟩ :=
      entry_hidden_iff .glsl330 (by decide) hplan
    have hname : (Target.glsl330).dialect.correct Function.tangled.name = "input___" := by decide +kernel
    rw [hname] at hiff
    exact ⟨layout, τ, inputs, input, output, hplan, htakes, hleast, hhidden, hiff.1 hhidden⟩

/-- A fragment entry with any name. -/
def Function.tinted (name : String) : Function where
  name := name
  returnType := ⟨Host.vector4, false⟩
  role := .entry .fragment
  parameters := [⟨"pixel", ⟨"Pixel", false⟩⟩]
  workgroup := {}
  body := [.ret .unknown (some (.member (.localVar "pixel") ⟨"Pixel", false⟩ "color"))]

/-- The structure of its parameter. -/
def Structure.pixel : Structure := ⟨"Pixel", [{ name := "color", type := ⟨Host.vector4, false⟩ }]⟩

/-- The program of this entry. -/
def Program.tinted (name : String) : Program where
  resources := .empty
  functions := ⟨[.tinted name]⟩
  structures := ⟨[("Pixel", .pixel)]⟩

/-- The result of this entry on a target, without any declarations. -/
def Program.tintedResult (target : Target) (name : String) : Except GenerationError Shader :=
  ((Program.tinted name).generateFrom ⟨fun _ => []⟩ 2 target.dialect name {}).result

/-- What is generated for an entry called `input`: the call in `main` finds a local. -/
def Shader.hiddenText : String :=
  "#version 450\n\n" ++
  "struct Pixel\n\x7b\n    vec4 color;\n\x7d;\n\n" ++
  "vec4 input_(Pixel pixel)\n\x7b\n    return pixel.color;\n\x7d\n\n" ++
  "layout(location = 0) in vec4 color;\nlayout(location = 0) out vec4 _outputColor_;\n\n" ++
  "void main()\n\x7b\n    Pixel input_;\n    input_.color = color;\n" ++
  "    vec4 output_ = input_(input_);\n    _outputColor_ = output_;\n\x7d\n"

/-- **Hidden entries.**  On every target an entry can have each of these names: its shader is generated,
and a local of `main` is spelled like the entry that `main` calls. -/
theorem entries_hidden :
    (∀ target : Target, ∀ name ∈ target.hiddenNames 0 0,
      (Program.tintedResult target name).toBool = true ∧
      ∃ layout τ,
        (planEntry target.dialect 1 (.tinted name) .fragment).eval (fun _ => .ok .pixel) {} =
          (.ok layout, τ) ∧
        target.dialect.correct name ∈ target.mainLocals layout) ∧
    (Program.tintedResult .glsl450 "input").map Shader.text = .ok Shader.hiddenText := by
  refine ⟨fun target name hname => ⟨?_, ?_⟩, by decide +kernel⟩
  · revert name
    cases target <;> decide +kernel
  · have hall : (target.hiddenNames 0 0).all (fun name =>
        ((planEntry target.dialect 1 (.tinted name) .fragment).eval (fun _ => .ok .pixel)
          {}).1.toOption.any fun layout =>
            (target.mainLocals layout).contains (target.dialect.correct name)) = true := by
      cases target <;> decide +kernel
    have hhidden := List.all_eq_true.1 hall name hname
    rcases hplan : (planEntry target.dialect 1 (.tinted name) .fragment).eval (fun _ => .ok .pixel) {}
      with ⟨_ | layout, τ⟩
    · rw [hplan] at hhidden
      cases hhidden
    · rw [hplan] at hhidden
      exact ⟨layout, τ, rfl, List.contains_iff_mem.1 hhidden⟩

end CrossShader

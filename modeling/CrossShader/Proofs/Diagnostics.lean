import CrossShader.Proofs.EmittedStructures
import CrossShader.Proofs.StageInterface

/-!
# Diagnostics of a request

Only the planning of a vertex entry can add a diagnostic: a warning about several fields that are tagged as
positions.

* `Request.Silent` — requests that add no diagnostics, with one rule for each way to put requests together.
* `resolveStructure_silent`, `documentLines_silent` — resolution and the second phase are silent.
* `positionWarnings` — what there is to say about the positions of a structure.
* `planEntry_vertex_diagnostics` — the diagnostics of a planned vertex entry.
* `Program.generateFrom_planned` — a shader ends in the stage interface and `main` of its planned entry, and
  has the diagnostics of its planning.
-/

set_option autoImplicit false

namespace CrossShader

open Text

/-! ## Silent requests -/

namespace Request

variable {α β : Type}

/-- A request that adds no diagnostics. -/
def Silent (m : Meanings) (r : Request α) : Prop :=
  ∀ σ a τ, r.eval m σ = (.ok a, τ) → τ.diagnostics = σ.diagnostics

namespace Silent

variable {m : Meanings}

theorem pure (a : α) : (Pure.pure a : Request α).Silent m := by
  intro σ b τ h
  cases h
  rfl

theorem throw (e : GenerationError) : (MonadExcept.throw e : Request α).Silent m := by
  intro σ b τ h
  cases h

theorem bind {r : Request α} {f : α → Request β} (hr : r.Silent m) (hf : ∀ a, (f a).Silent m) :
    (r >>= f).Silent m := by
  intro σ b υ h
  obtain ⟨a, τ, hra, hfa⟩ := eval_bind_ok.1 h
  exact (hf a τ b υ hfa).trans (hr σ a τ hra)

theorem forM {ι : Type} {f : ι → Request PUnit} {l : List ι} (hf : ∀ i ∈ l, (f i).Silent m) :
    (l.forM f).Silent m := by
  induction l with
  | nil => exact pure _
  | cons i l ih =>
    obtain ⟨hi, hl⟩ := List.forall_mem_cons.1 hf
    exact hi.bind fun _ => ih hl

end Silent

end Request

section Resolution

variable {m : Meanings} {d : Dialect}

/-- **Resolution of a name adds no diagnostics.** -/
theorem resolveStructure_silent (depth : Nat) (path : List String) (name : String)
    (f : DiscoveryFailure → GenerationError) : (resolveStructure d depth path name f).Silent m := by
  induction depth generalizing path name f with
  | zero =>
    intro σ s τ h
    rcases resolveStructure_ok.1 h with ⟨-, rfl⟩ | ⟨-, -, -, n, υ, hn, -⟩
    · rfl
    · cases hn
  | succ depth ih =>
    intro σ s τ h
    rcases resolveStructure_ok.1 h with ⟨-, rfl⟩ | ⟨-, -, -, n, υ, hn, hfields, -, rfl⟩
    · rfl
    · cases hn
      have hloop : (resolveFields d depth (name :: path) s.fields).Silent m := by
        refine Request.Silent.forM fun field _ => ?_
        cases d.mapType field.type.name with
        | some mapped => exact .pure _
        | none => exact (ih _ _ _).bind fun _ => .pure _
      exact hloop σ () υ hfields

theorem resolveType_silent (depth : Nat) (type : TypeRef) : (resolveType d depth type).Silent m := by
  unfold resolveType
  cases d.mapType type.name with
  | some mapped => exact .pure _
  | none => exact (resolveStructure_silent depth [] _ _).bind fun _ => .pure _

theorem resolveTypes_silent (depth : Nat) (types : List TypeRef) :
    (types.forM fun type => do let _ ← resolveType d depth type : Request PUnit).Silent m :=
  .forM fun type _ => (resolveType_silent depth type).bind fun _ => .pure _

theorem interfaceVariables_silent (depth : Nat) (direction : Direction) (stage : Stage)
    (lead : String) (slot : Nat) (fields : List Field) :
    (interfaceVariables d depth direction stage lead slot fields).Silent m := by
  induction fields generalizing slot with
  | nil => exact .pure _
  | cons field rest ih =>
    refine Request.Silent.bind ?_ fun _ => (ih (slot + 1)).bind fun _ => .pure _
    unfold interfaceVariable
    split
    · exact .throw _
    · exact (resolveType_silent depth field.type).bind fun _ => .pure _

/-- **The second phase adds no diagnostics.** -/
theorem documentLines_silent (c : Context) (stage : Stage) (precision : FloatPrecision)
    (functions : List Function) (layout : EntryLayout) :
    (documentLines c stage precision functions layout).Silent m := by
  intro σ lines τ h
  rw [eval_documentLines] at h
  cases congrArg Prod.snd h
  rfl

end Resolution

/-! ## The warning about positions -/

/-- What there is to say about the positions of a structure, of which one is the clip-space position. -/
def positionWarnings (output : Structure) (position : Field) : List Diagnostic :=
  if 1 < output.positionFields.length then [severalPositions output position] else []

section Plan

variable {m : Meanings} {d : Dialect} {depth : Nat} {f : Function} {layout planned : EntryLayout}
  {σ τ : Resolution}

theorem warnPositions_diagnostics {function : String} {output : Structure} {position : Field} {u : Unit}
    (h : (warnPositions function output position).eval m σ = (.ok u, τ)) :
    τ.diagnostics = σ.diagnostics ++ positionWarnings output position := by
  unfold warnPositions at h
  unfold positionWarnings
  split at h
  · rename_i hseveral
    cases h
    rw [if_pos hseveral]
  · rename_i hone
    cases h
    rw [if_neg hone, List.append_nil]

theorem planVertex_diagnostics (hσ : Settled m d σ.structures)
    (h : (planVertex d depth f layout).eval m σ = (.ok planned, τ)) :
    ∃ output position others, m f.returnType.name = .ok output ∧
      clipPosition? output.fields = some (position, others) ∧
      τ.diagnostics = σ.diagnostics ++ positionWarnings output position := by
  unfold planVertex at h
  split at h
  · cases h
  · obtain ⟨output, τ₁, houtput, h⟩ := Request.eval_bind_ok.1 h
    have hsilent₁ := resolveStructure_silent depth [] _ _ σ output τ₁ houtput
    obtain ⟨hmeaning, -⟩ := requireStructure_ok hσ houtput
    cases hclip : clipPosition? output.fields with
    | none =>
      rw [hclip] at h
      cases h
    | some found =>
      obtain ⟨position, others⟩ := found
      rw [hclip] at h
      obtain ⟨_, τ₂, hwarn, h⟩ := Request.eval_bind_ok.1 h
      obtain ⟨vs, τ₃, hvs, h⟩ := Request.eval_bind_ok.1 h
      cases h
      have hsilent₃ := interfaceVariables_silent depth _ _ _ _ _ τ₂ vs τ hvs
      refine ⟨output, position, others, hmeaning, hclip, ?_⟩
      rw [hsilent₃, warnPositions_diagnostics hwarn, hsilent₁]

/-- **The diagnostics of a planned vertex entry** are those about the positions of its result. -/
theorem planEntry_vertex_diagnostics {output : Structure} {position : Field} {others : List Field}
    (h : (planEntry d depth f .vertex).eval m {} = (.ok layout, τ))
    (houtput : m f.returnType.name = .ok output)
    (hclip : clipPosition? output.fields = some (position, others)) :
    τ.diagnostics = positionWarnings output position := by
  have hplan : (planGraphics d depth f .vertex (planVertex d depth f)
    { stage := .vertex, entry := d.correct f.name, workgroup := f.workgroup }).eval m {} =
      (.ok layout, τ) := h
  unfold planGraphics at hplan
  split at hplan
  · split at hplan
    · cases hplan
    · obtain ⟨input, τ₁, hinput, hplan⟩ := Request.eval_bind_ok.1 hplan
      obtain ⟨vs, τ₂, hvs, hplan⟩ := Request.eval_bind_ok.1 hplan
      obtain ⟨complete, τ₃, hcomplete, hplan⟩ := Request.eval_bind_ok.1 hplan
      cases hplan
      have hsilent₁ := resolveStructure_silent depth [] _ _ {} input τ₁ hinput
      have hsilent₂ := interfaceVariables_silent depth _ _ _ _ _ τ₁ vs τ₂ hvs
      obtain ⟨-, hsettled₁⟩ := requireStructure_ok .nil hinput
      obtain ⟨output', position', others', houtput', hclip', hdiagnostics⟩ :=
        planVertex_diagnostics (interfaceVariables_settled hsettled₁ hvs) hcomplete
      cases houtput.symm.trans houtput'
      cases hclip.symm.trans hclip'
      rw [hdiagnostics, hsilent₂, hsilent₁]
      rfl
  · cases hplan

end Plan

/-- **A shader ends in its stage interface and `main`**, as its entry was planned, and it has the
diagnostics of its planning. -/
theorem Program.generateFrom_planned {p : Program} {symbols : SymbolSource} {depth : Nat} {d : Dialect}
    {entry : String} {options : Options} {shader : Shader} {f : Function} {stage : Stage}
    (h : (p.generateFrom symbols depth d entry options).result = .ok shader)
    (hentry : findEntry d p.toCode entry = .ok (f, stage)) :
    ∃ layout τ lines,
      (planEntry d depth f stage).eval (p.structures.meaning symbols) {} = (.ok layout, τ) ∧
      shader.diagnostics = τ.diagnostics ∧
      shader.text = renderLines options.indent (lines ++ mainLines d layout) := by
  obtain ⟨lines, σ, hdoc, htext, hdiagnostics⟩ := Program.generateFrom_ok h
  obtain ⟨_, _, functions, layout, τ, hentry', -, hresolve, hlines⟩ := documentRequest_ok hdoc
  rw [hentry] at hentry'
  cases hentry'
  obtain ⟨_, τ₁, hplan, hrest⟩ := Request.eval_bind_ok.1 hresolve
  obtain ⟨_, τ₂, hfunctions, hrest⟩ := Request.eval_bind_ok.1 hrest
  obtain ⟨_, τ₃, hvalues, hrest⟩ := Request.eval_bind_ok.1 hrest
  cases hrest
  have hsilent₂ := Request.Silent.forM (fun g _ => resolveTypes_silent depth _) τ₁ _ τ₂ hfunctions
  have hsilent₃ := resolveTypes_silent depth _ τ₂ _ τ hvalues
  have hsilent₄ := documentLines_silent _ _ _ _ _ τ lines σ hlines
  obtain ⟨resources, bodies, -, -, hdocument⟩ := documentLines_ok hlines
  refine ⟨layout, τ₁, _, hplan, ?_, htext.trans (congrArg (renderLines options.indent) hdocument)⟩
  calc shader.diagnostics
      _ = σ.diagnostics := hdiagnostics
      _ = τ.diagnostics := hsilent₄
      _ = τ₂.diagnostics := hsilent₃
      _ = τ₁.diagnostics := hsilent₂

end CrossShader

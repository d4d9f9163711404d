import CrossShader.Proofs.Causes
import CrossShader.Proofs.Registration

/-!
# Resolution covers emission

The first phase of a request collects types by walking over bodies, the second maps types while it writes
them.  The two agree: what the second phase maps, the first has resolved.

* `GenerationError.unmapped?` — the name for which an error says that there is no target type.
* `Unmapped` — computations that blame only some names for that.
* `documentRequest_unmapped` — a request blames names that stand for nothing, or missing value types.
* `resolution_covers_emission` — requests on the built-in targets.
-/

set_option autoImplicit false

namespace CrossShader

/-- What stands for the type of a resource that has none. -/
def Resource.placeholder (r : Resource) : String := s!"<value type of `{r.name}`>"

/-- The name that an error blames for having no target type. -/
def GenerationError.unmapped? : GenerationError → Option String
  | .unknownType name => some name
  | .missingValueType resource => some s!"<value type of `{resource}`>"
  | .unsupported .. | .entryNotFound _ | .illegalResourceKind .. | .invalidReturnType ..
  | .missingPosition .. | .unresolvedType .. | .invalidEntry .. => none

theorem GenerationError.message_of_unmapped? {e : GenerationError} {name : String}
    (h : e.unmapped? = some name) : e.message = s!"no mapping for type `{name}`" := by
  cases e with
  | unknownType =>
    cases h
    rfl
  | missingValueType resource =>
    cases h
    show "no mapping for type `<value type of `" ++ resource ++ "`>`" =
      "no mapping for type `" ++ ("<value type of `" ++ resource ++ "`>") ++ "`"
    rw [show "no mapping for type `<value type of `" =
        "no mapping for type `" ++ "<value type of `" from rfl,
      show "`>`" = "`>" ++ "`" from rfl]
    simp only [String.append_assoc]
  | unsupported | entryNotFound | illegalResourceKind | invalidReturnType | missingPosition
  | unresolvedType | invalidEntry => cases h

/-- A computation that blames only names of a set for having no target type. -/
def Unmapped {α : Type} (P : String → Prop) (x : Except GenerationError α) : Prop :=
  ∀ e name, x = .error e → e.unmapped? = some name → P name

/-- A name is the placeholder of a resource that should have a value type. -/
def Resource.Lacks (r : Resource) (name : String) : Prop :=
  r.kind.needsValueType = true ∧ r.valueType = none ∧ name = r.placeholder

section Blame

variable {P : String → Prop} {e : GenerationError} {name : String}

/-- Errors about constructs blame no name. -/
theorem GenerationError.Unsupported.blames_none (h : e.Unsupported) : e.unmapped? ≠ some name := by
  obtain ⟨construct, loc, rfl⟩ := h
  exact Option.some_ne_none name |>.symm

/-- The faults of a resource blame at most its placeholder. -/
theorem Resource.Fault.blames {r : Resource} (h : r.Fault e) (hname : e.unmapped? = some name) :
    r.Lacks name := by
  cases h with
  | unsupported h => exact absurd hname h.blames_none
  | missingValueType hkind hvalue => exact ⟨hkind, hvalue, (Option.some.inj hname).symm⟩
  | illegalKind => cases hname

/-- The faults of an entry blame names that stand for nothing. -/
theorem EntryFault.blames {m : Meanings} {d : Dialect} {f : Function} {stage : Stage}
    (h : EntryFault m d f stage e) (hname : e.unmapped? = some name) : Unresolvable m d name := by
  cases h with
  | resolution h =>
    cases h with
    | unsupported h => exact absurd hname h.blames_none
    | unknownType h =>
      cases hname
      exact h
  | unresolvedType | computeParameters | emptyWorkgroup | parameterCount | parameterType
  | vertexResult | missingPosition | invalidReturnType => cases hname

theorem Context.Covers.unmapped_functionLines {c : Context} {functions : List Function}
    (h : c.Covers functions) (stage : Stage) {f : Function} (hf : f ∈ functions) :
    Unmapped P (c.functionLines stage f) :=
  fun e _ he hname => absurd hname (h.raises_functionLines stage hf e he).blames_none

theorem unmapped_declareResource {target : Target} {c : Context} {r : Resource}
    (hc : c.dialect = target.dialect) (h : ∀ type, r.valueType = some type → c.Maps type) :
    Unmapped r.Lacks (c.declareResource r) :=
  fun e _ he => (raises_declareResource hc h e he).blames

/-- **A request blames names that stand for nothing, or missing value types.** -/
theorem documentRequest_unmapped {m : Meanings} (target : Target) (c : Code) (depth : Nat)
    (entry : String) (options : Options) :
    Unmapped (fun name => Unresolvable m target.dialect name ∨
        ∃ r ∈ c.resources.items, r.Lacks name)
      ((documentRequest target.dialect c depth entry options).eval m {}).1 := by
  intro e name he hname
  cases documentRequest_raises target c depth entry options e he with
  | entryNotFound | notAnEntry => cases hname
  | unsupported h => exact absurd hname h.blames_none
  | entry _ _ h => exact .inl (h.blames hname)
  | resource hr h => exact .inr ⟨_, hr, h.blames hname⟩

end Blame

/-- What the second phase does in a context: it declares all structures, a resource blames at most its
own missing value type, and functions blame no type at all. -/
structure Context.EmitsMapped (c : Context) (stage : Stage) (functions : List Function) : Prop where
  structures : ∃ decls, c.structureDecls = .ok decls
  resources : ∀ r ∈ c.code.resources.items, Unmapped r.Lacks (c.declareResource r)
  functions : ∀ f ∈ functions, Unmapped (fun _ => False) (c.functionLines stage f)

/-- **Resolution covers emission.**  On every built-in target, for every program, source of declarations
and entry: once the first phase has succeeded, every type that the second phase comes across is mapped,
and it blames no name for having no target type, a missing value type of a resource apart.  So a request
blames a name only if the target does not map it, it is not registered, and it is not declared exactly
once as a structure; or if it stands for the value type that a uniform or a buffer lacks. -/
theorem resolution_covers_emission (target : Target) (p : Program) (symbols : SymbolSource)
    (depth : Nat) (entry : String) (options : Options) :
    (∀ f stage functions layout τ,
      findEntry target.dialect p.toCode entry = .ok (f, stage) →
      p.toCode.reachable f = .ok functions →
      (resolveRequest target.dialect p.toCode depth f stage functions).eval
        (p.structures.meaning symbols) {} = (.ok layout, τ) →
      Context.Covers ⟨target.dialect, p.toCode, τ.structures⟩ functions ∧
        Context.EmitsMapped ⟨target.dialect, p.toCode, τ.structures⟩ stage functions) ∧
    ∀ e name, (p.generateFrom symbols depth target.dialect entry options).result = .error e →
      e.unmapped? = some name →
      e.message = s!"no mapping for type `{name}`" ∧
        (target.dialect.mapType name = none ∧ p.structures.find? name = none ∧
            (∀ definition, symbols.declarations name ≠ [.struct definition]) ∨
          ∃ r ∈ p.resources.items, r.kind.needsValueType = true ∧ r.valueType = none ∧
            name = s!"<value type of `{r.name}`>") := by
  refine ⟨fun f stage functions layout τ hentry hfunctions hresolve => ?_,
    fun e name he hname => ⟨GenerationError.message_of_unmapped? hname, ?_⟩⟩
  · have hcovers := covers_of_resolveRequest
      (fun _ => Code.mem_reachable_iff (function?_of_findEntry hentry) hfunctions) hresolve
    refine ⟨hcovers, hcovers.exists_structureDecls, fun r hr => ?_, fun g hg => ?_⟩
    · exact unmapped_declareResource rfl (hcovers.values r hr)
    · exact hcovers.unmapped_functionLines stage hg
  · rw [Program.generateFrom_result_eq_eval, eval_shaderQuery] at he
    have hdocument := documentRequest_unmapped (m := p.structures.meaning symbols) target
      p.toCode depth entry options
    cases hresult : ((documentRequest target.dialect p.toCode depth entry options).eval
        (p.structures.meaning symbols) {}).1 with
    | ok lines =>
      rw [hresult] at he
      cases he
    | error e' =>
      rw [hresult] at he
      cases he
      obtain ⟨hmap, reason, hreason⟩ | hlacks := hdocument e name hresult hname
      · refine .inl ⟨hmap, ?_⟩
        cases hfound : p.structures.find? name with
        | some found =>
          rw [StructureSet.meaning_of_find?_some hfound] at hreason
          cases hreason
        | none =>
          refine ⟨rfl, fun definition hdeclared => ?_⟩
          rw [StructureSet.meaning_of_find?_none hfound,
            SymbolSource.lookup_eq_ok_iff.2 hdeclared] at hreason
          cases hreason
      · exact .inr hlacks

/-- A fragment shader that names a structure in the header of a loop, and a type in a case of a switch in
its body. -/
def Function.looping : Function where
  name := "shade"
  returnType := ⟨Host.vector4, false⟩
  role := .entry .fragment
  parameters := [⟨"pixel", ⟨"Scene.Pixel", false⟩⟩]
  workgroup := {}
  body := [
    .forLoop .unknown
      (some (.declare .unknown "ray" ⟨"Scene.Ray", false⟩ 0
        (some (.construct ⟨"Scene.Ray", false⟩ []))))
      none [] [
        .switch .unknown (.literal (.int 1)) [
          .mk [.int 1] true [.eval .unknown (.cast ⟨Host.int, false⟩ (.literal (.uint 2)))]]],
    .ret .unknown (some (.staticMember ⟨Host.vector4, false⟩ "One"))]

/-- The program with this function and some resources. -/
def Program.looping (resources : List Resource) : Program where
  resources := ⟨resources⟩
  functions := ⟨[Function.looping]⟩
  structures := Program.nested.structures

theorem resolution_covers_emission_looping :
    (∃ structures, structures.map Prod.fst = ["Scene.Ray", "Scene.Light", "Scene.Pixel"] ∧
      Context.Covers ⟨Target.glsl450.dialect, (Program.looping []).toCode, structures⟩
        [Function.looping] ∧
      Context.EmitsMapped ⟨Target.glsl450.dialect, (Program.looping []).toCode, structures⟩ .fragment
        [Function.looping]) ∧
    (∃ table : Symbols,
      ((Program.looping []).generateFrom table 5 Target.glsl450.dialect "shade" {}).result =
          .error (.unknownType "Scene.Ray") ∧
        ∀ definition, table.declarations "Scene.Ray" ≠ [.struct definition]) ∧
    ∃ camera : Resource,
      ((Program.looping [camera]).generateFrom Symbols.nested 5 Target.glsl450.dialect "shade"
          {}).result = .error (.missingValueType "camera") ∧
        camera.kind.needsValueType = true ∧ camera.valueType = none := by
  refine ⟨?_, ⟨⟨Symbols.nested.entries.take 1⟩, ?_⟩,
    ⟨{ name := "camera", kind := .uniform, binding := 0 }, ?_⟩⟩
  · have hcalls : Block.calls Function.looping.body = [] := by decide +kernel
    have hfunctions : (Program.looping []).toCode.reachable Function.looping =
        .ok [Function.looping] := by
      rw [Code.reachable, Code.visit_eq, hcalls]
      rfl
    cases hresolve : (resolveRequest Target.glsl450.dialect (Program.looping []).toCode 5
        Function.looping .fragment [Function.looping]).eval
        ((Program.looping []).structures.meaning Symbols.nested) {} with
    | mk result τ =>
      have hok : result.toBool = true := by
        rw [show result = _ from (congrArg Prod.fst hresolve).symm]
        decide +kernel
      have hnames : τ.structures.map Prod.fst = ["Scene.Ray", "Scene.Light", "Scene.Pixel"] := by
        rw [show τ = _ from (congrArg Prod.snd hresolve).symm]
        decide +kernel
      cases result with
      | error e => cases hok
      | ok layout =>
        exact ⟨τ.structures, hnames,
          (resolution_covers_emission .glsl450 (Program.looping []) Symbols.nested 5 "shade" {}).1
            Function.looping .fragment [Function.looping] layout τ rfl hfunctions hresolve⟩
  · have hresult : ((Program.looping []).generateFrom
        (Symbols.mk (Symbols.nested.entries.take 1)) 5 Target.glsl450.dialect "shade" {}).result =
          .error (.unknownType "Scene.Ray") := by
      decide +kernel
    obtain ⟨-, ⟨-, -, hdeclared⟩ | ⟨r, hr, -⟩⟩ :=
      (resolution_covers_emission .glsl450 (Program.looping []) _ 5 "shade" {}).2 _ _ hresult rfl
    · exact ⟨hresult, hdeclared⟩
    · cases hr
  · have hresult : ((Program.looping [{ name := "camera", kind := .uniform, binding := 0 }]).generateFrom
        Symbols.nested 5 Target.glsl450.dialect "shade" {}).result =
          .error (.missingValueType "camera") := by
      decide +kernel
    exact ⟨hresult, rfl, rfl⟩

end CrossShader

import CrossShader.Proofs.CodeAgreement
import CrossShader.Proofs.Inquiry

/-!
# Programs with more parts

A request depends on what its entry leads to: functions and structures that a program has beyond that
change neither the shader nor the error.

* `Addition`, `Program.extend` — functions and structures added to a program, in any order.
* `Program.Grown` — what additions leave as it was.
* `documentRequest_agree_code` — requests on codes that agree on what the entry leads to.
* `Program.generate_extend` — generation for an entry of the program, before and after.
-/

set_option autoImplicit false

namespace CrossShader

/-! ## Additions -/

/-- A part that is added to a program. -/
inductive Addition where
  | function (f : Function)
  | record (s : Structure)

namespace Addition

/-- The names of the added functions. -/
def functionNames (additions : List Addition) : List String :=
  additions.filterMap fun
    | function f => some f.name
    | record _ => none

/-- The names of the added structures. -/
def recordNames (additions : List Addition) : List String :=
  additions.filterMap fun
    | function _ => none
    | record s => some s.name

end Addition

/-- Add parts one after the other; the first one that is refused ends it. -/
def Program.extend (p : Program) : List Addition → Except RosterError Program
  | [] => .ok p
  | .function f :: rest => do
    let (_, q) ← p.addFunction f
    q.extend rest
  | .record s :: rest => do
    let q ← p.addStructure s
    q.extend rest

namespace Program

/-- A program that has more functions and structures than another one. -/
structure Grown (p q : Program) (functions records : List String) : Prop where
  resources : q.resources = p.resources
  functions_kept : ∀ name f, p.toCode.function? name = some f → q.toCode.function? name = some f
  functions_added : ∀ name, name ∉ functions → q.toCode.function? name = p.toCode.function? name
  structures_added : ∀ name, name ∉ records → q.structures.find? name = p.structures.find? name
  structures_length : p.structures.length ≤ q.structures.length

namespace Grown

theorem refl (p : Program) : Grown p p [] [] where
  resources := rfl
  functions_kept _ _ h := h
  functions_added _ _ := rfl
  structures_added _ _ := rfl
  structures_length := Nat.le_refl _

theorem trans {p q r : Program} {fs fs' ss ss' : List String} (h : Grown p q fs ss)
    (h' : Grown q r fs' ss') : Grown p r (fs ++ fs') (ss ++ ss') where
  resources := h'.resources.trans h.resources
  functions_kept name f hf := h'.functions_kept name f (h.functions_kept name f hf)
  functions_added name hname := by
    rw [List.mem_append, not_or] at hname
    rw [h'.functions_added name hname.2, h.functions_added name hname.1]
  structures_added name hname := by
    rw [List.mem_append, not_or] at hname
    rw [h'.structures_added name hname.2, h.structures_added name hname.1]
  structures_length := Nat.le_trans h.structures_length h'.structures_length

theorem of_addFunction {p q : Program} {f : Function} {handle : Handle Function}
    (h : p.addFunction f = .ok (handle, q)) : Grown p q [f.name] [] := by
  unfold addFunction Roster.insert at h
  split at h
  · cases h
  split at h
  · cases h
  cases h
  have hfind : ∀ name, (p.functions.items ++ [f]).find? (Named.name · == name) =
      (p.toCode.function? name).or ([f].find? (Named.name · == name)) :=
    fun name => List.find?_append
  refine ⟨rfl, fun name g hg => ?_, fun name hname => ?_, fun _ _ => rfl, Nat.le_refl _⟩
  · exact (hfind name).trans (by rw [hg]; rfl)
  · have hne : ¬ f.name = name := fun heq => hname (by rw [heq]; exact List.mem_cons_self)
    have hnone : [f].find? (Named.name · == name) = none := by
      simpa [Named.name] using hne
    exact (hfind name).trans (by rw [hnone, Option.or_none])

theorem of_addStructure {p q : Program} {s : Structure} (h : p.addStructure s = .ok q) :
    Grown p q [] [s.name] := by
  unfold addStructure StructureSet.insert at h
  split at h
  · cases h
  cases h
  refine ⟨rfl, fun _ _ hg => hg, fun _ _ => rfl, fun name hname => ?_, ?_⟩
  · have hne : ¬ name = s.name := fun heq => hname (by rw [heq]; exact List.mem_cons_self)
    show (p.structures.push s.name s).find? name = _
    rw [StructureSet.find?_push, if_neg hne, Option.or_none]
  · simp [StructureSet.length, StructureSet.push]

/-- **What additions leave as it was.** -/
theorem of_extend {p q : Program} {additions : List Addition} (h : p.extend additions = .ok q) :
    Grown p q (Addition.functionNames additions) (Addition.recordNames additions) := by
  induction additions generalizing p with
  | nil =>
    cases h
    exact refl _
  | cons first rest ih =>
    cases first with
    | function f =>
      obtain ⟨⟨handle, r⟩, hr, h⟩ := bind_ok.1 h
      exact (of_addFunction hr).trans (ih h)
    | record s =>
      obtain ⟨r, hr, h⟩ := bind_ok.1 h
      exact (of_addStructure hr).trans (ih h)

/-- Names that no added structure has keep their meanings. -/
theorem meaning {p q : Program} {fs ss : List String} (h : Grown p q fs ss) (symbols : SymbolSource)
    {name : String} (hname : name ∉ ss) :
    q.structures.meaning symbols name = p.structures.meaning symbols name := by
  rw [StructureSet.meaning, StructureSet.meaning, h.structures_added name hname]

/-- Codes agree on what a function leads to, if no function that it reaches calls an added one. -/
theorem agreeFrom {p q : Program} {fs ss : List String} (h : Grown p q fs ss) {f : Function}
    (hf : p.toCode.function? f.name = some f)
    (hcalls : ∀ g, p.toCode.Reaches f g → ∀ t name arguments,
      Block.Innermost g.body t (.call name arguments) → name ∉ fs) :
    p.toCode.AgreeFrom q.toCode f where
  resources := h.resources
  entry := h.functions_kept f.name f hf
  function? g hg t name arguments hin := h.functions_added name (hcalls g hg t name arguments hin)

end Grown

end Program

/-! ## Requests -/

section Requests

variable {m : Meanings} {c c' : Code} {f : Function}

theorem resourceLines_agree (d : Dialect) (structures : List (String × Structure)) :
    ∀ rs : List Resource,
      resourceLines ⟨d, c', structures⟩ rs = resourceLines ⟨d, c, structures⟩ rs
  | [] => rfl
  | r :: rest => by
    rw [resourceLines, resourceLines, resourceLines_agree d structures rest]
    rfl

theorem Code.AgreeFrom.documentLines_agree (h : c.AgreeFrom c' f) (d : Dialect)
    (structures : List (String × Structure)) (stage : Stage) (precision : FloatPrecision)
    {functions : List Function} (hreach : ∀ g ∈ functions, c.Reaches f g) (layout : EntryLayout) :
    documentLines ⟨d, c', structures⟩ stage precision functions layout =
      documentLines ⟨d, c, structures⟩ stage precision functions layout := by
  have hbodies : functions.mapM (Context.functionLines ⟨d, c', structures⟩ stage) =
      functions.mapM (Context.functionLines ⟨d, c, structures⟩ stage) :=
    mapM_congr fun g hg => h.functionLines_agree d structures stage (hreach g hg)
  have hresources : resourceLines ⟨d, c', structures⟩ c'.resources.items =
      resourceLines ⟨d, c, structures⟩ c.resources.items := by
    rw [h.resources, resourceLines_agree]
  unfold documentLines
  rw [hbodies, hresources]
  rfl

/-- **Requests on codes that agree on what the entry leads to cannot be told apart.** -/
theorem Code.AgreeFrom.documentRequest_agree (h : c.AgreeFrom c' f) (d : Dialect) (depth : Nat)
    {entry : String} (hf : c.function? entry = some f) (options : Options) :
    Request.Agree m (documentRequest d c' depth entry options)
      (documentRequest d c depth entry options) := by
  have hname := Code.name_of_function? hf
  have hfind : findEntry d c' entry = findEntry d c entry := by
    rw [findEntry, findEntry, hf, ← hname, h.entry]
  unfold documentRequest
  rw [hfind]
  refine (Request.Agree.refl _).bindOn fun σ found τ hfound => ?_
  obtain ⟨g, stage⟩ := found
  rw [Request.eval_ofExcept] at hfound
  have hg := function?_of_findEntry (congrArg Prod.fst hfound)
  rw [hf] at hg
  cases hg
  refine (Request.Agree.refl _).bind fun _ => ?_
  -- the same functions are reached, in the same order
  have hreachable : c'.reachable f = c.reachable f :=
    h.reachable_agree (Code.function?_name hf)
  rw [hreachable]
  refine (Request.Agree.refl _).bindOn fun σ functions τ hfunctions => ?_
  rw [Request.eval_ofExcept] at hfunctions
  have hreach : ∀ g ∈ functions, c.Reaches f g := fun g hg =>
    (Code.mem_reachable_iff hf (congrArg Prod.fst hfunctions)).1 hg
  have hresolve : resolveRequest d c' depth f stage functions =
      resolveRequest d c depth f stage functions := by
    unfold resolveRequest
    rw [h.resources]
  rw [hresolve]
  refine (Request.Agree.refl _).bind fun layout => (Request.Agree.refl _).bind fun σ => ?_
  refine (Request.Agree.refl _).bind fun _ => ?_
  rw [h.documentLines_agree d σ.structures stage options.floatPrecision hreach layout]
  exact Request.Agree.refl _

end Requests

/-! ## Programs -/

/-- Two programs one of which has grown, on a request that reaches nothing of what was added. -/
theorem Program.Grown.generateFrom_result {p q : Program} {fs ss : List String}
    (h : p.Grown q fs ss) (symbols : SymbolSource) (depth : Nat) (d : Dialect) {entry : String}
    {f : Function} (hf : p.toCode.function? entry = some f) (options : Options)
    (hcalls : ∀ g, p.toCode.Reaches f g → ∀ t name arguments,
      Block.Innermost g.body t (.call name arguments) → name ∉ fs)
    (htypes : ∀ name, Needed (p.structures.meaning symbols) d p.toCode f name → name ∉ ss) :
    (q.generateFrom symbols depth d entry options).result =
      (p.generateFrom symbols depth d entry options).result := by
  have hagree := (h.agreeFrom (Code.function?_name hf) hcalls).documentRequest_agree
    (m := q.structures.meaning symbols) d depth hf options {}
  rw [Program.generateFrom_result_eq_eval, Program.generateFrom_result_eq_eval]
  -- first the code changes, with the new meanings, and then the meanings of names that are asked
  calc (shaderQuery d q.toCode depth entry options).eval (q.structures.meaning symbols)
      = (shaderQuery d p.toCode depth entry options).eval (q.structures.meaning symbols) := by
        rw [eval_shaderQuery, eval_shaderQuery, hagree.1]
    _ = (shaderQuery d p.toCode depth entry options).eval (p.structures.meaning symbols) := by
        refine Query.eval_congr fun name hname => h.meaning symbols (htypes name ?_)
        rw [asked_shaderQuery] at hname
        exact needed_of_asked hf depth options name hname

/-- **Generation depends on what the request reaches.**  Functions and structures that are added to a
program, in any order, change neither the text nor the diagnostics nor the error of a request for an
entry of the program, if no function that the entry reaches calls an added function, and no type that
these functions, the resources or the fields of the structures behind them name is an added structure. -/
theorem Program.generate_extend {p q : Program} {additions : List Addition}
    (h : p.extend additions = .ok q) (d : Dialect) (symbols : SymbolSource) {entry : String}
    {f : Function} (hf : p.toCode.function? entry = some f) (options : Options)
    (hcalls : ∀ g, p.toCode.Reaches f g → ∀ t name arguments,
      Block.Innermost g.body t (.call name arguments) →
      name ∉ Addition.functionNames additions)
    (htypes : ∀ name, Needed (p.structures.meaning symbols) d p.toCode f name →
      name ∉ Addition.recordNames additions) :
    (∀ depth, (q.generateFrom symbols depth d entry options).result =
      (p.generateFrom symbols depth d entry options).result) ∧
    ∀ table : Symbols, symbols = table.source →
      (q.generate table d entry options).result = (p.generate table d entry options).result := by
  have hgrown := Grown.of_extend h
  refine ⟨fun depth => hgrown.generateFrom_result symbols depth d hf options hcalls htypes, ?_⟩
  rintro table rfl
  -- the larger program has the larger bound on nesting, which the smaller one may use as well
  have hbound : p.nestingBound table ≤ q.nestingBound table := by
    have := hgrown.structures_length
    unfold nestingBound
    omega
  rw [← p.generateFrom_result table hbound]
  exact hgrown.generateFrom_result table.source _ d hf options hcalls htypes

/-- A fragment entry that calls a function, with a uniform whose type holds a structure. -/
def Program.shaded : Program where
  resources := ⟨[{ name := "light", kind := .uniform, binding := 0, valueType := some ⟨"Light", false⟩ }]⟩
  functions := ⟨[
    { name := "shade"
      returnType := ⟨Host.vector4, false⟩
      role := .entry .fragment
      parameters := [⟨"pixel", ⟨"Pixel", false⟩⟩]
      workgroup := {}
      body := [.ret .unknown (some (.call "glow" []))] },
    { name := "glow"
      returnType := ⟨Host.vector4, false⟩
      role := .plain
      parameters := []
      workgroup := {}
      body := [.ret .unknown (some (.member (.member (.resource "light") ⟨"Light", false⟩ "tone")
        ⟨"Tone", false⟩ "color"))] }]⟩
  structures := ⟨[
    ("Pixel", ⟨"Pixel", [{ name := "uv", type := ⟨Host.vector2, false⟩ }]⟩),
    ("Light", ⟨"Light", [{ name := "tone", type := ⟨"Tone", false⟩ }]⟩),
    ("Tone", ⟨"Tone", [{ name := "color", type := ⟨Host.vector4, false⟩ }]⟩)]⟩

/-- Parts that nothing in `Program.shaded` mentions. -/
def Program.spareParts : List Addition :=
  [.record ⟨"Spare", [{ name := "light", type := ⟨"Light", false⟩ }]⟩,
    .function { name := "spare", returnType := ⟨"Spare", false⟩, role := .plain, parameters := [],
                workgroup := {}, body := [.eval .unknown (.call "glow" [])] }]

theorem Code.mem_items_of_function? {c : Code} {name : String} {f : Function}
    (h : c.function? name = some f) : f ∈ c.functions.items :=
  List.mem_of_find?_eq_some h

/-- What a function of the code reaches is a function of the code. -/
theorem Code.Reaches.mem_items {c : Code} {f g : Function} (h : c.Reaches f g)
    (hf : f ∈ c.functions.items) : g ∈ c.functions.items := by
  induction h with
  | refl => exact hf
  | tail _ hcall _ => exact mem_items_of_function? hcall.function?

/-- The needed structures of a program that discovers nothing are named in a part of it. -/
theorem Needed.of_parts {p : Program} {d : Dialect} {f : Function} {P : String → Prop}
    (hf : f ∈ p.functions.items)
    (hfunctions : ∀ g ∈ p.functions.items, ∀ type ∈ g.typeUses d, P type.name)
    (hresources : ∀ type ∈ p.resources.items.filterMap (·.valueType), P type.name)
    (hfields : ∀ entry ∈ p.structures.entries, ∀ field ∈ entry.2.fields, P field.type.name)
    {name : String} (h : Needed (p.structures.meaning ⟨fun _ => []⟩) d p.toCode f name) : P name := by
  cases h with
  | named hreach hnames _ =>
    exact hfunctions _ (hreach.mem_items hf) _ (Function.mem_typeUses.2 hnames)
  | resource hr htype _ => exact hresources _ (List.mem_filterMap.2 ⟨_, hr, htype⟩)
  | field _ hm hfield _ => exact hfields _ (StructureSet.mem_entries_of_meaning hm) _ hfield

theorem Program.generate_extend_shaded :
    ∃ q shader, Program.shaded.extend Program.spareParts = .ok q ∧
      (Program.shaded.generate ⟨[]⟩ (Glsl.dialect .core450) "shade" {}).result = .ok shader ∧
      (q.generate ⟨[]⟩ (Glsl.dialect .core450) "shade" {}).result = .ok shader := by
  obtain ⟨q, hq⟩ : ∃ q, Program.shaded.extend Program.spareParts = .ok q := ⟨_, rfl⟩
  obtain ⟨f, hf⟩ : ∃ f, Program.shaded.toCode.function? "shade" = some f := ⟨_, rfl⟩
  have hsource : (⟨[]⟩ : Symbols).source = ⟨fun _ => []⟩ := rfl
  have hmem : f ∈ Program.shaded.functions.items := Code.mem_items_of_function? hf
  have hsites : ∀ g ∈ Program.shaded.functions.items, ∀ site ∈ Block.calls g.body,
      site.callee ∉ Addition.functionNames Program.spareParts := by decide +kernel
  have hsame := (Program.generate_extend hq (Glsl.dialect .core450) ⟨fun _ => []⟩ hf {}
    (fun g hg t name arguments hin => hsites g (hg.mem_items hmem) ⟨name, t.location⟩
      (Block.mem_calls.2 ⟨t, arguments, hin, rfl⟩))
    (fun name hname => Needed.of_parts
      (P := fun name => name ∉ Addition.recordNames Program.spareParts) hmem (by decide +kernel)
      (by decide +kernel) (by decide +kernel) hname)).2 ⟨[]⟩ hsource.symm
  have hok : (Program.shaded.generate ⟨[]⟩ (Glsl.dialect .core450) "shade" {}).result.toBool =
      true := by decide +kernel
  cases hshader : (Program.shaded.generate ⟨[]⟩ (Glsl.dialect .core450) "shade" {}).result with
  | error e =>
    rw [hshader] at hok
    cases hok
  | ok shader => exact ⟨q, shader, hq, rfl, hsame.trans hshader⟩

end CrossShader

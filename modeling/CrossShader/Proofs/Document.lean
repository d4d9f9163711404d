import CrossShader.Proofs.EmittedStructures
import CrossShader.Proofs.StageInterface

/-!
# The parts of a document

What a generated text consists of, and where its parts come from.

* `Document` — an entry with everything that its shader declares.
* `Document.Of` — the documents of a request.
* `Program.exists_document` — every generated text is the text of such a document.
-/

set_option autoImplicit false

namespace CrossShader

open Text

/-- An entry with everything that its shader declares: structures by canonical name, resources and
functions, each with the lines of its declaration or in the order of theirs, and the stage interface. -/
structure Document where
  entry : Function
  stage : Stage
  functions : List Function
  layout : EntryLayout
  structures : List (String × Structure)
  resources : List Declared
  bodies : List (List Line)

namespace Document

/-- What the bodies of a document are lowered in. -/
def context (doc : Document) (d : Dialect) (c : Code) : Context := ⟨d, c, doc.structures.reverse⟩

/-- The lines below the header. -/
def declarations (doc : Document) (d : Dialect) : List Line :=
  (doc.structures.map fun s => d.declarationOf s.1 s.2).flatMap d.structureLines ++
    doc.resources.flatMap Declared.lines ++ doc.bodies.flatten ++ mainLines d doc.layout

/-- The documents of a request: the entry and what it reaches, laid out, resolved and lowered. -/
structure Of (p : Program) (symbols : SymbolSource) (depth : Nat) (d : Dialect) (entry : String)
    (doc : Document) : Prop where
  entry : findEntry d p.toCode entry = .ok (doc.entry, doc.stage)
  functions : p.toCode.reachable doc.entry = .ok doc.functions
  layout : ∃ τ, (planEntry d depth doc.entry doc.stage).eval (p.structures.meaning symbols) {} =
    (.ok doc.layout, τ)
  structures : DeclarationOrder (p.structures.meaning symbols) d p.toCode doc.entry doc.structures
  resources : p.resources.items.mapM (doc.context d p.toCode).declareResource = .ok doc.resources
  bodies : doc.functions.mapM ((doc.context d p.toCode).functionLines doc.stage) = .ok doc.bodies

namespace Of

variable {p : Program} {symbols : SymbolSource} {depth : Nat} {d : Dialect} {entry : String}
  {doc : Document}

theorem function? (h : doc.Of p symbols depth d entry) :
    p.toCode.function? entry = some doc.entry :=
  function?_of_findEntry h.entry

theorem mem_functions (h : doc.Of p symbols depth d entry) {f : Function} :
    f ∈ doc.functions ↔ p.toCode.Reaches doc.entry f :=
  Code.mem_reachable_iff h.function? h.functions

/-- The functions of a document have different names. -/
theorem names_nodup (h : doc.Of p symbols depth d entry) :
    (doc.functions.map Function.name).Nodup := by
  have hvisited := Code.reachable_visited h.function?
  rw [h.functions] at hvisited
  exact hvisited.1.walked.nodup

/-- The signature and the body of each function of a document are lowered. -/
theorem exists_lowered (h : doc.Of p symbols depth d entry) {f : Function} (hf : f ∈ doc.functions) :
    ∃ signature body, (doc.context d p.toCode).signature f = .ok signature ∧
      (Scope.ofFunction (doc.context d p.toCode) doc.stage f).outlineAll f.body = .ok body := by
  obtain ⟨lines, hlines⟩ := exists_ok_of_mapM_ok h.bodies f hf
  obtain ⟨signature, hsignature, hrest⟩ := bind_ok.1 hlines
  obtain ⟨body, hbody, -⟩ := bind_ok.1 hrest
  exact ⟨signature, body, hsignature, hbody⟩

/-- A structure that the entry leads to is declared. -/
theorem mem_structures (h : doc.Of p symbols depth d entry) {name : String} {s : Structure}
    (hneeded : Needed (p.structures.meaning symbols) d p.toCode doc.entry name)
    (hmeaning : p.structures.meaning symbols name = .ok s) : (name, s) ∈ doc.structures := by
  obtain ⟨⟨_, s'⟩, hmem, rfl⟩ := List.mem_map.1 ((h.structures.mem_iff name).2 hneeded)
  cases hmeaning.symm.trans (h.structures.meaning _ hmem)
  exact hmem

/-- The bodies of a document are lowered with structures that are each resolved after those of their
fields. -/
theorem ordered (h : doc.Of p symbols depth d entry) : (doc.context d p.toCode).Ordered := by
  refine ⟨?_, fun later name s earlier heq field hfield hmap => ?_⟩
  · show (doc.structures.reverse.map Prod.fst).Nodup
    rw [List.map_reverse, List.nodup_reverse]
    exact h.structures.names_nodup
  · have heq : doc.structures.reverse = later ++ (name, s) :: earlier := heq
    have hsplit : doc.structures = earlier.reverse ++ (name, s) :: later.reverse := by
      rw [← List.reverse_reverse doc.structures, heq]
      simp
    have hbefore := h.structures.fields_before _ name s _ hsplit field hfield hmap
    rwa [List.map_reverse, List.mem_reverse] at hbefore

end Of

end Document

/-- **Every generated text is the text of a document of its request.** -/
theorem Program.exists_document {p : Program} {symbols : SymbolSource} {depth : Nat} {d : Dialect}
    {entry : String} {options : Options} {shader : Shader}
    (h : (p.generateFrom symbols depth d entry options).result = .ok shader) :
    ∃ doc : Document, doc.Of p symbols depth d entry ∧
      shader.text = renderLines options.indent
        (d.header doc.stage options.floatPrecision ++ doc.declarations d) := by
  obtain ⟨lines, σ, hdoc, htext, -⟩ := Program.generateFrom_ok h
  obtain ⟨f, stage, functions, layout, τ, hentry, hfunctions, hresolve, hlines⟩ :=
    documentRequest_ok hdoc
  obtain ⟨declared, bodies, hdeclared, hbodies, hdocument⟩ := documentLines_ok hlines
  obtain ⟨hsettled, hmem⟩ := resolveRequest_exact
    (fun g => Code.mem_reachable_iff (function?_of_findEntry hentry) hfunctions) hresolve
  -- of the first phase, only its first step makes the layout
  obtain ⟨_, υ, hplan, hrest⟩ := Request.eval_bind_ok.1 hresolve
  obtain ⟨_, _, -, hrest⟩ := Request.eval_bind_ok.1 hrest
  obtain ⟨_, _, -, hrest⟩ := Request.eval_bind_ok.1 hrest
  cases hrest
  refine ⟨⟨f, stage, functions, layout, τ.structures.reverse, declared, bodies⟩, ?_, ?_⟩
  · have hcontext : Document.context ⟨f, stage, functions, layout, τ.structures.reverse, declared,
        bodies⟩ d p.toCode = ⟨d, p.toCode, τ.structures⟩ := by
      rw [Document.context, List.reverse_reverse]
    refine ⟨hentry, hfunctions, ⟨υ, hplan⟩, hsettled.declarationOrder hmem, ?_, ?_⟩
    · rw [hcontext]
      exact hdeclared
    · rw [hcontext]
      exact hbodies
  · rw [htext, hdocument, Document.declarations]
    simp only [List.append_assoc]

end CrossShader

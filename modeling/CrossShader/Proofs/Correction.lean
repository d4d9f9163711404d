import CrossShader.Proofs.Capture
import CrossShader.Proofs.MainLocals

/-!
# Corrected names

Every name of a program is corrected once, wherever a document declares it.

* `Identifiers.isReserved_correct` — a corrected name is never reserved.
* `Document.Spelled` — how a document spells the names of its functions, parameters, locals, resources and
  fields.
* `Document.Of.spelled` — all of them are spelled by correction.
* `correction_faithful` — so names that differ stay different, and none becomes a reserved word or `main`.
-/

set_option autoImplicit false

namespace CrossShader

open Text

/-- **A corrected name is never reserved**, if no reserved word ends with an underscore. -/
theorem Identifiers.isReserved_correct {ids : Identifiers}
    (h : ∀ word ∈ ids.reserved, ending word ≠ some '_') (name : String) :
    ids.isReserved (ids.correct name) = false := by
  rw [Bool.eq_false_iff]
  intro hreserved
  have hending := h _ (List.contains_iff_mem.1 hreserved)
  exact Identifiers.correct_ne_of_isReserved hreserved hending name rfl

namespace Target

variable (target : Target)

theorem ending_of_mem_reserved :
    ∀ word ∈ target.dialect.identifiers.reserved, ending word ≠ some '_' := by
  have hglsl : ∀ word ∈ Glsl.reserved, ending word ≠ some '_' := by decide +kernel
  have hhlsl : ∀ word ∈ Hlsl.reserved, ending word ≠ some '_' := by decide +kernel
  cases target with
  | glslEs300 | glsl330 | glsl450 => exact hglsl
  | hlsl => exact hhlsl

theorem correct_injective : Function.Injective target.dialect.correct :=
  fun _ _ => target.correct_inj.1

theorem isReserved_correct (name : String) :
    target.dialect.identifiers.isReserved (target.dialect.correct name) = false := by
  rw [dialect_correct]
  exact Identifiers.isReserved_correct target.ending_of_mem_reserved name

end Target

namespace Document

/-- How a document spells the names of its program: those of functions and their parameters in signatures,
those of locals where they are declared, those of resources and those of fields. -/
structure Spelled (doc : Document) (d : Dialect) (p : Program) (spell : String → String) : Prop where
  functions : ∀ f ∈ doc.functions, (doc.context d p.toCode).signature f = .ok
    (d.targetType f.returnType ++ " " ++ callText (spell f.name)
      (f.parameters.map fun parameter => d.targetType parameter.type ++ " " ++ spell parameter.name))
  locals : ∀ f ∈ doc.functions, ∀ loc name type count value,
    Block.Holds f.body (.declare loc name type count value) →
    ∃ start, (Scope.ofFunction (doc.context d p.toCode) doc.stage f).simple
      (.declare loc name type count value) = .ok
        (d.targetType type ++ " " ++ spell name ++ countSuffix count ++ start)
  resources : List.Forall₂ (fun (r : Resource) declared => ∃ form,
    r.kind.form? = some form ∧
      d.resource form ⟨r, spell r.name, r.valueType.map d.targetType⟩ = .ok declared)
    p.resources.items doc.resources
  fields : ∀ entry ∈ doc.structures, (d.declarationOf entry.1 entry.2).fields =
    entry.2.fields.map fun field => ⟨d.targetType field.type, spell field.name, field.count⟩

end Document

/-- A declaration is written with its type, its corrected name and its start value. -/
theorem simple_declare_ok {s : Scope} {loc : Location} {name : String} {type : TypeRef} {count : Nat}
    {value : Option Expr} {text : String}
    (h : s.simple (.declare loc name type count value) = .ok text) :
    ∃ start, text = s.dialect.targetType type ++ " " ++ s.dialect.correct name ++ countSuffix count ++
      start := by
  have hdeclarator : ∀ {declared}, s.declarator loc name type count = .ok declared →
      declared = s.dialect.targetType type ++ " " ++ s.dialect.correct name ++ countSuffix count := by
    intro declared hdeclared
    obtain ⟨-, mapped, hmapped, rfl⟩ := declarator_ok hdeclared
    rw [Context.mappedType_ok hmapped]
    rfl
  cases value with
  | none => exact ⟨"", by rw [hdeclarator h, String.append_empty]⟩
  | some value =>
    obtain ⟨declared, start, hdeclared, -, rfl⟩ := simple_declare_some_ok h
    refine ⟨" = " ++ start, ?_⟩
    rw [← hdeclarator hdeclared, ← String.append_assoc]

/-- The names of a document are spelled by correction. -/
theorem Document.Of.spelled {target : Target} {p : Program} {symbols : SymbolSource} {depth : Nat}
    {entry : String} {doc : Document} (h : doc.Of p symbols depth target.dialect entry) :
    doc.Spelled target.dialect p target.dialect.correct where
  functions f hf := by
    obtain ⟨signature, -, hsignature, -⟩ := h.exists_lowered hf
    rw [hsignature, Context.signature_ok hsignature]
    simp only [callText, ← String.append_assoc]
    rfl
  locals f hf loc name type count value hholds := by
    obtain ⟨-, body, -, hbody⟩ := h.exists_lowered hf
    obtain ⟨outline, houtline⟩ := outline_of_holds hbody hholds
    obtain ⟨text, htext, -⟩ := outlined_of_outline houtline
    obtain ⟨start, rfl⟩ := simple_declare_ok htext
    exact ⟨start, htext⟩
  resources := by
    refine (mapM_ok.1 h.resources).imp fun r declared hdeclared => ?_
    obtain ⟨decl, hdecl, hresource⟩ := bind_ok.1 hdeclared
    cases Context.resourceDecl_ok rfl hdecl
    cases hform : r.kind.form? with
    | none =>
      rw [hform] at hresource
      cases hresource
    | some form =>
      rw [hform] at hresource
      exact ⟨form, rfl, hresource⟩
  fields _ _ := rfl

/-- **Correction is injective and avoids reserved words.**  Whatever words are reserved, names that are
corrected alike are the same; and if none of the words ends with an underscore, no corrected name is one of
them.  The words of every target are such.  So in every generated text, where functions, parameters,
locals, resources and fields are spelled by correction, names that differ are spelled differently, no two
functions are spelled alike, and nothing is spelled `main` or like another reserved word. -/
theorem correction_faithful :
    (∀ (ids : Identifiers) (a b : String), ids.correct a = ids.correct b → a = b) ∧
    (∀ ids : Identifiers, (∀ word ∈ ids.reserved, ending word ≠ some '_') →
      ∀ name, ids.isReserved (ids.correct name) = false) ∧
    ∀ target : Target, target.dialect.correct = target.dialect.identifiers.correct ∧
      (∀ word ∈ target.dialect.identifiers.reserved, ending word ≠ some '_') ∧
      ∀ (p : Program) (symbols : SymbolSource) (depth : Nat) (entry : String) (options : Options)
        (shader : Shader),
        (p.generateFrom symbols depth target.dialect entry options).result = .ok shader →
        ∃ doc : Document, doc.Of p symbols depth target.dialect entry ∧
          shader.text = renderLines options.indent
            (target.dialect.header doc.stage options.floatPrecision ++
              doc.declarations target.dialect) ∧
          doc.Spelled target.dialect p target.dialect.correct ∧
          Function.Injective target.dialect.correct ∧
          (doc.functions.map fun f => target.dialect.correct f.name).Nodup ∧
          ∀ name, target.dialect.correct name ≠ "main" ∧
            target.dialect.identifiers.isReserved (target.dialect.correct name) = false := by
  refine ⟨fun ids a b => ids.correct_inj.1, fun ids hending => Identifiers.isReserved_correct hending,
    fun target => ⟨target.dialect_correct, target.ending_of_mem_reserved, ?_⟩⟩
  intro p symbols depth entry options shader hshader
  obtain ⟨doc, hdoc, htext⟩ := Program.exists_document hshader
  refine ⟨doc, hdoc, htext, hdoc.spelled, target.correct_injective, ?_,
    fun name => ⟨target.correct_ne_main name, target.isReserved_correct name⟩⟩
  have hnames := hdoc.names_nodup.map target.correct_injective
  rwa [List.map_map] at hnames

/-- Words that are reserved together with the empty one. -/
def Identifiers.sparse : Identifiers := { reserved := ["", "for", "__for"] }

theorem correction_faithful_sparse :
    (∀ word ∈ Identifiers.sparse.reserved, ending word ≠ some '_') ∧
    (Identifiers.sparse.correct "___" = "____" ∧ Identifiers.sparse.isReserved "____" = false) ∧
    (Identifiers.sparse.correct "for__" = "for___" ∧ Identifiers.sparse.isReserved "for___" = false) ∧
    ∃ (shader : Shader) (doc : Document), Program.tintedResult .hlsl "main" = .ok shader ∧
      doc.Spelled (Target.hlsl).dialect (.tinted "main") (Target.hlsl).dialect.correct ∧
      (Target.hlsl).dialect.correct "main" ≠ "main" := by
  have hending : ∀ word ∈ Identifiers.sparse.reserved, ending word ≠ some '_' := by decide +kernel
  have hunderscores : Identifiers.sparse.correct "___" = "____" := by decide +kernel
  have hfor : Identifiers.sparse.correct "for__" = "for___" := by decide +kernel
  obtain ⟨-, hfree, htargets⟩ := correction_faithful
  refine ⟨hending, ⟨hunderscores, ?_⟩, ⟨hfor, ?_⟩, ?_⟩
  · rw [← hunderscores]
    exact hfree _ hending "___"
  · rw [← hfor]
    exact hfree _ hending "for__"
  · have hok : (Program.tintedResult .hlsl "main").toBool = true := by decide +kernel
    obtain ⟨shader, hresult⟩ := exists_ok_of_toBool hok
    obtain ⟨doc, -, -, hspelled, -, -, hmain⟩ := (htargets .hlsl).2.2 _ _ _ _ _ _ hresult
    exact ⟨shader, doc, hresult, hspelled, (hmain "main").1⟩

end CrossShader

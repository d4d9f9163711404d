import CrossShader.Proofs.CallGraph
import CrossShader.Proofs.Dependencies
import CrossShader.Proofs.Nesting
import CrossShader.Proofs.Success
import CrossShader.Target
import Mathlib.Data.List.Nodup

/-!
# The structures of a document

Which structures a shader declares, in which order and with which fields.

* `Function.Names` — the types that a function's signature and body name, by the shape of its trees.
* `Needed` — the structures that an entry leads to: named by a function that it reaches or by a
  resource, or by a field of such a structure.
* `Dialect.declarationOf` — a structure as it should be declared.
* `resolveRequest_settles` — the first phase of a request resolves exactly the needed structures.
* `documentRequest_ok` — the parts of a document.
* `StructureDecl.written` — a declaration, line by line.
* `emitted_structures_exact` — the structure declarations of every shader.
-/

set_option autoImplicit false

namespace CrossShader

/-! ## Needed structures -/

/-- A function names a type: in its signature, as the type of a local, a new value or a conversion, or as
the declaring type of a member that the dialect does not know. -/
inductive Function.Names (d : Dialect) (f : Function) : TypeRef → Prop
  | result : f.Names d f.returnType
  | parameter {p : Parameter} : p ∈ f.parameters → f.Names d p.type
  | declared {loc : Location} {name : String} {type : TypeRef} {count : Nat} {value : Option Expr} :
      Block.Holds f.body (.declare loc name type count value) → f.Names d type
  | construct {t : Stmt} {type : TypeRef} {arguments : List Expr} :
      Block.Innermost f.body t (.construct type arguments) → f.Names d type
  | cast {t : Stmt} {type : TypeRef} {operand : Expr} :
      Block.Innermost f.body t (.cast type operand) → f.Names d type
  | member {t : Stmt} {base : Expr} {type : TypeRef} {name : String} :
      Block.Innermost f.body t (.member base type name) →
      d.identifiers.knowsType type.name = false → f.Names d type

theorem Located.typeUse?_stmt {d : Dialect} {t : Stmt} {loc : Location} {type : TypeRef} :
    Located.typeUse? d ⟨.stmt t, loc⟩ = some type ↔
      ∃ loc' name count value, t = .declare loc' name type count value := by
  cases t <;> simp [Located.typeUse?]

theorem Located.typeUse?_expr {d : Dialect} {e : Expr} {loc : Location} {type : TypeRef} :
    Located.typeUse? d ⟨.expr e, loc⟩ = some type ↔
      (∃ arguments, e = .construct type arguments) ∨ (∃ operand, e = .cast type operand) ∨
      ∃ base name, e = .member base type name ∧ d.identifiers.knowsType type.name = false := by
  cases e with
  | member base declaring name =>
    simp only [Located.typeUse?, Expr.member.injEq, reduceCtorEq, exists_false, false_or]
    cases hknown : d.identifiers.knowsType declaring.name with
    | true =>
      simp only [if_true, reduceCtorEq, false_iff]
      rintro ⟨_, _, ⟨-, rfl, -⟩, hfalse⟩
      rw [hknown] at hfalse
      cases hfalse
    | false =>
      simp only [Bool.false_eq_true, if_false, Option.some.injEq]
      constructor
      · rintro rfl
        exact ⟨base, name, ⟨rfl, rfl, rfl⟩, hknown⟩
      · rintro ⟨_, _, ⟨-, rfl, -⟩, -⟩
        rfl
  | _ => simp [Located.typeUse?]

/-- The types that resolution collects from a function are those that it names. -/
theorem Function.mem_typeUses {d : Dialect} {f : Function} {type : TypeRef} :
    type ∈ f.typeUses d ↔ f.Names d type := by
  simp only [Function.typeUses, List.cons_append, List.mem_cons, List.mem_append, List.mem_map,
    List.mem_filterMap]
  constructor
  · rintro (rfl | ⟨p, hp, rfl⟩ | ⟨⟨node | node, loc⟩, hnode, huse⟩)
    · exact .result
    · exact .parameter hp
    · obtain ⟨_, _, _, _, rfl⟩ := Located.typeUse?_stmt.1 huse
      exact .declared (Block.stmt_mem_nodes.1 hnode).1
    · obtain ⟨t, hin, -⟩ := Block.expr_mem_nodes.1 hnode
      rcases Located.typeUse?_expr.1 huse with ⟨_, rfl⟩ | ⟨_, rfl⟩ | ⟨_, _, rfl, hknown⟩
      · exact .construct hin
      · exact .cast hin
      · exact .member hin hknown
  · intro h
    cases h with
    | result => exact .inl rfl
    | parameter hp => exact .inr (.inl ⟨_, hp, rfl⟩)
    | declared hholds =>
      exact .inr (.inr ⟨_, Block.stmt_mem_nodes.2 ⟨hholds, rfl⟩,
        Located.typeUse?_stmt.2 ⟨_, _, _, _, rfl⟩⟩)
    | construct hin =>
      exact .inr (.inr ⟨_, Block.expr_mem_nodes.2 ⟨_, hin, rfl⟩,
        Located.typeUse?_expr.2 (.inl ⟨_, rfl⟩)⟩)
    | cast hin =>
      exact .inr (.inr ⟨_, Block.expr_mem_nodes.2 ⟨_, hin, rfl⟩,
        Located.typeUse?_expr.2 (.inr (.inl ⟨_, rfl⟩))⟩)
    | member hin hknown =>
      exact .inr (.inr ⟨_, Block.expr_mem_nodes.2 ⟨_, hin, rfl⟩,
        Located.typeUse?_expr.2 (.inr (.inr ⟨_, _, rfl, hknown⟩))⟩)

/-- The structures that an entry leads to: names that the dialect does not map, from the functions that
the entry reaches, from the resources, and from the fields of such structures. -/
inductive Needed (m : Meanings) (d : Dialect) (c : Code) (entry : Function) : String → Prop
  | named {f : Function} {type : TypeRef} : c.Reaches entry f → f.Names d type →
      d.mapType type.name = none → Needed m d c entry type.name
  | resource {r : Resource} {type : TypeRef} : r ∈ c.resources.items → r.valueType = some type →
      d.mapType type.name = none → Needed m d c entry type.name
  | field {name : String} {s : Structure} {field : Field} : Needed m d c entry name →
      m name = .ok s → field ∈ s.fields → d.mapType field.type.name = none →
      Needed m d c entry field.type.name

theorem Needed.mapType {m : Meanings} {d : Dialect} {c : Code} {entry : Function} {name : String}
    (h : Needed m d c entry name) : d.mapType name = none := by
  cases h with
  | named _ _ hmap => exact hmap
  | resource _ _ hmap => exact hmap
  | field _ _ _ hmap => exact hmap

theorem Needed.fieldClosed (m : Meanings) (d : Dialect) (c : Code) (entry : Function) :
    FieldClosed m d (Needed m d c entry) :=
  fun _ _ hname hm _ hfield hmap => .field hname hm hfield hmap

/-- A settled list with the named types and the types of resources has all needed structures. -/
theorem Settled.mem_of_needed {m : Meanings} {d : Dialect} {c : Code} {entry : Function}
    {structures : List (String × Structure)} (h : Settled m d structures)
    (hnamed : ∀ f type, c.Reaches entry f → f.Names d type → d.mapType type.name = none →
      type.name ∈ structures.map Prod.fst)
    (hresource : ∀ r ∈ c.resources.items, ∀ type, r.valueType = some type →
      d.mapType type.name = none → type.name ∈ structures.map Prod.fst)
    {name : String} (hname : Needed m d c entry name) : name ∈ structures.map Prod.fst := by
  induction hname with
  | named hreach hnames hmap => exact hnamed _ _ hreach hnames hmap
  | resource hr htype hmap => exact hresource _ hr _ htype hmap
  | field _ hm hfield hmap ih =>
    obtain ⟨⟨_, s⟩, hmem, rfl⟩ := List.mem_map.1 ih
    have hs := h.meaning _ hmem
    rw [hm] at hs
    cases hs
    exact h.fields_mem hmem hfield hmap

/-! ## The first phase -/

section Resolution

variable {m : Meanings} {d : Dialect} {c : Code} {entry : Function} {functions : List Function}

/-- The first phase adds only needed structures, and resolves all types that functions and resources
name. -/
theorem resolveRequest_settles (depth : Nat) (stage : Stage) (hentry : entry ∈ functions)
    (hreach : ∀ f ∈ functions, c.Reaches entry f) :
    (resolveRequest d c depth entry stage functions).Settles m d (Needed m d c entry) fun _ τ =>
      (∀ f ∈ functions, ∀ type, f.Names d type → type.Resolved d τ) ∧
      ∀ r ∈ c.resources.items, ∀ type, r.valueType = some type → type.Resolved d τ := by
  have hS := Needed.fieldClosed m d c entry
  have hplan := planEntry_settles hS depth entry stage
    (fun p hp hmap => .named (hreach entry hentry) (.parameter hp) hmap)
    (.named (hreach entry hentry) .result)
  have hfunctions : (functions.forM (resolveFunction d depth)).Settles m d (Needed m d c entry)
      fun _ τ => ∀ f ∈ functions, ∀ type ∈ f.typeUses d, type.Resolved d τ := by
    refine .forM (Q := fun f τ => ∀ type ∈ f.typeUses d, type.Resolved d τ)
      (fun _ _ _ hστ hq type htype => (hq type htype).keep hστ) functions ?_
    intro f hf
    exact resolveTypes_settles hS depth _ fun type htype hmap =>
      .named (hreach f hf) (Function.mem_typeUses.1 htype) hmap
  have hresources := resolveTypes_settles hS depth (c.resources.items.filterMap (·.valueType))
    fun type htype hmap => by
      obtain ⟨r, hr, hvalue⟩ := List.mem_filterMap.1 htype
      exact .resource hr hvalue hmap
  intro σ layout υ hσ h
  obtain ⟨layout', σ₁, h₁, h⟩ := Request.eval_bind_ok.1 h
  obtain ⟨u₂, σ₂, h₂, h⟩ := Request.eval_bind_ok.1 h
  obtain ⟨u₃, σ₃, h₃, h⟩ := Request.eval_bind_ok.1 h
  rw [Request.eval_pure] at h
  cases h
  -- what one step resolves stays resolved in those behind it
  obtain ⟨hstep₁, -⟩ := hplan _ _ _ hσ h₁
  obtain ⟨hstep₂, hall⟩ := hfunctions _ _ _ hstep₁.settled h₂
  obtain ⟨hstep₃, hvalues⟩ := hresources _ _ _ hstep₂.settled h₃
  refine ⟨(hstep₁.trans hstep₂).trans hstep₃, ?_, ?_⟩
  · intro f hf type hnames
    exact (hall f hf type (Function.mem_typeUses.2 hnames)).keep hstep₃
  · intro r hr type hvalue
    exact hvalues type (List.mem_filterMap.2 ⟨r, hr, hvalue⟩)

/-- **The first phase resolves exactly the needed structures.** -/
theorem resolveRequest_exact {depth : Nat} {stage : Stage} {layout : EntryLayout} {τ : Resolution}
    (hmem : ∀ f, f ∈ functions ↔ c.Reaches entry f)
    (h : (resolveRequest d c depth entry stage functions).eval m {} = (.ok layout, τ)) :
    Settled m d τ.structures ∧
      ∀ name, name ∈ τ.structures.map Prod.fst ↔ Needed m d c entry name := by
  have hentry : entry ∈ functions := (hmem entry).2 .refl
  obtain ⟨⟨hsettled, new, hnew, hneeded⟩, hnamed, hresources⟩ :=
    resolveRequest_settles depth stage hentry (fun f hf => (hmem f).1 hf) {} layout τ .nil h
  refine ⟨hsettled, fun name => ⟨fun hname => ?_, fun hname => ?_⟩⟩
  · rw [hnew, List.append_nil] at hname
    obtain ⟨entry, hin, rfl⟩ := List.mem_map.1 hname
    exact hneeded entry hin
  · exact hsettled.mem_of_needed (fun f type hf => hnamed f ((hmem f).2 hf) type) hresources hname

end Resolution

/-- Structures that are each resolved once, after those of their fields. -/
structure Context.Ordered (c : Context) : Prop where
  names_nodup : (c.structures.map Prod.fst).Nodup
  fields_behind : ∀ later name s earlier, c.structures = later ++ (name, s) :: earlier →
    ∀ field ∈ s.fields, c.dialect.mapType field.type.name = none →
      field.type.name ∈ earlier.map Prod.fst

theorem Settled.ordered {m : Meanings} {c : Context} (h : Settled m c.dialect c.structures) :
    c.Ordered :=
  ⟨h.names_nodup, h.fields_behind⟩

/-! ## The document -/

/-- A structure as it should be declared: its fields in order, with target types, target names and
element counts. -/
def Dialect.declarationOf (d : Dialect) (name : String) (s : Structure) : StructureDecl where
  name := d.structureTypeName name
  fields := s.fields.map fun field =>
    { type := (d.mapType field.type.name).getD (d.structureTypeName field.type.name)
      name := d.correct field.name
      count := field.count }

theorem Context.mappedType_ok {c : Context} {type : TypeRef} {target : String}
    (h : c.mappedType type = .ok target) :
    target = (c.dialect.mapType type.name).getD (c.dialect.structureTypeName type.name) := by
  unfold Context.mappedType at h
  split at h
  · rename_i mapped hmap
    cases h
    rw [hmap]
    rfl
  · rename_i hmap
    split at h
    · cases h
      rw [hmap]
      rfl
    · cases h

theorem Context.structureDecl_ok {c : Context} {name : String} {s : Structure}
    {decl : StructureDecl} (h : c.structureDecl name s = .ok decl) :
    decl = c.dialect.declarationOf name s := by
  obtain ⟨fields, hfields, hdecl⟩ := bind_ok.1 h
  cases hdecl
  have hmap := eq_map_of_mapM_ok (g := fun field : Field =>
      ({ type := (c.dialect.mapType field.type.name).getD (c.dialect.structureTypeName field.type.name)
         name := c.dialect.correct field.name
         count := field.count } : FieldDecl)) (fun field decl hfield => ?_) hfields
  · rw [hmap]
    rfl
  · obtain ⟨type, htype, hdecl⟩ := bind_ok.1 hfield
    cases hdecl
    rw [Context.mappedType_ok htype]

theorem Context.structureDecls_ok {c : Context} {decls : List StructureDecl}
    (h : c.structureDecls = .ok decls) :
    decls = c.structures.reverse.map fun entry => c.dialect.declarationOf entry.1 entry.2 :=
  eq_map_of_mapM_ok (fun _ _ hentry => Context.structureDecl_ok hentry) h

/-- Notes change nothing in a resolution. -/
theorem eval_forM_note (m : Meanings) (records : List LogRecord) (σ : Resolution) :
    (records.forM Request.note : Request PUnit).eval m σ = (.ok (), σ) := by
  induction records with
  | nil => rfl
  | cons record rest ih =>
    show (Request.note record >>= fun _ => rest.forM Request.note : Request PUnit).eval m σ = _
    rw [Request.eval_bind, Request.eval_note]
    exact ih

/-- The lines of resources are those of their declarations, in order. -/
theorem eval_resourceLines (m : Meanings) (c : Context) (resources : List Resource) (σ : Resolution) :
    (resourceLines c resources).eval m σ =
      ((resources.mapM c.declareResource).map fun declared => declared.flatMap Declared.lines, σ) := by
  induction resources with
  | nil => rfl
  | cons r rest ih =>
    rw [resourceLines, Request.eval_bind, Request.eval_ofExcept, List.mapM_cons]
    cases c.declareResource r with
    | error e => rfl
    | ok declared =>
      dsimp only
      rw [Request.eval_bind, eval_forM_note]
      dsimp only
      rw [Request.eval_bind, ih]
      cases rest.mapM c.declareResource with
      | error e => rfl
      | ok others => rfl

/-- The second phase: what a document consists of, and in which order its parts are written. -/
theorem eval_documentLines (m : Meanings) (c : Context) (stage : Stage) (precision : FloatPrecision)
    (functions : List Function) (layout : EntryLayout) (σ : Resolution) :
    (documentLines c stage precision functions layout).eval m σ = (do
      let decls ← c.structureDecls
      let declared ← c.code.resources.items.mapM c.declareResource
      let bodies ← functions.mapM (c.functionLines stage)
      return c.dialect.header stage precision ++ decls.flatMap c.dialect.structureLines ++
        declared.flatMap Declared.lines ++ bodies.flatten ++ mainLines c.dialect layout, σ) := by
  rw [documentLines, Request.eval_bind, Request.eval_ofExcept]
  cases c.structureDecls with
  | error e => rfl
  | ok decls =>
    dsimp only
    rw [Request.eval_bind, eval_resourceLines]
    cases c.code.resources.items.mapM c.declareResource with
    | error e => rfl
    | ok declared =>
      dsimp only [Except.map]
      rw [Request.eval_bind, Request.eval_ofExcept]
      cases functions.mapM (c.functionLines stage) with
      | error e => rfl
      | ok bodies => rfl

/-- The lines of a document, given the structures that the first phase resolved. -/
theorem documentLines_ok {m : Meanings} {c : Context} {stage : Stage} {precision : FloatPrecision}
    {functions : List Function} {layout : EntryLayout} {σ τ : Resolution} {lines : List Text.Line}
    (h : (documentLines c stage precision functions layout).eval m σ = (.ok lines, τ)) :
    ∃ declared bodies, c.code.resources.items.mapM c.declareResource = .ok declared ∧
      functions.mapM (c.functionLines stage) = .ok bodies ∧
      lines = c.dialect.header stage precision ++
        (c.structures.reverse.map fun entry => c.dialect.declarationOf entry.1 entry.2).flatMap
          c.dialect.structureLines ++
        declared.flatMap Declared.lines ++ bodies.flatten ++ mainLines c.dialect layout := by
  rw [eval_documentLines] at h
  obtain ⟨decls, hdecls, h⟩ := bind_ok.1 (congrArg Prod.fst h)
  obtain ⟨declared, hdeclared, h⟩ := bind_ok.1 h
  obtain ⟨bodies, hbodies, h⟩ := bind_ok.1 h
  cases h
  refine ⟨declared, bodies, hdeclared, hbodies, ?_⟩
  rw [Context.structureDecls_ok hdecls]

/-- The phases of a successful request. -/
theorem documentRequest_ok {m : Meanings} {d : Dialect} {c : Code} {depth : Nat} {entry : String}
    {options : Options} {σ : Resolution} {lines : List Text.Line}
    (h : (documentRequest d c depth entry options).eval m {} = (.ok lines, σ)) :
    ∃ f stage functions layout τ, findEntry d c entry = .ok (f, stage) ∧
      c.reachable f = .ok functions ∧
      (resolveRequest d c depth f stage functions).eval m {} = (.ok layout, τ) ∧
      (documentLines ⟨d, c, τ.structures⟩ stage options.floatPrecision functions layout).eval m τ =
        (.ok lines, σ) := by
  obtain ⟨⟨f, stage⟩, σ₁, h₁, h⟩ := Request.eval_bind_ok.1 h
  obtain ⟨_, σ₂, h₂, h⟩ := Request.eval_bind_ok.1 h
  obtain ⟨functions, σ₃, h₃, h⟩ := Request.eval_bind_ok.1 h
  obtain ⟨layout, τ, h₄, h⟩ := Request.eval_bind_ok.1 h
  obtain ⟨τ', σ₅, h₅, h⟩ := Request.eval_bind_ok.1 h
  obtain ⟨_, σ₆, h₆, hlines⟩ := Request.eval_bind_ok.1 h
  rw [Request.eval_ofExcept] at h₁ h₃
  rw [Request.eval_note] at h₂ h₆
  rw [Request.eval_get] at h₅
  cases h₂; cases h₅; cases h₆
  obtain ⟨hentry, rfl⟩ := Prod.mk.inj h₁
  obtain ⟨hfunctions, rfl⟩ := Prod.mk.inj h₃
  exact ⟨f, stage, functions, layout, τ, hentry, hfunctions, h₄, hlines⟩

theorem function?_of_findEntry {d : Dialect} {c : Code} {entry : String} {f : Function}
    {stage : Stage} (h : findEntry d c entry = .ok (f, stage)) : c.function? entry = some f := by
  unfold findEntry at h
  split at h
  · cases h
  rename_i g hg
  split at h
  · cases h
  split at h
  · cases h
    exact hg
  · cases h

/-- Structures by canonical name in the order of their declarations: each once, with a target name of its
own, after the structures of its fields; each as its name says; and exactly those that the entry
leads to. -/
structure DeclarationOrder (m : Meanings) (d : Dialect) (c : Code) (entry : Function)
    (structures : List (String × Structure)) : Prop where
  names_nodup : (structures.map Prod.fst).Nodup
  targets_nodup : (structures.map fun s => d.structureTypeName s.1).Nodup
  fields_before : ∀ before name s after, structures = before ++ (name, s) :: after →
    ∀ field ∈ s.fields, d.mapType field.type.name = none → field.type.name ∈ before.map Prod.fst
  meaning : ∀ s ∈ structures, m s.1 = .ok s.2
  mem_iff : ∀ name, name ∈ structures.map Prod.fst ↔ Needed m d c entry name

/-- A settled list, read from its end. -/
theorem Settled.declarationOrder {m : Meanings} {d : Dialect} {c : Code} {entry : Function}
    {structures : List (String × Structure)} (h : Settled m d structures)
    (hmem : ∀ name, name ∈ structures.map Prod.fst ↔ Needed m d c entry name) :
    DeclarationOrder m d c entry structures.reverse where
  names_nodup := by
    rw [List.map_reverse, List.nodup_reverse]
    exact h.names_nodup
  targets_nodup := by
    rw [List.map_reverse, List.nodup_reverse]
    exact h.targets_nodup
  fields_before := by
    intro before name s after heq field hfield hmap
    have hsplit : structures = after.reverse ++ (name, s) :: before.reverse := by
      rw [← List.reverse_reverse structures, heq]
      simp
    have hbehind := h.fields_behind after.reverse name s before.reverse hsplit field hfield hmap
    rwa [List.map_reverse, List.mem_reverse] at hbehind
  meaning := fun s hs => h.meaning s (List.mem_reverse.1 hs)
  mem_iff := by
    intro name
    rw [List.map_reverse, List.mem_reverse]
    exact hmem name

/-- The lines of a structure declaration: its name, a line for each field between braces, with an element
count only if there is one, and an empty line. -/
def StructureDecl.written (decl : StructureDecl) : List Text.Line :=
  [⟨0, "struct " ++ decl.name⟩, ⟨0, "\x7b"⟩] ++
    decl.fields.map (fun field => ⟨1, field.type ++ " " ++ field.name ++
      (if field.count = 0 then "" else "[" ++ toString field.count ++ "]") ++ ";"⟩) ++
    [⟨0, "\x7d;"⟩, ⟨0, ""⟩]

theorem FieldDecl.text_eq (field : FieldDecl) : field.text = field.type ++ " " ++ field.name ++
    (if field.count = 0 then "" else "[" ++ toString field.count ++ "]") ++ ";" := by
  show field.type ++ " " ++ field.name ++ Text.countSuffix field.count ++ ";" = _
  unfold Text.countSuffix
  by_cases hcount : field.count = 0
  · rw [if_neg (by omega), if_pos hcount]
  · rw [if_pos (by omega), if_neg hcount]
    rfl

/-- The built-in targets all write structures in this way. -/
theorem Target.structureLines_eq_written (target : Target) :
    target.dialect.structureLines = StructureDecl.written := by
  have hlines : target.dialect.structureLines = StructureDecl.lines := by cases target <;> rfl
  rw [hlines]
  funext decl
  simp only [StructureDecl.lines, StructureDecl.written, FieldDecl.text_eq]
  rfl

/-- **The structure declarations of a shader.**  Whatever a program has registered before, and however
declarations are found, a generated document consists of the header, one declaration for each structure
that the entry leads to, in dependency order, and then resources, functions and `main`.  On the built-in
targets each declaration has its name and its fields, line by line. -/
theorem emitted_structures_exact (p : Program) (symbols : SymbolSource) (depth : Nat) (d : Dialect)
    (entry : String) (options : Options) (shader : Shader)
    (h : (p.generateFrom symbols depth d entry options).result = .ok shader) :
    ∃ f stage functions layout structures resources bodies,
      findEntry d p.toCode entry = .ok (f, stage) ∧ p.toCode.reachable f = .ok functions ∧
      DeclarationOrder (p.structures.meaning symbols) d p.toCode f structures ∧
      p.resources.items.mapM (Context.declareResource ⟨d, p.toCode, structures.reverse⟩) =
        .ok resources ∧
      functions.mapM (Context.functionLines ⟨d, p.toCode, structures.reverse⟩ stage) = .ok bodies ∧
      shader.text = Text.renderLines options.indent
        (d.header stage options.floatPrecision ++
          (structures.map fun s => d.declarationOf s.1 s.2).flatMap d.structureLines ++
          resources.flatMap Declared.lines ++ bodies.flatten ++ mainLines d layout) ∧
      ∀ target : Target, d = target.dialect → d.structureLines = StructureDecl.written := by
  rw [Program.generateFrom_result_eq_eval, eval_shaderQuery] at h
  generalize hdoc : (documentRequest d p.toCode depth entry options).eval
    (p.structures.meaning symbols) {} = outcome at h
  obtain ⟨_ | lines, σ⟩ := outcome
  · cases h
  cases h
  obtain ⟨f, stage, functions, layout, τ, hentry, hfunctions, hresolve, hlines⟩ :=
    documentRequest_ok hdoc
  have hknown := function?_of_findEntry hentry
  obtain ⟨hsettled, hmem⟩ :=
    resolveRequest_exact (fun _ => Code.mem_reachable_iff hknown hfunctions) hresolve
  obtain ⟨resources, bodies, hresources, hbodies, hdocument⟩ := documentLines_ok hlines
  refine ⟨f, stage, functions, layout, τ.structures.reverse, resources, bodies, hentry, hfunctions,
    hsettled.declarationOrder hmem, ?_, ?_, congrArg (Text.renderLines options.indent) hdocument, ?_⟩
  · rw [List.reverse_reverse]
    exact hresources
  · rw [List.reverse_reverse]
    exact hbodies
  · rintro target rfl
    exact target.structureLines_eq_written

/-- A fragment shader with a local of a structure that has to be discovered, one of whose fields is
registered; the program has a structure that the entry does not need. -/
def Program.nested : Program where
  resources := .empty
  functions := ⟨[
    { name := "shade"
      returnType := ⟨Host.vector4, false⟩
      role := .entry .fragment
      parameters := [⟨"pixel", ⟨"Scene.Pixel", false⟩⟩]
      workgroup := {}
      body := [
        .declare .unknown "ray" ⟨"Scene.Ray", false⟩ 0 none,
        .ret .unknown (some (.staticMember ⟨Host.vector4, false⟩ "One"))] }]⟩
  structures := ⟨[
    ("Scene.Light", ⟨"Scene.Light", [{ name := "power", type := ⟨Host.float, false⟩, count := 4 }]⟩),
    ("Scene.Other", ⟨"Scene.Other", []⟩)]⟩

/-- Declarations of the structures that the program lacks. -/
def Symbols.nested : Symbols :=
  ⟨[("Scene.Pixel", .struct ⟨"Scene.Pixel", [{ name := "uv", type := ⟨Host.vector2, false⟩ }]⟩),
    ("Scene.Ray", .struct ⟨"Scene.Ray", [
      { name := "light", type := ⟨"Scene.Light", false⟩ },
      { name := "origin", type := ⟨Host.vector3, false⟩ }]⟩)]⟩

theorem emitted_structures_exact_nested :
    ∃ shader f stage layout structures resources bodies,
      (Program.nested.generateFrom Symbols.nested 5 (Glsl.dialect .es300) "shade" {}).result =
        .ok shader ∧
      findEntry (Glsl.dialect .es300) Program.nested.toCode "shade" = .ok (f, stage) ∧
      DeclarationOrder (Program.nested.structures.meaning Symbols.nested) (Glsl.dialect .es300)
        Program.nested.toCode f structures ∧
      shader.text = Text.renderLines 4 (Glsl.header .es300 .high ++
        structures.flatMap (fun s => ((Glsl.dialect .es300).declarationOf s.1 s.2).written) ++
        resources ++ bodies ++ mainLines (Glsl.dialect .es300) layout) := by
  have hok : (Program.nested.generateFrom Symbols.nested 5 (Glsl.dialect .es300) "shade"
      {}).result.toBool = true := by
    decide +kernel
  cases hresult : (Program.nested.generateFrom Symbols.nested 5 (Glsl.dialect .es300) "shade"
      {}).result with
  | error e => rw [hresult] at hok; cases hok
  | ok shader =>
    obtain ⟨f, stage, _, layout, structures, resources, bodies, hentry, -, horder, -, -, htext, hlines⟩ :=
      emitted_structures_exact _ _ _ _ _ _ shader hresult
    refine ⟨shader, f, stage, layout, structures, resources.flatMap Declared.lines, bodies.flatten, rfl,
      hentry, horder, ?_⟩
    rw [htext, hlines .glslEs300 rfl, List.flatMap_map]
    rfl

end CrossShader

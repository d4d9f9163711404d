import CrossShader.Proofs.EmittedStructures
import CrossShader.Proofs.Reader.Expression

/-!
# Default values of structures

On GLSL a structure has no zero of its own: its default value is built field by field, from structures
that were resolved before it.

* `Context.HasField` — the fields of a structure, and of the structures that its fields lead to.
* `Glsl.Default`, `Glsl.FieldDefaults` — the default value of a type as a text and as a tree of
  constructors, by rules that look up structures by name.
* `Glsl.exists_default` — a type that leads to no array has a default value.
* `Glsl.isArray_of_hasField` — a type with a default value leads to no array.
* `Glsl.default_value_exact` — the default values of structures after every successful resolution.
-/

set_option autoImplicit false

namespace CrossShader

open Text Reader

/-- The fields of a structure, and of the structures that its fields lead to. -/
inductive Context.HasField (c : Context) : String → Field → Prop
  | own {name : String} {s : Structure} {field : Field} :
      c.structure? name = some s → field ∈ s.fields → HasField c name field
  | nested {name : String} {s : Structure} {outer field : Field} :
      c.structure? name = some s → outer ∈ s.fields → HasField c outer.type.name field →
      HasField c name field

theorem Context.HasField.mem_names {c : Context} {name : String} {field : Field}
    (h : c.HasField name field) : name ∈ c.structures.map Prod.fst := by
  cases h with
  | own hname => exact mem_names_of_lookup hname
  | nested hname => exact mem_names_of_lookup hname

/-- Names stand for one structure, so the one in the list is found. -/
theorem Context.Ordered.structure? {c : Context} (h : c.Ordered)
    {later earlier : List (String × Structure)} {name : String} {s : Structure}
    (hall : c.structures = later ++ (name, s) :: earlier) : c.structure? name = some s := by
  have hmem : (name, s) ∈ c.structures := hall ▸ List.mem_append_right _ List.mem_cons_self
  cases hfound : c.structure? name with
  | none => exact absurd (List.mem_map_of_mem hmem) (notMem_names_of_lookup hfound)
  | some found =>
    cases List.inj_on_of_nodup_map h.names_nodup (mem_of_lookup hfound) hmem rfl
    rfl

namespace Glsl

mutual
/-- The default value of a type, as a text and as a tree of constructors: a primitive type is applied to
zero, and a structure to the default values of its fields. -/
inductive Default (version : Version) (c : Context) : TypeRef → String → Tree → Prop
  | primitive {type : TypeRef} {target : String} :
      type.isArray = false → (types version).get? type.name = some target →
      Default version c type (target ++ "(0)") (callNamed target [.number "0"])
  | composite {type : TypeRef} {s : Structure} {texts : List String} {trees : List Tree} :
      type.isArray = false → (types version).get? type.name = none → c.structure? type.name = some s →
      FieldDefaults version c s.fields texts trees →
      Default version c type (callText (typeName version type) texts)
        (callNamed (typeName version type) trees)

/-- The default values of fields, in order.  A field with an element count has that many copies of one
value, under a constructor of an array of as many elements. -/
inductive FieldDefaults (version : Version) (c : Context) :
    List Field → List String → List Tree → Prop
  | nil : FieldDefaults version c [] [] []
  | single {field : Field} {rest : List Field} {text : String} {tree : Tree} {texts : List String}
      {trees : List Tree} : field.count = 0 → Default version c field.type text tree →
      FieldDefaults version c rest texts trees →
      FieldDefaults version c (field :: rest) (text :: texts) (tree :: trees)
  | array {field : Field} {rest : List Field} {text : String} {tree : Tree} {texts : List String}
      {trees : List Tree} : 0 < field.count → Default version c field.type text tree →
      FieldDefaults version c rest texts trees →
      FieldDefaults version c (field :: rest)
        (callText s!"{typeName version field.type}[{field.count}]" (List.replicate field.count text) ::
          texts)
        (.call (.index (.name (typeName version field.type)) (.number (toString field.count)))
          (List.replicate field.count tree) :: trees)
end

section Contexts

-- what resolution leaves behind: structures in order, under names that the language does not map
variable {version : Version} {c : Context} (hdialect : c.dialect = dialect version)
  (hordered : c.Ordered)
  (hunmapped : ∀ name ∈ c.structures.map Prod.fst, c.dialect.mapType name = none)

include hdialect in
theorem scalarType_primitive {type : TypeRef} {target : String} (htype : type.isArray = false)
    (hmap : (types version).get? type.name = some target) (loc : Location) :
    c.scalarType loc type = .ok target := by
  rw [Context.scalarType, htype, Context.mappedType, hdialect, dialect_mapType, hmap]
  rfl

include hdialect in
theorem scalarType_structure {type : TypeRef} {s : Structure} (htype : type.isArray = false)
    (hmap : (types version).get? type.name = none) (hs : c.structure? type.name = some s)
    (loc : Location) : c.scalarType loc type = .ok (typeName version type) := by
  rw [Context.scalarType, htype, Context.mappedType, hdialect, dialect_mapType, hmap, hs, typeName, hmap,
    dialect_structureTypeName]
  simp

include hdialect in
/-- A structure has no zero of its own. -/
theorem zeroValue_structure (target : String) : c.dialect.zeroValue target true = none := by
  rw [hdialect, dialect_zeroValue_structure]

theorem Default.scalarType {type : TypeRef} {text : String} {tree : Tree}
    (hdialect : c.dialect = dialect version) (h : Default version c type text tree) (loc : Location) :
    c.scalarType loc type = .ok (typeName version type) := by
  cases h with
  | primitive htype hmap =>
    rw [scalarType_primitive hdialect htype hmap, typeName, hmap]
    rfl
  | composite htype hmap hs => exact scalarType_structure hdialect htype hmap hs loc

include hdialect in
/-- The fields of a structure, each by its own default value. -/
theorem exists_fieldDefaults (loc : Location) (earlier : List (String × Structure))
    {fields : List Field}
    (h : ∀ field ∈ fields, ∃ text, c.zeroValueFrom loc earlier field.type = .ok text ∧
      Default version c field.type text (zeroImage version earlier field.type)) :
    ∃ texts, List.Forall₂ (c.FieldZero loc earlier) fields texts ∧
      FieldDefaults version c fields texts (fields.map fun field =>
        if field.isFixedArray then
          .call (.index (.name (typeName version field.type)) (.number (toString field.count)))
            (List.replicate field.count (zeroImage version earlier field.type))
        else zeroImage version earlier field.type) := by
  induction fields with
  | nil => exact ⟨[], .nil, .nil⟩
  | cons field rest ih =>
    obtain ⟨⟨zero, hzero, hdefault⟩, hrest⟩ := List.forall_mem_cons.1 h
    obtain ⟨texts, htexts, hdefaults⟩ := ih hrest
    rw [List.map_cons]
    cases harray : field.isFixedArray with
    | true =>
      have hcount : 0 < field.count := of_decide_eq_true harray
      have helement := hdefault.scalarType hdialect loc
      refine ⟨_, .cons ⟨zero, hzero, .inr ⟨harray, _, helement, ?_⟩⟩ htexts,
        .array hcount hdefault hdefaults⟩
      rw [hdialect, dialect_construct]
    | false =>
      have hcount : field.count = 0 := Nat.eq_zero_of_not_pos (of_decide_eq_false harray)
      exact ⟨_, .cons ⟨zero, hzero, .inl ⟨harray, rfl⟩⟩ htexts, .single hcount hdefault hdefaults⟩

include hdialect hordered hunmapped in
/-- **A type that leads to no array has a default value**, which the rules give.  The induction is on the
structures that the type may consist of: the fields of each name structures behind it. -/
theorem exists_default (loc : Location) {later structures : List (String × Structure)}
    (hall : c.structures = later ++ structures) {type : TypeRef} (htype : type.isArray = false)
    (hresolved : c.dialect.mapType type.name = none → type.name ∈ structures.map Prod.fst)
    (hfields : ∀ field, c.HasField type.name field → field.type.isArray = false) :
    ∃ text, c.zeroValueFrom loc structures type = .ok text ∧
      Default version c type text (zeroImage version structures type) := by
  induction structures generalizing later type with
  | nil =>
    -- no structure is left, so the type is one of the language
    obtain ⟨target, hmap⟩ : ∃ target, (types version).get? type.name = some target := by
      rw [← Option.ne_none_iff_exists', ← dialect_mapType, ← hdialect]
      exact fun hnone => List.not_mem_nil (hresolved hnone)
    refine ⟨target ++ "(0)", zeroValueFrom_ok.2
      ⟨target, scalarType_primitive hdialect htype hmap loc, ?_⟩, ?_⟩
    · rw [hdialect]
      rfl
    · rw [zeroImage, typeName, hmap]
      exact .primitive htype hmap
  | cons entry earlier ih =>
    obtain ⟨name, s⟩ := entry
    have hearlier : c.structures = (later ++ [(name, s)]) ++ earlier := by
      rw [hall, List.append_assoc]
      rfl
    rw [zeroImage]
    by_cases hname : type.name = name
    · rw [if_pos hname]
      have hfound : c.structure? type.name = some s := hname ▸ hordered.structure? hall
      have hmap : (types version).get? type.name = none := by
        rw [← dialect_mapType, ← hdialect]
        exact hunmapped _ (mem_names_of_lookup hfound)
      -- the fields name only structures behind this one
      obtain ⟨texts, htexts, hdefaults⟩ := exists_fieldDefaults hdialect loc earlier
        fun field hfield => ih hearlier (hfields field (.own hfound hfield))
          (hordered.fields_behind later name s earlier hall field hfield)
          fun inner hinner => hfields inner (.nested hfound hfield hinner)
      have hscalar := scalarType_structure hdialect htype hmap hfound loc
      have hform : c.dialect.construct (typeName version type) true texts =
          some (callText (typeName version type) texts) := by
        rw [hdialect, dialect_construct]
      refine ⟨_, zeroValueFrom_ok.2 (.inr ⟨hname, _, hscalar, .inr ⟨?_, texts, htexts, hform⟩⟩),
        .composite htype hmap hfound hdefaults⟩
      exact zeroValue_structure hdialect _
    · rw [if_neg hname]
      have hbehind : c.dialect.mapType type.name = none → type.name ∈ earlier.map Prod.fst :=
        fun hnone => (List.mem_cons.1 (hresolved hnone)).resolve_left hname
      obtain ⟨text, htext, hdefault⟩ := ih hearlier htype hbehind hfields
      exact ⟨text, zeroValueFrom_ok.2 (.inl ⟨hname, htext⟩), hdefault⟩

include hdialect hordered hunmapped in
/-- **A structure with a default value leads to no array.** -/
theorem isArray_of_hasField {loc : Location} {later structures : List (String × Structure)}
    (hall : c.structures = later ++ structures) {type : TypeRef}
    (hmem : type.name ∈ structures.map Prod.fst) {text : String}
    (h : c.zeroValueFrom loc structures type = .ok text) {field : Field}
    (hfield : c.HasField type.name field) : field.type.isArray = false := by
  induction structures generalizing later type text field with
  | nil => cases hmem
  | cons entry earlier ih =>
    obtain ⟨name, s⟩ := entry
    have hearlier : c.structures = (later ++ [(name, s)]) ++ earlier := by
      rw [hall, List.append_assoc]
      rfl
    obtain ⟨hname, h⟩ | ⟨hname, mapped, -, hform⟩ := zeroValueFrom_ok.1 h
    · exact ih hearlier ((List.mem_cons.1 hmem).resolve_left hname) h hfield
    rw [zeroValue_structure hdialect] at hform
    obtain hzero | ⟨-, texts, hfields, -⟩ := hform
    · cases hzero
    have hvalues : ∀ inner ∈ s.fields, ∃ zero, c.zeroValueFrom loc earlier inner.type = .ok zero := by
      intro inner hinner
      obtain ⟨_, -, zero, hzero, -⟩ := exists_right_of_forall₂ hfields inner hinner
      exact ⟨zero, hzero⟩
    have hfound : c.structure? type.name = some s := hname ▸ hordered.structure? hall
    cases hfield with
    | own hfound' hown =>
      cases hfound'.symm.trans hfound
      obtain ⟨zero, hzero⟩ := hvalues field hown
      obtain ⟨element, helement⟩ := scalarType_of_zeroValueFrom hzero
      exact isArray_of_scalarType helement
    | @nested _ _ outer _ hfound' houter hinner =>
      cases hfound'.symm.trans hfound
      obtain ⟨zero, hzero⟩ := hvalues outer houter
      have hbehind := hordered.fields_behind later name s earlier hall outer houter
        (hunmapped _ hinner.mem_names)
      exact ih hearlier hbehind hzero hinner

end Contexts

/-- **Default values match the declared structures.**  On every version of GLSL, after every successful
resolution: a resolved structure has a default value exactly if its type is no array and no field that it
leads to has an array type.  The value is then the one that the rules give: the declared fields in order,
at every level, with as many copies as a field has elements, and primitive types applied to zero; and its
text is read as that tree of constructors, if the names of structures are words. -/
theorem default_value_exact (version : Version) (p : Program) (symbols : SymbolSource) (depth : Nat)
    (entry : String) {f : Function} {stage : Stage} {functions : List Function} {layout : EntryLayout}
    {τ : Resolution} (hentry : findEntry (dialect version) p.toCode entry = .ok (f, stage))
    (hfunctions : p.toCode.reachable f = .ok functions)
    (hresolve : (resolveRequest (dialect version) p.toCode depth f stage functions).eval
      (p.structures.meaning symbols) {} = (.ok layout, τ))
    (s : Scope) (hcontext : s.context = ⟨dialect version, p.toCode, τ.structures⟩) (loc : Location)
    (type : TypeRef) (htype : type.name ∈ τ.structures.map Prod.fst) :
    ((∃ text, s.lower loc (.construct type []) = .ok text) ↔
      type.isArray = false ∧ ∀ field, s.context.HasField type.name field → field.type.isArray = false) ∧
    ∀ text, s.lower loc (.construct type []) = .ok text →
      ∃ tree, Default version s.context type text tree ∧
        ((∀ entry ∈ τ.structures, IsIdentifier (flattenDots entry.1)) → read text = some tree) := by
  have hdialect : s.context.dialect = dialect version := by rw [hcontext]
  have hstructures : s.context.structures = τ.structures := by rw [hcontext]
  obtain ⟨hsettled, hneeded⟩ := resolveRequest_exact
    (fun _ => Code.mem_reachable_iff (function?_of_findEntry hentry) hfunctions) hresolve
  rw [← hdialect, ← hstructures] at hsettled
  have hordered := hsettled.ordered
  have hunmapped : ∀ name ∈ s.context.structures.map Prod.fst, s.context.dialect.mapType name = none := by
    intro name hname
    rw [hdialect]
    exact ((hneeded name).1 (hstructures ▸ hname)).mapType
  rw [← hstructures] at htype
  have hlower : s.lower loc (.construct type []) =
      s.context.zeroValueFrom loc s.context.structures type := by
    rw [Scope.lower, Context.zeroValue]
  have hnone : ∀ text, s.lower loc (.construct type []) = .ok text → type.isArray = false ∧
      ∀ field, s.context.HasField type.name field → field.type.isArray = false := by
    intro text htext
    rw [hlower] at htext
    obtain ⟨mapped, hmapped⟩ := scalarType_of_zeroValueFrom htext
    exact ⟨isArray_of_scalarType hmapped, fun field hfield =>
      isArray_of_hasField hdialect hordered hunmapped (List.nil_append _).symm htype htext hfield⟩
  have hvalue : ∀ (_ : type.isArray = false)
      (_ : ∀ field, s.context.HasField type.name field → field.type.isArray = false),
      ∃ text, s.lower loc (.construct type []) = .ok text ∧
        Default version s.context type text (zeroImage version s.context.structures type) := by
    intro harray hfields
    rw [hlower]
    exact exists_default hdialect hordered hunmapped loc (List.nil_append _).symm harray
      (fun _ => htype) hfields
  refine ⟨⟨?_, ?_⟩, fun text htext => ?_⟩
  · rintro ⟨text, htext⟩
    exact hnone text htext
  · rintro ⟨harray, hfields⟩
    obtain ⟨text, htext, -⟩ := hvalue harray hfields
    exact ⟨text, htext⟩
  · obtain ⟨harray, hfields⟩ := hnone text htext
    obtain ⟨text', htext', hdefault⟩ := hvalue harray hfields
    cases htext.symm.trans htext'
    refine ⟨_, hdefault, fun hnames => ?_⟩
    rw [hlower] at htext
    exact (phrase_zero hdialect (hstructures ▸ hnames) htext).expression.read

/-- The entry of a fragment shader with a local that has its default value. -/
def shadeWorld : Function where
  name := "shade"
  returnType := ⟨Host.vector4, false⟩
  role := .entry .fragment
  parameters := [⟨"pixel", ⟨"Scene.Pixel", false⟩⟩]
  workgroup := {}
  body := [
    .declare .unknown "world" ⟨"Scene.World", false⟩ 0 (some (.construct ⟨"Scene.World", false⟩ [])),
    .ret .unknown (some (.staticMember ⟨Host.vector4, false⟩ "One"))]

/-- Structures in three layers: one is a field of two others, one of which is an array. -/
def layered : List (String × Structure) :=
  [("Scene.World", ⟨"Scene.World", [
      { name := "lights", type := ⟨"Scene.Light", false⟩, count := 2 },
      { name := "home", type := ⟨"Scene.Cell", false⟩ }]⟩),
    ("Scene.Light", ⟨"Scene.Light", [
      { name := "cell", type := ⟨"Scene.Cell", false⟩ },
      { name := "color", type := ⟨Host.vector3, false⟩ }]⟩),
    ("Scene.Cell", ⟨"Scene.Cell", [{ name := "at", type := ⟨Host.int, false⟩, count := 2 }]⟩),
    ("Scene.Pixel", ⟨"Scene.Pixel", [{ name := "uv", type := ⟨Host.vector2, false⟩ }]⟩)]

/-- The program with this entry and these structures. -/
def layeredProgram : Program where
  resources := .empty
  functions := ⟨[shadeWorld]⟩
  structures := ⟨layered⟩

/-- The default value of the uppermost layer. -/
def layeredText : String :=
  "Scene_World(Scene_Light[2](" ++
    "Scene_Light(Scene_Cell(int[2](int(0), int(0))), vec3(0)), " ++
    "Scene_Light(Scene_Cell(int[2](int(0), int(0))), vec3(0))), " ++
    "Scene_Cell(int[2](int(0), int(0))))"

theorem default_value_exact_layered :
    ∃ (s : Scope) (tree : Tree), s.context.structures = layered ∧
      s.lower .unknown (.construct ⟨"Scene.World", false⟩ []) = .ok layeredText ∧
      Default .es300 s.context ⟨"Scene.World", false⟩ layeredText tree ∧
      read layeredText = some tree := by
  have hcalls : Block.calls shadeWorld.body = [] := by decide +kernel
  have hfunctions : layeredProgram.toCode.reachable shadeWorld = .ok [shadeWorld] := by
    rw [Code.reachable, Code.visit_eq, hcalls]
    rfl
  cases hresolve : (resolveRequest (dialect .es300) layeredProgram.toCode 5 shadeWorld .fragment
      [shadeWorld]).eval (layeredProgram.structures.meaning (Symbols.mk [])) {} with
  | mk result τ =>
    have hok : result.toBool = true := by
      rw [show result = _ from (congrArg Prod.fst hresolve).symm]
      decide +kernel
    have hstructures : τ.structures = layered := by
      rw [show τ = _ from (congrArg Prod.snd hresolve).symm]
      decide +kernel
    cases result with
    | error e => cases hok
    | ok layout =>
      have hworld := default_value_exact .es300 layeredProgram (Symbols.mk []).source 5 "shade" rfl
        hfunctions hresolve ⟨⟨dialect .es300, layeredProgram.toCode, τ.structures⟩, .fragment, []⟩ rfl
        .unknown ⟨"Scene.World", false⟩ (by rw [hstructures]; decide)
      have hlowered : Scope.lower ⟨⟨dialect .es300, layeredProgram.toCode, τ.structures⟩,
          .fragment, []⟩ .unknown (.construct ⟨"Scene.World", false⟩ []) = .ok layeredText := by
        rw [hstructures]
        decide +kernel
      obtain ⟨tree, hdefault, hread⟩ := hworld.2 layeredText hlowered
      refine ⟨_, tree, hstructures, hlowered, hdefault, hread ?_⟩
      rw [hstructures]
      decide

end Glsl

end CrossShader

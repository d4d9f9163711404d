import CrossShader.Proofs.Effects.Spelling
import CrossShader.Proofs.Mention
import CrossShader.Proofs.Remainder

/-!
# Names that locals capture

The bodies of a document refer to resources, functions, structures and library functions by identifiers
that a local may have as well.

* `Reference`, `Reference.identifier` — what a node refers to, and under which identifier.
* `Reference.rival` — the one local name that is emitted under that identifier.
* `Expr.Names`, `Stmt.Refers` — the references of a node, and of a statement.
* `mentions_signature`, `mentions_of_declared` — functions and locals are declared under their target
  names.
* `mentions_of_names` — every reference is written under its identifier.
* `Target.lookup_emitted` — what an identifier denotes among the emitted locals.
* `uncaptured_iff_no_rival` — a reference denotes what it names exactly if no rival is visible.
-/

set_option autoImplicit false

namespace CrossShader

open Text

/-! ## References -/

/-- What a node of a body refers to. -/
inductive Reference where
  | resource (r : Resource)
  /-- A function of the program. -/
  | callee (name : String)
  /-- A structure, by its canonical name. -/
  | record (name : String)
  /-- A library function of the target. -/
  | library (word : String)
  deriving DecidableEq

namespace Reference

variable (target : Target)

/-- The identifier of a reference. -/
def identifier : Reference → String
  | resource r => target.dialect.resourceReference r
  | callee name => target.dialect.correct name
  | record name => target.dialect.structureTypeName name
  | library word => word

/-- The name that a local has to have to be emitted under the identifier of a reference. -/
def rival : Reference → String
  | resource r =>
    if target.version?.isSome ∧ r.kind.needsValueType then Glsl.blockMember r else r.name
  | callee name => name
  | record name => flattenDots name
  | library word => word

/-- Whether a library function is referred to. -/
def isLibrary : Reference → Bool
  | library _ => true
  | resource _ | callee _ | record _ => false

/-- References that are possible on a target: its library has no reserved words. -/
def Possible (ref : Reference) : Prop :=
  ∀ word, ref = library word → target.dialect.identifiers.isReserved (stem word) = false

end Reference

/-! ## Rivals -/

/-- Names whose stem is no reserved word are corrected names of themselves only. -/
theorem Identifiers.correct_eq_iff {ids : Identifiers} {word : String}
    (hword : ids.isReserved (stem word) = false) {name : String} :
    ids.correct name = word ↔ name = word := by
  unfold Identifiers.correct
  split
  · rename_i hname
    refine ⟨fun heq => ?_, fun heq => ?_⟩
    · rw [← heq, stem_append_underscore, hname] at hword
      cases hword
    · rw [heq, hword] at hname
      cases hname
  · exact Iff.rfl

/-- A lead that does not end in an underscore stays before the stem. -/
theorem stem_append {lead : String} {letter : Char} (h : ending lead = some letter)
    (hletter : letter ≠ '_') (rest : String) : ∃ tail, stem (lead ++ rest) = lead ++ tail := by
  obtain ⟨front, hlead⟩ := List.getLast?_eq_some_iff.1 h
  have hkept : ∃ back, (lead ++ rest).toList.reverse.dropWhile (· == '_') =
      back ++ lead.toList.reverse := by
    rw [String.toList_append, List.reverse_append, List.dropWhile_append]
    split
    · refine ⟨[], ?_⟩
      rw [hlead, List.reverse_append, List.nil_append]
      exact List.dropWhile_cons_of_neg fun heq => hletter (beq_iff_eq.1 heq)
    · exact ⟨_, rfl⟩
  obtain ⟨back, hback⟩ := hkept
  refine ⟨String.ofList back.reverse, ?_⟩
  rw [stem, stemChars, hback, List.reverse_append, List.reverse_reverse, String.ofList_append,
    String.ofList_toList]

theorem Glsl.isReserved_stem_blockMember (r : Resource) :
    identifiers.isReserved (stem (blockMember r)) = false := by
  have hnone : reserved.all (fun word => !"field".toList.isPrefixOf word.toList) = true := by
    decide +kernel
  have hending : ending "field" = some 'd' := by decide
  obtain ⟨tail, hstem⟩ := stem_append hending (by decide) ("_" ++ r.name)
  have hmember : blockMember r = "field" ++ ("_" ++ r.name) := by
    rw [← String.append_assoc]
    rfl
  rw [hmember, hstem, Identifiers.isReserved]
  refine Bool.eq_false_iff.2 fun hmem => ?_
  have hword := List.all_eq_true.1 hnone _ (List.contains_iff_mem.1 hmem)
  rw [String.toList_append, List.isPrefixOf_iff_prefix.2 (List.prefix_append _ _)] at hword
  cases hword

namespace Target

variable (target : Target)

theorem resourceReference_eq (r : Resource) : target.dialect.resourceReference r =
    if target.version?.isSome ∧ r.kind.needsValueType then Glsl.blockMember r
    else target.dialect.correct r.name := by
  cases hversion : target.version? with
  | some version =>
    rw [dialect_of_version? hversion, Glsl.dialect_resourceReference, Glsl.dialect_correct]
    simp only [Option.isSome_some, true_and]
  | none =>
    cases eq_hlsl_of_version? hversion
    simp only [Option.isSome_none, Bool.false_eq_true, false_and, if_false]
    rfl

end Target

/-- **A local is emitted under the identifier of a reference exactly if it has the rival's name.** -/
theorem Reference.correct_eq_identifier_iff {target : Target} {ref : Reference}
    (h : ref.Possible target) {name : String} :
    target.dialect.correct name = ref.identifier target ↔ name = ref.rival target := by
  cases ref with
  | resource r =>
    rw [identifier, rival, Target.resourceReference_eq]
    split
    · rename_i hmember
      rw [Target.dialect_correct]
      refine Identifiers.correct_eq_iff ?_
      obtain ⟨version, hversion⟩ := Option.isSome_iff_exists.1 hmember.1
      rw [Target.dialect_of_version? hversion]
      exact Glsl.isReserved_stem_blockMember r
    · exact target.correct_inj
  | callee callee => exact target.correct_inj
  | record canonical =>
    rw [identifier, rival, Target.structureTypeName_eq]
    exact target.correct_inj
  | library word =>
    rw [Target.dialect_correct]
    exact Identifiers.correct_eq_iff (h word rfl)

/-- Locals as they are emitted. -/
def Target.emitted (target : Target) (visible : Declarations) : Declarations :=
  visible.map fun declared => (target.dialect.correct declared.1, declared.2)

/-- **What an identifier denotes among the emitted locals** is the visible local with the rival's name, if
there is one. -/
theorem Target.lookup_emitted {target : Target} {identifier rival : String}
    (h : ∀ name, target.dialect.correct name = identifier ↔ name = rival) (visible : Declarations) :
    (target.emitted visible).lookup identifier = visible.lookup rival := by
  induction visible with
  | nil => rfl
  | cons declared rest ih =>
    have hsame : (identifier == target.dialect.correct declared.1) = (rival == declared.1) := by
      rw [Bool.eq_iff_iff, beq_iff_eq, beq_iff_eq, eq_comm, h, eq_comm]
    obtain ⟨name, type⟩ := declared
    show List.lookup identifier ((target.dialect.correct name, type) :: target.emitted rest) = _
    rw [List.lookup_cons, List.lookup_cons, ih, hsame]

/-! ## Library words -/

/-- The words of the target's library that a call of a host library function is written with.  A product
has none, and on HLSL a sample is a method of its texture. -/
def Target.words (target : Target) (function : String) : List String :=
  match target.dialect.intrinsics.get? function with
  | none => []
  | some (.rename word) => [word]
  | some (.custom _) =>
    if target.version?.isSome then
      if function = Glsl.builtin "Saturate" then ["clamp"]
      else if function = Glsl.builtin "Sample" then ["texture"]
      else []
    else if function = Glsl.builtin "Mod" then ["floor"]
    else []

theorem Target.words_cases {target : Target} {function word : String}
    (h : word ∈ target.words function) : ∃ form, target.dialect.intrinsics.get? function = some form ∧
      (form = .rename word ∨
        (∃ version, target.version? = some version) ∧
          (function = Glsl.builtin "Saturate" ∧ word = "clamp" ∨
            function = Glsl.builtin "Sample" ∧ word = "texture") ∨
        target.version? = none ∧ function = Glsl.builtin "Mod" ∧ word = "floor") := by
  unfold Target.words at h
  cases hform : target.dialect.intrinsics.get? function with
  | none =>
    rw [hform] at h
    cases h
  | some form =>
    rw [hform] at h
    refine ⟨form, rfl, ?_⟩
    cases form with
    | rename renamed =>
      cases List.mem_singleton.1 h
      exact .inl rfl
    | custom form =>
      cases hversion : target.version? with
      | some version =>
        simp only [hversion, Option.isSome_some, if_true] at h
        refine .inr (.inl ⟨⟨version, rfl⟩, ?_⟩)
        split at h
        · exact .inl ⟨‹_›, List.mem_singleton.1 h⟩
        · split at h
          · exact .inr ⟨‹_›, List.mem_singleton.1 h⟩
          · cases h
      | none =>
        simp only [hversion, Option.isSome_none, Bool.false_eq_true, if_false] at h
        split at h
        · exact .inr (.inr ⟨rfl, ‹_›, List.mem_singleton.1 h⟩)
        · cases h

/-- The functions of a library that are called under their names: those of its tables of methods, and
others. -/
def libraryWords (vectors math : List (String × String)) (others : List String) : List String :=
  vectors.map Prod.snd ++ math.map Prod.snd ++ "cross" :: others

/-- The functions of the library of GLSL; those of forms come last. -/
def Glsl.words : List String :=
  libraryWords vectorMethods mathMethods ["fract", "mod", "dFdx", "dFdy", "clamp", "texture"]

/-- The functions of the library of HLSL; those of forms come last. -/
def Hlsl.words : List String :=
  libraryWords vectorMethods mathMethods ["mul", "saturate", "frac", "ddx", "ddy", "floor"]

/-- Where library calls are renamed to, in a table of the shape that targets share. -/
theorem mem_libraryWords {vectors math : List (String × String)} {builtins : List (String × Intrinsic)}
    {others : List String} {function word : String}
    (hothers : ∀ name, (function, .rename name) ∈ builtins → name ∈ others)
    (h : (function, .rename word) ∈
      vectors.flatMap (fun m => Intrinsic.onVectors m.1 (.rename m.2)) ++
        [(s!"{Host.vector3}.Cross", .rename "cross")] ++
        math.map (fun m => Intrinsic.onMath m.1 (.rename m.2)) ++ builtins) :
    word ∈ libraryWords vectors math others := by
  simp only [List.mem_append, List.mem_flatMap, List.mem_map, List.mem_singleton,
    Intrinsic.onVectors, Intrinsic.onMath, Prod.mk.injEq, Intrinsic.rename.injEq] at h
  unfold libraryWords
  rcases h with ((⟨m, hm, type, -, -, rfl⟩ | ⟨-, rfl⟩) | ⟨m, hm, -, rfl⟩) | hbuiltin
  · exact List.mem_append_left _ (List.mem_append_left _ (List.mem_map_of_mem hm))
  · exact List.mem_append_right _ List.mem_cons_self
  · exact List.mem_append_left _ (List.mem_append_right _ (List.mem_map_of_mem hm))
  · exact List.mem_append_right _ (List.mem_cons_of_mem _ (hothers word hbuiltin))

theorem Glsl.mem_words {version : Version} {function word : String}
    (h : (intrinsics version).get? function = some (.rename word)) : word ∈ words := by
  refine mem_libraryWords (fun name hname => ?_) (Table.mem_of_get? h)
  simp only [List.mem_cons, List.not_mem_nil, or_false, Intrinsic.onBuiltins, Prod.mk.injEq,
    Intrinsic.rename.injEq] at hname
  rcases hname with ⟨-, hform⟩ | ⟨-, hform⟩ | ⟨-, rfl⟩ | ⟨-, rfl⟩ | ⟨-, rfl⟩ | ⟨-, rfl⟩ | ⟨-, hform⟩
  · cases hform
  · cases hform
  · decide
  · decide
  · decide
  · decide
  · cases version <;> cases hform

theorem Hlsl.mem_words {function word : String}
    (h : intrinsics.get? function = some (.rename word)) : word ∈ words := by
  refine mem_libraryWords (fun name hname => ?_) (Table.mem_of_get? h)
  simp only [List.mem_cons, List.not_mem_nil, or_false, Intrinsic.onBuiltins, Prod.mk.injEq,
    Intrinsic.rename.injEq] at hname
  rcases hname with ⟨-, rfl⟩ | ⟨-, rfl⟩ | ⟨-, rfl⟩ | ⟨-, rfl⟩ | ⟨-, rfl⟩ | ⟨-, hform⟩ | ⟨-, hform⟩
  · decide
  · decide
  · decide
  · decide
  · decide
  · cases hform
  · cases hform

/-- The library has no reserved words. -/
theorem Target.isReserved_stem_word {target : Target} {function word : String}
    (h : word ∈ target.words function) :
    target.dialect.identifiers.isReserved (stem word) = false := by
  obtain ⟨form, hform, hcases⟩ := words_cases h
  cases hversion : target.version? with
  | some version =>
    have hfree : ∀ word ∈ Glsl.words, Glsl.identifiers.isReserved (stem word) = false := by
      decide +kernel
    rw [dialect_of_version? hversion] at hform ⊢
    refine hfree word ?_
    rcases hcases with rfl | ⟨-, ⟨-, rfl⟩ | ⟨-, rfl⟩⟩ | ⟨hnone, -⟩
    · exact Glsl.mem_words hform
    · exact List.mem_append_right _ (by decide)
    · exact List.mem_append_right _ (by decide)
    · cases hversion.symm.trans hnone
  | none =>
    have hfree : ∀ word ∈ Hlsl.words, Hlsl.identifiers.isReserved (stem word) = false := by
      decide +kernel
    cases eq_hlsl_of_version? hversion
    refine hfree word ?_
    rcases hcases with rfl | ⟨⟨version, hsome⟩, -⟩ | ⟨-, -, rfl⟩
    · exact Hlsl.mem_words hform
    · cases hsome
    · exact List.mem_append_right _ (by decide)

theorem Glsl.mentions_texture {version : Version} {arguments : List Argument} {text : String}
    (h : (if version.separateSamplers then sampleSeparate else sampleCombined).apply arguments =
      some text) : Mentions text "texture" := by
  split at h
  · obtain ⟨a, b, c, combined, -, -, rfl⟩ := sampleSeparate_ok h
    exact .head "texture" _
  · obtain ⟨a, b, c, -, rfl⟩ := sampleCombined_ok h
    exact .head "texture" _

/-- A library call is written with the words of the function. -/
theorem Target.mentions_word {target : Target} {function word : String}
    (hword : word ∈ target.words function) {form : Intrinsic}
    (hform : target.dialect.intrinsics.get? function = some form) {arguments : List Argument}
    {text : String} (h : form.apply arguments = some text) : Mentions text word := by
  obtain ⟨_, hfound, hcases⟩ := words_cases hword
  cases hform.symm.trans hfound
  rcases hcases with rfl | ⟨⟨version, hversion⟩, hword⟩ | ⟨hversion, rfl, rfl⟩
  · cases h
    exact .head word _
  · rw [dialect_of_version? hversion] at hform
    rcases hword with ⟨rfl, rfl⟩ | ⟨rfl, rfl⟩
    · have hentry : (Glsl.intrinsics version).get? (Glsl.builtin "Saturate") = some Glsl.saturate := by
        cases version <;> rfl
      cases hform.symm.trans hentry
      obtain ⟨x, -, rfl⟩ := Glsl.saturate_ok h
      exact .head "clamp" _
    · have hentry : (Glsl.intrinsics version).get? (Glsl.builtin "Sample") =
          some (if version.separateSamplers then Glsl.sampleSeparate else Glsl.sampleCombined) := by
        cases version <;> rfl
      cases hform.symm.trans hentry
      exact Glsl.mentions_texture h
  · cases eq_hlsl_of_version? hversion
    have hentry : Hlsl.intrinsics.get? (Glsl.builtin "Mod") = some Hlsl.flooredRemainder := rfl
    cases hform.symm.trans hentry
    obtain ⟨x, y, -, rfl⟩ := Hlsl.flooredRemainder_ok h
    have hfloor : Mentions (callText "floor" [BinaryOp.divide.apply x.operand y.operand]) "floor" :=
      .head "floor" _
    exact ((hfloor.right .multiply y.operand).right .subtract x.operand).grouped

/-! ## Default values -/

/-- `c.Builds owner name`: the default value of the structure `owner` is written with the structure `name`,
which is `owner` or, where structures are built field by field, stands in one of its fields. -/
inductive Context.Builds (c : Context) : String → String → Prop
  | self {name : String} : c.dialect.mapType name = none → Builds c name name
  | field {owner name : String} {definition : Structure} {field : Field} :
      c.dialect.mapType owner = none →
      c.dialect.zeroValue (c.dialect.structureTypeName owner) true = none →
      (owner, definition) ∈ c.structures → field ∈ definition.fields →
      Builds c field.type.name name → Builds c owner name

theorem Context.Builds.mapType {c : Context} {owner name : String} (h : c.Builds owner name) :
    c.dialect.mapType owner = none := by
  cases h with
  | self hmap => exact hmap
  | field hmap => exact hmap

namespace Target

variable {target : Target} {d : Dialect}

theorem construct_ok (hd : d = target.dialect) {type : String} {isStructure : Bool}
    {arguments : List String} {text : String}
    (h : d.construct type isStructure arguments = some text) : text = callText type arguments := by
  subst hd
  have hspelled : Spelled target.dialect target.manner fun _ => True :=
    target.spelled fun _ _ => trivial
  exact hspelled.construct h

theorem mentions_zeroValue (hd : d = target.dialect) {type : String} {isStructure : Bool}
    {text : String} (h : d.zeroValue type isStructure = some text) : Mentions text type := by
  subst hd
  cases hversion : target.version? with
  | some version =>
    rw [dialect_of_version? hversion] at h
    cases isStructure with
    | true => cases h
    | false =>
      rw [Glsl.dialect_zeroValue] at h
      cases h
      exact .head type _
  | none =>
    cases eq_hlsl_of_version? hversion
    cases h
    exact (Mentions.self type).between (opens_of_ending (c := '(') (by decide) (by decide))
      (closes_of_initial (c := ')') (by decide) (by decide))

end Target

section Defaults

variable {target : Target} {c : Context} {loc : Location}

/-- **A default value is written with the structures that it is built of.** -/
theorem mentions_zeroValueFrom (hd : c.dialect = target.dialect) (hc : c.Ordered)
    {later structures : List (String × Structure)} (hall : c.structures = later ++ structures)
    {type : TypeRef} (hmem : type.name ∈ structures.map Prod.fst) {text : String}
    (h : c.zeroValueFrom loc structures type = .ok text) {name : String}
    (hname : c.Builds type.name name) : Mentions text (c.dialect.structureTypeName name) := by
  induction structures generalizing later type text name with
  | nil => cases hmem
  | cons entry earlier ih =>
    obtain ⟨key, definition⟩ := entry
    have hearlier : c.structures = (later ++ [(key, definition)]) ++ earlier := by
      rw [hall, List.append_assoc]
      rfl
    obtain ⟨hkey, h⟩ | ⟨hkey, mapped, hmapped, hform⟩ := zeroValueFrom_ok.1 h
    · refine ih hearlier ?_ h hname
      exact (List.mem_cons.1 hmem).resolve_left hkey
    obtain ⟨rfl, -⟩ := mapped_of_scalarType hmapped hname.mapType
    obtain hzero | ⟨-, fields, hfields, hconstruct⟩ := hform
    · cases hname with
      | self => exact Target.mentions_zeroValue hd hzero
      | field _ hnone => cases hnone.symm.trans hzero
    cases Target.construct_ok hd hconstruct
    cases hname with
    | self => exact .head _ fields
    | @field _ _ found field _ _ hfound hfield hrest =>
      -- names stand for one structure, so this is the one at the head of the list
      have hentry : (key, definition) ∈ c.structures :=
        hall ▸ List.mem_append_right _ List.mem_cons_self
      cases List.inj_on_of_nodup_map hc.names_nodup hfound hentry hkey
      obtain ⟨value, hvalue, zero, hzero, hcopies⟩ := exists_right_of_forall₂ hfields field hfield
      have hword := ih hearlier
        (hc.fields_behind later _ _ earlier hall field hfield hrest.mapType) hzero hrest
      refine Mentions.argument hvalue ?_ _
      rcases hcopies with ⟨-, rfl⟩ | ⟨hcount, element, -, hconstruct⟩
      · exact hword
      · cases Target.construct_ok hd hconstruct
        refine Mentions.argument (List.mem_replicate.2 ⟨?_, rfl⟩) hword _
        exact Nat.pos_iff_ne_zero.1 (of_decide_eq_true hcount)

end Defaults

/-! ## The references of a body -/

/-- What an expression refers to itself, apart from its operands: a resource, a function of the program or
else of the library, a structure, or the structures of a default value. -/
inductive Expr.Names (target : Target) (c : Context) : Expr → Reference → Prop
  | resource {name : String} {r : Resource} (hr : c.code.resource? name = some r) :
      Names target c (.resource name) (.resource r)
  | callee {name : String} {arguments : List Expr} (hf : (c.code.function? name).isSome) :
      Names target c (.call name arguments) (.callee name)
  | library {name word : String} {arguments : List Expr} (hf : c.code.function? name = none)
      (hword : word ∈ target.words name) : Names target c (.call name arguments) (.library word)
  | construct {type : TypeRef} {first : Expr} {rest : List Expr}
      (hmap : c.dialect.mapType type.name = none) :
      Names target c (.construct type (first :: rest)) (.record type.name)
  | cast {type : TypeRef} {operand : Expr} (hmap : c.dialect.mapType type.name = none) :
      Names target c (.cast type operand) (.record type.name)
  | default {type : TypeRef} {name : String} (hname : c.Builds type.name name) :
      Names target c (.construct type []) (.record name)

/-- What a statement refers to itself, apart from the statements in it, each with the node that does: a
part of an expression, or the statement if it declares a local of a structure. -/
inductive Stmt.Refers (target : Target) (c : Context) (t : Stmt) : Reference → Node → Prop
  | expr {e x : Expr} {ref : Reference} (he : e ∈ t.exprs) (hx : x.Part e)
      (href : x.Names target c ref) : Refers target c t ref (.expr x)
  | declared {loc : Location} {name : String} {type : TypeRef} {count : Nat} {value : Option Expr}
      (ht : t = .declare loc name type count value) (hmap : c.dialect.mapType type.name = none) :
      Refers target c t (.record type.name) (.stmt t)

theorem Stmt.Refers.possible {target : Target} {c : Context} {t : Stmt} {ref : Reference} {node : Node}
    (h : t.Refers target c ref node) : ref.Possible target := by
  rintro word rfl
  cases h with
  | expr _ _ href =>
    cases href with
    | library _ hword => exact Target.isReserved_stem_word hword

/-- The target text of a node in a statement at `loc`. -/
def Scope.nodeText (s : Scope) (loc : Location) : Node → Except GenerationError String
  | .expr e => s.lower loc e
  | .stmt t => s.simple t

/-! ## The names of functions and locals -/

theorem closes_countSuffix (count : Nat) : Closes (countSuffix count) := by
  unfold countSuffix
  split
  · rw [toString, String.append_assoc]
    exact closes_of_initial (c := '[') (initial_append (by decide) _) (by decide)
  · exact closes_empty

/-- A signature has the name of its function and those of the parameters. -/
theorem mentions_signature {c : Context} {f : Function} {text : String}
    (h : c.signature f = .ok text) :
    ∀ name ∈ f.name :: f.parameters.map (·.name), Mentions text (c.dialect.correct name) := by
  have htext : text = c.dialect.targetType f.returnType ++ " " ++
      callText (c.dialect.correct f.name) (f.parameters.map c.dialect.parameterText) := by
    rw [Context.signature_ok h, callText]
    simp only [String.append_assoc]
  rw [htext]
  refine List.forall_mem_cons.2 ⟨(Mentions.head _ _).behind (opens_blank _), fun name hname => ?_⟩
  obtain ⟨parameter, hparameter, rfl⟩ := List.mem_map.1 hname
  have hword : Mentions (c.dialect.parameterText parameter) (c.dialect.correct parameter.name) :=
    (Mentions.self _).behind (opens_blank _)
  exact (hword.argument (List.mem_map_of_mem hparameter) _).behind (opens_blank _)

section Declared

variable {s : Scope} {loc : Location} {name : String} {type : TypeRef} {count : Nat} {text : String}

/-- A statement that declares a local has the words of the declaration. -/
theorem mentions_declare {value : Option Expr}
    (h : s.simple (.declare loc name type count value) = .ok text) :
    ∃ declared, s.declarator loc name type count = .ok declared ∧
      ∀ word, Mentions declared word → Mentions text word := by
  cases value with
  | none => exact ⟨text, h, fun _ hword => hword⟩
  | some value =>
    obtain ⟨declared, start, hdeclared, -, rfl⟩ := simple_declare_some_ok h
    refine ⟨declared, hdeclared, fun word hword => ?_⟩
    rw [String.append_assoc]
    exact hword.before (closes_of_initial (c := ' ') (initial_append (by decide) _) (by decide))

/-- A local is declared under its target name. -/
theorem mentions_declared_name {value : Option Expr}
    (h : s.simple (.declare loc name type count value) = .ok text) :
    Mentions text (s.dialect.correct name) := by
  obtain ⟨declared, hdeclared, hwords⟩ := mentions_declare h
  obtain ⟨-, mapped, -, rfl⟩ := declarator_ok hdeclared
  exact hwords _ ((Mentions.self _).between (opens_blank mapped) (closes_countSuffix count))

/-- A local of a structure is declared with the structure. -/
theorem mentions_declared_type {value : Option Expr}
    (hmap : s.context.dialect.mapType type.name = none)
    (h : s.simple (.declare loc name type count value) = .ok text) :
    Mentions text (s.dialect.structureTypeName type.name) := by
  obtain ⟨declared, hdeclared, hwords⟩ := mentions_declare h
  obtain ⟨-, mapped, hmapped, rfl⟩ := declarator_ok hdeclared
  rcases mappedType_cases hmapped with hsome | ⟨-, rfl, -⟩
  · cases hmap.symm.trans hsome
  · refine hwords _ ?_
    rw [String.append_assoc, String.append_assoc]
    exact (Mentions.self _).before (closes_blank _)

/-- What a lowered statement declares is written under its target name. -/
theorem mentions_of_declared {t : Stmt} {outline : Outline} (h : s.outline t = .ok outline)
    {declared : String × TypeRef} (hdeclared : declared ∈ t.declared) :
    ∃ text, s.nodeText t.location (.stmt t) = .ok text ∧
      Mentions text (s.dialect.correct declared.1) := by
  cases t with
  | declare loc name type count value =>
    cases List.mem_singleton.1 hdeclared
    obtain ⟨text, htext, -⟩ := outlined_of_outline h
    exact ⟨text, htext, mentions_declared_name htext⟩
  | block | eval | assign | ifElse | forLoop | whileLoop | doWhile | switch | foreach | breakLoop
  | continueLoop | ret | discard => cases hdeclared

end Declared

/-! ## References as they are written -/

section Mentioned

variable {target : Target} {s : Scope} (hd : s.context.dialect = target.dialect)
  (hs : s.context.Ordered)

include hd hs

/-- **Every reference of an expression is written under its identifier.** -/
theorem mentions_of_names {x : Expr} {ref : Reference} (hx : x.Names target s.context ref)
    {loc : Location} {text : String} (h : s.lower loc x = .ok text) :
    Mentions text (ref.identifier target) := by
  have hcomposed := composed_of_lower h
  have hdialect : s.dialect = target.dialect := hd
  cases hx with
  | resource hr =>
    obtain ⟨r, hfound, rfl⟩ := hcomposed
    cases hr.symm.trans hfound
    rw [hdialect]
    exact .self _
  | callee hf =>
    obtain ⟨texts, -, ⟨-, rfl⟩ | ⟨hnone, -⟩⟩ := hcomposed
    · rw [hdialect]
      exact .head _ texts
    · have hnone : s.context.code.function? _ = none := hnone
      rw [hnone] at hf
      cases hf
  | library hf hword =>
    obtain ⟨texts, -, ⟨hsome, -⟩ | ⟨-, form, hform, happly⟩⟩ := hcomposed
    · have hnone : s.code.function? _ = none := hf
      rw [hnone] at hsome
      cases hsome
    · rw [hdialect] at hform
      exact Target.mentions_word hword hform happly
  | construct hmap =>
    obtain ⟨mapped, texts, hmapped, -, hform⟩ := hcomposed
    obtain ⟨rfl, -⟩ := mapped_of_scalarType hmapped hmap
    cases Target.construct_ok hd hform
    rw [hd]
    exact .head _ texts
  | cast hmap =>
    obtain ⟨mapped, inner, hmapped, -, hform⟩ := hcomposed
    obtain ⟨rfl, -⟩ := mapped_of_scalarType hmapped hmap
    cases Target.construct_ok hd hform
    rw [hd]
    exact .head _ [inner]
  | default hname =>
    obtain ⟨mapped, hmapped⟩ := scalarType_of_zeroValueFrom hcomposed
    have hmem := (mapped_of_scalarType hmapped hname.mapType).2
    have hmentions := mentions_zeroValueFrom hd hs (List.nil_append _).symm hmem hcomposed hname
    rwa [hd] at hmentions

/-- **Every reference of a lowered statement is written under its identifier.** -/
theorem mentions_of_refers {t : Stmt} {outline : Outline} (h : s.outline t = .ok outline)
    {ref : Reference} {node : Node} (href : t.Refers target s.context ref node) :
    ∃ text, s.nodeText t.location node = .ok text ∧ Mentions text (ref.identifier target) := by
  cases href with
  | @expr e x _ he hx hnames =>
    obtain ⟨whole, hwhole⟩ := outline_exprs h e he
    obtain ⟨text, htext⟩ := lower_of_part hx hwhole
    exact ⟨text, htext, mentions_of_names hd hs hnames htext⟩
  | declared ht hmap =>
    subst ht
    obtain ⟨text, htext, -⟩ := outlined_of_outline h
    refine ⟨text, htext, ?_⟩
    have hmentions := mentions_declared_type hmap htext
    have hdialect : s.dialect = target.dialect := hd
    rwa [hdialect] at hmentions

end Mentioned

/-! ## Capture -/

/-- A reference that denotes what it names: no visible local is emitted under its identifier and, if it is
to the library, no function of the document either. -/
structure Reference.Uncaptured (target : Target) (visible : Declarations) (functions : List Function)
    (ref : Reference) : Prop where
  locals : ∀ declared ∈ target.emitted visible, declared.1 ≠ ref.identifier target
  functions : ref.isLibrary → ∀ f ∈ functions, target.dialect.correct f.name ≠ ref.identifier target

/-- Only rivals capture a reference. -/
theorem Reference.uncaptured_iff {target : Target} {ref : Reference} (h : ref.Possible target)
    {visible : Declarations} {functions : List Function} :
    ref.Uncaptured target visible functions ↔ ref.rival target ∉ visible.map Prod.fst ∧
      (ref.isLibrary → ref.rival target ∉ functions.map (·.name)) := by
  have hiff : ∀ {name}, target.dialect.correct name = ref.identifier target ↔
      name = ref.rival target := correct_eq_identifier_iff h
  constructor
  · rintro ⟨hlocals, hfunctions⟩
    refine ⟨fun hmem => ?_, fun hlibrary hmem => ?_⟩
    · obtain ⟨declared, hdeclared, hname⟩ := List.mem_map.1 hmem
      exact hlocals _ (List.mem_map_of_mem hdeclared) (hiff.2 hname)
    · obtain ⟨f, hf, hname⟩ := List.mem_map.1 hmem
      exact hfunctions hlibrary f hf (hiff.2 hname)
  · rintro ⟨hlocals, hfunctions⟩
    refine ⟨fun declared hdeclared heq => ?_, fun hlibrary f hf heq => ?_⟩
    · obtain ⟨source, hsource, rfl⟩ := List.mem_map.1 hdeclared
      exact hlocals (List.mem_map.2 ⟨source, hsource, hiff.1 heq⟩)
    · exact hfunctions hlibrary (List.mem_map.2 ⟨f, hf, hiff.1 heq⟩)

/-- **Which references denote what they name.**  In every generated text, functions, parameters and locals
are declared under their corrected names, and a name of a local denotes the declaration that the source
sees.  Every reference of a statement, to a resource, a function, a structure or the library, is written
under its identifier, and what that denotes among the locals is the visible local with the rival's name.
So a reference is captured exactly if a rival is visible or, for the library, is a function of the
document. -/
theorem uncaptured_iff_no_rival (target : Target) {p : Program} {symbols : SymbolSource} {depth : Nat}
    {entry : String} {options : Options} {shader : Shader}
    (h : (p.generateFrom symbols depth target.dialect entry options).result = .ok shader) :
    ∃ doc : Document, doc.Of p symbols depth target.dialect entry ∧
      shader.text = renderLines options.indent
        (target.dialect.header doc.stage options.floatPrecision ++
          doc.declarations target.dialect) ∧
      ∀ f ∈ doc.functions,
        (∃ signature, (doc.context target.dialect p.toCode).signature f = .ok signature ∧
          ∀ name ∈ f.name :: f.parameters.map (·.name),
            Mentions signature (target.dialect.correct name)) ∧
        ∀ seen t, Block.Sees f.visible f.body seen t →
          (∀ declared ∈ t.declared,
            ∃ text, (Scope.ofFunction (doc.context target.dialect p.toCode) doc.stage f).nodeText
              t.location (.stmt t) = .ok text ∧ Mentions text (target.dialect.correct declared.1)) ∧
          (∀ name, (target.emitted (t.sight seen)).lookup (target.dialect.correct name) =
            (t.sight seen).lookup name) ∧
          ∀ ref node, t.Refers target (doc.context target.dialect p.toCode) ref node →
            (∃ text, (Scope.ofFunction (doc.context target.dialect p.toCode) doc.stage f).nodeText
                t.location node = .ok text ∧ Mentions text (ref.identifier target)) ∧
            (target.emitted (t.sight seen)).lookup (ref.identifier target) =
              (t.sight seen).lookup (ref.rival target) ∧
            (ref.Uncaptured target (t.sight seen) doc.functions ↔
              ref.rival target ∉ (t.sight seen).map Prod.fst ∧
                (ref.isLibrary → ref.rival target ∉ doc.functions.map (·.name))) := by
  obtain ⟨doc, hdoc, htext⟩ := Program.exists_document h
  refine ⟨doc, hdoc, htext, fun f hf => ?_⟩
  obtain ⟨signature, body, hsignature, hbody⟩ := hdoc.exists_lowered hf
  refine ⟨⟨signature, hsignature, mentions_signature hsignature⟩, fun seen t hsees => ?_⟩
  obtain ⟨outline, houtline⟩ := outline_of_holds hbody (Block.holds_iff_sees.2 ⟨seen, hsees⟩)
  refine ⟨fun declared hdeclared => mentions_of_declared houtline hdeclared,
    fun name => Target.lookup_emitted (fun _ => target.correct_inj) _, fun ref node href => ?_⟩
  have hpossible := href.possible
  exact ⟨mentions_of_refers rfl hdoc.ordered houtline href,
    Target.lookup_emitted (fun _ => Reference.correct_eq_identifier_iff hpossible) _,
    Reference.uncaptured_iff hpossible⟩

/-- A uniform. -/
def Resource.tint : Resource where
  name := "tint"
  kind := .uniform
  binding := 0
  valueType := some ⟨Host.vector4, false⟩

/-- A function with the name of a library function. -/
def Function.sine : Function where
  name := "sin"
  returnType := ⟨Host.vector4, false⟩
  role := .plain
  parameters := []
  workgroup := {}
  body := [.ret .unknown (some (.staticMember ⟨Host.vector4, false⟩ "One"))]

/-- A fragment entry with a local that has the name of the uniform. -/
def Function.veiled : Function where
  name := "shade"
  returnType := ⟨Host.vector4, false⟩
  role := .entry .fragment
  parameters := [⟨"pixel", ⟨"Pixel", false⟩⟩]
  workgroup := {}
  body := [
    .declare .unknown "tint" ⟨Host.vector4, false⟩ 0 (some (.call "sin" [])),
    .eval .unknown (.call "System.MathF.Sin" [.literal (.int 1)]),
    .ret .unknown (some (.resource "tint"))]

/-- A program with names that are used twice. -/
def Program.veiled : Program where
  resources := ⟨[.tint]⟩
  functions := ⟨[.veiled, .sine]⟩
  structures := ⟨[("Pixel", ⟨"Pixel", [{ name := "uv", type := ⟨Host.vector2, false⟩ }]⟩)]⟩

/-- The result of `Program.veiled` on HLSL. -/
def Program.veiledResult : Except GenerationError Shader :=
  (Program.veiled.generateFrom ⟨fun _ => []⟩ 2 (Target.hlsl).dialect "shade" {}).result

section Veiled

theorem Program.veiledResult_toBool : Program.veiledResult.toBool = true := by decide +kernel

variable {doc : Document}

theorem Document.Of.veiled_mem (h : doc.Of Program.veiled ⟨fun _ => []⟩ 2 (Target.hlsl).dialect "shade") :
    .veiled ∈ doc.functions := by
  have hentry : doc.entry = .veiled := (Option.some.inj h.function?).symm
  exact h.mem_functions.2 (hentry ▸ .refl)

theorem Document.Of.sine_mem (h : doc.Of Program.veiled ⟨fun _ => []⟩ 2 (Target.hlsl).dialect "shade") :
    .sine ∈ doc.functions := by
  have hentry : doc.entry = .veiled := (Option.some.inj h.function?).symm
  refine h.mem_functions.2 (hentry ▸ .single ?_)
  exact ⟨_, "sin", [], ⟨⟨_, List.mem_cons_self, .self⟩, _, List.mem_cons_self, .self⟩, rfl⟩

variable (doc)

theorem Document.refers_callee : (Stmt.declare .unknown "tint" ⟨Host.vector4, false⟩ 0
      (some (.call "sin" []))).Refers .hlsl (doc.context (Target.hlsl).dialect Program.veiled.toCode)
    (.callee "sin") (.expr (.call "sin" [])) :=
  .expr List.mem_cons_self .self (.callee rfl)

theorem Document.refers_library : (Stmt.eval .unknown (.call "System.MathF.Sin" [.literal (.int 1)])).Refers
    .hlsl (doc.context (Target.hlsl).dialect Program.veiled.toCode) (.library "sin")
    (.expr (.call "System.MathF.Sin" [.literal (.int 1)])) :=
  .expr List.mem_cons_self .self (.library rfl (by decide +kernel))

theorem Document.refers_resource : (Stmt.ret .unknown (some (.resource "tint"))).Refers .hlsl
    (doc.context (Target.hlsl).dialect Program.veiled.toCode) (.resource .tint)
    (.expr (.resource "tint")) :=
  .expr List.mem_cons_self .self (.resource rfl)

end Veiled

/-- Both sides are decided in `Program.veiled`: the call of its function `sin` denotes the function, since no
local has that name; the uniform behind the local `tint` and the sine behind the function are captured. -/
theorem uncaptured_iff_no_rival_veiled :
    ∃ (shader : Shader) (doc : Document), Program.veiledResult = .ok shader ∧
      doc.Of Program.veiled ⟨fun _ => []⟩ 2 (Target.hlsl).dialect "shade" ∧
      (∃ f ∈ doc.functions, ∃ seen t node, Block.Sees f.visible f.body seen t ∧
        t.Refers .hlsl (doc.context (Target.hlsl).dialect Program.veiled.toCode) (.callee "sin") node ∧
        (Reference.callee "sin").Uncaptured .hlsl (t.sight seen) doc.functions) ∧
      ∀ ref ∈ [Reference.resource .tint, .library "sin"],
        ∃ f ∈ doc.functions, ∃ seen t node, Block.Sees f.visible f.body seen t ∧
          t.Refers .hlsl (doc.context (Target.hlsl).dialect Program.veiled.toCode) ref node ∧
          ¬ ref.Uncaptured .hlsl (t.sight seen) doc.functions := by
  obtain ⟨shader, hresult⟩ := exists_ok_of_toBool Program.veiledResult_toBool
  obtain ⟨doc, hdoc, -, hall⟩ := uncaptured_iff_no_rival .hlsl hresult
  have hveiled := hdoc.veiled_mem
  have hiff := fun seen t hsees ref node href =>
    (((hall _ hveiled).2 seen t hsees).2.2 ref node href).2.2
  refine ⟨shader, doc, hresult, hdoc, ⟨_, hveiled, _, _, _, .here, doc.refers_callee, ?_⟩,
    List.forall_mem_cons.2 ⟨⟨_, hveiled, _, _, _, .later (.later .here), doc.refers_resource, ?_⟩,
      List.forall_mem_singleton.2 ⟨_, hveiled, _, _, _, .later .here, doc.refers_library, ?_⟩⟩⟩
  · exact (hiff _ _ .here _ _ doc.refers_callee).2 ⟨by decide, fun hlibrary => absurd hlibrary (by decide)⟩
  · intro hfree
    exact ((hiff _ _ (.later (.later .here)) _ _ doc.refers_resource).1 hfree).1 List.mem_cons_self
  · intro hfree
    exact ((hiff _ _ (.later .here) _ _ doc.refers_library).1 hfree).2 rfl
      (List.mem_map.2 ⟨_, hdoc.sine_mem, rfl⟩)

/-- The local captures the reference to the uniform, and the function the one to the library. -/
theorem references_captured :
    ∃ (shader : Shader) (doc : Document), Program.veiledResult = .ok shader ∧
      doc.Of Program.veiled ⟨fun _ => []⟩ 2 (Target.hlsl).dialect "shade" ∧
      ∀ ref ∈ [Reference.resource .tint, .library "sin"],
        ∃ f ∈ doc.functions, ∃ seen t node, Block.Sees f.visible f.body seen t ∧
          t.Refers .hlsl (doc.context (Target.hlsl).dialect Program.veiled.toCode) ref node ∧
          ¬ ref.Uncaptured .hlsl (t.sight seen) doc.functions := by
  obtain ⟨shader, hresult⟩ := exists_ok_of_toBool Program.veiledResult_toBool
  obtain ⟨doc, hdoc, -⟩ := Program.exists_document hresult
  have hveiled := hdoc.veiled_mem
  refine ⟨shader, doc, hresult, hdoc, List.forall_mem_cons.2
    ⟨⟨_, hveiled, _, _, _, .later (.later .here), doc.refers_resource, fun hfree => ?_⟩,
      List.forall_mem_singleton.2
        ⟨_, hveiled, _, _, _, .later .here, doc.refers_library, fun hfree => ?_⟩⟩⟩
  · exact ((Reference.uncaptured_iff doc.refers_resource.possible).1 hfree).1 List.mem_cons_self
  · exact ((Reference.uncaptured_iff doc.refers_library.possible).1 hfree).2 rfl
      (List.mem_map.2 ⟨_, hdoc.sine_mem, rfl⟩)

end CrossShader

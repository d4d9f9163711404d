import CrossShader.Proofs.Reader.Image
import CrossShader.Proofs.Reader.Numeral
import CrossShader.Proofs.Reader.Phrase
import CrossShader.Proofs.Success

/-!
# The vocabulary of GLSL

How the names that the dialect chooses are read, and the forms that its tables hold.

* `Glsl.isName_correct` — corrected names are names.
* `Glsl.isName_types`, `Glsl.isIdentifier_member`, `Glsl.phrase_static` — types, members of values and
  members of types.
* `Glsl.intrinsics_cases` — a library call is renamed, or is a product, a limit or a sample.
-/

set_option autoImplicit false

namespace CrossShader

namespace Reader

theorem Phrase.callNamed {name : String} (h : IsName name) {texts : List String}
    {trees : List Tree} (harguments : List.Forall₂ (Phrase .expression) texts trees) :
    Phrase .suffixed (Text.callText name texts) (Glsl.callNamed name trees) :=
  (Phrase.name h).call harguments

end Reader

open Reader

/-- An entry that is found is an entry. -/
theorem Table.mem_of_get? {κ β : Type} [BEq κ] [LawfulBEq κ] {table : Table κ β} {key : κ}
    {value : β} (h : table.get? key = some value) : (key, value) ∈ table.entries :=
  List.mem_reverse.1 (mem_of_lookup h)

/-! ## Corrected names -/

theorem isIdentifier_append_underscore {name : String} (h : IsIdentifier name) :
    IsIdentifier (name ++ "_") := by
  rw [isIdentifier_iff] at h ⊢
  rw [String.toList_append]
  exact h.snoc rfl

/-- Where truth values are reserved, corrected names are names. -/
theorem isName_correct_of_reserved {ids : Identifiers} (htrue : ids.isReserved (stem "true") = true)
    (hfalse : ids.isReserved (stem "false") = true) {name : String} (h : IsIdentifier name) :
    IsName (ids.correct name) := by
  unfold Identifiers.correct
  split
  · have hlast : (name ++ "_").toList.getLast? = some '_' := by
      rw [String.toList_append]
      exact List.getLast?_concat
    refine ⟨isIdentifier_append_underscore h, fun heq => ?_, fun heq => ?_⟩ <;>
    · rw [heq] at hlast
      revert hlast
      decide
  · rename_i hreserved
    refine ⟨h, ?_, ?_⟩
    · rintro rfl
      exact hreserved htrue
    · rintro rfl
      exact hreserved hfalse

namespace Glsl

/-! ## The dialect's choices -/

variable (version : Version)

theorem dialect_mapType (name : String) :
    (dialect version).mapType name = (types version).get? name := rfl

theorem dialect_structureTypeName (name : String) :
    (dialect version).structureTypeName name = identifiers.correct (flattenDots name) := by
  simp only [dialect]

theorem dialect_correct (name : String) :
    (dialect version).correct name = identifiers.correct name := by
  simp only [dialect]

theorem dialect_mapMember (type name : String) :
    (dialect version).mapMember type name = identifiers.member type name := rfl

theorem dialect_construct (type : String) (isStructure : Bool) (arguments : List String) :
    (dialect version).construct type isStructure arguments =
      some (Text.callText type arguments) := rfl

theorem dialect_zeroValue_structure (type : String) :
    (dialect version).zeroValue type true = none := rfl

theorem dialect_zeroValue (type : String) :
    (dialect version).zeroValue type false = some (Text.callText type ["0"]) := by
  change some (type ++ "(0)") = some (type ++ "(" ++ "0" ++ ")")
  rw [String.append_assoc, String.append_assoc]
  rfl

theorem dialect_resourceReference (r : Resource) :
    (dialect version).resourceReference r =
      if r.kind.needsValueType then blockMember r else identifiers.correct r.name := rfl

theorem dialect_floatRemainder (left right : String) :
    (dialect version).floatRemainder left right =
      BinaryOp.subtract.apply left
        (BinaryOp.multiply.apply right
          (Text.callText "trunc" [BinaryOp.divide.apply left right])) := by
  change left ++ " - " ++ right ++ " * trunc(" ++ left ++ " / " ++ right ++ ")" =
    left ++ " " ++ "-" ++ " " ++ (right ++ " " ++ "*" ++ " " ++
      ("trunc" ++ "(" ++ (left ++ " " ++ "/" ++ " " ++ right) ++ ")"))
  have hminus : " - " = " " ++ "-" ++ " " := rfl
  have hstar : " * trunc(" = " " ++ "*" ++ " " ++ "trunc" ++ "(" := rfl
  have hslash : " / " = " " ++ "/" ++ " " := rfl
  simp only [hminus, hstar, hslash, String.append_assoc]

/-! ## Names -/

variable {version}

/-- **Corrected names are names:** the truth values are reserved words. -/
theorem isName_correct {name : String} (h : IsIdentifier name) : IsName (identifiers.correct name) :=
  isName_correct_of_reserved (by decide) (by decide) h

theorem isName_blockMember {r : Resource} (h : IsIdentifier r.name) : IsName (blockMember r) := by
  have htext : (blockMember r).toList = "field_".toList ++ r.name.toList := String.toList_append
  refine ⟨isIdentifier_iff.2 ?_, fun heq => ?_, fun heq => ?_⟩
  · rw [htext]
    refine ⟨'f', "ield_".toList ++ r.name.toList, rfl, rfl, ?_⟩
    rw [List.all_append, (isIdentifier_iff.1 h).all]
    rfl
  · rw [heq] at htext
    cases htext
  · rw [heq] at htext
    cases htext

/-! ## Tables -/

theorem isName_types {version : Version} {name type : String}
    (h : (types version).get? name = some type) : IsName type := by
  have hall : ∀ entry ∈ (types version).entries, IsName entry.2 := by cases version <;> decide
  exact hall _ (Table.mem_of_get? h)

theorem results_of_mapM {α β : Type} {f : α → Option β} {l : List α} {r : List β}
    (h : l.mapM f = some r) : r.length = l.length ∧ ∀ b ∈ r, ∃ a, f a = some b := by
  induction l generalizing r with
  | nil =>
    cases h
    exact ⟨rfl, nofun⟩
  | cons a l ih =>
    rw [List.mapM_cons] at h
    obtain ⟨b, hb, h⟩ := Option.bind_eq_some_iff.1 h
    obtain ⟨bs, hbs, h⟩ := Option.bind_eq_some_iff.1 h
    cases h
    obtain ⟨hlength, hresults⟩ := ih hbs
    exact ⟨congrArg (· + 1) hlength, List.forall_mem_cons.2 ⟨⟨a, hb⟩, hresults⟩⟩

/-- Component selections consist of component letters. -/
theorem isIdentifier_swizzle {name target : String} {width : Nat}
    (h : Swizzle.xyzw.lower name width = some target) : IsIdentifier target := by
  unfold Swizzle.lower at h
  split at h
  · cases h
  rename_i hsize
  obtain ⟨cs, hcs, rfl⟩ := Option.map_eq_some_iff.1 h
  obtain ⟨hlength, hletters⟩ := results_of_mapM hcs
  have hstart : Swizzle.xyzw.components.all (fun entry => isWordStart entry.2) = true := rfl
  have hall : ∀ c ∈ cs, isWordStart c = true := by
    intro c hc
    obtain ⟨c', hlookup⟩ := hletters c hc
    exact List.all_eq_true.1 hstart (c', c) (List.mem_of_mem_take (mem_of_lookup hlookup))
  have hne : cs ≠ [] := by
    rintro rfl
    have hname : name = "" := String.toList_eq_nil_iff.1 (List.length_eq_zero_iff.1 hlength.symm)
    exact hsize (.inl (by simp [hname]))
  rw [isIdentifier_iff, String.toList_ofList]
  obtain ⟨c, rest, rfl⟩ := List.exists_cons_of_ne_nil hne
  refine ⟨c, rest, rfl, hall c List.mem_cons_self, ?_⟩
  rw [List.all_eq_true]
  exact fun c' hc' => isWordChar_of_isWordStart (hall c' (List.mem_cons_of_mem _ hc'))

theorem isIdentifier_member {type name target : String}
    (h : identifiers.member type name = some target) : IsIdentifier target := by
  obtain ⟨width, -, hswizzle⟩ := Option.bind_eq_some_iff.1 (show
    (Host.vectorWidth type).bind (identifiers.swizzle.lower name) = some target from h)
  exact isIdentifier_swizzle hswizzle

/-- A type's constructor with one number. -/
theorem phrase_constant (type value : String) (htype : IsName type) (hvalue : IsNumeral value) :
    Phrase .suffixed (Text.callText type [value]) (callNamed type [.number value]) :=
  Phrase.callNamed htype (.cons (Phrase.number hvalue).expression .nil)

/-- **Members of types** are read as their table forms. -/
theorem phrase_static {type name text : String}
    (h : identifiers.static? type name = some text) :
    Phrase .suffixed text (staticImage type name) := by
  have hall : ∀ entry ∈ identifiers.statics.entries,
      Phrase .suffixed entry.2 (staticImage entry.1.1 entry.1.2) := by
    simp only [identifiers, List.forall_mem_cons]
    exact ⟨phrase_constant "vec2" "0.0" (by decide) (by decide),
      phrase_constant "vec2" "1.0" (by decide) (by decide),
      phrase_constant "vec3" "0.0" (by decide) (by decide),
      phrase_constant "vec3" "1.0" (by decide) (by decide),
      phrase_constant "vec4" "0.0" (by decide) (by decide),
      phrase_constant "vec4" "1.0" (by decide) (by decide),
      phrase_constant "mat4" "1.0" (by decide) (by decide),
      Phrase.number (by decide), Phrase.number (by decide), nofun⟩
  exact hall _ (Table.mem_of_get? h)

/-! ## Library calls -/

/-- **The forms of library calls:** a new name, or one of the three builtins that are more than that. -/
theorem intrinsics_cases {version : Version} {function : String} {form : Intrinsic}
    (h : (intrinsics version).get? function = some form) :
    (∃ target, form = .rename target ∧ IsName target) ∨
      (function = builtin "Mul" ∧ form = .product) ∨
      (function = builtin "Saturate" ∧ form = saturate) ∨
      (function = builtin "Sample" ∧
        form = if version.separateSamplers then sampleSeparate else sampleCombined) := by
  have hvectors : ∀ m ∈ vectorMethods, IsName m.2 := by decide
  have hmath : ∀ m ∈ mathMethods, IsName m.2 := by decide
  have hentry := Table.mem_of_get? h
  simp only [intrinsics, List.mem_append, List.mem_flatMap, List.mem_map, List.mem_cons,
    List.not_mem_nil, or_false, Intrinsic.onVectors, Intrinsic.onMath, Intrinsic.onBuiltins,
    Prod.mk.injEq] at hentry
  rcases hentry with ((⟨m, hm, type, -, -, rfl⟩ | ⟨-, rfl⟩) | ⟨m, hm, -, rfl⟩) |
    ⟨rfl, rfl⟩ | ⟨rfl, rfl⟩ | ⟨-, rfl⟩ | ⟨-, rfl⟩ | ⟨-, rfl⟩ | ⟨-, rfl⟩ | ⟨rfl, rfl⟩
  · exact .inl ⟨m.2, rfl, hvectors m hm⟩
  · exact .inl ⟨_, rfl, by decide⟩
  · exact .inl ⟨m.2, rfl, hmath m hm⟩
  · exact .inr (.inl ⟨rfl, rfl⟩)
  · exact .inr (.inr (.inl ⟨rfl, rfl⟩))
  · exact .inl ⟨_, rfl, by decide⟩
  · exact .inl ⟨_, rfl, by decide⟩
  · exact .inl ⟨_, rfl, by decide⟩
  · exact .inl ⟨_, rfl, by decide⟩
  · exact .inr (.inr (.inr ⟨rfl, rfl⟩))

theorem libraryImage_rename {version : Version} {function target : String}
    (h : (intrinsics version).get? function = some (.rename target)) (kind : Option ResourceKind)
    (arguments : List Tree) :
    libraryImage version function kind arguments = callNamed target arguments := by
  have hother : ∀ method form, (intrinsics version).get? (builtin method) = some (.custom form) →
      function ≠ builtin method := by
    rintro method form hform rfl
    cases h.symm.trans hform
  have hsaturate : function ≠ builtin "Saturate" := hother _ _ (by cases version <;> rfl)
  have hmul : function ≠ builtin "Mul" := hother _ _ (by cases version <;> rfl)
  have hsample : function ≠ builtin "Sample" := by
    cases version
    · exact hother _ _ rfl
    · exact hother _ _ rfl
    · exact hother _ _ rfl
  have hrenamed : ∀ trees, libraryImage.renamed version function trees = callNamed target trees := by
    intro trees
    rw [libraryImage.renamed, h]
  unfold libraryImage
  split <;> simp only [hsaturate, hmul, hsample, if_false, hrenamed]

section Forms

variable {arguments : List Argument} {text : String}

theorem product_ok (h : Intrinsic.product.apply arguments = some text) : ∃ a b,
    arguments = [a, b] ∧ text = "(" ++ BinaryOp.multiply.apply a.operand b.operand ++ ")" := by
  simp only [Intrinsic.product, Intrinsic.apply] at h
  split at h
  · rename_i a b
    refine ⟨a, b, rfl, (Option.some.inj h).symm.trans ?_⟩
    change "(" ++ a.operand ++ " * " ++ b.operand ++ ")" =
      "(" ++ (a.operand ++ " " ++ "*" ++ " " ++ b.operand) ++ ")"
    have hstar : " * " = " " ++ "*" ++ " " := rfl
    simp only [hstar, String.append_assoc]
  · cases h

theorem saturate_ok (h : saturate.apply arguments = some text) : ∃ x,
    arguments = [x] ∧ text = Text.callText "clamp" [x.text, "0.0", "1.0"] := by
  simp only [saturate, Intrinsic.apply] at h
  split at h
  · rename_i x
    refine ⟨x, rfl, (Option.some.inj h).symm.trans ?_⟩
    change "clamp(" ++ x.text ++ ", 0.0, 1.0)" = _
    have hopen : "clamp(" = "clamp" ++ "(" := rfl
    have hclose : ", 0.0, 1.0)" = ", " ++ "0.0" ++ ", " ++ "1.0" ++ ")" := rfl
    simp only [Text.callText, String.intercalate_cons_cons, String.intercalate_singleton, hopen,
      hclose, String.append_assoc]
  · cases h

theorem sampleCombined_ok (h : sampleCombined.apply arguments = some text) : ∃ a b c,
    arguments = [a, b, c] ∧ text = Text.callText "texture" [a.text, c.text] := by
  simp only [sampleCombined, Intrinsic.apply] at h
  split at h
  · rename_i a b c
    refine ⟨a, b, c, rfl, (Option.some.inj h).symm.trans ?_⟩
    change "texture(" ++ a.text ++ ", " ++ c.text ++ ")" = _
    have hopen : "texture(" = "texture" ++ "(" := rfl
    simp only [Text.callText, String.intercalate_cons_cons, String.intercalate_singleton, hopen,
      String.append_assoc]
  · cases h

theorem sampleSeparate_ok (h : sampleSeparate.apply arguments = some text) : ∃ a b c combined,
    arguments = [a, b, c] ∧ a.resource.bind combinedSampler = some combined ∧
      text = Text.callText "texture" [Text.callText combined [a.text, b.text], c.text] := by
  simp only [sampleSeparate, Intrinsic.apply] at h
  split at h
  · rename_i a b c
    obtain ⟨kind, hkind, h⟩ := Option.bind_eq_some_iff.1 h
    obtain ⟨combined, hcombined, h⟩ := Option.bind_eq_some_iff.1 h
    refine ⟨a, b, c, combined, rfl, Option.bind_eq_some_iff.2 ⟨kind, hkind, hcombined⟩,
      (Option.some.inj h).symm.trans ?_⟩
    change "texture(" ++ combined ++ "(" ++ a.text ++ ", " ++ b.text ++ "), " ++ c.text ++ ")" = _
    have hopen : "texture(" = "texture" ++ "(" := rfl
    have hclose : "), " = ")" ++ ", " := rfl
    simp only [Text.callText, String.intercalate_cons_cons, String.intercalate_singleton, hopen,
      hclose, String.append_assoc]
  · cases h

theorem combinedType_of_some {kind : Option ResourceKind} {combined : String}
    (h : kind.bind combinedSampler = some combined) :
    combinedType kind = combined ∧ IsName combined := by
  obtain ⟨kind, rfl, hcombined⟩ := Option.bind_eq_some_iff.1 h
  cases kind with
  | texture2D | textureCube =>
    cases hcombined
    exact ⟨rfl, by decide⟩
  | uniform | sampler | structuredBuffer | rwStructuredBuffer | other => cases hcombined

end Forms

end Glsl

end CrossShader

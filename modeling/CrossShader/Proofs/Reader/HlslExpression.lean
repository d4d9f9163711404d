import CrossShader.Proofs.BlockScope
import CrossShader.Proofs.Effects.Spelling
import CrossShader.Proofs.Lowering
import CrossShader.Proofs.Reader.CastPhrase
import CrossShader.Proofs.Reader.Constant
import CrossShader.Proofs.Reader.HlslImage

/-!
# Reading expressions back on HLSL

The text of an expression on HLSL is read as the expression's image, unless a suffix is put on a default
value: a default value is a cast of zero that stands without parentheses, so the suffix goes to the zero.

* `Hlsl.Says` — how the text of an expression is read, on its own, as an operand, and before a suffix.
* `Hlsl.says_literal`, `Hlsl.zero_ok`, `Hlsl.phrase_library` — literals, default values and library calls.
* `Hlsl.says_of_operands` — what holds of the texts of all operands holds of the whole text, if no suffix is
  on a default value; `Hlsl.says_image` — so a text without such suffixes is read as the image.
* `Hlsl.misread` — a suffix on a default value is misread.
-/

set_option autoImplicit false

namespace CrossShader

open Reader Text

namespace Reader

/-- Names and truth values. -/
def Tree.isWord : Tree → Bool
  | .name _ | .bool _ => true
  | _ => false

/-- Numbers. -/
def Tree.isNumber : Tree → Bool
  | .number _ => true
  | _ => false

theorem Tree.ne_number {t : Tree} (h : t.isNumber = false) (w : String) : t ≠ .number w := by
  rintro rfl
  cases h

theorem isWord_wordTree (w : List Char) : (wordTree w).isWord = true := by
  unfold wordTree
  repeat' split
  all_goals rfl

/-- Parentheses around operators and calls, which are not words. -/
theorem Cast.Phrase.enclosed {types : List Char → Bool} {text : String} {t : Tree}
    (h : Cast.Phrase types .expression text t) (hword : t.isWord = false) :
    Cast.Phrase types .suffixed ("(" ++ text ++ ")") t := by
  refine h.group fun w ht => ?_
  rw [ht, isWord_wordTree] at hword
  cases hword

end Reader

namespace Hlsl

open Glsl (builtin callNamed)

/-- A text is read as a tree.  Where it stands as an operand, no operator around it can take it apart;
unless it is a default value, no suffix behind it can do so either. -/
structure Says (types : List Char → Bool) (compound zero : Bool) (text : String) (t : Tree) : Prop where
  expression : Cast.Phrase types .expression text t
  operand : Cast.Unsigned types (.operand unaryLevel) (parenthesize compound text) t
  base : zero = false → Cast.Phrase types .suffixed (parenthesize compound text) t

namespace Says

variable {types : List Char → Bool} {zero : Bool} {text : String} {t : Tree}

theorem of_suffixed (h : Cast.Phrase types .suffixed text t) : Says types false zero text t :=
  ⟨h.expression, h.unsigned, fun _ => h⟩

/-- **Parentheses stand where they are needed.** -/
theorem of_compound (h : Cast.Phrase types .expression text t) (hword : t.isWord = false) :
    Says types true zero text t :=
  have hgroup := h.enclosed hword
  ⟨h, hgroup.unsigned, fun _ => hgroup⟩

/-- A cast has no parentheses of its own. -/
theorem of_cast (h : Cast.Unsigned types (.operand unaryLevel) text t) : Says types false true text t :=
  ⟨h.phrase.ofOperand (by decide) (Nat.le_refl _), h, fun hzero => absurd hzero.symm Bool.false_ne_true⟩

end Says

/-! ## Literals -/

variable {types : List Char → Bool}

/-- **Literals.** -/
theorem says_literal {loc : Location} {value : Literal} {text : String}
    (h : value.lower loc = .ok text) (zero : Bool) :
    Says types value.isNegative zero text value.image := by
  rcases Literal.lower_cases h with ⟨truth, rfl, rfl⟩ | ⟨hnegative, himage, hconstant⟩ |
    ⟨magnitude, hnegative, hconstant, rfl, himage⟩
  · have hfalse : IsIdentifier "false" := by decide
    have htrue : IsIdentifier "true" := by decide
    cases truth with
    | false => exact .of_suffixed (Cast.Phrase.word hfalse)
    | true => exact .of_suffixed (Cast.Phrase.word htrue)
  · rw [hnegative, himage]
    exact .of_suffixed (Cast.Phrase.number hconstant.1)
  · rw [hnegative, himage]
    have hnegated : Cast.Phrase types (.operand unaryLevel) (UnaryOp.negate.apply magnitude) _ :=
      .leading .negate rfl (Cast.Phrase.number hconstant.1).unsigned
    exact .of_compound (hnegated.ofOperand (by decide) (Nat.le_refl _)) rfl

/-! ## Types and default values -/

theorem isName_corrected {name : String} (h : IsIdentifier name) : IsName (identifiers.correct name) :=
  isName_correct_of_reserved (by decide) (by decide) h

section Types

variable {c : Context} (hdialect : c.dialect = dialect)
  (hnames : ∀ entry ∈ c.structures, IsIdentifier (flattenDots entry.1))

include hdialect hnames

theorem mappedType_ok {type : TypeRef} {mapped : String} (h : c.mappedType type = .ok mapped) :
    mapped = typeName type ∧ IsName mapped ∧ isType c mapped.toList = true := by
  have hspelled : ∀ entry ∈ Hlsl.types.entries, IsName entry.2 := by decide
  have hcases := mappedType_cases h
  rw [hdialect, dialect_structureTypeName] at hcases
  rw [isType, String.ofList_toList, List.contains_iff_mem, typeWords, List.mem_append]
  unfold typeName
  rcases hcases with htype | ⟨htype, hmapped, definition, hentry⟩
  · have htable : Hlsl.types.get? type.name = some mapped := htype
    have hmem := Table.mem_of_get? htable
    rw [htable]
    exact ⟨rfl, hspelled _ hmem, .inl (List.mem_map_of_mem hmem)⟩
  · have htable : Hlsl.types.get? type.name = none := htype
    have hidentifier := hnames (type.name, definition) hentry
    rw [htable, hmapped]
    refine ⟨Option.getD_none.symm, isName_corrected hidentifier, .inr ?_⟩
    exact List.mem_map.2 ⟨(type.name, definition), hentry, rfl⟩

theorem scalarType_ok {loc : Location} {type : TypeRef} {mapped : String}
    (h : c.scalarType loc type = .ok mapped) :
    mapped = typeName type ∧ IsName mapped ∧ isType c mapped.toList = true :=
  mappedType_ok hdialect hnames (mappedType_of_scalarType h)

/-- **Default values:** a cast of zero, whatever the type consists of. -/
theorem zero_ok {loc : Location} {structures : List (String × Structure)} {type : TypeRef}
    {text : String} (h : c.zeroValueFrom loc structures type = .ok text) :
    text = "(" ++ typeName type ++ ")" ++ "0" ∧ IsName (typeName type) ∧
      isType c (typeName type).toList = true := by
  have hform : ∀ mapped isStructure, c.dialect.zeroValue mapped isStructure =
      some ("(" ++ mapped ++ ")" ++ "0") := by
    intro mapped isStructure
    rw [hdialect]
    change some ("(" ++ mapped ++ ")0") = _
    have hclose : ")0" = ")" ++ "0" := rfl
    rw [hclose, ← String.append_assoc]
  induction structures with
  | nil =>
    obtain ⟨mapped, hmapped, hzero⟩ := zeroValueFrom_ok.1 h
    obtain ⟨rfl, hname, hword⟩ := scalarType_ok hdialect hnames hmapped
    rw [hform] at hzero
    exact ⟨(Option.some.inj hzero).symm, hname, hword⟩
  | cons entry earlier ih =>
    obtain ⟨-, h⟩ | ⟨-, mapped, hmapped, hzero⟩ := zeroValueFrom_ok.1 h
    · exact ih h
    obtain ⟨rfl, hname, hword⟩ := scalarType_ok hdialect hnames hmapped
    rw [hform] at hzero
    rcases hzero with hzero | ⟨hnone, -⟩
    · exact ⟨(Option.some.inj hzero).symm, hname, hword⟩
    · cases hnone

end Types

/-! ## Members of types -/

/-- A type's constructor with numbers. -/
theorem phrase_constant (type : String) (values : List String) (htype : IsName type)
    (hvalues : ∀ value ∈ values, IsNumeral value) :
    Cast.Phrase types .suffixed (callText type values) (callNamed type (values.map .number)) := by
  refine .callNamed htype (List.forall₂_map_right_iff.2 (List.forall₂_same.2 fun value hvalue => ?_))
  exact (Cast.Phrase.number (hvalues value hvalue)).expression

/-- **Members of types** are read as their table forms. -/
theorem phrase_static {type name text : String} (h : identifiers.static? type name = some text) :
    Cast.Phrase types .suffixed text (staticImage type name) := by
  have hall : ∀ entry ∈ identifiers.statics.entries,
      Cast.Phrase types .suffixed entry.2 (staticImage entry.1.1 entry.1.2) := by
    simp only [identifiers, List.forall_mem_cons]
    exact ⟨phrase_constant "float2" ["0.0", "0.0"] (by decide) (by decide),
      phrase_constant "float2" ["1.0", "1.0"] (by decide) (by decide),
      phrase_constant "float3" ["0.0", "0.0", "0.0"] (by decide) (by decide),
      phrase_constant "float3" ["1.0", "1.0", "1.0"] (by decide) (by decide),
      phrase_constant "float4" ["0.0", "0.0", "0.0", "0.0"] (by decide) (by decide),
      phrase_constant "float4" ["1.0", "1.0", "1.0", "1.0"] (by decide) (by decide),
      phrase_constant "float4x4" ["1", "0", "0", "0", "0", "1", "0", "0", "0", "0", "1", "0", "0", "0",
        "0", "1"] (by decide) (by decide),
      .number (by decide), .number (by decide), List.forall_mem_nil _⟩
  exact hall _ (Table.mem_of_get? h)

/-! ## Library calls -/

/-- An argument is read as a tree, on its own and as an operand. -/
structure Presents (types : List Char → Bool) (a : Argument) (t : Tree) : Prop where
  expression : Cast.Phrase types .expression a.text t
  operand : Cast.Unsigned types (.operand unaryLevel) a.operand t

theorem isName_rename {function target : String}
    (h : intrinsics.get? function = some (.rename target)) : IsName target := by
  have hall : ∀ word ∈ intrinsics.entries.filterMap (·.2.target?), IsName word := by decide +kernel
  exact hall _ (List.mem_filterMap.2 ⟨_, Table.mem_of_get? h, rfl⟩)

theorem libraryImage_rename {function target : String}
    (h : intrinsics.get? function = some (.rename target)) (arguments : List Tree) :
    libraryImage function arguments = callNamed target arguments := by
  have hmod : function ≠ builtin "Mod" := by
    rintro rfl
    cases h
  have hsample : function ≠ builtin "Sample" := by
    rintro rfl
    cases h
  have hrenamed : ∀ trees, libraryImage.renamed function trees = callNamed target trees := by
    intro trees
    rw [libraryImage.renamed, h]
  unfold libraryImage
  split <;> simp only [hmod, hsample, if_false, hrenamed]

section Library

variable {arguments : List Argument} {trees : List Tree} {text : String}

/-- **The floored remainder**, whose operands may be casts. -/
theorem phrase_flooredRemainder (harguments : List.Forall₂ (Presents types) arguments trees)
    (h : flooredRemainder.apply arguments = some text) :
    Cast.Phrase types .suffixed text (libraryImage (builtin "Mod") trees) := by
  obtain ⟨x, y, rfl, rfl⟩ := flooredRemainder_ok h
  obtain _ | ⟨hx, _ | ⟨hy, ⟨⟩⟩⟩ := harguments
  rw [libraryImage, if_pos rfl]
  have hfloor : IsName "floor" := by decide
  have hwhole := Cast.Phrase.callNamed hfloor (.cons (.binary .divide hx.operand hy.operand) .nil)
  -- the product needs no parentheses: it binds more tightly than the difference
  have hproduct := Cast.Unsigned.binary .multiply (hy.operand.lower (by decide) (Nat.le_refl _))
    (hwhole.unsigned.lower (by decide) (Nat.le_refl _))
  have hdifference := Cast.Unsigned.binary .subtract
    (hx.operand.lower (by decide) (Nat.le_refl _)) hproduct
  exact (hdifference.phrase.ofOperand (by decide) (by decide)).enclosed rfl

/-- **Samples**, where the method can follow the texture. -/
theorem phrase_sample (harguments : List.Forall₂ (Presents types) arguments trees)
    (hbase : ∀ a ∈ arguments.head?, ∀ t ∈ trees.head?,
      Cast.Phrase types .suffixed a.operand t ∧ t.isNumber = false)
    (h : sample.apply arguments = some text) :
    Cast.Phrase types .suffixed text (libraryImage (builtin "Sample") trees) := by
  obtain ⟨a, b, c, rfl, rfl⟩ := sample_ok h
  obtain _ | ⟨_, _ | ⟨hb, _ | ⟨hc, ⟨⟩⟩⟩⟩ := harguments
  rw [libraryImage, if_pos rfl]
  obtain ⟨htexture, hnumber⟩ := hbase _ rfl _ rfl
  have hmethod := htexture.member (Tree.ne_number hnumber) (show IsIdentifier "Sample" by decide)
  have hcall := hmethod.call (.cons hb.expression (.cons hc.expression .nil))
  rwa [show callText (a.operand ++ "." ++ "Sample") [b.text, c.text] =
    a.operand ++ "." ++ callText "Sample" [b.text, c.text] by
      simp only [callText, String.append_assoc]] at hcall

/-- **Library calls.** -/
theorem phrase_library {function : String} {form : Intrinsic}
    (hform : intrinsics.get? function = some form)
    (harguments : List.Forall₂ (Presents types) arguments trees)
    (hbase : function = builtin "Sample" → ∀ a ∈ arguments.head?, ∀ t ∈ trees.head?,
      Cast.Phrase types .suffixed a.operand t ∧ t.isNumber = false)
    (h : form.apply arguments = some text) :
    Cast.Phrase types .suffixed text (libraryImage function trees) := by
  rcases intrinsics_cases hform with ⟨target, rfl, -⟩ | ⟨rfl, rfl⟩ | ⟨rfl, rfl⟩
  · rw [libraryImage_rename hform, ← Option.some.inj h]
    refine .callNamed (isName_rename hform) (List.forall₂_map_left_iff.2 ?_)
    exact harguments.imp fun _ _ ha => ha.expression
  · exact phrase_flooredRemainder harguments h
  · exact phrase_sample harguments (hbase rfl) h

end Library

/-! ## Numbers as bases -/

theorem isNumber_staticImage {type : String} (h : type ≠ Host.math) (name : String) :
    (staticImage type name).isNumber = false := by
  have hall : ∀ entry ∈ staticImages.entries, entry.1.1 ≠ Host.math → entry.2.isNumber = false := by
    simp only [staticImages, List.forall_mem_cons]
    exact ⟨fun _ => rfl, fun _ => rfl, fun _ => rfl, fun _ => rfl, fun _ => rfl, fun _ => rfl,
      fun _ => rfl, fun hmath => absurd rfl hmath, fun hmath => absurd rfl hmath,
      List.forall_mem_nil _⟩
  unfold staticImage
  cases hfound : staticImages.get? (type, name) with
  | none => rfl
  | some t => exact hall _ (Table.mem_of_get? hfound) h

theorem isNumber_libraryImage (function : String) (arguments : List Tree) :
    (libraryImage function arguments).isNumber = false := by
  have hrenamed : ∀ trees, (libraryImage.renamed function trees).isNumber = false := by
    intro trees
    unfold libraryImage.renamed
    split <;> rfl
  unfold libraryImage
  repeat' split
  all_goals first | exact hrenamed _ | rfl

theorem isNumber_literal {value : Literal} (h : (Expr.literal value).isBareNumber = false) :
    value.image.isNumber = false := by
  cases value with
  | bool => rfl
  | int value =>
    have hnegative : value < 0 := by simpa [Expr.isBareNumber, Expr.isNumeric, Expr.isCompound,
      Literal.isNegative] using h
    rw [Literal.image, if_pos hnegative]
    rfl
  | uint => cases h
  | float value =>
    have hnegative : value.isNegative = true := by simpa [Expr.isBareNumber, Expr.isNumeric,
      Expr.isCompound, Literal.isNegative] using h
    rw [Literal.image, if_pos hnegative]
    rfl

/-- Only numbers without signs are read as bare numbers. -/
theorem isNumber_image {s : Scope} {e : Expr} (h : e.isBareNumber = false) :
    (image s e).isNumber = false := by
  cases e with
  | literal value => exact isNumber_literal h
  | staticMember type name =>
    refine isNumber_staticImage ?_ name
    simpa [Expr.isBareNumber, Expr.isNumeric, Expr.isCompound] using h
  | call function arguments =>
    simp only [image]
    split
    · rfl
    · exact isNumber_libraryImage function _
  | construct type arguments => cases arguments <;> rfl
  | localVar | resource | member | index | unary | binary | conditional | cast => rfl

/-! ## Expressions -/

section Lowering

variable {s : Scope} {loc : Location}

/-- What is known of the texts of some expressions. -/
def AllSay (s : Scope) (loc : Location) (es : List Expr) : Prop :=
  ∀ e ∈ es, ∀ text, s.lower loc e = .ok text →
    Says (isType s.context) e.isCompound e.isZero text (image s e)

namespace AllSay

variable {es : List Expr}

theorem operand (hsay : AllSay s loc es) {e : Expr} (he : e ∈ es) {text : String}
    (h : s.IsOperand loc e text) :
    Cast.Unsigned (isType s.context) (.operand unaryLevel) text (image s e) := by
  obtain ⟨inner, hinner, rfl⟩ := h
  exact (hsay e he inner hinner).operand

theorem base (hsay : AllSay s loc es) {e : Expr} (he : e ∈ es) (hzero : e.isZero = false)
    {text : String} (h : s.IsOperand loc e text) :
    Cast.Phrase (isType s.context) .suffixed text (image s e) := by
  obtain ⟨inner, hinner, rfl⟩ := h
  exact (hsay e he inner hinner).base hzero

theorem texts (hsay : AllSay s loc es) {texts : List String} (h : s.lowerAll loc es = .ok texts) :
    List.Forall₂ (fun e text => Says (isType s.context) e.isCompound e.isZero text (image s e)) es
      texts := by
  have htexts := lowerAll_ok h
  clear h
  induction htexts with
  | nil => exact .nil
  | cons htext _ ih =>
    exact .cons (hsay _ List.mem_cons_self _ htext) (ih fun e he => hsay e (List.mem_cons_of_mem _ he))

theorem phrases (hsay : AllSay s loc es) {texts : List String} (h : s.lowerAll loc es = .ok texts) :
    List.Forall₂ (Cast.Phrase (isType s.context) .expression) texts (images s es) := by
  rw [images_eq_map, List.forall₂_map_right_iff]
  exact (hsay.texts h).flip.imp fun _ _ htext => htext.expression

/-- The arguments of a library call. -/
theorem arguments (hsay : AllSay s loc es) {texts : List String}
    (h : s.lowerAll loc es = .ok texts) :
    List.Forall₂ (Presents (isType s.context)) (List.zipWith s.argument es texts) (images s es) := by
  rw [images_eq_map]
  have htexts := hsay.texts h
  clear hsay h
  induction htexts with
  | nil => exact .nil
  | cons htext _ ih => exact .cons ⟨htext.expression, htext.operand⟩ ih

end AllSay

/-- The name of a member is spelled as its image has it. -/
theorem lowerMember_ok (hdialect : s.dialect = dialect) {type name field : String}
    (hname : IsIdentifier name) (h : s.lowerMember loc type name = .ok field) :
    field = memberName s type name ∧ IsIdentifier field := by
  unfold memberName
  obtain ⟨definition, found, hdefinition, -, rfl⟩ | ⟨hdefinition, hspelled⟩ := lowerMember_cases h
  · rw [hdefinition, hdialect, dialect_correct]
    exact ⟨rfl, isIdentifier_correct _ hname⟩
  · have hmember : identifiers.member type name = some field := by rwa [hdialect] at hspelled
    obtain ⟨width, -, hswizzle⟩ := Option.bind_eq_some_iff.1 (show
      (Host.vectorWidth type).bind (identifiers.swizzle.lower name) = some field from hmember)
    rw [hdefinition, hmember]
    exact ⟨rfl, Glsl.isIdentifier_swizzle hswizzle⟩

/-- All binary operators are written as they are, remainders included. -/
theorem operator_eq (hdialect : s.dialect = dialect) (op : BinaryOp) (left right : Expr)
    (a b : String) :
    (if op = .modulo then s.remainder left right a b else op.apply a b) = op.apply a b := by
  split
  · rename_i hop
    rw [hop, Scope.remainder, hdialect, dialect_floatRemainder, ite_self]
  · rfl

/-- A value is constructed by a call of its type. -/
theorem composed_construct (hdialect : s.dialect = dialect)
    (hnames : ∀ entry ∈ s.context.structures, IsIdentifier (flattenDots entry.1)) {type : TypeRef}
    {first : Expr} {rest : List Expr} {text : String}
    (h : s.Composed loc text (.construct type (first :: rest))) :
    ∃ texts, s.lowerAll loc (first :: rest) = .ok texts ∧ IsName (typeName type) ∧
      text = callText (typeName type) texts := by
  obtain ⟨mapped, texts, hmapped, htexts, hform⟩ := h
  obtain ⟨rfl, hname, -⟩ := scalarType_ok hdialect hnames hmapped
  rw [hdialect] at hform
  refine ⟨texts, htexts, hname, ?_⟩
  cases hstructure : (s.context.structure? type.name).isSome with
  | true =>
    rw [hstructure] at hform
    cases hform
  | false =>
    rw [hstructure] at hform
    exact (Option.some.inj hform).symm

/-- A conversion is a call of its type. -/
theorem composed_cast (hdialect : s.dialect = dialect)
    (hnames : ∀ entry ∈ s.context.structures, IsIdentifier (flattenDots entry.1)) {type : TypeRef}
    {operand : Expr} {text : String} (h : s.Composed loc text (.cast type operand)) :
    ∃ inner, s.lower loc operand = .ok inner ∧ IsName (typeName type) ∧
      text = callText (typeName type) [inner] := by
  obtain ⟨mapped, inner, hmapped, hinner, hform⟩ := h
  obtain ⟨rfl, hname, -⟩ := scalarType_ok hdialect hnames hmapped
  rw [hdialect] at hform
  exact ⟨inner, hinner, hname, (Option.some.inj hform).symm⟩

/-- A call of a program function or of a library function. -/
theorem phrase_call (hdialect : s.dialect = dialect) {function : String} {arguments : List Expr}
    {texts : List String} {text : String}
    (hname : (s.code.function? function).isSome → IsIdentifier function)
    (hseated : (Expr.call function arguments).Seated s) (hsay : AllSay s loc arguments)
    (htexts : s.lowerAll loc arguments = .ok texts)
    (h : s.ComposedCall function arguments texts text) :
    Cast.Phrase (isType s.context) .suffixed text (image s (.call function arguments)) := by
  rw [image]
  rcases h with ⟨hknown, rfl⟩ | ⟨hunknown, form, hform, happly⟩
  · obtain ⟨f, hf⟩ := Option.isSome_iff_exists.1 hknown
    rw [hf, hdialect, dialect_correct]
    exact .callNamed (isName_corrected (hname hknown)) (hsay.phrases htexts)
  · rw [hdialect] at hform
    rw [hunknown]
    refine phrase_library hform (hsay.arguments htexts) (fun hsample a ha t ht => ?_) happly
    have hlowered := hsay.texts htexts
    cases hlowered with
    | nil => cases ha
    | cons htexture _ =>
      obtain rfl := Option.some.inj ha
      obtain rfl := Option.some.inj ht
      obtain ⟨hzero, hnumber⟩ := hseated hsample hunknown
      exact ⟨htexture.base hzero, isNumber_image hnumber⟩

/-- **One step:** if the texts of all operands are read as their images and no suffix is put on a default
value, the text of the whole is read as its image. -/
theorem says_of_operands (hdialect : s.dialect = dialect) {e : Expr} (hreadable : Readable s e)
    (hseated : e.Seated s) (hsay : AllSay s loc e.operands) {text : String}
    (h : s.lower loc e = .ok text) :
    Says (isType s.context) e.isCompound e.isZero text (image s e) := by
  have hlegible := hreadable.parts e .self
  have hcomposed := composed_of_lower h
  clear h
  cases e with
  | literal value => exact says_literal hcomposed _
  | localVar name =>
    obtain rfl := hcomposed
    rw [hdialect, dialect_correct]
    exact .of_suffixed (.name (isName_corrected hlegible))
  | resource name =>
    obtain ⟨r, hr, rfl⟩ := hcomposed
    rw [hdialect, dialect_resourceReference, resource?_name hr]
    exact .of_suffixed (.name (isName_corrected hlegible))
  | member base type name =>
    obtain ⟨owner, field, howner, hfield, rfl⟩ := hcomposed
    obtain ⟨rfl, hname⟩ := lowerMember_ok hdialect hlegible.1 hfield
    have hbase := hsay.base List.mem_cons_self hseated howner
    have hnumber : base.isBareNumber = false := by rw [Expr.isBareNumber, hlegible.2, Bool.false_and]
    exact .of_suffixed (hbase.member (Tree.ne_number (isNumber_image hnumber)) hname)
  | staticMember type name =>
    have hstatic : s.dialect.identifiers.static? type.name name = some text := hcomposed
    rw [hdialect] at hstatic
    exact .of_suffixed (phrase_static hstatic)
  | index base i =>
    obtain ⟨owner, position, howner, hposition, rfl⟩ := hcomposed
    have hi := hsay i (List.mem_cons_of_mem _ List.mem_cons_self) position hposition
    exact .of_suffixed ((hsay.base List.mem_cons_self hseated howner).index hi.expression)
  | unary op operand =>
    obtain ⟨inner, hinner, rfl⟩ := hcomposed
    cases hop : op.followsOperand with
    | true =>
      have hbase := hsay.base List.mem_cons_self (hseated hop) hinner
      exact .of_compound (hbase.trailing op hop).expression rfl
    | false =>
      have hunary := Cast.Phrase.leading op hop (hsay.operand List.mem_cons_self hinner)
      exact .of_compound (hunary.ofOperand (by decide) (Nat.le_refl _)) rfl
  | binary op left right =>
    obtain ⟨a, b, ha, hb, rfl⟩ := hcomposed
    rw [operator_eq hdialect]
    have hleft := hsay.operand List.mem_cons_self ha
    have hright := hsay.operand (List.mem_cons_of_mem _ List.mem_cons_self) hb
    exact .of_compound (.binary op hleft hright) rfl
  | conditional condition accept reject =>
    obtain ⟨c, a, r, hc, ha, hr, rfl⟩ := hcomposed
    have hcondition := hsay.operand List.mem_cons_self hc
    have haccept := hsay.operand (List.mem_cons_of_mem _ List.mem_cons_self) ha
    have hreject := hsay.operand (by simp [Expr.operands]) hr
    have hwhole := Cast.Phrase.conditional
      (hcondition.lower (by decide) (Nat.le_refl _)).phrase
      (haccept.phrase.ofOperand (by decide) (Nat.le_refl _))
      (hreject.phrase.ofOperand (by decide) (Nat.le_refl _))
    exact .of_compound hwhole rfl
  | call function arguments =>
    obtain ⟨texts, htexts, hcall⟩ := hcomposed
    exact .of_suffixed (phrase_call hdialect hlegible hseated hsay htexts hcall)
  | construct type arguments =>
    cases arguments with
    | nil =>
      obtain ⟨rfl, hname, hword⟩ := zero_ok hdialect hreadable.structures hcomposed
      have hzero : IsNumeral "0" := by decide
      exact .of_cast (.cast _ hname.1 hword (Cast.Phrase.number hzero).unsigned.phrase)
    | cons first rest =>
      obtain ⟨texts, htexts, hname, rfl⟩ := composed_construct hdialect hreadable.structures hcomposed
      exact .of_suffixed (.callNamed hname (hsay.phrases htexts))
  | cast type operand =>
    obtain ⟨inner, hinner, hname, rfl⟩ := composed_cast hdialect hreadable.structures hcomposed
    have hoperand := hsay operand List.mem_cons_self inner hinner
    have hcall := Cast.Phrase.callNamed hname (.cons hoperand.expression .nil)
    exact .of_compound hcall.expression rfl

/-- **Texts without suffixes on default values are read as the images.** -/
theorem says_image (hdialect : s.dialect = dialect) {e : Expr} (hreadable : Readable s e)
    (hseated : ∀ x : Expr, x.Part e → x.Seated s) {text : String} (h : s.lower loc e = .ok text) :
    Says (isType s.context) e.isCompound e.isZero text (image s e) := by
  induction e using Expr.operands_induction generalizing text with
  | _ e ih =>
    refine says_of_operands hdialect hreadable (hseated e .self) (fun o ho otext hotext => ?_) h
    exact ih o ho (hreadable.operand ho) (fun x hx => hseated x (.operand ho hx)) hotext

/-! ## Suffixes on default values -/

/-- The text of a default value, also as an operand. -/
theorem operand_of_isZero (hdialect : s.dialect = dialect)
    (hnames : ∀ entry ∈ s.context.structures, IsIdentifier (flattenDots entry.1)) {e : Expr}
    (hzero : e.isZero = true) {text : String} (h : s.IsOperand loc e text) :
    ∃ type, text = "(" ++ type ++ ")" ++ "0" ∧ IsIdentifier type ∧
      isType s.context type.toList = true := by
  obtain ⟨inner, hinner, rfl⟩ := h
  unfold Expr.isZero at hzero
  split at hzero
  · rename_i type
    obtain ⟨rfl, hname, hword⟩ := zero_ok hdialect hnames (composed_of_lower hinner)
    exact ⟨typeName type, rfl, hname.1, hword⟩
  · cases hzero

/-- What stands behind a default value belongs to its zero: the whole is a cast, or an operation that starts
with it. -/
theorem isOperation_behind_zero (hdialect : s.dialect = dialect)
    (hnames : ∀ entry ∈ s.context.structures, IsIdentifier (flattenDots entry.1)) {e : Expr}
    (hzero : e.isZero = true) {text suffix : String} (h : s.IsOperand loc e text) {ts : List Token}
    (hts : tokens (text ++ suffix) = some ts) {t : Tree}
    (hderives : Cast.Derives (isType s.context) .expression ts t) : Cast.IsOperation t := by
  obtain ⟨type, rfl, htype, hword⟩ := operand_of_isZero hdialect hnames hzero h
  rw [String.append_assoc] at hts
  exact hderives.isOperation (Cast.startsCast_of_tokens htype hword hts)

/-- The text of a number that stands without parentheses. -/
theorem isConstant_of_isBareNumber (hdialect : s.dialect = dialect) {e : Expr}
    (hnumber : e.isBareNumber = true) {text : String} (h : s.IsOperand loc e text) :
    IsConstant text := by
  obtain ⟨inner, hinner, rfl⟩ := h
  rw [Expr.isBareNumber, Bool.and_eq_true, Bool.not_eq_true'] at hnumber
  obtain ⟨hnumeric, hbare⟩ := hnumber
  rw [hbare]
  have hcomposed := composed_of_lower hinner
  unfold Expr.isNumeric at hnumeric
  split at hnumeric
  case h_5 => cases hnumeric
  case h_4 type name =>
    have hall : ∀ entry ∈ identifiers.statics.entries, entry.1.1 = Host.math →
        IsConstant entry.2 := by decide
    have hstatic : s.dialect.identifiers.static? type.name name = some inner := hcomposed
    rw [hdialect] at hstatic
    exact hall _ (Table.mem_of_get? hstatic) (by simpa using hnumeric)
  all_goals
    have hcases := Literal.lower_cases hcomposed
    obtain ⟨_, hbool, -⟩ | ⟨-, -, hconstant⟩ | ⟨_, hnegative, -⟩ := hcases
    · cases hbool
    · exact hconstant
    · cases hnegative.symm.trans hbare

/-- The text of a sample starts with its texture. -/
theorem composed_sample (hdialect : s.dialect = dialect) {arguments : List Expr}
    {texts : List String} {text : String}
    (hunknown : s.code.function? (builtin "Sample") = none)
    (htexts : s.lowerAll loc arguments = .ok texts)
    (h : s.ComposedCall (builtin "Sample") arguments texts text) :
    ∃ texture sampler coordinates owner inner, arguments = [texture, sampler, coordinates] ∧
      s.IsOperand loc texture owner ∧ text = owner ++ "." ++ callText "Sample" inner := by
  rcases h with ⟨hknown, -⟩ | ⟨-, form, hform, happly⟩
  · rw [hunknown] at hknown
    cases hknown
  · rw [hdialect] at hform
    have hsample : form = sample := (Option.some.inj hform).symm
    rw [hsample] at happly
    obtain ⟨a, b, c, harguments, rfl⟩ := sample_ok happly
    have hlowered := lowerAll_ok htexts
    clear htexts happly
    obtain _ | ⟨htexture, _ | ⟨_, _ | ⟨_, _ | _⟩⟩⟩ := hlowered
    all_goals cases harguments
    exact ⟨_, _, _, _, _, rfl, ⟨_, htexture, rfl⟩, rfl⟩

/-- **A suffix on a default value is misread,** and so is a method of a number. -/
theorem misread (hdialect : s.dialect = dialect) {e : Expr} (hreadable : Readable s e)
    (hseated : ¬ e.Seated s) {text : String} (h : s.lower loc e = .ok text) {ts : List Token}
    (hts : tokens text = some ts) :
    ¬ Cast.Derives (isType s.context) .expression ts (image s e) := by
  intro hderives
  have hnames := hreadable.structures
  have hcomposed := composed_of_lower h
  clear h
  cases e with
  | member base type name =>
    obtain ⟨owner, field, howner, -, rfl⟩ := hcomposed
    rw [String.append_assoc] at hts
    have hoperation := isOperation_behind_zero hdialect hnames (eq_true_of_ne_false hseated) howner
      hts hderives
    cases hoperation
  | index base i =>
    obtain ⟨owner, position, howner, -, rfl⟩ := hcomposed
    rw [String.append_assoc, String.append_assoc] at hts
    have hoperation := isOperation_behind_zero hdialect hnames (eq_true_of_ne_false hseated) howner
      hts hderives
    cases hoperation
  | unary op operand =>
    obtain ⟨inner, hinner, rfl⟩ := hcomposed
    obtain ⟨hop, hzero⟩ := Classical.not_imp.1 hseated
    rw [UnaryOp.apply, if_pos hop] at hts
    have hoperation := isOperation_behind_zero hdialect hnames (eq_true_of_ne_false hzero) hinner
      hts hderives
    cases hoperation
  | call function arguments =>
    cases arguments with
    | nil => exact hseated trivial
    | cons texture rest =>
      obtain ⟨rfl, hrest⟩ := Classical.not_imp.1 hseated
      obtain ⟨hunknown, hbase⟩ := Classical.not_imp.1 hrest
      obtain ⟨texts, htexts, hcall⟩ := hcomposed
      obtain ⟨_, sampler, coordinates, owner, inner, heq, howner, rfl⟩ :=
        composed_sample hdialect hunknown htexts hcall
      cases heq
      cases hzero : texture.isZero with
      | true =>
        rw [String.append_assoc] at hts
        have hoperation := isOperation_behind_zero hdialect hnames hzero howner hts hderives
        rw [image, hunknown] at hoperation
        cases hoperation
      | false =>
        have hnumber : texture.isBareNumber = true :=
          eq_true_of_ne_false fun hbare => hbase ⟨hzero, hbare⟩
        have hconstant := isConstant_of_isBareNumber hdialect hnumber howner
        have hmethod : callText "Sample" inner =
            "Sample" ++ "(" ++ (String.intercalate ", " inner ++ ")") := by
          rw [callText, String.append_assoc]
        have hnone := hconstant.tokens_method "Sample" (by decide) (by decide)
          (String.intercalate ", " inner ++ ")")
        rw [hmethod, hnone] at hts
        cases hts
  | literal | localVar | resource | staticMember | binary | conditional | construct | cast =>
    exact hseated trivial

end Lowering

end Hlsl

end CrossShader

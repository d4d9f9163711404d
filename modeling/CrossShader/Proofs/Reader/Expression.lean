import CrossShader.Proofs.Lowering
import CrossShader.Proofs.Reader.Constant
import CrossShader.Proofs.Reader.Vocabulary

/-!
# Reading expressions back

The text of an expression on GLSL is read as the expression's image.

* `Says` — how the text of an expression is read, on its own and as an operand.
* `Glsl.says_literal`, `Glsl.phrase_zero`, `Glsl.phrase_library` — literals, default values and library calls.
* `Glsl.says_of_operands` — what holds of the texts of all operands holds of the whole text.
* `Glsl.says_image`, `Glsl.lowered_text_reads_back` — the text of every readable expression is read as its
  image.
-/

set_option autoImplicit false

namespace CrossShader

open Reader Text

/-- A text is read as a tree; where it stands without parentheses as an operand, no operator around it
can take it apart. -/
structure Says (compound : Bool) (text : String) (t : Tree) : Prop where
  expression : Phrase .expression text t
  operand : compound = false → Phrase .suffixed text t

namespace Says

variable {compound : Bool} {text : String} {t : Tree}

theorem of_suffixed (h : Phrase .suffixed text t) : Says compound text t :=
  ⟨h.expression, fun _ => h⟩

theorem of_compound (h : Phrase .expression text t) : Says true text t := ⟨h, nofun⟩

/-- **Parentheses stand where they are needed.** -/
theorem parenthesized (h : Says compound text t) : Phrase .suffixed (parenthesize compound text) t := by
  cases compound with
  | false => exact h.operand rfl
  | true => exact h.expression.group

end Says

namespace Glsl

/-! ## Literals -/

theorem phrase_negated {text : String} (h : IsNumeral text) :
    Phrase .expression ("-" ++ text) (.unary .negate (.number text)) :=
  (Phrase.unary .negate (Phrase.number h)).ofOperand (by decide) (Nat.le_refl _)

/-- **Literals.** -/
theorem says_literal {loc : Location} {value : Literal} {text : String}
    (h : value.lower loc = .ok text) : Says value.isNegative text value.image := by
  rcases Literal.lower_cases h with ⟨truth, rfl, rfl⟩ | ⟨hnegative, himage, hconstant⟩ |
    ⟨magnitude, hnegative, hconstant, rfl, himage⟩
  · have hfalse : IsIdentifier "false" := by decide
    have htrue : IsIdentifier "true" := by decide
    cases truth with
    | false => exact .of_suffixed (Phrase.word hfalse)
    | true => exact .of_suffixed (Phrase.word htrue)
  · rw [hnegative, himage]
    exact .of_suffixed (Phrase.number hconstant.1)
  · rw [hnegative, himage]
    exact .of_compound (phrase_negated hconstant.1)

/-! ## Types and default values -/

theorem forall₂_replicate {α β : Type} {R : α → β → Prop} {a : α} {b : β} (h : R a b) (n : Nat) :
    List.Forall₂ R (List.replicate n a) (List.replicate n b) := by
  induction n with
  | zero => exact .nil
  | succ n ih => exact .cons h ih

section Types

variable {version : Version} {c : Context} (hdialect : c.dialect = dialect version)
  (hnames : ∀ entry ∈ c.structures, IsIdentifier (flattenDots entry.1))

include hdialect hnames

theorem mappedType_ok {type : TypeRef} {mapped : String} (h : c.mappedType type = .ok mapped) :
    mapped = typeName version type ∧ IsName mapped := by
  have hcases := mappedType_cases h
  rw [hdialect, dialect_mapType, dialect_structureTypeName] at hcases
  unfold typeName
  rcases hcases with htype | ⟨htype, hmapped, definition, hentry⟩
  · rw [htype]
    exact ⟨rfl, isName_types htype⟩
  · rw [htype, hmapped]
    exact ⟨Option.getD_none.symm, isName_correct (hnames (type.name, definition) hentry)⟩

theorem scalarType_ok {loc : Location} {type : TypeRef} {mapped : String}
    (h : c.scalarType loc type = .ok mapped) : mapped = typeName version type ∧ IsName mapped :=
  mappedType_ok hdialect hnames (mappedType_of_scalarType h)

/-- **Default values**, by the structures that they may consist of. -/
theorem phrase_zero {loc : Location} {structures : List (String × Structure)} {type : TypeRef}
    {text : String} (h : c.zeroValueFrom loc structures type = .ok text) :
    Phrase .suffixed text (zeroImage version structures type) := by
  induction structures generalizing type text with
  | nil =>
    obtain ⟨mapped, hmapped, hzero⟩ := zeroValueFrom_ok.1 h
    obtain ⟨rfl, hname⟩ := scalarType_ok hdialect hnames hmapped
    rw [hdialect, dialect_zeroValue] at hzero
    cases hzero
    exact phrase_constant _ "0" hname (by decide)
  | cons entry earlier ih =>
    unfold zeroImage
    obtain ⟨htype, h⟩ | ⟨htype, mapped, hmapped, hform⟩ := zeroValueFrom_ok.1 h
    · rw [if_neg htype]
      exact ih h
    rw [if_pos htype]
    obtain ⟨rfl, hname⟩ := scalarType_ok hdialect hnames hmapped
    -- a structure has no zero of its own, so its fields follow
    rw [hdialect, dialect_zeroValue_structure] at hform
    obtain hzero | ⟨-, texts, hfields, hconstruct⟩ := hform
    · cases hzero
    rw [dialect_construct] at hconstruct
    cases hconstruct
    refine Phrase.callNamed hname (List.forall₂_map_right_iff.2 ?_)
    refine hfields.flip.imp fun text field hfield => ?_
    obtain ⟨zero, hzero, ⟨harray, rfl⟩ | ⟨harray, element, helement, hconstruct⟩⟩ := hfield
    · rw [if_neg (ne_true_of_eq_false harray)]
      exact (ih hzero).expression
    · obtain ⟨rfl, hname⟩ := scalarType_ok hdialect hnames helement
      rw [hdialect, dialect_construct] at hconstruct
      cases hconstruct
      rw [if_pos harray]
      have hcount := (Phrase.number (isNumeral_natural field.count)).expression
      exact (((Phrase.name hname).index hcount).call
        (forall₂_replicate (ih hzero).expression _)).expression

end Types

/-! ## Library calls -/

theorem phrase_binary (op : BinaryOp) {a b : String} {left right : Tree}
    (ha : Phrase .suffixed a left) (hb : Phrase .suffixed b right) :
    Phrase .expression (op.apply a b) (.binary op left right) := by
  have hlevel := level_lt_unaryLevel op
  have hbinary := Unsigned.binary op (ha.unsigned (by omega)) (hb.unsigned (by omega))
  exact hbinary.phrase.ofOperand (one_le_level op) (by omega)

section Library

variable {version : Version} {arguments : List Argument} {trees : List Tree} {text : String}

theorem phrase_product (harguments : List.Forall₂ (fun a t => Says a.compound a.text t) arguments trees)
    (h : Intrinsic.product.apply arguments = some text) (kind : Option ResourceKind) :
    Phrase .suffixed text (libraryImage version (builtin "Mul") kind trees) := by
  obtain ⟨a, b, rfl, rfl⟩ := product_ok h
  obtain _ | ⟨ha, _ | ⟨hb, ⟨⟩⟩⟩ := harguments
  rw [libraryImage, if_pos rfl]
  exact (phrase_binary .multiply ha.parenthesized hb.parenthesized).group

theorem phrase_saturate (harguments : List.Forall₂ (fun a t => Says a.compound a.text t) arguments trees)
    (h : saturate.apply arguments = some text) (kind : Option ResourceKind) :
    Phrase .suffixed text (libraryImage version (builtin "Saturate") kind trees) := by
  obtain ⟨x, rfl, rfl⟩ := saturate_ok h
  obtain _ | ⟨hx, ⟨⟩⟩ := harguments
  rw [libraryImage, if_pos rfl]
  have hzero : IsNumeral "0.0" := by decide
  have hone : IsNumeral "1.0" := by decide
  exact Phrase.callNamed (by decide) (.cons hx.expression
    (.cons (Phrase.number hzero).expression (.cons (Phrase.number hone).expression .nil)))

theorem phrase_sample (harguments : List.Forall₂ (fun a t => Says a.compound a.text t) arguments trees)
    (h : (if version.separateSamplers then sampleSeparate else sampleCombined).apply arguments =
      some text) :
    Phrase .suffixed text
      (libraryImage version (builtin "Sample") (arguments.head?.bind (·.resource)) trees) := by
  split at h
  · rename_i hseparate
    obtain ⟨a, b, c, combined, rfl, hcombined, rfl⟩ := sampleSeparate_ok h
    obtain _ | ⟨ha, _ | ⟨hb, _ | ⟨hc, ⟨⟩⟩⟩⟩ := harguments
    obtain ⟨rfl, hname⟩ := combinedType_of_some hcombined
    rw [libraryImage, if_pos rfl, sampleImage, if_pos hseparate]
    have hsampler := Phrase.callNamed hname (.cons ha.expression (.cons hb.expression .nil))
    exact Phrase.callNamed (by decide) (.cons hsampler.expression (.cons hc.expression .nil))
  · rename_i hcombined
    obtain ⟨a, b, c, rfl, rfl⟩ := sampleCombined_ok h
    obtain _ | ⟨ha, _ | ⟨hb, _ | ⟨hc, ⟨⟩⟩⟩⟩ := harguments
    rw [libraryImage, if_pos rfl, sampleImage, if_neg hcombined]
    exact Phrase.callNamed (by decide) (.cons ha.expression (.cons hc.expression .nil))

/-- **Library calls.** -/
theorem phrase_library {function : String} {form : Intrinsic}
    (hform : (intrinsics version).get? function = some form)
    (harguments : List.Forall₂ (fun a t => Says a.compound a.text t) arguments trees)
    (h : form.apply arguments = some text) :
    Phrase .suffixed text
      (libraryImage version function (arguments.head?.bind (·.resource)) trees) := by
  rcases intrinsics_cases hform with ⟨target, rfl, htarget⟩ | ⟨rfl, rfl⟩ | ⟨rfl, rfl⟩ | ⟨rfl, rfl⟩
  · rw [libraryImage_rename hform, ← Option.some.inj h]
    refine Phrase.callNamed htarget (List.forall₂_map_left_iff.2 ?_)
    exact harguments.imp fun _ _ ha => ha.expression
  · exact phrase_product harguments h _
  · exact phrase_saturate harguments h _
  · exact phrase_sample harguments h

end Library

/-- **The remainder of floating-point numbers.** -/
theorem phrase_remainder (version : Version) {a b : String} {left right : Tree}
    (ha : Phrase .suffixed a left) (hb : Phrase .suffixed b right) :
    Phrase .expression ((dialect version).floatRemainder a b) (remainderImage left right) := by
  rw [dialect_floatRemainder]
  have htrunc : IsName "trunc" := by decide
  have hwhole := Phrase.callNamed htrunc (.cons (phrase_binary .divide ha hb) .nil)
  -- the product needs no parentheses: it binds more tightly than the difference
  have hproduct := Unsigned.binary .multiply (hb.unsigned (by decide)) (hwhole.unsigned (by decide))
  have hdifference := Unsigned.binary .subtract (ha.unsigned (by decide)) hproduct
  exact hdifference.phrase.ofOperand (by decide) (by decide)

/-! ## Numbers as bases of members -/

theorem staticImage_ne_number {type : String} (h : type ≠ Host.math) (name w : String) :
    staticImage type name ≠ .number w := by
  have hall : ∀ entry ∈ staticImages.entries, entry.1.1 ≠ Host.math → entry.2 ≠ .number w := by
    simp only [staticImages, List.forall_mem_cons]
    exact ⟨fun _ => nofun, fun _ => nofun, fun _ => nofun, fun _ => nofun, fun _ => nofun,
      fun _ => nofun, fun _ => nofun, fun hmath => absurd rfl hmath, fun hmath => absurd rfl hmath,
      nofun⟩
  unfold staticImage
  cases hfound : staticImages.get? (type, name) with
  | none => exact nofun
  | some t => exact hall _ (Table.mem_of_get? hfound) h

theorem zeroImage_ne_number (version : Version) (structures : List (String × Structure))
    (type : TypeRef) (w : String) : zeroImage version structures type ≠ .number w := by
  induction structures with
  | nil => exact nofun
  | cons entry earlier ih =>
    unfold zeroImage
    split
    · exact nofun
    · exact ih

theorem libraryImage_ne_number (version : Version) (function : String)
    (kind : Option ResourceKind) (arguments : List Tree) (w : String) :
    libraryImage version function kind arguments ≠ .number w := by
  have hrenamed : ∀ trees, libraryImage.renamed version function trees ≠ .number w := by
    intro trees
    unfold libraryImage.renamed
    split <;> exact nofun
  unfold libraryImage sampleImage
  repeat' split
  all_goals first | exact hrenamed _ | exact nofun

/-- Only numeric literals and constants are read as bare numbers. -/
theorem image_ne_number {version : Version} {s : Scope} {e : Expr} (h : e.isNumeric = false)
    (w : String) : image version s e ≠ .number w := by
  cases e with
  | literal value =>
    cases value with
    | bool => exact nofun
    | int | uint | float => cases h
  | resource name =>
    simp only [image, resourceImage]
    repeat' split
    all_goals exact nofun
  | staticMember type name => exact staticImage_ne_number (by simpa [Expr.isNumeric] using h) name w
  | binary op left right =>
    simp only [image]
    split <;> exact nofun
  | call function arguments =>
    simp only [image]
    split
    · exact nofun
    · exact libraryImage_ne_number version function _ _ w
  | construct type arguments =>
    cases arguments with
    | nil => exact zeroImage_ne_number version s.context.structures type w
    | cons => exact nofun
  | localVar | member | index | unary | conditional | cast => exact nofun

/-! ## Expressions -/

section Lowering

variable {version : Version} {s : Scope} {loc : Location}

/-- What is known of the texts of some expressions. -/
def AllSay (version : Version) (s : Scope) (loc : Location) (es : List Expr) : Prop :=
  ∀ e ∈ es, ∀ text, s.lower loc e = .ok text → Says e.isCompound text (image version s e)

namespace AllSay

variable {es : List Expr}

theorem operand (hsay : AllSay version s loc es) {e : Expr} (he : e ∈ es) {text : String}
    (h : s.IsOperand loc e text) : Phrase .suffixed text (image version s e) := by
  obtain ⟨inner, hinner, rfl⟩ := h
  exact (hsay e he inner hinner).parenthesized

theorem texts (hsay : AllSay version s loc es) {texts : List String}
    (h : s.lowerAll loc es = .ok texts) :
    List.Forall₂ (fun e text => Says e.isCompound text (image version s e)) es texts := by
  have htexts := lowerAll_ok h
  clear h
  induction htexts with
  | nil => exact .nil
  | cons htext _ ih =>
    exact .cons (hsay _ List.mem_cons_self _ htext) (ih fun e he => hsay e (List.mem_cons_of_mem _ he))

theorem phrases (hsay : AllSay version s loc es) {texts : List String}
    (h : s.lowerAll loc es = .ok texts) :
    List.Forall₂ (Phrase .expression) texts (images version s es) := by
  rw [images_eq_map, List.forall₂_map_right_iff]
  exact (hsay.texts h).flip.imp fun _ _ htext => htext.expression

/-- The arguments of a library call. -/
theorem arguments (hsay : AllSay version s loc es) {texts : List String}
    (h : s.lowerAll loc es = .ok texts) :
    List.Forall₂ (fun a t => Says a.compound a.text t) (List.zipWith s.argument es texts)
      (images version s es) := by
  rw [images_eq_map]
  have htexts := hsay.texts h
  clear hsay h
  induction htexts with
  | nil => exact .nil
  | cons htext _ ih => exact .cons htext ih

end AllSay

/-- The first argument of a library call keeps the kind of its resource. -/
theorem head?_resource {R : Expr → String → Prop} {es : List Expr} {texts : List String}
    (h : List.Forall₂ R es texts) :
    (List.zipWith s.argument es texts).head?.bind (·.resource) = es.head?.bind (resourceKind s) := by
  cases h with
  | nil => rfl
  | @cons e _ _ _ _ _ => cases e <;> rfl

theorem phrase_resource {name : String} {r : Resource} (hname : IsIdentifier name)
    (hr : s.code.resource? name = some r) :
    Phrase .suffixed ((dialect version).resourceReference r) (resourceImage s name) := by
  have hrname := resource?_name hr
  rw [resourceImage, hr, dialect_resourceReference, hrname]
  refine Phrase.name ?_
  split
  · exact isName_blockMember (hrname ▸ hname)
  · exact isName_correct hname

/-- The name of a member is spelled as its image has it. -/
theorem lowerMember_ok (hdialect : s.dialect = dialect version) {type name field : String}
    (hname : IsIdentifier name) (h : s.lowerMember loc type name = .ok field) :
    field = memberName s type name ∧ IsIdentifier field := by
  unfold memberName
  obtain ⟨definition, found, hdefinition, -, rfl⟩ | ⟨hdefinition, hmember⟩ := lowerMember_cases h
  · rw [hdefinition, hdialect, dialect_correct]
    exact ⟨rfl, (isName_correct hname).1⟩
  · rw [hdialect, dialect_mapMember] at hmember
    rw [hdefinition, hmember]
    exact ⟨rfl, isIdentifier_member hmember⟩

/-- A binary operator, or the form that the remainder of floating-point numbers takes. -/
theorem phrase_operator (hdialect : s.dialect = dialect version) {op : BinaryOp} {left right : Expr}
    {a b : String} (ha : Phrase .suffixed a (image version s left))
    (hb : Phrase .suffixed b (image version s right)) :
    Phrase .expression (if op = .modulo then s.remainder left right a b else op.apply a b)
      (image version s (.binary op left right)) := by
  rw [image]
  by_cases hop : op = .modulo
  · rw [if_pos hop, Scope.remainder]
    by_cases hfloat : (s.isFloat left || s.isFloat right) = true
    · rw [if_pos hfloat, if_pos ⟨hop, hfloat⟩, hdialect]
      exact phrase_remainder version ha hb
    · rw [if_neg hfloat, if_neg (fun hboth => hfloat hboth.2), hop]
      exact phrase_binary .modulo ha hb
  · rw [if_neg hop, if_neg (fun hboth => hop hboth.1)]
    exact phrase_binary op ha hb

/-- A call of a program function or of a library function. -/
theorem phrase_call (hdialect : s.dialect = dialect version) {function : String}
    {arguments : List Expr} {texts : List String} {text : String}
    (hname : (s.code.function? function).isSome → IsIdentifier function)
    (hsay : AllSay version s loc arguments) (htexts : s.lowerAll loc arguments = .ok texts)
    (h : s.ComposedCall function arguments texts text) :
    Phrase .suffixed text (image version s (.call function arguments)) := by
  rw [image]
  rcases h with ⟨hknown, rfl⟩ | ⟨hunknown, form, hform, happly⟩
  · obtain ⟨f, hf⟩ := Option.isSome_iff_exists.1 hknown
    rw [hf, hdialect, dialect_correct]
    exact Phrase.callNamed (isName_correct (hname hknown)) (hsay.phrases htexts)
  · rw [hdialect] at hform
    have hcall := phrase_library hform (hsay.arguments htexts) happly
    rw [head?_resource (lowerAll_ok htexts)] at hcall
    rw [hunknown]
    exact hcall

/-- **One step:** if the texts of all operands are read as their images, the text of the whole is. -/
theorem says_of_operands (hdialect : s.dialect = dialect version) {e : Expr}
    (hreadable : Readable s e) (hsay : AllSay version s loc e.operands) {text : String}
    (h : s.lower loc e = .ok text) : Says e.isCompound text (image version s e) := by
  have hlegible := hreadable.parts e .self
  have hcomposed := composed_of_lower h
  clear h
  cases e with
  | literal value => exact says_literal hcomposed
  | localVar name =>
    obtain rfl := hcomposed
    rw [hdialect, dialect_correct]
    exact .of_suffixed (Phrase.name (isName_correct hlegible))
  | resource name =>
    obtain ⟨r, hr, rfl⟩ := hcomposed
    rw [hdialect]
    exact .of_suffixed (phrase_resource hlegible hr)
  | member base type name =>
    obtain ⟨owner, field, howner, hfield, rfl⟩ := hcomposed
    obtain ⟨rfl, hname⟩ := lowerMember_ok hdialect hlegible.1 hfield
    have hbase := hsay.operand List.mem_cons_self howner
    exact .of_suffixed (hbase.member (image_ne_number hlegible.2) hname)
  | staticMember type name =>
    have hstatic : s.dialect.identifiers.static? type.name name = some text := hcomposed
    rw [hdialect] at hstatic
    exact .of_suffixed (phrase_static hstatic)
  | index base i =>
    obtain ⟨owner, position, howner, hposition, rfl⟩ := hcomposed
    have hi := hsay i (List.mem_cons_of_mem _ List.mem_cons_self) position hposition
    exact .of_suffixed ((hsay.operand List.mem_cons_self howner).index hi.expression)
  | unary op operand =>
    obtain ⟨inner, hinner, rfl⟩ := hcomposed
    have hunary := Phrase.unary op (hsay.operand List.mem_cons_self hinner)
    exact .of_compound (hunary.ofOperand (by decide) (Nat.le_refl _))
  | binary op left right =>
    obtain ⟨a, b, ha, hb, rfl⟩ := hcomposed
    have hleft := hsay.operand List.mem_cons_self ha
    have hright := hsay.operand (List.mem_cons_of_mem _ List.mem_cons_self) hb
    exact .of_compound (phrase_operator hdialect hleft hright)
  | conditional condition accept reject =>
    obtain ⟨c, a, r, hc, ha, hr, rfl⟩ := hcomposed
    have hcondition := hsay.operand List.mem_cons_self hc
    have haccept := hsay.operand (List.mem_cons_of_mem _ List.mem_cons_self) ha
    have hreject := hsay.operand (by simp [Expr.operands]) hr
    exact .of_compound (Phrase.conditional (hcondition.ofSuffixed.lower (by decide) (Nat.le_refl _))
      haccept.expression hreject.expression)
  | call function arguments =>
    obtain ⟨texts, htexts, hcall⟩ := hcomposed
    exact .of_suffixed (phrase_call hdialect hlegible hsay htexts hcall)
  | construct type arguments =>
    cases arguments with
    | nil => exact .of_suffixed (phrase_zero hdialect hreadable.structures hcomposed)
    | cons first rest =>
      obtain ⟨mapped, texts, hmapped, htexts, hform⟩ := hcomposed
      obtain ⟨rfl, hname⟩ := scalarType_ok hdialect hreadable.structures hmapped
      rw [hdialect, dialect_construct] at hform
      obtain rfl := Option.some.inj hform
      exact .of_suffixed (Phrase.callNamed hname (hsay.phrases htexts))
  | cast type operand =>
    obtain ⟨mapped, inner, hmapped, hinner, hform⟩ := hcomposed
    obtain ⟨rfl, hname⟩ := scalarType_ok hdialect hreadable.structures hmapped
    rw [hdialect, dialect_construct] at hform
    obtain rfl := Option.some.inj hform
    have hoperand := hsay operand List.mem_cons_self inner hinner
    exact .of_suffixed (Phrase.callNamed hname (.cons hoperand.expression .nil))

/-- **Every text of an expression is read as the expression's image.** -/
theorem says_image (hdialect : s.dialect = dialect version) {e : Expr} (hreadable : Readable s e)
    {text : String} (h : s.lower loc e = .ok text) :
    Says e.isCompound text (image version s e) := by
  induction e using Expr.operands_induction generalizing text with
  | _ e ih =>
    refine says_of_operands hdialect hreadable (fun o ho otext hotext => ?_) h
    exact ih o ho (hreadable.operand ho) hotext

end Lowering

/-- **Lowering keeps the tree.**  On every version of GLSL, the text of an expression has tokens that the
grammar derives for exactly one tree, and that tree, which the parser finds, is the expression's
image. -/
theorem lowered_text_reads_back (version : Version) (s : Scope) (hdialect : s.dialect = dialect version)
    (loc : Location) (e : Expr) (hreadable : Readable s e) (text : String)
    (h : s.lower loc e = .ok text) :
    read text = some (image version s e) ∧
      ∃ ts, tokens text = some ts ∧ ∀ t, Derives .expression ts t ↔ t = image version s e := by
  have hphrase := (says_image hdialect hreadable h).expression
  obtain ⟨ts, hts, hderives⟩ := hphrase
  refine ⟨Phrase.read ⟨ts, hts, hderives⟩, ts, hts, fun t => ⟨fun ht => ?_, fun ht => ht ▸ hderives⟩⟩
  exact Option.some.inj ((parse_eq_some_iff.2 ht).symm.trans (parse_eq_some_iff.2 hderives))

/-- A scope with a separate texture and sampler, a structure that holds an array, and a local whose name
is a reserved word. -/
def sampling : Scope where
  context :=
    { dialect := dialect .core450
      code := ⟨⟨[⟨"albedo", .texture2D, 0, none⟩, ⟨"nearest", .sampler, 1, none⟩]⟩, .empty⟩
      structures := [("Scene.Light", ⟨"Scene.Light", [
        { name := "power", type := ⟨Host.float, false⟩, count := 2 },
        { name := "color", type := ⟨Host.vector3, false⟩ }]⟩)] }
  stage := .fragment
  locals := [("x", ⟨Host.float, false⟩), ("out", ⟨Host.float, false⟩), ("uv", ⟨Host.vector2, false⟩)]

/-- A choice between a floating-point remainder and a product of an element of a default value with a
component of a sample. -/
def blend : Expr :=
  .conditional
    (.binary .less (.localVar "x") (.literal (.float ⟨0xBF000000⟩)))
    (.binary .modulo (.binary .subtract (.localVar "x") (.localVar "out"))
      (.unary .negate (.localVar "x")))
    (.binary .multiply
      (.index (.member (.construct ⟨"Scene.Light", false⟩ []) ⟨"Scene.Light", false⟩ "power")
        (.literal (.int 1)))
      (.member (.call (builtin "Sample") [.resource "albedo", .resource "nearest", .localVar "uv"])
        ⟨Host.vector4, false⟩ "X"))

/-- The text of `blend`. -/
def blendText : String :=
  "(x < (-0.5)) ? ((x - out_) - (-x) * trunc((x - out_) / (-x))) : " ++
    "(Scene_Light(float[2](float(0), float(0)), vec3(0)).power[1] * " ++
    "texture(sampler2D(albedo, nearest), uv).x)"

/-- The tree of `blendText`. -/
def blendTree : Tree :=
  let x := Tree.name "x"
  let negated := Tree.unary .negate x
  let difference := Tree.binary .subtract x (.name "out_")
  let zero := fun type => callNamed type [.number "0"]
  let light := callNamed "Scene_Light"
    [.call (.index (.name "float") (.number "2")) [zero "float", zero "float"], zero "vec3"]
  let sample := callNamed "texture"
    [callNamed "sampler2D" [.name "albedo", .name "nearest"], .name "uv"]
  .conditional (.binary .less x (.unary .negate (.number "0.5")))
    (.binary .subtract difference
      (.binary .multiply negated (callNamed "trunc" [.binary .divide difference negated])))
    (.binary .multiply (.index (.member light "power") (.number "1")) (.member sample "x"))

theorem lowered_text_reads_back_blend :
    Readable sampling blend ∧ sampling.lower .unknown blend = .ok blendText ∧
      read blendText = some blendTree := by
  have hlegible : ∀ x ∈ blend.nodes, x.Legible sampling := by decide
  have hreadable : Readable sampling blend :=
    ⟨fun x hx => hlegible x (Expr.mem_nodes_iff_part.2 hx), by decide⟩
  have htext : sampling.lower .unknown blend = .ok blendText := by decide +kernel
  have hread :=
    (lowered_text_reads_back .core450 sampling rfl .unknown blend hreadable blendText htext).1
  exact ⟨hreadable, htext, hread⟩

end Glsl

end CrossShader

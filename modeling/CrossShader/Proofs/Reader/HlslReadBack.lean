import CrossShader.Proofs.Reader.HlslExpression
import CrossShader.Proofs.Reader.Pieces

/-!
# Which texts are read back on HLSL

The text of an expression is read as the expression's image exactly if no suffix is put on a default value
anywhere in it.  Behind a misread part, the text is still read as some tree, or it has no tokens at all; that
tree is followed outward, and what is put around it never turns it into the image again.

* `Hlsl.Stem`, `Hlsl.Base` — what a suffix goes to, and what it is put on; `Hlsl.Stray` — where they differ.
* `Hlsl.Heard` — some tree that a text is read as; `Hlsl.heard_of_operands` — what is heard of the operands
  makes what is heard of the whole, and the whole tells the operands apart.
* `Hlsl.starts_operand` — operands start with no sign.
* `Hlsl.text_reads_back_iff_seated` — texts that are read back.
-/

set_option autoImplicit false

namespace CrossShader

open Reader Text

namespace Hlsl

open Glsl (builtin callNamed)

variable {types : List Char → Bool}

/-! ## Bases -/

/-- What a suffix goes to: a phrase that is no number, or a constant. -/
inductive Stem (types : List Char → Bool) : String → Tree → Prop
  | phrase {text : String} {t : Tree} (h : Cast.Phrase types .suffixed text t)
      (hnumber : t.isNumber = false) : Stem types text t
  | constant {text : String} (h : IsConstant text) : Stem types text (.number text)

/-- What a suffix is put on: a stem, or a cast of one. -/
inductive Base (types : List Char → Bool) : String → Tree → Prop
  | stem {text : String} {t : Tree} (h : Stem types text t) : Base types text t
  | cast {type text : String} {t : Tree} (htype : IsIdentifier type)
      (hword : types type.toList = true) (h : Stem types text t) :
      Base types ("(" ++ type ++ ")" ++ text) (Cast.castTree type t)

/-- Trees that have no suffix outside: a number has taken it, or a cast stands before it. -/
def Stray (t : Tree) : Prop := (∃ w, t = .number w) ∨ ∃ type operand, t = Cast.castTree type operand

theorem Stem.suffixed {text : String} {t : Tree} (h : Stem types text t) :
    Cast.Phrase types .suffixed text t := by
  cases h with
  | phrase h => exact h
  | constant h => exact .number h.1

namespace Base

variable {text : String} {t : Tree}

theorem unsigned (h : Base types text t) : Cast.Unsigned types (.operand unaryLevel) text t := by
  cases h with
  | stem h => exact h.suffixed.unsigned
  | cast htype hword h => exact .cast _ htype hword h.suffixed.unsigned.phrase

theorem expression (h : Base types text t) : Cast.Phrase types .expression text t :=
  h.unsigned.phrase.ofOperand (by decide) (Nat.le_refl _)

/-- **A suffix goes to the stem**, also from outside of a cast. -/
theorem behind {suffix : String} {f : Tree → Tree}
    (hstem : ∀ text t, Stem types text t → Scans (text ++ suffix) →
      ∃ t', Stem types (text ++ suffix) t' ∧ (t' = f t ∨ Stray t'))
    (h : Base types text t) (hscans : Scans (text ++ suffix)) :
    ∃ t', Base types (text ++ suffix) t' ∧ (t' = f t ∨ Stray t') := by
  cases h with
  | stem h =>
    obtain ⟨t', ht', hshape⟩ := hstem _ _ h hscans
    exact ⟨t', .stem ht', hshape⟩
  | @cast type inner u htype hword h =>
    obtain ⟨ts, hts⟩ := hscans
    rw [String.append_assoc] at hts ⊢
    rw [Cast.tokens_behind_cast htype] at hts
    obtain ⟨us, hus, -⟩ := Option.map_eq_some_iff.1 hts
    obtain ⟨t', ht', -⟩ := hstem _ _ h ⟨us, hus⟩
    exact ⟨_, .cast htype hword ht', .inr (.inr ⟨type, t', rfl⟩)⟩

/-- A member; a constant takes its name as digits and a suffix if it can. -/
theorem member {name : String} (hname : IsIdentifier name) (h : Base types text t)
    (hscans : Scans (text ++ ("." ++ name))) :
    ∃ t', Base types (text ++ ("." ++ name)) t' ∧ (t' = .member t name ∨ Stray t') := by
  refine h.behind (f := (.member · name)) (fun a u ha hscans => ?_) hscans
  rw [← String.append_assoc] at hscans ⊢
  cases ha with
  | phrase ha hnumber => exact ⟨_, .phrase (ha.member (Tree.ne_number hnumber) hname) rfl, .inl rfl⟩
  | constant ha =>
    obtain ⟨ts, hts⟩ := hscans
    obtain ⟨first, rest, hletters, hfirst, hrest⟩ := isIdentifier_iff.1 hname
    have hwords : name.toList.all isWordChar = true := by
      rw [hletters, List.all_cons, isWordChar_of_isWordStart hfirst]
      exact hrest
    exact ⟨_, .constant (ha.point hwords hts), .inr (.inl ⟨_, rfl⟩)⟩

theorem index {position : String} {i : Tree} (hi : Cast.Phrase types .expression position i)
    (h : Base types text t) (hscans : Scans (text ++ ("[" ++ (position ++ "]")))) :
    ∃ t', Base types (text ++ ("[" ++ (position ++ "]"))) t' ∧ (t' = .index t i ∨ Stray t') := by
  refine h.behind (f := (.index · i)) (fun a u ha _ => ?_) hscans
  rw [← String.append_assoc, ← String.append_assoc]
  exact ⟨_, .phrase (ha.suffixed.index hi) rfl, .inl rfl⟩

/-- A call of a method; a constant has none. -/
theorem method {texts : List String} {trees : List Tree}
    (harguments : List.Forall₂ (Cast.Phrase types .expression) texts trees) (h : Base types text t)
    (hscans : Scans (text ++ ("." ++ callText "Sample" texts))) :
    ∃ t', Base types (text ++ ("." ++ callText "Sample" texts)) t' ∧
      (t' = .call (.member t "Sample") trees ∨ Stray t') := by
  refine h.behind (f := fun u => .call (.member u "Sample") trees) (fun a u ha hscans => ?_) hscans
  cases ha with
  | phrase ha hnumber =>
    have hmethod := ha.member (Tree.ne_number hnumber) (show IsIdentifier "Sample" by decide)
    have hshape : a ++ ("." ++ callText "Sample" texts) = callText (a ++ "." ++ "Sample") texts := by
      simp only [callText, String.append_assoc]
    rw [hshape]
    exact ⟨_, .phrase (hmethod.call harguments) rfl, .inl rfl⟩
  | constant ha =>
    obtain ⟨ts, hts⟩ := hscans
    have hshape : a ++ ("." ++ callText "Sample" texts) =
        a ++ "." ++ ("Sample" ++ "(" ++ (String.intercalate ", " texts ++ ")")) := by
      simp only [callText, String.append_assoc]
    rw [hshape, ha.tokens_method "Sample" (by decide) (by decide)] at hts
    cases hts

/-- An operator behind its operand. -/
theorem trailing {op : UnaryOp} (hop : op.followsOperand = true) (h : Base types text t) :
    ∃ t', Cast.Phrase types .expression (op.apply text) t' ∧
      (t' = .unary op t ∨ ∃ type operand, t' = Cast.castTree type operand) := by
  cases h with
  | stem h => exact ⟨_, (h.suffixed.trailing op hop).expression, .inl rfl⟩
  | @cast type inner u htype hword h =>
    have hcast := Cast.Unsigned.cast type htype hword (h.suffixed.trailing op hop).unsigned.phrase
    have hshape : op.apply ("(" ++ type ++ ")" ++ inner) = "(" ++ type ++ ")" ++ op.apply inner := by
      simp only [UnaryOp.apply, if_pos hop, String.append_assoc]
    rw [hshape]
    exact ⟨_, hcast.phrase.ofOperand (by decide) (Nat.le_refl _), .inr ⟨type, _, rfl⟩⟩

end Base

/-! ## Texts that are read as anything -/

/-- A text is read as a tree, on its own and as an operand. -/
structure Heard (types : List Char → Bool) (compound : Bool) (text : String) (t : Tree) : Prop where
  expression : Cast.Phrase types .expression text t
  base : Base types (parenthesize compound text) t

namespace Heard

variable {text : String} {t : Tree}

theorem of_base (h : Base types text t) : Heard types false text t := ⟨h.expression, h⟩

theorem of_compound (h : Cast.Phrase types .expression text t) (hword : t.isWord = false)
    (hnumber : t.isNumber = false) : Heard types true text t :=
  ⟨h, .stem (.phrase (h.enclosed hword) hnumber)⟩

theorem presents {a : Argument} (h : Heard types a.compound a.text t) : Presents types a t :=
  ⟨h.expression, h.base.unsigned⟩

end Heard

/-! ## Library calls -/

section Library

variable {function : String} {form : Intrinsic} {arguments : List Argument} {trees : List Tree}
  {text : String}

/-- Library calls with as many arguments differ if the arguments do. -/
theorem libraryImage_inj {others : List Tree} (hlength : trees.length = others.length)
    (h : libraryImage function trees = libraryImage function others) : trees = others := by
  have hrenamed : ∀ ts us, libraryImage.renamed function ts = libraryImage.renamed function us →
      ts = us := by
    intro ts us
    unfold libraryImage.renamed
    split <;> exact fun h => (Tree.call.inj h).2
  unfold libraryImage at h
  split at h
  · obtain ⟨a, b, rfl⟩ := List.length_eq_two.1 hlength.symm
    split at h
    · cases h
      rfl
    · exact hrenamed _ _ h
  · obtain ⟨a, b, c, rfl⟩ := List.length_eq_three.1 hlength.symm
    split at h
    · cases h
      rfl
    · exact hrenamed _ _ h
  · rename_i htwo hthree
    split at h
    · obtain ⟨a, b, rfl⟩ := List.length_eq_two.1 hlength
      exact absurd rfl (htwo a b)
    · obtain ⟨a, b, c, rfl⟩ := List.length_eq_three.1 hlength
      exact absurd rfl (hthree a b c)
    · exact hrenamed _ _ h

/-- The arguments of a library call have tokens if the call has. -/
theorem scans_library (hform : intrinsics.get? function = some form)
    (h : form.apply arguments = some text) (hscans : Scans text) : ∀ a ∈ arguments, Scans a.text := by
  rcases intrinsics_cases hform with ⟨target, rfl, -⟩ | ⟨-, rfl⟩ | ⟨-, rfl⟩
  · obtain rfl := Option.some.inj h
    exact fun a ha => hscans.arguments _ (List.mem_map_of_mem ha)
  · obtain ⟨x, y, rfl, rfl⟩ := flooredRemainder_ok h
    obtain ⟨hx, hproduct⟩ := hscans.enclosed.spaced
    obtain ⟨hy, -⟩ := hproduct.spaced
    simpa using ⟨hx.of_parenthesize, hy.of_parenthesize⟩
  · obtain ⟨a, b, c, rfl, rfl⟩ := sample_ok h
    have hmethod : a.operand ++ "." ++ callText "Sample" [b.text, c.text] =
        callText (a.operand ++ "." ++ "Sample") [b.text, c.text] := by
      simp only [callText, String.append_assoc]
    have hrest := (hmethod ▸ hscans).arguments
    rw [String.append_assoc] at hscans
    simpa using ⟨(hscans.left (neutral_member _)).of_parenthesize, by simpa using hrest⟩

/-- **Library calls** are read as something that tells their arguments. -/
theorem heard_library (hform : intrinsics.get? function = some form)
    (harguments : List.Forall₂ (fun a t => Heard types a.compound a.text t) arguments trees)
    (h : form.apply arguments = some text) (hscans : Scans text) :
    ∃ t, Base types text t ∧ ∀ others, trees.length = others.length →
      t = libraryImage function others → trees = others := by
  by_cases hsample : function = builtin "Sample"
  · subst hsample
    obtain rfl : form = sample := (Option.some.inj hform).symm
    obtain ⟨a, b, c, rfl, rfl⟩ := sample_ok h
    obtain _ | ⟨ha, _ | ⟨hb, _ | ⟨hc, ⟨⟩⟩⟩⟩ := harguments
    rw [String.append_assoc] at hscans ⊢
    obtain ⟨t, ht, hshape⟩ := ha.base.method (.cons hb.expression (.cons hc.expression .nil)) hscans
    refine ⟨t, ht, fun others hlength himage => ?_⟩
    obtain ⟨x, y, z, rfl⟩ := List.length_eq_three.1 hlength.symm
    rw [libraryImage, if_pos rfl] at himage
    rcases hshape with rfl | ⟨w, rfl⟩ | ⟨type, operand, rfl⟩ <;> cases himage
    rfl
  · have hphrase := phrase_library hform (harguments.imp fun _ _ ha => ha.presents)
      (fun hfunction => absurd hfunction hsample) h
    refine ⟨_, .stem (.phrase hphrase (isNumber_libraryImage _ _)), fun others hlength himage => ?_⟩
    exact libraryImage_inj hlength himage

end Library

/-! ## Starts of operands -/

/-- A text that starts as operands do. -/
def Starts (text : String) : Prop := text.toList.head?.any startsOperand = true

theorem Starts.append {a : String} (h : Starts a) (b : String) : Starts (a ++ b) := by
  unfold Starts at h ⊢
  cases ha : a.toList with
  | nil =>
    rw [ha] at h
    cases h
  | cons c cs =>
    rw [ha] at h
    rw [String.toList_append, ha]
    exact h

theorem starts_of_unsigned {r : Rank} {text : String} {t : Tree} (h : Cast.Unsigned types r text t) :
    Starts text := by
  obtain ⟨ts, hts, hd, hhead⟩ := h
  have hstart := startsOperand_head hts hhead
  unfold Starts
  cases htext : text.toList with
  | nil =>
    rw [tokens, htext] at hts
    exact absurd (Option.some.inj hts).symm hd.ne_nil
  | cons c cs =>
    rw [htext] at hstart
    exact hstart c rfl

theorem starts_name {name : String} (h : IsName name) : Starts name :=
  have hphrase : Cast.Phrase (fun _ => false) .suffixed name (.name name) := .name h
  starts_of_unsigned hphrase.unsigned

theorem starts_call {name : String} (h : IsName name) (texts : List String) :
    Starts (callText name texts) := by
  unfold callText
  exact (((starts_name h).append _).append _).append _

theorem starts_group (text : String) : Starts ("(" ++ text) :=
  have hparen : Starts "(" := rfl
  hparen.append text

/-- Library calls start as operands do; samples start with their textures. -/
theorem starts_library {function text : String} {form : Intrinsic} {arguments : List Argument}
    (hform : intrinsics.get? function = some form) (harguments : ∀ a ∈ arguments, Starts a.operand)
    (h : form.apply arguments = some text) : Starts text := by
  rcases intrinsics_cases hform with ⟨target, rfl, -⟩ | ⟨-, rfl⟩ | ⟨-, rfl⟩
  · obtain rfl := Option.some.inj h
    exact starts_call (isName_rename hform) _
  · obtain ⟨x, y, rfl, rfl⟩ := flooredRemainder_ok h
    exact (starts_group _).append _
  · obtain ⟨a, b, c, rfl, rfl⟩ := sample_ok h
    exact ((harguments a List.mem_cons_self).append _).append _

section Lowering

variable {s : Scope} {loc : Location}

/-- What has no operands is read as its image. -/
theorem says_of_no_operands (hdialect : s.dialect = dialect) {e : Expr} (hreadable : Readable s e)
    (hleaf : e.operands = []) {text : String} (h : s.lower loc e = .ok text) :
    Says (isType s.context) e.isCompound e.isZero text (image s e) := by
  have hseated : e.Seated s := by
    cases e with
    | call function arguments =>
      obtain rfl : arguments = [] := hleaf
      trivial
    | member | index | unary => cases hleaf
    | _ => trivial
  refine says_of_operands hdialect hreadable hseated (fun o ho => ?_) h
  rw [hleaf] at ho
  cases ho

/-- The arguments of a library call. -/
theorem mem_arguments {es : List Expr} {texts : List String} (h : s.lowerAll loc es = .ok texts)
    {a : Argument} (ha : a ∈ List.zipWith s.argument es texts) :
    ∃ e text, e ∈ es ∧ s.lower loc e = .ok text ∧ a = s.argument e text := by
  have htexts := lowerAll_ok h
  clear h
  induction htexts with
  | nil => cases ha
  | cons htext _ ih =>
    rcases List.mem_cons.1 ha with rfl | ha
    · exact ⟨_, _, List.mem_cons_self, htext, rfl⟩
    · obtain ⟨e, text, he, hlower, rfl⟩ := ih ha
      exact ⟨e, text, List.mem_cons_of_mem _ he, hlower, rfl⟩

theorem texts_of_arguments {es : List Expr} {texts : List String}
    (h : s.lowerAll loc es = .ok texts) : (List.zipWith s.argument es texts).map (·.text) = texts := by
  have htexts := lowerAll_ok h
  clear h
  induction htexts with
  | nil => rfl
  | cons _ _ ih => exact congrArg (_ :: ·) ih

/-- **Operands start with no sign.** -/
theorem starts_operand (hdialect : s.dialect = dialect) {e : Expr} (hreadable : Readable s e)
    {text : String} (h : s.IsOperand loc e text) : Starts text := by
  induction e using Expr.operands_induction generalizing text with
  | _ e ih =>
    obtain ⟨inner, hinner, rfl⟩ := h
    by_cases hleaf : e.operands = []
    · exact starts_of_unsigned (says_of_no_operands hdialect hreadable hleaf hinner).operand
    · have hlegible := hreadable.parts e .self
      have hcomposed := composed_of_lower hinner
      have hstart : ∀ o ∈ e.operands, ∀ otext, s.IsOperand loc o otext → Starts otext :=
        fun o ho otext hotext => ih o ho (hreadable.operand ho) hotext
      cases e with
      | literal | localVar | resource | staticMember => exact absurd rfl hleaf
      | unary | binary | conditional | cast => exact (starts_group inner).append ")"
      | member base type name =>
        obtain ⟨owner, field, howner, -, rfl⟩ := hcomposed
        exact ((hstart base List.mem_cons_self owner howner).append _).append _
      | index base i =>
        obtain ⟨owner, position, howner, -, rfl⟩ := hcomposed
        exact (((hstart base List.mem_cons_self owner howner).append _).append _).append _
      | call function arguments =>
        obtain ⟨texts, htexts, ⟨hknown, rfl⟩ | ⟨-, form, hform, happly⟩⟩ := hcomposed
        · rw [hdialect, dialect_correct]
          exact starts_call (isName_corrected (hlegible hknown)) _
        · rw [hdialect] at hform
          refine starts_library hform (fun a ha => ?_) happly
          obtain ⟨o, otext, ho, hotext, rfl⟩ := mem_arguments htexts ha
          exact hstart o ho _ ⟨otext, hotext, rfl⟩
      | construct type arguments =>
        cases arguments with
        | nil => exact absurd rfl hleaf
        | cons first rest =>
          obtain ⟨texts, -, hname, rfl⟩ :=
            composed_construct hdialect hreadable.structures hcomposed
          exact starts_call hname texts

/-! ## From the operands outward -/

/-- No part of an expression puts a suffix on a default value. -/
def AllSeated (s : Scope) (e : Expr) : Prop := ∀ x : Expr, x.Part e → x.Seated s

/-- What is known of the texts of some expressions: those with tokens are read as trees, and as the images
only if no part puts a suffix on a default value. -/
def AllHeard (s : Scope) (loc : Location) (es : List Expr) : Prop :=
  ∀ e ∈ es, ∀ text, s.lower loc e = .ok text → Scans text →
    ∃ t, Heard (isType s.context) e.isCompound text t ∧ (t = image s e → AllSeated s e)

namespace AllHeard

variable {es : List Expr}

theorem operand (hheard : AllHeard s loc es) {e : Expr} (he : e ∈ es) {text : String}
    (h : s.IsOperand loc e text) (hscans : Scans text) :
    ∃ t, Base (isType s.context) text t ∧ (t = image s e → AllSeated s e) := by
  obtain ⟨inner, hinner, rfl⟩ := h
  obtain ⟨t, ht, hseated⟩ := hheard e he inner hinner hscans.of_parenthesize
  exact ⟨t, ht.base, hseated⟩

/-- The arguments of a call, as such and as texts. -/
theorem arguments (hheard : AllHeard s loc es) {texts : List String}
    (h : s.lowerAll loc es = .ok texts) (hscans : ∀ text ∈ texts, Scans text) :
    ∃ trees, List.Forall₂ (fun a t => Heard (isType s.context) a.compound a.text t)
        (List.zipWith s.argument es texts) trees ∧
      List.Forall₂ (Cast.Phrase (isType s.context) .expression) texts trees ∧
      (trees = images s es → ∀ e ∈ es, AllSeated s e) := by
  have htexts := lowerAll_ok h
  clear h
  induction htexts with
  | nil => exact ⟨[], .nil, .nil, fun _ => List.forall_mem_nil _⟩
  | @cons e text es texts htext _ ih =>
    obtain ⟨t, ht, hseated⟩ := hheard e List.mem_cons_self text htext (hscans text List.mem_cons_self)
    obtain ⟨trees, harguments, hphrases, hrest⟩ :=
      ih (fun e he => hheard e (List.mem_cons_of_mem _ he))
        (fun text htext => hscans text (List.mem_cons_of_mem _ htext))
    refine ⟨t :: trees, .cons ht harguments, .cons ht.expression hphrases, fun himages => ?_⟩
    rw [images, List.cons.injEq] at himages
    exact List.forall_mem_cons.2 ⟨hseated himages.1, hrest himages.2⟩

end AllHeard

/-- What has no operands and is no default value. -/
theorem heard_of_no_operands (hdialect : s.dialect = dialect) {e : Expr} (hreadable : Readable s e)
    (hleaf : e.operands = []) (hzero : e.isZero = false) {text : String}
    (h : s.lower loc e = .ok text) : Heard (isType s.context) e.isCompound text (image s e) := by
  have hsaid := says_of_no_operands hdialect hreadable hleaf h
  have hbase := hsaid.base hzero
  refine ⟨hsaid.expression, .stem ?_⟩
  cases hnumber : e.isBareNumber with
  | false => exact .phrase hbase (isNumber_image hnumber)
  | true =>
    have hconstant := isConstant_of_isBareNumber hdialect hnumber ⟨text, h, rfl⟩
    have hphrase : Cast.Phrase (isType s.context) .suffixed _ _ := .number hconstant.1
    obtain ⟨ts, hts, hd⟩ := hbase.expression
    obtain ⟨us, hus, hd'⟩ := hphrase.expression
    obtain rfl : ts = us := Option.some.inj (hts.symm.trans hus)
    rw [hd.unique hd']
    exact .constant hconstant

/-- A call of a program function or of a library function. -/
theorem heard_call (hdialect : s.dialect = dialect) {function : String} {arguments : List Expr}
    {texts : List String} {text : String}
    (hname : (s.code.function? function).isSome → IsIdentifier function)
    (hheard : AllHeard s loc arguments) (htexts : s.lowerAll loc arguments = .ok texts)
    (h : s.ComposedCall function arguments texts text) (hscans : Scans text) :
    ∃ t, Base (isType s.context) text t ∧
      (t = image s (.call function arguments) → ∀ e ∈ arguments, AllSeated s e) := by
  rw [image]
  rcases h with ⟨hknown, rfl⟩ | ⟨hunknown, form, hform, happly⟩
  · obtain ⟨f, hf⟩ := Option.isSome_iff_exists.1 hknown
    obtain ⟨trees, -, hphrases, hseated⟩ := hheard.arguments htexts hscans.arguments
    rw [hf, hdialect, dialect_correct]
    refine ⟨_, .stem (.phrase (.callNamed (isName_corrected (hname hknown)) hphrases) rfl), ?_⟩
    exact fun himage => hseated (Tree.call.inj himage).2
  · rw [hdialect] at hform
    rw [hunknown]
    have hpieces : ∀ text ∈ texts, Scans text := by
      rw [← texts_of_arguments htexts]
      exact List.forall_mem_map.2 (scans_library hform happly hscans)
    obtain ⟨trees, htrees, hphrases, hseated⟩ := hheard.arguments htexts hpieces
    obtain ⟨t, ht, hinjective⟩ := heard_library hform htrees happly hscans
    refine ⟨t, ht, fun himage => hseated (hinjective _ ?_ himage)⟩
    rw [images_eq_map, List.length_map, ← hphrases.length_eq]
    exact (lowerAll_ok htexts).length_eq.symm

/-- **One step:** what is heard of the operands makes what is heard of the whole, which is the image only
if the same is true of the operands. -/
theorem heard_of_operands (hdialect : s.dialect = dialect) {e : Expr} (hreadable : Readable s e)
    (hheard : AllHeard s loc e.operands) {text : String} (h : s.lower loc e = .ok text)
    (hscans : Scans text) : ∃ t, Heard (isType s.context) e.isCompound text t ∧
      (t = image s e → ∀ o ∈ e.operands, AllSeated s o) := by
  have hlegible := hreadable.parts e .self
  have hcomposed := composed_of_lower h
  cases e with
  | literal | localVar | resource | staticMember =>
    exact ⟨_, heard_of_no_operands hdialect hreadable rfl rfl h, fun _ => List.forall_mem_nil _⟩
  | member base type name =>
    obtain ⟨owner, field, howner, hfield, rfl⟩ := hcomposed
    obtain ⟨rfl, hname⟩ := lowerMember_ok hdialect hlegible.1 hfield
    rw [String.append_assoc] at hscans ⊢
    obtain ⟨t, ht, hseated⟩ := hheard.operand List.mem_cons_self howner
      (hscans.left (neutral_member _))
    obtain ⟨t', ht', hshape⟩ := ht.member hname hscans
    refine ⟨t', .of_base ht', fun himage => List.forall_mem_singleton.2 (hseated ?_)⟩
    rcases hshape with rfl | ⟨w, rfl⟩ | ⟨cast, operand, rfl⟩ <;> cases himage
    rfl
  | index base i =>
    obtain ⟨owner, position, howner, hposition, rfl⟩ := hcomposed
    rw [String.append_assoc, String.append_assoc] at hscans ⊢
    obtain ⟨hbase, hrest⟩ := hscans.cut (by simp [String.toList_append, separates])
    have hinner := (hrest.behind (.inr rfl) rfl).cut rfl
    obtain ⟨t, ht, hseated⟩ := hheard.operand List.mem_cons_self howner hbase
    obtain ⟨u, hu, hseated'⟩ := hheard i (by simp [Expr.operands]) position hposition hinner.1
    obtain ⟨t', ht', hshape⟩ := ht.index hu.expression hscans
    refine ⟨t', .of_base ht', fun himage => ?_⟩
    rcases hshape with rfl | ⟨w, rfl⟩ | ⟨cast, operand, rfl⟩ <;> cases himage
    exact List.forall_mem_cons.2 ⟨hseated rfl, List.forall_mem_singleton.2 (hseated' rfl)⟩
  | unary op operand =>
    obtain ⟨inner, hinner, rfl⟩ := hcomposed
    cases hop : op.followsOperand with
    | true =>
      have hpiece : Scans inner := by
        rw [UnaryOp.apply, if_pos hop] at hscans
        exact hscans.left (neutral_operator hop)
      obtain ⟨t, ht, hseated⟩ := hheard.operand List.mem_cons_self hinner hpiece
      obtain ⟨t', ht', rfl | ⟨cast, misread, rfl⟩⟩ := ht.trailing hop
      · refine ⟨_, .of_compound ht' rfl rfl, fun himage => ?_⟩
        exact List.forall_mem_singleton.2 (hseated (Tree.unary.inj himage).2)
      · refine ⟨_, .of_compound ht' rfl rfl, fun himage => ?_⟩
        cases himage
    | false =>
      have hpiece : Scans inner := by
        rw [UnaryOp.apply, hop, if_neg Bool.false_ne_true] at hscans
        exact hscans.signed (starts_operand hdialect (hreadable.operand List.mem_cons_self) hinner)
      obtain ⟨t, ht, hseated⟩ := hheard.operand List.mem_cons_self hinner hpiece
      have hunary := (Cast.Phrase.leading op hop ht.unsigned).ofOperand (by decide) (Nat.le_refl _)
      refine ⟨_, .of_compound hunary rfl rfl, fun himage => ?_⟩
      exact List.forall_mem_singleton.2 (hseated (Tree.unary.inj himage).2)
  | binary op left right =>
    obtain ⟨a, b, ha, hb, rfl⟩ := hcomposed
    rw [operator_eq hdialect] at hscans ⊢
    obtain ⟨hleft, hright⟩ := hscans.spaced
    obtain ⟨t, ht, hseated⟩ := hheard.operand List.mem_cons_self ha hleft
    obtain ⟨u, hu, hseated'⟩ := hheard.operand (List.mem_cons_of_mem _ List.mem_cons_self) hb hright
    have hbinary := Cast.Phrase.binary op ht.unsigned hu.unsigned
    refine ⟨_, .of_compound hbinary rfl rfl, fun himage => ?_⟩
    obtain ⟨-, hl, hr⟩ := Tree.binary.inj himage
    exact List.forall_mem_cons.2 ⟨hseated hl, List.forall_mem_singleton.2 (hseated' hr)⟩
  | conditional condition accept reject =>
    obtain ⟨c, a, r, hc, ha, hr, rfl⟩ := hcomposed
    obtain ⟨hcondition, haccept, hreject⟩ := hscans.conditional
    obtain ⟨tc, htc, hseatedc⟩ := hheard.operand List.mem_cons_self hc hcondition
    obtain ⟨ta, hta, hseateda⟩ := hheard.operand (by simp [Expr.operands]) ha haccept
    obtain ⟨tr, htr, hseatedr⟩ := hheard.operand (by simp [Expr.operands]) hr hreject
    have hwhole := Cast.Phrase.conditional (htc.unsigned.lower (by decide) (Nat.le_refl _)).phrase
      hta.expression htr.expression
    refine ⟨_, .of_compound hwhole rfl rfl, fun himage => ?_⟩
    obtain ⟨hic, hia, hir⟩ := Tree.conditional.inj himage
    simpa [Expr.operands] using ⟨hseatedc hic, hseateda hia, hseatedr hir⟩
  | call function arguments =>
    obtain ⟨texts, htexts, hcall⟩ := hcomposed
    obtain ⟨t, ht, hseated⟩ := heard_call hdialect hlegible hheard htexts hcall hscans
    exact ⟨t, .of_base ht, hseated⟩
  | construct type arguments =>
    cases arguments with
    | nil =>
      obtain ⟨rfl, hname, hword⟩ := zero_ok hdialect hreadable.structures hcomposed
      have hzero : IsConstant "0" := by decide
      exact ⟨_, .of_base (.cast hname.1 hword (.constant hzero)), fun _ => List.forall_mem_nil _⟩
    | cons first rest =>
      obtain ⟨texts, htexts, hname, rfl⟩ := composed_construct hdialect hreadable.structures hcomposed
      obtain ⟨trees, -, hphrases, hseated⟩ := hheard.arguments htexts hscans.arguments
      refine ⟨_, .of_base (.stem (.phrase (.callNamed hname hphrases) rfl)), fun himage => ?_⟩
      exact hseated (Tree.call.inj himage).2
  | cast type operand =>
    obtain ⟨inner, hinner, hname, rfl⟩ := composed_cast hdialect hreadable.structures hcomposed
    obtain ⟨t, ht, hseated⟩ := hheard operand List.mem_cons_self inner hinner
      (hscans.arguments inner List.mem_cons_self)
    have hcall := Cast.Phrase.callNamed hname (.cons ht.expression .nil)
    refine ⟨_, .of_compound hcall.expression rfl rfl, fun himage => ?_⟩
    exact List.forall_mem_singleton.2 (hseated (List.cons.inj (Tree.call.inj himage).2).1)

/-- **Every text with tokens is read as some tree,** which is the image only if no part puts a suffix on a
default value. -/
theorem heard_text (hdialect : s.dialect = dialect) {e : Expr} (hreadable : Readable s e)
    {text : String} (h : s.lower loc e = .ok text) (hscans : Scans text) :
    ∃ t, Heard (isType s.context) e.isCompound text t ∧ (t = image s e → AllSeated s e) := by
  induction e using Expr.operands_induction generalizing text with
  | _ e ih =>
    have hheard : AllHeard s loc e.operands :=
      fun o ho otext hotext hoscans => ih o ho (hreadable.operand ho) hotext hoscans
    obtain ⟨t, ht, hseated⟩ := heard_of_operands hdialect hreadable hheard h hscans
    refine ⟨t, ht, fun himage x hx => ?_⟩
    cases hx with
    | self =>
      by_contra hmisread
      obtain ⟨ts, hts, hderives⟩ := ht.expression
      rw [himage] at hderives
      exact misread hdialect hreadable hmisread h hts hderives
    | operand ho hx => exact hseated himage _ ho x hx

end Lowering

/-- A text has tokens that the grammar derives for the image of an expression and for nothing else. -/
def ReadsBack (s : Scope) (e : Expr) (text : String) : Prop :=
  ∃ ts, tokens text = some ts ∧ ∀ t, Cast.Derives (isType s.context) .expression ts t ↔ t = image s e

/-- **Lowering keeps the tree exactly if no suffix is put on a default value:** the text of an expression is
read back as its image, and as nothing else, if and only if every part of the expression is seated. -/
theorem text_reads_back_iff_seated (s : Scope) (hdialect : s.dialect = dialect) (loc : Location)
    (e : Expr) (hreadable : Readable s e) (text : String) (h : s.lower loc e = .ok text) :
    ReadsBack s e text ↔ ∀ x : Expr, x.Part e → x.Seated s := by
  constructor
  · rintro ⟨ts, hts, hderives⟩
    obtain ⟨t, ht, hseated⟩ := heard_text hdialect hreadable h ⟨ts, hts⟩
    obtain ⟨us, hus, hd⟩ := ht.expression
    obtain rfl : ts = us := Option.some.inj (hts.symm.trans hus)
    exact hseated ((hderives t).1 hd)
  · intro hseated
    obtain ⟨ts, hts, hderives⟩ := (says_image hdialect hreadable hseated h).expression
    exact ⟨ts, hts, fun t => ⟨fun ht => ht.unique hderives, fun ht => ht ▸ hderives⟩⟩

/-! ### Examples -/

/-- A scope with a texture, a sampler, a structure, and a local with the name that the structure takes. -/
def lit : Scope where
  context :=
    { dialect := dialect
      code := ⟨⟨[⟨"albedo", .texture2D, 0, none⟩, ⟨"nearest", .sampler, 1, none⟩]⟩, .empty⟩
      structures := [("Scene.Light", ⟨"Scene.Light", [{ name := "power", type := ⟨Host.float, false⟩ }]⟩)] }
  stage := .fragment
  locals := [("x", ⟨Host.float, false⟩), ("out", ⟨Host.float, false⟩),
    ("Scene_Light", ⟨Host.vector4, false⟩)]

/-- The default value of a type. -/
def zero (type : String) : Expr := .construct ⟨type, false⟩ []

/-- Default values behind signs, between operators, as indices and as arguments. -/
def glow : Expr :=
  .conditional
    (.binary .less (.localVar "x") (.unary .negate (zero Host.float)))
    (.call (builtin "Mod") [zero Host.float, .binary .modulo (.localVar "out") (zero Host.float)])
    (.binary .multiply
      (.index (.localVar "Scene_Light") (zero Host.int))
      (.binary .add (.cast ⟨Host.float, false⟩ (zero "Scene.Light"))
        (.member (.call (builtin "Sample") [.resource "albedo", .resource "nearest", zero Host.vector2])
          ⟨Host.vector4, false⟩ "X")))

/-- The text of `glow`. -/
def glowText : String :=
  "(x < (-(float)0)) ? ((float)0 - (out_ % (float)0) * floor((float)0 / (out_ % (float)0))) : " ++
    "(Scene_Light[(int)0] * ((float((Scene_Light)0)) + albedo.Sample(nearest, (float2)0).x))"

/-- The tree of `glowText`. -/
def glowTree : Tree :=
  let zero := fun type => Cast.castTree type (.number "0")
  let rest := Tree.binary .modulo (.name "out_") (zero "float")
  let sample := Tree.call (.member (.name "albedo") "Sample") [.name "nearest", zero "float2"]
  .conditional (.binary .less (.name "x") (.unary .negate (zero "float")))
    (.binary .subtract (zero "float")
      (.binary .multiply rest (callNamed "floor" [.binary .divide (zero "float") rest])))
    (.binary .multiply (.index (.name "Scene_Light") (zero "int"))
      (.binary .add (callNamed "float" [zero "Scene_Light"]) (.member sample "x")))

/-- A default value with an index, deep in an expression. -/
def glare : Expr := .binary .multiply (.localVar "x") (.unary .negate (.index (zero Host.vector4) (.localVar "x")))

theorem text_reads_back_iff_seated_glow :
    (Readable lit glow ∧ lit.lower .unknown glow = .ok glowText ∧ ∃ ts, tokens glowText = some ts ∧
      ∀ t, Cast.Derives (isType lit.context) .expression ts t ↔ t = glowTree) ∧
    Readable lit glare ∧ lit.lower .unknown glare = .ok "x * (-(float4)0[x])" ∧
      ¬ ReadsBack lit glare "x * (-(float4)0[x])" := by
  have hglow : ∀ x ∈ glow.nodes, x.Legible lit := by decide
  have hglare : ∀ x ∈ glare.nodes, x.Legible lit := by decide
  have hstructures : ∀ entry ∈ lit.context.structures, IsIdentifier (flattenDots entry.1) := by decide
  have hreadable : Readable lit glow :=
    ⟨fun x hx => hglow x (Expr.mem_nodes_iff_part.2 hx), hstructures⟩
  have hreadable' : Readable lit glare :=
    ⟨fun x hx => hglare x (Expr.mem_nodes_iff_part.2 hx), hstructures⟩
  have htext : lit.lower .unknown glow = .ok glowText := by decide +kernel
  have htext' : lit.lower .unknown glare = .ok "x * (-(float4)0[x])" := by decide +kernel
  have hseated : ∀ x ∈ glow.nodes, x.Seated lit := by decide
  have hback := (text_reads_back_iff_seated lit rfl .unknown glow hreadable glowText htext).2
    fun x hx => hseated x (Expr.mem_nodes_iff_part.2 hx)
  have hiff := text_reads_back_iff_seated lit rfl .unknown glare hreadable' _ htext'
  refine ⟨⟨hreadable, htext, hback⟩, hreadable', htext', fun hread => ?_⟩
  have hindex := hiff.1 hread (.index (zero Host.vector4) (.localVar "x"))
    (.operand (List.mem_cons_of_mem _ List.mem_cons_self) (.operand List.mem_cons_self .self))
  revert hindex
  decide

/-- An index behind a default value. -/
def element : Expr := .index (zero Host.vector4) (.literal (.int 1))

/-- An operator behind a default value. -/
def counter : Expr := .unary .postIncrement (zero Host.int)

/-- A member behind a default value. -/
def component : Expr := .member (zero Host.vector3) ⟨Host.vector3, false⟩ "X"

theorem suffixes_of_zero_misread :
    (lit.lower .unknown element = .ok "(float4)0[1]" ∧
      Cast.Phrase (isType lit.context) .expression "(float4)0[1]"
        (Cast.castTree "float4" (.index (.number "0") (.number "1"))) ∧
      ¬ ReadsBack lit element "(float4)0[1]") ∧
    (lit.lower .unknown counter = .ok "(int)0++" ∧
      Cast.Phrase (isType lit.context) .expression "(int)0++"
        (Cast.castTree "int" (.unary .postIncrement (.number "0"))) ∧
      ¬ ReadsBack lit counter "(int)0++") ∧
    lit.lower .unknown component = .ok "(float3)0.x" ∧ tokens "(float3)0.x" = none := by
  have hmisread : ∀ {e text t}, Cast.Phrase (isType lit.context) .expression text t →
      t ≠ image lit e → ¬ ReadsBack lit e text := by
    rintro e text t ⟨ts, hts, hd⟩ hne ⟨us, hus, hderives⟩
    obtain rfl : ts = us := Option.some.inj (hts.symm.trans hus)
    exact hne ((hderives t).1 hd)
  have hzero : Cast.Phrase (isType lit.context) .suffixed "0" (.number "0") := .number (by decide)
  have hone : Cast.Phrase (isType lit.context) .suffixed "1" (.number "1") := .number (by decide)
  have hindex := Cast.Unsigned.cast "float4" (by decide) (by decide)
    (hzero.index hone.expression).unsigned.phrase
  have hstep := Cast.Unsigned.cast "int" (by decide) (by decide)
    (hzero.trailing .postIncrement rfl).unsigned.phrase
  rw [show "(" ++ "float4" ++ ")" ++ ("0" ++ "[" ++ "1" ++ "]") = "(float4)0[1]" by decide] at hindex
  rw [show "(" ++ "int" ++ ")" ++ UnaryOp.postIncrement.apply "0" = "(int)0++" by decide] at hstep
  have helement := hindex.phrase.ofOperand (by decide) (Nat.le_refl _)
  have hcounter := hstep.phrase.ofOperand (by decide) (Nat.le_refl _)
  exact ⟨⟨by decide +kernel, helement, hmisread helement (by rintro ⟨⟩)⟩,
    ⟨by decide +kernel, hcounter, hmisread hcounter (by rintro ⟨⟩)⟩, by decide +kernel, by decide⟩

end Hlsl

end CrossShader

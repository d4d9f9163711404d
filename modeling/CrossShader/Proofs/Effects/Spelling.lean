import CrossShader.Proofs.Effects.Order
import CrossShader.Proofs.Reader.Vocabulary

/-!
# How targets write what they are given

What the forms of a target show of the texts that they are made of.

* `exhibits_decimal`, `exhibits_literal` — numbers and literals show nothing.
* `Dialect.vocabulary` — the words that stand before parentheses without a call of a program function.
* `Spelled` — everything that lowering asks of a dialect, for a manner.
* `Glsl.spelled`, `Hlsl.spelled`, `Target.spelled` — the built-in targets are spelled in their manners.
-/

set_option autoImplicit false

namespace CrossShader

open Effects Reader Text

/-! ## Numbers -/

namespace Effects

/-- Characters that show nothing and do not end in a sign, unless they follow one. -/
def Quiet (cs : List Char) : Prop :=
  ∀ m : Mode, m.isSign = false → ∃ m', scanHeads m cs = (m', []) ∧ m'.isSign = false

theorem Quiet.append {cs ds : List Char} (hcs : Quiet cs) (hds : Quiet ds) : Quiet (cs ++ ds) := by
  intro m hm
  obtain ⟨m', hscan, hm'⟩ := hcs m hm
  obtain ⟨m'', hscan', hm''⟩ := hds m' hm'
  exact ⟨m'', by rw [scanHeads_append, hscan, hscan']; rfl, hm''⟩

theorem quiet_word {cs : List Char} (h : cs.all isWordChar = true) : Quiet cs := by
  intro m hm
  cases cs with
  | nil => exact ⟨m, rfl, hm⟩
  | cons c cs => exact ⟨_, scanHeads_word h nofun m, rfl⟩

theorem quiet_digits {ds : List Char} (h : ∀ c ∈ ds, c.isDigit = true) : Quiet ds :=
  quiet_word (List.all_eq_true.2 fun c hc => isWordChar_of_isDigit (h c hc))

theorem quiet_point : Quiet ['.'] := fun m _ => ⟨.other, by cases m <;> rfl, rfl⟩

/-- A minus sign before digits. -/
theorem quiet_negative {ds : List Char} (h : Digits ds) : Quiet ('-' :: ds) := by
  intro m hm
  have hword : ds.all isWordChar = true :=
    List.all_eq_true.2 fun c hc => isWordChar_of_isDigit (h.2 c hc)
  have hsign : m.next '-' = (.sign '-', []) := by cases m <;> first | rfl | cases hm
  exact ⟨.word ds, by rw [scanHeads, hsign, scanHeads_word hword h.1]; rfl, rfl⟩

theorem quiet_fraction {cs : List Char} (h : Fraction cs) : Quiet cs := by
  rcases h with rfl | ⟨ds, rfl, hds⟩
  · exact quiet_word rfl
  · exact quiet_point.append (quiet_digits hds)

theorem quiet_exponent {cs : List Char} (h : Exponent cs) : Quiet cs := by
  have hmark : Quiet ['e'] := quiet_word rfl
  rcases h with rfl | ⟨ds, hds, rfl | rfl⟩
  · exact quiet_word rfl
  · exact hmark.append (quiet_digits hds.2)
  · exact hmark.append (quiet_negative hds)

theorem firm_of_digit {text : String} {d : Char} {cs : List Char} (htext : text.toList = d :: cs)
    (hd : d.isDigit = true) : Firm text := by
  refine ⟨d, cs, htext, ?_, ?_⟩ <;>
  · rintro rfl
    cases hd

variable {library : String → Prop} {compound : Bool}

theorem Exhibits.of_quiet {text : String} (h : Quiet text.toList) (hfirm : Firm text) :
    Exhibits library compound text [] := by
  obtain ⟨m, hscan, hm⟩ := h .other rfl
  exact ⟨⟨m, .silent hscan, hm⟩, fun _ => hfirm⟩

/-- **Decimals show nothing.** -/
theorem exhibits_decimal {text : String} (h : IsDecimal text) : Exhibits library compound text [] := by
  obtain ⟨whole, fraction, exponent, htext, hwhole, hfraction, hexponent⟩ := h
  refine .of_quiet ?_ ?_
  · rw [htext]
    exact (quiet_digits hwhole.2).append ((quiet_fraction hfraction).append (quiet_exponent hexponent))
  · obtain ⟨d, ds, rfl⟩ := List.exists_cons_of_ne_nil hwhole.1
    exact firm_of_digit htext (hwhole.2 d List.mem_cons_self)

theorem exhibits_unsigned (n : Nat) : Exhibits library compound (toString n ++ "u") [] := by
  have hds := digits_toDigits n
  have htext : (toString n ++ "u").toList = Nat.toDigits 10 n ++ ['u'] := by
    rw [String.toList_append]
    exact congrArg (· ++ ['u']) Nat.toList_repr
  have hmark : Quiet ['u'] := quiet_word rfl
  refine .of_quiet (htext ▸ (quiet_digits hds.2).append hmark) ?_
  obtain ⟨d, ds, hcons⟩ := List.exists_cons_of_ne_nil hds.1
  rw [hcons] at htext hds
  exact firm_of_digit htext (hds.2 d List.mem_cons_self)

/-- A number behind its sign. -/
theorem exhibits_signed {text : String} (h : IsDecimal text) (negative : Bool) :
    Exhibits library negative ((if negative then "-" else "") ++ text) [] := by
  cases negative with
  | false =>
    rw [if_neg Bool.false_ne_true, String.empty_append]
    exact exhibits_decimal h
  | true => exact .of_compound ((exhibits_decimal h).unary .negate)

/-- **Literals show nothing.** -/
theorem exhibits_literal {loc : Location} {value : Literal} {text : String}
    (h : value.lower loc = .ok text) : Exhibits library value.isNegative text [] := by
  cases value with
  | bool value =>
    cases h
    have hword : IsIdentifier (toString value) := by cases value <;> decide
    exact .word hword
  | int value =>
    cases h
    cases value with
    | ofNat n => exact exhibits_decimal (isDecimal_natural n)
    | negSucc n =>
      rw [Literal.isNegative, decide_eq_true (Int.negSucc_lt_zero n)]
      exact exhibits_signed (isDecimal_natural (n + 1)) true
  | uint value =>
    cases h
    exact exhibits_unsigned value
  | float value =>
    simp only [Literal.lower] at h
    split at h
    · rename_i hfinite
      cases h
      rw [Single.text_of_isFinite hfinite]
      exact exhibits_signed (isDecimal_literal value.shortest) value.isNegative
    · cases h

/-- An element count in brackets. -/
theorem Shows.counted {text : String} (h : Shows library text []) (count : Nat) :
    Shows library (text ++ countSuffix count) [] := by
  unfold countSuffix
  split
  · have hcount : Exhibits library false (toString count) [] := exhibits_decimal (isDecimal_natural count)
    have hwhole := (h.separated separator_openBracket hcount.shows).closed separator_closeBracket
    have htext : text ++ ("[" ++ toString count ++ "]") = text ++ "[" ++ toString count ++ "]" := by
      simp only [String.append_assoc]
    rw [← htext] at hwhole
    exact hwhole
  · rw [String.append_empty]
    exact h

/-- A call of an array type, whose elements show nothing. -/
theorem Shows.arrayCall {element : String} (helement : IsIdentifier element) (count : Nat)
    {texts : List String} (h : ∀ text ∈ texts, Shows library text []) :
    Shows library (callText (element ++ "[" ++ toString count ++ "]") texts) [] := by
  have hcount : Exhibits library false (toString count) [] := exhibits_decimal (isDecimal_natural count)
  have hopen := (Shows.word helement).separated separator_openBracket hcount.shows
  -- the bracket keeps the parenthesis from the element's name
  have hbracket : Separator "](" := fun _ => rfl
  have hwhole := (hopen.separated hbracket (.joined (forall₂_silent h))).closed separator_close
  have htext : callText (element ++ "[" ++ toString count ++ "]") texts =
      element ++ "[" ++ toString count ++ "](" ++ String.intercalate ", " texts ++ ")" := by
    have hsplit : "](" = "]" ++ "(" := rfl
    simp only [callText, hsplit, String.append_assoc]
  rw [htext]
  simpa using hwhole

end Effects

/-! ## Spelled dialects -/

/-- The target's name of a renamed library function. -/
def Intrinsic.target? : Intrinsic → Option String
  | .rename target => some target
  | .custom _ => none

/-- The words of the forms that targets spell out. -/
def formWords : List String :=
  ["trunc", "floor", "clamp", "texture", "sampler2D", "samplerCube", "Sample"]

/-- Words that stand before parentheses without a call of a program function: types, library functions,
and the words of forms. -/
def Dialect.vocabulary (d : Dialect) : List String :=
  d.types.entries.map (·.2) ++ d.intrinsics.entries.filterMap (·.2.target?) ++ formWords

/-- What the arguments of a library call show, one by one. -/
def Presented (library : String → Prop) (arguments : List Argument) (parts : List (List Head)) : Prop :=
  List.Forall₂ (fun a part => Exhibits library a.compound a.text part) arguments parts

/-- A dialect whose names are single words and whose forms write their operands in a manner. -/
structure Spelled (d : Dialect) (manner : Manner) (library : String → Prop) : Prop where
  correct {name : String} : IsIdentifier name → IsIdentifier (d.correct name)
  type {name mapped : String} : d.mapType name = some mapped → IsIdentifier mapped ∧ library mapped
  structureType {name : String} :
    IsIdentifier (flattenDots name) → IsIdentifier (d.structureTypeName name)
  member {type name target : String} : d.mapMember type name = some target → IsIdentifier target
  static {type name text : String} :
    d.identifiers.static? type name = some text → Exhibits library false text []
  resource {r : Resource} : IsIdentifier r.name → IsIdentifier (d.resourceReference r)
  zero {type : String} {isStructure : Bool} {text : String} : IsIdentifier type → library type →
    d.zeroValue type isStructure = some text → Exhibits library false text []
  construct {type : String} {isStructure : Bool} {arguments : List String} {text : String} :
    d.construct type isStructure arguments = some text → text = callText type arguments
  remainder {a b : String} {left right : List Head} : Exhibits library false a left →
    Exhibits library false b right → Shows library (d.floatRemainder a b) (manner.remainder left right)
  call {function : String} {form : Intrinsic} {arguments : List Argument} {parts : List (List Head)}
    {text : String} : d.intrinsics.get? function = some form → Presented library arguments parts →
    form.apply arguments = some text → Exhibits library false text (manner.library function parts)

theorem Presented.shows {library : String → Prop} {arguments : List Argument} {parts : List (List Head)}
    (h : Presented library arguments parts) :
    List.Forall₂ (Shows library) (arguments.map (·.text)) parts :=
  List.forall₂_map_left_iff.2 (h.imp fun _ _ ha => ha.shows)

/-! ## Names and tables -/

theorem isIdentifier_correct (ids : Identifiers) {name : String} (h : IsIdentifier name) :
    IsIdentifier (ids.correct name) := by
  unfold Identifiers.correct
  split
  · exact isIdentifier_append_underscore h
  · exact h

/-- A text that does not start with a sign and whose only heads are calls of given words. -/
def isPlain (words : List String) (text : String) : Bool :=
  let scanned := scanHeads .other text.toList
  text.toList.head?.any (fun c => c != '+' && c != '-') && !scanned.1.isSign &&
    scanned.2.all fun
      | .call name => words.contains name
      | .step _ => false

theorem exhibits_of_isPlain (words : List String) {library : String → Prop}
    (hwords : ∀ word ∈ words, library word) {text : String} (h : isPlain words text = true) :
    Exhibits library false text [] := by
  obtain ⟨m, hs, hscan⟩ : ∃ m hs, scanHeads .other text.toList = (m, hs) := ⟨_, _, rfl⟩
  simp only [isPlain, hscan, Bool.and_eq_true, Bool.not_eq_true', Option.any_eq_true, bne_iff_ne] at h
  obtain ⟨⟨⟨c, hc, hplus, hminus⟩, hm⟩, hall⟩ := h
  obtain ⟨cs, htext⟩ := List.head?_eq_some_iff.1 hc
  refine ⟨⟨m, ⟨hs, hscan, ?_⟩, hm⟩, fun _ => ⟨c, cs, htext, hplus, hminus⟩⟩
  clear hscan
  induction hs with
  | nil => exact .nil
  | cons head hs ih =>
    rw [List.all_cons, Bool.and_eq_true] at hall
    cases head with
    | call name => exact .library (hwords name (List.contains_iff_mem.1 hall.1)) (ih hall.2)
    | step => cases hall.1

section Vocabulary

variable {d : Dialect} {library : String → Prop} (hlibrary : ∀ word ∈ d.vocabulary, library word)

include hlibrary

theorem library_type {word : String} (h : word ∈ d.types.entries.map (·.2)) : library word :=
  hlibrary word (List.mem_append_left _ (List.mem_append_left _ h))

theorem library_rename {function target : String}
    (h : d.intrinsics.get? function = some (.rename target)) : library target := by
  have hmem : target ∈ d.intrinsics.entries.filterMap (·.2.target?) :=
    List.mem_filterMap.2 ⟨_, Table.mem_of_get? h, rfl⟩
  exact hlibrary target (List.mem_append_left _ (List.mem_append_right _ hmem))

theorem library_form {word : String} (h : word ∈ formWords) : library word :=
  hlibrary word (List.mem_append_right _ h)

theorem exhibits_static
    (hplain : ∀ entry ∈ d.identifiers.statics.entries,
      isPlain (d.types.entries.map (·.2)) entry.2 = true)
    {type name text : String} (h : d.identifiers.static? type name = some text) :
    Exhibits library false text [] := by
  have hentry := hplain ((type, name), text) (Table.mem_of_get? h)
  exact exhibits_of_isPlain _ (fun _ => library_type hlibrary) hentry

/-- A renamed library function. -/
theorem exhibits_rename {function target : String}
    (h : d.intrinsics.get? function = some (.rename target)) (htarget : IsIdentifier target)
    {arguments : List Argument} {parts : List (List Head)} {text : String}
    (harguments : Presented library arguments parts)
    (happly : (Intrinsic.rename target).apply arguments = some text) :
    Exhibits library false text parts.flatten := by
  obtain rfl := Option.some.inj happly
  exact .call htarget (.openLibrary (library_rename hlibrary h)) harguments.shows

end Vocabulary

/-! ## GLSL -/

namespace Glsl

section Forms

variable {version : Version} {library : String → Prop}
  (hlibrary : ∀ word ∈ (dialect version).vocabulary, library word)
  {arguments : List Argument} {parts : List (List Head)} {text : String}

theorem exhibits_product (harguments : Presented library arguments parts)
    (h : Intrinsic.product.apply arguments = some text) : Exhibits library false text parts.flatten := by
  obtain ⟨a, b, rfl, rfl⟩ := product_ok h
  obtain _ | ⟨ha, _ | ⟨hb, ⟨⟩⟩⟩ := harguments
  have hfactors : Shows library (BinaryOp.multiply.apply a.operand b.operand) _ :=
    ha.operand.shows.binary .multiply hb.operand.shows
  exact ⟨by simpa using hfactors.grouped, fun _ => firm_grouped _⟩

theorem combinedType_mem (kind : Option ResourceKind) : combinedType kind ∈ formWords := by
  unfold combinedType
  split <;> decide

include hlibrary

theorem shows_remainder {a b : String} {left right : List Head} (ha : Exhibits library false a left)
    (hb : Exhibits library false b right) :
    Shows library ((dialect version).floatRemainder a b) ((manner version).remainder left right) := by
  rw [dialect_floatRemainder]
  have htrunc : IsIdentifier "trunc" := by decide
  have hword : library "trunc" := library_form hlibrary (by decide)
  have hquotient := Shows.binary .divide ha.shows hb.shows
  have hwhole : Exhibits library false _ _ :=
    .call htrunc (.openLibrary hword) (.cons hquotient .nil)
  have hdifference := ha.shows.binary .subtract (hb.shows.binary .multiply hwhole.shows)
  simpa [manner] using hdifference

theorem exhibits_saturate (harguments : Presented library arguments parts)
    (h : saturate.apply arguments = some text) : Exhibits library false text parts.flatten := by
  obtain ⟨x, rfl, rfl⟩ := saturate_ok h
  obtain _ | ⟨hx, ⟨⟩⟩ := harguments
  have hclamp : IsIdentifier "clamp" := by decide
  have hzero : Shows library "0.0" [] := (exhibits_of_isPlain [] nofun (by decide)).shows
  have hone : Shows library "1.0" [] := (exhibits_of_isPlain [] nofun (by decide)).shows
  exact .call hclamp (.openLibrary (library_form hlibrary (by decide)))
    (.cons hx.shows (.cons hzero (.cons hone .nil)))

/-- **A sample:** where textures have their samplers built in, the sampler is left out. -/
theorem exhibits_sample (harguments : Presented library arguments parts)
    (h : (if version.separateSamplers then sampleSeparate else sampleCombined).apply arguments =
      some text) :
    Exhibits library false text ((manner version).library (builtin "Sample") parts) := by
  have htexture : IsIdentifier "texture" := by decide
  have hopen : Reads library (.word "texture".toList) "(" .other [] :=
    .openLibrary (library_form hlibrary (by decide))
  split at h
  · rename_i hseparate
    obtain ⟨a, b, c, combined, rfl, hcombined, rfl⟩ := sampleSeparate_ok h
    obtain _ | ⟨ha, _ | ⟨hb, _ | ⟨hc, ⟨⟩⟩⟩⟩ := harguments
    obtain ⟨rfl, hname⟩ := combinedType_of_some hcombined
    have hsampler : Exhibits library false (callText _ [a.text, b.text]) _ :=
      .call hname.1 (.openLibrary (library_form hlibrary (combinedType_mem _)))
        (.cons ha.shows (.cons hb.shows .nil))
    have hsample : Exhibits library false _ _ :=
      .call htexture hopen (.cons hsampler.shows (.cons hc.shows .nil))
    simpa [manner, hseparate] using hsample
  · rename_i hcombined
    obtain ⟨a, b, c, rfl, rfl⟩ := sampleCombined_ok h
    obtain _ | ⟨ha, _ | ⟨hb, _ | ⟨hc, ⟨⟩⟩⟩⟩ := harguments
    have hsample : Exhibits library false _ _ :=
      .call htexture hopen (.cons ha.shows (.cons hc.shows .nil))
    simpa [manner, hcombined] using hsample

/-- **GLSL is spelled in its manner.** -/
theorem spelled : Spelled (dialect version) (manner version) library where
  correct h := by
    rw [dialect_correct]
    exact isIdentifier_correct _ h
  type h := ⟨(isName_types h).1, library_type hlibrary (List.mem_map_of_mem (Table.mem_of_get? h))⟩
  structureType h := by
    rw [dialect_structureTypeName]
    exact isIdentifier_correct _ h
  member h := isIdentifier_member h
  static h := by
    refine exhibits_static hlibrary ?_ h
    cases version <;> decide +kernel
  resource h := by
    rw [dialect_resourceReference]
    split
    · exact (isName_blockMember h).1
    · exact isIdentifier_correct _ h
  zero {type isStructure text} htype hword h := by
    cases isStructure with
    | true => cases h
    | false =>
      rw [dialect_zeroValue] at h
      obtain rfl := Option.some.inj h
      have hzero : Shows library "0" [] := (exhibits_of_isPlain [] nofun (by decide)).shows
      exact .call htype (.openLibrary hword) (.cons hzero .nil)
  construct h := (Option.some.inj h).symm
  remainder ha hb := shows_remainder hlibrary ha hb
  call {function form arguments parts text} hform harguments h := by
    have hother : function ≠ builtin "Sample" → (manner version).library function parts = parts.flatten :=
      fun hne => if_neg fun hboth => hne hboth.1
    -- only sampling does not show the heads of all its arguments in turn
    rcases intrinsics_cases hform with ⟨target, rfl, htarget⟩ | ⟨rfl, rfl⟩ | ⟨rfl, rfl⟩ | ⟨rfl, rfl⟩
    · rw [hother]
      · exact exhibits_rename hlibrary hform htarget.1 harguments h
      · rintro rfl
        cases version <;> cases hform
    · rw [hother (by decide)]
      exact exhibits_product harguments h
    · rw [hother (by decide)]
      exact exhibits_saturate hlibrary harguments h
    · exact exhibits_sample hlibrary harguments h

end Forms

end Glsl

/-! ## HLSL -/

namespace Hlsl

open Glsl (builtin)

theorem dialect_correct (name : String) : dialect.correct name = identifiers.correct name := by
  simp only [dialect]

theorem dialect_structureTypeName (name : String) :
    dialect.structureTypeName name = identifiers.correct (flattenDots name) := by
  simp only [dialect]

theorem dialect_resourceReference (r : Resource) :
    dialect.resourceReference r = identifiers.correct r.name := by
  simp only [dialect]

theorem dialect_floatRemainder (left right : String) :
    dialect.floatRemainder left right = BinaryOp.modulo.apply left right := by
  change left ++ " % " ++ right = left ++ " " ++ "%" ++ " " ++ right
  have hpercent : " % " = " " ++ "%" ++ " " := rfl
  simp only [hpercent, String.append_assoc]

/-- **The forms of library calls:** a new name, or one of the two builtins that are more than that. -/
theorem intrinsics_cases {function : String} {form : Intrinsic}
    (h : intrinsics.get? function = some form) :
    (∃ target, form = .rename target ∧ IsIdentifier target) ∨
      (function = builtin "Mod" ∧ form = flooredRemainder) ∨
      (function = builtin "Sample" ∧ form = sample) := by
  have hvectors : ∀ m ∈ vectorMethods, IsIdentifier m.2 := by decide
  have hmath : ∀ m ∈ mathMethods, IsIdentifier m.2 := by decide
  have hentry := Table.mem_of_get? h
  simp only [intrinsics, List.mem_append, List.mem_flatMap, List.mem_map, List.mem_cons,
    List.not_mem_nil, or_false, Intrinsic.onVectors, Intrinsic.onMath, Intrinsic.onBuiltins,
    Prod.mk.injEq] at hentry
  rcases hentry with ((⟨m, hm, type, -, -, rfl⟩ | ⟨-, rfl⟩) | ⟨m, hm, -, rfl⟩) |
    ⟨-, rfl⟩ | ⟨-, rfl⟩ | ⟨-, rfl⟩ | ⟨-, rfl⟩ | ⟨-, rfl⟩ | ⟨rfl, rfl⟩ | ⟨rfl, rfl⟩
  · exact .inl ⟨m.2, rfl, hvectors m hm⟩
  · exact .inl ⟨_, rfl, by decide⟩
  · exact .inl ⟨m.2, rfl, hmath m hm⟩
  · exact .inl ⟨_, rfl, by decide⟩
  · exact .inl ⟨_, rfl, by decide⟩
  · exact .inl ⟨_, rfl, by decide⟩
  · exact .inl ⟨_, rfl, by decide⟩
  · exact .inl ⟨_, rfl, by decide⟩
  · exact .inr (.inl ⟨rfl, rfl⟩)
  · exact .inr (.inr ⟨rfl, rfl⟩)

section Forms

variable {library : String → Prop} (hlibrary : ∀ word ∈ dialect.vocabulary, library word)
  {arguments : List Argument} {parts : List (List Head)} {text : String}

theorem flooredRemainder_ok (h : flooredRemainder.apply arguments = some text) : ∃ x y,
    arguments = [x, y] ∧ text = "(" ++ BinaryOp.subtract.apply x.operand
      (BinaryOp.multiply.apply y.operand
        (callText "floor" [BinaryOp.divide.apply x.operand y.operand])) ++ ")" := by
  simp only [flooredRemainder, Intrinsic.apply] at h
  split at h
  · rename_i x y
    refine ⟨x, y, rfl, (Option.some.inj h).symm.trans ?_⟩
    change "(" ++ x.operand ++ " - " ++ y.operand ++ " * floor(" ++ x.operand ++ " / " ++ y.operand ++
      "))" = "(" ++ (x.operand ++ " " ++ "-" ++ " " ++ (y.operand ++ " " ++ "*" ++ " " ++
        ("floor" ++ "(" ++ (x.operand ++ " " ++ "/" ++ " " ++ y.operand) ++ ")"))) ++ ")"
    have hminus : " - " = " " ++ "-" ++ " " := rfl
    have hstar : " * floor(" = " " ++ "*" ++ " " ++ "floor" ++ "(" := rfl
    have hslash : " / " = " " ++ "/" ++ " " := rfl
    have hclose : "))" = ")" ++ ")" := rfl
    simp only [hminus, hstar, hslash, hclose, String.append_assoc]
  · cases h

theorem sample_ok (h : sample.apply arguments = some text) : ∃ a b c,
    arguments = [a, b, c] ∧ text = a.operand ++ "." ++ callText "Sample" [b.text, c.text] := by
  simp only [sample, Intrinsic.apply] at h
  split at h
  · rename_i a b c
    refine ⟨a, b, c, rfl, (Option.some.inj h).symm.trans ?_⟩
    change a.operand ++ ".Sample(" ++ b.text ++ ", " ++ c.text ++ ")" = _
    have hopen : ".Sample(" = "." ++ "Sample" ++ "(" := rfl
    simp only [callText, String.intercalate_cons_cons, String.intercalate_singleton, hopen,
      String.append_assoc]
  · cases h

include hlibrary

/-- **The floored remainder** writes both operands twice. -/
theorem exhibits_flooredRemainder (harguments : Presented library arguments parts)
    (h : flooredRemainder.apply arguments = some text) :
    Exhibits library false text (manner.library (builtin "Mod") parts) := by
  obtain ⟨x, y, rfl, rfl⟩ := flooredRemainder_ok h
  obtain _ | ⟨hx, _ | ⟨hy, ⟨⟩⟩⟩ := harguments
  have hx : Exhibits library false x.operand _ := hx.operand
  have hy : Exhibits library false y.operand _ := hy.operand
  have hfloor : IsIdentifier "floor" := by decide
  have hword : library "floor" := library_form hlibrary (by decide)
  have hquotient := hx.shows.binary .divide hy.shows
  have hwhole : Exhibits library false _ _ :=
    .call hfloor (.openLibrary hword) (.cons hquotient .nil)
  have hdifference := hx.shows.binary .subtract (hy.shows.binary .multiply hwhole.shows)
  exact ⟨by simpa [manner] using hdifference.grouped, fun _ => firm_grouped _⟩

theorem exhibits_sample (harguments : Presented library arguments parts)
    (h : sample.apply arguments = some text) : Exhibits library false text parts.flatten := by
  obtain ⟨a, b, c, rfl, rfl⟩ := sample_ok h
  obtain _ | ⟨ha, _ | ⟨hb, _ | ⟨hc, ⟨⟩⟩⟩⟩ := harguments
  have ha : Exhibits library false a.operand _ := ha.operand
  have hsample : IsIdentifier "Sample" := by decide
  have hword : library "Sample" := library_form hlibrary (by decide)
  have hmethod : Exhibits library false _ _ :=
    .call hsample (.openLibrary hword) (.cons hb.shows (.cons hc.shows .nil))
  refine ⟨?_, fun _ => ((ha.firm rfl).append ".").append _⟩
  simpa using ha.shows.separated separator_dot hmethod.shows

/-- **HLSL is spelled in its manner.** -/
theorem spelled : Spelled dialect manner library where
  correct h := by
    rw [dialect_correct]
    exact isIdentifier_correct _ h
  type {name mapped} h := by
    have hall : ∀ entry ∈ types.entries, IsIdentifier entry.2 := by decide
    have hentry := Table.mem_of_get? h
    exact ⟨hall _ hentry, library_type hlibrary (List.mem_map_of_mem hentry)⟩
  structureType h := by
    rw [dialect_structureTypeName]
    exact isIdentifier_correct _ h
  member {type name target} h := by
    obtain ⟨width, -, hswizzle⟩ := Option.bind_eq_some_iff.1 (show
      (Host.vectorWidth type).bind (identifiers.swizzle.lower name) = some target from h)
    exact Glsl.isIdentifier_swizzle hswizzle
  static h := exhibits_static hlibrary (by decide +kernel) h
  resource h := by
    rw [dialect_resourceReference]
    exact isIdentifier_correct _ h
  zero {type isStructure text} htype hword h := by
    obtain rfl := Option.some.inj h
    have hclose : ")0" = ")" ++ "0" := rfl
    have htext : "(" ++ type ++ ")0" = "(" ++ type ++ ")" ++ "0" := by
      rw [hclose, String.append_assoc, String.append_assoc, String.append_assoc]
    have hopen : Shows library ("(" ++ type) [] := Shows.before (.silent rfl) (Shows.word htype)
    have hzero : Shows library "0" [] := (exhibits_of_isPlain [] nofun (by decide)).shows
    have hshows := hopen.separated separator_close hzero
    rw [← htext] at hshows
    exact ⟨hshows, fun _ => .append (.append ⟨'(', [], rfl, by decide, by decide⟩ type) ")0"⟩
  construct {type isStructure arguments text} h := by
    cases isStructure with
    | true => cases h
    | false => exact (Option.some.inj h).symm
  remainder ha hb := by
    rw [dialect_floatRemainder]
    exact ha.shows.binary .modulo hb.shows
  call {function form arguments parts text} hform harguments h := by
    have hother : function ≠ builtin "Mod" → manner.library function parts = parts.flatten :=
      fun hne => if_neg hne
    -- only the floored remainder shows the heads of its arguments more than once
    rcases intrinsics_cases hform with ⟨target, rfl, htarget⟩ | ⟨rfl, rfl⟩ | ⟨rfl, rfl⟩
    · rw [hother]
      · exact exhibits_rename hlibrary hform htarget harguments h
      · rintro rfl
        cases hform
    · exact exhibits_flooredRemainder hlibrary harguments h
    · rw [hother (by decide)]
      exact exhibits_sample hlibrary harguments h

end Forms

end Hlsl

/-- **Every built-in target is spelled in its manner.** -/
theorem Target.spelled (target : Target) {library : String → Prop}
    (hlibrary : ∀ word ∈ target.dialect.vocabulary, library word) :
    Spelled target.dialect target.manner library := by
  cases target with
  | glslEs300 | glsl330 | glsl450 => exact Glsl.spelled hlibrary
  | hlsl => exact Hlsl.spelled hlibrary

end CrossShader

import CrossShader.Lowering.Stmt
import CrossShader.Proofs.Success

/-!
# How expressions and statements are lowered

What a successful lowering consists of, once for each kind of expression and each kind of statement.

* `mappedType_cases` — the types that have a target type.
* `Context.ComposedZero`, `zeroValueFrom_ok` — how default values are put together.
* `lowerAll_ok` — the texts of several expressions are those of each.
* `Scope.Composed` — how a text is put together from the texts of the operands.
* `composed_of_lower` — every text that lowering gives is put together so.
* `declarator_ok`, `assignment_ok` — the texts of declarations and of assignments.
* `Scope.Outlined` — how an outline is put together from the texts and outlines of its parts.
* `outlined_of_outline` — every outline that lowering gives is put together so.
-/

set_option autoImplicit false

namespace CrossShader

open Text

/-- A form is expected exactly if there is one. -/
theorem expect_ok {form : Option String} {what : Construct} {loc : Location} {text : String}
    (h : Context.expect form what loc = .ok text) : form = some text := by
  cases form with
  | none => cases h
  | some found => exact congrArg some (Except.ok.inj h)

theorem resource?_name {c : Code} {name : String} {r : Resource} (h : c.resource? name = some r) :
    r.name = name := by
  have hname := List.find?_some h
  exact eq_of_beq hname

theorem field?_name {definition : Structure} {name : String} {field : Field}
    (h : definition.field? name = some field) : field.name = name := by
  have hname := List.find?_some h
  exact eq_of_beq hname

/-- A type has a spelling of its own, or is that of a resolved structure. -/
theorem mappedType_cases {c : Context} {type : TypeRef} {mapped : String}
    (h : c.mappedType type = .ok mapped) :
    c.dialect.mapType type.name = some mapped ∨
      c.dialect.mapType type.name = none ∧ mapped = c.dialect.structureTypeName type.name ∧
        ∃ definition, (type.name, definition) ∈ c.structures := by
  unfold Context.mappedType at h
  cases htype : c.dialect.mapType type.name with
  | some target =>
    rw [htype] at h
    exact .inl (congrArg some (Except.ok.inj h))
  | none =>
    rw [htype] at h
    dsimp only at h
    split at h
    · rename_i hknown
      obtain ⟨definition, hfound⟩ := Option.isSome_iff_exists.1 hknown
      exact .inr ⟨rfl, (Except.ok.inj h).symm, definition, mem_of_lookup hfound⟩
    · cases h

theorem mappedType_of_scalarType {c : Context} {loc : Location} {type : TypeRef} {mapped : String}
    (h : c.scalarType loc type = .ok mapped) : c.mappedType type = .ok mapped := by
  unfold Context.scalarType at h
  split at h
  · cases h
  · exact h

theorem isArray_of_scalarType {c : Context} {loc : Location} {type : TypeRef} {mapped : String}
    (h : c.scalarType loc type = .ok mapped) : type.isArray = false := by
  unfold Context.scalarType at h
  split at h
  · cases h
  · rename_i harray
    exact eq_false_of_ne_true harray

/-- A type without a spelling of its own has that of its structure. -/
theorem mapped_of_scalarType {c : Context} {loc : Location} {type : TypeRef} {mapped : String}
    (h : c.scalarType loc type = .ok mapped) (hmap : c.dialect.mapType type.name = none) :
    mapped = c.dialect.structureTypeName type.name ∧
      type.name ∈ c.structures.map Prod.fst := by
  rcases mappedType_cases (mappedType_of_scalarType h) with hmapped | ⟨-, hname, definition, hmem⟩
  · cases hmap.symm.trans hmapped
  · exact ⟨hname, List.mem_map_of_mem hmem⟩

/-! ## Default values -/

/-- The default value of a field: that of its type, or as many copies of it as the field has elements. -/
def Context.FieldZero (c : Context) (loc : Location) (structures : List (String × Structure))
    (field : Field) (text : String) : Prop :=
  ∃ zero, c.zeroValueFrom loc structures field.type = .ok zero ∧
    (field.isFixedArray = false ∧ text = zero ∨
      field.isFixedArray = true ∧ ∃ element, c.scalarType loc field.type = .ok element ∧
        c.dialect.construct s!"{element}[{field.count}]" false (List.replicate field.count zero) =
          some text)

/-- How a default value is put together, by the structures that it may consist of. -/
def Context.ComposedZero (c : Context) (loc : Location) (type : TypeRef) (text : String) :
    List (String × Structure) → Prop
  | [] => ∃ mapped, c.scalarType loc type = .ok mapped ∧ c.dialect.zeroValue mapped false = some text
  | (name, definition) :: earlier =>
    type.name ≠ name ∧ c.zeroValueFrom loc earlier type = .ok text ∨
      type.name = name ∧ ∃ mapped, c.scalarType loc type = .ok mapped ∧
        (c.dialect.zeroValue mapped true = some text ∨
          c.dialect.zeroValue mapped true = none ∧ ∃ texts,
            List.Forall₂ (c.FieldZero loc earlier) definition.fields texts ∧
            c.dialect.construct mapped true texts = some text)

/-- The fields of a structure are written exactly if each of them is. -/
theorem fieldZeros_ok {c : Context} {loc : Location} {structures : List (String × Structure)}
    {fields : List Field} {owner : String} {texts : List String} :
    (fields.mapM fun field => do
      let zero ← c.zeroValueFrom loc structures field.type
      if field.isFixedArray then
        let element ← c.scalarType loc field.type
        Context.expect (c.dialect.construct s!"{element}[{field.count}]" false
          (List.replicate field.count zero)) (.defaultValue owner) loc
      else return zero) = .ok texts ↔ List.Forall₂ (c.FieldZero loc structures) fields texts := by
  rw [mapM_ok]
  constructor
  · refine fun h => h.imp fun field text hfield => ?_
    obtain ⟨zero, hzero, hfield⟩ := bind_ok.1 hfield
    refine ⟨zero, hzero, ?_⟩
    split at hfield
    · rename_i harray
      obtain ⟨element, helement, hfield⟩ := bind_ok.1 hfield
      exact .inr ⟨harray, element, helement, expect_ok hfield⟩
    · rename_i harray
      exact .inl ⟨eq_false_of_ne_true harray, (Except.ok.inj hfield).symm⟩
  · refine fun h => h.imp fun field text hfield => ?_
    obtain ⟨zero, hzero, ⟨harray, rfl⟩ | ⟨harray, element, helement, hconstruct⟩⟩ := hfield
    · refine bind_ok.2 ⟨_, hzero, ?_⟩
      rw [if_neg (ne_true_of_eq_false harray)]
      rfl
    · refine bind_ok.2 ⟨zero, hzero, ?_⟩
      rw [if_pos harray]
      refine bind_ok.2 ⟨element, helement, ?_⟩
      rw [hconstruct]
      rfl

/-- **A default value is put together from those of the fields**, if the target has none for the type. -/
theorem zeroValueFrom_ok {c : Context} {loc : Location} {structures : List (String × Structure)}
    {type : TypeRef} {text : String} :
    c.zeroValueFrom loc structures type = .ok text ↔ c.ComposedZero loc type text structures := by
  constructor
  · intro h
    cases structures with
    | nil =>
      obtain ⟨mapped, hmapped, h⟩ := bind_ok.1 h
      exact ⟨mapped, hmapped, expect_ok h⟩
    | cons entry earlier =>
      rw [Context.zeroValueFrom] at h
      split at h
      · rename_i hname
        obtain ⟨mapped, hmapped, h⟩ := bind_ok.1 h
        refine .inr ⟨hname, mapped, hmapped, ?_⟩
        cases hzero : c.dialect.zeroValue mapped true with
        | some zero =>
          rw [hzero] at h
          exact .inl (congrArg some (Except.ok.inj h))
        | none =>
          rw [hzero] at h
          obtain ⟨texts, htexts, h⟩ := bind_ok.1 h
          exact .inr ⟨rfl, texts, fieldZeros_ok.1 htexts, expect_ok h⟩
      · rename_i hname
        exact .inl ⟨hname, h⟩
  · intro h
    cases structures with
    | nil =>
      obtain ⟨mapped, hmapped, hzero⟩ := h
      refine bind_ok.2 ⟨mapped, hmapped, ?_⟩
      rw [hzero]
      rfl
    | cons entry earlier =>
      rw [Context.zeroValueFrom]
      obtain ⟨hname, h⟩ | ⟨hname, mapped, hmapped, hform⟩ := h
      · rw [if_neg hname]
        exact h
      · rw [if_pos hname]
        refine bind_ok.2 ⟨mapped, hmapped, ?_⟩
        obtain hzero | ⟨hnone, texts, hfields, hconstruct⟩ := hform
        · rw [hzero]
          rfl
        · rw [hnone]
          refine bind_ok.2 ⟨texts, fieldZeros_ok.2 hfields, ?_⟩
          rw [hconstruct]
          rfl

/-- A default value is written only for types that have a target type. -/
theorem scalarType_of_zeroValueFrom {c : Context} {loc : Location}
    {structures : List (String × Structure)} {type : TypeRef} {text : String}
    (h : c.zeroValueFrom loc structures type = .ok text) :
    ∃ mapped, c.scalarType loc type = .ok mapped := by
  induction structures with
  | nil =>
    obtain ⟨mapped, hmapped, -⟩ := zeroValueFrom_ok.1 h
    exact ⟨mapped, hmapped⟩
  | cons entry earlier ih =>
    obtain ⟨-, h⟩ | ⟨-, mapped, hmapped, -⟩ := zeroValueFrom_ok.1 h
    · exact ih h
    · exact ⟨mapped, hmapped⟩

variable {s : Scope} {loc : Location}

/-! ## Expressions -/

theorem lowerAll_ok {es : List Expr} {texts : List String} (h : s.lowerAll loc es = .ok texts) :
    List.Forall₂ (fun e text => s.lower loc e = .ok text) es texts := by
  induction es generalizing texts with
  | nil =>
    cases h
    exact .nil
  | cons e es ih =>
    simp only [Scope.lowerAll] at h
    obtain ⟨text, htext, h⟩ := bind_ok.1 h
    obtain ⟨texts, htexts, h⟩ := bind_ok.1 h
    cases h
    exact .cons htext (ih htexts)

/-- A member is a field of a structure, or else one that the dialect spells. -/
theorem lowerMember_cases {type name field : String} (h : s.lowerMember loc type name = .ok field) :
    (∃ definition found, s.context.structure? type = some definition ∧
        definition.field? name = some found ∧ field = s.dialect.correct name) ∨
      s.context.structure? type = none ∧ s.dialect.mapMember type name = some field := by
  rw [Scope.lowerMember] at h
  cases hdefinition : s.context.structure? type with
  | some definition =>
    rw [hdefinition] at h
    cases hfound : definition.field? name with
    | none => simp [hfound] at h
    | some found =>
      simp only [hfound, field?_name hfound] at h
      exact .inl ⟨definition, found, rfl, hfound, (Except.ok.inj h).symm⟩
  | none =>
    rw [hdefinition] at h
    cases htarget : s.dialect.mapMember type name with
    | none => simp [htarget] at h
    | some target =>
      simp only [htarget] at h
      exact .inr ⟨rfl, congrArg some (Except.ok.inj h)⟩

/-- The lowered text of an expression as an operand. -/
def Scope.IsOperand (s : Scope) (loc : Location) (e : Expr) (text : String) : Prop :=
  ∃ inner, s.lower loc e = .ok inner ∧ text = parenthesize e.isCompound inner

/-- The text of a call with lowered arguments: of a program function, or else in the form that the
dialect gives a library function. -/
def Scope.ComposedCall (s : Scope) (function : String) (arguments : List Expr) (texts : List String)
    (text : String) : Prop :=
  (s.code.function? function).isSome ∧ text = callText (s.dialect.correct function) texts ∨
    s.code.function? function = none ∧ ∃ form,
      s.dialect.intrinsics.get? function = some form ∧
      form.apply (List.zipWith s.argument arguments texts) = some text

/-- How the text of an expression is put together. -/
def Scope.Composed (s : Scope) (loc : Location) (text : String) : Expr → Prop
  | .literal value => value.lower loc = .ok text
  | .localVar name => text = s.dialect.correct name
  | .resource name => ∃ r, s.code.resource? name = some r ∧ text = s.dialect.resourceReference r
  | .member base type name => ∃ owner field, s.IsOperand loc base owner ∧
      s.lowerMember loc type.name name = .ok field ∧ text = owner ++ "." ++ field
  | .staticMember type name => s.dialect.identifiers.static? type.name name = some text
  | .index base i => ∃ owner position, s.IsOperand loc base owner ∧
      s.lower loc i = .ok position ∧ text = owner ++ "[" ++ position ++ "]"
  | .unary op operand => ∃ inner, s.IsOperand loc operand inner ∧ text = op.apply inner
  | .binary op left right => ∃ a b, s.IsOperand loc left a ∧ s.IsOperand loc right b ∧
      text = if op = .modulo then s.remainder left right a b else op.apply a b
  | .conditional condition accept reject => ∃ c a r, s.IsOperand loc condition c ∧
      s.IsOperand loc accept a ∧ s.IsOperand loc reject r ∧ text = conditionalText c a r
  | .call function arguments => ∃ texts, s.lowerAll loc arguments = .ok texts ∧
      s.ComposedCall function arguments texts text
  | .construct type [] => s.context.zeroValue loc type = .ok text
  | .construct type (first :: rest) => ∃ mapped texts, s.context.scalarType loc type = .ok mapped ∧
      s.lowerAll loc (first :: rest) = .ok texts ∧
      s.dialect.construct mapped (s.context.structure? type.name).isSome texts = some text
  | .cast type operand => ∃ mapped inner, s.context.scalarType loc type = .ok mapped ∧
      s.lower loc operand = .ok inner ∧ s.dialect.construct mapped false [inner] = some text

/-- **What lowering gives is put together from the operands' texts.** -/
theorem composed_of_lower {e : Expr} {text : String} (h : s.lower loc e = .ok text) :
    s.Composed loc text e := by
  cases e with
  | literal value =>
    rw [Scope.lower] at h
    exact h
  | localVar name =>
    rw [Scope.lower] at h
    exact (Except.ok.inj h).symm
  | resource name =>
    simp only [Scope.lower, Scope.lowerResource] at h
    split at h
    · rename_i r hr
      exact ⟨r, hr, (Except.ok.inj h).symm⟩
    · cases h
  | member base type name =>
    rw [Scope.lower] at h
    obtain ⟨owner, howner, h⟩ := bind_ok.1 h
    obtain ⟨field, hfield, h⟩ := bind_ok.1 h
    exact ⟨_, field, ⟨owner, howner, rfl⟩, hfield, (Except.ok.inj h).symm⟩
  | staticMember type name =>
    simp only [Scope.lower, Scope.lowerStatic] at h
    split at h
    · rename_i target htarget
      rw [← Except.ok.inj h]
      exact htarget
    · cases h
  | index base i =>
    rw [Scope.lower] at h
    obtain ⟨owner, howner, h⟩ := bind_ok.1 h
    obtain ⟨position, hposition, h⟩ := bind_ok.1 h
    exact ⟨_, position, ⟨owner, howner, rfl⟩, hposition, (Except.ok.inj h).symm⟩
  | unary op operand =>
    rw [Scope.lower] at h
    obtain ⟨inner, hinner, h⟩ := bind_ok.1 h
    exact ⟨_, ⟨inner, hinner, rfl⟩, (Except.ok.inj h).symm⟩
  | binary op left right =>
    rw [Scope.lower] at h
    obtain ⟨a, ha, h⟩ := bind_ok.1 h
    obtain ⟨b, hb, h⟩ := bind_ok.1 h
    refine ⟨_, _, ⟨a, ha, rfl⟩, ⟨b, hb, rfl⟩, ?_⟩
    split at h
    · rw [if_pos rfl]
      exact (Except.ok.inj h).symm
    · rename_i hop
      rw [if_neg hop]
      exact (Except.ok.inj h).symm
  | conditional condition accept reject =>
    rw [Scope.lower] at h
    obtain ⟨c, hc, h⟩ := bind_ok.1 h
    obtain ⟨a, ha, h⟩ := bind_ok.1 h
    obtain ⟨r, hr, h⟩ := bind_ok.1 h
    exact ⟨_, _, _, ⟨c, hc, rfl⟩, ⟨a, ha, rfl⟩, ⟨r, hr, rfl⟩, (Except.ok.inj h).symm⟩
  | call function arguments =>
    simp only [Scope.lower] at h
    -- a function of the program comes before a library function of the same name
    cases hf : s.code.function? function with
    | some f =>
      rw [hf] at h
      obtain ⟨texts, htexts, h⟩ := bind_ok.1 h
      exact ⟨texts, htexts, .inl ⟨by rw [hf]; rfl, (Except.ok.inj h).symm⟩⟩
    | none =>
      rw [hf] at h
      dsimp only at h
      split at h
      · rename_i form hform
        obtain ⟨texts, htexts, h⟩ := bind_ok.1 h
        exact ⟨texts, htexts, .inr ⟨hf, form, hform, expect_ok h⟩⟩
      · cases h
  | construct type arguments =>
    cases arguments with
    | nil =>
      rw [Scope.lower] at h
      exact h
    | cons first rest =>
      rw [Scope.lower] at h
      obtain ⟨mapped, hmapped, h⟩ := bind_ok.1 h
      obtain ⟨text', htext, h⟩ := bind_ok.1 h
      obtain ⟨texts, htexts, h⟩ := bind_ok.1 h
      refine ⟨mapped, text' :: texts, hmapped, ?_, expect_ok h⟩
      rw [Scope.lowerAll, htext, htexts]
      rfl
  | cast type operand =>
    rw [Scope.lower] at h
    obtain ⟨mapped, hmapped, h⟩ := bind_ok.1 h
    obtain ⟨inner, hinner, h⟩ := bind_ok.1 h
    exact ⟨mapped, inner, hmapped, hinner, expect_ok h⟩

/-! ## Statements -/

/-- A declaration has its type, its name and its count; a type without a size is never declared. -/
theorem declarator_ok {name : String} {type : TypeRef} {count : Nat} {text : String}
    (h : s.declarator loc name type count = .ok text) :
    type.isArray = false ∧ ∃ mapped, s.context.mappedType type = .ok mapped ∧
      text = mapped ++ " " ++ s.dialect.correct name ++ countSuffix count := by
  unfold Scope.declarator at h
  split at h
  · cases h
  · rename_i harray
    obtain ⟨mapped, hmapped, h⟩ := bind_ok.1 h
    exact ⟨eq_false_of_ne_true harray, mapped, hmapped, (Except.ok.inj h).symm⟩

/-- A declaration with a start value is one without, followed by the value. -/
theorem simple_declare_some_ok {name : String} {type : TypeRef} {count : Nat} {value : Expr}
    {text : String} (h : s.simple (.declare loc name type count (some value)) = .ok text) :
    ∃ declared start, s.declarator loc name type count = .ok declared ∧
      s.lower loc value = .ok start ∧ text = declared ++ " = " ++ start := by
  obtain ⟨declared, hdeclared, h⟩ := bind_ok.1 h
  obtain ⟨start, hstart, h⟩ := bind_ok.1 h
  exact ⟨declared, start, hdeclared, hstart, (Except.ok.inj h).symm⟩

/-- An assignment has its target, its operator and its value; a floating-point remainder is assigned in
full. -/
theorem assignment_ok {target value : Expr} {op : AssignOp} {text : String}
    (h : s.assignment loc target op value = .ok text) :
    ∃ place given, s.lower loc target = .ok place ∧ s.lower loc value = .ok given ∧
      text = if op = .modulo ∧ (s.isFloat target || s.isFloat value) then
        place ++ " = " ++ s.dialect.floatRemainder (parenthesize target.isCompound place)
          (parenthesize value.isCompound given)
      else place ++ " " ++ op.token ++ " " ++ given := by
  unfold Scope.assignment at h
  obtain ⟨place, hplace, h⟩ := bind_ok.1 h
  obtain ⟨given, hgiven, h⟩ := bind_ok.1 h
  refine ⟨place, given, hplace, hgiven, ?_⟩
  split at h
  · rename_i hfloat
    rw [if_pos hfloat]
    exact (Except.ok.inj h).symm
  · rename_i hfloat
    rw [if_neg hfloat]
    exact (Except.ok.inj h).symm

/-- How the outline of a statement is put together. -/
def Scope.Outlined (s : Scope) (outline : Outline) : Stmt → Prop
  | .block _ body => ∃ inner, s.outlineAll body = .ok inner ∧ outline = .block inner
  | t@(.declare ..) | t@(.eval ..) | t@(.assign ..) =>
    ∃ text, s.simple t = .ok text ∧ outline = .simple text
  | .ifElse loc condition accept reject => ∃ text accepted rejected,
      s.lower loc condition = .ok text ∧ s.outlineAll accept = .ok accepted ∧
      s.outlineAll reject = .ok rejected ∧ outline = .ifElse text accepted rejected
  | .forLoop loc start condition step body => ∃ startText conditionText stepTexts inner,
      Scope.optional start s.simple = .ok startText ∧
      Scope.optional condition (s.lower loc) = .ok conditionText ∧
      step.mapM s.simple = .ok stepTexts ∧ s.outlineAll body = .ok inner ∧
      outline = .forLoop startText conditionText (String.intercalate ", " stepTexts) inner
  | .whileLoop loc condition body => ∃ text inner, s.lower loc condition = .ok text ∧
      s.outlineAll body = .ok inner ∧ outline = .whileLoop text inner
  | .doWhile loc body condition => ∃ text inner, s.lower loc condition = .ok text ∧
      s.outlineAll body = .ok inner ∧ outline = .doWhile inner text
  | .switch loc selector cases => ∃ text outlines, s.lower loc selector = .ok text ∧
      s.outlineCases loc cases = .ok outlines ∧ outline = .switch text outlines
  | .foreach .. => False
  | .breakLoop _ => outline = .breakLoop
  | .continueLoop _ => outline = .continueLoop
  | .ret _ none => outline = .ret none
  | .ret loc (some value) => ∃ text, s.lower loc value = .ok text ∧ outline = .ret (some text)
  | .discard _ => s.stage = .fragment ∧ outline = .discard

/-- **What lowering gives is put together from the outlines of the blocks.** -/
theorem outlined_of_outline {t : Stmt} {outline : Outline} (h : s.outline t = .ok outline) :
    s.Outlined outline t := by
  cases t with
  | block loc body =>
    rw [Scope.outline] at h
    obtain ⟨inner, hinner, h⟩ := bind_ok.1 h
    exact ⟨inner, hinner, (Except.ok.inj h).symm⟩
  | declare | eval | assign =>
    rw [Scope.outline] at h
    obtain ⟨text, htext, h⟩ := bind_ok.1 h
    exact ⟨text, htext, (Except.ok.inj h).symm⟩
  | ifElse loc condition accept reject =>
    rw [Scope.outline] at h
    obtain ⟨text, htext, h⟩ := bind_ok.1 h
    obtain ⟨accepted, haccepted, h⟩ := bind_ok.1 h
    obtain ⟨rejected, hrejected, h⟩ := bind_ok.1 h
    exact ⟨text, accepted, rejected, htext, haccepted, hrejected, (Except.ok.inj h).symm⟩
  | forLoop loc start condition step body =>
    rw [Scope.outline] at h
    obtain ⟨startText, hstart, h⟩ := bind_ok.1 h
    obtain ⟨conditionText, hcondition, h⟩ := bind_ok.1 h
    obtain ⟨stepTexts, hsteps, h⟩ := bind_ok.1 h
    obtain ⟨inner, hinner, h⟩ := bind_ok.1 h
    exact ⟨startText, conditionText, stepTexts, inner, hstart, hcondition, hsteps, hinner,
      (Except.ok.inj h).symm⟩
  | whileLoop loc condition body =>
    rw [Scope.outline] at h
    obtain ⟨text, htext, h⟩ := bind_ok.1 h
    obtain ⟨inner, hinner, h⟩ := bind_ok.1 h
    exact ⟨text, inner, htext, hinner, (Except.ok.inj h).symm⟩
  | doWhile loc body condition =>
    rw [Scope.outline] at h
    obtain ⟨inner, hinner, h⟩ := bind_ok.1 h
    obtain ⟨text, htext, h⟩ := bind_ok.1 h
    exact ⟨text, inner, htext, hinner, (Except.ok.inj h).symm⟩
  | switch loc selector cases =>
    rw [Scope.outline] at h
    obtain ⟨text, htext, h⟩ := bind_ok.1 h
    obtain ⟨outlines, houtlines, h⟩ := bind_ok.1 h
    exact ⟨text, outlines, htext, houtlines, (Except.ok.inj h).symm⟩
  | foreach => cases h
  | breakLoop | continueLoop => exact (Except.ok.inj h).symm
  | ret loc value =>
    cases value with
    | none => exact (Except.ok.inj h).symm
    | some value =>
      rw [Scope.outline] at h
      obtain ⟨text, htext, h⟩ := bind_ok.1 h
      exact ⟨text, htext, (Except.ok.inj h).symm⟩
  | discard loc =>
    rw [Scope.outline] at h
    split at h
    · rename_i hstage
      exact ⟨hstage, (Except.ok.inj h).symm⟩
    · cases h

end CrossShader

import CrossShader.Proofs.BlockScope
import CrossShader.Proofs.Effects.Spelling

/-!
# Effects in lowered text

Which calls of program functions and which steps up or down stand in the text of an expression or simple
statement, how often, and in which order.

* `Spelled` dialects give texts that show exactly what their manner writes, among words of the target:
  `exhibits_zero` — default values, `exhibits_of_operands`, `exhibits_written` — expressions,
  `shows_writtenIn` — simple statements.
* `Context.vocabulary` — the words of the target; `Conveyed` — what a text shows of a statement's effects.
* `effects_emitted_once_in_order` — every text on every target conveys the effects.
* `effects_repeated_dropped_swapped` — operands with effects that are written twice or not at all, and a
  step behind the effects of its operand.
-/

set_option autoImplicit false

namespace CrossShader

open Effects Reader Text

/-! ## Types and default values -/

section Types

variable {c : Context} {manner : Manner} {library : String → Prop}
  (hspelled : Spelled c.dialect manner library)
  (hstructures : ∀ entry ∈ c.structures,
    IsIdentifier (flattenDots entry.1) ∧ library (c.dialect.structureTypeName entry.1))

include hspelled hstructures

theorem word_of_mappedType {type : TypeRef} {mapped : String} (h : c.mappedType type = .ok mapped) :
    IsIdentifier mapped ∧ library mapped := by
  rcases mappedType_cases h with htype | ⟨-, rfl, definition, hentry⟩
  · exact hspelled.type htype
  · have hname := hstructures _ hentry
    exact ⟨hspelled.structureType hname.1, hname.2⟩

theorem word_of_scalarType {loc : Location} {type : TypeRef} {mapped : String}
    (h : c.scalarType loc type = .ok mapped) : IsIdentifier mapped ∧ library mapped :=
  word_of_mappedType hspelled hstructures (mappedType_of_scalarType h)

/-- **Default values show nothing**, by the structures that they may consist of. -/
theorem exhibits_zero {loc : Location} {structures : List (String × Structure)} {type : TypeRef}
    {text : String} (h : c.zeroValueFrom loc structures type = .ok text) :
    Exhibits library false text [] := by
  induction structures generalizing type text with
  | nil =>
    obtain ⟨mapped, hmapped, hzero⟩ := zeroValueFrom_ok.1 h
    obtain ⟨hname, hword⟩ := word_of_scalarType hspelled hstructures hmapped
    exact hspelled.zero hname hword hzero
  | cons entry earlier ih =>
    obtain ⟨-, h⟩ | ⟨-, mapped, hmapped, hform⟩ := zeroValueFrom_ok.1 h
    · exact ih h
    obtain ⟨hname, hword⟩ := word_of_scalarType hspelled hstructures hmapped
    obtain hzero | ⟨-, texts, hfields, hconstruct⟩ := hform
    · exact hspelled.zero hname hword hzero
    -- a structure is built from its fields, whose structures come earlier
    obtain rfl := hspelled.construct hconstruct
    refine .silentCall hname (.openLibrary hword) fun text htext => ?_
    obtain ⟨field, -, zero, hzero, hfield⟩ := exists_left_of_forall₂ hfields text htext
    rcases hfield with ⟨-, rfl⟩ | ⟨-, element, helement, hconstruct⟩
    · exact (ih hzero).shows
    · obtain ⟨helement, -⟩ := word_of_scalarType hspelled hstructures helement
      obtain rfl := hspelled.construct hconstruct
      refine .arrayCall helement field.count fun text htext => ?_
      rw [List.eq_of_mem_replicate htext]
      exact (ih hzero).shows

end Types

/-! ## Expressions -/

/-- The name that an expression shows in its text is a single word. -/
def Expr.Worded (s : Scope) : Expr → Prop
  | .localVar name | .resource name | .member _ _ name => IsIdentifier name
  | .call function _ => (s.code.function? function).isSome → IsIdentifier function
  | _ => True

instance (s : Scope) : DecidablePred (Expr.Worded s)
  | .localVar name | .resource name | .member _ _ name => inferInstanceAs (Decidable (IsIdentifier name))
  | .call function _ =>
    inferInstanceAs (Decidable ((s.code.function? function).isSome → IsIdentifier function))
  | .literal _ | .staticMember .. | .index .. | .unary .. | .binary .. | .conditional ..
  | .construct .. | .cast .. => isTrue trivial

/-- The texts of some expressions show what `f` says. -/
def AllExhibit (s : Scope) (loc : Location) (library : String → Prop) (f : Expr → List Head)
    (es : List Expr) : Prop :=
  ∀ e ∈ es, ∀ text, s.lower loc e = .ok text → Exhibits library e.isCompound text (f e)

namespace AllExhibit

variable {s : Scope} {loc : Location} {library : String → Prop} {f : Expr → List Head} {es : List Expr}

theorem operand (hes : AllExhibit s loc library f es) {e : Expr} (he : e ∈ es) {text : String}
    (h : s.IsOperand loc e text) : Exhibits library false text (f e) := by
  obtain ⟨inner, hinner, rfl⟩ := h
  exact (hes e he inner hinner).operand

/-- The arguments of a library call. -/
theorem arguments (hes : AllExhibit s loc library f es) {texts : List String}
    (h : s.lowerAll loc es = .ok texts) :
    Presented library (List.zipWith s.argument es texts) (es.map f) := by
  have htexts := lowerAll_ok h
  clear h
  induction htexts with
  | nil => exact .nil
  | cons htext _ ih =>
    exact .cons (hes _ List.mem_cons_self _ htext) (ih fun e he => hes e (List.mem_cons_of_mem _ he))

theorem texts (hes : AllExhibit s loc library f es) {texts : List String}
    (h : s.lowerAll loc es = .ok texts) : List.Forall₂ (Shows library) texts (es.map f) := by
  have htexts := lowerAll_ok h
  clear h
  induction htexts with
  | nil => exact .nil
  | cons htext _ ih =>
    exact .cons (hes _ List.mem_cons_self _ htext).shows
      (ih fun e he => hes e (List.mem_cons_of_mem _ he))

end AllExhibit

section Expressions

variable {s : Scope} {loc : Location} {manner : Manner} {library : String → Prop}
  (hspelled : Spelled s.dialect manner library)

include hspelled

theorem isIdentifier_of_lowerMember {type name field : String} (hname : IsIdentifier name)
    (h : s.lowerMember loc type name = .ok field) : IsIdentifier field := by
  obtain ⟨-, -, -, -, rfl⟩ | ⟨-, hmember⟩ := lowerMember_cases h
  · exact hspelled.correct hname
  · exact hspelled.member hmember

/-- A binary operator, or the form that the remainder of floating-point numbers takes. -/
theorem shows_operator {op : BinaryOp} {left right : Expr} {a b : String} {as bs : List Head}
    (ha : Exhibits library false a as) (hb : Exhibits library false b bs) :
    Shows library (if op = .modulo then s.remainder left right a b else op.apply a b)
      (s.arrange manner (.binary op left right) [as, bs]) := by
  simp only [Scope.arrange, Scope.remainder]
  by_cases hop : op = .modulo
  · rw [if_pos hop]
    by_cases hfloat : (s.isFloat left || s.isFloat right) = true
    · rw [if_pos hfloat, if_pos ⟨hop, hfloat⟩]
      exact hspelled.remainder ha hb
    · rw [if_neg hfloat, if_neg fun hboth => hfloat hboth.2]
      exact ha.shows.binary .modulo hb.shows
  · rw [if_neg hop, if_neg fun hboth => hop hboth.1]
    exact ha.shows.binary op hb.shows

/-- A call of a program function or of a library function. -/
theorem exhibits_call {f : Expr → List Head} {function : String} {arguments : List Expr}
    {texts : List String} {text : String}
    (hname : (s.code.function? function).isSome → IsIdentifier function)
    (harguments : AllExhibit s loc library f arguments) (htexts : s.lowerAll loc arguments = .ok texts)
    (h : s.ComposedCall function arguments texts text) :
    Exhibits library false text (s.arrange manner (.call function arguments) (arguments.map f)) := by
  simp only [Scope.arrange]
  rcases h with ⟨hknown, rfl⟩ | ⟨hunknown, form, hform, happly⟩
  · obtain ⟨definition, hdefinition⟩ := Option.isSome_iff_exists.1 hknown
    rw [hdefinition]
    exact .call (hspelled.correct (hname hknown)) (.openCall _) (harguments.texts htexts)
  · rw [hunknown]
    exact hspelled.call hform (harguments.arguments htexts) happly

variable (hstructures : ∀ entry ∈ s.context.structures,
    IsIdentifier (flattenDots entry.1) ∧ library (s.dialect.structureTypeName entry.1))

include hstructures

/-- **One step:** if the texts of all operands show their effects, the text of the whole does. -/
theorem exhibits_of_operands {f : Expr → List Head} {e : Expr} (hworded : e.Worded s)
    (hoperands : AllExhibit s loc library f e.operands) {text : String} (h : s.lower loc e = .ok text) :
    Exhibits library e.isCompound text (s.arrange manner e (e.operands.map f)) := by
  have hcomposed := composed_of_lower h
  clear h
  cases e with
  | literal value => exact exhibits_literal hcomposed
  | localVar name =>
    obtain rfl := hcomposed
    exact .word (hspelled.correct hworded)
  | resource name =>
    obtain ⟨r, hr, rfl⟩ := hcomposed
    exact .word (hspelled.resource (resource?_name hr ▸ hworded))
  | member base type name =>
    obtain ⟨owner, field, howner, hfield, rfl⟩ := hcomposed
    have hbase := hoperands.operand List.mem_cons_self howner
    have hmember : Exhibits library false _ _ :=
      hbase.member (isIdentifier_of_lowerMember hspelled hworded hfield)
    simpa [Scope.arrange, Expr.operands, Expr.isCompound] using hmember
  | staticMember type name => exact hspelled.static hcomposed
  | index base i =>
    obtain ⟨owner, position, howner, hposition, rfl⟩ := hcomposed
    have hbase := hoperands.operand List.mem_cons_self howner
    have hi := hoperands i (List.mem_cons_of_mem _ List.mem_cons_self) position hposition
    have hindex : Exhibits library false _ _ := hbase.index hi.shows
    simpa [Scope.arrange, Expr.operands, Expr.isCompound] using hindex
  | unary op operand =>
    obtain ⟨inner, hinner, rfl⟩ := hcomposed
    have hunary := (hoperands.operand List.mem_cons_self hinner).unary op
    exact .of_compound (by simpa [Scope.arrange, Expr.operands] using hunary)
  | binary op left right =>
    obtain ⟨a, b, ha, hb, rfl⟩ := hcomposed
    have hleft := hoperands.operand List.mem_cons_self ha
    have hright := hoperands.operand (List.mem_cons_of_mem _ List.mem_cons_self) hb
    exact .of_compound (shows_operator hspelled hleft hright)
  | conditional condition accept reject =>
    obtain ⟨c, a, r, hc, ha, hr, rfl⟩ := hcomposed
    have hcondition := hoperands.operand List.mem_cons_self hc
    have haccept := hoperands.operand (List.mem_cons_of_mem _ List.mem_cons_self) ha
    have hreject := hoperands.operand (by simp [Expr.operands]) hr
    have hwhole := hcondition.shows.conditional haccept.shows hreject.shows
    exact .of_compound (by simpa [Scope.arrange, Expr.operands] using hwhole)
  | call function arguments =>
    obtain ⟨texts, htexts, hcall⟩ := hcomposed
    exact exhibits_call hspelled hworded hoperands htexts hcall
  | construct type arguments =>
    cases arguments with
    | nil => exact exhibits_zero hspelled hstructures hcomposed
    | cons first rest =>
      obtain ⟨mapped, texts, hmapped, htexts, hform⟩ := hcomposed
      obtain ⟨hname, hword⟩ := word_of_scalarType hspelled hstructures hmapped
      obtain rfl := hspelled.construct hform
      exact .call hname (.openLibrary hword) (hoperands.texts htexts)
  | cast type operand =>
    obtain ⟨mapped, inner, hmapped, hinner, hform⟩ := hcomposed
    obtain ⟨hname, hword⟩ := word_of_scalarType hspelled hstructures hmapped
    obtain rfl := hspelled.construct hform
    have hoperand := hoperands operand List.mem_cons_self inner hinner
    exact .call hname (.openLibrary hword) (.cons hoperand.shows .nil)

/-- **The text of an expression shows what its manner writes.** -/
theorem exhibits_written {e : Expr} (hworded : ∀ x : Expr, x.Part e → x.Worded s) {text : String}
    (h : s.lower loc e = .ok text) : Exhibits library e.isCompound text (s.written manner e) := by
  induction e using Expr.operands_induction generalizing text with
  | _ e ih =>
    rw [s.written_eq]
    refine exhibits_of_operands hspelled hstructures (hworded e .self) (fun o ho otext hotext => ?_) h
    exact ih o ho (fun x hx => hworded x (.operand ho hx)) hotext

end Expressions

/-- All names that a statement shows in its text are single words. -/
structure Worded (s : Scope) (stmt : Stmt) : Prop where
  declared : ∀ entry ∈ stmt.declared, IsIdentifier entry.1
  parts : ∀ e ∈ stmt.exprs, ∀ x : Expr, x.Part e → x.Worded s

theorem separator_assign (op : AssignOp) : Separator (" " ++ op.token ++ " ") := by
  intro m
  cases op <;> rfl

section Texts

variable {s : Scope} {manner : Manner} {library : String → Prop}
  (hspelled : Spelled s.dialect manner library)
  (hstructures : ∀ entry ∈ s.context.structures,
    IsIdentifier (flattenDots entry.1) ∧ library (s.dialect.structureTypeName entry.1))

include hspelled hstructures

theorem shows_declarator {loc : Location} {name : String} (hname : IsIdentifier name) {type : TypeRef}
    {count : Nat} {text : String} (h : s.declarator loc name type count = .ok text) :
    Shows library text [] := by
  obtain ⟨-, mapped, hmapped, rfl⟩ := declarator_ok h
  obtain ⟨htype, -⟩ := word_of_mappedType hspelled hstructures hmapped
  have hblank : Separator " " := fun _ => rfl
  have htyped : Shows library mapped [] := .word htype
  exact (htyped.separated hblank (.word (hspelled.correct hname))).counted count

/-- An assignment, or that of a floating-point remainder in full. -/
theorem shows_assignment {loc : Location} {place value : Expr} {op : AssignOp} {text : String}
    (hplace : ∀ x : Expr, x.Part place → x.Worded s) (hvalue : ∀ x : Expr, x.Part value → x.Worded s)
    (h : s.assignment loc place op value = .ok text) :
    Shows library text (s.writtenIn manner (.assign loc place op value)) := by
  obtain ⟨placeText, valueText, hplaceText, hvalueText, rfl⟩ := assignment_ok h
  have ha := exhibits_written hspelled hstructures hplace hplaceText
  have hb := exhibits_written hspelled hstructures hvalue hvalueText
  simp only [Scope.writtenIn]
  split
  · have hequals : Separator " = " := fun _ => rfl
    exact ha.shows.separated hequals (hspelled.remainder ha.operand hb.operand)
  · have htext : placeText ++ " " ++ op.token ++ " " ++ valueText =
        placeText ++ (" " ++ op.token ++ " ") ++ valueText := by
      simp only [String.append_assoc]
    have hwhole := ha.shows.separated (separator_assign op) hb.shows
    rw [← htext] at hwhole
    exact hwhole

/-- **The text of a simple statement shows what its manner writes.** -/
theorem shows_writtenIn {stmt : Stmt} (hworded : Worded s stmt) {text : String}
    (h : s.simple stmt = .ok text) : Shows library text (s.writtenIn manner stmt) := by
  cases stmt with
  | declare loc name type count value =>
    have hname : IsIdentifier name := hworded.declared (name, type) List.mem_cons_self
    cases value with
    | none => exact shows_declarator hspelled hstructures hname h
    | some value =>
      obtain ⟨declared, valueText, hdeclared, hvalueText, rfl⟩ := simple_declare_some_ok h
      have hvalue := exhibits_written hspelled hstructures
        (hworded.parts value List.mem_cons_self) hvalueText
      have hequals : Separator " = " := fun _ => rfl
      have hwritten : s.writtenIn manner (.declare loc name type count (some value)) =
          s.written manner value := by simp [Scope.writtenIn, Stmt.exprs]
      rw [hwritten]
      exact (shows_declarator hspelled hstructures hname hdeclared).separated hequals hvalue.shows
  | eval loc e =>
    have he := exhibits_written hspelled hstructures (hworded.parts e List.mem_cons_self) h
    simpa [Scope.writtenIn, Stmt.exprs] using he.shows
  | assign loc place op value =>
    exact shows_assignment hspelled hstructures (hworded.parts place List.mem_cons_self)
      (hworded.parts value (List.mem_cons_of_mem _ List.mem_cons_self)) h
  | block | ifElse | forLoop | whileLoop | doWhile | switch | foreach | breakLoop | continueLoop | ret
  | discard => cases h

end Texts

/-! ## Conveyed effects -/

/-- Words that stand before parentheses without a call of a program function: those of the target, and the
names of structures. -/
def Context.vocabulary (c : Context) : List String :=
  c.dialect.vocabulary ++ c.structures.map fun entry => c.dialect.structureTypeName entry.1

/-- A head that is no word of the vocabulary. -/
def Context.isOwn (c : Context) : Head → Bool
  | .call name => !c.vocabulary.contains name
  | .step _ => true

/-- **What a text shows of the effects of a simple statement.** -/
structure Conveyed (target : Target) (s : Scope) (stmt : Stmt) (text : String) : Prop where
  /-- The text shows the effects as the target writes them, among words of the vocabulary. -/
  written : Among (· ∈ s.context.vocabulary) (heads text) (s.writtenIn target.manner stmt)
  /-- If no operand that the target does not write exactly once has effects, then all effects are shown,
  and they are in the order of the walk if no operator follows effects. -/
  kept : target.Even s stmt → ∃ shown, Among (· ∈ s.context.vocabulary) (heads text) shown ∧
    shown.Perm (s.effectsOf stmt) ∧
    ((∀ e ∈ stmt.exprs, s.Clear Expr.trailed e) → shown = s.effectsOf stmt)
  /-- Then an effect that is no word of the vocabulary is in the text as often as in the statement. -/
  once : target.Even s stmt → ∀ head, s.context.isOwn head = true →
    (heads text).count head = (s.effectsOf stmt).count head
  /-- And then the text has no other heads but such words, and all in the order of the walk. -/
  ordered : target.Even s stmt → (∀ e ∈ stmt.exprs, s.Clear Expr.trailed e) →
    (heads text).filter s.context.isOwn = (s.effectsOf stmt).filter s.context.isOwn

theorem ne_call_of_isOwn {c : Context} {head : Head} (h : c.isOwn head = true) {name : String}
    (hname : name ∈ c.vocabulary) : head ≠ .call name := by
  rintro rfl
  have hcontains : c.vocabulary.contains name = true := List.contains_iff_mem.2 hname
  simp only [Context.isOwn, hcontains, Bool.not_true] at h
  cases h

theorem filter_isOwn {c : Context} {hs es : List Head} (h : Among (· ∈ c.vocabulary) hs es) :
    hs.filter c.isOwn = es.filter c.isOwn := by
  induction h with
  | nil => rfl
  | effect head _ ih => rw [List.filter_cons, List.filter_cons, ih]
  | library hname _ ih =>
    rw [List.filter_cons_of_neg fun hown => ne_call_of_isOwn hown hname rfl, ih]

/-- Texts that show what the target writes convey the effects. -/
theorem Conveyed.of_shows {target : Target} {s : Scope} {stmt : Stmt} {text : String}
    (hshows : Shows (· ∈ s.context.vocabulary) text (s.writtenIn target.manner stmt))
    (h : s.simple stmt = .ok text) : Conveyed target s stmt text := by
  obtain ⟨m, ⟨hs, hscan, hamong⟩, -⟩ := hshows
  have hheads : heads text = hs := by rw [heads, hscan]
  rw [← hheads] at hamong
  have hperm : target.Even s stmt → (s.writtenIn target.manner stmt).Perm (s.effectsOf stmt) := by
    intro heven
    rw [writtenIn_eq_once heven, effectsOf_simple h]
    exact .flatMap_left _ fun e _ => written_once_perm s e
  have heq : target.Even s stmt → (∀ e ∈ stmt.exprs, s.Clear Expr.trailed e) →
      s.writtenIn target.manner stmt = s.effectsOf stmt := by
    intro heven hclear
    rw [writtenIn_eq_once heven, effectsOf_simple h]
    exact List.flatMap_congr fun e he => written_once_eq (hclear e he)
  refine ⟨hamong, fun heven => ⟨_, hamong, hperm heven, heq heven⟩, fun heven head hown => ?_,
    fun heven hclear => ?_⟩
  · rw [hamong.count_eq fun name hname => ne_call_of_isOwn hown hname, (hperm heven).count_eq]
  · rw [filter_isOwn hamong, heq heven hclear]

/-- **Every effect is emitted once and in order**, but for what the targets' forms repeat or leave out and
for steps that follow their operands.  This holds of every expression, as the statement that evaluates it,
and of every simple statement. -/
theorem effects_emitted_once_in_order (target : Target) (s : Scope) (hdialect : s.dialect = target.dialect)
    (hstructures : ∀ entry ∈ s.context.structures, IsIdentifier (flattenDots entry.1)) :
    (∀ loc e text, (∀ x : Expr, x.Part e → x.Worded s) → s.lower loc e = .ok text →
      Conveyed target s (.eval loc e) text) ∧
    ∀ stmt text, Worded s stmt → s.simple stmt = .ok text → Conveyed target s stmt text := by
  have hspelled : Spelled s.dialect target.manner (· ∈ s.context.vocabulary) := by
    rw [hdialect]
    refine target.spelled fun word hword => List.mem_append_left _ ?_
    exact (congrArg Dialect.vocabulary hdialect).symm ▸ hword
  have hnames : ∀ entry ∈ s.context.structures, IsIdentifier (flattenDots entry.1) ∧
      s.dialect.structureTypeName entry.1 ∈ s.context.vocabulary := fun entry hentry =>
    ⟨hstructures entry hentry, List.mem_append_right _ (List.mem_map_of_mem hentry)⟩
  have hstmt : ∀ stmt text, Worded s stmt → s.simple stmt = .ok text → Conveyed target s stmt text :=
    fun stmt text hworded h => .of_shows (shows_writtenIn hspelled hnames hworded h) h
  refine ⟨fun loc e text hworded h => hstmt (.eval loc e) text ⟨nofun, ?_⟩ h, hstmt⟩
  intro root hroot
  rw [List.mem_singleton.1 hroot]
  exact hworded

/-- A function without a body of its own. -/
def Function.stub (name returns : String) (parameters : List Parameter) : Function where
  name := name
  returnType := ⟨returns, false⟩
  role := .plain
  parameters := parameters
  workgroup := {}
  body := []

/-- A scope with functions that are called for their effects; the name of one is a reserved word on
GLSL. -/
def Scope.calling (d : Dialect) : Scope where
  context :=
    { dialect := d
      code :=
        ⟨⟨[⟨"albedo", .texture2D, 0, none⟩]⟩,
          ⟨[.stub "Next" Host.int [⟨"n", ⟨Host.int, false⟩⟩],
            .stub "filter" Host.float [⟨"n", ⟨Host.int, false⟩⟩], .stub "Roll" Host.float []]⟩⟩
      structures := [("Scene.Light", ⟨"Scene.Light", [{ name := "power", type := ⟨Host.float, false⟩ }]⟩)] }
  stage := .fragment
  locals := [("x", ⟨Host.float, false⟩), ("a", ⟨Host.float, false⟩), ("i", ⟨Host.int, false⟩),
    ("k", ⟨Host.int, false⟩), ("uv", ⟨Host.vector2, false⟩)]

/-- Effects in an index, in arguments and in arguments of arguments, beside a floating-point remainder
that has none. -/
def Stmt.scatter : Stmt :=
  .assign .unknown
    (.index (.localVar "a") (.call "Next" [.unary .postIncrement (.localVar "i")])) .add
    (.binary .subtract
      (.binary .multiply (.call "filter" [.unary .preDecrement (.localVar "k")])
        (.call "System.MathF.Max"
          [.call "Next" [.literal (.int 2)], .cast ⟨Host.float, false⟩ (.literal (.int (-3)))]))
      (.binary .modulo (.localVar "x") (.literal (.float ⟨0x40000000⟩))))

/-- The text of `Stmt.scatter`. -/
def scatterText : String :=
  "a[Next(i++)] += (filter_(--k) * max(Next(2), float(-3))) - (x - 2.0 * trunc(x / 2.0))"

/-- A simple statement with its text, its effects in the order of the walk, and the heads of the text that
are no words of the vocabulary. -/
def Scope.Emits (s : Scope) (stmt : Stmt) (text : String) (effects shown : List Head) : Prop :=
  s.simple stmt = .ok text ∧ s.effectsOf stmt = effects ∧ (heads text).filter s.context.isOwn = shown

instance (s : Scope) (stmt : Stmt) (text : String) (effects shown : List Head) :
    Decidable (s.Emits stmt text effects shown) :=
  inferInstanceAs (Decidable (_ ∧ _ ∧ _))

theorem effects_emitted_once_in_order_scatter :
    Target.glsl330.Even (.calling (Glsl.dialect .core330)) .scatter ∧
      (Scope.calling (Glsl.dialect .core330)).Emits .scatter scatterText
        [.call "Next", .step "++", .call "filter_", .step "--", .call "Next"]
        [.call "Next", .step "++", .call "filter_", .step "--", .call "Next"] := by
  have htext : (Scope.calling (Glsl.dialect .core330)).simple .scatter = .ok scatterText := by
    decide +kernel
  have heven : Target.glsl330.Even (.calling (Glsl.dialect .core330)) .scatter := by decide +kernel
  have hclear : ∀ e ∈ Stmt.scatter.exprs,
      (Scope.calling (Glsl.dialect .core330)).Clear Expr.trailed e := by
    decide +kernel
  have hnodes : ∀ e ∈ Stmt.scatter.exprs, ∀ x ∈ e.nodes,
      x.Worded (.calling (Glsl.dialect .core330)) := by
    decide +kernel
  have hworded : Worded (.calling (Glsl.dialect .core330)) .scatter :=
    ⟨nofun, fun e he x hx => hnodes e he x (Expr.mem_nodes_iff_part.2 hx)⟩
  have hconveyed := (effects_emitted_once_in_order .glsl330 (.calling (Glsl.dialect .core330)) rfl
    (by decide)).2 .scatter scatterText hworded htext
  exact ⟨heven, htext, by decide +kernel, (hconveyed.ordered heven hclear).trans (by decide +kernel)⟩

/-- An element at an index that a call gives. -/
def Expr.chosen : Expr := .index (.localVar "a") (.call "Next" [.literal (.int 2)])

/-- A call in a floating-point remainder stands twice in it on GLSL, one in the place of an assigned
remainder three times, and one in the floored remainder twice on HLSL.  A call in the place of a sampler is
left out where textures have theirs built in.  A step behind an element comes after the call in its index,
although the walk meets the step first.  A name that is no single word may look like a call. -/
theorem effects_repeated_dropped_swapped :
    (Scope.calling (Glsl.dialect .core330)).Emits
      (.eval .unknown (.binary .modulo (.call "Roll" []) (.literal (.float ⟨0x40000000⟩))))
      "Roll() - 2.0 * trunc(Roll() / 2.0)" [.call "Roll"] [.call "Roll", .call "Roll"] ∧
    (Scope.calling (Glsl.dialect .core330)).Emits
      (.assign .unknown .chosen .modulo (.localVar "x"))
      "a[Next(2)] = a[Next(2)] - x * trunc(a[Next(2)] / x)" [.call "Next"]
      [.call "Next", .call "Next", .call "Next"] ∧
    (Scope.calling Hlsl.dialect).Emits
      (.eval .unknown (.call (Glsl.builtin "Mod") [.call "Roll" [], .localVar "x"]))
      "(Roll() - x * floor(Roll() / x))" [.call "Roll"] [.call "Roll", .call "Roll"] ∧
    (Scope.calling (Glsl.dialect .core330)).Emits
      (.eval .unknown
        (.call (Glsl.builtin "Sample") [.resource "albedo", .call "Roll" [], .localVar "uv"]))
      "texture(albedo, uv)" [.call "Roll"] [] ∧
    (Scope.calling (Glsl.dialect .core330)).Emits (.eval .unknown (.unary .postIncrement .chosen))
      "a[Next(2)]++" [.step "++", .call "Next"] [.call "Next", .step "++"] ∧
    (Scope.calling (Glsl.dialect .core330)).Emits (.eval .unknown (.localVar "Roll()"))
      "Roll()" [] [.call "Roll"] := by
  decide +kernel

end CrossShader

import CrossShader.Lowering.Function
import CrossShader.Proofs.BlockScope
import CrossShader.Target

/-!
# Remainders of floats

GLSL has a remainder of integers only, so lowering has to know which operands are floating point.  It
goes by declarations alone, while the host goes by types.

* `Context.floats` — whether an expression is floating point in the host.
* `Scope.steady` — the declaration that lowering goes by is as floating as the visible one.
* `Scope.decided` — the operand that lowering goes by is the one that decides.
* `floats_of_isFloat`, `isFloat_of_floats` — what lowering knows is true, and when it knows all.
* `float_remainder_selection` — the form of every remainder in a lowered body.
* `float_remainder_missed` — remainders of floats in the form for integers.
-/

set_option autoImplicit false

namespace CrossShader

/-! ## Host types -/

/-- Whether an operator computes with numbers. -/
def BinaryOp.isArithmetic : BinaryOp → Bool
  | add | subtract | multiply | divide | modulo => true
  | equal | notEqual | less | lessEqual | greater | greaterEqual | logicalAnd | logicalOr
  | bitwiseAnd | bitwiseOr | bitwiseXor | shiftLeft | shiftRight => false

/-- Whether a name is declared as floating point. -/
def Declarations.floats (declarations : Declarations) (name : String) : Bool :=
  (declarations.lookup name).any fun type => Host.isFloating type.name

/-- Whether an expression is floating point in the host, if `visible` can be seen from it.  Components of
vectors and matrices are, and so are all results of library functions; an arithmetic operator is as soon
as one operand is. -/
def Context.floats (c : Context) (visible : Declarations) : Expr → Bool
  | .literal value => Host.isFloating (Scope.literalType value)
  | .localVar name => visible.floats name
  | .resource name =>
    (c.code.resource? name).any fun r => r.valueType.any fun type => Host.isFloating type.name
  | .member _ declaringType name =>
    match c.structure? declaringType.name with
    | some definition => (definition.field? name).any fun field => Host.isFloating field.type.name
    | none => true
  | .staticMember type _ => type.name == Host.math || Host.isFloating type.name
  | .index base _ => c.floats visible base
  | .unary _ operand => c.floats visible operand
  | .binary op left right => op.isArithmetic && (c.floats visible left || c.floats visible right)
  | .conditional _ accept reject => c.floats visible accept || c.floats visible reject
  | .call function _ =>
    match c.code.function? function with
    | some f => Host.isFloating f.returnType.name
    | none => (c.dialect.intrinsics.get? function).isSome
  | .construct type _ => Host.isFloating type.name
  | .cast type _ => Host.isFloating type.name
termination_by structural e => e

namespace Scope

variable (s : Scope) (visible : Declarations)

/-- Whether the declarations that lowering goes by are as floating as the visible ones, and only
arithmetic operators have floating-point operands. -/
def steady : Expr → Bool
  | .localVar name => Declarations.floats s.locals name == visible.floats name
  | .index base _ => steady base
  | .unary _ operand => steady operand
  | .binary op left right => steady left && steady right &&
      (op.isArithmetic || !(s.context.floats visible left || s.context.floats visible right))
  | .conditional _ accept reject => steady accept && steady reject
  | .literal _ | .resource _ | .member .. | .staticMember .. | .call .. | .construct .. | .cast .. =>
    true
termination_by structural e => e

/-- Whether the declarations decide: a call is a call of a program function, and no operator has a
floating-point operand behind one that is not. -/
def decided : Expr → Bool
  | .index base _ => decided base
  | .unary _ operand => decided operand
  | .binary _ left right => decided left && decided right &&
      (s.context.floats visible left || !s.context.floats visible right)
  | .conditional _ accept reject => decided accept && decided reject &&
      (s.context.floats visible accept || !s.context.floats visible reject)
  | .call function _ => (s.code.function? function).isSome
  | .literal _ | .localVar _ | .resource _ | .member .. | .staticMember .. | .construct ..
  | .cast .. => true
termination_by structural e => e

end Scope

section Typing

variable {s : Scope} {visible : Declarations}

theorem any_or {a b : Option String} {p : String → Bool} (h : (a.or b).any p) :
    a.any p ∨ b.any p := by
  cases a with
  | none => exact .inr h
  | some _ => exact .inl h

theorem any_or_left {a b : Option String} {p : String → Bool} (h : a.any p) : (a.or b).any p := by
  cases a with
  | none => cases h
  | some _ => exact h

theorem isFloat_local (name : String) :
    s.isFloat (.localVar name) = Declarations.floats s.locals name := by
  show ((s.locals.lookup name).map (·.name)).any Host.isFloating = _
  rw [Option.any_map]
  rfl

theorem isFloat_resource (name : String) :
    s.isFloat (.resource name) = s.context.floats visible (.resource name) := by
  show ((s.code.resource? name).bind fun r => r.valueType.map (·.name)).any Host.isFloating =
    (s.code.resource? name).any fun r => r.valueType.any fun type => Host.isFloating type.name
  cases s.code.resource? name with
  | none => rfl
  | some r => exact Option.any_map

theorem isFloat_static (type : TypeRef) (name : String) :
    s.isFloat (.staticMember type name) = s.context.floats visible (.staticMember type name) := by
  show (if type.name = Host.math then some Host.float else some type.name).any Host.isFloating =
    (type.name == Host.math || Host.isFloating type.name)
  by_cases h : type.name = Host.math
  · rw [if_pos h, h]
    decide
  · rw [if_neg h, beq_false_of_ne h, Bool.false_or]
    rfl

theorem isFloat_field {base : Expr} {type : TypeRef} {name : String} {definition : Structure}
    (hs : s.context.structure? type.name = some definition) :
    s.isFloat (.member base type name) = s.context.floats visible (.member base type name) := by
  simp only [Scope.isFloat, Scope.hostType, Scope.memberType, Context.floats, hs, Option.any_map]

theorem isFloat_call {function : String} {arguments : List Expr} {f : Function}
    (hf : s.code.function? function = some f) :
    s.isFloat (.call function arguments) = s.context.floats visible (.call function arguments) := by
  have hf' : s.context.code.function? function = some f := hf
  simp only [Scope.isFloat, Scope.hostType, Context.floats, hf, hf', Option.map_some, Option.any_some]

/-- **What lowering takes for floating point is floating point in the host.** -/
theorem floats_of_isFloat {e : Expr} (hsteady : s.steady visible e) (h : s.isFloat e) :
    s.context.floats visible e := by
  cases e with
  | literal | construct | cast => exact h
  | localVar name =>
    rw [isFloat_local, eq_of_beq hsteady] at h
    exact h
  | resource name => exact isFloat_resource name ▸ h
  | staticMember type name => exact isFloat_static type name ▸ h
  | member base type name =>
    cases hs : s.context.structure? type.name with
    | none => simp only [Context.floats, hs]
    | some definition => rwa [isFloat_field hs] at h
  | index base i => exact floats_of_isFloat (e := base) hsteady h
  | unary op operand => exact floats_of_isFloat (e := operand) hsteady h
  | binary op left right =>
    simp only [Scope.steady, Bool.and_eq_true] at hsteady
    obtain ⟨⟨hleft, hright⟩, hop⟩ := hsteady
    have hfloats : s.context.floats visible left || s.context.floats visible right := by
      rcases any_or h with h | h
      · rw [floats_of_isFloat hleft h, Bool.true_or]
      · rw [floats_of_isFloat hright h, Bool.or_true]
    rw [hfloats, Bool.not_true, Bool.or_false] at hop
    rw [Context.floats, hfloats, hop]
    rfl
  | conditional condition accept reject =>
    simp only [Scope.steady, Bool.and_eq_true] at hsteady
    rw [Context.floats]
    rcases any_or h with h | h
    · rw [floats_of_isFloat hsteady.1 h, Bool.true_or]
    · rw [floats_of_isFloat hsteady.2 h, Bool.or_true]
  | call function arguments =>
    cases hf : s.code.function? function with
    | none =>
      -- lowering never takes the result of a library function for floating point
      simp only [Scope.isFloat, Scope.hostType, hf] at h
      cases h
    | some f => rwa [isFloat_call hf] at h
termination_by e

/-- A member that GLSL spells is one component of a vector, or up to four. -/
theorem isFloat_component {version : Glsl.Version} (hd : s.dialect = Glsl.dialect version)
    {base : Expr} {type : TypeRef} {name field : String} {loc : Location}
    (hs : s.context.structure? type.name = none)
    (h : s.lowerMember loc type.name name = .ok field) : s.isFloat (.member base type name) := by
  have hwidth : 0 < name.utf8ByteSize ∧ name.utf8ByteSize ≤ 4 := by
    obtain ⟨_, _, hdefinition, -, -⟩ | ⟨-, hmember⟩ := lowerMember_cases h
    · rw [hs] at hdefinition
      cases hdefinition
    · rw [hd] at hmember
      have hswizzle : (Host.vectorWidth type.name).bind (Swizzle.xyzw.lower name) = some field :=
        hmember
      obtain ⟨width, -, hlower⟩ := Option.bind_eq_some_iff.1 hswizzle
      unfold Swizzle.lower at hlower
      split at hlower
      · cases hlower
      · omega
  have hfloats : Host.isFloating Host.float ∧ Host.isFloating Host.vector2 ∧
      Host.isFloating Host.vector3 ∧ Host.isFloating Host.vector4 := by
    decide
  simp only [Scope.isFloat, Scope.hostType, Scope.memberType, hs]
  split
  · exact hfloats.1
  · have hcases : name.utf8ByteSize = 1 ∨ name.utf8ByteSize = 2 ∨ name.utf8ByteSize = 3 ∨
        name.utf8ByteSize = 4 := by omega
    rcases hcases with hsize | hsize | hsize | hsize
    · rw [hsize]
      exact hfloats.1
    · rw [hsize]
      exact hfloats.2.1
    · rw [hsize]
      exact hfloats.2.2.1
    · rw [hsize]
      exact hfloats.2.2.2

/-- **Where the declarations decide, lowering knows what is floating point in the host.** -/
theorem isFloat_of_floats {version : Glsl.Version} (hd : s.dialect = Glsl.dialect version) {e : Expr}
    {loc : Location} {text : String} (hlower : s.lower loc e = .ok text)
    (hsteady : s.steady visible e) (hdecided : s.decided visible e)
    (h : s.context.floats visible e) : s.isFloat e := by
  cases e with
  | literal | construct | cast => exact h
  | localVar name =>
    rw [isFloat_local, eq_of_beq hsteady]
    exact h
  | resource name => exact isFloat_resource name ▸ h
  | staticMember type name => exact isFloat_static type name ▸ h
  | member base type name =>
    cases hs : s.context.structure? type.name with
    | none =>
      obtain ⟨_, field, -, hfield, -⟩ := composed_of_lower hlower
      exact isFloat_component hd hs hfield
    | some definition => rwa [isFloat_field hs]
  | index base i =>
    obtain ⟨_, hbase⟩ := lower_operands hlower base List.mem_cons_self
    exact isFloat_of_floats (e := base) hd hbase hsteady hdecided h
  | unary op operand =>
    obtain ⟨_, hoperand⟩ := lower_operands hlower operand List.mem_cons_self
    exact isFloat_of_floats (e := operand) hd hoperand hsteady hdecided h
  | binary op left right =>
    simp only [Scope.steady, Scope.decided, Context.floats, Bool.and_eq_true] at hsteady hdecided h
    obtain ⟨_, hleft⟩ := lower_operands hlower left List.mem_cons_self
    -- the left operand is floating point if any is
    have hfirst : s.context.floats visible left := by
      rcases Bool.or_eq_true_iff.1 h.2 with hf | hf
      · exact hf
      · rw [hf, Bool.not_true, Bool.or_false] at hdecided
        exact hdecided.2
    exact any_or_left (isFloat_of_floats hd hleft hsteady.1.1 hdecided.1.1 hfirst)
  | conditional condition accept reject =>
    simp only [Scope.steady, Scope.decided, Context.floats, Bool.and_eq_true] at hsteady hdecided h
    obtain ⟨_, haccept⟩ := lower_operands hlower accept (List.mem_cons_of_mem _ List.mem_cons_self)
    have hfirst : s.context.floats visible accept := by
      rcases Bool.or_eq_true_iff.1 h with hf | hf
      · exact hf
      · rw [hf, Bool.not_true, Bool.or_false] at hdecided
        exact hdecided.2
    exact any_or_left (isFloat_of_floats hd haccept hsteady.1 hdecided.1.1 hfirst)
  | call function arguments =>
    obtain ⟨f, hf⟩ := Option.isSome_iff_exists.1 hdecided
    rwa [isFloat_call hf]
termination_by e

end Typing

/-! ## The form of a remainder -/

/-- Which form a remainder takes, `float` or `integer`.  The form for floats is taken only if an operand
is floating point, and it is taken as soon as one is of which the declarations decide, whatever they say of
the other. -/
structure RemainderForm (s : Scope) (visible : Declarations) (left right : Expr)
    (float integer text : String) : Prop where
  one_of_two : text = float ∨ text = integer
  forms_ne : float ≠ integer
  sound : s.steady visible left → s.steady visible right → text = float →
    s.context.floats visible left || s.context.floats visible right
  complete : ∀ e, e = left ∨ e = right → s.steady visible e → s.decided visible e →
    s.context.floats visible e → text = float

section Form

variable {version : Glsl.Version} {s : Scope} {visible : Declarations} {left right : Expr}
  {loc : Location}

/-- The forms are told apart by their lengths. -/
theorem float_form_ne (a b : String) : s!"{a} - {b} * trunc({a} / {b})" ≠ s!"{a} % {b}" := by
  intro heq
  have hlength := congrArg String.length heq
  simp only [String.length_append, toString] at hlength
  have htrunc : (" * trunc(" : String).length = 9 := rfl
  have hpercent : (" % " : String).length = 3 := rfl
  have hminus : (" - " : String).length = 3 := rfl
  omega

/-- The forms of assignments are told apart by what follows the target. -/
theorem assigned_form_ne (target a b : String) : target ++ " = " ++ a ≠ target ++ " %= " ++ b := by
  intro heq
  rw [String.append_assoc, String.append_assoc, String.append_right_inj] at heq
  have hsecond := congrArg (fun text => text.toList[1]?) heq
  simp [String.toList_append] at hsecond

theorem modulo_apply (a b : String) : BinaryOp.modulo.apply a b = s!"{a} % {b}" := by
  rw [← String.toList_inj]
  simp [BinaryOp.apply, BinaryOp.token, toString]

theorem modulo_assigned (a b : String) :
    s!"{a} {AssignOp.modulo.token} {b}" = s!"{a} %= {b}" := by
  rw [← String.toList_inj]
  simp [AssignOp.token, toString]

theorem simple_assign_modulo {leftText rightText : String} (hleft : s.lower loc left = .ok leftText)
    (hright : s.lower loc right = .ok rightText) :
    s.simple (.assign loc left .modulo right) = .ok
      (if s.isFloat left || s.isFloat right then
        s!"{leftText} = " ++ s.dialect.floatRemainder (Text.parenthesize left.isCompound leftText)
          (Text.parenthesize right.isCompound rightText)
      else s!"{leftText} %= {rightText}") := by
  show s.assignment loc left .modulo right = _
  unfold Scope.assignment
  rw [hleft, hright, ← modulo_assigned]
  cases s.isFloat left || s.isFloat right <;> rfl

theorem remainderForm_of_isFloat (hd : s.dialect = Glsl.dialect version)
    {float integer text leftText rightText : String}
    (hleft : s.lower loc left = .ok leftText) (hright : s.lower loc right = .ok rightText)
    (hne : float ≠ integer)
    (htext : text = if s.isFloat left || s.isFloat right then float else integer) :
    RemainderForm s visible left right float integer text := by
  have hiff : text = float ↔ s.isFloat left || s.isFloat right := by
    rw [htext]
    split
    · rename_i hfloat
      exact ⟨fun _ => hfloat, fun _ => rfl⟩
    · rename_i hfloat
      exact ⟨fun heq => absurd heq.symm hne, fun h => absurd h hfloat⟩
  refine ⟨?_, hne, fun hsteady hsteady' hfloat => ?_, fun e he hsteady hdecided hfloats => hiff.2 ?_⟩
  · rw [htext]
    split
    · exact .inl rfl
    · exact .inr rfl
  · rcases Bool.or_eq_true_iff.1 (hiff.1 hfloat) with h | h
    · rw [floats_of_isFloat hsteady h, Bool.true_or]
    · rw [floats_of_isFloat hsteady' h, Bool.or_true]
  · rcases he with rfl | rfl
    · rw [isFloat_of_floats hd hleft hsteady hdecided hfloats, Bool.true_or]
    · rw [isFloat_of_floats hd hright hsteady hdecided hfloats, Bool.or_true]

end Form

/-- What is visible where the body of a function begins. -/
def Function.visible (f : Function) : Declarations :=
  (f.parameters.map fun p => (p.name, p.type)).reverse

/-- **The form of every remainder in a lowered body**, of an expression and of an assignment, on every
version of GLSL. -/
theorem float_remainder_selection {version : Glsl.Version} {c : Context}
    (hc : c.dialect = Glsl.dialect version) {stage : Stage} {f : Function} {lines : List Text.Line}
    (h : c.functionLines stage f = .ok lines) {seen : Declarations} {t : Stmt}
    (ht : Block.Sees f.visible f.body seen t) :
    (∀ left right, (∃ e ∈ t.exprs, (Expr.binary .modulo left right).Part e) →
      ∃ a b text, (Scope.ofFunction c stage f).IsOperand t.location left a ∧
        (Scope.ofFunction c stage f).IsOperand t.location right b ∧
        (Scope.ofFunction c stage f).lower t.location (.binary .modulo left right) = .ok text ∧
        RemainderForm (Scope.ofFunction c stage f) (t.sight seen) left right
          s!"{a} - {b} * trunc({a} / {b})" s!"{a} % {b}" text) ∧
    (∀ loc target value, t = .assign loc target .modulo value →
      ∃ targetText valueText a b text,
        (Scope.ofFunction c stage f).lower loc target = .ok targetText ∧
        (Scope.ofFunction c stage f).lower loc value = .ok valueText ∧
        (Scope.ofFunction c stage f).IsOperand loc target a ∧
        (Scope.ofFunction c stage f).IsOperand loc value b ∧
        (Scope.ofFunction c stage f).simple t = .ok text ∧
        RemainderForm (Scope.ofFunction c stage f) seen target value
          (s!"{targetText} = " ++ s!"{a} - {b} * trunc({a} / {b})") s!"{targetText} %= {valueText}"
          text) := by
  obtain ⟨_, -, h⟩ := bind_ok.1 h
  obtain ⟨outlines, hbody, -⟩ := bind_ok.1 h
  generalize hs : Scope.ofFunction c stage f = s at hbody
  have hd : s.dialect = Glsl.dialect version := by rw [← hs]; exact hc
  obtain ⟨outline, houtline⟩ := outline_of_holds hbody (Block.holds_iff_sees.2 ⟨seen, ht⟩)
  have hfloat : ∀ a b, s.dialect.floatRemainder a b = s!"{a} - {b} * trunc({a} / {b})" :=
    fun a b => by rw [hd]; rfl
  constructor
  · rintro left right ⟨e, he, hpart⟩
    obtain ⟨_, hlower⟩ := outline_exprs houtline e he
    obtain ⟨text, htext⟩ := lower_of_part hpart hlower
    obtain ⟨a, b, ⟨leftText, hleft, ha⟩, ⟨rightText, hright, hb⟩, hform⟩ := composed_of_lower htext
    rw [if_pos rfl, Scope.remainder, hfloat, modulo_apply] at hform
    exact ⟨a, b, text, ⟨leftText, hleft, ha⟩, ⟨rightText, hright, hb⟩, htext,
      remainderForm_of_isFloat hd hleft hright (float_form_ne a b) hform⟩
  · rintro loc target value rfl
    obtain ⟨targetText, htarget⟩ := outline_exprs houtline target List.mem_cons_self
    obtain ⟨valueText, hvalue⟩ := outline_exprs houtline value
      (List.mem_cons_of_mem _ List.mem_cons_self)
    refine ⟨targetText, valueText, _, _, _, htarget, hvalue, ⟨targetText, htarget, rfl⟩,
      ⟨valueText, hvalue, rfl⟩, simple_assign_modulo htarget hvalue, ?_⟩
    rw [hfloat]
    exact remainderForm_of_isFloat hd htarget hvalue (assigned_form_ne _ _ _) rfl

/-- A function with two remainders of floats, one of them of a library result, and a remainder of
integers. -/
def Function.wrap : Function where
  name := "wrap"
  returnType := ⟨Host.float, false⟩
  role := .plain
  parameters := [⟨"a", ⟨Host.float, false⟩⟩, ⟨"i", ⟨Host.int, false⟩⟩]
  workgroup := {}
  body := [
    .whileLoop .unknown (.literal (.bool true)) [
      .assign .unknown (.localVar "i") .modulo (.literal (.int 3))],
    .eval .unknown (.binary .modulo (.call "System.MathF.Sin" [.localVar "a"])
      (.literal (.float ⟨0x40000000⟩))),
    .ret .unknown (some (.binary .modulo (.binary .add (.localVar "a") (.literal (.int 1)))
      (.localVar "i")))]

/-- What lowering knows of a function that is alone in its program. -/
def Context.alone (version : Glsl.Version) (f : Function) : Context :=
  ⟨Glsl.dialect version, ⟨.empty, ⟨[f]⟩⟩, []⟩

theorem float_remainder_selection_wrap :
    ((Context.alone .es300 .wrap).functionLines .fragment .wrap).toBool ∧
    (∃ a b : String, (Scope.ofFunction (.alone .es300 .wrap) .fragment .wrap).lower .unknown
      (.binary .modulo (.binary .add (.localVar "a") (.literal (.int 1))) (.localVar "i")) =
        .ok s!"{a} - {b} * trunc({a} / {b})") ∧
    (∃ a b : String, (Scope.ofFunction (.alone .es300 .wrap) .fragment .wrap).lower .unknown
      (.binary .modulo (.call "System.MathF.Sin" [.localVar "a"]) (.literal (.float ⟨0x40000000⟩))) =
        .ok s!"{a} - {b} * trunc({a} / {b})") ∧
    ∃ target value : String, (Scope.ofFunction (.alone .es300 .wrap) .fragment .wrap).simple
      (.assign .unknown (.localVar "i") .modulo (.literal (.int 3))) =
        .ok s!"{target} %= {value}" := by
  have hok : ((Context.alone .es300 .wrap).functionLines .fragment .wrap).toBool := by
    decide +kernel
  cases hlines : (Context.alone .es300 .wrap).functionLines .fragment .wrap with
  | error e => rw [hlines] at hok; cases hok
  | ok lines =>
    refine ⟨rfl, ?_, ?_, ?_⟩
    · obtain ⟨hexpr, -⟩ := float_remainder_selection rfl hlines (.later (.later .here))
      obtain ⟨a, b, text, -, -, htext, hform⟩ := hexpr _ _ ⟨_, List.mem_cons_self, .self⟩
      have hfloat := hform.complete _ (.inl rfl) (by decide) (by decide) (by decide)
      exact ⟨a, b, hfloat ▸ htext⟩
    · obtain ⟨hexpr, -⟩ := float_remainder_selection rfl hlines (.later .here)
      obtain ⟨a, b, text, -, -, htext, hform⟩ := hexpr _ _ ⟨_, List.mem_cons_self, .self⟩
      have hfloat := hform.complete _ (.inr rfl) (by decide) (by decide) (by decide)
      exact ⟨a, b, hfloat ▸ htext⟩
    · obtain ⟨-, hassign⟩ := float_remainder_selection rfl hlines (.nested List.mem_cons_self .here)
      obtain ⟨target, value, a, b, text, -, -, -, -, htext, hform⟩ := hassign _ _ _ rfl
      have hsound := hform.sound (by decide) (by decide)
      have hinteger := hform.one_of_two.resolve_left fun heq => absurd (hsound heq) (by decide)
      exact ⟨target, value, hinteger ▸ htext⟩

/-- A function with remainders of floats: of library results, of a sum behind an integer, and of a local
whose name is declared again in another block. -/
def Function.slip : Function where
  name := "slip"
  returnType := ⟨Host.void, false⟩
  role := .plain
  parameters := [⟨"a", ⟨Host.float, false⟩⟩, ⟨"i", ⟨Host.int, false⟩⟩]
  workgroup := {}
  body := [
    .eval .unknown (.binary .modulo (.call "System.MathF.Sin" [.localVar "a"])
      (.call "System.MathF.Cos" [.localVar "a"])),
    .eval .unknown (.binary .modulo (.binary .add (.localVar "i") (.localVar "a")) (.localVar "i")),
    .block .unknown [
      .declare .unknown "k" ⟨Host.float, false⟩ 0 none,
      .eval .unknown (.binary .modulo (.localVar "k") (.localVar "k"))],
    .block .unknown [.declare .unknown "k" ⟨Host.int, false⟩ 0 none]]

/-- These remainders are all written in the form for integers. -/
theorem float_remainder_missed :
    ((Context.alone .core330 .slip).functionLines .fragment .slip = .ok [
      .flush "void slip(float a, int i)", .flush "\x7b",
      .inner "sin(a) % cos(a);",
      .inner "(i + a) % i;",
      .inner "\x7b", ⟨2, "float k;"⟩, ⟨2, "k % k;"⟩, .inner "\x7d",
      .inner "\x7b", ⟨2, "int k;"⟩, .inner "\x7d",
      .flush "\x7d", .blank]) ∧
    (Context.alone .core330 .slip).floats Function.slip.visible
      (.call "System.MathF.Sin" [.localVar "a"]) ∧
    (Context.alone .core330 .slip).floats Function.slip.visible
      (.binary .add (.localVar "i") (.localVar "a")) ∧
    Block.Sees Function.slip.visible Function.slip.body
      (("k", ⟨Host.float, false⟩) :: Function.slip.visible)
      (.eval .unknown (.binary .modulo (.localVar "k") (.localVar "k"))) ∧
    (Context.alone .core330 .slip).floats (("k", ⟨Host.float, false⟩) :: Function.slip.visible)
      (.localVar "k") := by
  refine ⟨by decide +kernel, by decide, by decide, ?_, by decide⟩
  exact .later (.later (.nested List.mem_cons_self (.later .here)))

end CrossShader

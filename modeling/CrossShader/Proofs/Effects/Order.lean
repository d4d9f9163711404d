import CrossShader.Lowering.Stmt
import CrossShader.Proofs.Effects.Heads
import CrossShader.Proofs.Occurrence
import CrossShader.Proofs.Reader.Image
import CrossShader.Target
import Mathlib.Data.List.Perm.Basic

/-!
# The order of effects

The calls of program functions and the steps up or down of an expression, in the order of the walk
through it and in the order in which a target writes them.

* `Scope.effects` — the effects of an expression, in the order of the walk.
* `Manner` — which operands a form writes, how often, and in which order; `Target.manner` — on GLSL the
  remainder of floats has both operands twice, on HLSL the floored remainder does, and where textures have
  their samplers built in, a sample leaves the sampler out.
* `Scope.arrange`, `Scope.written`, `Scope.writtenIn` — the effects of an expression or simple statement
  as a manner writes them; a step that follows its operand stands behind the operand's effects.
* `Target.uneven`, `Target.unevenIn` — the operands that a target does not write exactly once.
* `written_eq_once`, `writtenIn_eq_once` — if these have no effects, every effect is written once.
* `written_once_perm`, `written_once_eq` — then the effects are those of the walk, and in its order if no
  operator follows effects.
-/

set_option autoImplicit false

namespace CrossShader

open Effects
open Glsl (builtin)

/-! ## Manners -/

/-- Which operands a form writes, how often, and in which order, by what the operands show. -/
structure Manner where
  /-- The remainder of floating-point numbers. -/
  remainder : List Head → List Head → List Head
  /-- A library call, by its name and its arguments. -/
  library : String → List (List Head) → List Head

/-- GLSL computes the remainder of floats from both operands twice; where textures have their samplers
built in, a sample has no place for one. -/
def Glsl.manner (version : Version) : Manner where
  remainder left right := (left ++ right) ++ (left ++ right)
  library function arguments :=
    if function = builtin "Sample" ∧ version.separateSamplers = false then
      (arguments.eraseIdx 1).flatten
    else arguments.flatten

/-- HLSL computes the floored remainder from both operands twice. -/
def Hlsl.manner : Manner where
  remainder left right := left ++ right
  library function arguments :=
    if function = builtin "Mod" then arguments.flatten ++ arguments.flatten
    else arguments.flatten

/-- The manner of a target. -/
def Target.manner : Target → Manner
  | glslEs300 => Glsl.manner .es300
  | glsl330 => Glsl.manner .core330
  | glsl450 => Glsl.manner .core450
  | hlsl => Hlsl.manner

/-- Every operand once, in order. -/
def Manner.once : Manner where
  remainder left right := left ++ right
  library _ arguments := arguments.flatten

/-! ## Effects -/

namespace Scope

/-- What an expression does itself: a call of a program function, or a step. -/
def effect? (s : Scope) : Expr → Option Head
  | .unary op _ => (steps op).head?
  | .call function _ => (s.code.function? function).map fun _ => .call (s.dialect.correct function)
  | _ => none

/-- The effects of an expression, in the order of the walk through it. -/
def effects (s : Scope) (e : Expr) : List Head := e.nodes.filterMap s.effect?

/-- The effects of an expression whose operands are written as `parts`. -/
def arrange (s : Scope) (manner : Manner) : Expr → List (List Head) → List Head
  | .unary op _, parts =>
    if op.followsOperand then parts.flatten ++ steps op else steps op ++ parts.flatten
  | .binary op left right, [a, b] =>
    if op = .modulo ∧ (s.isFloat left || s.isFloat right) then manner.remainder a b else a ++ b
  | .call function _, parts =>
    match s.code.function? function with
    | some _ => .call (s.dialect.correct function) :: parts.flatten
    | none => manner.library function parts
  | _, parts => parts.flatten

mutual
/-- The effects of an expression as a manner writes them. -/
def written (s : Scope) (manner : Manner) : Expr → List Head
  | .literal value => s.arrange manner (.literal value) []
  | .localVar name => s.arrange manner (.localVar name) []
  | .resource name => s.arrange manner (.resource name) []
  | .staticMember type name => s.arrange manner (.staticMember type name) []
  | .member base type name => s.arrange manner (.member base type name) [s.written manner base]
  | .index base i => s.arrange manner (.index base i) [s.written manner base, s.written manner i]
  | .unary op operand => s.arrange manner (.unary op operand) [s.written manner operand]
  | .binary op left right =>
    s.arrange manner (.binary op left right) [s.written manner left, s.written manner right]
  | .conditional c a r =>
    s.arrange manner (.conditional c a r)
      [s.written manner c, s.written manner a, s.written manner r]
  | .call function arguments =>
    s.arrange manner (.call function arguments) (s.writtenAll manner arguments)
  | .construct type arguments =>
    s.arrange manner (.construct type arguments) (s.writtenAll manner arguments)
  | .cast type operand => s.arrange manner (.cast type operand) [s.written manner operand]
termination_by structural e => e

/-- The effects of several expressions as a manner writes them. -/
def writtenAll (s : Scope) (manner : Manner) : List Expr → List (List Head)
  | [] => []
  | e :: rest => s.written manner e :: s.writtenAll manner rest
termination_by structural es => es
end

theorem writtenAll_eq_map (s : Scope) (manner : Manner) (es : List Expr) :
    s.writtenAll manner es = es.map (s.written manner) := by
  induction es with
  | nil => rfl
  | cons e es ih => rw [writtenAll, ih, List.map_cons]

theorem written_eq (s : Scope) (manner : Manner) (e : Expr) :
    s.written manner e = s.arrange manner e (e.operands.map (s.written manner)) := by
  cases e with
  | call function arguments | construct type arguments =>
    rw [written, writtenAll_eq_map]
    rfl
  | literal | localVar | resource | staticMember | member | index | unary | binary | conditional
  | cast => rfl

theorem effects_eq (s : Scope) (e : Expr) :
    s.effects e = (s.effect? e).toList ++ e.operands.flatMap s.effects := by
  rw [effects, Expr.nodes_eq, List.filterMap_cons, List.filterMap_flatMap]
  cases s.effect? e <;> rfl

end Scope

/-- The operand of an operator that follows it. -/
def Expr.trailed : Expr → List Expr
  | .unary op operand => if op.followsOperand then [operand] else []
  | _ => []

/-- None of the operands that `picked` picks, in an expression or a part of it, has effects. -/
def Scope.Clear (s : Scope) (picked : Expr → List Expr) (e : Expr) : Prop :=
  ∀ x : Expr, x.Part e → ∀ o ∈ picked x, s.effects o = []

instance (s : Scope) (picked : Expr → List Expr) : DecidablePred (s.Clear picked) := fun e =>
  decidable_of_iff (∀ x ∈ e.nodes, ∀ o ∈ picked x, s.effects o = [])
    (forall_congr' fun _ => imp_congr_left Expr.mem_nodes_iff_part)

theorem Scope.Clear.operand {s : Scope} {picked : Expr → List Expr} {e o : Expr} (h : s.Clear picked e)
    (ho : o ∈ e.operands) : s.Clear picked o :=
  fun x hx => h x (.operand ho hx)

/-! ## Once and in order -/

section Once

variable {s : Scope} {f : Expr → List Head}

/-- Written once, the operands' effects follow those of the whole, unless the operator follows. -/
theorem arrange_once_eq {e : Expr} (h : ∀ o ∈ e.trailed, f o = []) :
    s.arrange .once e (e.operands.map f) = (s.effect? e).toList ++ e.operands.flatMap f := by
  cases e with
  | unary op operand =>
    cases op <;>
      simp_all [Scope.arrange, Scope.effect?, Expr.operands, Expr.trailed, steps, UnaryOp.followsOperand]
  | call function arguments =>
    simp only [Scope.arrange, Scope.effect?, Expr.operands]
    cases s.code.function? function <;> rfl
  | binary op left right => simp [Scope.arrange, Scope.effect?, Expr.operands, Manner.once]
  | literal | localVar | resource | staticMember | member | index | conditional | construct | cast =>
    simp [Scope.arrange, Scope.effect?, Expr.operands, List.flatMap_def]

theorem arrange_once_perm (e : Expr) :
    (s.arrange .once e (e.operands.map f)).Perm ((s.effect? e).toList ++ e.operands.flatMap f) := by
  cases e with
  | unary op operand =>
    have hsteps : (s.effect? (.unary op operand)).toList = steps op := by cases op <;> rfl
    simp only [Scope.arrange, hsteps]
    split
    · exact List.perm_append_comm
    · exact .refl _
  | literal | localVar | resource | staticMember | member | index | conditional | construct | cast
  | call | binary =>
    exact .of_eq (arrange_once_eq nofun)

/-- **Written once, every effect is there once.** -/
theorem written_once_perm (s : Scope) (e : Expr) : (s.written .once e).Perm (s.effects e) := by
  induction e using Expr.operands_induction with
  | _ e ih =>
    rw [s.written_eq, s.effects_eq]
    exact (arrange_once_perm e).trans (.append_left _ (.flatMap_left _ ih))

/-- **Written once, the effects are in the order of the walk**, if no operator follows effects. -/
theorem written_once_eq {e : Expr} (h : s.Clear Expr.trailed e) : s.written .once e = s.effects e := by
  induction e using Expr.operands_induction with
  | _ e ih =>
    have hoperands : ∀ o ∈ e.operands, s.written .once o = s.effects o := fun o ho =>
      ih o ho (h.operand ho)
    rw [s.written_eq, s.effects_eq, List.map_congr_left hoperands]
    exact arrange_once_eq (h e .self)

end Once

/-! ## Operands that are not written once -/

namespace Target

/-- The operands of a floating-point remainder that a target writes more than once. -/
def repeated (target : Target) (left right : Expr) : List Expr :=
  match target with
  | glslEs300 | glsl330 | glsl450 => [left, right]
  | hlsl => []

/-- The arguments of a library call that a target writes more than once, or not at all. -/
def unevenArguments (target : Target) (function : String) (arguments : List Expr) : List Expr :=
  match target with
  | glslEs300 | glsl330 => if function = builtin "Sample" then arguments[1]?.toList else []
  | glsl450 => []
  | hlsl => if function = builtin "Mod" then arguments else []

/-- The operands of an expression that a target does not write exactly once. -/
def uneven (target : Target) (s : Scope) : Expr → List Expr
  | .binary op left right =>
    if op = .modulo ∧ (s.isFloat left || s.isFloat right) then target.repeated left right else []
  | .call function arguments =>
    if (s.code.function? function).isSome then [] else target.unevenArguments function arguments
  | _ => []

end Target

section Uneven

variable {s : Scope} {target : Target} {f : Expr → List Head}

theorem remainder_eq_once {left right : Expr} (h : ∀ o ∈ target.repeated left right, f o = []) :
    target.manner.remainder (f left) (f right) = f left ++ f right := by
  cases target with
  | glslEs300 | glsl330 | glsl450 =>
    have hleft : f left = [] := h left List.mem_cons_self
    have hright : f right = [] := h right (List.mem_cons_of_mem _ List.mem_cons_self)
    rw [hleft, hright]
    rfl
  | hlsl => rfl

theorem flatten_eraseIdx {α : Type} {parts : List (List α)} {i : Nat} (h : ∀ part ∈ parts[i]?, part = []) :
    (parts.eraseIdx i).flatten = parts.flatten := by
  induction parts generalizing i with
  | nil => rfl
  | cons first rest ih =>
    cases i with
    | zero =>
      have hfirst : first = [] := h first rfl
      rw [hfirst]
      rfl
    | succ i => rw [List.eraseIdx_cons_succ, List.flatten_cons, List.flatten_cons, ih h]

theorem library_eq_once {function : String} {arguments : List Expr}
    (h : ∀ o ∈ target.unevenArguments function arguments, f o = []) :
    target.manner.library function (arguments.map f) = (arguments.map f).flatten := by
  cases target with
  | glslEs300 | glsl330 =>
    simp only [Target.manner, Glsl.manner]
    split
    · rename_i hsample
      simp only [Target.unevenArguments, if_pos hsample.1, Option.mem_toList] at h
      -- the sampler is left out, but has no effects
      refine flatten_eraseIdx fun part hpart => ?_
      rw [List.getElem?_map] at hpart
      obtain ⟨o, ho, rfl⟩ := Option.map_eq_some_iff.1 hpart
      exact h o ho
    · rfl
  | glsl450 => exact if_neg fun hboth => nomatch hboth.2
  | hlsl =>
    simp only [Target.manner, Hlsl.manner]
    split
    · rename_i hmod
      simp only [Target.unevenArguments, if_pos hmod] at h
      -- the arguments are written twice, but have no effects
      have hnil : (arguments.map f).flatten = [] := by
        rw [List.flatten_eq_nil_iff]
        intro part hpart
        obtain ⟨o, ho, rfl⟩ := List.mem_map.1 hpart
        exact h o ho
      rw [hnil]
      rfl
    · rfl

theorem arrange_eq_once {e : Expr} (h : ∀ o ∈ target.uneven s e, f o = []) :
    s.arrange target.manner e (e.operands.map f) = s.arrange .once e (e.operands.map f) := by
  cases e with
  | binary op left right =>
    simp only [Target.uneven] at h
    simp only [Scope.arrange, Expr.operands, List.map_cons, List.map_nil, Manner.once, ite_self]
    split
    · rename_i hfloat
      rw [if_pos hfloat] at h
      exact remainder_eq_once h
    · rfl
  | call function arguments =>
    simp only [Target.uneven] at h
    simp only [Scope.arrange, Expr.operands, Manner.once]
    cases hfunction : s.code.function? function with
    | some _ => rfl
    | none =>
      rw [hfunction] at h
      exact library_eq_once h
  | literal | localVar | resource | staticMember | member | index | unary | conditional | construct
  | cast => rfl

theorem written_once_eq_nil {e : Expr} (h : s.effects e = []) : s.written .once e = [] := by
  have hperm := written_once_perm s e
  rw [h] at hperm
  exact hperm.eq_nil

/-- **Where the other operands are free of effects, all effects are written once.** -/
theorem written_eq_once {e : Expr} (h : s.Clear (target.uneven s) e) :
    s.written target.manner e = s.written .once e := by
  induction e using Expr.operands_induction with
  | _ e ih =>
    have hoperands : ∀ o ∈ e.operands, s.written target.manner o = s.written .once o := fun o ho =>
      ih o ho (h.operand ho)
    rw [s.written_eq, s.written_eq, List.map_congr_left hoperands]
    exact arrange_eq_once fun o ho => written_once_eq_nil (h e .self o ho)

end Uneven

/-! ## Simple statements -/

namespace Scope

/-- The effects of a statement, in the order of the walk through it. -/
def effectsOf (s : Scope) (stmt : Stmt) : List Head :=
  stmt.nodes.filterMap fun
    | ⟨.expr e, _⟩ => s.effect? e
    | ⟨.stmt _, _⟩ => none

/-- The effects of a simple statement as a manner writes them.  The place of a floating-point remainder is
written before the remainder, and again in it. -/
def writtenIn (s : Scope) (manner : Manner) : Stmt → List Head
  | .assign _ place op value =>
    let a := s.written manner place
    let b := s.written manner value
    a ++ if op = .modulo ∧ (s.isFloat place || s.isFloat value) then manner.remainder a b else b
  | stmt => stmt.exprs.flatMap (s.written manner)

end Scope

/-- The operands of a simple statement that a target does not write exactly once. -/
def Target.unevenIn (target : Target) (s : Scope) : Stmt → List Expr
  | .assign _ place op value =>
    if op = .modulo ∧ (s.isFloat place || s.isFloat value) then place :: target.repeated place value
    else []
  | _ => []

/-- No operand that a target does not write exactly once has effects. -/
def Target.Even (target : Target) (s : Scope) (stmt : Stmt) : Prop :=
  (∀ o ∈ target.unevenIn s stmt, s.effects o = []) ∧ ∀ e ∈ stmt.exprs, s.Clear (target.uneven s) e

instance (target : Target) (s : Scope) (stmt : Stmt) : Decidable (target.Even s stmt) :=
  inferInstanceAs (Decidable (_ ∧ _))

section Statements

variable {s : Scope} {stmt : Stmt} {text : String}

theorem effectsOf_located (loc : Location) (e : Expr) :
    ((e.located loc).filterMap fun
      | ⟨.expr x, _⟩ => s.effect? x
      | ⟨.stmt _, _⟩ => none) = s.effects e := by
  rw [Expr.located, List.filterMap_map]
  rfl

/-- The effects of a simple statement are those of its expressions. -/
theorem effectsOf_simple (h : s.simple stmt = .ok text) :
    s.effectsOf stmt = stmt.exprs.flatMap s.effects := by
  cases stmt with
  | declare loc name type count value =>
    cases value with
    | none => rfl
    | some e => simp [Scope.effectsOf, Stmt.nodes, Stmt.exprs, effectsOf_located]
  | eval loc e => simp [Scope.effectsOf, Stmt.nodes, Stmt.exprs, effectsOf_located]
  | assign loc place op value => simp [Scope.effectsOf, Stmt.nodes, Stmt.exprs, effectsOf_located]
  | block | ifElse | forLoop | whileLoop | doWhile | switch | foreach | breakLoop | continueLoop | ret
  | discard => cases h

/-- **Where the other operands are free of effects, a statement's effects are written once.** -/
theorem writtenIn_eq_once {target : Target} (h : target.Even s stmt) :
    s.writtenIn target.manner stmt = stmt.exprs.flatMap (s.written .once) := by
  obtain ⟨hstmt, hexprs⟩ := h
  have honce : ∀ e ∈ stmt.exprs, s.written target.manner e = s.written .once e := fun e he =>
    written_eq_once (hexprs e he)
  cases stmt with
  | assign loc place op value =>
    have hplace : s.written target.manner place = s.written .once place :=
      honce place List.mem_cons_self
    have hvalue : s.written target.manner value = s.written .once value :=
      honce value (List.mem_cons_of_mem _ List.mem_cons_self)
    simp only [Target.unevenIn] at hstmt
    simp only [Scope.writtenIn, hplace, hvalue, Stmt.exprs, List.flatMap_cons, List.flatMap_nil,
      List.append_nil]
    split
    · rename_i hfloat
      rw [if_pos hfloat] at hstmt
      have hnil : ∀ o ∈ place :: target.repeated place value, s.written .once o = [] := fun o ho =>
        written_once_eq_nil (hstmt o ho)
      rw [remainder_eq_once fun o ho => hnil o (List.mem_cons_of_mem _ ho),
        hnil place List.mem_cons_self, List.nil_append]
    · rfl
  | declare | eval | block | ifElse | forLoop | whileLoop | doWhile | switch | foreach | breakLoop
  | continueLoop | ret | discard => exact List.flatMap_congr honce

end Statements

end CrossShader

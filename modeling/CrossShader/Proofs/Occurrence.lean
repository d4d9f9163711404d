import CrossShader.Traversal
import Mathlib.Data.List.Basic

/-!
# Occurrences

Where a statement or an expression stands in a body, said by the shape of the trees alone, and the
lexical order as a list of all such places.

* `Expr.operands`, `Expr.Part` — immediate operands, and parts at any depth;
  `Expr.operands_induction`.
* `Stmt.exprs`, `Stmt.inner`, `Stmt.Inside` — the expressions that a statement holds itself, the
  statements that it holds, and statements at any depth.
* `Block.Holds`, `Block.Innermost` — a statement of a body, and an expression with the innermost
  statement around it.
* `Block.stmt_mem_nodes`, `Block.expr_mem_nodes`, `Block.mem_calls` — the nodes and the calls of a body
  are exactly these places.
-/

set_option autoImplicit false

namespace CrossShader

namespace Expr

/-- The immediate operands of an expression. -/
def operands : Expr → List Expr
  | literal _ | localVar _ | resource _ | staticMember .. => []
  | member base _ _ => [base]
  | index base i => [base, i]
  | unary _ operand => [operand]
  | binary _ left right => [left, right]
  | conditional c a r => [c, a, r]
  | call _ arguments => arguments
  | construct _ arguments => arguments
  | cast _ operand => [operand]

/-- `e.Part whole`: `e` is `whole` or a part of one of its operands. -/
inductive Part (e : Expr) : Expr → Prop
  | self : Part e e
  | operand {o whole : Expr} : o ∈ whole.operands → Part e o → Part e whole

theorem sizeOf_lt_of_mem_operands {o e : Expr} (h : o ∈ e.operands) : sizeOf o < sizeOf e := by
  cases e with
  | literal | localVar | resource | staticMember => cases h
  | call f arguments | construct t arguments =>
    have : sizeOf o < sizeOf arguments := List.sizeOf_lt_of_mem h
    simp only [call.sizeOf_spec, construct.sizeOf_spec]
    omega
  | member | index | unary | binary | conditional | cast =>
    simp only [operands, List.mem_cons, List.not_mem_nil, or_false] at h
    rcases h with rfl | rfl | rfl <;> simp <;> omega

/-- What holds of an expression as soon as it holds of its operands, holds of every expression. -/
theorem operands_induction {P : Expr → Prop} (h : ∀ e, (∀ o ∈ e.operands, P o) → P e) (e : Expr) :
    P e := by
  induction hn : sizeOf e using Nat.strongRecOn generalizing e with
  | _ n ih =>
    subst hn
    exact h e fun o ho => ih _ (sizeOf_lt_of_mem_operands ho) o rfl

theorem nodesAll_eq (es : List Expr) : nodesAll es = es.flatMap nodes := by
  induction es with
  | nil => rfl
  | cons e es ih => rw [nodesAll, ih, List.flatMap_cons]

/-- The nodes of an expression are itself and the nodes of its operands, in order. -/
theorem nodes_eq (e : Expr) : e.nodes = e :: e.operands.flatMap nodes := by
  cases e with
  | literal | localVar | resource | staticMember | member | index | unary | binary | conditional
  | cast => simp [nodes, operands]
  | call f arguments | construct t arguments => simp [nodes, operands, nodesAll_eq]

theorem mem_nodes {x e : Expr} : x ∈ e.nodes ↔ x = e ∨ ∃ o ∈ e.operands, x ∈ o.nodes := by
  rw [nodes_eq, List.mem_cons, List.mem_flatMap]

/-- **The nodes of an expression are its parts.** -/
theorem mem_nodes_iff_part {x e : Expr} : x ∈ e.nodes ↔ x.Part e := by
  constructor
  · induction e using operands_induction with
    | _ e ih =>
      intro h
      obtain rfl | ⟨o, ho, hx⟩ := mem_nodes.1 h
      · exact .self
      · exact .operand ho (ih o ho hx)
  · intro h
    induction h with
    | self => exact mem_nodes.2 (.inl rfl)
    | operand ho _ ih => exact mem_nodes.2 (.inr ⟨_, ho, ih⟩)

theorem mem_located {n : Located} {loc : Location} {e : Expr} :
    n ∈ e.located loc ↔ ∃ x, x.Part e ∧ n = ⟨.expr x, loc⟩ := by
  simp only [located, List.mem_map, mem_nodes_iff_part]
  exact exists_congr fun x => and_congr_right fun _ => eq_comm

end Expr

/-- The body of a case. -/
def SwitchCase.body : SwitchCase → List Stmt
  | .mk _ _ body => body

namespace Stmt

/-- The expressions that a statement holds itself, outside of the statements in it. -/
def exprs : Stmt → List Expr
  | declare _ _ _ _ value => value.toList
  | eval _ e => [e]
  | assign _ target _ value => [target, value]
  | ifElse _ condition _ _ => [condition]
  | forLoop _ _ condition _ _ => condition.toList
  | whileLoop _ condition _ => [condition]
  | doWhile _ _ condition => [condition]
  | switch _ selector _ => [selector]
  | foreach _ _ _ collection _ => [collection]
  | ret _ value => value.toList
  | block .. | breakLoop _ | continueLoop _ | discard _ => []

/-- The statements that a statement holds. -/
def inner : Stmt → List Stmt
  | block _ body => body
  | ifElse _ _ accept reject => accept ++ reject
  | forLoop _ start _ step body => start.toList ++ step ++ body
  | whileLoop _ _ body => body
  | doWhile _ body _ => body
  | switch _ _ cases => cases.flatMap SwitchCase.body
  | foreach _ _ _ _ body => body
  | declare .. | eval .. | assign .. | breakLoop _ | continueLoop _ | ret .. | discard _ => []

/-- `t.Inside s`: `t` is `s` or stands inside of a statement that `s` holds. -/
inductive Inside (t : Stmt) : Stmt → Prop
  | self : Inside t t
  | nested {u s : Stmt} : u ∈ s.inner → Inside t u → Inside t s

theorem Inside.trans {t u s : Stmt} (htu : t.Inside u) (hus : u.Inside s) : t.Inside s := by
  induction hus with
  | self => exact htu
  | nested hv _ ih => exact .nested hv ih

theorem sizeOf_lt_of_mem_inner {t s : Stmt} (h : t ∈ s.inner) : sizeOf t < sizeOf s := by
  cases s with
  | declare | eval | assign | breakLoop | continueLoop | ret | discard => cases h
  | block loc body | whileLoop loc c body | doWhile loc body c | foreach loc item type c body =>
    have : sizeOf t < sizeOf body := List.sizeOf_lt_of_mem h
    simp only [block.sizeOf_spec, whileLoop.sizeOf_spec, doWhile.sizeOf_spec, foreach.sizeOf_spec]
    omega
  | ifElse loc c accept reject =>
    simp only [inner, List.mem_append] at h
    simp only [ifElse.sizeOf_spec]
    rcases h with h | h <;> have := List.sizeOf_lt_of_mem h <;> omega
  | forLoop loc start c step body =>
    simp only [inner, List.mem_append, Option.mem_toList] at h
    simp only [forLoop.sizeOf_spec]
    rcases h with (rfl | h) | h
    · simp only [Option.some.sizeOf_spec]
      omega
    · have := List.sizeOf_lt_of_mem h
      omega
    · have := List.sizeOf_lt_of_mem h
      omega
  | switch loc selector cases =>
    obtain ⟨case, hcase, ht⟩ := List.mem_flatMap.1 h
    obtain ⟨labels, isDefault, body⟩ := case
    have h₁ := List.sizeOf_lt_of_mem hcase
    have h₂ : sizeOf t < sizeOf body := List.sizeOf_lt_of_mem ht
    simp only [SwitchCase.mk.sizeOf_spec] at h₁
    simp only [switch.sizeOf_spec]
    omega

end Stmt

namespace Block

theorem mem_nodes {n : Located} {body : List Stmt} :
    n ∈ Block.nodes body ↔ ∃ s ∈ body, n ∈ Stmt.nodes s := by
  induction body with
  | nil => simp [Block.nodes]
  | cons s rest ih => simp [Block.nodes, ih]

end Block

theorem SwitchCase.mem_nodesAll {n : Located} {cases : List SwitchCase} :
    n ∈ SwitchCase.nodesAll cases ↔ ∃ s ∈ cases.flatMap SwitchCase.body, n ∈ Stmt.nodes s := by
  induction cases with
  | nil => simp [SwitchCase.nodesAll]
  | cons case rest ih =>
    obtain ⟨labels, isDefault, body⟩ := case
    simp only [SwitchCase.nodesAll, List.mem_append, ih, Block.mem_nodes, List.flatMap_cons,
      SwitchCase.body, or_and_right, exists_or]

namespace Stmt

/-- The nodes of a statement are itself, the parts of its own expressions, and the nodes of the
statements that it holds. -/
theorem mem_nodes {n : Located} {s : Stmt} :
    n ∈ Stmt.nodes s ↔ n = ⟨.stmt s, s.location⟩ ∨
      (∃ e ∈ s.exprs, n ∈ e.located s.location) ∨ ∃ t ∈ s.inner, n ∈ Stmt.nodes t := by
  cases s with
  | forLoop loc start condition step body =>
    cases start <;>
      simp [Stmt.nodes, Block.mem_nodes, location, exprs, inner, or_and_right, exists_or,
        or_left_comm]
  | switch loc selector cases =>
    simp [Stmt.nodes, SwitchCase.mem_nodesAll, location, exprs, inner]
  | _ =>
    simp [Stmt.nodes, Block.mem_nodes, location, exprs, inner, or_and_right, exists_or, or_assoc,
      or_comm]

/-- A node of a statement is a statement inside of it, or a part of an expression that such a
statement holds itself. -/
theorem mem_nodes_iff_inside {n : Located} {s : Stmt} :
    n ∈ Stmt.nodes s ↔
      ∃ t : Stmt, t.Inside s ∧
        (n = ⟨.stmt t, t.location⟩ ∨ ∃ e ∈ t.exprs, n ∈ e.located t.location) := by
  constructor
  · intro h
    induction hn : sizeOf s using Nat.strongRecOn generalizing s with
    | _ k ih =>
      subst hn
      obtain h | h | ⟨t, ht, hmem⟩ := mem_nodes.1 h
      · exact ⟨s, .self, .inl h⟩
      · exact ⟨s, .self, .inr h⟩
      · obtain ⟨u, hu, hn⟩ := ih _ (sizeOf_lt_of_mem_inner ht) hmem rfl
        exact ⟨u, .nested ht hu, hn⟩
  · rintro ⟨t, ht, hn⟩
    induction ht with
    | self => exact mem_nodes.2 (hn.elim .inl fun h => .inr (.inl h))
    | nested hu _ ih => exact mem_nodes.2 (.inr (.inr ⟨_, hu, ih⟩))

end Stmt

namespace Block

/-- A statement stands in a body, at any depth. -/
def Holds (body : List Stmt) (t : Stmt) : Prop := ∃ s ∈ body, t.Inside s

/-- An expression stands in a body, and `t` is the innermost statement around it. -/
def Innermost (body : List Stmt) (t : Stmt) (e : Expr) : Prop :=
  Holds body t ∧ ∃ own ∈ t.exprs, e.Part own

theorem stmt_mem_nodes {body : List Stmt} {t : Stmt} {loc : Location} :
    ⟨.stmt t, loc⟩ ∈ Block.nodes body ↔ Holds body t ∧ loc = t.location := by
  simp only [mem_nodes, Stmt.mem_nodes_iff_inside, Expr.mem_located, Holds, Located.mk.injEq,
    Node.stmt.injEq, reduceCtorEq, false_and, and_false, exists_false, or_false]
  constructor
  · rintro ⟨s, hs, t', hin, rfl, rfl⟩
    exact ⟨⟨s, hs, hin⟩, rfl⟩
  · rintro ⟨⟨s, hs, hin⟩, rfl⟩
    exact ⟨s, hs, t, hin, rfl, rfl⟩

theorem expr_mem_nodes {body : List Stmt} {e : Expr} {loc : Location} :
    ⟨.expr e, loc⟩ ∈ Block.nodes body ↔ ∃ t, Innermost body t e ∧ loc = t.location := by
  simp only [mem_nodes, Stmt.mem_nodes_iff_inside, Expr.mem_located, Innermost, Holds,
    Located.mk.injEq, Node.expr.injEq, reduceCtorEq, false_and, false_or]
  constructor
  · rintro ⟨s, hs, t, hin, own, hown, x, hx, rfl, rfl⟩
    exact ⟨t, ⟨⟨s, hs, hin⟩, own, hown, hx⟩, rfl⟩
  · rintro ⟨t, ⟨⟨s, hs, hin⟩, own, hown, hx⟩, rfl⟩
    exact ⟨s, hs, t, hin, own, hown, e, hx, rfl, rfl⟩

/-- **The calls of a body are its call nodes**, each at the location of the innermost statement
around it. -/
theorem mem_calls {body : List Stmt} {site : CallSite} :
    site ∈ Block.calls body ↔
      ∃ t arguments, Innermost body t (.call site.callee arguments) ∧ site.location = t.location := by
  obtain ⟨callee, loc⟩ := site
  simp only [calls, List.mem_filterMap]
  constructor
  · rintro ⟨⟨node, loc'⟩, hmem, heq⟩
    split at heq
    · rename_i function arguments loc'' hnode
      cases heq
      rw [hnode, expr_mem_nodes] at hmem
      obtain ⟨t, hin, hloc⟩ := hmem
      exact ⟨t, arguments, hin, hloc⟩
    · cases heq
  · rintro ⟨t, arguments, hin, rfl⟩
    exact ⟨_, expr_mem_nodes.2 ⟨t, hin, rfl⟩, rfl⟩

end Block

end CrossShader

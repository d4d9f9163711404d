import CrossShader.Proofs.Lowering
import CrossShader.Proofs.Occurrence

/-!
# Block scoping

Which declarations can be seen from a statement, and what it means for a body to be lowered.

* `Stmt.scopes` — the blocks that a statement holds, each with what is visible where it begins.
* `Block.Sees` — a statement of a body, with what is visible there.
* `Block.holds_iff_sees` — every statement of a body has such a view.
* `outline_of_holds`, `lower_of_part`, `lower_of_innermost` — a body is lowered only if every statement and
  every expression in it is.
-/

set_option autoImplicit false

namespace CrossShader

/-! ## Visible declarations -/

/-- Declared names with their types, the latest first. -/
abbrev Declarations := List (String × TypeRef)

namespace Stmt

/-- What a statement declares for the statements behind it. -/
def declared : Stmt → Declarations
  | declare _ name type _ _ => [(name, type)]
  | _ => []

/-- The blocks that a statement holds, each with what is visible where it begins.  The start of a `for`
loop is visible in the rest of the loop, and all cases of a `switch` are one block. -/
def scopes (visible : Declarations) : Stmt → List (Declarations × List Stmt)
  | block _ body => [(visible, body)]
  | ifElse _ _ accept reject => [(visible, accept), (visible, reject)]
  | forLoop _ start _ step body =>
    let inner := start.toList.flatMap declared ++ visible
    [(visible, start.toList), (inner, step), (inner, body)]
  | whileLoop _ _ body | doWhile _ body _ => [(visible, body)]
  | switch _ _ cases => [(visible, cases.flatMap SwitchCase.body)]
  | foreach _ item type _ body => [((item, type) :: visible, body)]
  | declare .. | eval .. | assign .. | breakLoop _ | continueLoop _ | ret .. | discard _ => []

/-- What is visible in the expressions that a statement holds itself. -/
def sight (visible : Declarations) : Stmt → Declarations
  | forLoop _ start _ _ _ => start.toList.flatMap declared ++ visible
  | _ => visible

theorem mem_inner_iff (visible : Declarations) {t u : Stmt} :
    u ∈ t.inner ↔ ∃ scope ∈ t.scopes visible, u ∈ scope.2 := by
  cases t <;> simp [inner, scopes]

end Stmt

/-- `Sees visible body seen t`: the statement `t` stands in the body, and if `visible` can be seen where
the body begins, then `seen` can be seen where `t` begins. -/
inductive Block.Sees : Declarations → List Stmt → Declarations → Stmt → Prop
  | here {visible : Declarations} {t : Stmt} {rest : List Stmt} : Sees visible (t :: rest) visible t
  | later {visible seen : Declarations} {first t : Stmt} {rest : List Stmt} :
      Sees (first.declared ++ visible) rest seen t → Sees visible (first :: rest) seen t
  | nested {visible seen : Declarations} {first t : Stmt} {rest : List Stmt}
      {scope : Declarations × List Stmt} :
      scope ∈ first.scopes visible → Sees scope.1 scope.2 seen t → Sees visible (first :: rest) seen t

namespace Block

theorem Sees.of_mem (visible : Declarations) {body : List Stmt} {t : Stmt} (h : t ∈ body) :
    ∃ seen, Sees visible body seen t := by
  induction body generalizing visible with
  | nil => cases h
  | cons first rest ih =>
    rcases List.mem_cons.1 h with rfl | h
    · exact ⟨visible, .here⟩
    · obtain ⟨seen, hseen⟩ := ih (first.declared ++ visible) h
      exact ⟨seen, .later hseen⟩

/-- A view of a statement, and a view from one of its blocks. -/
theorem Sees.trans {visible middle seen : Declarations} {body : List Stmt} {t u : Stmt}
    {scope : Declarations × List Stmt} (h : Sees visible body middle t)
    (hscope : scope ∈ t.scopes middle) (hinner : Sees scope.1 scope.2 seen u) :
    Sees visible body seen u := by
  induction h with
  | here => exact .nested hscope hinner
  | later _ ih => exact .later (ih hscope)
  | nested houter _ ih => exact .nested houter (ih hscope)

/-- **Every statement of a body sees something**, and only the statements of a body do. -/
theorem holds_iff_sees {visible : Declarations} {body : List Stmt} {t : Stmt} :
    Holds body t ↔ ∃ seen, Sees visible body seen t := by
  constructor
  · rintro ⟨s, hs, hin⟩
    induction hin generalizing visible body with
    | self => exact Sees.of_mem visible hs
    | nested hu _ ih =>
      obtain ⟨middle, hmiddle⟩ := Sees.of_mem visible hs
      obtain ⟨scope, hscope, hmem⟩ := (Stmt.mem_inner_iff middle).1 hu
      obtain ⟨seen, hseen⟩ : ∃ seen, Sees scope.1 scope.2 seen t := ih hmem
      exact ⟨seen, hmiddle.trans hscope hseen⟩
  · rintro ⟨seen, h⟩
    induction h with
    | here => exact ⟨_, List.mem_cons_self, .self⟩
    | later _ ih =>
      obtain ⟨s, hs, hin⟩ := ih
      exact ⟨s, List.mem_cons_of_mem _ hs, hin⟩
    | nested hscope _ ih =>
      obtain ⟨u, hu, hin⟩ := ih
      exact ⟨_, List.mem_cons_self, .nested ((Stmt.mem_inner_iff _).2 ⟨_, hscope, hu⟩) hin⟩

end Block

/-! ## Lowered bodies -/

section Lowered

variable {s : Scope}

theorem outlineAll_ok {body : List Stmt} {outlines : List Outline}
    (h : s.outlineAll body = .ok outlines) : ∀ t ∈ body, ∃ outline, s.outline t = .ok outline := by
  induction body generalizing outlines with
  | nil => nofun
  | cons first rest ih =>
    rw [Scope.outlineAll] at h
    obtain ⟨outline, houtline, h⟩ := bind_ok.1 h
    obtain ⟨others, hothers, -⟩ := bind_ok.1 h
    intro t ht
    rcases List.mem_cons.1 ht with rfl | ht
    · exact ⟨outline, houtline⟩
    · exact ih hothers t ht

theorem outlineCases_ok {loc : Location} {cases : List SwitchCase} {outlines : List OutlineCase}
    (h : s.outlineCases loc cases = .ok outlines) :
    ∀ t ∈ cases.flatMap SwitchCase.body, ∃ outline, s.outline t = .ok outline := by
  induction cases generalizing outlines with
  | nil => nofun
  | cons first rest ih =>
    obtain ⟨labels, isDefault, body⟩ := first
    rw [Scope.outlineCases] at h
    obtain ⟨_, -, h⟩ := bind_ok.1 h
    obtain ⟨_, hbody, h⟩ := bind_ok.1 h
    obtain ⟨_, hrest, -⟩ := bind_ok.1 h
    intro t ht
    rcases List.mem_append.1 (List.flatMap_cons ▸ ht) with ht | ht
    · exact outlineAll_ok hbody t ht
    · exact ih hrest t ht

/-- A statement in a `for` header is lowered as it would be on its own. -/
theorem outline_of_simple {t : Stmt} {text : String} (h : s.simple t = .ok text) :
    s.outline t = .ok (.simple text) := by
  cases t with
  | declare | eval | assign =>
    rw [Scope.outline, h]
    rfl
  | _ => cases h

theorem optional_ok {α : Type} {part : Option α} {f : α → Except GenerationError String}
    {text : String} (h : Scope.optional part f = .ok text) :
    ∀ value ∈ part, ∃ text, f value = .ok text := by
  intro value hvalue
  cases hvalue
  exact ⟨text, h⟩

/-- The expressions that a lowered simple statement holds are lowered. -/
theorem simple_exprs {t : Stmt} {text : String} (h : s.simple t = .ok text) :
    ∀ e ∈ t.exprs, ∃ text, s.lower t.location e = .ok text := by
  cases t with
  | declare loc name type count value =>
    cases value with
    | none => nofun
    | some value =>
      obtain ⟨_, start, -, hstart, -⟩ := simple_declare_some_ok h
      exact List.forall_mem_singleton.2 ⟨start, hstart⟩
  | eval loc e => exact List.forall_mem_singleton.2 ⟨text, h⟩
  | assign loc target op value =>
    obtain ⟨place, given, hplace, hgiven, -⟩ := assignment_ok h
    exact List.forall_mem_cons.2 ⟨⟨place, hplace⟩, List.forall_mem_singleton.2 ⟨given, hgiven⟩⟩
  | block | ifElse | forLoop | whileLoop | doWhile | switch | foreach | breakLoop | continueLoop | ret
  | discard => cases h

/-- The expressions that a lowered statement holds itself are lowered. -/
theorem outline_exprs {t : Stmt} {outline : Outline} (h : s.outline t = .ok outline) :
    ∀ e ∈ t.exprs, ∃ text, s.lower t.location e = .ok text := by
  have houtlined := outlined_of_outline h
  cases t with
  | block | breakLoop | continueLoop | discard => nofun
  | foreach => cases houtlined
  | declare | eval | assign =>
    obtain ⟨text, htext, -⟩ := houtlined
    exact simple_exprs htext
  | ifElse =>
    obtain ⟨text, _, _, htext, -⟩ := houtlined
    exact List.forall_mem_singleton.2 ⟨text, htext⟩
  | whileLoop | doWhile | switch =>
    obtain ⟨text, _, htext, -⟩ := houtlined
    exact List.forall_mem_singleton.2 ⟨text, htext⟩
  | forLoop loc start condition step body =>
    obtain ⟨_, _, _, _, -, hcondition, -⟩ := houtlined
    exact fun e he => optional_ok hcondition e (Option.mem_toList.1 he)
  | ret loc value =>
    cases value with
    | none => nofun
    | some value =>
      obtain ⟨text, htext, -⟩ := houtlined
      exact List.forall_mem_singleton.2 ⟨text, htext⟩

/-- The statements that a lowered statement holds are lowered. -/
theorem outline_inner {t : Stmt} {outline : Outline} (h : s.outline t = .ok outline) :
    ∀ u ∈ t.inner, ∃ outline, s.outline u = .ok outline := by
  have houtlined := outlined_of_outline h
  cases t with
  | declare | eval | assign | breakLoop | continueLoop | ret | discard => nofun
  | foreach => cases houtlined
  | block loc body =>
    obtain ⟨_, hbody, -⟩ := houtlined
    exact outlineAll_ok hbody
  | whileLoop loc e body | doWhile loc body e =>
    obtain ⟨_, _, -, hbody, -⟩ := houtlined
    exact outlineAll_ok hbody
  | ifElse loc e accept reject =>
    obtain ⟨_, _, _, -, haccept, hreject, -⟩ := houtlined
    exact List.forall_mem_append.2 ⟨outlineAll_ok haccept, outlineAll_ok hreject⟩
  | switch loc e cases =>
    obtain ⟨_, _, -, hcases, -⟩ := houtlined
    exact outlineCases_ok hcases
  | forLoop loc start condition step body =>
    obtain ⟨_, _, _, _, hstart, -, hstep, hbody, -⟩ := houtlined
    intro u hu
    simp only [Stmt.inner, List.mem_append, Option.mem_toList] at hu
    rcases hu with (hu | hu) | hu
    · obtain ⟨text, htext⟩ := optional_ok hstart u hu
      exact ⟨_, outline_of_simple htext⟩
    · obtain ⟨text, htext⟩ := exists_ok_of_mapM_ok hstep u hu
      exact ⟨_, outline_of_simple htext⟩
    · exact outlineAll_ok hbody u hu

/-- **Every statement of a lowered body is lowered.** -/
theorem outline_of_holds {body : List Stmt} {outlines : List Outline}
    (h : s.outlineAll body = .ok outlines) {t : Stmt} (ht : Block.Holds body t) :
    ∃ outline, s.outline t = .ok outline := by
  obtain ⟨top, htop, hin⟩ := ht
  obtain ⟨outline, houtline⟩ := outlineAll_ok h top htop
  clear h htop
  induction hin generalizing outline with
  | self => exact ⟨outline, houtline⟩
  | nested hu _ ih =>
    obtain ⟨inner, hinner⟩ := outline_inner houtline _ hu
    exact ih inner hinner

theorem lowerAll_of_mem {loc : Location} {es : List Expr} {texts : List String}
    (h : s.lowerAll loc es = .ok texts) : ∀ e ∈ es, ∃ text, s.lower loc e = .ok text :=
  fun e he => (exists_right_of_forall₂ (lowerAll_ok h) e he).imp fun _ => And.right

/-- The operands of a lowered expression are lowered. -/
theorem lower_operands {loc : Location} {e : Expr} {text : String} (h : s.lower loc e = .ok text) :
    ∀ o ∈ e.operands, ∃ text, s.lower loc o = .ok text := by
  have hcomposed := composed_of_lower h
  cases e with
  | literal | localVar | resource | staticMember => nofun
  | member base type name =>
    obtain ⟨_, _, ⟨owner, howner, -⟩, -⟩ := hcomposed
    exact List.forall_mem_singleton.2 ⟨owner, howner⟩
  | index base i =>
    obtain ⟨_, position, ⟨owner, howner, -⟩, hposition, -⟩ := hcomposed
    exact List.forall_mem_cons.2 ⟨⟨owner, howner⟩, List.forall_mem_singleton.2 ⟨position, hposition⟩⟩
  | unary op operand =>
    obtain ⟨_, ⟨inner, hinner, -⟩, -⟩ := hcomposed
    exact List.forall_mem_singleton.2 ⟨inner, hinner⟩
  | binary op left right =>
    obtain ⟨_, _, ⟨a, ha, -⟩, ⟨b, hb, -⟩, -⟩ := hcomposed
    exact List.forall_mem_cons.2 ⟨⟨a, ha⟩, List.forall_mem_singleton.2 ⟨b, hb⟩⟩
  | conditional condition accept reject =>
    obtain ⟨_, _, _, ⟨c, hc, -⟩, ⟨a, ha, -⟩, ⟨r, hr, -⟩, -⟩ := hcomposed
    exact List.forall_mem_cons.2 ⟨⟨c, hc⟩,
      List.forall_mem_cons.2 ⟨⟨a, ha⟩, List.forall_mem_singleton.2 ⟨r, hr⟩⟩⟩
  | call function arguments =>
    obtain ⟨texts, htexts, -⟩ := hcomposed
    exact lowerAll_of_mem htexts
  | construct type arguments =>
    cases arguments with
    | nil => nofun
    | cons first rest =>
      obtain ⟨_, texts, -, htexts, -⟩ := hcomposed
      exact lowerAll_of_mem htexts
  | cast type operand =>
    obtain ⟨_, inner, -, hinner, -⟩ := hcomposed
    exact List.forall_mem_singleton.2 ⟨inner, hinner⟩

/-- **Every part of a lowered expression is lowered.** -/
theorem lower_of_part {loc : Location} {x e : Expr} (hx : x.Part e) {text : String}
    (h : s.lower loc e = .ok text) : ∃ text, s.lower loc x = .ok text := by
  induction hx generalizing text with
  | self => exact ⟨text, h⟩
  | operand ho _ ih =>
    obtain ⟨inner, hinner⟩ := lower_operands h _ ho
    exact ih hinner

/-- Every expression of a lowered body is lowered, at the location of the innermost statement around it. -/
theorem lower_of_innermost {body : List Stmt} {outlines : List Outline}
    (h : s.outlineAll body = .ok outlines) {t : Stmt} {e : Expr} (he : Block.Innermost body t e) :
    ∃ text, s.lower t.location e = .ok text := by
  obtain ⟨ht, own, hown, hpart⟩ := he
  obtain ⟨outline, houtline⟩ := outline_of_holds h ht
  obtain ⟨text, htext⟩ := outline_exprs houtline own hown
  exact lower_of_part hpart htext

end Lowered

end CrossShader

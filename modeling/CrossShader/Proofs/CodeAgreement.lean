import CrossShader.Generation
import CrossShader.Proofs.CallGraph

/-!
# What generation reads of the code

Generation looks up functions by the names in call nodes, and nothing else of the functions.  Two codes
with the same resources that answer these questions alike cannot be told apart by the walk along calls
or by emission.

* `Code.AgreeOn` — codes that know the called names of an expression alike.
* `Scope.lower_withCode`, `Scope.outline_withCode` — expressions and statements in another code.
* `Code.AgreeFrom` — codes that agree on everything that a function leads to.
* `Code.reachable_agree` — the walks from such a function; the bounds on their depths may differ.
-/

set_option autoImplicit false

namespace CrossShader

/-- Computations for the elements of a list that agree on each of them. -/
theorem mapM_congr {ε α β : Type} {f g : α → Except ε β} {l : List α} (h : ∀ a ∈ l, f a = g a) :
    l.mapM f = l.mapM g := by
  induction l with
  | nil => rfl
  | cons a l ih =>
    obtain ⟨ha, hl⟩ := List.forall_mem_cons.1 h
    rw [List.mapM_cons, List.mapM_cons, ha, ih hl]

/-! ## Bodies -/

/-- A code with the resources of another that knows the called names of an expression alike. -/
structure Code.AgreeOn (c c' : Code) (e : Expr) : Prop where
  resources : c'.resources = c.resources
  function? : ∀ name arguments, Expr.Part (.call name arguments) e →
    c'.function? name = c.function? name

theorem Code.AgreeOn.operand {c c' : Code} {e o : Expr} (h : c.AgreeOn c' e) (ho : o ∈ e.operands) :
    c.AgreeOn c' o where
  resources := h.resources
  function? name arguments hpart := h.function? name arguments (.operand ho hpart)

theorem Code.AgreeOn.resource? {c c' : Code} {e : Expr} (h : c.AgreeOn c' e) (name : String) :
    c'.resource? name = c.resource? name := by
  rw [Code.resource?, Code.resource?, h.resources]

/-- A context with another code. -/
def Context.withCode (c : Context) (code : Code) : Context := { c with code }

/-- A scope with another code. -/
def Scope.withCode (s : Scope) (code : Code) : Scope := { s with context := s.context.withCode code }

theorem Context.zeroValueFrom_withCode (c : Context) (code : Code) (loc : Location)
    (structures : List (String × Structure)) (type : TypeRef) :
    (c.withCode code).zeroValueFrom loc structures type = c.zeroValueFrom loc structures type := by
  induction structures generalizing type with
  | nil => rfl
  | cons entry earlier ih =>
    obtain ⟨name, definition⟩ := entry
    rw [zeroValueFrom, zeroValueFrom]
    simp only [ih]
    rfl

namespace Scope

variable {s : Scope} {code : Code} {loc : Location}

/-- The host type of an expression reads the result types of called functions. -/
theorem hostType_withCode {e : Expr} (h : s.code.AgreeOn code e) :
    (s.withCode code).hostType e = s.hostType e := by
  induction e using Expr.operands_induction with
  | _ e ih =>
    have hoperand : ∀ o ∈ e.operands, (s.withCode code).hostType o = s.hostType o :=
      fun o ho => ih o ho (h.operand ho)
    cases e with
    | literal | localVar | member | staticMember | construct | cast => rfl
    | resource name =>
      show (code.resource? name).bind _ = (s.code.resource? name).bind _
      rw [h.resource?]
    | index base i => exact hoperand base (by simp [Expr.operands])
    | unary op operand => exact hoperand operand (by simp [Expr.operands])
    | binary op left right =>
      rw [hostType, hostType, hoperand left (by simp [Expr.operands]),
        hoperand right (by simp [Expr.operands])]
    | conditional condition accept reject =>
      rw [hostType, hostType, hoperand accept (by simp [Expr.operands]),
        hoperand reject (by simp [Expr.operands])]
    | call function arguments =>
      show (code.function? function).map _ = (s.code.function? function).map _
      rw [h.function? function arguments .self]

theorem isFloat_withCode {e : Expr} (h : s.code.AgreeOn code e) :
    (s.withCode code).isFloat e = s.isFloat e := by
  rw [isFloat, isFloat, hostType_withCode h]

theorem argument_withCode {e whole : Expr} (h : s.code.AgreeOn code whole) (text : String) :
    (s.withCode code).argument e text = s.argument e text := by
  cases e with
  | resource name =>
    show ({ text, compound := _, resource := (code.resource? name).map _ } : Argument) = _
    rw [h.resource?]
    rfl
  | literal | localVar | member | staticMember | index | unary | binary | conditional | call
  | construct | cast => rfl

theorem lowerAll_withCode {es : List Expr}
    (h : ∀ e ∈ es, (s.withCode code).lower loc e = s.lower loc e) :
    (s.withCode code).lowerAll loc es = s.lowerAll loc es := by
  induction es with
  | nil => rw [lowerAll, lowerAll]
  | cons e es ih =>
    obtain ⟨he, hes⟩ := List.forall_mem_cons.1 h
    rw [lowerAll, lowerAll, he, ih hes]

/-- **The text of an expression reads the code at called names only.** -/
theorem lower_withCode {e : Expr} (h : s.code.AgreeOn code e) :
    (s.withCode code).lower loc e = s.lower loc e := by
  induction e using Expr.operands_induction with
  | _ e ih =>
    have hoperand : ∀ o ∈ e.operands, (s.withCode code).lower loc o = s.lower loc o :=
      fun o ho => ih o ho (h.operand ho)
    cases e with
    | literal | localVar | staticMember => rfl
    | resource name =>
      have hfound : (s.withCode code).code.resource? name = s.code.resource? name := h.resource? name
      rw [lower, lower, lowerResource, lowerResource, hfound]
      rfl
    | member base type name =>
      rw [lower, lower, hoperand base (by simp [Expr.operands])]
      rfl
    | index base i =>
      rw [lower, lower, hoperand base (by simp [Expr.operands]),
        hoperand i (by simp [Expr.operands])]
    | unary op operand => rw [lower, lower, hoperand operand (by simp [Expr.operands])]
    | binary op left right =>
      -- the form of a remainder hangs on the types of its operands, and those on the called functions
      have hremainder : (s.withCode code).remainder left right = s.remainder left right := by
        funext leftText rightText
        rw [remainder, remainder, isFloat_withCode (h.operand (by simp [Expr.operands])),
          isFloat_withCode (h.operand (by simp [Expr.operands]))]
        rfl
      rw [lower, lower, hoperand left (by simp [Expr.operands]),
        hoperand right (by simp [Expr.operands]), hremainder]
    | conditional condition accept reject =>
      rw [lower, lower, hoperand condition (by simp [Expr.operands]),
        hoperand accept (by simp [Expr.operands]), hoperand reject (by simp [Expr.operands])]
    | call function arguments =>
      have hargument : (s.withCode code).argument = s.argument := by
        funext e text
        exact argument_withCode h text
      have harguments : (s.withCode code).lowerAll loc arguments = s.lowerAll loc arguments :=
        lowerAll_withCode hoperand
      have hfound : (s.withCode code).code.function? function = s.code.function? function :=
        h.function? function arguments .self
      rw [lower, lower, harguments, hargument, hfound]
      rfl
    | construct type arguments =>
      cases arguments with
      | nil =>
        rw [lower, lower]
        exact s.context.zeroValueFrom_withCode code loc _ type
      | cons first rest =>
        rw [lower, lower, hoperand first List.mem_cons_self,
          lowerAll_withCode fun e he => hoperand e (List.mem_cons_of_mem _ he)]
        rfl
    | cast type operand =>
      rw [lower, lower, hoperand operand (by simp [Expr.operands])]
      rfl

end Scope

/-- A code that agrees with another on every expression of a statement, at any depth. -/
def Code.AgreeIn (c c' : Code) (t : Stmt) : Prop :=
  ∀ u : Stmt, u.Inside t → ∀ e ∈ u.exprs, c.AgreeOn c' e

theorem Code.AgreeIn.inner {c c' : Code} {t u : Stmt} (h : c.AgreeIn c' t) (hu : u ∈ t.inner) :
    c.AgreeIn c' u :=
  fun v hv => h v (.nested hu hv)

namespace Scope

variable {s : Scope} {code : Code} {loc : Location}

theorem simple_withCode {t : Stmt} (h : s.code.AgreeIn code t) :
    (s.withCode code).simple t = s.simple t := by
  have hown : ∀ e ∈ t.exprs, ∀ loc, (s.withCode code).lower loc e = s.lower loc e :=
    fun e he loc => lower_withCode (h t .self e he)
  cases t with
  | declare loc name type count value =>
    cases value with
    | none => rfl
    | some value =>
      rw [simple, simple, hown value (by simp [Stmt.exprs])]
      rfl
  | eval loc e => exact hown e (by simp [Stmt.exprs]) loc
  | assign loc target op value =>
    have hfloat : ∀ e ∈ (Stmt.assign loc target op value).exprs,
        (s.withCode code).isFloat e = s.isFloat e := fun e he => isFloat_withCode (h _ .self e he)
    rw [simple, simple, assignment, assignment, hown target (by simp [Stmt.exprs]),
      hown value (by simp [Stmt.exprs]), hfloat target (by simp [Stmt.exprs]),
      hfloat value (by simp [Stmt.exprs])]
    rfl
  | block | ifElse | forLoop | whileLoop | doWhile | switch | foreach | breakLoop | continueLoop
  | ret | discard => rfl

theorem outlineAll_withCode {body : List Stmt}
    (h : ∀ t ∈ body, (s.withCode code).outline t = s.outline t) :
    (s.withCode code).outlineAll body = s.outlineAll body := by
  induction body with
  | nil => rfl
  | cons t rest ih =>
    obtain ⟨ht, hrest⟩ := List.forall_mem_cons.1 h
    rw [outlineAll, outlineAll, ht, ih hrest]

theorem outlineCases_withCode {cases : List SwitchCase}
    (h : ∀ t ∈ cases.flatMap SwitchCase.body, (s.withCode code).outline t = s.outline t) :
    (s.withCode code).outlineCases loc cases = s.outlineCases loc cases := by
  induction cases with
  | nil => rfl
  | cons case rest ih =>
    obtain ⟨labels, isDefault, body⟩ := case
    rw [List.flatMap_cons] at h
    have hbody : (s.withCode code).outlineAll body = s.outlineAll body :=
      outlineAll_withCode fun t ht => h t (List.mem_append_left _ ht)
    rw [outlineCases, outlineCases, hbody, ih fun t ht => h t (List.mem_append_right _ ht)]

theorem optional_congr {α : Type} {part : Option α} {f g : α → Except GenerationError String}
    (h : ∀ a ∈ part.toList, f a = g a) : optional part f = optional part g := by
  cases part with
  | none => rfl
  | some a => exact h a List.mem_cons_self

/-- **The outline of a statement reads the code at called names only.** -/
theorem outline_withCode {t : Stmt} (h : s.code.AgreeIn code t) :
    (s.withCode code).outline t = s.outline t := by
  induction hn : sizeOf t using Nat.strongRecOn generalizing t with
  | _ n ih =>
    subst hn
    have hown : ∀ e ∈ t.exprs, ∀ loc, (s.withCode code).lower loc e = s.lower loc e :=
      fun e he loc => lower_withCode (h t .self e he)
    have hinner : ∀ u ∈ t.inner, (s.withCode code).outline u = s.outline u :=
      fun u hu => ih _ (Stmt.sizeOf_lt_of_mem_inner hu) (h.inner hu) rfl
    have hsimple : ∀ u ∈ t.inner, (s.withCode code).simple u = s.simple u :=
      fun u hu => simple_withCode (h.inner hu)
    cases t with
    | block loc body =>
      have hbody : (s.withCode code).outlineAll body = s.outlineAll body := outlineAll_withCode hinner
      rw [outline, outline, hbody]
    | declare | eval | assign => rw [outline, outline, simple_withCode h]
    | ifElse loc condition accept reject =>
      rw [outline, outline, hown condition (by simp [Stmt.exprs]),
        outlineAll_withCode fun u hu => hinner u (List.mem_append_left _ hu),
        outlineAll_withCode fun u hu => hinner u (List.mem_append_right _ hu)]
    | forLoop loc start condition step body =>
      have hstart : optional start (s.withCode code).simple = optional start s.simple :=
        optional_congr fun u hu => hsimple u (List.mem_append_left _ (List.mem_append_left _ hu))
      have hcondition : optional condition ((s.withCode code).lower loc) =
          optional condition (s.lower loc) := optional_congr fun e he => hown e he loc
      have hstep : step.mapM (s.withCode code).simple = step.mapM s.simple :=
        mapM_congr fun u hu => hsimple u (List.mem_append_left _ (List.mem_append_right _ hu))
      rw [outline, outline, hstart, hcondition, hstep,
        outlineAll_withCode fun u hu => hinner u (List.mem_append_right _ hu)]
    | whileLoop loc condition body =>
      have hbody : (s.withCode code).outlineAll body = s.outlineAll body := outlineAll_withCode hinner
      rw [outline, outline, hown condition (by simp [Stmt.exprs]), hbody]
    | doWhile loc body condition =>
      have hbody : (s.withCode code).outlineAll body = s.outlineAll body := outlineAll_withCode hinner
      rw [outline, outline, hown condition (by simp [Stmt.exprs]), hbody]
    | switch loc selector cases =>
      have hcases : (s.withCode code).outlineCases loc cases = s.outlineCases loc cases :=
        outlineCases_withCode hinner
      rw [outline, outline, hown selector (by simp [Stmt.exprs]), hcases]
    | foreach | breakLoop | continueLoop | discard => rfl
    | ret loc value =>
      cases value with
      | none => rfl
      | some value => rw [outline, outline, hown value (by simp [Stmt.exprs])]

end Scope

/-! ## Everything that a function leads to -/

namespace Code

/-- A code that agrees with another on everything that a function leads to: on the resources, on the
function itself, and on every call of a function that it reaches. -/
structure AgreeFrom (c c' : Code) (root : Function) : Prop where
  resources : c'.resources = c.resources
  entry : c'.function? root.name = some root
  function? : ∀ g, c.Reaches root g → ∀ t name arguments,
    Block.Innermost g.body t (.call name arguments) → c'.function? name = c.function? name

namespace AgreeFrom

variable {c c' : Code} {root : Function}

theorem site (h : c.AgreeFrom c' root) {g : Function} (hg : c.Reaches root g) {site : CallSite}
    (hsite : site ∈ Block.calls g.body) : c'.function? site.callee = c.function? site.callee := by
  obtain ⟨t, arguments, hin, -⟩ := Block.mem_calls.1 hsite
  exact h.function? g hg t site.callee arguments hin

theorem stack (h : c.AgreeFrom c' root) {path : List String} {f : Function}
    (hstack : Stack c root path f) : Stack c' root path f := by
  induction hstack with
  | start _ => exact .start h.entry
  | call hstack hcall hfresh ih =>
    obtain ⟨t, name, arguments, hin, hg⟩ := hcall
    refine .call ih ⟨t, name, arguments, hin, ?_⟩ hfresh
    rw [h.function? _ hstack.reaches_root t name arguments hin, hg]

/-- The loop over calls, given that walks one level down agree. -/
theorem visitCalls_agree (h : c.AgreeFrom c' root) {path : List String} {f : Function}
    (hstack : Stack c root path f) {n k : Nat}
    (hvisit : ∀ g order, Stack c root (f.name :: path) g →
      c'.visit k (f.name :: path) g order = c.visit n (f.name :: path) g order)
    (sites : List CallSite) (hsites : sites ⊆ Block.calls f.body) (order : List Function) :
    c'.visitCalls (k + 1) (f.name :: path) sites order =
      c.visitCalls (n + 1) (f.name :: path) sites order := by
  induction sites generalizing order with
  | nil => rfl
  | cons site sites ih =>
    have hsite : site ∈ Block.calls f.body := hsites (List.mem_cons_self ..)
    have hrest : sites ⊆ Block.calls f.body := fun s hs => hsites (List.mem_cons_of_mem _ hs)
    have hstep : c'.visitCall (k + 1) (f.name :: path) order site =
        c.visitCall (n + 1) (f.name :: path) order site := by
      unfold visitCall
      rw [h.site hstack.reaches_root hsite]
      cases hg : c.function? site.callee with
      | none => rfl
      | some g =>
        dsimp only
        split
        · rfl
        rename_i hpath
        split
        · rfl
        refine hvisit g order (hstack.call (calls_of_site hsite hg) ?_)
        rw [name_of_function? hg]
        simpa using hpath
    rw [visitCalls_cons, visitCalls_cons, hstep]
    exact congrArg _ (funext fun order => ih hrest order)

/-- **Walks in agreeing codes agree**, whatever room they have beyond the number of functions. -/
theorem visit_agree (h : c.AgreeFrom c' root) (n k : Nat) {path : List String} {f : Function}
    (hstack : Stack c root path f) (hn : c.functions.length ≤ n + path.length)
    (hk : c'.functions.length ≤ k + path.length) (order : List Function) :
    c'.visit k path f order = c.visit n path f order := by
  induction n generalizing k path f order with
  | zero =>
    have hlt := hstack.length_lt
    omega
  | succ n ih =>
    have hlt := (h.stack hstack).length_lt
    obtain ⟨k, rfl⟩ : ∃ k', k = k' + 1 := ⟨k - 1, by omega⟩
    rw [visit_eq, visit_eq]
    congr 1
    refine h.visitCalls_agree hstack (fun g order hg => ?_) _ (List.Subset.refl _) order
    exact ih k hg (by rw [List.length_cons]; omega) (by rw [List.length_cons]; omega) order

theorem reachable_agree (h : c.AgreeFrom c' root) (hroot : c.function? root.name = some root) :
    c'.reachable root = c.reachable root :=
  h.visit_agree _ _ (.start hroot) (Nat.le_refl _) (Nat.le_refl _) []

/-- A function that the root reaches has the same lines in both codes. -/
theorem functionLines_agree (h : c.AgreeFrom c' root) (d : Dialect)
    (structures : List (String × Structure)) (stage : Stage) {f : Function}
    (hf : c.Reaches root f) :
    Context.functionLines ⟨d, c', structures⟩ stage f =
      Context.functionLines ⟨d, c, structures⟩ stage f := by
  have hbody : ((Scope.ofFunction ⟨d, c, structures⟩ stage f).withCode c').outlineAll f.body =
      (Scope.ofFunction ⟨d, c, structures⟩ stage f).outlineAll f.body := by
    refine Scope.outlineAll_withCode fun t ht =>
      Scope.outline_withCode fun u hu e he => ⟨h.resources, ?_⟩
    exact fun name arguments hpart =>
      h.function? f hf u name arguments ⟨⟨t, ht, hu⟩, e, he, hpart⟩
  rw [Context.functionLines, Context.functionLines, ← hbody]
  rfl

end AgreeFrom

end Code

end CrossShader

import CrossShader.CallGraph
import CrossShader.Proofs.Occurrence
import Mathlib.Data.List.Perm.Subperm
import Mathlib.Logic.Relation

/-!
# The walk along calls

`Code.reachable` as a depth-first walk: what it lists, in which order, and when it fails.

* `Code.Calls` — the call graph, an edge for every call node anywhere in a body; `Code.Reaches` — its
  paths.
* `Code.Walked` — lists of finished functions: each after all functions that it calls.
* `Code.Stack` — the functions being walked: a path of distinct functions from the root.
* `Code.Closes` — a call that closes a cycle, with the error that reports it.
* `Code.visit_walks` — a walk extends the finished functions, or meets a call that closes a cycle; the
  bound on the depth is never reached.
* `reachable_functions_exact` — the walk from a function of the program.
-/

set_option autoImplicit false

namespace CrossShader

namespace Code

/-- A function calls another: a call node anywhere in its body has the other's name. -/
def Calls (c : Code) (f g : Function) : Prop :=
  ∃ t name arguments, Block.Innermost f.body t (.call name arguments) ∧ c.function? name = some g

/-- A function reaches another through calls; every function reaches itself. -/
def Reaches (c : Code) : Function → Function → Prop := Relation.ReflTransGen c.Calls

/-- A function reaches itself through at least one call. -/
def OnCycle (c : Code) (g : Function) : Prop := Relation.TransGen c.Calls g g

theorem name_of_function? {c : Code} {name : String} {f : Function}
    (h : c.function? name = some f) : f.name = name := by
  have hname := List.find?_some h
  exact eq_of_beq hname

theorem function?_name {c : Code} {name : String} {f : Function} (h : c.function? name = some f) :
    c.function? f.name = some f := by
  rw [name_of_function? h, h]

theorem mem_names_of_function? {c : Code} {name : String} {f : Function}
    (h : c.function? name = some f) : name ∈ c.functions.items.map Function.name := by
  rw [← name_of_function? h]
  exact List.mem_map_of_mem (List.mem_of_find?_eq_some h)

theorem Calls.function? {c : Code} {f g : Function} (h : c.Calls f g) :
    c.function? g.name = some g := by
  obtain ⟨_, _, _, _, hg⟩ := h
  exact function?_name hg

theorem calls_of_site {c : Code} {f g : Function} {site : CallSite}
    (hs : site ∈ Block.calls f.body) (hg : c.function? site.callee = some g) : c.Calls f g := by
  obtain ⟨t, arguments, hin, -⟩ := Block.mem_calls.1 hs
  exact ⟨t, site.callee, arguments, hin, hg⟩

theorem Calls.exists_site {c : Code} {f g : Function} (h : c.Calls f g) :
    ∃ site ∈ Block.calls f.body, c.function? site.callee = some g := by
  obtain ⟨t, name, arguments, hin, hg⟩ := h
  exact ⟨⟨name, t.location⟩, Block.mem_calls.2 ⟨t, arguments, hin, rfl⟩, hg⟩

/-! ## Finished functions -/

/-- Lists of finished functions: each is a function of the code, has a name of its own, and stands
after every function that it calls. -/
inductive Walked (c : Code) : List Function → Prop
  | nil : Walked c []
  | snoc {order : List Function} {f : Function} : Walked c order → c.function? f.name = some f →
      f.name ∉ order.map Function.name → (∀ g, c.Calls f g → g ∈ order) → Walked c (order ++ [f])

namespace Walked

variable {c : Code} {order : List Function}

theorem nodup (h : Walked c order) : (order.map Function.name).Nodup := by
  induction h with
  | nil => exact List.nodup_nil
  | snoc _ _ hfresh _ ih =>
    rw [List.map_append, List.nodup_append]
    refine ⟨ih, by simp, ?_⟩
    intro a ha b hb hab
    simp only [List.map_cons, List.map_nil, List.mem_singleton] at hb
    subst hb; subst hab
    exact hfresh ha

theorem function? (h : Walked c order) {f : Function} (hf : f ∈ order) :
    c.function? f.name = some f := by
  induction h with
  | nil => cases hf
  | snoc _ hknown _ _ ih =>
    rcases List.mem_append.1 hf with hf | hf
    · exact ih hf
    · rw [List.mem_singleton] at hf
      subst hf
      exact hknown

/-- A function is listed exactly if its name is. -/
theorem mem_iff (h : Walked c order) {f : Function} (hf : c.function? f.name = some f) :
    f ∈ order ↔ f.name ∈ order.map Function.name := by
  constructor
  · exact fun hmem => List.mem_map_of_mem hmem
  · intro hmem
    obtain ⟨g, hg, hname⟩ := List.mem_map.1 hmem
    have := h.function? hg
    rw [hname, hf] at this
    cases this
    exact hg

theorem callee_mem (h : Walked c order) {f g : Function} (hf : f ∈ order) (hg : c.Calls f g) :
    g ∈ order := by
  induction h with
  | nil => cases hf
  | snoc _ _ _ hcallees ih =>
    rcases List.mem_append.1 hf with hf | hf
    · exact List.mem_append_left _ (ih hf)
    · rw [List.mem_singleton] at hf
      subst hf
      exact List.mem_append_left _ (hcallees g hg)

/-- Callees stand strictly before their callers. -/
theorem callee_before (h : Walked c order) :
    ∀ before f after, order = before ++ f :: after → ∀ g, c.Calls f g → g ∈ before := by
  induction h with
  | nil =>
    intro before f after heq
    exact absurd heq (by simp)
  | @snoc order last _ _ _ hcallees ih =>
    intro before f after heq g hg
    rcases List.eq_nil_or_concat after with rfl | ⟨after', x, rfl⟩
    · obtain ⟨hinit, hlast⟩ := List.append_inj' heq rfl
      cases hlast
      exact hinit ▸ hcallees g hg
    · rw [List.concat_eq_append, ← List.cons_append, ← List.append_assoc] at heq
      exact ih before f after' (List.append_inj' heq rfl).1 g hg

theorem reaches_mem (h : Walked c order) {f g : Function} (hf : f ∈ order) (hr : c.Reaches f g) :
    g ∈ order := by
  induction hr with
  | refl => exact hf
  | tail _ hcall ih => exact h.callee_mem ih hcall

/-- No listed function is on a cycle: following calls leads to ever shorter beginnings of the list. -/
theorem not_onCycle (h : Walked c order) {f : Function} (hf : f ∈ order) : ¬ c.OnCycle f := by
  -- on a path of calls, what precedes a function also precedes its callers
  have hstep : ∀ {f g : Function}, Relation.TransGen c.Calls f g →
      ∀ before after, order = before ++ f :: after → g ∈ before := by
    intro f g hpath
    induction hpath with
    | single hcall => exact fun before after heq => h.callee_before before f after heq _ hcall
    | @tail b d _ hcall ih =>
      intro before after heq
      obtain ⟨s, t, hst⟩ := List.append_of_mem (ih before after heq)
      have hd := h.callee_before s b (t ++ f :: after) (by rw [heq, hst]; simp) d hcall
      rw [hst]
      exact List.mem_append_left _ hd
  intro hcycle
  obtain ⟨before, after, heq⟩ := List.append_of_mem hf
  have hmem := hstep hcycle before after heq
  have hnodup := h.nodup
  rw [heq, List.map_append, List.nodup_append] at hnodup
  exact hnodup.2.2 f.name (List.mem_map_of_mem hmem) f.name (by simp) rfl

end Walked

/-! ## Functions being walked -/

/-- The functions being walked from a root: `f` is the latest, and `path` has the names of the others,
each called by the next one. -/
inductive Stack (c : Code) (root : Function) : List String → Function → Prop
  | start : c.function? root.name = some root → Stack c root [] root
  | call {path : List String} {f g : Function} : Stack c root path f → c.Calls f g →
      g.name ∉ f.name :: path → Stack c root (f.name :: path) g

namespace Stack

variable {c : Code} {root : Function} {path : List String} {f : Function}

theorem function? (h : Stack c root path f) : c.function? f.name = some f := by
  cases h with
  | start hroot => exact hroot
  | call _ hcall _ => exact hcall.function?

theorem nodup (h : Stack c root path f) : (f.name :: path).Nodup := by
  induction h with
  | start _ => simp
  | call _ _ hfresh ih => exact List.nodup_cons.2 ⟨hfresh, ih⟩

theorem reaches_root (h : Stack c root path f) : c.Reaches root f := by
  induction h with
  | start _ => exact .refl
  | call _ hcall _ ih => exact ih.tail hcall

/-- Everything on the path is a function that the root reaches and that reaches the latest one. -/
theorem exists_of_mem (h : Stack c root path f) :
    ∀ name ∈ f.name :: path, ∃ g, c.function? name = some g ∧ c.Reaches root g ∧ c.Reaches g f := by
  induction h with
  | start hroot =>
    intro name hname
    rw [List.mem_singleton] at hname
    subst hname
    exact ⟨root, hroot, .refl, .refl⟩
  | call hstack hcall _ ih =>
    intro name hname
    rcases List.mem_cons.1 hname with rfl | hname
    · exact ⟨_, hcall.function?, hstack.reaches_root.tail hcall, .refl⟩
    · obtain ⟨g, hg, hroot, hreach⟩ := ih name hname
      exact ⟨g, hg, hroot, hreach.tail hcall⟩

/-- There are no more functions being walked than functions. -/
theorem length_lt (h : Stack c root path f) : path.length < c.functions.length := by
  have hsub : f.name :: path ⊆ c.functions.items.map Function.name := by
    intro name hname
    obtain ⟨g, hg, -⟩ := h.exists_of_mem name hname
    exact mem_names_of_function? hg
  have hle := (h.nodup.subperm hsub).length_le
  rw [List.length_map, List.length_cons] at hle
  exact hle

end Stack

/-! ## The walk -/

/-- A call that closes a cycle, seen from a root: the called function reaches the caller, and the
error is reported at the innermost statement around the call. -/
def Closes (c : Code) (root : Function) (e : GenerationError) : Prop :=
  ∃ g caller t arguments, c.Reaches root g ∧ c.Reaches g caller ∧ c.function? g.name = some g ∧
    Block.Innermost caller.body t (.call g.name arguments) ∧
    e = .unsupported (.recursiveCall g.name) t.location

theorem closes_of_site {c : Code} {root f : Function} {path : List String} {site : CallSite}
    (hstack : Stack c root path f) (hsite : site ∈ Block.calls f.body)
    (hpath : site.callee ∈ f.name :: path) :
    c.Closes root (.unsupported (.recursiveCall site.callee) site.location) := by
  obtain ⟨g, hg, hroot, hreach⟩ := hstack.exists_of_mem site.callee hpath
  obtain ⟨t, arguments, hin, hloc⟩ := Block.mem_calls.1 hsite
  have hname := name_of_function? hg
  exact ⟨g, f, t, arguments, hroot, hreach, function?_name hg, by rw [hname]; exact hin,
    by rw [hname, hloc]⟩

/-- One step of the loop over the calls of a body; `path` has the names of the functions being walked,
the caller's first. -/
def visitCall (c : Code) (depth : Nat) (path : List String) (order : List Function)
    (site : CallSite) : Except GenerationError (List Function) :=
  match c.function? site.callee with
  | none => .ok order
  | some callee =>
    if path.contains site.callee then
      .error (.unsupported (.recursiveCall site.callee) site.location)
    else if order.any (·.name == site.callee) then .ok order
    else
      match depth with
      | 0 => .error (.unsupported (.recursiveCall site.callee) site.location)
      | depth + 1 => c.visit depth path callee order

/-- The loop of the walk over calls of a body. -/
def visitCalls (c : Code) (depth : Nat) (path : List String) (sites : List CallSite)
    (order : List Function) : Except GenerationError (List Function) :=
  sites.foldlM (c.visitCall depth path) order

theorem visit_eq (c : Code) (depth : Nat) (path : List String) (f : Function)
    (order : List Function) :
    c.visit depth path f order =
      (c.visitCalls depth (f.name :: path) (Block.calls f.body) order).map (· ++ [f]) := by
  rw [Code.visit.eq_def]
  rfl

theorem visitCalls_cons (c : Code) (depth : Nat) (path : List String) (site : CallSite)
    (sites : List CallSite) (order : List Function) :
    c.visitCalls depth path (site :: sites) order =
      (c.visitCall depth path order site).bind (c.visitCalls depth path sites) := by
  rfl

theorem any_name_iff {order : List Function} {name : String} :
    order.any (·.name == name) = true ↔ name ∈ order.map Function.name := by
  simp [List.mem_map]

/-- What a walk below a function does to the finished functions: it appends functions that the
function reaches, none of them on the path. -/
structure Extends (c : Code) (f : Function) (path : List String) (order order' : List Function) :
    Prop where
  walked : Walked c order'
  appended : ∃ new, order' = order ++ new ∧ ∀ g ∈ new, c.Reaches f g
  off_path : ∀ g ∈ order', g.name ∉ path

namespace Extends

variable {c : Code} {f : Function} {path : List String} {order order' order'' : List Function}

theorem refl (hw : Walked c order) (hoff : ∀ g ∈ order, g.name ∉ path) :
    Extends c f path order order :=
  ⟨hw, ⟨[], by simp, by simp⟩, hoff⟩

theorem trans (h : Extends c f path order order') (h' : Extends c f path order' order'') :
    Extends c f path order order'' := by
  obtain ⟨new, rfl, hnew⟩ := h.appended
  obtain ⟨new', rfl, hnew'⟩ := h'.appended
  refine ⟨h'.walked, ⟨new ++ new', by rw [List.append_assoc], ?_⟩, h'.off_path⟩
  intro g hg
  rcases List.mem_append.1 hg with hg | hg
  · exact hnew g hg
  · exact hnew' g hg

theorem of_callee {g : Function} (hcall : c.Calls f g) (h : Extends c g path order order') :
    Extends c f path order order' := by
  obtain ⟨new, rfl, hnew⟩ := h.appended
  exact ⟨h.walked, ⟨new, rfl, fun x hx => (hnew x hx).head hcall⟩, h.off_path⟩

theorem mem (h : Extends c f path order order') {g : Function} (hg : g ∈ order) : g ∈ order' := by
  obtain ⟨new, rfl, -⟩ := h.appended
  exact List.mem_append_left _ hg

end Extends

/-- The result of a walk from a function: the finished functions with this one last, or the error of a
call that closes a cycle. -/
def Visited (c : Code) (root f : Function) (path : List String) (order : List Function) :
    Except GenerationError (List Function) → Prop
  | .ok order' => c.Extends f path order order' ∧ order'.getLast? = some f
  | .error e => c.Closes root e

/-- The result of walking some calls of a body: finished functions with every called one among them, or
the error of a call that closes a cycle. -/
def CallsVisited (c : Code) (root f : Function) (path : List String) (sites : List CallSite)
    (order : List Function) : Except GenerationError (List Function) → Prop
  | .ok order' => c.Extends f (f.name :: path) order order' ∧
      ∀ site ∈ sites, ∀ g, c.function? site.callee = some g → g ∈ order'
  | .error e => c.Closes root e

theorem CallsVisited.cons {c : Code} {root f : Function} {path : List String} {site : CallSite}
    {sites : List CallSite} {order order' : List Function}
    {result : Except GenerationError (List Function)}
    (hstep : c.Extends f (f.name :: path) order order')
    (hsite : ∀ g, c.function? site.callee = some g → g ∈ order')
    (h : c.CallsVisited root f path sites order' result) :
    c.CallsVisited root f path (site :: sites) order result := by
  cases result with
  | error e => exact h
  | ok order'' =>
    obtain ⟨hext, hsites⟩ := h
    refine ⟨hstep.trans hext, ?_⟩
    intro s hs g hg
    rcases List.mem_cons.1 hs with rfl | hs
    · exact hext.mem (hsite g hg)
    · exact hsites s hs g hg

/-- The loop over calls, given what a walk one level down does. -/
theorem visitCalls_walks {c : Code} {root f : Function} {path : List String} {depth : Nat}
    (hstack : Stack c root path f)
    (hvisit : ∀ g order, Stack c root (f.name :: path) g → Walked c order →
      (∀ x ∈ order, x.name ∉ g.name :: f.name :: path) →
      c.Visited root g (f.name :: path) order (c.visit depth (f.name :: path) g order))
    (sites : List CallSite) (hsites : sites ⊆ Block.calls f.body) (order : List Function)
    (hw : Walked c order) (hoff : ∀ x ∈ order, x.name ∉ f.name :: path) :
    c.CallsVisited root f path sites order
      (c.visitCalls (depth + 1) (f.name :: path) sites order) := by
  induction sites generalizing order with
  | nil => exact ⟨.refl hw hoff, by simp⟩
  | cons site sites ih =>
    have hsite : site ∈ Block.calls f.body := hsites (List.mem_cons_self ..)
    have hrest : sites ⊆ Block.calls f.body := fun s hs => hsites (List.mem_cons_of_mem _ hs)
    rw [visitCalls_cons]
    unfold visitCall
    cases hg : c.function? site.callee with
    | none =>
      exact .cons (.refl hw hoff) (by simp [hg]) (ih hrest order hw hoff)
    | some g =>
      have hname := name_of_function? hg
      have hcall := calls_of_site hsite hg
      dsimp only
      split
      · -- the callee is on the path: a cycle
        rename_i hpath
        exact closes_of_site hstack hsite (by simpa using hpath)
      rename_i hpath
      split
      · -- the callee is listed already, and nothing is added
        rename_i hdone
        have hmem : g ∈ order := by
          rw [hw.mem_iff (function?_name hg), hname]
          exact any_name_iff.1 hdone
        refine .cons (.refl hw hoff) ?_ (ih hrest order hw hoff)
        intro x hx
        cases hg.symm.trans hx
        exact hmem
      · -- a new function: the walk goes one level down, and then on from where it ended
        rename_i hdone
        have hfresh : g.name ∉ f.name :: path := by
          rw [hname]
          simpa using hpath
        have hstack' : Stack c root (f.name :: path) g := hstack.call hcall hfresh
        have hoff' : ∀ x ∈ order, x.name ∉ g.name :: f.name :: path := by
          intro x hx hmem
          rcases List.mem_cons.1 hmem with heq | hmem
          · exact hdone (any_name_iff.2 (hname ▸ heq ▸ List.mem_map_of_mem hx))
          · exact hoff x hx hmem
        have hvisited := hvisit g order hstack' hw hoff'
        cases hres : c.visit depth (f.name :: path) g order with
        | error e =>
          rw [hres] at hvisited
          exact hvisited
        | ok order' =>
          rw [hres] at hvisited
          obtain ⟨hext, hlast⟩ := hvisited
          refine .cons (hext.of_callee hcall) ?_ (ih hrest order' hext.walked hext.off_path)
          intro x hx
          cases hg.symm.trans hx
          exact List.mem_of_getLast? hlast

/-- **A walk lists what it reaches or meets a cycle.**  A walk with room for every function never
reaches its bound on the depth. -/
theorem visit_walks {c : Code} {root : Function} (depth : Nat) {path : List String} {f : Function}
    {order : List Function} (hstack : Stack c root path f)
    (hdepth : c.functions.length ≤ depth + path.length) (hw : Walked c order)
    (hoff : ∀ x ∈ order, x.name ∉ f.name :: path) :
    c.Visited root f path order (c.visit depth path f order) := by
  induction depth generalizing path f order with
  | zero =>
    -- the path would have more distinct functions than there are
    have hlt := hstack.length_lt
    omega
  | succ n ih =>
    have hdown : c.functions.length ≤ n + (f.name :: path).length := by
      rw [List.length_cons]
      omega
    have hcalls := visitCalls_walks hstack (fun g order hs hw hoff => ih hs hdown hw hoff)
      (Block.calls f.body) (List.Subset.refl _) order hw hoff
    rw [visit_eq]
    cases hres : c.visitCalls (n + 1) (f.name :: path) (Block.calls f.body) order with
    | error e =>
      rw [hres] at hcalls
      exact hcalls
    | ok order' =>
      rw [hres] at hcalls
      obtain ⟨hext, hsites⟩ := hcalls
      have hcallees : ∀ g, c.Calls f g → g ∈ order' := by
        intro g hg
        obtain ⟨site, hsite, hfind⟩ := hg.exists_site
        exact hsites site hsite g hfind
      have hfresh : f.name ∉ order'.map Function.name := by
        intro hmem
        obtain ⟨x, hx, hname⟩ := List.mem_map.1 hmem
        exact hext.off_path x hx (hname ▸ List.mem_cons_self ..)
      obtain ⟨new, hnew, hreach⟩ := hext.appended
      refine ⟨⟨hext.walked.snoc hstack.function? hfresh hcallees,
        ⟨new ++ [f], by simp [hnew], ?_⟩, ?_⟩, by simp⟩
      · intro g hg
        rcases List.mem_append.1 hg with hg | hg
        · exact hreach g hg
        · rw [List.mem_singleton.1 hg]
          exact .refl
      · intro g hg
        rcases List.mem_append.1 hg with hg | hg
        · exact fun hmem => hext.off_path g hg (List.mem_cons_of_mem _ hmem)
        · rw [List.mem_singleton.1 hg]
          exact (List.nodup_cons.1 hstack.nodup).1

/-- The walk from a function of the code: what it reaches, the function itself last, or the error of
a call that closes a cycle. -/
theorem reachable_visited {c : Code} {name : String} {entry : Function}
    (h : c.function? name = some entry) : c.Visited entry entry [] [] (c.reachable entry) :=
  visit_walks _ (.start (function?_name h)) (Nat.le_refl _) .nil (by simp)

theorem Extends.mem_iff_reaches {c : Code} {f : Function} {path : List String}
    {order : List Function} (h : c.Extends f path [] order) (hf : f ∈ order) {g : Function} :
    g ∈ order ↔ c.Reaches f g := by
  refine ⟨fun hg => ?_, h.walked.reaches_mem hf⟩
  obtain ⟨new, hnew, hreach⟩ := h.appended
  rw [List.nil_append] at hnew
  exact hreach g (hnew ▸ hg)

/-- The functions listed from a function of the code are exactly those that it reaches. -/
theorem mem_reachable_iff {c : Code} {name : String} {entry : Function} {order : List Function}
    (h : c.function? name = some entry) (horder : c.reachable entry = .ok order) {g : Function} :
    g ∈ order ↔ c.Reaches entry g := by
  have hvisited := reachable_visited h
  rw [horder] at hvisited
  obtain ⟨hext, hlast⟩ := hvisited
  exact hext.mem_iff_reaches (List.mem_of_getLast? hlast)

theorem onCycle_of_closing_call {c : Code} {g caller : Function} {t : Stmt} {arguments : List Expr}
    (hg : c.function? g.name = some g) (hreach : c.Reaches g caller)
    (hin : Block.Innermost caller.body t (.call g.name arguments)) : c.OnCycle g :=
  Relation.TransGen.tail' hreach ⟨t, g.name, arguments, hin, hg⟩

end Code

/-- **The functions that an entry reaches.**  The walk from a function of the code succeeds exactly if
no cycle of calls can be reached.  It then lists the functions that can be reached and no others, each
once and after all functions that it calls, the entry last.  Otherwise it reports a function that is on
such a cycle, at the innermost statement around a call that leads back to it. -/
theorem reachable_functions_exact (c : Code) (name : String) (entry : Function)
    (h : c.function? name = some entry) :
    ((∃ order, c.reachable entry = .ok order) ↔ ∀ g, c.Reaches entry g → ¬ c.OnCycle g) ∧
    (∀ order, c.reachable entry = .ok order →
      (order.map Function.name).Nodup ∧ (∀ g, g ∈ order ↔ c.Reaches entry g) ∧
      order.getLast? = some entry ∧
      ∀ before f after, order = before ++ f :: after → ∀ g, c.Calls f g → g ∈ before) ∧
    (∀ e, c.reachable entry = .error e →
      ∃ g caller t arguments, c.Reaches entry g ∧ c.OnCycle g ∧ c.Reaches g caller ∧
        Block.Innermost caller.body t (.call g.name arguments) ∧
        e = .unsupported (.recursiveCall g.name) t.location ∧
        e.message = "unsupported construct at " ++ t.location.text ++ ": " ++
          ("recursive call to `" ++ g.name ++ "`")) := by
  have hvisited := Code.reachable_visited h
  cases hres : c.reachable entry with
  | ok order =>
    rw [hres] at hvisited
    obtain ⟨hext, hlast⟩ := hvisited
    have hmem := fun g => hext.mem_iff_reaches (List.mem_of_getLast? hlast) (g := g)
    refine ⟨⟨fun _ g hg => hext.walked.not_onCycle ((hmem g).2 hg), fun _ => ⟨order, rfl⟩⟩, ?_,
      fun e he => (nomatch he)⟩
    intro order' heq
    cases heq
    exact ⟨hext.walked.nodup, hmem, hlast, hext.walked.callee_before⟩
  | error e =>
    rw [hres] at hvisited
    obtain ⟨g, caller, t, arguments, hroot, hreach, hg, hin, rfl⟩ := hvisited
    have hcycle := Code.onCycle_of_closing_call hg hreach hin
    refine ⟨⟨fun ⟨_, hok⟩ => (nomatch hok), fun hall => absurd hcycle (hall g hroot)⟩,
      fun _ hok => (nomatch hok), ?_⟩
    intro e he
    cases he
    exact ⟨g, caller, t, arguments, hroot, hcycle, hreach, hin, rfl, rfl⟩

/-- A function without parameters whose body evaluates an expression. -/
def Function.evaluating (name : String) (e : Expr) : Function where
  name := name
  returnType := ⟨"void", false⟩
  role := .plain
  parameters := []
  workgroup := {}
  body := [.eval .unknown e]

/-- Two functions share a callee, one of them in the arguments of a call; a function that nobody calls
calls itself. -/
def Code.sharing : Code where
  resources := .empty
  functions := ⟨[
    .evaluating "main" (.call "left" [.call "right" []]),
    .evaluating "left" (.call "shared" []),
    .evaluating "right" (.call "Math.Max" [.call "shared" [], .call "shared" []]),
    .evaluating "shared" (.call "Math.Max" []),
    .evaluating "loop" (.call "loop" [])]⟩

theorem reachable_functions_exact_sharing :
    ∃ entry, Code.sharing.function? "main" = some entry ∧
      (∀ g, Code.sharing.Reaches entry g → ¬ Code.sharing.OnCycle g) ∧
      ∃ order, Code.sharing.reachable entry = .ok order ∧
        order.map Function.name = ["shared", "left", "right", "main"] ∧
        ∀ before f after, order = before ++ f :: after →
          ∀ g, Code.sharing.Calls f g → g ∈ before := by
  have hmain : Code.sharing.function? "main" =
      some (.evaluating "main" (.call "left" [.call "right" []])) := rfl
  obtain ⟨hsuccess, hlist, -⟩ := reachable_functions_exact Code.sharing "main" _ hmain
  have hnames : (Code.sharing.reachable
      (.evaluating "main" (.call "left" [.call "right" []]))).map (·.map Function.name) =
        .ok ["shared", "left", "right", "main"] := by
    cbv
  cases hres : Code.sharing.reachable (.evaluating "main" (.call "left" [.call "right" []])) with
  | error e => rw [hres] at hnames; cases hnames
  | ok order =>
    rw [hres] at hnames
    exact ⟨_, hmain, hsuccess.1 ⟨order, hres⟩, order, hres, Except.ok.inj hnames,
      (hlist order hres).2.2.2⟩

end CrossShader

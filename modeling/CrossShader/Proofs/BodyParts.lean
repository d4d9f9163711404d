import CrossShader.Proofs.BlockScope

/-!
# Parts of bodies

A body is lowered part by part.  A statement has parts of its own, which are what it holds outside of its
blocks; the parts of a body are those of its statements, in the order in which they are written.  A body
is lowered if all its parts are, and else its error is that of the first part that is not.

* `OwnPart`, `OwnPart.owner` — a part, and the statement around it.
* `Stmt.ownParts`, `Stmt.hollow` — the parts of a statement alone, and the statement with empty blocks.
* `Block.parts` — the parts of a body, as they are written.
* `Scope.Lowers` — computations that lower some parts, one after the other.
* `lowers_outlineAll`, `lowers_hollow` — the lowering of a body, and of a statement with empty blocks.
-/

set_option autoImplicit false

namespace CrossShader

/-! ## Parts -/

/-- A part of a body that is lowered on its own, with the statement around it. -/
inductive OwnPart where
  /-- The text of a statement, also in a `for` header. -/
  | simple (t : Stmt)
  /-- An expression that the statement holds itself. -/
  | expr (t : Stmt) (e : Expr)
  /-- A label of a case. -/
  | label (t : Stmt) (value : Literal)
  /-- The statement as such, where it holds nothing that is lowered. -/
  | kind (t : Stmt)

/-- The innermost statement around a part. -/
def OwnPart.owner : OwnPart → Stmt
  | simple t | expr t _ | label t _ | kind t => t

/-- The labels of a case. -/
def SwitchCase.labels : SwitchCase → List Literal
  | .mk labels _ _ => labels

/-- A case with an empty body. -/
def SwitchCase.hollow : SwitchCase → SwitchCase
  | .mk labels isDefault _ => .mk labels isDefault []

namespace Stmt

/-- The parts of a statement, without those of its blocks. -/
def ownParts : Stmt → List OwnPart
  | t@(declare ..) | t@(eval ..) | t@(assign ..) => [.simple t]
  | t@(forLoop _ start condition step _) =>
    start.toList.map .simple ++ (condition.toList.map (.expr t) ++ step.map .simple)
  | t@(switch _ selector cases) => .expr t selector :: (cases.flatMap SwitchCase.labels).map (.label t)
  | t@(ifElse _ e _ _) | t@(whileLoop _ e _) | t@(doWhile _ _ e) | t@(ret _ (some e)) => [.expr t e]
  | t@(foreach ..) | t@(breakLoop _) | t@(continueLoop _) | t@(ret _ none) | t@(discard _) => [.kind t]
  | block .. => []

/-- A statement with empty blocks. -/
def hollow : Stmt → Stmt
  | block loc _ => block loc []
  | ifElse loc condition _ _ => ifElse loc condition [] []
  | forLoop loc start condition step _ => forLoop loc start condition step []
  | whileLoop loc condition _ => whileLoop loc condition []
  | doWhile loc _ condition => doWhile loc [] condition
  | switch loc selector cases => switch loc selector (cases.map SwitchCase.hollow)
  | foreach loc item type collection _ => foreach loc item type collection []
  | t@(declare ..) | t@(eval ..) | t@(assign ..) | t@(breakLoop _) | t@(continueLoop _) | t@(ret ..)
  | t@(discard _) => t

end Stmt

mutual
/-- The parts of a statement and of the statements in it, as they are written. -/
def Stmt.parts : Stmt → List OwnPart
  | .block _ body => Block.parts body
  | .declare loc name type count value => [.simple (.declare loc name type count value)]
  | .eval loc e => [.simple (.eval loc e)]
  | .assign loc target op value => [.simple (.assign loc target op value)]
  | .ifElse loc condition accept reject =>
    .expr (.ifElse loc condition accept reject) condition :: (Block.parts accept ++ Block.parts reject)
  | .forLoop loc start condition step body =>
    start.toList.map .simple ++
      (condition.toList.map (.expr (.forLoop loc start condition step body)) ++
        (step.map .simple ++ Block.parts body))
  | .whileLoop loc condition body =>
    .expr (.whileLoop loc condition body) condition :: Block.parts body
  | .doWhile loc body condition =>
    Block.parts body ++ [.expr (.doWhile loc body condition) condition]
  | .switch loc selector cases =>
    .expr (.switch loc selector cases) selector ::
      SwitchCase.parts (.switch loc selector cases) cases
  | .foreach loc item type collection body => [.kind (.foreach loc item type collection body)]
  | .breakLoop loc => [.kind (.breakLoop loc)]
  | .continueLoop loc => [.kind (.continueLoop loc)]
  | .ret loc none => [.kind (.ret loc none)]
  | .ret loc (some value) => [.expr (.ret loc (some value)) value]
  | .discard loc => [.kind (.discard loc)]
termination_by structural t => t

/-- The parts of a block, as they are written. -/
def Block.parts : List Stmt → List OwnPart
  | [] => []
  | t :: rest => t.parts ++ Block.parts rest
termination_by structural body => body

/-- The parts of the cases of a switch: the labels of each case are just before its body. -/
def SwitchCase.parts (owner : Stmt) : List SwitchCase → List OwnPart
  | [] => []
  | .mk labels _ body :: rest =>
    labels.map (.label owner) ++ (Block.parts body ++ SwitchCase.parts owner rest)
termination_by structural cases => cases
end

section Membership

variable {p : OwnPart}

theorem Block.mem_parts {body : List Stmt} : p ∈ Block.parts body ↔ ∃ t ∈ body, p ∈ t.parts := by
  induction body with
  | nil => simp [Block.parts]
  | cons t rest ih => simp [Block.parts, ih]

theorem SwitchCase.mem_parts {owner : Stmt} {cases : List SwitchCase} :
    p ∈ SwitchCase.parts owner cases ↔
      p ∈ (cases.flatMap SwitchCase.labels).map (.label owner) ∨
        ∃ t ∈ cases.flatMap SwitchCase.body, p ∈ t.parts := by
  induction cases with
  | nil => simp [SwitchCase.parts]
  | cons case rest ih =>
    obtain ⟨labels, isDefault, body⟩ := case
    simp only [SwitchCase.parts, List.mem_append, Block.mem_parts, ih, List.flatMap_cons,
      SwitchCase.labels, SwitchCase.body, List.map_append, or_and_right, exists_or]
    rw [or_or_or_comm, or_assoc]

namespace Stmt

theorem mem_parts_of_mem_ownParts {t : Stmt} (h : p ∈ t.ownParts) : p ∈ t.parts := by
  cases t with
  | block => cases h
  | ifElse | whileLoop | doWhile =>
    cases List.mem_singleton.1 h
    simp [parts]
  | forLoop loc start condition step body =>
    simp only [ownParts, List.mem_append] at h
    simp only [parts, List.mem_append]
    tauto
  | switch loc selector cases =>
    rcases List.mem_cons.1 h with rfl | h
    · exact List.mem_cons_self
    · exact List.mem_cons_of_mem _ (SwitchCase.mem_parts.2 (.inl h))
  | declare | eval | assign | foreach | breakLoop | continueLoop | discard => exact h
  | ret loc value =>
    cases value with
    | none => exact h
    | some value => exact h

/-- A part of a statement is its own, or one of a statement in it. -/
theorem mem_ownParts_or_inner {t : Stmt} (h : p ∈ t.parts) :
    p ∈ t.ownParts ∨ ∃ u ∈ t.inner, p ∈ u.parts := by
  cases t with
  | block loc body => exact .inr (Block.mem_parts.1 h)
  | ifElse loc condition accept reject =>
    simp only [parts, List.mem_cons, List.mem_append, Block.mem_parts] at h
    rcases h with rfl | ⟨u, hu, hp⟩ | ⟨u, hu, hp⟩
    · exact .inl List.mem_cons_self
    · exact .inr ⟨u, List.mem_append_left _ hu, hp⟩
    · exact .inr ⟨u, List.mem_append_right _ hu, hp⟩
  | forLoop loc start condition step body =>
    simp only [parts, List.mem_append, Block.mem_parts] at h
    simp only [ownParts, inner, List.mem_append]
    rcases h with h | h | h | ⟨u, hu, hp⟩
    · exact .inl (.inl h)
    · exact .inl (.inr (.inl h))
    · exact .inl (.inr (.inr h))
    · exact .inr ⟨u, .inr hu, hp⟩
  | whileLoop loc condition body =>
    rcases List.mem_cons.1 h with rfl | h
    · exact .inl List.mem_cons_self
    · exact .inr (Block.mem_parts.1 h)
  | doWhile loc body condition =>
    rcases List.mem_append.1 h with h | h
    · exact .inr (Block.mem_parts.1 h)
    · exact .inl h
  | switch loc selector cases =>
    rcases List.mem_cons.1 h with rfl | h
    · exact .inl List.mem_cons_self
    · exact (SwitchCase.mem_parts.1 h).imp (List.mem_cons_of_mem _) id
  | declare | eval | assign | foreach | breakLoop | continueLoop | discard => exact .inl h
  | ret loc value =>
    cases value with
    | none => exact .inl h
    | some value => exact .inl h

/-- The statement around a part of a statement is that statement, or one in its header. -/
theorem owner_inside {t : Stmt} (h : p ∈ t.ownParts) : p.owner.Inside t := by
  cases t with
  | block => cases h
  | forLoop loc start condition step body =>
    simp only [ownParts, List.mem_append, List.mem_map] at h
    rcases h with ⟨u, hu, rfl⟩ | ⟨e, -, rfl⟩ | ⟨u, hu, rfl⟩
    · exact .nested (List.mem_append_left _ (List.mem_append_left _ hu)) .self
    · exact .self
    · exact .nested (List.mem_append_left _ (List.mem_append_right _ hu)) .self
  | switch loc selector cases =>
    rcases List.mem_cons.1 h with rfl | h
    · exact .self
    · obtain ⟨value, -, rfl⟩ := List.mem_map.1 h
      exact .self
  | declare | eval | assign | foreach | breakLoop | continueLoop | discard | ifElse | whileLoop
  | doWhile =>
    cases List.mem_singleton.1 h
    exact .self
  | ret loc value =>
    cases value with
    | none | some =>
      cases List.mem_singleton.1 h
      exact .self

theorem mem_exprs_of_mem_ownParts {t u : Stmt} {e : Expr} (h : OwnPart.expr u e ∈ t.ownParts) :
    u = t ∧ e ∈ t.exprs := by
  cases t with
  | forLoop loc start condition step body =>
    simpa [ownParts, exprs, and_comm, eq_comm] using h
  | block | declare | eval | assign | foreach | breakLoop | continueLoop | discard => simp [ownParts] at h
  | ifElse | whileLoop | doWhile | switch => simpa [ownParts, exprs] using h
  | ret loc value =>
    cases value with
    | none => simp [ownParts] at h
    | some value => simpa [ownParts, exprs] using h

end Stmt

/-- **Every part of a body is one of a statement in the body.** -/
theorem Block.exists_holds_of_mem_parts {body : List Stmt} (h : p ∈ Block.parts body) :
    ∃ t, Holds body t ∧ p ∈ t.ownParts := by
  obtain ⟨top, htop, h⟩ := Block.mem_parts.1 h
  suffices hinside : ∀ s : Stmt, p ∈ s.parts → ∃ t : Stmt, t.Inside s ∧ p ∈ t.ownParts by
    obtain ⟨t, ht, hp⟩ := hinside top h
    exact ⟨t, ⟨top, htop, ht⟩, hp⟩
  intro s hs
  induction hn : sizeOf s using Nat.strongRecOn generalizing s with
  | _ n ih =>
    subst hn
    rcases Stmt.mem_ownParts_or_inner hs with hown | ⟨u, hu, hp⟩
    · exact ⟨s, .self, hown⟩
    · obtain ⟨t, ht, hown⟩ := ih _ (Stmt.sizeOf_lt_of_mem_inner hu) u hp rfl
      exact ⟨t, .nested hu ht, hown⟩

end Membership

/-! ## Lowering part by part -/

/-- The error of a computation that fails. -/
def errorOf {α : Type} : Except GenerationError α → Option GenerationError
  | .ok _ => none
  | .error e => some e

@[simp] theorem errorOf_eq_some {α : Type} {x : Except GenerationError α} {e : GenerationError} :
    errorOf x = some e ↔ x = .error e := by
  cases x with
  | ok a => exact ⟨fun h => (nomatch h), fun h => (nomatch h)⟩
  | error e' => exact ⟨fun h => congrArg _ (Option.some.inj h), fun h => congrArg _ (Except.error.inj h)⟩

@[simp] theorem errorOf_eq_none {α : Type} {x : Except GenerationError α} :
    errorOf x = none ↔ ∃ a, x = .ok a := by
  cases x with
  | ok a => exact ⟨fun _ => ⟨a, rfl⟩, fun _ => rfl⟩
  | error e => exact ⟨fun h => (nomatch h), fun ⟨_, h⟩ => (nomatch h)⟩

namespace Scope

/-- The error of a part that is not lowered on its own. -/
def partError (s : Scope) : OwnPart → Option GenerationError
  | .simple t => errorOf (s.simple t)
  | .expr t e => errorOf (s.lower t.location e)
  | .label t value => errorOf (value.lowerLabel t.location)
  | .kind t => errorOf (s.outline t)

/-- A computation that lowers some parts, one after the other, and ends at the first that is not
lowered. -/
def Lowers {α : Type} (s : Scope) (parts : List OwnPart) (x : Except GenerationError α) : Prop :=
  errorOf x = parts.findSome? s.partError

end Scope

namespace Scope.Lowers

variable {s : Scope} {α β : Type} {parts first rest : List OwnPart}

theorem ok (a : α) : s.Lowers [] (.ok a : Except GenerationError α) := rfl

theorem part {p : OwnPart} {x : Except GenerationError α} (h : errorOf x = s.partError p) :
    s.Lowers [p] x := by
  simpa [Lowers] using h

theorem bind {x : Except GenerationError α} {f : α → Except GenerationError β} (hx : s.Lowers first x)
    (hf : ∀ a, s.Lowers rest (f a)) : s.Lowers (first ++ rest) (x >>= f) := by
  unfold Lowers at hx
  rw [Lowers, List.findSome?_append, ← hx]
  cases x with
  | error e => rfl
  | ok a => exact hf a

/-- What is done with a result has no parts. -/
theorem map {x : Except GenerationError α} (hx : s.Lowers parts x) (g : α → β) :
    s.Lowers parts (x >>= fun a => .ok (g a)) := by
  have h := hx.bind fun a => ok (g a)
  rwa [List.append_nil] at h

theorem mapM {ι : Type} {f : ι → Except GenerationError β} {l : List ι} {g : ι → OwnPart}
    (hf : ∀ i ∈ l, s.Lowers [g i] (f i)) : s.Lowers (l.map g) (l.mapM f) := by
  induction l with
  | nil => exact ok []
  | cons i l ih =>
    obtain ⟨hi, hl⟩ := List.forall_mem_cons.1 hf
    rw [List.mapM_cons, List.map_cons]
    exact hi.bind fun _ => (ih hl).map _

theorem optional {ι : Type} {f : ι → Except GenerationError String} {o : Option ι} {g : ι → OwnPart}
    (hf : ∀ i ∈ o.toList, s.Lowers [g i] (f i)) :
    s.Lowers (o.toList.map g) (Scope.optional o f) := by
  cases o with
  | none => exact ok ""
  | some i => exact hf i List.mem_cons_self

theorem exists_ok_iff {x : Except GenerationError α} (h : s.Lowers parts x) :
    (∃ a, x = .ok a) ↔ ∀ p ∈ parts, s.partError p = none := by
  rw [← errorOf_eq_none, h, List.findSome?_eq_none_iff]

/-- The error is that of the first part that is not lowered. -/
theorem error_iff {x : Except GenerationError α} (h : s.Lowers parts x) {e : GenerationError} :
    x = .error e ↔ ∃ before p after, parts = before ++ p :: after ∧
      (∀ q ∈ before, s.partError q = none) ∧ s.partError p = some e := by
  rw [← errorOf_eq_some, h, List.findSome?_eq_some_iff]
  grind

end Scope.Lowers

section Lowering

variable {s : Scope}

theorem lowers_simple (t : Stmt) : s.Lowers [.simple t] (s.simple t) := .part rfl

theorem lowers_expr (t : Stmt) (e : Expr) : s.Lowers [.expr t e] (s.lower t.location e) := .part rfl

theorem lowers_kind (t : Stmt) : s.Lowers [.kind t] (s.outline t) := .part rfl

theorem lowers_labels (owner : Stmt) (labels : List Literal) :
    s.Lowers (labels.map (.label owner)) (labels.mapM (Literal.lowerLabel owner.location)) :=
  .mapM fun _ _ => .part rfl

theorem lowers_outlineAll_of {body : List Stmt} (h : ∀ t ∈ body, s.Lowers t.parts (s.outline t)) :
    s.Lowers (Block.parts body) (s.outlineAll body) := by
  induction body with
  | nil =>
    rw [Scope.outlineAll]
    exact .ok []
  | cons t rest ih =>
    obtain ⟨ht, hrest⟩ := List.forall_mem_cons.1 h
    rw [Scope.outlineAll, Block.parts]
    exact ht.bind fun _ => (ih hrest).map _

theorem lowers_outlineCases_of (owner : Stmt) {cases : List SwitchCase}
    (h : ∀ t ∈ cases.flatMap SwitchCase.body, s.Lowers t.parts (s.outline t)) :
    s.Lowers (SwitchCase.parts owner cases) (s.outlineCases owner.location cases) := by
  induction cases with
  | nil =>
    rw [Scope.outlineCases]
    exact .ok []
  | cons case rest ih =>
    obtain ⟨labels, isDefault, body⟩ := case
    rw [List.flatMap_cons] at h
    rw [Scope.outlineCases, SwitchCase.parts]
    refine (lowers_labels owner labels).bind fun _ => ?_
    refine (lowers_outlineAll_of fun t ht => h t (List.mem_append_left _ ht)).bind fun _ => ?_
    exact (ih fun t ht => h t (List.mem_append_right _ ht)).map _

/-- **A statement is lowered part by part.** -/
theorem lowers_outline (t : Stmt) : s.Lowers t.parts (s.outline t) := by
  induction hn : sizeOf t using Nat.strongRecOn generalizing t with
  | _ n ih =>
    subst hn
    have hinner : ∀ u ∈ t.inner, s.Lowers u.parts (s.outline u) :=
      fun u hu => ih _ (Stmt.sizeOf_lt_of_mem_inner hu) u rfl
    cases t with
    | block loc body =>
      rw [Scope.outline, Stmt.parts]
      exact (lowers_outlineAll_of hinner).map _
    | declare | eval | assign =>
      rw [Scope.outline, Stmt.parts]
      exact (lowers_simple _).map _
    | ifElse loc condition accept reject =>
      rw [Scope.outline, Stmt.parts]
      refine (lowers_expr (.ifElse loc condition accept reject) condition).bind fun _ => ?_
      refine Scope.Lowers.bind (lowers_outlineAll_of fun u hu => ?_) fun _ => ?_
      · exact hinner u (List.mem_append_left _ hu)
      · exact (lowers_outlineAll_of fun u hu => hinner u (List.mem_append_right _ hu)).map _
    | forLoop loc start condition step body =>
      rw [Scope.outline, Stmt.parts]
      refine Scope.Lowers.bind (.optional fun u _ => lowers_simple u) fun _ => ?_
      refine Scope.Lowers.bind
        (.optional fun e _ => lowers_expr (.forLoop loc start condition step body) e) fun _ => ?_
      refine Scope.Lowers.bind (.mapM fun u _ => lowers_simple u) fun _ => ?_
      exact (lowers_outlineAll_of fun u hu => hinner u (List.mem_append_right _ hu)).map _
    | whileLoop loc condition body =>
      rw [Scope.outline, Stmt.parts]
      exact (lowers_expr (.whileLoop loc condition body) condition).bind fun _ =>
        (lowers_outlineAll_of hinner).map _
    | doWhile loc body condition =>
      rw [Scope.outline, Stmt.parts]
      exact (lowers_outlineAll_of hinner).bind fun _ =>
        (lowers_expr (.doWhile loc body condition) condition).map _
    | switch loc selector cases =>
      rw [Scope.outline, Stmt.parts]
      exact (lowers_expr (.switch loc selector cases) selector).bind fun _ =>
        (lowers_outlineCases_of (.switch loc selector cases) hinner).map _
    | foreach | breakLoop | continueLoop | discard => exact lowers_kind _
    | ret loc value =>
      cases value with
      | none => exact lowers_kind _
      | some value =>
        rw [Scope.outline, Stmt.parts]
        exact (lowers_expr (.ret loc (some value)) value).map _

/-- **A body is lowered part by part.** -/
theorem lowers_outlineAll (body : List Stmt) : s.Lowers (Block.parts body) (s.outlineAll body) :=
  lowers_outlineAll_of fun t _ => lowers_outline t

theorem lowers_hollowCases (owner : Stmt) (cases : List SwitchCase) :
    s.Lowers ((cases.flatMap SwitchCase.labels).map (.label owner))
      (s.outlineCases owner.location (cases.map SwitchCase.hollow)) := by
  induction cases with
  | nil =>
    rw [List.map_nil, Scope.outlineCases]
    exact .ok []
  | cons case rest ih =>
    obtain ⟨labels, isDefault, body⟩ := case
    rw [List.map_cons, SwitchCase.hollow, Scope.outlineCases, Scope.outlineAll, List.flatMap_cons,
      List.map_append]
    exact (lowers_labels owner labels).bind fun _ => ih.map _

/-- A statement with empty blocks has the parts of its own alone. -/
theorem lowers_hollow (t : Stmt) : s.Lowers t.ownParts (s.outline t.hollow) := by
  cases t with
  | block loc body =>
    rw [Stmt.hollow, Scope.outline, Scope.outlineAll]
    exact .ok _
  | declare | eval | assign =>
    rw [Stmt.hollow, Scope.outline]
    exact (lowers_simple _).map _
  | ifElse loc condition accept reject =>
    rw [Stmt.hollow, Scope.outline, Scope.outlineAll]
    exact (lowers_expr (.ifElse loc condition accept reject) condition).map _
  | forLoop loc start condition step body =>
    rw [Stmt.hollow, Scope.outline, Scope.outlineAll]
    refine Scope.Lowers.bind (.optional fun u _ => lowers_simple u) fun _ => ?_
    refine Scope.Lowers.bind
      (.optional fun e _ => lowers_expr (.forLoop loc start condition step body) e) fun _ => ?_
    exact Scope.Lowers.map (.mapM fun u _ => lowers_simple u) _
  | whileLoop loc condition body =>
    rw [Stmt.hollow, Scope.outline, Scope.outlineAll]
    exact (lowers_expr (.whileLoop loc condition body) condition).map _
  | doWhile loc body condition =>
    rw [Stmt.hollow, Scope.outline, Scope.outlineAll]
    exact (lowers_expr (.doWhile loc body condition) condition).map _
  | switch loc selector cases =>
    rw [Stmt.hollow, Scope.outline]
    exact (lowers_expr (.switch loc selector cases) selector).bind fun _ =>
      (lowers_hollowCases (.switch loc selector cases) cases).map _
  | breakLoop | continueLoop | discard => exact lowers_kind _
  | foreach loc item type collection body => exact .part rfl
  | ret loc value =>
    cases value with
    | none => exact lowers_kind _
    | some value =>
      rw [Stmt.hollow, Scope.outline]
      exact (lowers_expr (.ret loc (some value)) value).map _

end Lowering

end CrossShader

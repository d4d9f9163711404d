import CrossShader.Proofs.BodyParts
import CrossShader.Proofs.EmittedStructures
import CrossShader.Proofs.Raises
import CrossShader.Target

/-!
# Errors of emission

With which errors the second phase of a request fails, in a context that maps every type which emission
comes across: constructs without a form on the target, and resources that cannot be declared.

* `GenerationError.Unsupported` — errors about constructs.
* `Context.Covers` — contexts that map every type of structures, resources and functions.
* `raises_lower`, `raises_simple` — expressions and simple statements, for any set that holds the errors
  about constructs at their location.
* `raises_part`, `raises_outlineAll` — the parts of bodies, and bodies.
* `Resource.Fault` — the errors of a resource, each with its cause.
* `Context.Covers.exists_structureDecls`, `Context.Covers.raises_functionLines`,
  `raises_declareResource` — the parts of a document.
-/

set_option autoImplicit false

namespace CrossShader

/-- An error about a construct without a form on the target. -/
def GenerationError.Unsupported (e : GenerationError) : Prop :=
  ∃ construct loc, e = .unsupported construct loc

theorem GenerationError.unsupported_of (what : Construct) (loc : Location) :
    (GenerationError.unsupported what loc).Unsupported :=
  ⟨what, loc, rfl⟩

/-! ## Emission -/

/-- A type that has a target type. -/
def Context.Maps (c : Context) (type : TypeRef) : Prop := ∃ mapped, c.mappedType type = .ok mapped

/-- The contexts that map every type which emission comes across: in the fields of resolved structures,
in resources, and in functions. -/
structure Context.Covers (c : Context) (functions : List Function) : Prop where
  fields : ∀ entry ∈ c.structures, ∀ field ∈ entry.2.fields, c.Maps field.type
  values : ∀ r ∈ c.code.resources.items, ∀ type, r.valueType = some type → c.Maps type
  named : ∀ f ∈ functions, ∀ type, f.Names c.dialect type → c.Maps type

/-- An expression makes a value of a type, somewhere in it. -/
inductive Expr.Makes (e : Expr) : TypeRef → Prop
  | construct {type : TypeRef} {arguments : List Expr} :
      Expr.Part (.construct type arguments) e → e.Makes type
  | cast {type : TypeRef} {operand : Expr} : Expr.Part (.cast type operand) e → e.Makes type

theorem Expr.Makes.of_operand {o e : Expr} {type : TypeRef} (ho : o ∈ e.operands)
    (h : o.Makes type) : e.Makes type := by
  cases h with
  | construct hpart => exact .construct (.operand ho hpart)
  | cast hpart => exact .cast (.operand ho hpart)

section Emission

variable {P : GenerationError → Prop} {c : Context} {s : Scope} {loc : Location}

theorem Context.Maps.raises {type : TypeRef} (h : c.Maps type) : Raises P (c.mappedType type) :=
  .of_ok h

theorem raises_expect (hP : ∀ what, P (.unsupported what loc)) (form : Option String)
    (what : Construct) : Raises P (Context.expect form what loc) := by
  cases form with
  | none => exact .error (hP what)
  | some text => exact .ok text

theorem raises_scalarType (hP : ∀ what, P (.unsupported what loc)) {type : TypeRef}
    (h : Raises P (c.mappedType type)) : Raises P (c.scalarType loc type) := by
  unfold Context.scalarType
  split
  · exact .error (hP _)
  · exact h

/-- Zero values: those of the fields are found among the structures resolved before. -/
theorem raises_zeroValueFrom (hP : ∀ what, P (.unsupported what loc))
    {structures : List (String × Structure)}
    (hfields : ∀ entry ∈ structures, ∀ field ∈ entry.2.fields, Raises P (c.mappedType field.type))
    {type : TypeRef} (h : Raises P (c.mappedType type)) :
    Raises P (c.zeroValueFrom loc structures type) := by
  induction structures generalizing type with
  | nil =>
    rw [Context.zeroValueFrom]
    exact (raises_scalarType hP h).bind fun _ _ => raises_expect hP _ _
  | cons entry earlier ih =>
    obtain ⟨name, definition⟩ := entry
    obtain ⟨hfirst, hearlier⟩ := List.forall_mem_cons.1 hfields
    rw [Context.zeroValueFrom]
    split
    · refine (raises_scalarType hP h).bind fun mapped _ => ?_
      cases c.dialect.zeroValue mapped true with
      | some zero => exact .ok zero
      | none =>
        refine Raises.bind (.mapM fun field hfield => ?_) fun _ _ => raises_expect hP _ _
        refine (ih hearlier (hfirst field hfield)).bind fun zero _ => ?_
        split
        · exact (raises_scalarType hP (hfirst field hfield)).bind fun _ _ => raises_expect hP _ _
        · exact .ok zero
    · exact ih hearlier h

theorem raises_lowerAll {es : List Expr} (h : ∀ e ∈ es, Raises P (s.lower loc e)) :
    Raises P (s.lowerAll loc es) := by
  induction es with
  | nil =>
    rw [Scope.lowerAll]
    exact .ok []
  | cons e es ih =>
    obtain ⟨he, hes⟩ := List.forall_mem_cons.1 h
    rw [Scope.lowerAll]
    exact he.bind fun _ _ => (ih hes).bind fun _ _ => .ok _

theorem raises_lowerMember (hP : ∀ what, P (.unsupported what loc)) (type name : String) :
    Raises P (s.lowerMember loc type name) := by
  unfold Scope.lowerMember
  split
  · split
    · exact .ok _
    · exact .error (hP _)
  · split
    · exact .ok _
    · exact .error (hP _)

/-- **The lowering of an expression fails only for constructs at its location**, and for the types that
it makes values of. -/
theorem raises_lower (hP : ∀ what, P (.unsupported what loc))
    (hfields : ∀ entry ∈ s.context.structures, ∀ field ∈ entry.2.fields,
      Raises P (s.context.mappedType field.type)) {e : Expr}
    (h : ∀ type, e.Makes type → Raises P (s.context.mappedType type)) :
    Raises P (s.lower loc e) := by
  induction e using Expr.operands_induction with
  | _ e ih =>
    have hoperand : ∀ o ∈ e.operands, Raises P (s.lower loc o) :=
      fun o ho => ih o ho fun type htype => h type (htype.of_operand ho)
    cases e with
    | literal value =>
      rw [Scope.lower]
      cases value with
      | bool | int | uint => exact .ok _
      | float value =>
        rw [Literal.lower]
        split
        · exact .ok _
        · exact .error (hP _)
    | localVar name =>
      rw [Scope.lower]
      exact .ok _
    | resource name =>
      rw [Scope.lower, Scope.lowerResource]
      split
      · exact .ok _
      · exact .error (hP _)
    | member base type name =>
      rw [Scope.lower]
      exact (hoperand base (by simp [Expr.operands])).bind fun _ _ =>
        (raises_lowerMember hP _ _).bind fun _ _ => .ok _
    | staticMember type name =>
      rw [Scope.lower, Scope.lowerStatic]
      split
      · exact .ok _
      · exact .error (hP _)
    | index base i =>
      rw [Scope.lower]
      exact (hoperand base (by simp [Expr.operands])).bind fun _ _ =>
        (hoperand i (by simp [Expr.operands])).bind fun _ _ => .ok _
    | unary op operand =>
      rw [Scope.lower]
      exact (hoperand operand (by simp [Expr.operands])).bind fun _ _ => .ok _
    | binary op left right =>
      rw [Scope.lower]
      refine (hoperand left (by simp [Expr.operands])).bind fun _ _ =>
        (hoperand right (by simp [Expr.operands])).bind fun _ _ => ?_
      split
      · exact .ok _
      · exact .ok _
    | conditional condition accept reject =>
      rw [Scope.lower]
      exact (hoperand condition (by simp [Expr.operands])).bind fun _ _ =>
        (hoperand accept (by simp [Expr.operands])).bind fun _ _ =>
          (hoperand reject (by simp [Expr.operands])).bind fun _ _ => .ok _
    | call function arguments =>
      rw [Scope.lower]
      split
      · exact (raises_lowerAll hoperand).bind fun _ _ => .ok _
      · split
        · exact (raises_lowerAll hoperand).bind fun _ _ => raises_expect hP _ _
        · exact .error (hP _)
    | construct type arguments =>
      have htype := h type (.construct .self)
      cases arguments with
      | nil =>
        rw [Scope.lower]
        exact raises_zeroValueFrom hP hfields htype
      | cons first rest =>
        rw [Scope.lower]
        refine (raises_scalarType hP htype).bind fun _ _ => ?_
        refine (hoperand first List.mem_cons_self).bind fun _ _ => ?_
        refine Raises.bind (raises_lowerAll fun e he => ?_) fun _ _ => raises_expect hP _ _
        exact hoperand e (List.mem_cons_of_mem _ he)
    | cast type operand =>
      rw [Scope.lower]
      exact (raises_scalarType hP (h type (.cast .self))).bind fun _ _ =>
        (hoperand operand (by simp [Expr.operands])).bind fun _ _ => raises_expect hP _ _

/-- **A simple statement fails only for constructs at its location**, and for its types: that of the local
which it declares, and those which it makes values of. -/
theorem raises_simple {t : Stmt} (hP : ∀ what, P (.unsupported what t.location))
    (hfields : ∀ entry ∈ s.context.structures, ∀ field ∈ entry.2.fields,
      Raises P (s.context.mappedType field.type))
    (hdeclared : ∀ loc name type count value, t = .declare loc name type count value →
      Raises P (s.context.mappedType type))
    (hmade : ∀ e ∈ t.exprs, ∀ type, e.Makes type → Raises P (s.context.mappedType type)) :
    Raises P (s.simple t) := by
  have hown : ∀ e ∈ t.exprs, Raises P (s.lower t.location e) :=
    fun e he => raises_lower hP hfields (hmade e he)
  cases t with
  | declare loc name type count value =>
    have hdeclarator : Raises P (s.declarator loc name type count) := by
      unfold Scope.declarator
      split
      · exact .error (hP _)
      · exact (hdeclared _ _ _ _ _ rfl).bind fun _ _ => .ok _
    cases value with
    | none => exact hdeclarator
    | some value =>
      exact hdeclarator.bind fun _ _ => (hown value (by simp [Stmt.exprs])).bind fun _ _ => .ok _
  | eval loc e => exact hown e (by simp [Stmt.exprs])
  | assign loc target op value =>
    refine (hown target (by simp [Stmt.exprs])).bind fun _ _ =>
      (hown value (by simp [Stmt.exprs])).bind fun _ _ => ?_
    split
    · exact .ok _
    · exact .ok _
  | block | ifElse | forLoop | whileLoop | doWhile | switch | foreach | breakLoop | continueLoop
  | ret | discard => exact .error (hP _)

theorem raises_label (hP : ∀ what, P (.unsupported what loc)) (value : Literal) :
    Raises P (value.lowerLabel loc) := by
  cases value with
  | int | uint => exact .ok _
  | bool | float => exact .error (hP _)

/-- A statement that is a part as such: only `foreach` loops and `discard` can fail. -/
theorem raises_kind {t u : Stmt} (hu : OwnPart.kind u ∈ t.ownParts)
    (hP : ∀ what, P (.unsupported what u.location)) : Raises P (s.outline u) := by
  cases t with
  | foreach =>
    cases List.mem_singleton.1 hu
    rw [Scope.outline]
    exact .error (hP _)
  | breakLoop | continueLoop =>
    cases List.mem_singleton.1 hu
    rw [Scope.outline]
    exact .ok _
  | discard =>
    cases List.mem_singleton.1 hu
    rw [Scope.outline]
    split
    · exact .ok _
    · exact .error (hP _)
  | ret loc value =>
    cases value with
    | none =>
      cases List.mem_singleton.1 hu
      rw [Scope.outline]
      exact .ok _
    | some value => simp [Stmt.ownParts] at hu
  | block | declare | eval | assign | ifElse | forLoop | whileLoop | doWhile | switch =>
    simp [Stmt.ownParts] at hu

/-- **A part fails only for constructs at the statement around it**, and for the types of that
statement. -/
theorem raises_part {t : Stmt} {p : OwnPart} (hp : p ∈ t.ownParts)
    (hP : ∀ what, P (.unsupported what p.owner.location))
    (hfields : ∀ entry ∈ s.context.structures, ∀ field ∈ entry.2.fields,
      Raises P (s.context.mappedType field.type))
    (hdeclared : ∀ loc name type count value, p.owner = .declare loc name type count value →
      Raises P (s.context.mappedType type))
    (hmade : ∀ e ∈ p.owner.exprs, ∀ type, e.Makes type → Raises P (s.context.mappedType type)) :
    ∀ e, s.partError p = some e → P e := by
  intro error herror
  cases p with
  | simple u => exact raises_simple hP hfields hdeclared hmade error (errorOf_eq_some.1 herror)
  | expr u e =>
    obtain ⟨rfl, he⟩ := Stmt.mem_exprs_of_mem_ownParts hp
    exact raises_lower hP hfields (hmade e he) error (errorOf_eq_some.1 herror)
  | label u value => exact raises_label hP value error (errorOf_eq_some.1 herror)
  | kind u => exact raises_kind hp hP error (errorOf_eq_some.1 herror)

/-- A statement whose types are mapped: those of the locals that it declares, and those that its
expressions make values of, at any depth. -/
structure Stmt.Mapped (c : Context) (t : Stmt) : Prop where
  declared : ∀ u : Stmt, u.Inside t → ∀ loc name type count value,
    u = .declare loc name type count value → c.Maps type
  made : ∀ u : Stmt, u.Inside t → ∀ e ∈ u.exprs, ∀ type, e.Makes type → c.Maps type

/-- **The lowering of a body fails only for constructs**, if its types are mapped. -/
theorem raises_outlineAll (hfields : ∀ entry ∈ s.context.structures, ∀ field ∈ entry.2.fields,
      s.context.Maps field.type) {body : List Stmt} (h : ∀ t ∈ body, t.Mapped s.context) :
    Raises GenerationError.Unsupported (s.outlineAll body) := by
  intro error herror
  -- the error is that of a part, and the statement around the part is one of the body
  obtain ⟨before, p, after, hparts, -, herror⟩ := (lowers_outlineAll body).error_iff.1 herror
  have hp : p ∈ Block.parts body := hparts ▸ List.mem_append_right _ List.mem_cons_self
  obtain ⟨t, ⟨top, htop, hin⟩, hown⟩ := Block.exists_holds_of_mem_parts hp
  have hinside : p.owner.Inside top := (Stmt.owner_inside hown).trans hin
  have hmapped := h top htop
  exact raises_part hown (GenerationError.unsupported_of · p.owner.location)
    (fun entry hentry field hfield => (hfields entry hentry field hfield).raises)
    (fun loc name type count value heq =>
      (hmapped.declared p.owner hinside loc name type count value heq).raises)
    (fun e he type htype => (hmapped.made p.owner hinside e he type htype).raises) error herror

end Emission

namespace Context.Covers

variable {c : Context} {functions : List Function}

/-- The types of the statements of a covered function are mapped. -/
theorem mapped (h : c.Covers functions) {f : Function} (hf : f ∈ functions) {t : Stmt}
    (ht : t ∈ f.body) : t.Mapped c where
  declared u hu loc name type count value heq := by
    subst heq
    exact h.named f hf type (.declared ⟨t, ht, hu⟩)
  made u hu e he type hmakes := by
    cases hmakes with
    | construct hpart => exact h.named f hf type (.construct ⟨⟨t, ht, hu⟩, e, he, hpart⟩)
    | cast hpart => exact h.named f hf type (.cast ⟨⟨t, ht, hu⟩, e, he, hpart⟩)

theorem raises_signature (h : c.Covers functions) {f : Function} (hf : f ∈ functions) :
    Raises GenerationError.Unsupported (c.signature f) := by
  unfold Context.signature
  split
  · exact .error ⟨_, _, rfl⟩
  · refine Raises.bind (.mapM fun p hp => ?_) fun _ _ => ?_
    · unfold Context.parameter
      split
      · exact .error ⟨_, _, rfl⟩
      · exact (Raises.of_ok (h.named f hf _ (.parameter hp))).bind fun _ _ => .ok _
    · exact (Raises.of_ok (h.named f hf _ .result)).bind fun _ _ => .ok _

/-- **The lines of a covered function fail only for constructs.** -/
theorem raises_functionLines (h : c.Covers functions) (stage : Stage) {f : Function}
    (hf : f ∈ functions) : Raises GenerationError.Unsupported (c.functionLines stage f) := by
  refine (h.raises_signature hf).bind fun _ _ => ?_
  exact (raises_outlineAll h.fields fun t ht => h.mapped hf ht).bind fun _ _ => .ok _

/-- **The structures of a covered context are declared.** -/
theorem exists_structureDecls (h : c.Covers functions) :
    ∃ decls, c.structureDecls = .ok decls := by
  refine exists_mapM_ok fun entry hentry => ?_
  have hfields : ∃ fields, entry.2.fields.mapM (fun field => do
      let type ← c.mappedType field.type
      return { type, name := c.dialect.correct field.name, count := field.count : FieldDecl }) =
        .ok fields := by
    refine exists_mapM_ok fun field hfield => ?_
    obtain ⟨mapped, hmapped⟩ := h.fields entry (List.mem_reverse.1 hentry) field hfield
    exact ⟨_, bind_ok.2 ⟨mapped, hmapped, rfl⟩⟩
  obtain ⟨fields, hfields⟩ := hfields
  exact ⟨_, bind_ok.2 ⟨fields, hfields, rfl⟩⟩

end Context.Covers

/-! ## Resources -/

/-- The errors of a resource: it has no form on the target, it lacks a value type that its kind asks for,
or its kind is none that any target knows. -/
inductive Resource.Fault (r : Resource) : GenerationError → Prop
  | unsupported {e : GenerationError} : e.Unsupported → r.Fault e
  | missingValueType : r.kind.needsValueType = true → r.valueType = none →
      r.Fault (.missingValueType r.name)
  | illegalKind {raw : Nat} : r.kind = .other raw → r.Fault (.illegalResourceKind r.name r.kind)

section Resources

variable {r : Resource} {name : String} {valueType : Option String} {form : ResourceForm}

theorem raises_requireValueType (hkind : r.kind.needsValueType = true)
    (hvalue : valueType = none → r.valueType = none) :
    Raises r.Fault (ResourceDecl.requireValueType ⟨r, name, valueType⟩) := by
  cases valueType with
  | some type => exact .ok type
  | none => exact .error (.missingValueType hkind (hvalue rfl))

/-- A declaration fails for want of a value type, or because the version has no buffers. -/
theorem Glsl.raises_resource (version : Glsl.Version) (hform : r.kind.form? = some form)
    (hvalue : valueType = none → r.valueType = none) :
    Raises r.Fault (Glsl.resource version form ⟨r, name, valueType⟩) := by
  cases hkind : r.kind with
  | texture2D | textureCube =>
    rw [hkind] at hform
    cases hform
    exact .ok _
  | sampler =>
    rw [hkind] at hform
    cases hform
    rw [Glsl.resource]
    split
    · exact .ok _
    · exact .ok _
  | uniform =>
    rw [hkind] at hform
    cases hform
    exact (raises_requireValueType (congrArg _ hkind) hvalue).bind fun _ _ => .ok _
  | structuredBuffer | rwStructuredBuffer =>
    rw [hkind] at hform
    cases hform
    rw [Glsl.resource]
    split
    · exact (raises_requireValueType (congrArg _ hkind) hvalue).bind fun _ _ => .ok _
    · exact .error (.unsupported ⟨_, _, rfl⟩)
  | other raw =>
    rw [hkind] at hform
    cases hform

theorem Hlsl.raises_resource (hform : r.kind.form? = some form)
    (hvalue : valueType = none → r.valueType = none) :
    Raises r.Fault (Hlsl.resource form ⟨r, name, valueType⟩) := by
  cases hkind : r.kind with
  | texture2D | textureCube | sampler =>
    rw [hkind] at hform
    cases hform
    exact .ok _
  | uniform | structuredBuffer | rwStructuredBuffer =>
    rw [hkind] at hform
    cases hform
    exact (raises_requireValueType (congrArg _ hkind) hvalue).bind fun _ _ => .ok _
  | other raw =>
    rw [hkind] at hform
    cases hform

theorem Target.raises_resource (target : Target) (hform : r.kind.form? = some form)
    (hvalue : valueType = none → r.valueType = none) :
    Raises r.Fault (target.dialect.resource form ⟨r, name, valueType⟩) := by
  cases target with
  | glslEs300 | glsl330 | glsl450 => exact Glsl.raises_resource _ hform hvalue
  | hlsl => exact Hlsl.raises_resource hform hvalue

/-- **A declaration of a resource fails only for its own faults**, if its value type is mapped. -/
theorem raises_declareResource {target : Target} {c : Context} (hc : c.dialect = target.dialect)
    (h : ∀ type, r.valueType = some type → c.Maps type) : Raises r.Fault (c.declareResource r) := by
  obtain ⟨mapped, hmapped, hnone⟩ : ∃ mapped, r.valueType.mapM c.mappedType = .ok mapped ∧
      (mapped = none → r.valueType = none) := by
    cases hvalue : r.valueType with
    | none => exact ⟨none, rfl, fun _ => rfl⟩
    | some type =>
      obtain ⟨mapped, hmapped⟩ := h type hvalue
      refine ⟨some mapped, ?_, fun hnone => absurd hnone (Option.some_ne_none mapped)⟩
      change some <$> c.mappedType type = _
      rw [hmapped]
      rfl
  have hdecl : c.resourceDecl r = .ok ⟨r, c.dialect.correct r.name, mapped⟩ :=
    bind_ok.2 ⟨mapped, hmapped, rfl⟩
  unfold Context.declareResource
  rw [hdecl]
  cases hform : r.kind.form? with
  | some form =>
    rw [hc]
    exact target.raises_resource hform hnone
  | none =>
    obtain ⟨raw, hraw⟩ : ∃ raw, r.kind = .other raw := by
      cases hkind : r.kind with
      | other raw => exact ⟨raw, rfl⟩
      | uniform | texture2D | textureCube | sampler | structuredBuffer | rwStructuredBuffer =>
        rw [hkind] at hform
        cases hform
    exact .error (.illegalKind hraw)

end Resources

end CrossShader

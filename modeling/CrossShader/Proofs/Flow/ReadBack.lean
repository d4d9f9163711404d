import CrossShader.Proofs.Flow.Layout

/-!
# Control flow in lowered text

The text of a block says which statements it holds, in which order and how they are nested.

* `Stmt.flow`, `Block.flow`, `SwitchCase.flow` — statements as their control flow: conditions, labels,
  header parts and simple statements are the texts that they are lowered to.
* `shows_outline` — the lines of a statement are read as its control flow.
* `Emitted` — a block that lowers, with names that are single words and a label on every case.
* `control_flow_read_back` — the text of such a block reads as its control flow and as nothing else, so
  blocks with different control flow have different texts.
-/

set_option autoImplicit false

namespace CrossShader

open CrossShader.Flow Reader Text

/-! ## The control flow of statements -/

/-- The text that a lowering gives; empty if it fails. -/
def resultText (x : Except GenerationError String) : String := x.toOption.getD ""

mutual
/-- The control flow of a statement. -/
def Stmt.flow (s : Scope) : Stmt → Flow
  | .block _ body => .block (Block.flow s body)
  | .declare loc name type count value => .simple (resultText (s.simple (.declare loc name type count value)))
  | .eval loc e => .simple (resultText (s.simple (.eval loc e)))
  | .assign loc target op value => .simple (resultText (s.simple (.assign loc target op value)))
  | .ifElse loc condition accept reject =>
    .ifElse (resultText (s.lower loc condition)) (Block.flow s accept) (Block.flow s reject)
  | .forLoop loc start condition step body =>
    .forLoop (start.map fun t => resultText (s.simple t))
      (condition.map fun e => resultText (s.lower loc e)) (step.map fun t => resultText (s.simple t))
      (Block.flow s body)
  | .whileLoop loc condition body => .whileLoop (resultText (s.lower loc condition)) (Block.flow s body)
  | .doWhile loc body condition => .doWhile (Block.flow s body) (resultText (s.lower loc condition))
  | .switch loc selector cases => .switch (resultText (s.lower loc selector)) (SwitchCase.flow s loc cases)
  | .foreach _ _ _ _ body => .block (Block.flow s body)
  | .breakLoop _ => .breakLoop
  | .continueLoop _ => .continueLoop
  | .ret loc value => .ret (value.map fun e => resultText (s.lower loc e))
  | .discard _ => .discard
termination_by structural stmt => stmt

/-- The control flow of a block. -/
def Block.flow (s : Scope) : List Stmt → List Flow
  | [] => []
  | stmt :: rest => stmt.flow s :: Block.flow s rest
termination_by structural body => body

/-- The cases of a switch at `loc`; a case with an empty body is taken together with the next one. -/
def SwitchCase.flow (s : Scope) (loc : Location) : List SwitchCase → List Group
  | [] => []
  | .mk labels isDefault body :: rest =>
    Group.join ((labels.map fun value => resultText (value.lowerLabel loc)).map some ++
      if isDefault then [none] else []) (Block.flow s body) (SwitchCase.flow s loc rest)
termination_by structural cases => cases
end

/-- A case with a label, or the default. -/
def SwitchCase.Labelled : SwitchCase → Prop
  | .mk labels isDefault _ => labels ≠ [] ∨ isDefault = true

/-- Every case of a switch has a label or is the default. -/
def Stmt.Labelled : Stmt → Prop
  | .switch _ _ cases => ∀ case ∈ cases, case.Labelled
  | _ => True

theorem resultText_ok {x : Except GenerationError String} {text : String} (h : x = .ok text) :
    resultText x = text := by
  rw [h]
  rfl

section Texts

variable {α : Type} {f : α → Except GenerationError String}

theorem mapM_texts {l : List α} {texts : List String} (h : l.mapM f = .ok texts) :
    l.map (fun a => resultText (f a)) = texts :=
  (eq_map_of_mapM_ok (fun _ _ htext => (resultText_ok htext).symm) h).symm

theorem optional_text {part : Option α} {text : String} (h : Scope.optional part f = .ok text) :
    (part.map fun a => resultText (f a)).getD "" = text := by
  cases part with
  | none =>
    cases h
    rfl
  | some a => exact resultText_ok h

theorem slot_optional {part : Option α} {text : String} (h : Scope.optional part f = .ok text)
    (hf : ∀ a ∈ part, ∀ text, f a = .ok text → Inert text) :
    Slot (part.map fun a => resultText (f a)) := by
  cases part with
  | none => nofun
  | some a =>
    have htext : f a = .ok text := h
    have hsolid := (hf a rfl text htext).toSolid
    rw [Option.map_some, resultText_ok htext]
    rintro _ ⟨⟩
    exact hsolid

end Texts

/-- **Labels are numbers.** -/
theorem label_all {loc : Location} {value : Literal} {text : String} (h : value.lowerLabel loc = .ok text) :
    text.toList.all isNumberChar = true := by
  cases value with
  | int value =>
    cases h
    cases value with
    | ofNat n => exact (numeric_of_isDecimal (isDecimal_natural n)).2
    | negSucc n =>
      have hnumber := (numeric_of_isDecimal (isDecimal_natural (n + 1))).2
      change ("-" ++ toString (n + 1)).toList.all isNumberChar = true
      rw [String.toList_append, List.all_append, hnumber]
      rfl
  | uint value =>
    cases h
    exact (numeric_unsigned value).2
  | bool | float => cases h

/-! ## The lines of statements -/

/-- The lines of a statement, if it lowers, are read as its control flow. -/
def Stmt.Shown (s : Scope) (t : Stmt) : Prop :=
  ∀ o, s.outline t = .ok o → ∀ level, Shows (Outline.lines level o) (.statement (t.flow s))

theorem shows_outlineAll {s : Scope} {body : List Stmt} (hbody : ∀ t ∈ body, t.Shown s)
    {outlines : List Outline} (h : s.outlineAll body = .ok outlines) (level : Nat) :
    Shows (Outline.linesAll level outlines) (.body (Block.flow s body)) := by
  induction body generalizing outlines with
  | nil =>
    cases h
    exact .nil
  | cons t rest ih =>
    obtain ⟨ht, hrest⟩ := List.forall_mem_cons.1 hbody
    rw [Scope.outlineAll] at h
    obtain ⟨first, hfirst, h⟩ := bind_ok.1 h
    obtain ⟨others, hothers, h⟩ := bind_ok.1 h
    cases h
    exact .next (ht first hfirst level) (ih hrest hothers)

theorem shows_outlineCases {s : Scope} {loc : Location} {cases : List SwitchCase}
    (hcases : ∀ t ∈ cases.flatMap SwitchCase.body, t.Shown s) (hlabelled : ∀ case ∈ cases, case.Labelled)
    {outlines : List OutlineCase} (h : s.outlineCases loc cases = .ok outlines) (level : Nat) :
    Shows (OutlineCase.linesAll level outlines) (.groups (SwitchCase.flow s loc cases)) := by
  induction cases generalizing outlines with
  | nil =>
    cases h
    exact .noGroup
  | cons case rest ih =>
    obtain ⟨labels, isDefault, body⟩ := case
    obtain ⟨hlabels, hothers⟩ := List.forall_mem_cons.1 hlabelled
    rw [Scope.outlineCases] at h
    obtain ⟨texts, htexts, h⟩ := bind_ok.1 h
    obtain ⟨inner, hinner, h⟩ := bind_ok.1 h
    obtain ⟨others, hrest, h⟩ := bind_ok.1 h
    cases h
    rw [List.flatMap_cons] at hcases
    have hbody := shows_outlineAll (fun t ht => hcases t (List.mem_append_left _ ht)) hinner (level + 1)
    have hgroups := ih (fun t ht => hcases t (List.mem_append_right _ ht)) hothers hrest
    have hnumbers : ∀ text ∈ texts, text.toList.all isNumberChar = true := by
      intro text htext
      obtain ⟨value, -, hvalue⟩ := exists_of_mem_mapM_ok htexts text htext
      exact label_all hvalue
    have hsome : texts ≠ [] ∨ isDefault = true := by
      refine hlabels.imp_left fun hne hnil => hne ?_
      rw [hnil] at htexts
      cases mapM_ok.1 htexts
      rfl
    rw [SwitchCase.flow, mapM_texts htexts]
    exact .group hnumbers hsome hbody hgroups

/-- An outline of an `if` is that of an `if`. -/
theorem outline_eq_ifElse {s : Scope} {t : Stmt} {text : String} {accepted rejected : List Outline}
    (h : s.outline t = .ok (.ifElse text accepted rejected)) :
    ∃ as rs, t.flow s = .ifElse text as rs := by
  have houtlined := outlined_of_outline h
  cases t with
  | ifElse loc condition accept reject =>
    obtain ⟨found, _, _, hfound, -, -, heq⟩ := houtlined
    cases heq
    rw [Stmt.flow, resultText_ok hfound]
    exact ⟨_, _, rfl⟩
  | block | declare | eval | assign =>
    obtain ⟨_, -, heq⟩ := houtlined
    cases heq
  | whileLoop | doWhile | switch =>
    obtain ⟨_, _, -, -, heq⟩ := houtlined
    cases heq
  | forLoop =>
    obtain ⟨_, _, _, _, -, -, -, -, heq⟩ := houtlined
    cases heq
  | ret loc value =>
    cases value with
    | none => cases houtlined
    | some value =>
      obtain ⟨_, -, heq⟩ := houtlined
      cases heq
  | discard => cases houtlined.2
  | foreach | breakLoop | continueLoop => cases houtlined

/-- **The other branch of an `if`:** nothing, another `if`, or a block. -/
theorem shows_elseLines {s : Scope} {reject : List Stmt} (hreject : ∀ t ∈ reject, t.Shown s)
    {outlines : List Outline} (h : s.outlineAll reject = .ok outlines) (level : Nat) :
    ShowsElse (Outline.elseLines level outlines) (Block.flow s reject) := by
  cases reject with
  | nil =>
    cases h
    exact .nothing level
  | cons t rest =>
    have hbranch := shows_outlineAll hreject h (level + 1)
    rw [Scope.outlineAll] at h
    obtain ⟨first, hfirst, h⟩ := bind_ok.1 h
    obtain ⟨others, hothers, h⟩ := bind_ok.1 h
    cases h
    -- a branch that is one `if` is written on the line of `else`; any other one gets a block
    by_cases hchain : ∃ text accepted rejected, first :: others = [.ifElse text accepted rejected]
    · obtain ⟨text, accepted, rejected, hchain⟩ := hchain
      cases hchain
      obtain ⟨as, rs, hflow⟩ := outline_eq_ifElse hfirst
      have hif := hreject t List.mem_cons_self _ hfirst level
      rw [hflow] at hif
      cases rest with
      | nil =>
        rw [Block.flow, Block.flow, hflow]
        exact .chain hif
      | cons next rest =>
        -- two statements have two outlines, so they are no single `if`
        rw [Scope.outlineAll] at hothers
        obtain ⟨_, -, hothers⟩ := bind_ok.1 hothers
        obtain ⟨_, -, hothers⟩ := bind_ok.1 hothers
        cases hothers
    · exact .branch (fun text accepted rejected heq => hchain ⟨text, accepted, rejected, heq⟩) hbranch

/-! ## Statements -/

section Statements

variable {s : Scope} (hforms : InertForms s.dialect)
  (hstructures : ∀ entry ∈ s.context.structures, IsIdentifier (flattenDots entry.1))

include hforms hstructures

/-- **One step:** if all statements inside are shown, so is the whole. -/
theorem shown_of_inner {t : Stmt} (hworded : Worded s t) (hheader : ∀ u ∈ t.inner, Worded s u)
    (hlabelled : t.Labelled) (hinner : ∀ u ∈ t.inner, u.Shown s) : t.Shown s := by
  have hown : ∀ e ∈ t.exprs, ∀ loc text, s.lower loc e = .ok text → Inert text :=
    fun e he loc text => inert_lower hforms hstructures (hworded.parts e he)
  have hsimple : ∀ u ∈ t.inner, ∀ text, s.simple u = .ok text → Inert text :=
    fun u hu text => inert_simple hforms hstructures (hheader u hu)
  intro o h level
  have houtlined := outlined_of_outline h
  cases t with
  | block loc body =>
    obtain ⟨inner, hbody, rfl⟩ := houtlined
    exact .block (shows_outlineAll hinner hbody (level + 1))
  | declare | eval | assign =>
    obtain ⟨text, htext, rfl⟩ := houtlined
    rw [Stmt.flow, resultText_ok htext]
    exact .simple (inert_simple hforms hstructures hworded htext)
  | ifElse loc condition accept reject =>
    obtain ⟨text, accepted, rejected, htext, haccepted, hrejected, rfl⟩ := houtlined
    rw [Stmt.flow, resultText_ok htext]
    refine .ifElse (hown condition List.mem_cons_self loc text htext) ?_ ?_
    · exact shows_outlineAll (fun u hu => hinner u (List.mem_append_left _ hu)) haccepted (level + 1)
    · exact shows_elseLines (fun u hu => hinner u (List.mem_append_right _ hu)) hrejected level
  | forLoop loc start condition step body =>
    obtain ⟨_, _, stepTexts, inner, hstart, hcondition, hsteps, hbody, rfl⟩ := houtlined
    rw [Stmt.flow, mapM_texts hsteps, ← optional_text hstart, ← optional_text hcondition]
    -- the start and the steps stand in the header: they are inert texts there, not statements
    refine .forLoop ?_ ?_ ?_ ?_
    · refine slot_optional hstart fun u hu text => hsimple u ?_ text
      exact List.mem_append_left _ (List.mem_append_left _ (Option.mem_toList.2 hu))
    · exact slot_optional hcondition fun e he text => hown e (Option.mem_toList.2 he) loc text
    · intro text htext
      obtain ⟨u, hu, husimple⟩ := exists_of_mem_mapM_ok hsteps text htext
      refine (hsimple u ?_ text husimple).toSolid
      exact List.mem_append_left _ (List.mem_append_right _ hu)
    · exact shows_outlineAll (fun u hu => hinner u (List.mem_append_right _ hu)) hbody (level + 1)
  | whileLoop loc condition body =>
    obtain ⟨text, inner, htext, hbody, rfl⟩ := houtlined
    rw [Stmt.flow, resultText_ok htext]
    exact .whileLoop (hown condition List.mem_cons_self loc text htext)
      (shows_outlineAll hinner hbody (level + 1))
  | doWhile loc body condition =>
    obtain ⟨text, inner, htext, hbody, rfl⟩ := houtlined
    rw [Stmt.flow, resultText_ok htext]
    exact .doWhile (hown condition List.mem_cons_self loc text htext)
      (shows_outlineAll hinner hbody (level + 1))
  | switch loc selector cases =>
    obtain ⟨text, outlines, htext, hcases, rfl⟩ := houtlined
    rw [Stmt.flow, resultText_ok htext]
    exact .switch (hown selector List.mem_cons_self loc text htext)
      (shows_outlineCases hinner hlabelled hcases (level + 1))
  | ret loc value =>
    cases value with
    | none =>
      cases houtlined
      exact .retNone
    | some value =>
      obtain ⟨text, htext, rfl⟩ := houtlined
      rw [Stmt.flow, Option.map_some, resultText_ok htext]
      exact .ret (hown value List.mem_cons_self loc text htext)
  | discard loc =>
    obtain ⟨-, rfl⟩ := houtlined
    exact .discard
  | breakLoop loc =>
    cases houtlined
    exact .breakLoop
  | continueLoop loc =>
    cases houtlined
    exact .continueLoop
  | foreach => cases houtlined

/-- **The lines of a statement are read as its control flow.** -/
theorem shows_outline {t : Stmt} (hworded : ∀ u : Stmt, u.Inside t → Worded s u)
    (hlabelled : ∀ u : Stmt, u.Inside t → u.Labelled) : t.Shown s := by
  induction hn : sizeOf t using Nat.strongRecOn generalizing t with
  | _ n ih =>
    subst hn
    refine shown_of_inner hforms hstructures (hworded t .self)
      (fun u hu => hworded u (.nested hu .self)) (hlabelled t .self) fun u hu => ?_
    exact ih _ (Stmt.sizeOf_lt_of_mem_inner hu) (fun v hv => hworded v (.nested hu hv))
      (fun v hv => hlabelled v (.nested hu hv)) rfl

end Statements

/-! ## Blocks -/

/-- A block that lowers on a built-in target: its names are single words, and each case of a switch has a
label or is the default. -/
structure Emitted (target : Target) (s : Scope) (body : List Stmt) (outlines : List Outline) : Prop where
  dialect : s.dialect = target.dialect
  structures : ∀ entry ∈ s.context.structures, IsIdentifier (flattenDots entry.1)
  worded : ∀ t : Stmt, Block.Holds body t → Worded s t
  labelled : ∀ t : Stmt, Block.Holds body t → t.Labelled
  lowered : s.outlineAll body = .ok outlines

instance (s : Scope) (t : Stmt) : Decidable (Worded s t) :=
  decidable_of_iff ((∀ entry ∈ t.declared, IsIdentifier entry.1) ∧
      ∀ e ∈ t.exprs, ∀ x ∈ e.nodes, x.Worded s)
    ⟨fun h => ⟨h.1, fun e he x hx => h.2 e he x (Expr.mem_nodes_iff_part.2 hx)⟩,
      fun h => ⟨h.declared, fun e he x hx => h.parts e he x (Expr.mem_nodes_iff_part.1 hx)⟩⟩

instance : DecidablePred SwitchCase.Labelled
  | .mk labels isDefault _ => inferInstanceAs (Decidable (labels ≠ [] ∨ isDefault = true))

instance : DecidablePred Stmt.Labelled
  | .switch _ _ cases => inferInstanceAs (Decidable (∀ case ∈ cases, case.Labelled))
  | .block .. | .declare .. | .eval .. | .assign .. | .ifElse .. | .forLoop .. | .whileLoop ..
  | .doWhile .. | .foreach .. | .breakLoop _ | .continueLoop _ | .ret .. | .discard _ => isTrue trivial

/-- A node that is a statement has a property. -/
def Node.Stated (P : Stmt → Prop) : Node → Prop
  | .stmt t => P t
  | .expr _ => True

instance (P : Stmt → Prop) [DecidablePred P] : DecidablePred (Node.Stated P)
  | .stmt t => inferInstanceAs (Decidable (P t))
  | .expr _ => isTrue trivial

/-- What holds of all nodes of a body that are statements holds of all statements in it. -/
theorem Block.forall_holds {P : Stmt → Prop} {body : List Stmt}
    (h : ∀ n ∈ Block.nodes body, n.node.Stated P) {t : Stmt} (ht : Block.Holds body t) : P t :=
  h _ (Block.stmt_mem_nodes.2 ⟨ht, rfl⟩)

/-- The text of an emitted block says its control flow. -/
theorem Emitted.reads {target : Target} {s : Scope} {body : List Stmt} {outlines : List Outline}
    (h : Emitted target s body outlines) (indent level : Nat) :
    Flow.Reads (renderLines indent (Outline.linesAll level outlines)) (Block.flow s body) := by
  have hforms : InertForms s.dialect := h.dialect ▸ target.inertForms
  have hbody : ∀ t ∈ body, t.Shown s := fun t ht =>
    shows_outline hforms h.structures (fun u hu => h.worded u ⟨t, ht, hu⟩)
      (fun u hu => h.labelled u ⟨t, ht, hu⟩)
  obtain ⟨ps, hps, hderives⟩ := shows_outlineAll hbody h.lowered level
  refine ⟨ps, ?_, hderives⟩
  have hscan : scan .start _ = some (.start, ps) := hps indent
  rw [pieces, hscan]

/-- **Control flow is read back from the text.**  The text of a block, on any target and with any
indentation, reads as the control flow of the block and as nothing else, so two blocks with different
control flow never have the same text. -/
theorem control_flow_read_back {target : Target} {s : Scope} {body : List Stmt} {outlines : List Outline}
    (h : Emitted target s body outlines) (indent level : Nat) :
    (∀ fs, Flow.Reads (renderLines indent (Outline.linesAll level outlines)) fs ↔
      fs = Block.flow s body) ∧
    ∀ {target' : Target} {s' : Scope} {body' : List Stmt} {outlines' : List Outline},
      Emitted target' s' body' outlines' → ∀ indent' level',
      Block.flow s body ≠ Block.flow s' body' →
      renderLines indent (Outline.linesAll level outlines) ≠
        renderLines indent' (Outline.linesAll level' outlines') := by
  have hreads := h.reads indent level
  refine ⟨fun fs => ⟨fun hfs => hfs.unique hreads, fun hfs => hfs ▸ hreads⟩, ?_⟩
  intro target' s' body' outlines' h' indent' level' hne htext
  rw [htext] at hreads
  exact hne (hreads.unique (h'.reads indent' level'))

/-- A block with every form of control flow: a loop with two steps around a switch whose cases share a
body, a chain of conditions that ends in a block, loops without a header, and the jumps. -/
def Block.maze : List Stmt :=
  [.forLoop .unknown
    (some (.declare .unknown "n" ⟨Host.int, false⟩ 0 (some (.literal (.int 0)))))
    (some (.binary .less (.localVar "n") (.call "Next" [.localVar "i", .localVar "k"])))
    [.eval .unknown (.unary .preIncrement (.localVar "n")),
      .assign .unknown (.localVar "x") .multiply (.call "System.MathF.Max" [.localVar "x", .localVar "a"])]
    [.switch .unknown (.localVar "n")
      [.mk [.int (-1)] false [], .mk [.uint 2] true [.breakLoop .unknown],
        .mk [.int 3, .int 4] false [.block .unknown [.discard .unknown]], .mk [.int 5] false []]],
   .ifElse .unknown (.binary .less (.localVar "i") (.localVar "k"))
    [.doWhile .unknown [.continueLoop .unknown] (.unary .logicalNot (.localVar "b"))]
    [.ifElse .unknown (.localVar "b") [] [.forLoop .unknown none none [] [], .ret .unknown none]],
   .whileLoop .unknown (.localVar "b") [.ret .unknown (some (.construct ⟨Host.vector4, false⟩ []))]]

/-- The text of `Block.maze` on HLSL. -/
def mazeText : String :=
  String.join (["  for (int n = 0; n < Next(i, k); ++n, x *= max(x, a))", "  \x7b", "    switch (n)", "    \x7b",
    "      case -1:", "      case 2u:", "      default:", "        break;", "      case 3:", "      case 4:",
    "        \x7b", "          discard;", "        \x7d", "      case 5:", "    \x7d", "  \x7d",
    "  if (i < k)", "  \x7b", "    do", "    \x7b", "      continue;", "    \x7d while (!b);", "  \x7d",
    "  else if (b)", "  \x7b", "  \x7d", "  else", "  \x7b", "    for (;;)", "    \x7b", "    \x7d",
    "    return;", "  \x7d", "  while (b)", "  \x7b", "    return (float4)0;", "  \x7d"].map (· ++ "\n"))

/-- What `mazeText` says. -/
def mazeFlow : List Flow :=
  [.forLoop (some "int n = 0") (some "n < Next(i, k)") ["++n", "x *= max(x, a)"]
    [.switch "n"
      [.mk [some "-1", some "2u", none] [.breakLoop], .mk [some "3", some "4"] [.block [.discard]],
        .mk [some "5"] []]],
   .ifElse "i < k" [.doWhile [.continueLoop] "!b"]
    [.ifElse "b" [] [.forLoop none none [] [], .ret none]],
   .whileLoop "b" [.ret (some "(float4)0")]]

theorem control_flow_read_back_maze :
    ∃ outlines, Emitted .hlsl (.calling Hlsl.dialect) Block.maze outlines ∧
      renderLines 2 (Outline.linesAll 1 outlines) = mazeText ∧
      ∀ fs, Flow.Reads mazeText fs ↔ fs = mazeFlow := by
  have hlowered : ∃ outlines, (Scope.calling Hlsl.dialect).outlineAll Block.maze = .ok outlines :=
    ⟨_, rfl⟩
  obtain ⟨outlines, hlowered⟩ := hlowered
  have htext : ((Scope.calling Hlsl.dialect).outlineAll Block.maze).toOption.map
      (fun os => renderLines 2 (Outline.linesAll 1 os)) = some mazeText := by
    decide +kernel
  rw [hlowered] at htext
  have htext : renderLines 2 (Outline.linesAll 1 outlines) = mazeText := Option.some.inj htext
  have hworded : ∀ n ∈ Block.nodes Block.maze, n.node.Stated (Worded (.calling Hlsl.dialect)) := by
    decide +kernel
  have hlabelled : ∀ n ∈ Block.nodes Block.maze, n.node.Stated Stmt.Labelled := by decide +kernel
  have hemitted : Emitted .hlsl (.calling Hlsl.dialect) Block.maze outlines :=
    ⟨rfl, by decide, fun _ => Block.forall_holds hworded, fun _ => Block.forall_holds hlabelled, hlowered⟩
  have hflow : Block.flow (.calling Hlsl.dialect) Block.maze = mazeFlow := by rfl
  have hreads := (control_flow_read_back hemitted 2 1).1
  rw [htext, hflow] at hreads
  exact ⟨outlines, hemitted, htext, hreads⟩

end CrossShader

import CrossShader.Proofs.Nesting
import CrossShader.Target

/-!
# Requests that share a structure set

Several computations run on one structure set and ask it one question at a time, in any order of turns.

* `Query.move` — one move of a computation: a note, or one question.
* `Pool`, `Pool.step`, `Pool.run` — computations in progress on one set, one turn, and a schedule of
  turns; `Pool.Finished` — every computation has its answer.
* `Pool.eventual` — the entry that a name has in the end.  No turn changes it (`eventual_step`).
* `Pool.run_answer` — an answer is what the computation gives under the meanings of the first set.
* `Pool.exists_finish` — whatever turns were taken, the rest can be finished.
* `generation_schedule_independent` — generation requests do not notice each other.
-/

set_option autoImplicit false

namespace CrossShader

namespace Query

variable {α : Type}

/-- One move of a computation; one that has its answer stays. -/
def move (symbols : SymbolSource) : Query α → StructureSet → Query α × StructureSet
  | answer value, s => (answer value, s)
  | note _ next, s => (next, s)
  | discover name next, s =>
    (next (s.discover symbols name).result, (s.discover symbols name).structures)

/-- Whether the answer is there. -/
def isAnswer : Query α → Bool
  | answer _ => true
  | note .. | discover .. => false

theorem move_meaning (symbols : SymbolSource) (q : Query α) (s : StructureSet) :
    (q.move symbols s).2.meaning symbols = s.meaning symbols := by
  cases q with
  | answer value => rfl
  | note record next => rfl
  | discover name next => exact s.meaning_discover symbols name

theorem move_eval (symbols : SymbolSource) (q : Query α) (s : StructureSet) :
    (q.move symbols s).1.eval (s.meaning symbols) = q.eval (s.meaning symbols) := by
  cases q with
  | answer value => rfl
  | note record next => rfl
  | discover name next =>
    show (next (s.discover symbols name).result).eval _ = _
    rw [s.discover_result]
    rfl

theorem moves_move (symbols : SymbolSource) {q : Query α} (h : q.isAnswer = false)
    (s : StructureSet) :
    (q.move symbols s).1.moves (s.meaning symbols) + 1 = q.moves (s.meaning symbols) := by
  cases q with
  | answer value => cases h
  | note record next => rfl
  | discover name next =>
    show (next (s.discover symbols name).result).moves _ + 1 = _
    rw [s.discover_result]
    rfl

/-- Whether the next move asks about a name. -/
def asks (name : String) : Query α → Bool
  | discover other _ => name == other
  | answer _ | note .. => false

theorem asked_move (symbols : SymbolSource) (q : Query α) (s : StructureSet) (name : String) :
    (q.asked (s.meaning symbols)).contains name =
      (q.asks name || ((q.move symbols s).1.asked (s.meaning symbols)).contains name) := by
  cases q with
  | answer value => rfl
  | note record next => rfl
  | discover other next =>
    have hr : (s.discover symbols other).result = s.meaning symbols other := s.discover_result ..
    simp only [asked, asks, move, hr, List.contains_cons]

/-- The set after a move: the entry of the name that was asked about is the declared structure, unless
there was an entry before. -/
theorem find?_move (symbols : SymbolSource) (q : Query α) (s : StructureSet) (name : String) :
    (q.move symbols s).2.find? name =
      (s.find? name).or (if q.asks name then (symbols.lookup name).toOption else none) := by
  cases q with
  | answer value => simp [move, asks]
  | note record next => simp [move, asks]
  | discover other next =>
    show (s.discover symbols other).structures.find? name = _
    rw [s.find?_discover]
    by_cases h : name = other
    · subst h
      simp [asks]
    · simp [asks, h]

end Query

/-- Computations in progress on one structure set. -/
structure Pool (α : Type) where
  structures : StructureSet
  pending : List (Query α)

namespace Pool

variable {α : Type}

/-- A turn: the computation at a position makes one move. -/
def step (symbols : SymbolSource) (pool : Pool α) (i : Nat) : Pool α :=
  match pool.pending[i]? with
  | none => pool
  | some q =>
    ⟨(q.move symbols pool.structures).2, pool.pending.set i (q.move symbols pool.structures).1⟩

/-- The pool after turns at the positions of a schedule. -/
def run (symbols : SymbolSource) (schedule : List Nat) (pool : Pool α) : Pool α :=
  schedule.foldl (step symbols) pool

/-- Every computation has its answer. -/
def Finished (pool : Pool α) : Prop := ∀ q ∈ pool.pending, q.isAnswer = true

instance (pool : Pool α) : Decidable pool.Finished :=
  inferInstanceAs (Decidable (∀ q ∈ pool.pending, q.isAnswer = true))

/-- The answers that the computations give under fixed meanings. -/
def answers (m : Meanings) (pool : Pool α) : List α := pool.pending.map (·.eval m)

/-- The moves that some computations make under fixed meanings. -/
def movesOf (m : Meanings) : List (Query α) → Nat
  | [] => 0
  | q :: rest => q.moves m + movesOf m rest

theorem movesOf_append (m : Meanings) (qs rest : List (Query α)) :
    movesOf m (qs ++ rest) = movesOf m qs + movesOf m rest := by
  induction qs with
  | nil => exact (Nat.zero_add _).symm
  | cons q qs ih =>
    rw [List.cons_append, movesOf, movesOf, ih]
    omega

/-- The moves that are left under fixed meanings. -/
def remaining (m : Meanings) (pool : Pool α) : Nat := movesOf m pool.pending

/-- The entry that a name has in the end: the present one, or what is declared if some computation
will ask for it. -/
def eventual (symbols : SymbolSource) (pool : Pool α) (name : String) : Option Structure :=
  (pool.structures.find? name).or
    (if pool.pending.any fun q => (q.asked (pool.structures.meaning symbols)).contains name then
      (symbols.lookup name).toOption
    else none)

/-! ## One turn -/

theorem step_of_get (symbols : SymbolSource) {pool : Pool α} {i : Nat} {q : Query α}
    (hi : pool.pending[i]? = some q) :
    ∃ before after, pool.pending = before ++ q :: after ∧
      pool.step symbols i =
        ⟨(q.move symbols pool.structures).2,
          before ++ (q.move symbols pool.structures).1 :: after⟩ := by
  obtain ⟨hlt, hq⟩ := List.getElem?_eq_some_iff.1 hi
  refine ⟨pool.pending.take i, pool.pending.drop (i + 1), ?_, ?_⟩
  · rw [← hq, ← List.drop_eq_getElem_cons hlt, List.take_append_drop]
  · unfold step
    rw [hi]
    simp only
    rw [List.set_eq_take_append_cons_drop, if_pos hlt]

theorem step_cases (symbols : SymbolSource) (pool : Pool α) (i : Nat) :
    pool.step symbols i = pool ∨
      ∃ before q after, pool.pending = before ++ q :: after ∧
        pool.step symbols i =
          ⟨(q.move symbols pool.structures).2,
            before ++ (q.move symbols pool.structures).1 :: after⟩ := by
  cases hi : pool.pending[i]? with
  | none =>
    unfold step
    rw [hi]
    exact .inl rfl
  | some q =>
    obtain ⟨before, after, hp, h⟩ := step_of_get symbols hi
    exact .inr ⟨before, q, after, hp, h⟩

theorem step_meaning (symbols : SymbolSource) (pool : Pool α) (i : Nat) :
    (pool.step symbols i).structures.meaning symbols = pool.structures.meaning symbols := by
  obtain h | ⟨before, q, after, -, h⟩ := pool.step_cases symbols i
  · rw [h]
  · rw [h]
    exact q.move_meaning symbols pool.structures

theorem step_answers (symbols : SymbolSource) (pool : Pool α) (i : Nat) :
    (pool.step symbols i).answers (pool.structures.meaning symbols) =
      pool.answers (pool.structures.meaning symbols) := by
  obtain h | ⟨before, q, after, hp, h⟩ := pool.step_cases symbols i
  · rw [h]
  · unfold answers
    rw [h, hp]
    simp only [List.map_append, List.map_cons, q.move_eval symbols pool.structures]

/-- **No turn changes what a name stands for in the end.** -/
theorem eventual_step (symbols : SymbolSource) (pool : Pool α) (i : Nat) :
    (pool.step symbols i).eventual symbols = pool.eventual symbols := by
  obtain h | ⟨before, q, after, hp, h⟩ := pool.step_cases symbols i
  · rw [h]
  · funext name
    unfold eventual
    rw [pool.step_meaning symbols i, h, hp]
    simp only [List.any_append, List.any_cons]
    rw [q.find?_move symbols pool.structures name, q.asked_move symbols pool.structures name,
      Option.or_assoc]
    congr 1
    cases q.asks name with
    | false => simp
    | true => cases symbols.lookup name <;> simp [Except.toOption]

theorem remaining_step (symbols : SymbolSource) {pool : Pool α} {i : Nat} {q : Query α}
    (hi : pool.pending[i]? = some q) (hq : q.isAnswer = false) :
    (pool.step symbols i).remaining (pool.structures.meaning symbols) + 1 =
      pool.remaining (pool.structures.meaning symbols) := by
  have hm := Query.moves_move symbols hq pool.structures
  obtain ⟨before, after, hp, h⟩ := step_of_get symbols hi
  unfold remaining
  rw [h, hp]
  simp only [movesOf_append, movesOf]
  omega

/-! ## Schedules -/

theorem run_answers (symbols : SymbolSource) (schedule : List Nat) (pool : Pool α) :
    (pool.run symbols schedule).answers (pool.structures.meaning symbols) =
      pool.answers (pool.structures.meaning symbols) := by
  induction schedule generalizing pool with
  | nil => rfl
  | cons i rest ih =>
    have h := ih (pool.step symbols i)
    rw [pool.step_meaning symbols i, pool.step_answers symbols i] at h
    exact h

theorem run_eventual (symbols : SymbolSource) (schedule : List Nat) (pool : Pool α) :
    (pool.run symbols schedule).eventual symbols = pool.eventual symbols := by
  induction schedule generalizing pool with
  | nil => rfl
  | cons i rest ih => exact (ih _).trans (pool.eventual_step symbols i)

/-- **An answer is decided by the first set**, whatever turns were taken before it. -/
theorem run_answer {symbols : SymbolSource} {schedule : List Nat} {pool : Pool α} {i : Nat}
    {value : α} (h : (pool.run symbols schedule).pending[i]? = some (.answer value)) :
    (pool.answers (pool.structures.meaning symbols))[i]? = some value := by
  rw [← pool.run_answers symbols schedule]
  unfold answers
  rw [List.getElem?_map, h]
  rfl

theorem find?_of_finished {symbols : SymbolSource} {pool : Pool α} (h : pool.Finished)
    (name : String) : pool.structures.find? name = pool.eventual symbols name := by
  unfold eventual
  rw [if_neg, Option.or_none]
  intro hany
  obtain ⟨q, hq, hasked⟩ := List.any_eq_true.1 hany
  have hanswer := h q hq
  cases q with
  | answer value => cases hasked
  | note record next => cases hanswer
  | discover name next => cases hanswer

/-- **The rest can always be finished.** -/
theorem exists_finish (symbols : SymbolSource) (pool : Pool α) :
    ∃ schedule, (pool.run symbols schedule).Finished := by
  -- the moves that are left decrease at every turn of a computation without answer
  induction hn : pool.remaining (pool.structures.meaning symbols) using Nat.strongRecOn
    generalizing pool with
  | _ n ih =>
    by_cases hf : pool.Finished
    · exact ⟨[], hf⟩
    · obtain ⟨q, hq, hne⟩ : ∃ q ∈ pool.pending, q.isAnswer = false := by
        simpa [Finished] using hf
      obtain ⟨i, hlt, hi⟩ := List.mem_iff_getElem.1 hq
      have hi' : pool.pending[i]? = some q := List.getElem?_eq_some_iff.2 ⟨hlt, hi⟩
      have hstep := remaining_step symbols hi' hne
      obtain ⟨rest, hrest⟩ := ih _ (by rw [pool.step_meaning symbols i]; omega)
        (pool.step symbols i) rfl
      exact ⟨i :: rest, hrest⟩

end Pool

/-! ## Generation requests -/

/-- Requests, each for an entry on a dialect, before their first move. -/
def Program.pool (p : Program) (depth : Nat) (options : Options)
    (requests : List (String × Dialect)) : Pool (Except GenerationError Shader) :=
  ⟨p.structures, requests.map fun r => shaderQuery r.2 p.toCode depth r.1 options⟩

theorem Program.pool_answers (p : Program) (symbols : SymbolSource) (depth : Nat)
    (options : Options) (requests : List (String × Dialect)) :
    (p.pool depth options requests).answers (p.structures.meaning symbols) =
      requests.map fun r => (p.generateFrom symbols depth r.2 r.1 options).result := by
  unfold Pool.answers Program.pool
  rw [List.map_map]
  refine List.map_congr_left fun r _ => ?_
  rw [Program.generateFrom_result_eq_eval]
  rfl

/-- A request leaves the code and the meanings of all names as they were. -/
theorem Program.generate_meaning (p : Program) (symbols : Symbols) (d : Dialect) (entry : String)
    (options : Options) :
    (p.generate symbols d entry options).program.toCode = p.toCode ∧
      (p.generate symbols d entry options).program.structures.meaning symbols =
        p.structures.meaning symbols :=
  ⟨rfl, Query.run_meaning symbols.source _ p.structures⟩

/-- The result of a request is decided by the code and the meanings of all names. -/
theorem Program.generate_result_congr {p q : Program} {symbols : Symbols}
    (hc : q.toCode = p.toCode)
    (hm : q.structures.meaning symbols = p.structures.meaning symbols) (d : Dialect)
    (entry : String) (options : Options) :
    (q.generate symbols d entry options).result = (p.generate symbols d entry options).result := by
  -- the two bounds may differ, so both are replaced by a common one
  have hp := p.generateFrom_result symbols (Nat.le_max_left _ (q.nestingBound symbols)) d entry options
  have hq := q.generateFrom_result symbols (Nat.le_max_right (p.nestingBound symbols) _) d entry options
  rw [← hp, ← hq, generateFrom_result_eq_eval, generateFrom_result_eq_eval, hc, hm]

/-- Requests run one after the other have the results that each of them has alone. -/
theorem Program.generateBatch_results (symbols : Symbols) (options : Options)
    (items : List BatchItem) : ∀ p : Program,
      (p.generateBatch symbols options items).results =
        items.map fun item => (p.generate symbols item.target.dialect item.entry options).result := by
  induction items with
  | nil => intro p; rfl
  | cons item rest ih =>
    intro p
    obtain ⟨hc, hm⟩ := p.generate_meaning symbols item.target.dialect item.entry options
    simp only [Program.generateBatch, List.map_cons, ih]
    refine congrArg (List.cons _) (List.map_congr_left fun other _ => ?_)
    exact generate_result_congr hc hm _ _ _

/-- **Requests that run at the same time do not notice each other.**  Whatever turns they take on the
shared structure set, a request that has an answer has the one that it gets alone on the first set;
all of them can get one; and once all have one, every name is registered as under any other schedule.
Requests in a batch have the results that each of them has alone. -/
theorem generation_schedule_independent (p : Program) (symbols : SymbolSource) (depth : Nat)
    (options : Options) (requests : List (String × Dialect)) :
    (∀ (schedule : List Nat) (i : Nat) (entry : String) (d : Dialect)
        (result : Except GenerationError Shader),
      requests[i]? = some (entry, d) →
      ((p.pool depth options requests).run symbols schedule).pending[i]? = some (.answer result) →
      result = (p.generateFrom symbols depth d entry options).result) ∧
    (∀ schedule, ∃ rest,
      ((p.pool depth options requests).run symbols (schedule ++ rest)).Finished) ∧
    (∀ schedule schedule',
      ((p.pool depth options requests).run symbols schedule).Finished →
      ((p.pool depth options requests).run symbols schedule').Finished →
      ∀ name, ((p.pool depth options requests).run symbols schedule).structures.find? name =
        ((p.pool depth options requests).run symbols schedule').structures.find? name) ∧
    (∀ (table : Symbols) (items : List BatchItem),
      (p.generateBatch table options items).results =
        items.map fun item => (p.generate table item.target.dialect item.entry options).result) := by
  refine ⟨?_, ?_, ?_, fun table items => p.generateBatch_results table options items⟩
  · intro schedule i entry d result hi hanswer
    have h := Pool.run_answer hanswer
    rw [show (p.pool depth options requests).structures = p.structures from rfl,
      p.pool_answers symbols, List.getElem?_map, hi] at h
    exact (Option.some.inj h).symm
  · intro schedule
    obtain ⟨rest, hrest⟩ :=
      Pool.exists_finish symbols ((p.pool depth options requests).run symbols schedule)
    refine ⟨rest, ?_⟩
    unfold Pool.run at hrest ⊢
    rw [List.foldl_append]
    exact hrest
  · intro schedule schedule' h h' name
    rw [Pool.find?_of_finished h name, Pool.find?_of_finished h' name, Pool.run_eventual symbols,
      Pool.run_eventual symbols]

end CrossShader

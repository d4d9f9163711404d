import CrossShader.Proofs.Registration
import Mathlib.Logic.Function.Basic

/-!
# Callers that insert at the same time

Any number of callers insert into one structure set, each in steps that are atomic by themselves.  A call
for the entry of a key first reads, and only if the key is free goes on to a writing step, which looks
again; anything can happen between the two.

* `Insertion` — a call; `Insertion.run` — the call alone, without interruption.
* `Caller.move` — one atomic step of a call.  `Caller.OnWay.move_cases` — the last step of a call does
  what the whole call would do alone at that moment.
* `Race`, `Race.step`, `Race.run` — callers in progress, one turn, and a schedule of turns.
* `Race.Linearized` — what every turn keeps: the state is that of the finished calls run alone, one after
  the other, in the order in which they finished.
* `Race.Recorded` — what the set holds: one entry for each key, which every successful call returns.
* `insertion_linearizable` — all of this for every schedule.
-/

set_option autoImplicit false

namespace CrossShader

/-- What callers share: the set, and whatever their producers read and change. -/
structure Shared (ω : Type) where
  structures : StructureSet
  world : ω

/-- A call on a shared set. -/
inductive Insertion (ω ε : Type) where
  /-- Register a structure under its own name. -/
  | insert (value : Structure)
  /-- The entry of a key; if the key is free, a producer makes it. -/
  | getOrInsert (key : String) (produce : ω → Except ε Structure × ω)

/-- What a call returns: a definition, that the name is taken, or the failure of the producer. -/
abbrev Reply (ε : Type) := Except (RosterError ⊕ ε) Structure

namespace Insertion

variable {ω ε : Type}

/-- The key that a call is about. -/
def key : Insertion ω ε → String
  | insert value => value.name
  | getOrInsert key _ => key

/-- A structure that a call may store: its argument, or what its producer can make. -/
def Offers : Insertion ω ε → Structure → Prop
  | insert value, offered => offered = value
  | getOrInsert _ produce, offered => ∃ w w', produce w = (.ok offered, w')

/-- The call alone, without interruption.  The producer runs only if the key is free. -/
def run : Insertion ω ε → Shared ω → Reply ε × Shared ω
  | insert value, s =>
    match s.structures.insert value with
    | .ok structures => (.ok value, { s with structures })
    | .error e => (.error (.inl e), s)
  | getOrInsert key produce, s =>
    let found := s.structures.getOrInsert key (produce s.world).1
    let world := if s.structures.contains key then s.world else (produce s.world).2
    (found.1.mapError .inr, ⟨found.2, world⟩)

/-- Calls run alone, one after the other: their replies, and the state after them. -/
def runAll {ι : Type} (calls : ι → Insertion ω ε) :
    List ι → Shared ω → List (Reply ε) × Shared ω
  | [], s => ([], s)
  | i :: rest, s =>
    let first := (calls i).run s
    let others := runAll calls rest first.2
    (first.1 :: others.1, others.2)

theorem runAll_concat {ι : Type} (calls : ι → Insertion ω ε) (order : List ι) (i : ι)
    (s : Shared ω) :
    runAll calls (order ++ [i]) s =
      ((runAll calls order s).1 ++ [((calls i).run (runAll calls order s).2).1],
        ((calls i).run (runAll calls order s).2).2) := by
  induction order generalizing s with
  | nil => rfl
  | cons j rest ih =>
    simp only [List.cons_append, runAll, ih]

/-! ## A call alone -/

/-- For a taken key, a call changes nothing and returns the entry or refuses. -/
theorem run_of_taken {call : Insertion ω ε} {s : Shared ω} {found : Structure}
    (h : s.structures.find? call.key = some found) :
    (call.run s).2 = s ∧ ((call.run s).1 = .ok found ∨ ∃ e, (call.run s).1 = .error e) := by
  cases call with
  | insert value =>
    have hrun : (insert value : Insertion ω ε).run s =
        (.error (.inl (.duplicateName value.name)), s) := by
      simp [run, StructureSet.insert, StructureSet.contains, show s.structures.find? value.name =
        some found from h]
    rw [hrun]
    exact ⟨rfl, .inr ⟨_, rfl⟩⟩
  | getOrInsert key produce =>
    have hrun : (getOrInsert key produce : Insertion ω ε).run s = (.ok found, s) := by
      simp [run, StructureSet.getOrInsert, StructureSet.contains, Except.mapError,
        show s.structures.find? key = some found from h]
    rw [hrun]
    exact ⟨rfl, .inl rfl⟩

/-- For a free key, a call fails and leaves the set, or stores one structure that it offers and returns
it. -/
theorem run_of_free {call : Insertion ω ε} {s : Shared ω}
    (h : s.structures.find? call.key = none) :
    (∃ e w, call.run s = (.error e, ⟨s.structures, w⟩)) ∨
      ∃ value w, call.Offers value ∧
        call.run s = (.ok value, ⟨s.structures.push call.key value, w⟩) := by
  cases call with
  | insert value =>
    refine .inr ⟨value, s.world, rfl, ?_⟩
    simp [run, StructureSet.insert, StructureSet.contains, key,
      show s.structures.find? value.name = none from h]
  | getOrInsert key produce =>
    have hfree : s.structures.find? key = none := h
    cases hmade : produce s.world with
    | mk made world =>
      cases made with
      | error e =>
        refine .inl ⟨.inr e, world, ?_⟩
        simp [run, StructureSet.getOrInsert, StructureSet.contains, Except.mapError, hfree, hmade]
      | ok value =>
        refine .inr ⟨value, world, ⟨s.world, world, hmade⟩, ?_⟩
        simp [run, StructureSet.getOrInsert, StructureSet.contains, Except.mapError, hfree, hmade,
          Insertion.key]

/-- A successful call leaves its reply as the entry of its key. -/
theorem find?_of_run_ok {call : Insertion ω ε} {s : Shared ω} {value : Structure}
    (h : (call.run s).1 = .ok value) : (call.run s).2.structures.find? call.key = some value := by
  cases hfind : s.structures.find? call.key with
  | some found =>
    obtain ⟨hstate, hreply | ⟨e, hreply⟩⟩ := run_of_taken hfind
    · rw [hreply] at h
      cases h
      rw [hstate]
      exact hfind
    · rw [hreply] at h
      cases h
  | none =>
    obtain ⟨e, w, hrun⟩ | ⟨made, w, -, hrun⟩ := run_of_free hfind
    · rw [hrun] at h
      cases h
    · rw [hrun] at h ⊢
      cases h
      show (s.structures.push call.key value).find? call.key = _
      rw [StructureSet.find?_push, hfind, if_pos rfl]
      rfl

/-- A call that fails leaves the set as it was. -/
theorem structures_of_run_error {call : Insertion ω ε} {s : Shared ω} {e : RosterError ⊕ ε}
    (h : (call.run s).1 = .error e) : (call.run s).2.structures = s.structures := by
  cases hfind : s.structures.find? call.key with
  | some found => rw [(run_of_taken hfind).1]
  | none =>
    obtain ⟨e, w, hrun⟩ | ⟨made, w, -, hrun⟩ := run_of_free hfind
    · rw [hrun]
    · rw [hrun] at h
      cases h

/-- **A call appends at most one entry**, under its own key and only if that is free; it offered the
structure and returns it. -/
theorem run_appends (call : Insertion ω ε) (s : Shared ω) :
    ∃ new, (call.run s).2.structures.entries = s.structures.entries ++ new ∧
      (new = [] ∨ ∃ value, new = [(call.key, value)] ∧ s.structures.find? call.key = none ∧
        call.Offers value ∧ (call.run s).1 = .ok value) := by
  cases hfind : s.structures.find? call.key with
  | some found => exact ⟨[], by rw [(run_of_taken hfind).1, List.append_nil], .inl rfl⟩
  | none =>
    obtain ⟨e, w, hrun⟩ | ⟨value, w, hoffers, hrun⟩ := run_of_free hfind
    · exact ⟨[], by rw [hrun, List.append_nil], .inl rfl⟩
    · refine ⟨[(call.key, value)], by rw [hrun]; rfl, .inr ⟨value, rfl, rfl, hoffers, ?_⟩⟩
      rw [hrun]

end Insertion

/-- A call in progress. -/
inductive Caller (ω ε : Type) where
  /-- Before the first step. -/
  | ready (call : Insertion ω ε)
  /-- The reading step found no entry, and the writing step is next. -/
  | missed (call : Insertion ω ε)
  /-- After the last step. -/
  | done (reply : Reply ε)

namespace Caller

variable {ω ε : Type}

/-- Whether the reply is there. -/
def isDone : Caller ω ε → Bool
  | done _ => true
  | ready _ | missed _ => false

/-- One atomic step.  An insertion is a single writing step.  A call for the entry of a key reads under
the readers' lock, and returns if there is an entry; otherwise it takes the writers' lock, where it looks
again, runs the producer and stores what that makes. -/
def move : Caller ω ε → Shared ω → Caller ω ε × Shared ω
  | ready (.insert value), s =>
    let stored := (Insertion.insert value : Insertion ω ε).run s
    (done stored.1, stored.2)
  | ready (.getOrInsert key produce), s =>
    match s.structures.find? key with
    | some found => (done (.ok found), s)
    | none => (missed (.getOrInsert key produce), s)
  | missed call, s => (done (call.run s).1, (call.run s).2)
  | done reply, s => (done reply, s)

/-- A caller that is on its way through a call. -/
def OnWay (call : Insertion ω ε) (c : Caller ω ε) : Prop := c = ready call ∨ c = missed call

theorem OnWay.isDone {call : Insertion ω ε} {c : Caller ω ε} (h : c.OnWay call) :
    c.isDone = false := by
  obtain rfl | rfl := h <;> rfl

/-- **The last step of a call does what the call would do alone**, and a step before it changes
nothing. -/
theorem OnWay.move_cases {call : Insertion ω ε} {c : Caller ω ε} (h : c.OnWay call) (s : Shared ω) :
    c = ready call ∧ c.move s = (missed call, s) ∨
      c.move s = (done (call.run s).1, (call.run s).2) := by
  obtain rfl | rfl := h
  · cases call with
    | insert value => exact .inr rfl
    | getOrInsert key produce =>
      cases hfind : s.structures.find? key with
      | none => exact .inl ⟨rfl, by simp [move, hfind]⟩
      | some found =>
        -- the entry that is read is the one that the writing step would find
        refine .inr ?_
        simp [move, Insertion.run, StructureSet.getOrInsert, StructureSet.contains, Except.mapError,
          hfind]
  · exact .inr rfl

end Caller

/-- Callers in progress on one set, and those that have finished, in the order of their last steps. -/
structure Race (ι ω ε : Type) where
  shared : Shared ω
  callers : ι → Caller ω ε
  finished : List ι

namespace Race

variable {ι ω ε : Type}

/-- All callers before their first step. -/
def start (shared : Shared ω) (calls : ι → Insertion ω ε) : Race ι ω ε :=
  ⟨shared, fun i => .ready (calls i), []⟩

section Turns

variable [DecidableEq ι]

/-- A turn: one caller takes one step; a caller that has finished stays. -/
def step (r : Race ι ω ε) (i : ι) : Race ι ω ε :=
  if (r.callers i).isDone then r
  else
    let after := (r.callers i).move r.shared
    ⟨after.2, Function.update r.callers i after.1,
      if after.1.isDone then r.finished ++ [i] else r.finished⟩

/-- The turns of a schedule. -/
def run (schedule : List ι) (r : Race ι ω ε) : Race ι ω ε := schedule.foldl step r

theorem run_append (first second : List ι) (r : Race ι ω ε) :
    r.run (first ++ second) = (r.run first).run second :=
  List.foldl_append

end Turns

/-! ## One turn -/

/-- What every turn keeps: callers that have not finished are on their way through their calls, and the
finished calls, run alone one after the other, lead to the present state and to the same replies. -/
structure Linearized (calls : ι → Insertion ω ε) (first : Shared ω) (r : Race ι ω ε) : Prop where
  onWay : ∀ i, i ∉ r.finished → (r.callers i).OnWay (calls i)
  nodup : r.finished.Nodup
  replay : ∃ replies : ι → Reply ε, (∀ i ∈ r.finished, r.callers i = .done (replies i)) ∧
    Insertion.runAll calls r.finished first = (r.finished.map replies, r.shared)

variable {calls : ι → Insertion ω ε} {first : Shared ω} {r : Race ι ω ε}

theorem Linearized.isDone_iff (h : r.Linearized calls first) (i : ι) :
    (r.callers i).isDone = true ↔ i ∈ r.finished := by
  constructor
  · intro hdone
    by_contra hi
    rw [(h.onWay i hi).isDone] at hdone
    cases hdone
  · intro hi
    obtain ⟨replies, hreplies, -⟩ := h.replay
    rw [hreplies i hi]
    rfl

theorem Linearized.start (first : Shared ω) (calls : ι → Insertion ω ε) :
    (Race.start first calls).Linearized calls first where
  onWay _ _ := .inl rfl
  nodup := List.nodup_nil
  replay := ⟨fun _ => .error (.inl .overflow), fun _ hi => (nomatch hi), rfl⟩

variable [DecidableEq ι]

/-- **What a turn does**: nothing, for a caller that has finished; a step that only notes a free key; or
the last step of a call, which does what the call does alone. -/
theorem Linearized.step_cases (h : r.Linearized calls first) (i : ι) :
    i ∈ r.finished ∧ r.step i = r ∨
      i ∉ r.finished ∧ r.callers i = .ready (calls i) ∧
        r.step i = { r with callers := Function.update r.callers i (.missed (calls i)) } ∨
      i ∉ r.finished ∧ r.step i =
        ⟨((calls i).run r.shared).2,
          Function.update r.callers i (.done ((calls i).run r.shared).1), r.finished ++ [i]⟩ := by
  by_cases hi : i ∈ r.finished
  · exact .inl ⟨hi, if_pos ((h.isDone_iff i).2 hi)⟩
  · have hway := h.onWay i hi
    unfold step
    rw [if_neg (by rw [hway.isDone]; decide)]
    obtain ⟨hready, hmove⟩ | hmove := hway.move_cases r.shared
    · refine .inr (.inl ⟨hi, hready, ?_⟩)
      simp only [hmove, Caller.isDone, Bool.false_eq_true, if_false]
    · refine .inr (.inr ⟨hi, ?_⟩)
      simp only [hmove, Caller.isDone, if_true]

/-- A caller in progress that takes a turn leaves the others where they are. -/
theorem callers_update_of_mem {i j : ι} {c : Caller ω ε} (hi : i ∉ r.finished)
    (hj : j ∈ r.finished) : Function.update r.callers i c j = r.callers j := by
  exact Function.update_of_ne (ne_of_mem_of_not_mem hj hi) _ _

/-- **Every turn keeps the state linearized.** -/
theorem Linearized.step (h : r.Linearized calls first) (i : ι) :
    (r.step i).Linearized calls first := by
  obtain ⟨replies, hreplies, hreplay⟩ := h.replay
  obtain ⟨-, heq⟩ | ⟨hi, -, heq⟩ | ⟨hi, heq⟩ := h.step_cases i
  · rw [heq]
    exact h
  · rw [heq]
    refine ⟨fun j hj => ?_, h.nodup, replies, fun j hj => ?_, hreplay⟩
    · by_cases hji : j = i
      · subst hji
        exact .inr (Function.update_self ..)
      · have hway := h.onWay j hj
        rwa [← Function.update_of_ne hji (.missed (calls i)) r.callers] at hway
    · rw [← hreplies j hj]
      exact callers_update_of_mem hi hj
  · rw [heq]
    refine ⟨fun j hj => ?_, ?_,
      Function.update replies i ((calls i).run r.shared).1, fun j hj => ?_, ?_⟩
    · have hne : j ≠ i := fun hji => hj (List.mem_append_right _ (by simp [hji]))
      have hway := h.onWay j fun hmem => hj (List.mem_append_left _ hmem)
      rwa [← Function.update_of_ne hne (.done ((calls i).run r.shared).1) r.callers] at hway
    · exact List.nodup_append.2 ⟨h.nodup, List.nodup_singleton i, fun a ha b hb => by
        rw [List.mem_singleton.1 hb]
        exact fun hai => hi (hai ▸ ha)⟩
    · by_cases hji : j = i
      · subst hji
        simp only [Function.update_self]
      · simp only [Function.update_of_ne hji]
        exact hreplies j ((List.mem_append.1 hj).resolve_right (by simpa using hji))
    · -- the new call comes last, and starts where the finished ones lead
      have hkeep : r.finished.map (Function.update replies i ((calls i).run r.shared).1) =
          r.finished.map replies :=
        List.map_congr_left fun j hj =>
          Function.update_of_ne (ne_of_mem_of_not_mem hj hi) _ _
      rw [Insertion.runAll_concat, hreplay, List.map_append, hkeep]
      simp

theorem Linearized.run (h : r.Linearized calls first) (schedule : List ι) :
    (r.run schedule).Linearized calls first := by
  induction schedule generalizing r with
  | nil => exact h
  | cons i rest ih => exact ih (h.step i)

/-- A turn in which a call fails leaves the set as it was. -/
theorem Linearized.structures_of_error (h : r.Linearized calls first) {i : ι}
    {e : RosterError ⊕ ε} (he : (r.step i).callers i = .done (.error e)) :
    (r.step i).shared.structures = r.shared.structures := by
  obtain ⟨-, heq⟩ | ⟨-, -, heq⟩ | ⟨-, heq⟩ := h.step_cases i
  · rw [heq]
  · rw [heq]
  · rw [heq] at he ⊢
    dsimp only at he ⊢
    rw [Function.update_self] at he
    exact Insertion.structures_of_run_error (Caller.done.inj he)

/-- Two turns in a row finish a call. -/
theorem Linearized.finishes (h : r.Linearized calls first) (i : ι) :
    ∃ reply, ((r.step i).step i).callers i = .done reply := by
  have hlast : ∀ {q : Race ι ω ε}, q.Linearized calls first → q.callers i ≠ .ready (calls i) →
      ∃ reply, (q.step i).callers i = .done reply := by
    intro q hq hne
    obtain ⟨hi, heq⟩ | ⟨-, hready, -⟩ | ⟨-, heq⟩ := hq.step_cases i
    · obtain ⟨replies, hreplies, -⟩ := hq.replay
      exact ⟨replies i, by rw [heq]; exact hreplies i hi⟩
    · exact absurd hready hne
    · exact ⟨_, by rw [heq]; exact Function.update_self ..⟩
  refine hlast (h.step i) ?_
  obtain ⟨hi, heq⟩ | ⟨-, -, heq⟩ | ⟨-, heq⟩ := h.step_cases i
  · obtain ⟨replies, hreplies, -⟩ := h.replay
    rw [heq, hreplies i hi]
    nofun
  · rw [heq]
    simp
  · rw [heq]
    simp

/-! ## What the set holds -/

/-- The set after some turns: behind the first entries stands one entry for each new key, stored and
returned by a call that offered it; and every successful call has returned the entry of its key. -/
structure Recorded (calls : ι → Insertion ω ε) (first : Shared ω) (r : Race ι ω ε) : Prop where
  stored : ∃ new, r.shared.structures.entries = first.structures.entries ++ new ∧
    (new.map Prod.fst).Nodup ∧
    ∀ entry ∈ new, first.structures.find? entry.1 = none ∧
      ∃ i, (calls i).key = entry.1 ∧ (calls i).Offers entry.2 ∧ r.callers i = .done (.ok entry.2)
  returned : ∀ i value, r.callers i = .done (.ok value) →
    r.shared.structures.find? (calls i).key = some value

omit [DecidableEq ι] in
theorem Recorded.start (first : Shared ω) (calls : ι → Insertion ω ε) :
    (Race.start first calls).Recorded calls first where
  stored := ⟨[], (List.append_nil _).symm, List.nodup_nil, fun _ h => (nomatch h)⟩
  returned _ _ h := nomatch h

/-- A turn only appends entries, and only callers that finish in it are added to the finished ones. -/
theorem Linearized.step_appends (h : r.Linearized calls first) (i : ι) :
    (∃ new, (r.step i).shared.structures.entries = r.shared.structures.entries ++ new) ∧
      ∃ later, (r.step i).finished = r.finished ++ later := by
  obtain ⟨-, heq⟩ | ⟨-, -, heq⟩ | ⟨-, heq⟩ := h.step_cases i
  · rw [heq]
    exact ⟨⟨[], (List.append_nil _).symm⟩, [], (List.append_nil _).symm⟩
  · rw [heq]
    exact ⟨⟨[], (List.append_nil _).symm⟩, [], (List.append_nil _).symm⟩
  · obtain ⟨new, hnew, -⟩ := (calls i).run_appends r.shared
    rw [heq]
    exact ⟨⟨new, hnew⟩, [i], rfl⟩

theorem Linearized.run_appends (h : r.Linearized calls first) (schedule : List ι) :
    (∃ new, (r.run schedule).shared.structures.entries = r.shared.structures.entries ++ new) ∧
      ∃ later, (r.run schedule).finished = r.finished ++ later := by
  induction schedule generalizing r with
  | nil => exact ⟨⟨[], (List.append_nil _).symm⟩, [], (List.append_nil _).symm⟩
  | cons i rest ih =>
    obtain ⟨⟨new, hnew⟩, later, hlater⟩ := h.step_appends i
    obtain ⟨⟨new', hnew'⟩, later', hlater'⟩ := ih (h.step i)
    refine ⟨⟨new ++ new', ?_⟩, later ++ later', ?_⟩
    · rw [← List.append_assoc, ← hnew]
      exact hnew'
    · rw [← List.append_assoc, ← hlater]
      exact hlater'

theorem find?_of_appends {s s' : StructureSet} {new : List (String × Structure)}
    (h : s'.entries = s.entries ++ new) {key : String} {value : Structure}
    (hfind : s.find? key = some value) : s'.find? key = some value := by
  unfold StructureSet.find? at hfind ⊢
  rw [h, List.lookup_append, hfind]
  rfl

/-- **Every turn keeps what the set holds.** -/
theorem Recorded.step (hr : r.Recorded calls first) (h : r.Linearized calls first) (i : ι) :
    (r.step i).Recorded calls first := by
  obtain ⟨new, hentries, hnodup, hnew⟩ := hr.stored
  obtain ⟨-, heq⟩ | ⟨hi, hready, heq⟩ | ⟨hi, heq⟩ := h.step_cases i
  · rw [heq]
    exact hr
  · -- a caller that only reads was not done before, and is not done now
    have hkeep : ∀ j value, Function.update r.callers i (.missed (calls i)) j = .done (.ok value) ↔
        r.callers j = .done (.ok value) := by
      intro j value
      by_cases hji : j = i
      · subst hji
        rw [Function.update_self, hready]
        simp
      · rw [Function.update_of_ne hji]
    rw [heq]
    refine ⟨⟨new, hentries, hnodup, fun entry hentry => ?_⟩, fun j value hj => ?_⟩
    · obtain ⟨hfree, j, hkey, hoffers, hj⟩ := hnew entry hentry
      exact ⟨hfree, j, hkey, hoffers, (hkeep j _).2 hj⟩
    · exact hr.returned j value ((hkeep j value).1 hj)
  · have hother : ∀ j value, r.callers j = .done (.ok value) →
        Function.update r.callers i (.done ((calls i).run r.shared).1) j = .done (.ok value) := by
      intro j value hj
      have hmem : j ∈ r.finished := (h.isDone_iff j).1 (by rw [hj]; rfl)
      rw [callers_update_of_mem hi hmem, hj]
    obtain ⟨added, hadded, hcases⟩ := (calls i).run_appends r.shared
    rw [heq]
    refine ⟨⟨new ++ added, ?_, ?_, ?_⟩, fun j value hj => ?_⟩
    · rw [hadded, hentries, List.append_assoc]
    · obtain rfl | ⟨value, rfl, hfree, -⟩ := hcases
      · rwa [List.append_nil]
      · rw [List.map_append]
        refine hnodup.append (List.nodup_singleton _) fun key hkey hkey' => ?_
        obtain rfl := List.mem_singleton.1 hkey'
        obtain ⟨entry, hentry, hname⟩ := List.mem_map.1 hkey
        refine ((StructureSet.find?_of_entries hentries).1 hfree).2 entry.2 ?_
        rw [show ((calls i).key, entry.2) = entry from Prod.ext hname.symm rfl]
        exact hentry
    · intro entry hentry
      obtain hentry | hentry := List.mem_append.1 hentry
      · obtain ⟨hfree, j, hkey, hoffers, hj⟩ := hnew entry hentry
        exact ⟨hfree, j, hkey, hoffers, hother j _ hj⟩
      · obtain rfl | ⟨value, rfl, hfree, hoffers, hreply⟩ := hcases
        · cases hentry
        · obtain rfl := List.mem_singleton.1 hentry
          refine ⟨((StructureSet.find?_of_entries hentries).1 hfree).1, i, rfl, hoffers, ?_⟩
          dsimp only
          rw [Function.update_self, hreply]
    · by_cases hji : j = i
      · subst hji
        dsimp only at hj
        rw [Function.update_self] at hj
        exact Insertion.find?_of_run_ok (Caller.done.inj hj)
      · dsimp only at hj
        rw [Function.update_of_ne hji] at hj
        exact find?_of_appends hadded (hr.returned j value hj)

theorem Recorded.run (hr : r.Recorded calls first) (h : r.Linearized calls first)
    (schedule : List ι) : (r.run schedule).Recorded calls first := by
  induction schedule generalizing r with
  | nil => exact hr
  | cons i rest ih => exact ih (hr.step h i) (h.step i)

end Race

/-- **Insertion is linearizable.**  Whatever callers there are, whatever their producers do and in
whatever order they take their steps: entries are only ever appended; for every new key there is one
entry, which some call for the key offered, stored and returned; all successful calls for a key return
the same definition, its entry; a call that fails leaves the set as it was; the state and the replies are
those of the finished calls run alone one after the other, in the order in which they finished, where
calls that have finished stay before those that finish later; and two turns always finish a call. -/
theorem insertion_linearizable {ι ω ε : Type} [DecidableEq ι] (first : Shared ω)
    (calls : ι → Insertion ω ε) :
    let after := fun schedule => (Race.start first calls).run schedule
    (∀ schedule more, ∃ new later,
      (after (schedule ++ more)).shared.structures.entries =
        (after schedule).shared.structures.entries ++ new ∧
      (after (schedule ++ more)).finished = (after schedule).finished ++ later) ∧
    (∀ schedule, ∃ new,
      (after schedule).shared.structures.entries = first.structures.entries ++ new ∧
      (new.map Prod.fst).Nodup ∧
      ∀ entry ∈ new, first.structures.find? entry.1 = none ∧
        ∃ i, (calls i).key = entry.1 ∧ (calls i).Offers entry.2 ∧
          (after schedule).callers i = .done (.ok entry.2)) ∧
    (∀ schedule i j a b, (calls i).key = (calls j).key →
      (after schedule).callers i = .done (.ok a) → (after schedule).callers j = .done (.ok b) →
      a = b ∧ (after schedule).shared.structures.find? (calls i).key = some a) ∧
    (∀ schedule i e, (after (schedule ++ [i])).callers i = .done (.error e) →
      (after (schedule ++ [i])).shared.structures = (after schedule).shared.structures) ∧
    (∀ schedule,
      (after schedule).finished.Nodup ∧
      (∀ i, i ∈ (after schedule).finished ↔ ∃ reply, (after schedule).callers i = .done reply) ∧
      ∃ replies : ι → Reply ε,
        (∀ i ∈ (after schedule).finished, (after schedule).callers i = .done (replies i)) ∧
        Insertion.runAll calls (after schedule).finished first =
          ((after schedule).finished.map replies, (after schedule).shared)) ∧
    ∀ schedule i, ∃ reply, (after (schedule ++ [i, i])).callers i = .done reply := by
  intro after
  have hline : ∀ schedule, (after schedule).Linearized calls first :=
    (Race.Linearized.start first calls).run
  have hrecord : ∀ schedule, (after schedule).Recorded calls first :=
    (Race.Recorded.start first calls).run (Race.Linearized.start first calls)
  have hsplit : ∀ schedule more, after (schedule ++ more) = (after schedule).run more :=
    fun schedule more => Race.run_append schedule more _
  refine ⟨fun schedule more => ?_, fun schedule => (hrecord schedule).stored, ?_, ?_,
    fun schedule => ⟨(hline schedule).nodup, fun i => ?_, (hline schedule).replay⟩, ?_⟩
  · obtain ⟨⟨new, hnew⟩, later, hlater⟩ := (hline schedule).run_appends more
    exact ⟨new, later, by rw [hsplit]; exact hnew, by rw [hsplit]; exact hlater⟩
  · intro schedule i j a b hkey hi hj
    have ha := (hrecord schedule).returned i a hi
    have hb := (hrecord schedule).returned j b hj
    rw [← hkey, ha] at hb
    exact ⟨Option.some.inj hb, ha⟩
  · intro schedule i e he
    rw [hsplit] at he ⊢
    exact (hline schedule).structures_of_error he
  · rw [← (hline schedule).isDone_iff i]
    cases (after schedule).callers i <;> simp [Caller.isDone]
  · intro schedule i
    rw [hsplit]
    exact (hline schedule).finishes i

/-- Three callers that look for one key before any of them stores it: the producer of the second makes the
entry, and no other producer runs. -/
example :
    let light : Structure := ⟨"Light", []⟩
    let calls : Fin 3 → Insertion Nat String := fun i =>
      .getOrInsert "Light" fun made => (if i = 0 then .error "none" else .ok light, made + 1)
    let after := (Race.start ⟨.empty, 0⟩ calls).run [0, 1, 2, 1, 0, 2]
    after.shared.structures.entries = [("Light", light)] ∧ after.shared.world = 1 ∧
      after.finished = [1, 0, 2] := by
  decide

end CrossShader

import CrossShader.Resource
import Mathlib.Data.List.Nodup

/-!
# Rosters after any insertions

A roster shows its values by name, by handle and in order.  The three views agree after any insertions,
with refused ones among them.

* `Roster.attempt`, `Roster.attemptAll` — an insertion that may be refused, and a run of them.
* `Roster.insert_ok_iff` — when an insertion succeeds, and what it does then.
* `Roster.Consistent` — what every attempt keeps: no two values have one name, and every value has a
  handle.
* `Roster.toList_attemptAll` — a run appends the values that it accepts, with the handles that it returned.
* `roster_views_agree` — the views after every run.
-/

set_option autoImplicit false

namespace CrossShader

namespace Roster

variable {α : Type} [Named α]

/-- An insertion, whatever comes of it: the reply, and the roster after it.  A refused value leaves the
roster as it was. -/
def attempt (r : Roster α) (value : α) : Except RosterError (Handle α) × Roster α :=
  match r.insert value with
  | .ok (handle, after) => (.ok handle, after)
  | .error e => (.error e, r)

/-- Insertions one after the other: their replies, and the roster after them. -/
def attemptAll (r : Roster α) : List α → List (Except RosterError (Handle α)) × Roster α
  | [] => ([], r)
  | value :: rest =>
    let first := r.attempt value
    let others := first.2.attemptAll rest
    (first.1 :: others.1, others.2)

/-- The values that a run accepts, in order, each with the handle that its insertion returned. -/
def accepted (r : Roster α) (values : List α) : List (Handle α × α) :=
  ((r.attemptAll values).1.zip values).filterMap fun entry =>
    entry.1.toOption.map fun handle => (handle, entry.2)

/-! ## One attempt -/

theorem contains_iff {r : Roster α} {name : String} :
    r.contains name = true ↔ name ∈ r.items.map Named.name := by
  simp [contains]

/-- **What an insertion needs and does**: the name is free and there is room, and the value comes last. -/
theorem insert_ok_iff {r after : Roster α} {value : α} {handle : Handle α} :
    r.insert value = .ok (handle, after) ↔
      r.contains (Named.name value) = false ∧ r.length < capacity ∧
        handle = ⟨r.length⟩ ∧ after = ⟨r.items ++ [value]⟩ := by
  unfold insert
  cases h : r.contains (Named.name value) with
  | true => simp
  | false =>
    rcases Nat.lt_or_ge r.length capacity with hroom | hfull
    · simp [hroom, Nat.not_le_of_lt hroom, eq_comm]
    · simp [hfull, Nat.not_lt_of_le hfull]

/-- While there is room, only a taken name is refused. -/
theorem insert_error_iff {r : Roster α} (hroom : r.length < capacity) {value : α} {e : RosterError} :
    r.insert value = .error e ↔
      r.contains (Named.name value) = true ∧ e = .duplicateName (Named.name value) := by
  unfold insert
  cases h : r.contains (Named.name value) with
  | true => simp [eq_comm]
  | false => simp [Nat.not_le_of_lt hroom]

theorem attempt_of_ok {r after : Roster α} {value : α} {handle : Handle α}
    (h : r.insert value = .ok (handle, after)) : r.attempt value = (.ok handle, after) := by
  rw [attempt, h]

theorem attempt_of_error {r : Roster α} {value : α} {e : RosterError} (h : r.insert value = .error e) :
    r.attempt value = (.error e, r) := by
  rw [attempt, h]

/-- **An attempt** is refused and changes nothing, or is an insertion. -/
theorem attempt_cases (r : Roster α) (value : α) :
    (∃ e, r.attempt value = (.error e, r)) ∨
      ∃ handle after, r.insert value = .ok (handle, after) ∧ r.attempt value = (.ok handle, after) := by
  cases h : r.insert value with
  | error e => exact .inl ⟨e, attempt_of_error h⟩
  | ok added => exact .inr ⟨added.1, added.2, rfl, attempt_of_ok h⟩

/-- The handle of an accepted value denotes it. -/
theorem get?_of_insert {r after : Roster α} {value : α} {handle : Handle α}
    (h : r.insert value = .ok (handle, after)) : after.get? handle = some value := by
  obtain ⟨-, -, rfl, rfl⟩ := insert_ok_iff.1 h
  simp [get?, length]

/-! ## What every attempt keeps -/

/-- A roster whose values have different names. -/
def Distinct (r : Roster α) : Prop := (r.items.map Named.name).Nodup

theorem distinct_empty : (Roster.empty : Roster α).Distinct :=
  List.nodup_nil

/-- Additions keep names different. -/
theorem Distinct.insert {r r' : Roster α} {value : α} {handle : Handle α} (hr : r.Distinct)
    (h : r.insert value = .ok (handle, r')) : r'.Distinct := by
  obtain ⟨hfree, -, -, rfl⟩ := insert_ok_iff.1 h
  unfold Distinct
  rw [List.map_append]
  refine List.Nodup.append hr (List.nodup_singleton _) fun name hmem hnew => ?_
  rw [List.mem_singleton.1 hnew, ← contains_iff, hfree] at hmem
  cases hmem

/-- No two values have one name, and there is a handle for every value. -/
structure Consistent (r : Roster α) : Prop where
  distinct : r.Distinct
  bounded : r.length ≤ capacity

theorem Consistent.empty : (Roster.empty : Roster α).Consistent where
  distinct := distinct_empty
  bounded := Nat.zero_le _

theorem Consistent.insert {r r' : Roster α} {value : α} {handle : Handle α} (hr : r.Consistent)
    (h : r.insert value = .ok (handle, r')) : r'.Consistent := by
  refine ⟨hr.distinct.insert h, ?_⟩
  obtain ⟨-, hroom, -, rfl⟩ := insert_ok_iff.1 h
  simpa [length] using Nat.succ_le_of_lt hroom

theorem Consistent.attempt {r : Roster α} (h : r.Consistent) (value : α) :
    (r.attempt value).2.Consistent := by
  obtain ⟨_, heq⟩ | ⟨handle, after, hok, heq⟩ := r.attempt_cases value
  · rw [heq]
    exact h
  · rw [heq]
    exact h.insert hok

theorem Consistent.attemptAll {r : Roster α} (h : r.Consistent) (values : List α) :
    (r.attemptAll values).2.Consistent := by
  induction values generalizing r with
  | nil => exact h
  | cons value rest ih => exact ih (h.attempt value)

/-! ## Iteration -/

theorem toList_of_insert {r after : Roster α} {value : α} {handle : Handle α}
    (h : r.insert value = .ok (handle, after)) : after.toList = r.toList ++ [(handle, value)] := by
  obtain ⟨-, -, rfl, rfl⟩ := insert_ok_iff.1 h
  simp [toList, List.zipIdx_append, length]

/-- **A run appends what it accepts**: behind the values before it stand the accepted ones, in the order of
their insertion, each with the handle that its insertion returned. -/
theorem toList_attemptAll (r : Roster α) (values : List α) :
    (r.attemptAll values).2.toList = r.toList ++ r.accepted values := by
  induction values generalizing r with
  | nil => simp [attemptAll, accepted]
  | cons value rest ih =>
    have hrest := ih (r.attempt value).2
    obtain ⟨_, heq⟩ | ⟨handle, after, hok, heq⟩ := r.attempt_cases value
    · rw [heq] at hrest
      simpa [attemptAll, accepted, heq, Except.toOption] using hrest
    · rw [heq, toList_of_insert hok] at hrest
      simpa [attemptAll, accepted, heq, Except.toOption] using hrest

omit [Named α] in
/-- Iteration counts the handles from zero. -/
theorem index_toList (r : Roster α) : r.toList.map (·.1.index) = List.range r.length := by
  rw [toList, List.map_map, List.range_eq_range']
  exact List.zipIdx_map_snd 0 r.items

omit [Named α] in
theorem values_toList (r : Roster α) : r.toList.map Prod.snd = r.items := by
  rw [toList, List.map_map]
  exact List.zipIdx_map_fst 0 r.items

/-- A value keeps its handle whatever is inserted later. -/
theorem get?_attemptAll {r : Roster α} {handle : Handle α} {value : α} (h : r.get? handle = some value)
    (later : List α) : (r.attemptAll later).2.get? handle = some value := by
  induction later generalizing r with
  | nil => exact h
  | cons next rest ih =>
    refine ih ?_
    obtain ⟨_, heq⟩ | ⟨_, after, hok, heq⟩ := r.attempt_cases next
    · rw [heq]
      exact h
    · obtain ⟨-, -, -, rfl⟩ := insert_ok_iff.1 hok
      rw [heq]
      have hlt := (List.getElem?_eq_some_iff.1 h).1
      exact (List.getElem?_append_left hlt).trans h

/-! ## Names and handles -/

/-- A value is found under its own name and under no other. -/
theorem Consistent.find?_eq_some_iff {r : Roster α} (h : r.Consistent) {name : String} {value : α} :
    r.find? name = some value ↔ value ∈ r.items ∧ Named.name value = name := by
  constructor
  · intro hfind
    exact ⟨List.mem_of_find?_eq_some hfind, by simpa using List.find?_some hfind⟩
  · rintro ⟨hmem, rfl⟩
    obtain ⟨found, hfound⟩ : ∃ found, r.find? (Named.name value) = some found := by
      rw [← Option.isSome_iff_exists, find?, List.find?_isSome]
      exact ⟨value, hmem, beq_self_eq_true _⟩
    have hname : Named.name found = Named.name value := by simpa using List.find?_some hfound
    rw [hfound, List.inj_on_of_nodup_map h.distinct (List.mem_of_find?_eq_some hfound) hmem hname]

theorem isSome_handle? (r : Roster α) (name : String) :
    (r.handle? name).isSome = r.contains name := by
  rw [handle?, Option.isSome_map, contains, List.findIdx?_isSome]

/-- The handle of a name denotes the value of the name. -/
theorem get?_of_handle? {r : Roster α} {name : String} {handle : Handle α}
    (h : r.handle? name = some handle) :
    ∃ value, r.get? handle = some value ∧ r.find? name = some value := by
  obtain ⟨index, hindex, rfl⟩ := Option.map_eq_some_iff.1 h
  obtain ⟨hlt, hname, hbefore⟩ := List.findIdx?_eq_some_iff_getElem.1 hindex
  refine ⟨r.items[index], List.getElem?_eq_getElem hlt, ?_⟩
  refine List.find?_eq_some_iff_getElem.2 ⟨hname, index, hlt, rfl, fun earlier hearlier => ?_⟩
  simpa using hbefore earlier hearlier

end Roster

/-- **The views of a roster agree**, after any insertions into an empty one, accepted or refused.  Names
are distinct, and a name finds exactly the value that has it.  Iteration gives the accepted values in the
order of their insertion, with the handles that were returned for them; these count from zero, and are
32-bit numbers.  A name has a handle exactly if it is taken, and the handle denotes what the name finds.
A handle that an insertion returns denotes the inserted value after any later insertions.  Below the
capacity an insertion is refused exactly if its name is taken, and a refused one changes nothing. -/
theorem roster_views_agree {α : Type} [Named α] (values : List α) :
    let r := ((Roster.empty : Roster α).attemptAll values).2
    (r.items.map Named.name).Nodup ∧
    (∀ name value, r.find? name = some value ↔ value ∈ r.items ∧ Named.name value = name) ∧
    r.toList = Roster.empty.accepted values ∧ r.toList.map Prod.snd = r.items ∧
    r.toList.map (·.1.index) = List.range r.length ∧ r.length ≤ UInt32.size ∧
    (∀ name, (∃ handle, r.handle? name = some handle) ↔ r.contains name = true) ∧
    (∀ name handle, r.handle? name = some handle →
      ∃ value, r.get? handle = some value ∧ r.find? name = some value) ∧
    (∀ value handle after, r.insert value = .ok (handle, after) →
      ∀ later, (after.attemptAll later).2.get? handle = some value) ∧
    (r.length < UInt32.size → ∀ value e, r.insert value = .error e ↔
      r.contains (Named.name value) = true ∧ e = .duplicateName (Named.name value)) ∧
    ∀ value e, r.insert value = .error e → r.attempt value = (.error e, r) := by
  intro r
  have hr : r.Consistent := Roster.Consistent.empty.attemptAll values
  refine ⟨hr.distinct, fun _ _ => hr.find?_eq_some_iff, Roster.toList_attemptAll _ values, r.values_toList,
    r.index_toList, hr.bounded, fun name => ?_, fun _ _ => Roster.get?_of_handle?,
    fun _ _ _ hok => Roster.get?_attemptAll (Roster.get?_of_insert hok),
    fun hroom _ _ => Roster.insert_error_iff hroom, fun _ _ => Roster.attempt_of_error⟩
  rw [← Roster.isSome_handle?, Option.isSome_iff_exists]

/-- A sampler with any name. -/
def Resource.lens (name : String) : Resource := ⟨name, .sampler, 0, none⟩

/-- Two samplers, and a texture that is refused for its name. -/
def Roster.lenses : Roster Resource :=
  (Roster.empty.attemptAll [.lens "near", .lens "far", ⟨"near", .texture2D, 7, none⟩]).2

theorem roster_views_agree_lenses :
    (Roster.lenses.handle? "far" = some ⟨1⟩ ∧
      ∃ value, Roster.lenses.get? ⟨1⟩ = some value ∧ Roster.lenses.find? "far" = some value) ∧
    (∃ after, Roster.lenses.insert (.lens "wide") = .ok (⟨2⟩, after) ∧
      (after.attemptAll [.lens "near", .lens "thin"]).2.get? ⟨2⟩ = some (.lens "wide")) ∧
    (Roster.lenses.length < UInt32.size ∧
      Roster.lenses.insert (.lens "near") = .error (.duplicateName "near") ∧
      Roster.lenses.attempt (.lens "near") = (.error (.duplicateName "near"), Roster.lenses)) := by
  obtain ⟨-, -, -, -, -, -, -, hhandle, hkeeps, hrefused, hunchanged⟩ :=
    roster_views_agree [Resource.lens "near", .lens "far", ⟨"near", .texture2D, 7, none⟩]
  have hfar : Roster.lenses.handle? "far" = some ⟨1⟩ := by decide +kernel
  have hroom : Roster.lenses.length < UInt32.size := by decide +kernel
  have hwide : Roster.lenses.insert (.lens "wide") =
      .ok (⟨2⟩, ⟨Roster.lenses.items ++ [.lens "wide"]⟩) :=
    Roster.insert_ok_iff.2 ⟨by decide +kernel, hroom, rfl, rfl⟩
  have hnear : Roster.lenses.insert (.lens "near") = .error (.duplicateName "near") :=
    (hrefused hroom (.lens "near") _).2 ⟨by decide +kernel, rfl⟩
  exact ⟨⟨hfar, hhandle _ _ hfar⟩, ⟨_, hwide, hkeeps _ _ _ hwide _⟩, hroom, hnear, hunchanged _ _ hnear⟩

end CrossShader

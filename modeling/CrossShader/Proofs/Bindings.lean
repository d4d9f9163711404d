import CrossShader.Program
import CrossShader.Proofs.Roster

/-!
# Binding slots

A resource is added with a slot of its own choice, or else with the next slot, which is the number of
resources so far.  Nothing keeps the two kinds of slots apart.

* `Attachment` — a resource that is to be added; `Program.attach`, `Program.attachAll` — one addition, which
  may fail, and a sequence of them.
* `Program.attached` — the additions of a sequence that succeed.
* `Program.resources_attachAll` — a resource is bound to the slot of its choice, or to its position.
* `next_slot_in_use_iff` — so the next slot is in use exactly if a resource chose it, or the slots are used up.
* `next_slots_collide` — a slot ahead of the others is met by the next one.
-/

set_option autoImplicit false

namespace CrossShader

/-- A resource that is to be added, with a slot of its own choice or with the next one. -/
structure Attachment where
  name : String
  kind : ResourceKind
  valueType : Option TypeRef := none
  slot : Option Nat := none
  deriving DecidableEq, Repr

/-- The resource, where `next` is the next slot. -/
def Attachment.resource (a : Attachment) (next : Nat) : Resource :=
  ⟨a.name, a.kind, a.slot.getD next, a.valueType⟩

namespace Program

/-- Add a resource.  If this fails, the program stays as it was. -/
def attach (p : Program) (a : Attachment) : Program :=
  match p.addResource (a.resource p.nextBinding) with
  | .ok (_, after) => after
  | .error _ => p

/-- Add resources one after the other. -/
def attachAll (p : Program) : List Attachment → Program
  | [] => p
  | a :: rest => (p.attach a).attachAll rest

/-- The additions that succeed, in order. -/
def attached (p : Program) : List Attachment → List Attachment
  | [] => []
  | a :: rest =>
    if (p.addResource (a.resource p.nextBinding)).toBool then a :: (p.attach a).attached rest
    else (p.attach a).attached rest

/-- Whether a resource is bound to a slot. -/
def InUse (p : Program) (slot : Nat) : Prop := ∃ r ∈ p.resources.items, r.binding = slot

instance (p : Program) (slot : Nat) : Decidable (p.InUse slot) :=
  inferInstanceAs (Decidable (∃ r ∈ p.resources.items, r.binding = slot))

/-- **One addition** fails and changes nothing, or appends a resource, whose slot is its position unless it
chose another one. -/
theorem attach_cases (p : Program) (a : Attachment) :
    (p.addResource (a.resource p.nextBinding)).toBool = false ∧ p.attach a = p ∨
      (p.addResource (a.resource p.nextBinding)).toBool = true ∧
        ∃ handle resources, p.resources.insert (a.resource p.resources.length) = .ok (handle, resources) ∧
          p.attach a = { p with resources } := by
  unfold attach addResource
  cases hinsert : p.resources.insert (a.resource p.nextBinding) with
  | error e => exact .inl ⟨rfl, rfl⟩
  | ok added =>
    -- there is room, so the next slot has not started again
    obtain ⟨-, hroom, -⟩ := Roster.insert_ok_iff.1 hinsert
    have hnext : p.nextBinding = p.resources.length := Nat.mod_eq_of_lt hroom
    rw [hnext] at hinsert
    exact .inr ⟨rfl, added.1, added.2, hinsert, rfl⟩

theorem consistent_attachAll {p : Program} (h : p.resources.Consistent) (as : List Attachment) :
    (p.attachAll as).resources.Consistent := by
  induction as generalizing p with
  | nil => exact h
  | cons a rest ih =>
    refine ih ?_
    obtain ⟨-, heq⟩ | ⟨-, handle, resources, hok, heq⟩ := p.attach_cases a
    · rw [heq]
      exact h
    · rw [heq]
      exact h.insert hok

/-- **The slots of a sequence of additions**: every resource has the slot that it chose, or else the number
of resources before it. -/
theorem resources_attachAll (p : Program) (as : List Attachment) :
    (p.attachAll as).resources.items = p.resources.items ++
      ((p.attached as).zipIdx p.resources.length).map fun entry => entry.1.resource entry.2 := by
  induction as generalizing p with
  | nil => simp [attachAll, attached]
  | cons a rest ih =>
    rw [attachAll, attached, ih]
    obtain ⟨hfails, heq⟩ | ⟨hholds, handle, resources, hok, heq⟩ := p.attach_cases a
    · rw [if_neg (by simp [hfails]), heq]
    · obtain ⟨-, -, -, rfl⟩ := Roster.insert_ok_iff.1 hok
      rw [if_pos hholds, heq]
      simp [Roster.length]

/-- The slots in use after additions to a program without resources. -/
theorem inUse_attachAll_iff {p : Program} (h : p.resources = .empty) {as : List Attachment} {slot : Nat} :
    (p.attachAll as).InUse slot ↔
      ∃ (index : Nat) (a : Attachment), (p.attached as)[index]? = some a ∧ a.slot.getD index = slot := by
  rw [InUse, resources_attachAll, h]
  constructor
  · rintro ⟨r, hr, rfl⟩
    obtain ⟨⟨a, index⟩, hentry, rfl⟩ := List.mem_map.1 hr
    exact ⟨index, a, List.mk_mem_zipIdx_iff_getElem?.1 hentry, rfl⟩
  · rintro ⟨index, a, hget, rfl⟩
    exact ⟨a.resource index, List.mem_map_of_mem (List.mk_mem_zipIdx_iff_getElem?.2 hget), rfl⟩

end Program

/-- **When the next slot is in use.**  After any additions to a program without resources, with slots of
their own choice or not, successful or failed, the resources are those of the successful additions in order;
each has the slot that it chose, or else its position.  The next slot is their number, as a 32-bit number.
So it is in use exactly if one of them chose it, or if there are as many resources as slots, and the first
one chose none. -/
theorem next_slot_in_use_iff (p : Program) (as : List Attachment) :
    let start : Program := { p with resources := .empty }
    let accepted := start.attached as
    let after := start.attachAll as
    after.resources.items = (accepted.zipIdx.map fun entry => entry.1.resource entry.2) ∧
    after.nextBinding = accepted.length % UInt32.size ∧
    (after.InUse after.nextBinding ↔
      (∃ a ∈ accepted, a.slot = some after.nextBinding) ∨
        accepted.length = UInt32.size ∧ ∃ a, accepted.head? = some a ∧ a.slot = none) := by
  intro start accepted after
  have hitems : after.resources.items = accepted.zipIdx.map fun entry => entry.1.resource entry.2 :=
    start.resources_attachAll as
  have hlength : after.resources.length = accepted.length := by
    rw [Roster.length, hitems, List.length_map, List.length_zipIdx]
  have hbounded : accepted.length ≤ UInt32.size :=
    hlength ▸ (Program.consistent_attachAll (p := start) .empty as).bounded
  have hnext : after.nextBinding = accepted.length % UInt32.size := by
    rw [Program.nextBinding, hlength]
  refine ⟨hitems, hnext, ?_⟩
  rw [Program.inUse_attachAll_iff rfl]
  constructor
  · rintro ⟨index, a, hget, hslot⟩
    cases hchosen : a.slot with
    | some slot =>
      rw [hchosen, Option.getD_some] at hslot
      exact .inl ⟨a, List.mem_of_getElem? hget, by rw [hchosen, hslot]⟩
    | none =>
      -- a position is below the number of resources, so they meet only where the slots start again
      rw [hchosen, Option.getD_none, hnext] at hslot
      have hlt : index < accepted.length := (List.getElem?_eq_some_iff.1 hget).1
      rcases Nat.lt_or_eq_of_le hbounded with hless | hfull
      · rw [Nat.mod_eq_of_lt hless] at hslot
        omega
      · rw [hfull, Nat.mod_self] at hslot
        subst hslot
        exact .inr ⟨hfull, a, by rw [List.head?_eq_getElem?]; exact hget, hchosen⟩
  · rintro (⟨a, ha, hslot⟩ | ⟨hfull, a, hhead, hslot⟩)
    · obtain ⟨index, hget⟩ := List.getElem?_of_mem ha
      exact ⟨index, a, hget, by rw [hslot, Option.getD_some]⟩
    · rw [List.head?_eq_getElem?] at hhead
      exact ⟨0, a, hhead, by rw [hslot, Option.getD_none, hnext, hfull, Nat.mod_self]⟩

/-- Whether every slot that is chosen in a sequence of additions is in no use at that time. -/
def Program.Considerate (p : Program) : List Attachment → Prop
  | [] => True
  | a :: rest => (∀ slot ∈ a.slot, ¬ p.InUse slot) ∧ (p.attach a).Considerate rest

instance Program.decidableConsiderate (p : Program) :
    (as : List Attachment) → Decidable (p.Considerate as)
  | [] => isTrue trivial
  | a :: rest =>
    have := (p.attach a).decidableConsiderate rest
    inferInstanceAs (Decidable ((∀ slot ∈ a.slot, ¬ p.InUse slot) ∧ (p.attach a).Considerate rest))

/-- A texture that chooses the third slot, one that takes the next, and a sampler that is refused for its
name. -/
def Attachment.collage : List Attachment :=
  [⟨"albedo", .texture2D, none, some 2⟩, ⟨"shadow", .texture2D, none, none⟩,
    ⟨"albedo", .sampler, none, none⟩]

/-- **The next slot can be in use**, although every slot was free when it was chosen; and a resource that takes
it shares it. -/
theorem next_slots_collide :
    Program.empty.Considerate Attachment.collage ∧
    (Program.empty.attachAll Attachment.collage).InUse
      (Program.empty.attachAll Attachment.collage).nextBinding ∧
    ((Program.empty.attachAll Attachment.collage).attach
        ⟨"glow", .texture2D, none, none⟩).resources.items.map (fun r => (r.name, r.binding)) =
      [("albedo", 2), ("shadow", 1), ("glow", 2)] := by
  exact ⟨by decide +kernel, by decide +kernel, by decide +kernel⟩

end CrossShader

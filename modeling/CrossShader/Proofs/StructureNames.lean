import CrossShader.Proofs.Registration
import CrossShader.Target

/-!
# Names of registered structures

A structure is registered under a key and brings a name of its own.  Discovery takes the requested name as
the key and never looks at the other; that the two agree rests on where the table files its declarations.

* `Session`, `Operation` — a program with its table of declarations, and everything that can be done to them.
* `Session.step`, `Session.run` — one operation, which may fail, and a sequence of them.
* `Symbols.Filed` — every declaration is found by its own name.
* `StructureSet.OwnNames` — every structure is registered under its own name, and none twice.
* `Session.step_appends` — an operation appends entries that keep this so.
* `structure_names_unique` — so it is after every sequence of operations.
-/

set_option autoImplicit false

namespace CrossShader

/-- A program with its table of declarations. -/
structure Session where
  program : Program
  symbols : Symbols

/-- What can be done to a program and its declarations. -/
inductive Operation where
  | declare (declaration : Declaration)
  | addStructure (definition : Structure)
  | addResource (resource : Resource)
  | addFunction (function : Function)
  | discover (name : String)
  | generate (dialect : Dialect) (entry : String) (options : Options)

namespace Session

/-- Nothing is declared or added yet. -/
def empty : Session := ⟨.empty, .empty⟩

/-- The registered structures. -/
def structures (s : Session) : StructureSet := s.program.structures

/-- One operation.  An addition that fails changes nothing; what a failed request has discovered stays. -/
def step (s : Session) : Operation → Session
  | .declare declaration => { s with symbols := s.symbols.declare declaration }
  | .addStructure definition =>
    { s with program := (s.program.addStructure definition).toOption.getD s.program }
  | .addResource resource =>
    { s with program := ((s.program.addResource resource).toOption.map Prod.snd).getD s.program }
  | .addFunction function =>
    { s with program := ((s.program.addFunction function).toOption.map Prod.snd).getD s.program }
  | .discover name =>
    let found := s.structures.discover s.symbols name
    { s with program := { s.program with structures := found.structures } }
  | .generate dialect entry options =>
    { s with program := (s.program.generate s.symbols dialect entry options).program }

/-- Operations one after the other. -/
def run (s : Session) (operations : List Operation) : Session := operations.foldl step s

end Session

/-! ## Keys and names -/

/-- Every declaration is found by its own name. -/
def Symbols.Filed (symbols : Symbols) : Prop := ∀ entry ∈ symbols.entries, entry.1 = entry.2.name

theorem Symbols.Filed.declare {symbols : Symbols} (h : symbols.Filed) (declaration : Declaration) :
    (symbols.declare declaration).Filed := by
  intro entry hentry
  obtain hold | hnew := List.mem_append.1 hentry
  · exact h entry hold
  · rw [List.mem_singleton.1 hnew]

/-- What a name finds has this name. -/
theorem Symbols.Filed.name_of_mem {symbols : Symbols} (h : symbols.Filed) {name : String}
    {declaration : Declaration} (hmem : declaration ∈ symbols.declarations name) :
    declaration.name = name := by
  obtain ⟨entry, hentry, hfound⟩ := List.mem_filterMap.1 hmem
  split at hfound
  · rename_i hname
    cases hfound
    rw [← hname, h entry hentry]
  · cases hfound

/-- Entries that can be appended to a set: each under its own name, which is free. -/
structure StructureSet.Admits (s : StructureSet) (new : List (String × Structure)) : Prop where
  own : ∀ entry ∈ new, entry.1 = entry.2.name
  free : ∀ entry ∈ new, s.find? entry.1 = none
  distinct : (new.map Prod.fst).Nodup

theorem StructureSet.Admits.nil (s : StructureSet) : s.Admits [] :=
  ⟨fun _ h => (nomatch h), fun _ h => (nomatch h), List.nodup_nil⟩

/-- A structure whose name is free. -/
theorem StructureSet.Admits.singleton {s : StructureSet} {definition : Structure}
    (h : s.find? definition.name = none) : s.Admits [(definition.name, definition)] where
  own := by simp
  free := by simpa using h
  distinct := List.nodup_singleton _

/-- A structure is added exactly if its name is free. -/
theorem StructureSet.insert_ok_iff {s s' : StructureSet} {definition : Structure} :
    s.insert definition = .ok s' ↔
      s.find? definition.name = none ∧ s' = s.push definition.name definition := by
  unfold StructureSet.insert StructureSet.contains
  cases s.find? definition.name <;> simp [eq_comm]

/-- What questions find in a table is registered under its own name. -/
theorem Discovered.admits {symbols : Symbols} {s : StructureSet} {names : List String}
    {new : List (String × Structure)} (h : Discovered symbols s names new) (hfiled : symbols.Filed) :
    s.Admits new where
  own := by
    rintro ⟨name, definition⟩ hentry
    obtain ⟨-, -, hdeclared⟩ := (h.mem_iff name definition).1 hentry
    have hmem : Declaration.struct definition ∈ symbols.declarations name := by
      have hsource : symbols.declarations name = [.struct definition] := hdeclared
      rw [hsource]
      exact List.mem_singleton_self _
    exact (hfiled.name_of_mem hmem).symm
  free entry hentry := ((h.mem_iff entry.1 entry.2).1 hentry).2.1
  distinct := h.distinct

/-- Every structure is registered under its own name, and no name is registered twice. -/
structure StructureSet.OwnNames (s : StructureSet) : Prop where
  own : ∀ entry ∈ s.entries, entry.1 = entry.2.name
  distinct : (s.entries.map Prod.fst).Nodup

namespace StructureSet.OwnNames

variable {s s' : StructureSet} {new : List (String × Structure)}

theorem append (h : s.OwnNames) (hnew : s.Admits new) (hs : s'.entries = s.entries ++ new) :
    s'.OwnNames := by
  refine ⟨fun entry hentry => ?_, ?_⟩
  · rw [hs] at hentry
    exact (List.mem_append.1 hentry).elim (h.own entry) (hnew.own entry)
  · rw [hs, List.map_append]
    refine h.distinct.append hnew.distinct fun name hold hadded => ?_
    obtain ⟨⟨_, registered⟩, hregistered, rfl⟩ := List.mem_map.1 hold
    obtain ⟨entry, hentry, heq⟩ := List.mem_map.1 hadded
    have hfree := List.lookup_eq_none_iff.1 (hnew.free entry hentry) _ hregistered
    simp [heq] at hfree

/-- The names in order are the keys in order. -/
theorem names_eq (h : s.OwnNames) : s.names = s.entries.map Prod.fst := by
  rw [StructureSet.names, StructureSet.toList, List.map_map]
  exact List.map_congr_left fun entry hentry => (h.own entry hentry).symm

/-- A registered structure is the entry of its own name. -/
theorem find?_name (h : s.OwnNames) {definition : Structure} (hmem : definition ∈ s.toList) :
    s.find? definition.name = some definition := by
  obtain ⟨⟨key, definition⟩, hentry, rfl⟩ := List.mem_map.1 hmem
  have hkey : key = definition.name := h.own _ hentry
  subst hkey
  obtain ⟨before, after, hsplit⟩ := List.append_of_mem hentry
  refine List.lookup_eq_some_iff.2 ⟨before, after, hsplit, fun entry hbefore => ?_⟩
  have hdistinct := h.distinct
  rw [hsplit, List.map_append, List.nodup_append] at hdistinct
  refine bne_iff_ne.2 fun heq => ?_
  exact hdistinct.2.2 _ (List.mem_map_of_mem hbefore) _ List.mem_cons_self heq.symm

end StructureSet.OwnNames

/-- **A registered name is returned as it is**, whatever the source declares under it. -/
theorem StructureSet.discover_of_find?_some {s : StructureSet} {name : String} {found : Structure}
    (h : s.find? name = some found) (symbols : SymbolSource) :
    s.discover symbols name = ⟨.ok found, s, []⟩ := by
  simp [discover, getOrInsert, contains, h]

/-! ## Operations -/

namespace Session

variable {s : Session}

/-- **One operation** appends entries that the set admits, if the table files its declarations. -/
theorem step_appends (hfiled : s.symbols.Filed) (operation : Operation) :
    ∃ new, (s.step operation).structures.entries = s.structures.entries ++ new ∧
      s.structures.Admits new := by
  have hkeep : ∃ new, s.structures.entries = s.structures.entries ++ new ∧ s.structures.Admits new :=
    ⟨[], (List.append_nil _).symm, .nil _⟩
  cases operation with
  | declare declaration => exact hkeep
  | addStructure definition =>
    cases hinsert : s.program.structures.insert definition with
    | error e =>
      simpa [step, structures, Program.addStructure, hinsert, Except.map, Except.toOption] using hkeep
    | ok added =>
      obtain ⟨hfree, rfl⟩ := StructureSet.insert_ok_iff.1 hinsert
      have hstep : (s.step (.addStructure definition)).structures =
          s.structures.push definition.name definition := by
        simp [step, structures, Program.addStructure, hinsert, Except.map, Except.toOption]
      rw [hstep]
      exact ⟨[(definition.name, definition)], rfl, .singleton hfree⟩
  | addResource resource =>
    cases hadd : s.program.resources.insert resource <;>
      simpa [step, structures, Program.addResource, hadd, Except.map, Except.toOption] using hkeep
  | addFunction function =>
    cases hadd : s.program.functions.insert function <;>
      simpa [step, structures, Program.addFunction, hadd, Except.map, Except.toOption] using hkeep
  | discover name =>
    obtain ⟨new, hentries, hnew⟩ := s.structures.discover_appends s.symbols name
    exact ⟨new, hentries, hnew.admits hfiled⟩
  | generate dialect entry options =>
    obtain ⟨new, hentries, hnew⟩ :=
      s.program.generateFrom_appends s.symbols dialect entry options (s.program.nestingBound s.symbols)
    exact ⟨new, hentries, hnew.admits hfiled⟩

/-- What every operation keeps. -/
structure Orderly (s : Session) : Prop where
  filed : s.symbols.Filed
  ownNames : s.structures.OwnNames

theorem Orderly.empty : Session.empty.Orderly where
  filed := fun _ h => nomatch h
  ownNames := ⟨fun _ h => (nomatch h), List.nodup_nil⟩

theorem Orderly.step (h : s.Orderly) (operation : Operation) : (s.step operation).Orderly := by
  obtain ⟨new, hentries, hnew⟩ := step_appends h.filed operation
  refine ⟨?_, h.ownNames.append hnew hentries⟩
  cases operation with
  | declare declaration => exact h.filed.declare declaration
  | addStructure _ | addResource _ | addFunction _ | discover _ | generate _ _ _ => exact h.filed

theorem Orderly.run (h : s.Orderly) (operations : List Operation) : (s.run operations).Orderly := by
  induction operations generalizing s with
  | nil => exact h
  | cons operation rest ih => exact ih (h.step operation)

/-- Entries stay, in their order, in front of later ones. -/
theorem Orderly.run_appends (h : s.Orderly) (operations : List Operation) :
    s.structures.entries <+: (s.run operations).structures.entries := by
  induction operations generalizing s with
  | nil => exact List.prefix_rfl
  | cons operation rest ih =>
    obtain ⟨new, hentries, -⟩ := step_appends h.filed operation
    exact List.IsPrefix.trans ⟨new, hentries.symm⟩ (ih (h.step operation))

end Session

/-- **Structures keep their names.**  Begin with nothing, and declare, add, discover and generate in any order
and with any failures.  Then every structure is registered under its own name, and no two have one name; the
structures that are registered at one time stand first, in the same order, at every later time; and whoever
asks for one of them by its name then gets it unchanged and adds nothing, whatever is declared under the name by
then, once, several times or not at all. -/
theorem structure_names_unique (operations later : List Operation) :
    let now := Session.empty.run operations
    let after := now.run later
    (∀ entry ∈ now.structures.entries, entry.1 = entry.2.name) ∧
    now.structures.names.Nodup ∧
    now.structures.toList <+: after.structures.toList ∧
    ∀ definition ∈ now.structures.toList, ∀ symbols : SymbolSource,
      after.structures.discover symbols definition.name = ⟨.ok definition, after.structures, []⟩ := by
  intro now after
  have hnow : now.Orderly := Session.Orderly.empty.run operations
  have hafter : after.Orderly := hnow.run later
  have hfirst : now.structures.toList <+: after.structures.toList :=
    (hnow.run_appends later).map Prod.snd
  refine ⟨hnow.ownNames.own, ?_, hfirst, fun definition hmem symbols => ?_⟩
  · rw [hnow.ownNames.names_eq]
    exact hnow.ownNames.distinct
  · exact StructureSet.discover_of_find?_some (hafter.ownNames.find?_name (hfirst.subset hmem)) symbols

/-- A structure that a request has to discover. -/
def Structure.ray : Structure := ⟨"Ray", [{ name := "origin", type := ⟨Host.vector3, false⟩ }]⟩

/-- The entry that needs it. -/
def Function.trace : Function where
  name := "trace"
  returnType := ⟨Host.void, false⟩
  role := .entry .compute
  parameters := []
  workgroup := {}
  body := [.declare .unknown "ray" ⟨"Ray", false⟩ 0 none]

/-- A structure is discovered, then added and declared again in another form; a request discovers the ray. -/
def Session.traced : List Operation :=
  [.declare (.struct ⟨"Light", [{ name := "power", type := ⟨Host.float, false⟩ }]⟩), .discover "Light",
    .addStructure ⟨"Light", []⟩, .declare (.struct ⟨"Light", []⟩), .discover "Shadow",
    .declare (.struct .ray), .addFunction .trace, .generate (Target.glsl450).dialect "trace" {}]

theorem structure_names_unique_traced :
    let now := Session.empty.run Session.traced
    let after := now.run [.declare (.classType "Ray"), .discover "Light",
      .generate (Target.hlsl).dialect "trace" {}]
    now.structures.names = ["Light", "Ray"] ∧ Structure.ray ∈ now.structures.toList ∧
    after.symbols.declarations "Ray" = [.struct .ray, .classType "Ray"] ∧
    after.structures.discover after.symbols "Ray" = ⟨.ok .ray, after.structures, []⟩ := by
  intro now after
  have hray : Structure.ray ∈ (Session.empty.run Session.traced).structures.toList := by decide +kernel
  refine ⟨by decide +kernel, hray, by decide +kernel, ?_⟩
  obtain ⟨-, -, -, hfound⟩ := structure_names_unique Session.traced
    [.declare (.classType "Ray"), .discover "Light", .generate (Target.hlsl).dialect "trace" {}]
  exact hfound .ray hray after.symbols

end CrossShader

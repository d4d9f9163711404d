import CrossShader.Proofs.Schedule
import Mathlib.Data.List.Nodup

/-!
# What a request registers

A request changes a program in one way: it appends the structures that it discovers.  This holds at
every early exit, because the structure set is reached only through questions, and one question either
leaves the set or appends one entry.

* `Discovered` — the entries that questions about given names add to a set.
* `StructureSet.discover_appends`, `Query.run_appends` — one question, and a whole computation.
* `Discovered.eq_nil` — the same questions add nothing a second time.
* `requests_append_discoveries` — generation requests, whether they succeed or fail.
-/

set_option autoImplicit false

namespace CrossShader

/-- A name has exactly one declaration, a structure. -/
theorem SymbolSource.lookup_eq_ok_iff {symbols : SymbolSource} {name : String}
    {definition : Structure} :
    symbols.lookup name = .ok definition ↔ symbols.declarations name = [.struct definition] := by
  unfold SymbolSource.lookup
  match symbols.declarations name with
  | [] => simp
  | [.struct found] => simp
  | [.classType _] | [.enumType _] | [.interfaceType _] => simp
  | _ :: _ :: _ => simp

/-- The entries that questions about some names add to a set: the names that are free in the set and
declared exactly once, as a structure; each of them once, with that structure. -/
structure Discovered (symbols : SymbolSource) (s : StructureSet) (names : List String)
    (new : List (String × Structure)) : Prop where
  distinct : (new.map Prod.fst).Nodup
  mem_iff : ∀ name definition, (name, definition) ∈ new ↔
    name ∈ names ∧ s.find? name = none ∧ symbols.declarations name = [.struct definition]

namespace StructureSet

theorem find?_of_entries {s s' : StructureSet} {new : List (String × Structure)}
    (h : s'.entries = s.entries ++ new) {name : String} :
    s'.find? name = none ↔ s.find? name = none ∧ ∀ definition, (name, definition) ∉ new := by
  unfold find?
  rw [h, List.lookup_append, Option.or_eq_none_iff]
  refine and_congr_right fun _ => ⟨fun hnew definition hmem => ?_, fun hnew => ?_⟩
  · have hne := List.lookup_eq_none_iff.1 hnew _ hmem
    simp at hne
  · refine List.lookup_eq_none_iff.2 fun entry hmem => ?_
    refine bne_iff_ne.2 fun heq => ?_
    subst heq
    exact hnew entry.2 hmem

/-- **One question appends at most the entry that it finds.** -/
theorem discover_appends (s : StructureSet) (symbols : SymbolSource) (name : String) :
    ∃ new, (s.discover symbols name).structures.entries = s.entries ++ new ∧
      Discovered symbols s [name] new := by
  -- nothing is appended if the name is taken, or if it has no single declaration
  have hstays : (∀ definition, s.find? name = none →
      symbols.declarations name ≠ [.struct definition]) → Discovered symbols s [name] [] := by
    refine fun hnone => ⟨List.nodup_nil, fun other definition => ⟨fun h => (nomatch h), ?_⟩⟩
    rintro ⟨hname, hfree, hdeclared⟩
    obtain rfl := List.mem_singleton.1 hname
    exact absurd hdeclared (hnone definition hfree)
  unfold discover getOrInsert
  cases hs : s.find? name with
  | some found =>
    refine ⟨[], (List.append_nil _).symm, hstays fun _ hfree => ?_⟩
    rw [hs] at hfree
    cases hfree
  | none =>
    cases hl : symbols.lookup name with
    | error reason =>
      refine ⟨[], (List.append_nil _).symm, hstays fun definition _ hdeclared => ?_⟩
      rw [SymbolSource.lookup_eq_ok_iff.2 hdeclared] at hl
      cases hl
    | ok value =>
      have hdeclared := SymbolSource.lookup_eq_ok_iff.1 hl
      refine ⟨[(name, value)], rfl, List.nodup_singleton _, fun other definition => ?_⟩
      rw [List.mem_singleton, List.mem_singleton, Prod.mk.injEq]
      constructor
      · rintro ⟨rfl, rfl⟩
        exact ⟨rfl, hs, hdeclared⟩
      · rintro ⟨rfl, -, h⟩
        rw [hdeclared] at h
        cases h
        exact ⟨rfl, rfl⟩

end StructureSet

namespace Discovered

variable {symbols : SymbolSource} {s s' : StructureSet} {names names' : List String}
  {new new' : List (String × Structure)}

/-- Questions, and then others on the set after them. -/
theorem append (hnew : Discovered symbols s names new) (hs : s'.entries = s.entries ++ new)
    (hnew' : Discovered symbols s' names' new') :
    Discovered symbols s (names ++ names') (new ++ new') := by
  refine ⟨?_, fun name definition => ?_⟩
  · rw [List.map_append]
    refine hnew.distinct.append hnew'.distinct fun name hmem hmem' => ?_
    obtain ⟨⟨_, definition⟩, hentry, rfl⟩ := List.mem_map.1 hmem
    obtain ⟨⟨_, definition'⟩, hentry', rfl⟩ := List.mem_map.1 hmem'
    obtain ⟨-, hfree, -⟩ := (hnew'.mem_iff _ _).1 hentry'
    exact ((StructureSet.find?_of_entries hs).1 hfree).2 definition hentry
  · rw [List.mem_append, hnew.mem_iff, hnew'.mem_iff, StructureSet.find?_of_entries hs,
      List.mem_append]
    constructor
    · rintro (⟨hname, hfree, hdeclared⟩ | ⟨hname, ⟨hfree, -⟩, hdeclared⟩)
      · exact ⟨.inl hname, hfree, hdeclared⟩
      · exact ⟨.inr hname, hfree, hdeclared⟩
    · rintro ⟨hname, hfree, hdeclared⟩
      by_cases hfirst : name ∈ names
      · exact .inl ⟨hfirst, hfree, hdeclared⟩
      · refine .inr ⟨hname.resolve_left hfirst, ⟨hfree, fun other hmem => ?_⟩, hdeclared⟩
        exact hfirst ((hnew.mem_iff _ _).1 hmem).1

/-- **The same questions add nothing a second time.** -/
theorem eq_nil (hnew : Discovered symbols s names new) (hs : s'.entries = s.entries ++ new)
    (hnew' : Discovered symbols s' names new') : new' = [] := by
  refine List.eq_nil_iff_forall_not_mem.2 fun ⟨name, definition⟩ hmem => ?_
  obtain ⟨hname, hfree', hdeclared⟩ := (hnew'.mem_iff _ _).1 hmem
  obtain ⟨hfree, hout⟩ := (StructureSet.find?_of_entries hs).1 hfree'
  exact hout definition ((hnew.mem_iff _ _).2 ⟨hname, hfree, hdeclared⟩)

end Discovered

/-- **A computation appends what its questions find**, and nothing else. -/
theorem Query.run_appends {α : Type} (symbols : SymbolSource) (q : Query α) (s : StructureSet) :
    ∃ new, (q.run symbols s).structures.entries = s.entries ++ new ∧
      Discovered symbols s (q.asked (s.meaning symbols)) new := by
  induction q generalizing s with
  | answer value =>
    refine ⟨[], (List.append_nil _).symm, List.nodup_nil, fun name definition => ?_⟩
    exact ⟨fun h => (nomatch h), fun ⟨h, _⟩ => (nomatch h)⟩
  | note record next ih => exact ih s
  | discover name next ih =>
    obtain ⟨found, hentries, hfound⟩ := s.discover_appends symbols name
    obtain ⟨rest, hentries', hrest⟩ :=
      ih (s.discover symbols name).result (s.discover symbols name).structures
    rw [s.meaning_discover, s.discover_result] at hrest
    refine ⟨found ++ rest, ?_, hfound.append hentries hrest⟩
    rw [← List.append_assoc, ← hentries]
    exact hentries'

/-! ## Generation requests -/

namespace Program

variable (p : Program) (symbols : SymbolSource) (d : Dialect) (entry : String) (options : Options)

/-- The names that a request asks about. -/
def asked (depth : Nat) : List String :=
  (shaderQuery d p.toCode depth entry options).asked (p.structures.meaning symbols)

theorem generateFrom_appends (depth : Nat) :
    ∃ new, (p.generateFrom symbols depth d entry options).program.structures.entries =
        p.structures.entries ++ new ∧
      Discovered symbols p.structures (p.asked symbols d entry options depth) new :=
  Query.run_appends symbols _ p.structures

/-- A request asks the same questions after another one. -/
theorem asked_generateFrom (depth depth' : Nat) :
    (p.generateFrom symbols depth d entry options).program.asked symbols d entry options depth' =
      p.asked symbols d entry options depth' :=
  congrArg (Query.asked · _) (Query.run_meaning symbols _ p.structures)

theorem generateFrom_program_of_asked {depth depth' : Nat}
    (h : p.asked symbols d entry options depth' = p.asked symbols d entry options depth) :
    ((p.generateFrom symbols depth d entry options).program.generateFrom symbols depth' d entry
        options).program = (p.generateFrom symbols depth d entry options).program := by
  obtain ⟨new, hentries, hnew⟩ := p.generateFrom_appends symbols d entry options depth
  obtain ⟨new', hentries', hnew'⟩ :=
    (p.generateFrom symbols depth d entry options).program.generateFrom_appends symbols d entry
      options depth'
  rw [asked_generateFrom, h] at hnew'
  rw [hnew.eq_nil hentries hnew', List.append_nil] at hentries'
  exact congrArg (Program.mk p.toCode) (congrArg StructureSet.mk hentries')

/-- The bound on the nesting grows with the structures, and the questions stay the same. -/
theorem asked_nestingBound (table : Symbols) :
    p.asked table d entry options
        ((p.generate table d entry options).program.nestingBound table) =
      p.asked table d entry options (p.nestingBound table) := by
  have hlt := p.length_structureNames_lt table
  obtain ⟨new, hentries, -⟩ :=
    p.generateFrom_appends table d entry options (p.nestingBound table)
  have hle : p.nestingBound table ≤ (p.generate table d entry options).program.nestingBound table := by
    have hlength := congrArg List.length hentries
    rw [List.length_append] at hlength
    show p.structures.entries.length + table.length + 1 ≤
      (p.generateFrom table (p.nestingBound table) d entry options).program.structures.entries.length
        + table.length + 1
    omega
  exact asked_shaderQuery_agree d (fun _ _ => mem_structureNames) (by omega) hlt _ entry options

end Program

/-- **A request only appends what it discovers**, on every dialect and whether it succeeds or fails.
The resources and functions stay, the structures stay in their order, and behind them stand the names
that the request asked about and found declared exactly once, as a structure, none of them registered
before and none of them twice.  The same request again changes nothing and has the same result; so
with a table of declarations, where the bound on the nesting has grown with the structures. -/
theorem requests_append_discoveries (p : Program) (d : Dialect) (entry : String)
    (options : Options) :
    (∀ (symbols : SymbolSource) (depth : Nat),
      let after := p.generateFrom symbols depth d entry options
      let again := after.program.generateFrom symbols depth d entry options
      after.program.toCode = p.toCode ∧
      (∃ new, after.program.structures.entries = p.structures.entries ++ new ∧
        Discovered symbols p.structures (p.asked symbols d entry options depth) new) ∧
      again.program = after.program ∧ again.result = after.result) ∧
    (∀ table : Symbols,
      let after := p.generate table d entry options
      let again := after.program.generate table d entry options
      after.program.toCode = p.toCode ∧
      (∃ new, after.program.structures.entries = p.structures.entries ++ new ∧
        Discovered table p.structures (p.asked table d entry options (p.nestingBound table)) new) ∧
      again.program = after.program ∧ again.result = after.result) := by
  refine ⟨fun symbols depth => ⟨rfl, ?_, ?_, ?_⟩, fun table => ⟨rfl, ?_, ?_, ?_⟩⟩
  · exact p.generateFrom_appends symbols d entry options depth
  · exact p.generateFrom_program_of_asked symbols d entry options rfl
  · rw [Program.generateFrom_result_eq_eval, Program.generateFrom_result_eq_eval]
    exact congrArg (Query.eval · _) (Query.run_meaning symbols _ p.structures)
  · exact p.generateFrom_appends table d entry options _
  · exact p.generateFrom_program_of_asked table d entry options
      (p.asked_nestingBound d entry options table)
  · obtain ⟨hcode, hmeaning⟩ := p.generate_meaning table d entry options
    exact Program.generate_result_congr hcode hmeaning d entry options

end CrossShader

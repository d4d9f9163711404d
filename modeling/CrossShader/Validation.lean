import CrossShader.Diagnostic
import CrossShader.Host
import CrossShader.Program

/-!
# Validation

Checks of a program that need no target.  Findings come in a fixed order: structures, resources,
functions, each in the order in which they were added.

* `Finding` — what can be wrong with a part.
* `Issue` — a finding and the part it concerns.
* `Program.validate` — all issues of a program.
-/

set_option autoImplicit false

namespace CrossShader

/-- What is wrong with a part of a program. -/
inductive Finding where
  | duplicateField (field : String)
  | unknownKind (raw : Nat)
  | missingValueType (kind : ResourceKind)
  | parameterCount (stage : Stage) (found : Nat)
  | noPosition (structureName : String)
  | severalPositions (structureName : String) (count : Nat)
  | fragmentResult (found : TypeRef)
  | computeParameters
  | emptyExtent (axis : Nat)
  deriving DecidableEq, Repr

/-- The wording of a finding. -/
def Finding.text : Finding → String
  | .duplicateField field => s!"duplicate field `{field}`"
  | .unknownKind raw => s!"unknown resource kind {raw}"
  | .missingValueType kind => s!"{kind.text} resource has no value type"
  | .parameterCount stage found => s!"{stage.text} entry takes exactly one parameter, found {found}"
  | .noPosition s => s!"output structure `{s}` has no position field"
  | .severalPositions s count =>
    s!"output structure `{s}` has {count} position fields; only the first is used"
  | .fragmentResult found =>
    s!"fragment entry returns `{found.text}`, expected `{Host.vector4}`"
  | .computeParameters => "compute entry takes no parameters"
  | .emptyExtent axis => s!"workgroup_size[{axis}] = 0"

/-- A finding and the structure, resource or function that it concerns. -/
structure Issue where
  subject : String
  finding : Finding
  deriving DecidableEq, Repr

namespace Issue

/-- The finding after its subject. -/
def text (i : Issue) : String := s!"{i.subject}: {i.finding.text}"

/-- The log record of an issue. -/
def note (i : Issue) : LogRecord := ⟨.warn, i.text⟩

end Issue

/-- The names that occurred before, in order of occurrence; `seen` counts as having occurred. -/
def repeatedNames (seen : List String) : List String → List String
  | [] => []
  | name :: rest =>
    if seen.contains name then name :: repeatedNames seen rest
    else repeatedNames (name :: seen) rest

/-- Findings of a structure. -/
def Structure.findings (s : Structure) : List Finding :=
  (repeatedNames [] (s.fields.map (·.name))).map .duplicateField

/-- Findings of a resource. -/
def Resource.findings (r : Resource) : List Finding :=
  match r.kind with
  | .other raw => [.unknownKind raw]
  | kind => if kind.needsValueType && r.valueType.isNone then [.missingValueType kind] else []

/-- Findings of an entry that should have one parameter. -/
def Function.parameterFindings (f : Function) (stage : Stage) : List Finding :=
  if f.parameters.length = 1 then [] else [.parameterCount stage f.parameters.length]

/-- Findings of the structure that a vertex entry returns. -/
def Structure.outputFindings (s : Structure) : List Finding :=
  match s.positionFields.length with
  | 0 => [.noPosition s.name]
  | 1 => []
  | count => [.severalPositions s.name count]

/-- Findings of a function of a program. -/
def Program.functionFindings (p : Program) (f : Function) : List Finding :=
  match f.role with
  | .plain => []
  | .entry .vertex =>
    f.parameterFindings .vertex ++
      ((p.structures.find? f.returnType.name).map Structure.outputFindings).getD []
  | .entry .fragment =>
    f.parameterFindings .fragment ++
      (if f.returnType = ⟨Host.vector4, false⟩ then [] else [.fragmentResult f.returnType])
  | .entry .compute =>
    (if f.parameters.isEmpty then [] else [.computeParameters]) ++
      ((f.workgroup.extents.zipIdx.filter (·.1 == 0)).map fun e => .emptyExtent e.2)

/-- All issues of a program. -/
def Program.validate (p : Program) : List Issue :=
  p.structures.toList.flatMap (fun s => s.findings.map (Issue.mk s.name)) ++
  p.resources.items.flatMap (fun r => r.findings.map (Issue.mk r.name)) ++
  p.functions.items.flatMap (fun f => (p.functionFindings f).map (Issue.mk f.name))

end CrossShader

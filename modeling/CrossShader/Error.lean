import CrossShader.Interface
import CrossShader.Resource
import CrossShader.Symbols

/-!
# Generation errors

The causes for which a generation request fails, and their wording.

* `Construct` — constructs of a source that a target cannot express.
* `SignatureFault` — entry signatures that do not fit their stage.
* `GenerationError` — all causes; `GenerationError.message` is the only place with their texts.
-/

set_option autoImplicit false

namespace CrossShader

/-- A construct that has no form on the target. -/
inductive Construct where
  | selfContaining (structureName : String)
  | sharedTypeName (first second target : String)
  | stageEntry (stage : Stage) (dialect : String)
  | recursiveCall (callee : String)
  | arrayReturn (function : String)
  | arrayParameter (parameter function : String)
  | arrayStageField (field : String) (stage : Stage) (direction : Direction)
  | foreachLoop
  | discardIn (stage : Stage)
  | switchLabel
  | unsizedArray (variableName : String)
  | loopHeader
  | unknownResource (resource : String)
  | staticMember (type member : String)
  | missingField (structureName member : String)
  | unknownMember (type member : String)
  | unknownCall (function : String)
  | callArguments (function : String) (count : Nat) (dialect : String)
  | construction (type : String)
  | conversion (type : String)
  | defaultValue (type : String)
  | arrayValue (element : String)
  | nonFinite (literal : String)
  | structuredBuffer (resource dialect : String)
  /-- A construct described by its text alone. -/
  | described (text : String)
  deriving DecidableEq, Repr

/-- The wording of a construct. -/
def Construct.text : Construct → String
  | .selfContaining s => s!"structure `{s}` contains itself"
  | .sharedTypeName first second target =>
    s!"structures `{first}` and `{second}` both lower to `{target}`"
  | .stageEntry stage dialect => s!"{stage.text} entry points on {dialect}"
  | .recursiveCall callee => s!"recursive call to `{callee}`"
  | .arrayReturn function => s!"array return type of `{function}`"
  | .arrayParameter parameter function => s!"array parameter `{parameter}` of `{function}`"
  | .arrayStageField field stage direction =>
    s!"array field `{field}` as a {stage.text} {direction.text}put"
  | .foreachLoop => "foreach statement"
  | .discardIn stage => s!"discard in a {stage.text} shader"
  | .switchLabel => "non-integer switch label"
  | .unsizedArray name => s!"unsized array variable `{name}`"
  | .loopHeader => "compound statement in a for header"
  | .unknownResource resource => s!"reference to unknown resource `{resource}`"
  | .staticMember type member => s!"static member `{type}.{member}`"
  | .missingField s member => s!"`{s}` has no field `{member}`"
  | .unknownMember type member => s!"member `{member}` of `{type}`"
  | .unknownCall function => s!"call to `{function}`"
  | .callArguments function count dialect =>
    s!"`{function}` with {count} argument(s) on {dialect}"
  | .construction type => s!"constructor of `{type}`"
  | .conversion type => s!"conversion to `{type}`"
  | .defaultValue type => s!"default value of `{type}`"
  | .arrayValue element => s!"array value of `{element}`"
  | .nonFinite literal => s!"non-finite float literal {literal}"
  | .structuredBuffer resource dialect => s!"structured buffer `{resource}` on {dialect}"
  | .described text => text

/-- Why a signature does not fit an entry of its stage. -/
inductive SignatureFault where
  | notAnEntry
  | computeParameters
  | emptyWorkgroup (workgroup : Workgroup)
  | parameterCount (stage : Stage) (found : Nat)
  | parameterType (parameter : Parameter)
  | vertexResult (found : TypeRef)
  /-- A fault described by its text alone. -/
  | described (text : String)
  deriving DecidableEq, Repr

/-- The wording of a fault. -/
def SignatureFault.text : SignatureFault → String
  | .notAnEntry => "not marked as an entry point"
  | .computeParameters => "compute entries take no parameters"
  | .emptyWorkgroup workgroup => s!"workgroup size {workgroup.text} has a zero dimension"
  | .parameterCount stage found => s!"{stage.text} entries take exactly one parameter, found {found}"
  | .parameterType parameter =>
    s!"parameter `{parameter.name}` must be a structure, found `{parameter.type.text}`"
  | .vertexResult found => s!"vertex entries return a structure, found `{found.text}`"
  | .described text => text

/-- The cause for which a request fails. -/
inductive GenerationError where
  /-- A type that the dialect does not map and that is no structure. -/
  | unknownType (name : String)
  /-- A resource that needs a value type and has none. -/
  | missingValueType (resource : String)
  /-- A construct without a form on the target, with the innermost statement around it. -/
  | unsupported (construct : Construct) (location : Location)
  | entryNotFound (name : String)
  | illegalResourceKind (resource : String) (kind : ResourceKind)
  | invalidReturnType (function : String) (found : TypeRef)
  | missingPosition (function structureName : String)
  /-- A structure that the entry needs and that was not found. -/
  | unresolvedType (name : String) (reason : DiscoveryFailure)
  | invalidEntry (function : String) (fault : SignatureFault)
  deriving DecidableEq, Repr

/-- The wording of an error. -/
def GenerationError.message : GenerationError → String
  | .unknownType name => s!"no mapping for type `{name}`"
  | .missingValueType resource => s!"no mapping for type `<value type of `{resource}`>`"
  | .unsupported construct location =>
    s!"unsupported construct at {location.text}: {construct.text}"
  | .entryNotFound name => s!"couldn't find entry function `{name}`"
  | .illegalResourceKind resource kind => s!"illegal resource kind {kind.text} on `{resource}`"
  | .invalidReturnType function found =>
    s!"fragment entry `{function}` must return a 4-component vector, found `{found.text}`"
  | .missingPosition function structureName =>
    s!"vertex entry `{function}` returns `{structureName}`, which has no position field"
  | .unresolvedType name reason => s!"type `{name}` could not be resolved: {reason.message}"
  | .invalidEntry function fault => s!"invalid signature for entry `{function}`: {fault.text}"

end CrossShader

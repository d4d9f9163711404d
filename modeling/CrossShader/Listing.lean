import CrossShader.Program
import CrossShader.Text.Line

/-!
# Listings

A program as readable text: structures, resources and functions, each section in the order in which
its parts were added.  Levels are two blanks wide; the statements of a block stand two levels below
it, the headings inside a loop or a switch one level below.

* `Block.listing` — the lines of a block.
* `Program.listing` — the text of a program.
-/

set_option autoImplicit false

namespace CrossShader

open Text

/-- The labels of a case in a listing. -/
def caseLabels (labels : List Literal) (isDefault : Bool) : String :=
  String.intercalate ", " (labels.map Literal.text ++ if isDefault then ["default"] else [])

mutual
/-- The lines of a statement at a level. -/
def Stmt.listing (level : Nat) : Stmt → List Line
  | .block _ body =>
    ⟨level, "Block \x7b"⟩ :: (Block.listing (level + 2) body ++ [⟨level, "\x7d"⟩])
  | .declare _ name type count value =>
    let start := (value.map fun e => s!" = {e.text}").getD ""
    [⟨level, s!"Var {name}: {type.text}{countSuffix count}{start}"⟩]
  | .eval _ e => [⟨level, s!"Eval {e.text}"⟩]
  | .assign _ target op value => [⟨level, s!"Assign {target.text} {op.token} {value.text}"⟩]
  | .ifElse _ condition accept reject =>
    let otherwise :=
      match reject with
      | [] => []
      | first :: rest =>
        ⟨level, "\x7d else \x7b"⟩ ::
          (Stmt.listing (level + 2) first ++ Block.listing (level + 2) rest)
    ⟨level, s!"If ({condition.text}) \x7b"⟩ ::
      (Block.listing (level + 2) accept ++ otherwise ++ [⟨level, "\x7d"⟩])
  | .forLoop _ start condition step body =>
    let opening :=
      match start with
      | none => []
      | some s => ⟨level + 1, "Init:"⟩ :: Stmt.listing (level + 2) s
    let test := condition.toList.map fun c => ⟨level + 1, s!"Condition {c.text}"⟩
    let stepping :=
      match step with
      | [] => []
      | first :: rest =>
        ⟨level + 1, "Step:"⟩ :: (Stmt.listing (level + 2) first ++ Block.listing (level + 2) rest)
    ⟨level, "For \x7b"⟩ ::
      (opening ++ test ++ stepping ++ ⟨level + 1, "Body:"⟩ :: Block.listing (level + 2) body ++
        [⟨level, "\x7d"⟩])
  | .whileLoop _ condition body =>
    ⟨level, s!"While ({condition.text}) \x7b"⟩ ::
      (Block.listing (level + 2) body ++ [⟨level, "\x7d"⟩])
  | .doWhile _ body condition =>
    ⟨level, "Do \x7b"⟩ ::
      (Block.listing (level + 2) body ++ [⟨level, s!"\x7d While ({condition.text})"⟩])
  | .switch _ selector cases =>
    ⟨level, s!"Switch ({selector.text}) \x7b"⟩ ::
      (SwitchCase.listing level cases ++ [⟨level, "\x7d"⟩])
  | .foreach _ item type collection body =>
    ⟨level, s!"Foreach {item}: {type.text} in {collection.text} \x7b"⟩ ::
      (Block.listing (level + 2) body ++ [⟨level, "\x7d"⟩])
  | .breakLoop _ => [⟨level, "Break"⟩]
  | .continueLoop _ => [⟨level, "Continue"⟩]
  | .ret _ none => [⟨level, "Return"⟩]
  | .ret _ (some value) => [⟨level, s!"Return {value.text}"⟩]
  | .discard _ => [⟨level, "Discard"⟩]
termination_by structural s => s

/-- The lines of a block at a level. -/
def Block.listing (level : Nat) : List Stmt → List Line
  | [] => []
  | s :: rest => Stmt.listing level s ++ Block.listing level rest
termination_by structural body => body

/-- The lines of the cases of a switch at a level. -/
def SwitchCase.listing (level : Nat) : List SwitchCase → List Line
  | [] => []
  | .mk labels isDefault body :: rest =>
    ⟨level + 1, s!"Case {caseLabels labels isDefault}:"⟩ ::
      (Block.listing (level + 2) body ++ SwitchCase.listing level rest)
termination_by structural cases => cases
end

/-- The line of a field. -/
def Field.listing (f : Field) : Line :=
  let tag := if f.semantic = .untagged then "" else s!"  @{f.semantic.text}"
  ⟨2, s!"{f.name}: {f.type.text}{countSuffix f.count}{tag}"⟩

/-- The lines of a structure. -/
def Structure.listing (s : Structure) : List Line :=
  ⟨1, s!"struct {s.name} \x7b"⟩ :: (s.fields.map Field.listing ++ [⟨1, "\x7d"⟩])

/-- The line of a resource. -/
def Resource.listing (r : Resource) : Line :=
  let type := (r.valueType.map fun t => s!": {t.text}").getD ""
  ⟨1, s!"@binding({r.binding}) {r.kind.text} {r.name}{type}"⟩

/-- The lines of a function. -/
def Function.listing (f : Function) : List Line :=
  let parameters := String.intercalate ", " (f.parameters.map fun p => s!"{p.name}: {p.type.text}")
  let workgroup := if f.role = .entry .compute then s!" @workgroup_size{f.workgroup.text}" else ""
  ⟨1, s!"fn {f.name}({parameters}) -> {f.returnType.text}  [{f.role.text}]{workgroup} \x7b"⟩ ::
    (Block.listing 2 f.body ++ [⟨1, "\x7d"⟩])

/-- The lines of a section, after an empty line; a section without parts is left out. -/
def listingPart (heading : String) (parts : List (List Line)) : List Line :=
  match parts with
  | [] => []
  | _ :: _ => .blank :: .flush heading :: parts.flatten

/-- The text of a program. -/
def Program.listing (p : Program) : String :=
  renderLines 2 <|
    .flush "Structures:" :: p.structures.toList.flatMap Structure.listing ++
    listingPart "Resources:" (p.resources.items.map fun r => [r.listing]) ++
    listingPart "Functions:" (p.functions.items.map Function.listing)

end CrossShader

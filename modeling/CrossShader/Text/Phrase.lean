/-!
# Phrases

The texts from which expressions and declarations are put together.
-/

set_option autoImplicit false

namespace CrossShader.Text

/-- The text, in parentheses if asked. -/
def parenthesize (needed : Bool) (text : String) : String :=
  if needed then s!"({text})" else text

/-- A call, or anything else written as a name before parenthesized arguments. -/
def callText (name : String) (arguments : List String) : String :=
  name ++ "(" ++ String.intercalate ", " arguments ++ ")"

/-- The conditional operator between its operands. -/
def conditionalText (condition accept reject : String) : String :=
  s!"{condition} ? {accept} : {reject}"

/-- An element count in brackets; nothing for a single value. -/
def countSuffix (count : Nat) : String :=
  if 0 < count then s!"[{count}]" else ""

end CrossShader.Text

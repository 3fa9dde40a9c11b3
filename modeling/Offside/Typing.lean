/-
# Types of expressions

The type of a translated expression goes by its shape: a whole number, a
number with a point, anything that starts with a double quote, a truth value,
or a variable that is in scope. Everything else counts as a whole number.

Key definitions: `isWhole`, `isDecimal`, `typeOf`.
-/
import Offside.Scope

namespace Offside

/-- Whether a text is one or more decimal digits. -/
def isDigits (t : Text) : Bool := !t.isEmpty && t.all Char.isDigit

/-- A text without the minus sign at its start, if it has one. -/
def unsigned : Text → Text
  | '-' :: t => t
  | t => t

/-- Whether an expression is a whole number. -/
def isWhole (t : Text) : Bool := isDigits (unsigned t)

/-- Whether an expression is a number with a decimal point. -/
def isDecimal (t : Text) : Bool :=
  match Text.cut? "." (unsigned t) with
  | some (whole, fraction) => isDigits whole && isDigits fraction
  | none => false

/-- The type of a translated expression. -/
def typeOf (scope : Scope) (t : Text) : ValueType :=
  if isWhole t then .int
  else if isDecimal t then .double
  else if t.head? = some '"' then .string
  else if t = "true" ∨ t = "false" then .boolean
  else
    match scope.find? t with
    | some s => s.type
    | none => .int

end Offside

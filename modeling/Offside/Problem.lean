/-
# Problems

What can be wrong with a line or a statement, and the sentence that a report
uses for it. None of these stops a conversion: each one is kept until the
whole program has been looked at.

Key definitions: `Problem`, `Problem.message`.
-/
import Offside.Collection

namespace Offside

/-- What can be wrong with a program. -/
inductive Problem where
  /-- An assignment of a collection literal. -/
  | unsupportedCollection (kind : Collection)
  /-- A definition whose header cannot be read. -/
  | malformedDefinition (line : Text)
  /-- A definition inside a body. -/
  | nestedDefinition (name : Text)
  /-- A header that does not end in a colon. -/
  | missingColon (keyword : Text)
  /-- A header with nothing between its keyword and its colon. -/
  | missingCondition (keyword : Text)
  /-- A header with nothing indented under it. -/
  | missingBody (header : Text)
  /-- A branch that continues no conditional. -/
  | danglingBranch (keyword : Text)
  /-- A loop over something other than a range. -/
  | unsupportedLoop (line : Text)
  /-- A range of no argument or of more than three. -/
  | rangeArguments (count : Nat)
  /-- A line deeper than its block with no header above it. -/
  | unexpectedIndent
  /-- A line that stands between its block and the body it leaves. -/
  | inconsistentDedent
  /-- A quoted literal left open. -/
  | unterminatedString (expression : Text)
  /-- A line of no known shape. -/
  | unsupportedStatement (line : Text)
  /-- A return in the entry point. -/
  | returnOutsideFunction
  /-- An update of a variable that is not visible. -/
  | undefinedVariable (name : Text)
  /-- Anything else, in its own words. -/
  | remark (words : Text)
  deriving DecidableEq, Repr

namespace Problem

/-- The sentence that a report uses for a problem. -/
def message : Problem → Text
  | unsupportedCollection kind => kind.name ++ " data type is not supported"
  | malformedDefinition line => "Malformed function definition '" ++ line ++ "'"
  | nestedDefinition name => "Nested function definition '" ++ name ++ "' is not supported"
  | missingColon keyword => "Expected ':' at the end of '" ++ keyword ++ "' statement"
  | missingCondition keyword => "Missing condition in '" ++ keyword ++ "' statement"
  | missingBody header => "Expected an indented block after '" ++ header ++ "'"
  | danglingBranch keyword => "'" ++ keyword ++ "' without a matching 'if'"
  | unsupportedLoop line =>
    "Only 'for <name> in range(...)' loops are supported, got '" ++ line ++ "'"
  | rangeArguments count => "range() takes 1 to 3 arguments, got " ++ Text.decimal count
  | unexpectedIndent => "Unexpected indentation"
  | inconsistentDedent => "Indentation does not match any enclosing block"
  | unterminatedString expression =>
    "Unterminated string literal in '" ++ expression ++ "'"
  | unsupportedStatement line => "Unsupported statement '" ++ line ++ "'"
  | returnOutsideFunction => "'return' outside of a function"
  | undefinedVariable name => "Variable '" ++ name ++ "' is updated before it is assigned"
  | remark words => words

end Problem
end Offside

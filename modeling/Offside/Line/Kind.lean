/-
# Kinds of line

A line is sorted by its first word or its whole shape, and the first kind that
fits is taken. The kind says nothing about whether the line is well formed.

Key definitions: `Line.Kind`, `Line.Kind.ofText`.
-/
import Offside.Assignment
import Offside.Call
import Offside.Collection

namespace Offside
namespace Line

/-- The kinds of line. -/
inductive Kind where
  | definition
  | ifHeader
  | elifHeader
  | elseHeader
  | whileHeader
  | forHeader
  | returned
  | print
  | pass
  | breakLoop
  | continueLoop
  | call
  | assignment
  | update
  /-- An assignment whose value holds a collection literal. -/
  | collection (kind : Collection)
  | unknown
  deriving DecidableEq, Repr

namespace Kind

/-- A kind as a log record shows it. -/
def name : Kind → Text
  | definition => "Definition"
  | ifHeader => "If"
  | elifHeader => "Elif"
  | elseHeader => "Else"
  | whileHeader => "While"
  | forHeader => "For"
  | returned => "Return"
  | print => "Print"
  | pass => "Pass"
  | breakLoop => "Break"
  | continueLoop => "Continue"
  | call => "Call"
  | assignment => "Assignment"
  | update => "AugmentedAssignment"
  | collection kind => "UnsupportedLiteral(" ++ kind.name ++ ")"
  | unknown => "Unknown"

/-- Whether a line of this kind goes on with a conditional instead of starting
a statement. -/
def continuesConditional : Kind → Bool
  | elifHeader | elseHeader => true
  | _ => false

/-- The kinds that a first word gives, in the order in which they are tried. -/
def byFirstWord : List (Text × Kind) := [
  ("def", definition), ("if", ifHeader), ("elif", elifHeader), ("else", elseHeader),
  ("while", whileHeader), ("for", forHeader), ("return", returned)]

/-- The kinds of a line that is one word. -/
def byWholeText : List (Text × Kind) := [
  ("pass", pass), ("break", breakLoop), ("continue", continueLoop)]

/-- The kind of a line that assigns, going by the sides of the assignment. -/
def ofAssignment (a : Assignment) : Kind :=
  match Collection.find? a.value with
  | some kind => collection kind
  | none => if a.operator.isSome then update else assignment

/-- The kind of a line that no keyword gives. -/
def ofShape (t : Text) : Kind :=
  if isCall t then call
  else
    match Assignment.ofText? t with
    | some a => if isName a.target then ofAssignment a else unknown
    | none => unknown

/-- The kind of a trimmed line. -/
def ofText (t : Text) : Kind :=
  match byFirstWord.find? fun entry => startsWithWord entry.1 t with
  | some entry => entry.2
  | none =>
    if (callArguments? "print" t).isSome then print
    else (byWholeText.lookup t).getD (ofShape t)

end Kind
end Line
end Offside

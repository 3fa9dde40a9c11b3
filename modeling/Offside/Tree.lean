/-
# Statement trees

The statements of a block after their lines have been read. Each one keeps the
number of its line, and a line that could not be read is a statement too, with
the problem it has.

Key definitions: `Tree`, `Block`, `Tree.line`.
-/
import Offside.Header

namespace Offside

/-- A statement, with its blocks; expressions are still to be translated. -/
inductive Tree where
  | conditional (line : Nat) (branches : List (Text × List Tree)) (otherwise : Option (List Tree))
  | whileLoop (line : Nat) (condition : Text) (body : List Tree)
  | forLoop (line : Nat) (loop : RangeLoop) (body : List Tree)
  | returned (line : Nat) (value : Option Text)
  | print (line : Nat) (arguments : List Text)
  | call (line : Nat) (text : Text)
  | assignment (line : Nat) (name value : Text)
  | update (line : Nat) (name : Text) (operator : Char) (value : Text)
  | pass (line : Nat)
  | breakLoop (line : Nat)
  | continueLoop (line : Nat)
  | malformed (line : Nat) (problem : Problem)

/-- The statements of one block, in order. -/
abbrev Block := List Tree

/-- The number of the line that a statement starts on, or that its problem was
found on. -/
def Tree.line : Tree → Nat
  | conditional line _ _ | whileLoop line _ _ | forLoop line _ _ | returned line _ | print line _
  | call line _ | assignment line _ _ | update line _ _ _ | pass line | breakLoop line
  | continueLoop line | malformed line _ => line

end Offside

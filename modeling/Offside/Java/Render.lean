/-
# Rendering

A class is written as rows, one statement to a row, with four spaces for each
block around it. Methods are followed by an empty row, and the main method
comes last.

Key definitions: `Java.Row`, `Java.Statement.rows`, `Java.Class.rows`,
`Java.Class.render`.
Key theorem: `Java.render_append`.
-/
import Offside.Java.Statement

namespace Offside
namespace Java

/-- A line of the class inside some number of blocks. -/
structure Row where
  depth : Nat
  text : Text
  deriving DecidableEq, Repr

/-- A row as it is written, with its line feed. -/
def Row.render (r : Row) : Text := List.replicate (4 * r.depth) ' ' ++ r.text ++ ['\n']

/-- Rows as they are written. -/
def renderRows (rs : List Row) : Text := rs.flatMap Row.render

mutual

/-- The rows of a statement inside `depth` blocks. -/
def Statement.rows (depth : Nat) : Statement → List Row
  | .declaration type name value => [⟨depth, type.name ++ " " ++ name ++ " = " ++ value ++ ";"⟩]
  | .assignment name operator value => [⟨depth, name ++ " " ++ operator ++ " " ++ value ++ ";"⟩]
  | .conditional branches otherwise =>
    branchRows depth "" branches ++ elseRows depth otherwise ++ [⟨depth, "\x7d"⟩]
  | .whileLoop condition body =>
    ⟨depth, "while (" ++ condition ++ ") \x7b"⟩ :: bodyRows (depth + 1) body ++ [⟨depth, "\x7d"⟩]
  | .forLoop counter start stop step body =>
    ⟨depth, "for (int " ++ counter ++ " = " ++ start ++ "; " ++ counter ++ " < " ++ stop ++ "; "
      ++ counter ++ " += " ++ step ++ ") \x7b"⟩ :: bodyRows (depth + 1) body ++ [⟨depth, "\x7d"⟩]
  | .returned (some value) => [⟨depth, "return " ++ value ++ ";"⟩]
  | .returned none => [⟨depth, "return;"⟩]
  | .println value => [⟨depth, "System.out.println(" ++ value ++ ");"⟩]
  | .call text => [⟨depth, text ++ ";"⟩]
  | .breakLoop => [⟨depth, "break;"⟩]
  | .continueLoop => [⟨depth, "continue;"⟩]

/-- The rows of a block's statements inside `depth` blocks. -/
def bodyRows (depth : Nat) : List Statement → List Row
  | [] => []
  | s :: ss => s.rows depth ++ bodyRows depth ss

/-- The rows of the branches of a conditional; `lead` closes the branch
before. -/
def branchRows (depth : Nat) (lead : Text) : List (Text × List Statement) → List Row
  | [] => []
  | (condition, body) :: more =>
    ⟨depth, lead ++ "if (" ++ condition ++ ") \x7b"⟩ :: bodyRows (depth + 1) body
      ++ branchRows depth "\x7d else " more

/-- The rows of the last branch of a conditional, if it has one. -/
def elseRows (depth : Nat) : Option (List Statement) → List Row
  | none => []
  | some body => ⟨depth, "\x7d else \x7b"⟩ :: bodyRows (depth + 1) body

end

/-- The rows of a method, and the empty row after it. -/
def Method.rows (m : Method) : List Row :=
  ⟨1, "static " ++ m.returns.name ++ " " ++ m.name ++ "("
    ++ List.intercalate ", ".toList (m.parameters.map fun p => "int " ++ p) ++ ") \x7b"⟩
    :: bodyRows 2 m.body ++ [⟨1, "\x7d"⟩, ⟨0, ""⟩]

/-- The rows of a class. -/
def Class.rows (c : Class) : List Row :=
  ⟨0, "public class Main \x7b"⟩ :: c.methods.flatMap Method.rows
    ++ ⟨1, "public static void main(String[] args) \x7b"⟩ :: bodyRows 2 c.main
    ++ [⟨1, "\x7d"⟩, ⟨0, "\x7d"⟩]

/-- The text of a class. -/
def Class.render (c : Class) : Text := renderRows c.rows

theorem render_append (rs ss : List Row) : renderRows (rs ++ ss) = renderRows rs ++ renderRows ss := by
  simp [renderRows]

end Java
end Offside

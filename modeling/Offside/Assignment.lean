/-
# Assignments

A line is split at its first top-level equals sign that belongs to no
comparison. Equals signs that stand side by side are taken in pairs, from left
to right, and one after `!`, `<` or `>` is skipped. One after an arithmetic
operator updates the target with it; `**` and `//` update nothing.

Key definitions: `Assignment`, `Assignment.find?`, `Assignment.ofText?`.
-/
import Offside.Arguments

namespace Offside

/-- The two sides of an assignment. -/
structure Assignment where
  target : Text
  /-- The arithmetic operator that updates the target, if any. -/
  operator : Option Char
  value : Text
  deriving DecidableEq, Repr

namespace Assignment

/-- The operators that an assignment may update its target with. -/
def operators : List Char := ['+', '-', '*', '/', '%']

/-- The assignment in a text that stands at `n` after the characters `before`,
nearest first. An equals sign moves the reader neither into a literal nor into
a bracket, so a pair is passed over wherever it stands. -/
def find? (n : Nesting) (before : Text) : Text → Option Assignment
  | [] => none
  | '=' :: '=' :: rest => find? ((n.next '=').next '=') ('=' :: '=' :: before) rest
  | c :: rest =>
    if n.atTop && c == '=' then
      match before with
      | [] => some ⟨[], none, Text.trim rest⟩
      | op :: target =>
        if op = '!' ∨ op = '<' ∨ op = '>' then find? n (c :: before) rest
        else if operators.contains op then
          if (op = '*' ∨ op = '/') ∧ target.head? = some op then none
          else some ⟨Text.trim target.reverse, some op, Text.trim rest⟩
        else some ⟨Text.trim before.reverse, none, Text.trim rest⟩
    else find? (n.next c) (c :: before) rest

/-- The assignment that a line makes, if it makes one. -/
def ofText? (t : Text) : Option Assignment := find? {} [] t

end Assignment
end Offside

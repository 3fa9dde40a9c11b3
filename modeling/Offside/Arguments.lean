/-
# Brackets and argument lists

`Nesting` is where a reader stands with respect to literals and brackets: all
kinds of bracket share one count, and a closing bracket too many leaves it at
none. An argument list is split at the commas that stand in no literal and in
no bracket.

Key definitions: `Nesting`, `Nesting.next`, `splitAtCommas`, `splitArguments`.
Key theorem: `splitAtCommas_ne_nil`.
-/
import Offside.Quote
import Offside.Text.Blank

namespace Offside

/-- Where a reader stands with respect to literals and brackets. -/
structure Nesting where
  quote : Quote := .outside
  depth : Nat := 0
  deriving DecidableEq, Repr

/-- The bracket count after a character that is in no literal. -/
def bracketDepth (depth : Nat) (c : Char) : Nat :=
  if c = '(' ∨ c = '[' ∨ c = '\x7b' then depth + 1
  else if c = ')' ∨ c = ']' ∨ c = '\x7d' then depth - 1
  else depth

namespace Nesting

/-- Where the reader stands after one more character. -/
def next (n : Nesting) (c : Char) : Nesting where
  quote := n.quote.next c
  depth := if n.quote = .outside then bracketDepth n.depth c else n.depth

/-- Where the reader stands after a text. -/
def after (n : Nesting) (t : Text) : Nesting := t.foldl next n

/-- Whether the reader is in no literal and in no bracket. -/
def atTop (n : Nesting) : Bool := n.quote == .outside && n.depth == 0

theorem after_append (n : Nesting) (s t : Text) : n.after (s ++ t) = (n.after s).after t := by
  simp [after]

theorem after_quote : ∀ (n : Nesting) (t : Text), (n.after t).quote = n.quote.after t
  | _, [] => rfl
  | n, c :: cs => after_quote (n.next c) cs

end Nesting

/-- The pieces of a text, read from `n` on, between its top-level commas. -/
def splitAtCommas (n : Nesting) : Text → List Text
  | [] => [[]]
  | c :: cs =>
    if n.atTop && c == ',' then [] :: splitAtCommas n cs
    else
      match splitAtCommas (n.next c) cs with
      | [] => [[c]]
      | piece :: more => (c :: piece) :: more

/-- The arguments of an argument list, trimmed. White space alone holds none. -/
def splitArguments (t : Text) : List Text :=
  if Text.trim t = [] then [] else (splitAtCommas {} t).map Text.trim

theorem splitAtCommas_ne_nil (n : Nesting) : ∀ t : Text, splitAtCommas n t ≠ []
  | [] => by simp [splitAtCommas]
  | c :: cs => by
    unfold splitAtCommas
    split
    · simp
    · split <;> simp

end Offside

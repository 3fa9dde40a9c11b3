/-
# Expressions

Arithmetic and comparisons are written alike on both sides, so an expression
is translated word by word: the logical operators and the truth values are
replaced where they stand alone, outside quoted literals, and everything else
is copied.

Key definitions: `substitute`, `translateFrom`, `translate?`.
-/
import Offside.Name
import Offside.Quote

namespace Offside

/-- The words that are written otherwise in the generated code. -/
def substitutions : List (Text × Text) := [
  ("and", "&&"), ("or", "||"), ("not", "!"), ("True", "true"), ("False", "false")]

/-- A word as the generated code writes it. -/
def substitute (word : Text) : Text := (substitutions.lookup word).getD word

/-- A text read from `q` on after the letters `word` of an unfinished word,
with every whole word outside the literals substituted. -/
def translateFrom (q : Quote) (word : Text) : Text → Text
  | [] => substitute word
  | c :: cs =>
    if q = .outside ∧ isNameChar c = true then translateFrom q (word ++ [c]) cs
    else substitute word ++ c :: translateFrom (q.next c) [] cs

/-- An expression as the generated code writes it, unless a quoted literal is
left open. -/
def translate? (expression : Text) : Option Text :=
  if isClosed expression then some (translateFrom .outside [] expression) else none

end Offside

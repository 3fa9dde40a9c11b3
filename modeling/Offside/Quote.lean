/-
# Quoted literals

A double quote opens a literal and the next one closes it; inside, a
backslash takes the character after it out of account. `Quote` is where a
reader stands between two characters, and `mask` blanks the inside of every
literal, so that brackets, commas and equals signs in it are not taken for
those of the line.

Key definitions: `Quote`, `Quote.next`, `mask`, `isClosed`.
Key theorems: `maskFrom_length`, `maskFrom_append`.
-/
import Offside.Text.Basic

namespace Offside

/-- Where a reader stands with respect to quoted literals. -/
inductive Quote where
  /-- Not in a literal. -/
  | outside
  /-- In a literal. -/
  | inside
  /-- In a literal, just after a backslash. -/
  | escaped
  deriving DecidableEq, Repr

namespace Quote

/-- Where the reader stands after one more character. -/
def next : Quote → Char → Quote
  | .outside, c => if c = '"' then .inside else .outside
  | .inside, c => if c = '"' then .outside else if c = '\\' then .escaped else .inside
  | .escaped, _ => .inside

/-- Where the reader stands after a text. -/
def after (q : Quote) (t : Text) : Quote := t.foldl next q

/-- Whether a character read here is not part of a literal's inside. -/
def shows : Quote → Char → Bool
  | .outside, _ => true
  | .inside, c => c == '"'
  | .escaped, _ => false

end Quote

/-- A text read from `q` on, with every character inside a literal replaced by
a space. -/
def maskFrom (q : Quote) : Text → Text
  | [] => []
  | c :: cs => (if q.shows c then c else ' ') :: maskFrom (q.next c) cs

/-- A text with the inside of every literal replaced by spaces. -/
def mask (t : Text) : Text := maskFrom .outside t

/-- Whether every literal of a text ends within it. -/
def isClosed (t : Text) : Bool := Quote.after .outside t == .outside

theorem Quote.after_cons (q : Quote) (c : Char) (cs : Text) : q.after (c :: cs) = (q.next c).after cs := rfl

theorem Quote.after_append (q : Quote) (s t : Text) : q.after (s ++ t) = (q.after s).after t := by
  simp [Quote.after]

theorem maskFrom_length : ∀ (q : Quote) (t : Text), (maskFrom q t).length = t.length
  | _, [] => rfl
  | q, c :: cs => by simp [maskFrom, maskFrom_length (q.next c) cs]

/-- What follows a text is masked from where the text leaves the reader. -/
theorem maskFrom_append : ∀ (q : Quote) (s t : Text),
    maskFrom q (s ++ t) = maskFrom q s ++ maskFrom (q.after s) t
  | _, [], _ => rfl
  | q, c :: cs, t => by
    simp only [List.cons_append, maskFrom, maskFrom_append (q.next c) cs t]
    rfl

end Offside

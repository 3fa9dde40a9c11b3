/-
# Lines

The logical lines of a source text: the lines that hold more than white space
or a comment, each with its number, the spaces before it and its kind.

Key definitions: `Line`, `Line.display`, `Line.ofRaw?`, `linesOf`.
Key theorem: `kind_of_mem_linesOf`.
-/
import Offside.Line.Kind

namespace Offside

/-- A logical line. -/
structure Line where
  /-- The line without the white space around it. -/
  text : Text
  /-- How many spaces it starts with. -/
  indent : Nat
  /-- Its place in the source, counted from one. -/
  number : Nat
  kind : Line.Kind
  deriving DecidableEq, Repr

namespace Line

/-- A line as a log record shows it. -/
def display (l : Line) : Text :=
  l.kind.name ++ " '" ++ l.text ++ "' at line " ++ Text.decimal l.number ++ " (indent "
    ++ Text.decimal l.indent ++ ")"

/-- The logical line in a line of the source, if that is neither blank nor a
comment. -/
def ofRaw? (number : Nat) (raw : Text) : Option Line :=
  let text := Text.trim raw
  if text = [] ∨ text.head? = some '#' then none
  else some ⟨text, (raw.takeWhile (· = ' ')).length, number, Kind.ofText text⟩

end Line

/-- The logical lines of `raws`, the first of which has the number `number`. -/
def linesFrom (number : Nat) : List Text → List Line
  | [] => []
  | raw :: more => (Line.ofRaw? number raw).toList ++ linesFrom (number + 1) more

/-- The logical lines of a source text. A carriage return before a line feed
is white space, so it leaves no trace. -/
def linesOf (source : Text) : List Line := linesFrom 1 (Text.pieces '\n' source)

theorem exists_raw_of_mem_linesFrom {l : Line} : ∀ {number : Nat} {raws : List Text},
    l ∈ linesFrom number raws → ∃ raw ∈ raws, ∃ n, Line.ofRaw? n raw = some l
  | _, [], h => by simp [linesFrom] at h
  | number, raw :: more, h => by
    simp only [linesFrom, List.mem_append, Option.mem_toList] at h
    rcases h with h | h
    · exact ⟨raw, by simp, number, h⟩
    · obtain ⟨r, hr, n, hn⟩ := exists_raw_of_mem_linesFrom h
      exact ⟨r, by simp [hr], n, hn⟩

theorem kind_of_mem_linesOf {l : Line} {source : Text} (h : l ∈ linesOf source) :
    l.kind = Line.Kind.ofText l.text := by
  obtain ⟨raw, _, n, hn⟩ := exists_raw_of_mem_linesFrom h
  unfold Line.ofRaw? at hn
  simp only [Option.ite_none_left_eq_some, Option.some.injEq] at hn
  obtain ⟨_, rfl⟩ := hn
  rfl

end Offside

/-
# Outlines

An outline says which lines are indented under which. An entry is a line with
everything deeper that follows it before the next line that is not deeper; a
section is a run of entries of one indentation. The lines under an entry may
come back out only half the way, so they are a list of sections, each
shallower than the one before.

Key definitions: `Entry`, `Outline`, `Outline.cons`, `Outline.ofLines`.
Key theorem: `Outline.lines_ofLines`.
-/
import Offside.Line.Basic

namespace Offside

/-- A line and the sections under it. -/
inductive Entry where
  | mk (line : Line) (under : List (List Entry))

/-- Entries of one indentation that follow each other. -/
abbrev Section := List Entry

/-- Sections that follow each other, each shallower than the one before. -/
abbrev Outline := List Section

namespace Entry

/-- The line of an entry. -/
def line : Entry → Line
  | mk l _ => l

/-- The sections under the line of an entry. -/
def under : Entry → Outline
  | mk _ o => o

end Entry

/-- The indentation of a section. -/
def Section.indent? (s : Section) : Option Nat := s.head?.map fun e => e.line.indent

namespace Outline

/-- An outline with one more line before it: the deeper sections come under
the line, and a section of the line's own indentation goes on with it. -/
def cons (l : Line) (o : Outline) : Outline :=
  let deeper : Section → Bool := fun s => s.indent?.any (l.indent < ·)
  let e : Entry := .mk l (o.takeWhile deeper)
  match o.dropWhile deeper with
  | [] => [[e]]
  | s :: more => if s.indent? = some l.indent then (e :: s) :: more else [e] :: s :: more

/-- The outline of a list of lines. -/
def ofLines (ls : List Line) : Outline := ls.foldr cons []

end Outline

mutual

/-- The lines of an entry, from the top. -/
def Entry.lines : Entry → List Line
  | .mk l o => l :: Outline.lines o

/-- The lines of a section, from the top. -/
def Section.lines : List Entry → List Line
  | [] => []
  | e :: es => e.lines ++ Section.lines es

/-- The lines of an outline, from the top. -/
def Outline.lines : List (List Entry) → List Line
  | [] => []
  | s :: more => Section.lines s ++ Outline.lines more

end

namespace Outline

theorem lines_append : ∀ o p : Outline, lines (o ++ p) = lines o ++ lines p
  | [], _ => by simp [lines]
  | s :: more, p => by simp [lines, lines_append more p]

theorem lines_cons (l : Line) (o : Outline) : lines (cons l o) = l :: lines o := by
  unfold cons
  generalize hd : (fun s : Section => s.indent?.any (l.indent < ·)) = deeper
  have hsplit : lines o = lines (o.takeWhile deeper) ++ lines (o.dropWhile deeper) := by
    rw [← lines_append, List.takeWhile_append_dropWhile]
  simp only
  cases h : o.dropWhile deeper with
  | nil => simp [lines, Section.lines, Entry.lines, hsplit, h]
  | cons s more =>
    rw [hsplit, h]
    simp only
    split <;> simp [lines, Section.lines, Entry.lines]

/-- **An outline holds the lines it is made of, each once and in order.** -/
theorem lines_ofLines (ls : List Line) : lines (ofLines ls) = ls := by
  unfold ofLines
  induction ls with
  | nil => simp [lines]
  | cons l ls ih => rw [List.foldr_cons, lines_cons, ih]

end Outline
end Offside

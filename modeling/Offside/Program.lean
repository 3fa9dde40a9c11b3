/-
# Programs

The lines of a program belong to its functions or to its entry point. A
definition that can be read, and that stands in no other definition's body,
owns the run of deeper lines after it; every other line is the entry point's.
Of two functions of one name the later is kept, in the place of the earlier.

Key definitions: `Function`, `sortLines`, `Program`, `Program.ofLines`,
`Program.records`.
-/
import Offside.Header
import Offside.Line.Basic
import Offside.Log
import Offside.OrderedMap

namespace Offside

/-- A function and the lines of its body, which are still to be read. -/
structure Function where
  signature : Signature
  /-- The number of the line that defines it. -/
  line : Nat
  body : List Line
  deriving DecidableEq, Repr

/-- The signature in a line that defines a function. -/
def Line.signature? (l : Line) : Option Signature :=
  if l.kind = .definition then Signature.ofText? l.text else none

/-- Lines sorted after a definition at the indentation `owner`, if there is
one: those that still belong to its body, the functions, and the lines of the
entry point. -/
def sortLines (owner : Option Nat) : List Line → List Line × List Function × List Line
  | [] => ([], [], [])
  | l :: ls =>
    if owner.any (· < l.indent) then
      let (body, functions, entry) := sortLines owner ls
      (l :: body, functions, entry)
    else
      match l.signature? with
      | some s =>
        let (body, functions, entry) := sortLines (some l.indent) ls
        ([], ⟨s, l.number, body⟩ :: functions, entry)
      | none =>
        let (_, functions, entry) := sortLines none ls
        ([], functions, l :: entry)

/-- The functions of a program by name, and the lines of its entry point. -/
structure Program where
  functions : OrderedMap Text Function
  entryPoint : List Line
  deriving DecidableEq, Repr

/-- Functions by name, the later of two in the place of the earlier. -/
def Function.byName (fs : List Function) : OrderedMap Text Function :=
  fs.foldl (fun m f => m.insert f.signature.name f) []

/-- The warnings about functions that take the place of an earlier one among
`earlier` or before them. -/
def Function.redefinitions (earlier : List Text) : List Function → List Record
  | [] => []
  | f :: fs =>
    let name := f.signature.name
    if name ∈ earlier then
      ⟨.warn, "Function '" ++ name ++ "' redefined on line " ++ Text.decimal f.line
        ++ ", the later definition is used"⟩ :: redefinitions earlier fs
    else redefinitions (name :: earlier) fs

namespace Program

/-- The functions and the entry point among the lines of a program. -/
def ofLines (ls : List Line) : Program :=
  let (_, functions, entry) := sortLines none ls
  ⟨Function.byName functions, entry⟩

/-- What sorting the lines of a program writes to the log. -/
def records (ls : List Line) : List Record :=
  let p := ofLines ls
  Function.redefinitions [] (sortLines none ls).2.1 ++
    [⟨.debug, "Extracted " ++ Text.decimal p.functions.length ++ " function(s) and "
      ++ Text.decimal p.entryPoint.length ++ " entry point line(s)"⟩]

end Program

/-- Without an open definition no line belongs to a body. -/
theorem sortLines_none : ∀ ls : List Line, (sortLines none ls).1 = []
  | [] => rfl
  | l :: ls => by
    unfold sortLines
    simp only [Option.any_none, Bool.false_eq_true, if_false]
    cases l.signature? <;> rfl

end Offside

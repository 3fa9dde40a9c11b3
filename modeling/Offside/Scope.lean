/-
# Scopes

A symbol is a variable with its type and the line that introduced it. A frame
holds the symbols of one block, a scope the frames of a block and of those
around it, innermost first. What a frame has introduced it keeps: introducing
the name again changes nothing.

Key definitions: `Symbol`, `Frame`, `Frame.declare`, `Scope`, `Scope.find?`,
`Scope.declare`.
Key theorems: `Frame.find?_declare`, `Scope.find?_declare`.
-/
import Offside.Log
import Offside.ValueType

namespace Offside

/-- A variable. -/
structure Symbol where
  name : Text
  type : ValueType
  /-- The line that introduced it. -/
  line : Nat
  deriving DecidableEq, Repr

/-- The symbols of one block. -/
abbrev Frame := List Symbol

/-- The frames of a block and of those around it, innermost first. -/
abbrev Scope := List Frame

namespace Frame

/-- The symbol of a name. -/
def find? (f : Frame) (name : Text) : Option Symbol :=
  List.find? (fun s => s.name = name) f

/-- The frame with a symbol, unless its name has one already. -/
def declare (f : Frame) (s : Symbol) : Frame :=
  if (f.find? s.name).isSome then f else s :: f

/-- What introducing a symbol writes to the log. -/
def records (f : Frame) (s : Symbol) : List Record :=
  match f.find? s.name with
  | some old => [⟨.trace, "'" ++ s.name ++ "' on line " ++ Text.decimal s.line
      ++ " keeps the type " ++ old.type.name ++ " declared on line " ++ Text.decimal old.line⟩]
  | none => []

/-- **The first symbol of a name stays.** -/
theorem find?_declare (f : Frame) (s : Symbol) (name : Text) :
    (f.declare s).find? name = (f.find? name).or (if s.name = name then some s else none) := by
  unfold declare
  by_cases h : s.name = name
  · subst h
    cases hf : f.find? s.name with
    | none => simp [find?]
    | some old => simp [hf]
  · cases hf : f.find? s.name with
    | none => simp [find?, h]
    | some old => simp [h]

end Frame

namespace Scope

/-- The symbol that a name refers to, from the innermost frame that has one. -/
def find? : Scope → Text → Option Symbol
  | [], _ => none
  | f :: fs, name => (f.find? name).or (find? fs name)

/-- Whether a name is visible. -/
def sees (fs : Scope) (name : Text) : Bool := (fs.find? name).isSome

/-- The scope with a symbol in its innermost frame. -/
def declare : Scope → Symbol → Scope
  | [], s => [[s]]
  | f :: fs, s => f.declare s :: fs

/-- What introducing a symbol writes to the log. -/
def records : Scope → Symbol → List Record
  | [], _ => []
  | f :: _, s => f.records s

theorem find?_declare (f : Frame) (fs : Scope) (s : Symbol) (name : Text) :
    find? (declare (f :: fs) s) name =
      ((f.find? name).or (if s.name = name then some s else none)).or (find? fs name) := by
  simp [declare, find?, Frame.find?_declare]

end Scope
end Offside

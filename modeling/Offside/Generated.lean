/-
# Diagnostics and generated fragments

A diagnostic is a problem with the number of its line, and a report lists
diagnostics one to a line under a heading. A generated value is a fragment of
output or the diagnostics of what stands in its way; joining generated values
keeps the diagnostics of every one that failed.

Key definitions: `Diagnostic`, `report`, `Generated`, `Generated.both`,
`Generated.all`.
Key theorem: `Generated.all_eq_ok_iff`.
-/
import Offside.Problem

namespace Offside

/-- A problem and the line it was found on. -/
structure Diagnostic where
  line : Nat
  problem : Problem
  deriving DecidableEq, Repr

namespace Diagnostic

/-- The sentence of a diagnostic's problem. -/
def message (d : Diagnostic) : Text := d.problem.message

/-- A diagnostic as a report lists it. -/
def display (d : Diagnostic) : Text := "Line " ++ Text.decimal d.line ++ ": " ++ d.message

end Diagnostic

/-- The heading of a report. -/
def reportHeading : Text := "❌ Errors:"

/-- The heading, then one line for each diagnostic. -/
def report (ds : List Diagnostic) : Text :=
  reportHeading ++ ['\n'] ++ ds.flatMap fun d => d.display ++ ['\n']

/-- A fragment of output, or the diagnostics of what stands in its way. -/
abbrev Generated (α : Type) := Except (List Diagnostic) α

namespace Generated

variable {α β : Type}

/-- A failure for one problem. -/
def fault (line : Nat) (problem : Problem) : Generated α := .error [⟨line, problem⟩]

/-- The diagnostics of a failure, none for a fragment. -/
def diagnostics : Generated α → List Diagnostic
  | .ok _ => []
  | .error ds => ds

/-- Two fragments as a pair, or the diagnostics of both. -/
def both : Generated α → Generated β → Generated (α × β)
  | .ok a, .ok b => .ok (a, b)
  | .error ds, .error es => .error (ds ++ es)
  | .error ds, .ok _ => .error ds
  | .ok _, .error es => .error es

/-- The fragments of a list of generated values. -/
def fragments : List (Generated α) → List α
  | [] => []
  | .ok a :: gs => a :: fragments gs
  | .error _ :: gs => fragments gs

/-- All fragments in order, unless some diagnostic was gathered. -/
def all (gs : List (Generated α)) : Generated (List α) :=
  match gs.flatMap diagnostics with
  | [] => .ok (fragments gs)
  | d :: ds => .error (d :: ds)

theorem all_eq_ok_iff (gs : List (Generated α)) (as : List α) :
    all gs = .ok as ↔ (∀ g ∈ gs, diagnostics g = []) ∧ fragments gs = as := by
  unfold all
  rw [← List.flatMap_eq_nil_iff]
  cases h : gs.flatMap diagnostics with
  | nil => simp
  | cons d ds => simp

end Generated
end Offside

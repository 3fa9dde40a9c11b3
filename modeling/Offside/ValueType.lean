/-
# Value types

The types that variables and functions are declared with. The order is the
one in which a function's return type is chosen when its returns disagree.

Key definitions: `ValueType`, `ValueType.rank`, `ValueType.highest`.
Key theorem: `ValueType.rank_le_highest`.
-/
import Offside.Text.Basic

namespace Offside

/-- The types of values, the lowest first. -/
inductive ValueType where
  | void
  | int
  | boolean
  | double
  | string
  deriving DecidableEq, Repr

namespace ValueType

/-- A type as it is declared. -/
def name : ValueType → Text
  | void => "void"
  | int => "int"
  | boolean => "boolean"
  | double => "double"
  | string => "String"

/-- The place of a type among the others, the lowest first. -/
def rank : ValueType → Nat
  | void => 0
  | int => 1
  | boolean => 2
  | double => 3
  | string => 4

/-- The higher of two types. -/
def max (a b : ValueType) : ValueType := if a.rank < b.rank then b else a

/-- The highest of some types, `void` if there are none. -/
def highest (ts : List ValueType) : ValueType := ts.foldr max void

/-- Each type once, where it first occurs. -/
def distinct (ts : List ValueType) : List ValueType :=
  ts.foldl (fun seen t => if t ∈ seen then seen else seen ++ [t]) []

/-- The types from the lowest to the highest. -/
def sorted (ts : List ValueType) : List ValueType :=
  ts.mergeSort fun a b => a.rank ≤ b.rank

theorem rank_max (a b : ValueType) : (max a b).rank = Nat.max a.rank b.rank := by
  cases a <;> cases b <;> rfl

theorem rank_le_highest : ∀ {ts : List ValueType} {t : ValueType}, t ∈ ts →
    t.rank ≤ (highest ts).rank
  | s :: ts, t, h => by
    have hmax : (highest (s :: ts)).rank = Nat.max s.rank (highest ts).rank := rank_max s (highest ts)
    rw [hmax]
    rcases List.mem_cons.1 h with rfl | h
    · exact Nat.le_max_left _ _
    · exact Nat.le_trans (rank_le_highest h) (Nat.le_max_right _ _)

end ValueType
end Offside

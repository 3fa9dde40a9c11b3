/-
# Ranges of code points

A character property is a table of ranges of code points, in increasing order.
The search stops at the first range that starts above the code point, so a
small code point costs a few comparisons.

Key definition: `Ranges.has`.
-/

namespace Offside

/-- The first and last code points of each range, in increasing order. -/
abbrev Ranges := List (Nat × Nat)

namespace Ranges

/-- Whether a code point lies in one of the ranges. -/
def has : Ranges → Nat → Bool
  | [], _ => false
  | (first, last) :: more, n => decide (first ≤ n) && (decide (n ≤ last) || has more n)

/-- A code point that the table has lies in one of its ranges. -/
theorem exists_of_has : ∀ {table : Ranges} {n : Nat}, has table n = true →
    ∃ r ∈ table, r.1 ≤ n ∧ n ≤ r.2
  | [], n, h => by simp [has] at h
  | (first, last) :: more, n, h => by
    simp only [has, Bool.and_eq_true, decide_eq_true_eq, Bool.or_eq_true] at h
    rcases h.2 with hl | hm
    · exact ⟨(first, last), by simp, h.1, hl⟩
    · obtain ⟨r, hr, hb⟩ := exists_of_has hm
      exact ⟨r, by simp [hr], hb⟩

end Ranges
end Offside

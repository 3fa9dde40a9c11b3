/-
# Simple and malformed statements

The statements of a block that have no block of their own, at any depth and
from the top: its leaves. A line that cannot be read is a malformed statement,
which is one of them, and `Block.problems` lists these, each with the number of
its line. So the problems of a block are those of its leaves.

Key definitions: `Block.problems`, `Block.leaves`.
Key theorems: `Block.problems_append`, `Block.leaves_append`,
`Block.malformed_mem_leaves`.
-/
import Offside.Generated
import Offside.Tree

namespace Offside

/-! ### Malformed statements -/

mutual

/-- The problems of the malformed statements in a statement, at any depth. -/
def Tree.problems : Tree → List Diagnostic
  | .conditional _ branches otherwise => problemsOfBranches branches ++ problemsOfElse otherwise
  | .whileLoop _ _ body => Block.problems body
  | .forLoop _ _ body => Block.problems body
  | .malformed line problem => [⟨line, problem⟩]
  | .returned _ _ | .print _ _ | .call _ _ | .assignment _ _ _ | .update _ _ _ _ | .pass _
  | .breakLoop _ | .continueLoop _ => []

/-- The problems of the malformed statements in a block, at any depth. -/
def Block.problems : List Tree → List Diagnostic
  | [] => []
  | t :: ts => t.problems ++ Block.problems ts

/-- The problems of the malformed statements in the branches of a
conditional. -/
def problemsOfBranches : List (Text × List Tree) → List Diagnostic
  | [] => []
  | (_, body) :: more => Block.problems body ++ problemsOfBranches more

/-- The problems of the malformed statements in the last branch of a
conditional, if it has one. -/
def problemsOfElse : Option (List Tree) → List Diagnostic
  | none => []
  | some body => Block.problems body

end

theorem Block.problems_append : ∀ a b : Block, Block.problems (a ++ b) = Block.problems a ++ Block.problems b
  | [], _ => rfl
  | t :: a, b => by
    rw [List.cons_append, Block.problems, Block.problems, Block.problems_append a b, List.append_assoc]

theorem problemsOfBranches_append : ∀ a b : List (Text × Block),
    problemsOfBranches (a ++ b) = problemsOfBranches a ++ problemsOfBranches b
  | [], _ => rfl
  | (_, body) :: a, b => by
    rw [List.cons_append, problemsOfBranches, problemsOfBranches, problemsOfBranches_append a b,
      List.append_assoc]

/-! ### Simple statements -/

mutual

/-- The simple statements in a statement, at any depth. -/
def Tree.leaves : Tree → List Tree
  | .conditional _ branches otherwise => leavesOfBranches branches ++ leavesOfElse otherwise
  | .whileLoop _ _ body => Block.leaves body
  | .forLoop _ _ body => Block.leaves body
  | .returned line value => [.returned line value]
  | .print line arguments => [.print line arguments]
  | .call line text => [.call line text]
  | .assignment line name value => [.assignment line name value]
  | .update line name operator value => [.update line name operator value]
  | .pass line => [.pass line]
  | .breakLoop line => [.breakLoop line]
  | .continueLoop line => [.continueLoop line]
  | .malformed line problem => [.malformed line problem]

/-- The simple statements in a block, at any depth. -/
def Block.leaves : List Tree → List Tree
  | [] => []
  | t :: ts => t.leaves ++ Block.leaves ts

/-- The simple statements in the branches of a conditional. -/
def leavesOfBranches : List (Text × List Tree) → List Tree
  | [] => []
  | (_, body) :: more => Block.leaves body ++ leavesOfBranches more

/-- The simple statements in the last branch of a conditional, if it has
one. -/
def leavesOfElse : Option (List Tree) → List Tree
  | none => []
  | some body => Block.leaves body

end

theorem Block.leaves_append : ∀ a b : Block, Block.leaves (a ++ b) = Block.leaves a ++ Block.leaves b
  | [], _ => rfl
  | t :: a, b => by
    rw [List.cons_append, Block.leaves, Block.leaves, Block.leaves_append a b, List.append_assoc]

theorem leavesOfBranches_append : ∀ a b : List (Text × Block),
    leavesOfBranches (a ++ b) = leavesOfBranches a ++ leavesOfBranches b
  | [], _ => rfl
  | (_, body) :: a, b => by
    rw [List.cons_append, leavesOfBranches, leavesOfBranches, leavesOfBranches_append a b, List.append_assoc]

-- The recursion is that of the leaves.
mutual

theorem Tree.malformed_mem_leaves : ∀ (t : Tree), ∀ d ∈ t.problems, .malformed d.line d.problem ∈ t.leaves
  | .conditional line branches otherwise, d, hd => by
    rw [Tree.problems, List.mem_append] at hd
    rw [Tree.leaves, List.mem_append]
    exact hd.imp (malformed_mem_leavesOfBranches branches d) (malformed_mem_leavesOfElse otherwise d)
  | .whileLoop line condition body, d, hd => Block.malformed_mem_leaves body d hd
  | .forLoop line loop body, d, hd => Block.malformed_mem_leaves body d hd
  | .malformed line problem, d, hd => by
    rw [Tree.problems, List.mem_singleton] at hd
    rw [hd]
    exact List.mem_singleton_self _
  | .returned _ _, _, hd | .print _ _, _, hd | .call _ _, _, hd | .assignment _ _ _, _, hd
  | .update _ _ _ _, _, hd | .pass _, _, hd | .breakLoop _, _, hd | .continueLoop _, _, hd =>
    absurd hd List.not_mem_nil

/-- **A problem of a block is that of a malformed leaf.** -/
theorem Block.malformed_mem_leaves : ∀ (ts : List Tree), ∀ d ∈ Block.problems ts,
    .malformed d.line d.problem ∈ Block.leaves ts
  | [], _, hd => absurd hd List.not_mem_nil
  | t :: ts, d, hd => by
    rw [Block.problems, List.mem_append] at hd
    rw [Block.leaves, List.mem_append]
    exact hd.imp (t.malformed_mem_leaves d) (Block.malformed_mem_leaves ts d)

theorem malformed_mem_leavesOfBranches : ∀ (branches : List (Text × List Tree)),
    ∀ d ∈ problemsOfBranches branches, .malformed d.line d.problem ∈ leavesOfBranches branches
  | [], _, hd => absurd hd List.not_mem_nil
  | (_, body) :: more, d, hd => by
    rw [problemsOfBranches, List.mem_append] at hd
    rw [leavesOfBranches, List.mem_append]
    exact hd.imp (Block.malformed_mem_leaves body d) (malformed_mem_leavesOfBranches more d)

theorem malformed_mem_leavesOfElse : ∀ (otherwise : Option (List Tree)),
    ∀ d ∈ problemsOfElse otherwise, .malformed d.line d.problem ∈ leavesOfElse otherwise
  | none, _, hd => absurd hd List.not_mem_nil
  | some body, d, hd => Block.malformed_mem_leaves body d hd

end

end Offside

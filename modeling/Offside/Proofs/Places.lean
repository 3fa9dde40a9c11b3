/-
# Places in a block

A place in a block is a point between its statements, or between those of a
block inside it: the statements before it in its own block, and those of every
block around it up to the one that holds it. The parts of a block are its
statements in the order of their lines, with a part of its own for every
branch of a conditional, each at its place.

Key definitions: `Place`, `Part`, `Tree.parts`, `Block.parts`.
-/
import Offside.Tree

namespace Offside

/-- A point in a block or in a block inside it. -/
structure Place where
  /-- The statements before it in its own block. -/
  before : Block
  /-- For each block around that, innermost first, its statements up to the
  one that holds the place, and this one too. -/
  outer : List Block

namespace Place

/-- The start of a block that stands in no other. -/
def top : Place := ⟨[], []⟩

/-- The place after the statement `t`. -/
def next (p : Place) (t : Tree) : Place := ⟨p.before ++ [t], p.outer⟩

/-- The start of a block inside the statement `t`. -/
def inside (p : Place) (t : Tree) : Place := ⟨[], (p.before ++ [t]) :: p.outer⟩

/-- How many blocks are around the block of a place. -/
def depth (p : Place) : Nat := p.outer.length

/-- The blocks of a place, innermost first, as far as they come before it. -/
def blocks (p : Place) : List Block := p.before :: p.outer

@[simp] theorem depth_inside (p : Place) (t : Tree) : (p.inside t).depth = p.depth + 1 := rfl

@[simp] theorem blocks_next (p : Place) (t : Tree) : (p.next t).blocks = (p.before ++ [t]) :: p.outer := rfl

end Place

/-- What one line contributes to a block. -/
inductive Part where
  /-- The first branch of a conditional. -/
  | ifThen (condition : Text)
  /-- A further branch of a conditional. -/
  | elseIf (condition : Text)
  /-- The last branch of a conditional, which has no condition. -/
  | orElse
  /-- A statement that is no conditional, with its body if it has one. -/
  | statement (t : Tree)

namespace Part

/-- Whether a part is a `pass`, of which nothing is generated. -/
def isPass : Part → Bool
  | statement (.pass _) => true
  | _ => false

end Part

mutual

/-- The parts of a statement that stands at `p`, with their places. -/
def Tree.parts (p : Place) : Tree → List (Place × Part)
  | .conditional line branches otherwise =>
    partsOfBranches p (p.inside (.conditional line branches otherwise)) true branches ++
      partsOfElse p (p.inside (.conditional line branches otherwise)) otherwise
  | .whileLoop line condition body =>
    (p, .statement (.whileLoop line condition body)) ::
      Block.parts (p.inside (.whileLoop line condition body)) body
  | .forLoop line loop body =>
    (p, .statement (.forLoop line loop body)) :: Block.parts (p.inside (.forLoop line loop body)) body
  | .returned line value => [(p, .statement (.returned line value))]
  | .print line arguments => [(p, .statement (.print line arguments))]
  | .call line text => [(p, .statement (.call line text))]
  | .assignment line name value => [(p, .statement (.assignment line name value))]
  | .update line name operator value => [(p, .statement (.update line name operator value))]
  | .pass line => [(p, .statement (.pass line))]
  | .breakLoop line => [(p, .statement (.breakLoop line))]
  | .continueLoop line => [(p, .statement (.continueLoop line))]
  | .malformed line problem => [(p, .statement (.malformed line problem))]

/-- The parts of the statements from `p` on. -/
def Block.parts (p : Place) : List Tree → List (Place × Part)
  | [] => []
  | t :: ts => t.parts p ++ Block.parts (p.next t) ts

/-- The parts of the branches of a conditional that stands at `p`; their
bodies start at `inner`. -/
def partsOfBranches (p inner : Place) (first : Bool) : List (Text × List Tree) → List (Place × Part)
  | [] => []
  | (condition, body) :: more =>
    (p, if first then .ifThen condition else .elseIf condition) :: Block.parts inner body ++
      partsOfBranches p inner false more

/-- The parts of the last branch of a conditional, if it has one. -/
def partsOfElse (p inner : Place) : Option (List Tree) → List (Place × Part)
  | none => []
  | some body => (p, .orElse) :: Block.parts inner body

end

end Offside

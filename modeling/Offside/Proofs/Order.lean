/-
# The order of statements

From the top, the statements of a block and of the blocks inside it have the
numbers of lines of the block, in the order of the lines and each at most once
(`numbers_readSection`). Only a dedent that is reported before a tier of lines
has the number of a line that is read after it, the first of the tier. So lines
of increasing numbers are read as statements of increasing numbers, and all
lines are taken off the queue (`reading_of_queue`).

Key definitions: `Tree.numbers`, `Block.numbers`, `marks`, `Precedes`.
Key theorems: `numbers_of_step`, `numbers_readSection`, `marks_sublist`,
`reading_of_queue`.
-/
import Offside.Proofs.Taking

namespace Offside

mutual

/-- The numbers of a statement and of the statements in it, from the top. -/
def Tree.numbers : Tree → List Nat
  | .conditional line branches otherwise => line :: (numbersOfBranches branches ++ numbersOfElse otherwise)
  | .whileLoop line _ body => line :: Block.numbers body
  | .forLoop line _ body => line :: Block.numbers body
  | .returned line _ | .print line _ | .call line _ | .assignment line _ _ | .update line _ _ _
  | .pass line | .breakLoop line | .continueLoop line | .malformed line _ => [line]

/-- The numbers of the statements of a block and of those in them, from the
top. -/
def Block.numbers : List Tree → List Nat
  | [] => []
  | t :: ts => t.numbers ++ Block.numbers ts

/-- The numbers of the statements in the branches of a conditional. -/
def numbersOfBranches : List (Text × List Tree) → List Nat
  | [] => []
  | (_, body) :: more => Block.numbers body ++ numbersOfBranches more

/-- The numbers of the statements in the last branch of a conditional, if it
has one. -/
def numbersOfElse : Option (List Tree) → List Nat
  | none => []
  | some body => Block.numbers body

end

theorem Block.numbers_append : ∀ a b : Block, Block.numbers (a ++ b) = Block.numbers a ++ Block.numbers b
  | [], _ => rfl
  | t :: a, b => by
    rw [List.cons_append, Block.numbers, Block.numbers, Block.numbers_append a b, List.append_assoc]

theorem numbersOfBranches_append : ∀ a b : List (Text × Block),
    numbersOfBranches (a ++ b) = numbersOfBranches a ++ numbersOfBranches b
  | [], _ => rfl
  | (_, body) :: a, b => by
    rw [List.cons_append, numbersOfBranches, numbersOfBranches, numbersOfBranches_append a b,
      List.append_assoc]

/-! ### One entry -/

theorem numbers_strays : ∀ (inner : Option Nat) (ls : List Line),
    Block.numbers (strays inner ls) = ls.map Line.number
  | _, [] => rfl
  | _, l :: ls => congrArg (l.number :: ·) (numbers_strays none ls)

theorem Line.numbers_of_whole {l : Line} {t : Tree} (hs : l.sentence? = some (.whole t)) :
    t.numbers = [l.number] := by
  cases speaks_of_sentence hs with
  | _ => rfl

namespace Entry

/-- The numbers of what an entry comes to, those of the conditional that may go
on last. -/
def Step.numbers (st : Step) : List Nat := Block.numbers st.1 ++ Block.numbers (closeChain st.2)

/-- The body of an entry and then the lines that it leaves over come in the
order of the lines under the entry. -/
def BodyInOrder (e : Entry) : Prop :=
  ∀ b, e.body = some (some b) →
    List.Sublist (Block.numbers b ++ e.leftover.map Line.number) ((Outline.lines e.under).map Line.number)

section Steps

variable {e : Entry} {chain : Option Chain} {c : Chain} {st : Step} {b : Block}

theorem numbers_started (trees : Block) (next : Option Chain) :
    Step.numbers (closeChain chain ++ trees, next) =
      Block.numbers (closeChain chain) ++ Step.numbers (trees, next) := by
  rw [Step.numbers, Step.numbers, Block.numbers_append, List.append_assoc]

theorem numbers_ended (t : Tree) (trees : Block) :
    Step.numbers (t :: trees, none) = t.numbers ++ Block.numbers trees := by
  rw [Step.numbers, closeChain, Block.numbers, Block.numbers, List.append_nil]

theorem numbers_close (c : Chain) (otherwise : Option Block) :
    (c.close otherwise).numbers = (c.close none).numbers ++ numbersOfElse otherwise := by
  simp [Chain.close, Tree.numbers, numbersOfElse]

theorem numbers_add_close (c : Chain) (condition : Text) (b : Block) :
    ((c.add condition b).close none).numbers = (c.close none).numbers ++ Block.numbers b := by
  simp [Chain.add, Chain.close, Tree.numbers, numbersOfBranches_append, numbersOfBranches, numbersOfElse]

/-- A conditional that may go on comes before the lines that the body of its
last branch leaves over. -/
theorem numbers_goOn (e : Entry) (c : Chain) :
    Step.numbers (e.goOn c) = (c.close none).numbers ++ e.leftover.map Line.number := by
  rcases goOn_cases e c with ⟨hleft, hgo⟩ | ⟨-, hgo⟩
  · rw [hgo, hleft, Step.numbers, closeChain, Block.numbers, Block.numbers, Block.numbers]
    simp
  · rw [hgo, numbers_ended, numbers_strays]

theorem numbers_closeChain (c : Chain) : Block.numbers (closeChain (some c)) = (c.close none).numbers := by
  rw [closeChain, Block.numbers, Block.numbers, List.append_nil]

/-- **What an entry comes to stays in the order of the lines**, after the
conditional before it. -/
theorem numbers_of_step (h : e.step chain e.body = some st) (hbody : e.BodyInOrder) :
    List.Sublist st.numbers (Block.numbers (closeChain chain) ++ e.lines.map Line.number) := by
  rw [e.lines_eq, List.map_cons]
  have hproblem (p : Problem) : List.Sublist (Step.numbers ([.malformed e.line.number p], none))
      (e.line.number :: (Outline.lines e.under).map Line.number) := by
    rw [numbers_ended]
    exact (List.nil_sublist _).cons_cons _
  have hheads := (Outline.heads_sublist e.under).map Line.number
  -- the line of an entry comes first, then its body, then what that leaves over
  cases outcome_of_step h with
  | whole hs =>
    rw [numbers_started, numbers_ended, Line.numbers_of_whole hs, numbers_strays]
    exact (hheads.cons_cons _).append_left _
  | refused hs | bodyless hk hb =>
    rw [numbers_started]
    exact (hproblem _).append_left _
  | whileLoop hs hb | forLoop hs hb =>
    rw [numbers_started, numbers_ended, Tree.numbers, numbers_strays]
    exact ((hbody _ hb).cons_cons _).append_left _
  | @branch _ condition b hs hb =>
    have hfirst : (Chain.close ⟨e.line.number, e.inner.getD 0, [(condition, b)]⟩ none).numbers =
        e.line.number :: Block.numbers b := by
      simp [Chain.close, Tree.numbers, numbersOfBranches, numbersOfElse]
    rw [numbers_started, numbers_goOn, hfirst]
    exact ((hbody b hb).cons_cons _).append_left _
  | lost hf => exact List.sublist_append_of_sublist_right (hproblem _)
  | @elseIf c condition b hk hr hb =>
    rw [numbers_closeChain, numbers_goOn, numbers_add_close, List.append_assoc]
    exact ((hbody b hb).cons _).append_left _
  | @orElse c rest b hk hr _ hb =>
    rw [numbers_closeChain, numbers_ended, numbers_close, numbers_strays, numbersOfElse, List.append_assoc]
    exact ((hbody b hb).cons _).append_left _

end Steps
end Entry

/-! ### Whole sections -/

mutual

theorem Entry.bodyInOrder : ∀ e : Entry, e.BodyInOrder
  | .mk _ [] => by
    intro b hb
    simp [Entry.body] at hb
  | .mk _ (s :: more) => by
    intro b hb
    have hread : readSection none s = some b := by simpa [Entry.body] using hb
    rw [Entry.under, Outline.lines, List.map_append]
    exact (numbers_readSection s hread).append ((Outline.heads_sublist more).map Line.number)

/-- **What a section is read as stays in the order of its lines**, after the
conditional before it. -/
theorem numbers_readSection : ∀ (s : List Entry) {chain : Option Chain} {b : Block},
    readSection chain s = some b →
    List.Sublist (Block.numbers b) (Block.numbers (closeChain chain) ++ (Section.lines s).map Line.number)
  | [], chain, b, h => by
    rw [readSection] at h
    cases h
    exact List.sublist_append_left ..
  | e :: es, chain, b, h => by
    obtain ⟨trees, next, more, hstep, hmore, rfl⟩ := exists_step_of_readSection h
    have hfirst := Entry.numbers_of_step hstep e.bodyInOrder
    have hrest := numbers_readSection es hmore
    rw [Block.numbers_append, Section.lines, List.map_append, ← List.append_assoc]
    calc List.Sublist (Block.numbers trees ++ Block.numbers more)
          (Block.numbers trees ++ (Block.numbers (closeChain next) ++ (Section.lines es).map Line.number)) :=
            hrest.append_left _
      List.Sublist _ (Block.numbers (closeChain chain) ++ e.lines.map Line.number ++
          (Section.lines es).map Line.number) := by
            rw [← List.append_assoc]
            exact hfirst.append_right _

end

/-! ### Whole queues -/

/-- What the tiers of an outline are: together they have its lines, each has one
at least, and their statements come in the order of the lines. -/
theorem Outline.tiers?_spec : ∀ (o : Outline) {k : Nat} {tiers : List Tier}, Outline.Nested k o →
    o.tiers? = some tiers →
    tiers.flatMap Tier.lines = Outline.lines o ∧
      ∀ t ∈ tiers, t.lines ≠ [] ∧ List.Sublist (Block.numbers t.block) (t.lines.map Line.number)
  | [], _, tiers, _, h => by
    obtain rfl : [] = tiers := Option.some.inj h
    exact ⟨rfl, by simp⟩
  | s :: more, _, tiers, hn, h => by
    obtain ⟨⟨i, hi, -⟩, hmore⟩ := hn
    obtain ⟨b, hb, h⟩ := Option.bind_eq_some_iff.1 h
    obtain ⟨rest, hrest, rfl⟩ := Option.map_eq_some_iff.1 h
    obtain ⟨hlines, htiers⟩ := Outline.tiers?_spec more hmore hrest
    have hne : Section.lines s ≠ [] := by
      cases s with
      | nil => cases hi
      | cons e es => simp [Section.lines, e.lines_eq]
    refine ⟨?_, List.forall_mem_cons.2 ⟨⟨hne, numbers_readSection s hb⟩, htiers⟩⟩
    rw [List.flatMap_cons, hlines, Outline.lines]

/-- The number of a statement, and whether it is the report of a dedent before
a tier. -/
structure Mark where
  isDedent : Bool
  number : Nat

/-- The numbers of the statements of a tier and of those in them, from the top,
after the report of it. -/
def Tier.marks (t : Tier) : List Mark :=
  (Block.numbers t.report).map (Mark.mk true) ++ (Block.numbers t.block).map (Mark.mk false)

/-- The numbers of the statements of tiers that follow each other, and of those
in them, from the top. -/
def marks : List Tier → List Mark
  | [] => []
  | t :: more => (Block.numbers t.block).map (Mark.mk false) ++ more.flatMap Tier.marks

/-- A statement comes before another one: it has a smaller number, or it
reports a dedent at the line of the other one. -/
def Mark.Precedes (x y : Mark) : Prop :=
  x.number < y.number ∨ x.isDedent = true ∧ y.isDedent = false ∧ x.number = y.number

theorem Block.numbers_flatMap {α : Type} (f : α → Block) (xs : List α) :
    Block.numbers (xs.flatMap f) = xs.flatMap fun x => Block.numbers (f x) := by
  induction xs with
  | nil => rfl
  | cons x xs ih => rw [List.flatMap_cons, List.flatMap_cons, Block.numbers_append, ih]

theorem number_marks (tiers : List Tier) :
    (marks tiers).map Mark.number = Block.numbers (assemble tiers) := by
  cases tiers with
  | nil => rfl
  | cons t more =>
    simp [marks, Tier.marks, assemble, Block.numbers_append, Block.numbers_flatMap, List.map_flatMap,
      Function.comp_def]

/-- The marks that a line may have. -/
def Line.marks (l : Line) : List Mark := [⟨true, l.number⟩, ⟨false, l.number⟩]

theorem Line.number_of_mem_marks {l : Line} {x : Mark} (h : x ∈ l.marks) : x.number = l.number := by
  simp only [marks, List.mem_cons, List.not_mem_nil, or_false] at h
  rcases h with rfl | rfl <;> rfl

theorem marks_lines : ∀ ls : List Line,
    List.Sublist ((ls.map Line.number).map (Mark.mk false)) (ls.flatMap Line.marks)
  | [] => .slnil
  | _ :: ls => ((marks_lines ls).cons_cons _).cons _

theorem Tier.marks_sublist {t : Tier} (h : List.Sublist (Block.numbers t.block) (t.lines.map Line.number)) :
    List.Sublist t.marks (t.lines.flatMap Line.marks) := by
  obtain ⟨ls, b⟩ := t
  have hblock := h.map (Mark.mk false)
  cases ls with
  | nil => exact hblock
  | cons l ls => exact (hblock.trans ((marks_lines ls).cons_cons _)).cons_cons _

theorem flatMap_marks_sublist : ∀ {tiers : List Tier},
    (∀ t ∈ tiers, List.Sublist (Block.numbers t.block) (t.lines.map Line.number)) →
    List.Sublist (tiers.flatMap Tier.marks) ((tiers.flatMap Tier.lines).flatMap Line.marks)
  | [], _ => .slnil
  | t :: more, h => by
    obtain ⟨ht, hmore⟩ := List.forall_mem_cons.1 h
    rw [List.flatMap_cons, List.flatMap_cons, List.flatMap_append]
    exact (Tier.marks_sublist ht).append (flatMap_marks_sublist hmore)

/-- **The statements of tiers come in the order of their lines.** -/
theorem marks_sublist {tiers : List Tier}
    (h : ∀ t ∈ tiers, List.Sublist (Block.numbers t.block) (t.lines.map Line.number)) :
    List.Sublist (marks tiers) ((tiers.flatMap Tier.lines).flatMap Line.marks) := by
  cases tiers with
  | nil => exact .slnil
  | cons t more =>
    obtain ⟨ht, hmore⟩ := List.forall_mem_cons.1 h
    have hfirst := (ht.map (Mark.mk false)).trans (marks_lines t.lines)
    rw [marks, List.flatMap_cons, List.flatMap_append]
    exact hfirst.append (flatMap_marks_sublist hmore)

theorem pairwise_precedes {ls : List Line} (h : ls.Pairwise fun l m => l.number < m.number) :
    (ls.flatMap Line.marks).Pairwise Mark.Precedes := by
  rw [List.pairwise_flatMap]
  constructor
  · intro l _
    simp [Line.marks, Mark.Precedes]
  · refine h.imp fun {l m} hlt x hx y hy => .inl ?_
    rw [Line.number_of_mem_marks hx, Line.number_of_mem_marks hy]
    exact hlt

/-- **All lines are taken off a queue, and in order.** Classified lines of
increasing numbers are read as tiers, each of a line at least, which together
have all the lines; that there are tiers says that every body is taken off a
shorter queue than its statement. From the top, the statements have numbers of
the lines, and these increase, except that the report of a dedent before a tier
has the number of the first line of the tier. -/
theorem reading_of_queue {ls : List Line} (hls : ∀ l ∈ ls, l.Classified)
    (hnumbers : ls.Pairwise fun l m => l.number < m.number) :
    ∃ tiers, takeTiers? ls = some tiers ∧ Block.ofLines? ls = some (assemble tiers) ∧
      tiers.flatMap Tier.lines = ls ∧ (∀ t ∈ tiers, t.lines ≠ []) ∧
      (∀ n ∈ Block.numbers (assemble tiers), ∃ l ∈ ls, l.number = n) ∧
      (marks tiers).map Mark.number = Block.numbers (assemble tiers) ∧
      (marks tiers).Pairwise Mark.Precedes := by
  obtain ⟨b, hb⟩ := Option.isSome_iff_exists.1 (Block.isSome_ofLines hls)
  obtain ⟨tiers, htiers, rfl⟩ := Option.map_eq_some_iff.1 ((takeTiers?_ofLines ls).trans hb)
  have houtline := takeTiers?_lines (Outline.ofLines ls) (Outline.nested_ofLines ls)
  rw [Outline.lines_ofLines, htiers] at houtline
  obtain ⟨hlines, hspec⟩ := Outline.tiers?_spec _ (Outline.nested_ofLines ls) houtline.symm
  rw [Outline.lines_ofLines] at hlines
  have hsublist := marks_sublist fun t ht => (hspec t ht).2
  rw [hlines] at hsublist
  refine ⟨tiers, htiers, hb, hlines, fun t ht => (hspec t ht).1, ?_, number_marks tiers,
    (pairwise_precedes hnumbers).sublist hsublist⟩
  intro n hn
  rw [← number_marks] at hn
  obtain ⟨m, hm, rfl⟩ := List.mem_map.1 hn
  obtain ⟨l, hl, hmem⟩ := List.mem_flatMap.1 (hsublist.subset hm)
  exact ⟨l, hl, (Line.number_of_mem_marks hmem).symm⟩

/-- Two dedents below the first line, one inside a loop, and a conditional that
a branch without its condition takes away. -/
def tumbling : Text :=
  "    x = 1\n  while a:\n      b = 1\n    b = 2\nif c:\n  pass\nelif :\n  pass\nif d:\n  pass\nelse:\n pass\n"

theorem reading_of_queue_tumbling :
    (Block.ofLines? (linesOf tumbling)).map Block.numbers = some [1, 2, 2, 3, 4, 5, 7, 9, 10, 12] ∧
      ∃ tiers, takeTiers? (linesOf tumbling) = some tiers ∧
        Block.ofLines? (linesOf tumbling) = some (assemble tiers) ∧
        tiers.flatMap Tier.lines = linesOf tumbling ∧ (marks tiers).Pairwise Mark.Precedes := by
  have hnumbers : (linesOf tumbling).Pairwise fun l m => l.number < m.number := by decide +kernel
  have hread : (Block.ofLines? (linesOf tumbling)).map Block.numbers =
      some [1, 2, 2, 3, 4, 5, 7, 9, 10, 12] := by decide +kernel
  obtain ⟨tiers, htiers, hblock, hlines, -, -, -, horder⟩ :=
    reading_of_queue (fun _ => kind_of_mem_linesOf) hnumbers
  exact ⟨hread, tiers, htiers, hblock, hlines, horder⟩

end Offside

/-
# Only the order of indentations matters

Lines may be indented by other widths as long as deeper lines stay deeper
(`Line.reindent` by a strictly increasing function). They are then relabelled
without a change of their numbers: the lines are read as before
(`Block.ofLines?_reindent`), and they go to the same functions
(`Program.ofLines_reindent`). So the program is the same but for the widths in
it, and comes to the same class or to the same diagnostics.

Key definitions: `Line.reindent`, `Program.reindent`.
Key theorems: `Block.ofLines?_reindent`, `Program.ofLines_reindent`,
`Function.lower_reindent`, `conversion_reindent`.
-/
import Offside.Lowering
import Offside.Proofs.Relabelling

namespace Offside

/-! ### Other indentations -/

/-- A line at another indentation. -/
def Line.reindent (f : Nat → Nat) (l : Line) : Line := { l with indent := f l.indent }

/-- A function whose lines are at other indentations. -/
def Function.reindent (f : Nat → Nat) (g : Function) : Function :=
  { g with body := g.body.map (Line.reindent f) }

/-- A program whose lines are at other indentations. -/
def Program.reindent (f : Nat → Nat) (p : Program) : Program where
  functions := p.functions.map fun entry => (entry.1, entry.2.reindent f)
  entryPoint := p.entryPoint.map (Line.reindent f)

variable {f : Nat → Nat}

/-- **Lines are read as the same block.** -/
theorem Block.ofLines?_reindent (hf : StrictMono f) (ls : List Line) :
    Block.ofLines? (ls.map (Line.reindent f)) = Block.ofLines? ls := by
  have hread : Block.ofLines? (ls.map (Line.reindent f)) = (Block.ofLines? ls).map (Block.renumber id) :=
    Block.ofLines?_relabel (g := id) hf ls
  have hid : Block.renumber id = id := funext Block.renumber_id
  rw [hread, hid, Option.map_id_fun, id]

theorem Program.ofLines_reindent (hf : StrictMono f) (ls : List Line) :
    Program.ofLines (ls.map (Line.reindent f)) = (Program.ofLines ls).reindent f :=
  Program.ofLines_relabel (g := id) hf ls

/-! ### Lowering -/

theorem Function.lower_reindent (hf : StrictMono f) (g : Function) : (g.reindent f).lower = g.lower := by
  have hbody : (g.reindent f).body = [] ↔ g.body = [] := List.map_eq_nil_iff
  have hread : Block.ofLines? (g.reindent f).body = Block.ofLines? g.body :=
    Block.ofLines?_reindent hf g.body
  unfold Function.lower
  simp only [hbody, hread]
  rfl

theorem Program.lower_reindent (hf : StrictMono f) (p : Program) : (p.reindent f).lower = p.lower := by
  have hmethods : (p.reindent f).functions.values.map Function.lower =
      p.functions.values.map Function.lower := by
    simp only [Program.reindent, OrderedMap.values, List.map_map]
    refine List.map_congr_left fun entry _ => ?_
    exact Function.lower_reindent hf entry.2
  have hmain : (p.reindent f).lowerEntryPoint = p.lowerEntryPoint := by
    unfold Program.lowerEntryPoint
    rw [show (p.reindent f).entryPoint = p.entryPoint.map (Line.reindent f) from rfl,
      Block.ofLines?_reindent hf]
  unfold Program.lower
  rw [hmethods, hmain]

/-- **Only the order of indentations matters.** Lines at other indentations of
the same order go to functions of the same names, parameters and line numbers,
in the same order, and to the entry point, as they did before; they are read
as the same block; and they come to the same class or to the same
diagnostics. -/
theorem conversion_reindent (hf : StrictMono f) (ls : List Line) :
    Program.ofLines (ls.map (Line.reindent f)) = (Program.ofLines ls).reindent f ∧
      Block.ofLines? (ls.map (Line.reindent f)) = Block.ofLines? ls ∧
      (Program.ofLines (ls.map (Line.reindent f))).lower = (Program.ofLines ls).lower := by
  refine ⟨Program.ofLines_reindent hf ls, Block.ofLines?_reindent hf ls, ?_⟩
  rw [Program.ofLines_reindent hf, Program.lower_reindent hf]

/-- A function and a loop, with bodies of different widths and a line that
fits none of them. -/
def ragged : Text :=
  "def half(n):\n   if n > 1:\n     return n / 2\n   else:\n         pass\nx = 9\nwhile x > 0:\n    x -= 1\n  y = x"

theorem conversion_reindent_ragged :
    StrictMono (fun n => 2 * n + 1) ∧
      Block.ofLines? ((linesOf ragged).map (Line.reindent fun n => 2 * n + 1)) =
        Block.ofLines? (linesOf ragged) ∧
      (Program.ofLines ((linesOf ragged).map (Line.reindent fun n => 2 * n + 1))).lower =
        (Program.ofLines (linesOf ragged)).lower := by
  have hf : StrictMono fun n : Nat => 2 * n + 1 := fun i j hij => by
    show 2 * i + 1 < 2 * j + 1
    omega
  obtain ⟨_, hblock, hlower⟩ := conversion_reindent hf (linesOf ragged)
  exact ⟨hf, hblock, hlower⟩

end Offside

/-
# Lines with other indentations and numbers

Lines may be indented by other widths, as long as deeper lines stay deeper, and
they may have other numbers (`Line.relabel`). An indentation is only ever
compared with another one, and a number only passed on: the outline of the
lines keeps its shape (`Outline.ofLines_relabel`), a section is read as the
same statements with the numbers changed (`readSection_relabel`), and the lines
go to the same functions (`sortLines_relabel`). No two numbers need to stay
apart for this, so any function of the numbers will do.

Key definitions: `Line.relabel`, `Outline.relabel`, `Tree.renumber`,
`Program.relabel`.
Key theorems: `Outline.ofLines_relabel`, `readSection_relabel`,
`Block.ofLines?_relabel`, `sortLines_relabel`, `Program.ofLines_relabel`.
-/
import Mathlib.Order.Monotone.Basic
import Offside.Program
import Offside.Proofs.Sections

namespace Offside

/-! ### Other indentations and numbers -/

/-- A line at another indentation, with another number. -/
def Line.relabel (f g : Nat → Nat) (l : Line) : Line :=
  { l with indent := f l.indent, number := g l.number }

mutual

/-- An entry whose lines have other indentations and numbers. -/
def Entry.relabel (f g : Nat → Nat) : Entry → Entry
  | .mk l o => .mk (l.relabel f g) (Outline.relabel f g o)

/-- A section whose lines have other indentations and numbers. -/
def Section.relabel (f g : Nat → Nat) : List Entry → List Entry
  | [] => []
  | e :: es => e.relabel f g :: Section.relabel f g es

/-- An outline whose lines have other indentations and numbers. -/
def Outline.relabel (f g : Nat → Nat) : List (List Entry) → List (List Entry)
  | [] => []
  | s :: more => Section.relabel f g s :: Outline.relabel f g more

end

mutual

/-- A statement with other line numbers. -/
def Tree.renumber (g : Nat → Nat) : Tree → Tree
  | .conditional line branches otherwise =>
    .conditional (g line) (renumberBranches g branches) (renumberElse g otherwise)
  | .whileLoop line condition body => .whileLoop (g line) condition (Block.renumber g body)
  | .forLoop line loop body => .forLoop (g line) loop (Block.renumber g body)
  | .returned line value => .returned (g line) value
  | .print line arguments => .print (g line) arguments
  | .call line text => .call (g line) text
  | .assignment line name value => .assignment (g line) name value
  | .update line name operator value => .update (g line) name operator value
  | .pass line => .pass (g line)
  | .breakLoop line => .breakLoop (g line)
  | .continueLoop line => .continueLoop (g line)
  | .malformed line problem => .malformed (g line) problem

/-- A block with other line numbers. -/
def Block.renumber (g : Nat → Nat) : List Tree → List Tree
  | [] => []
  | t :: ts => t.renumber g :: Block.renumber g ts

/-- The branches of a conditional with other line numbers. -/
def renumberBranches (g : Nat → Nat) : List (Text × List Tree) → List (Text × List Tree)
  | [] => []
  | (condition, body) :: more => (condition, Block.renumber g body) :: renumberBranches g more

/-- The last branch of a conditional with other line numbers. -/
def renumberElse (g : Nat → Nat) : Option (List Tree) → Option (List Tree)
  | none => none
  | some body => some (Block.renumber g body)

end

/-- What a line says, with another line number. -/
def Sentence.renumber (g : Nat → Nat) : Sentence → Sentence
  | .whole t => .whole (t.renumber g)
  | .refused p => .refused p
  | .loop c => .loop c
  | .range counter => .range counter
  | .branch c => .branch c

/-- A conditional that may go on, at other indentations, with other line
numbers. -/
def Chain.relabel (f g : Nat → Nat) (c : Chain) : Chain where
  line := g c.line
  inner := f c.inner
  branches := renumberBranches g c.branches

/-- A step with other line numbers, whose conditional goes on at other
indentations. -/
def Entry.Step.relabel (f g : Nat → Nat) (st : Entry.Step) : Entry.Step :=
  (Block.renumber g st.1, st.2.map (Chain.relabel f g))

/-- A function whose lines have other indentations and numbers. -/
def Function.relabel (f g : Nat → Nat) (h : Function) : Function :=
  { h with line := g h.line, body := h.body.map (Line.relabel f g) }

/-- A program whose lines have other indentations and numbers. -/
def Program.relabel (f g : Nat → Nat) (p : Program) : Program where
  functions := p.functions.map fun entry => (entry.1, entry.2.relabel f g)
  entryPoint := p.entryPoint.map (Line.relabel f g)

-- `f` changes the indentations, `g` the numbers
variable {f g : Nat → Nat}

/-! ### The outline -/

theorem Entry.line_relabel (e : Entry) : (e.relabel f g).line = e.line.relabel f g := by
  cases e
  rw [Entry.relabel]
  rfl

theorem Entry.under_relabel (e : Entry) : (e.relabel f g).under = Outline.relabel f g e.under := by
  cases e
  rw [Entry.relabel]
  rfl

theorem Section.relabel_eq_map : ∀ s : List Entry, Section.relabel f g s = s.map (Entry.relabel f g)
  | [] => by rw [Section.relabel, List.map_nil]
  | e :: es => by rw [Section.relabel, List.map_cons, Section.relabel_eq_map es]

theorem Outline.relabel_eq_map : ∀ o : Outline, Outline.relabel f g o = o.map (Section.relabel f g)
  | [] => by rw [Outline.relabel, List.map_nil]
  | s :: more => by rw [Outline.relabel, List.map_cons, Outline.relabel_eq_map more]

theorem Section.indent?_relabel (s : Section) :
    Section.indent? (Section.relabel f g s) = (Section.indent? s).map f := by
  cases s with
  | nil => rfl
  | cons e es =>
    rw [Section.relabel]
    simp only [Section.indent?, List.head?_cons, Option.map_some, Entry.line_relabel, Line.relabel]

namespace Outline

theorem isDeeper_comp_relabel (hf : StrictMono f) (i : Nat) :
    Section.isDeeper (f i) ∘ Section.relabel f g = Section.isDeeper i := by
  funext s
  rw [Function.comp_apply, Section.isDeeper, Section.isDeeper, Section.indent?_relabel]
  cases Section.indent? s with
  | none => rfl
  | some j => simp [hf.lt_iff_lt]

theorem attach_relabel (hf : StrictMono f) (e : Entry) (o : Outline) :
    attach (e.relabel f g) (Outline.relabel f g o) = Outline.relabel f g (attach e o) := by
  cases o with
  | nil => simp [Outline.relabel, Section.relabel, attach]
  | cons s more =>
    have hsame : (Section.indent? s).map f = some (f e.line.indent) ↔
        Section.indent? s = some e.line.indent := by
      cases s.indent? with
      | none => simp
      | some j => simp [hf.injective.eq_iff]
    have hindent : (e.relabel f g).line.indent = f e.line.indent := by
      rw [Entry.line_relabel]
      rfl
    rw [Outline.relabel, attach, attach, Section.indent?_relabel, hindent]
    by_cases h : Section.indent? s = some e.line.indent
    · rw [if_pos h, if_pos (hsame.2 h), Outline.relabel, Section.relabel]
    · rw [if_neg h, if_neg (mt hsame.1 h), Outline.relabel, Outline.relabel, Section.relabel,
        Section.relabel]

/-- **The outline of the lines keeps its shape.** -/
theorem ofLines_relabel (hf : StrictMono f) : ∀ ls : List Line,
    ofLines (ls.map (Line.relabel f g)) = Outline.relabel f g (ofLines ls)
  | [] => by simp [ofLines, Outline.relabel]
  | l :: ls => by
    have hindent : (l.relabel f g).indent = f l.indent := rfl
    have hentry : Entry.mk (l.relabel f g)
        (Outline.relabel f g ((ofLines ls).takeWhile (Section.isDeeper l.indent))) =
        Entry.relabel f g (.mk l ((ofLines ls).takeWhile (Section.isDeeper l.indent))) := by
      rw [Entry.relabel]
    rw [List.map_cons, ofLines_cons, ofLines_cons, ofLines_relabel hf ls, cons_eq_attach, cons_eq_attach,
      hindent, ← attach_relabel hf, ← hentry, relabel_eq_map (ofLines ls), List.takeWhile_map,
      List.dropWhile_map, isDeeper_comp_relabel hf, relabel_eq_map, relabel_eq_map]

end Outline

/-! ### Blocks -/

theorem Block.renumber_append : ∀ a b : Block,
    Block.renumber g (a ++ b) = Block.renumber g a ++ Block.renumber g b
  | [], _ => by rw [List.nil_append, Block.renumber, List.nil_append]
  | t :: a, b => by
    rw [List.cons_append, Block.renumber, Block.renumber, Block.renumber_append a b, List.cons_append]

theorem renumberBranches_append : ∀ a b : List (Text × Block),
    renumberBranches g (a ++ b) = renumberBranches g a ++ renumberBranches g b
  | [], _ => by rw [List.nil_append, renumberBranches, List.nil_append]
  | (condition, body) :: a, b => by
    rw [List.cons_append, renumberBranches, renumberBranches, renumberBranches_append a b,
      List.cons_append]

mutual

theorem Tree.renumber_id : ∀ t : Tree, t.renumber id = t
  | .conditional line branches otherwise => by
    rw [Tree.renumber, renumberBranches_id branches, renumberElse_id otherwise, id]
  | .whileLoop line condition body => by rw [Tree.renumber, Block.renumber_id body, id]
  | .forLoop line loop body => by rw [Tree.renumber, Block.renumber_id body, id]
  | .returned .. | .print .. | .call .. | .assignment .. | .update .. | .pass .. | .breakLoop ..
  | .continueLoop .. | .malformed .. => by rw [Tree.renumber, id]

theorem Block.renumber_id : ∀ b : List Tree, Block.renumber id b = b
  | [] => by rw [Block.renumber]
  | t :: ts => by rw [Block.renumber, Tree.renumber_id t, Block.renumber_id ts]

theorem renumberBranches_id : ∀ branches : List (Text × List Tree), renumberBranches id branches = branches
  | [] => by rw [renumberBranches]
  | (condition, body) :: more => by
    rw [renumberBranches, Block.renumber_id body, renumberBranches_id more]

theorem renumberElse_id : ∀ otherwise : Option (List Tree), renumberElse id otherwise = otherwise
  | none => by rw [renumberElse]
  | some body => by rw [renumberElse, Block.renumber_id body]

end

/-! ### Reading -/

theorem Line.sentence?_relabel (l : Line) :
    (l.relabel f g).sentence? = l.sentence?.map (Sentence.renumber g) := by
  unfold sentence?
  rw [show (l.relabel f g).kind = l.kind from rfl, show (l.relabel f g).text = l.text from rfl,
    show (l.relabel f g).number = g l.number from rfl]
  cases l.kind with
  | definition => cases Signature.ofText? l.text <;> rfl
  | ifHeader =>
    cases readHeader? "if" l.text with
    | none => rfl
    | some r => cases r <;> rfl
  | whileHeader =>
    cases readHeader? "while" l.text with
    | none => rfl
    | some r => cases r <;> rfl
  | forHeader =>
    cases RangeLoop.ofText? l.text with
    | none => rfl
    | some r => cases r <;> rfl
  | returned => cases afterKeyword? "return" l.text <;> simp [Sentence.renumber, Tree.renumber]
  | print => cases callArguments? "print" l.text <;> simp [Sentence.renumber, Tree.renumber]
  | assignment | update =>
    simp only [Option.map_some, Sentence.renumber, Line.assignment]
    rw [show (l.relabel f g).text = l.text from rfl, show (l.relabel f g).number = g l.number from rfl]
    split <;> rw [Tree.renumber]
  | _ => simp [Sentence.renumber, Tree.renumber]

theorem strays_relabel (hf : StrictMono f) : ∀ (ls : List Line) (inner : Option Nat),
    strays (inner.map f) (ls.map (Line.relabel f g)) = Block.renumber g (strays inner ls)
  | [], _ => by rw [List.map_nil, strays, strays, Block.renumber]
  | l :: ls, inner => by
    have hshallow : (inner.map f).any ((l.relabel f g).indent < ·) = inner.any (l.indent < ·) := by
      cases inner with
      | none => rfl
      | some i => simp [Line.relabel, hf.lt_iff_lt]
    have ih := strays_relabel hf ls none
    rw [Option.map_none] at ih
    rw [List.map_cons, strays, strays, hshallow, ih, Block.renumber, Tree.renumber]
    rfl

namespace Chain

theorem close_relabel (c : Chain) (otherwise : Option Block) :
    (c.relabel f g).close (renumberElse g otherwise) = (c.close otherwise).renumber g := by
  rw [close, close, Tree.renumber]
  rfl

theorem add_relabel (c : Chain) (condition : Text) (b : Block) :
    (c.relabel f g).add condition (Block.renumber g b) = (c.add condition b).relabel f g := by
  rw [add, relabel, relabel, add, renumberBranches_append, renumberBranches, renumberBranches]

end Chain

theorem closeChain_relabel (chain : Option Chain) :
    closeChain (chain.map (Chain.relabel f g)) = Block.renumber g (closeChain chain) := by
  cases chain with
  | none => rw [Option.map_none, closeChain, Block.renumber]
  | some c =>
    have hclose := c.close_relabel (f := f) (g := g) none
    rw [renumberElse] at hclose
    rw [Option.map_some, closeChain, closeChain, Block.renumber, Block.renumber, hclose]

namespace Entry

theorem heads_relabel (o : Outline) :
    heads (Outline.relabel f g o) = (heads o).map (Line.relabel f g) := by
  have hsection : Section.relabel f g = List.map (Entry.relabel f g) := funext Section.relabel_eq_map
  have hline : line ∘ Entry.relabel f g = Line.relabel f g ∘ line := funext line_relabel
  rw [heads, heads, Outline.relabel_eq_map, hsection, ← List.map_flatten, List.map_map, List.map_map, hline]

theorem leftover_relabel (e : Entry) :
    (e.relabel f g).leftover = e.leftover.map (Line.relabel f g) := by
  rw [leftover, leftover, under_relabel, ← heads_relabel, Outline.relabel_eq_map,
    Outline.relabel_eq_map, List.map_drop]

theorem inner_relabel (e : Entry) : (e.relabel f g).inner = e.inner.map f := by
  rw [inner, inner, under_relabel, Outline.relabel_eq_map, List.head?_map]
  cases e.under.head? with
  | none => rfl
  | some s => exact Section.indent?_relabel s

theorem finish_relabel (hf : StrictMono f) (e : Entry) (inner : Option Nat) (t : Tree) :
    (e.relabel f g).finish (inner.map f) (t.renumber g) = Step.relabel f g (e.finish inner t) := by
  rw [finish, finish, leftover_relabel, strays_relabel hf, Step.relabel, Block.renumber]
  rfl

theorem goOn_relabel (hf : StrictMono f) (e : Entry) (c : Chain) :
    (e.relabel f g).goOn (c.relabel f g) = Step.relabel f g (e.goOn c) := by
  unfold goOn
  rw [leftover_relabel]
  cases e.leftover with
  | nil =>
    simp only [List.map_nil, Step.relabel, Block.renumber]
    rfl
  | cons l ls =>
    have hclose := c.close_relabel (f := f) (g := g) none
    rw [renumberElse] at hclose
    simp only [List.map_cons, hclose]
    exact finish_relabel hf e (some c.inner) (c.close none)

theorem fault_relabel (e : Entry) (p : Problem) :
    (e.relabel f g).fault p = Step.relabel f g (e.fault p) := by
  rw [fault, fault, line_relabel, Step.relabel, Block.renumber, Block.renumber, Tree.renumber]
  rfl

theorem withBody_relabel (e : Entry) {make make' : Block → Step} (body : Option (Option Block))
    (h : ∀ b, body = some (some b) → make' (Block.renumber g b) = Step.relabel f g (make b)) :
    (body.map (Option.map (Block.renumber g))).map ((e.relabel f g).withBody · make') =
      (body.map (e.withBody · make)).map (Step.relabel f g) := by
  cases body with
  | none => rfl
  | some body =>
    cases body with
    | none =>
      have hfault := fault_relabel (f := f) (g := g) e (.missingBody e.line.text)
      simp only [Option.map_some, Option.map_none, withBody, line_relabel]
      exact congrArg some hfault
    | some b => exact congrArg some (h b rfl)

theorem start_relabel (hf : StrictMono f) (e : Entry) (body : Option (Option Block))
    (hbody : ∀ b, body = some (some b) → e.inner.isSome = true) :
    (e.relabel f g).start (body.map (Option.map (Block.renumber g))) =
      (e.start body).map (Step.relabel f g) := by
  unfold start
  rw [line_relabel, Line.sentence?_relabel]
  cases e.line.sentence? with
  | none => rfl
  | some s =>
    simp only [Option.map_some, Option.bind_some]
    cases s with
    | whole t =>
      have hstrays := strays_relabel (g := g) hf (heads e.under) none
      rw [Option.map_none] at hstrays
      simp only [Sentence.renumber, Step.relabel, under_relabel, heads_relabel, hstrays, Block.renumber,
        Option.map_some, Option.map_none]
    | refused p => exact congrArg some (fault_relabel e p)
    | loop c =>
      refine withBody_relabel e body fun b _ => ?_
      rw [inner_relabel, ← finish_relabel hf, Tree.renumber]
      rfl
    | range loop =>
      refine withBody_relabel e body fun b _ => ?_
      rw [inner_relabel, ← finish_relabel hf, Tree.renumber]
      rfl
    | branch c =>
      refine withBody_relabel e body fun b hb => ?_
      -- with a body there is a section under the line, so its indentation is no default
      obtain ⟨i, hi⟩ := Option.isSome_iff_exists.1 (hbody b hb)
      rw [inner_relabel, hi, ← goOn_relabel hf, Chain.relabel, renumberBranches, renumberBranches]
      rfl

theorem elseIf_relabel (hf : StrictMono f) (e : Entry) (c : Chain) (body : Option (Option Block)) :
    (e.relabel f g).elseIf (c.relabel f g) (body.map (Option.map (Block.renumber g))) =
      (e.elseIf c body).map (Step.relabel f g) := by
  unfold elseIf
  rw [line_relabel, show (e.line.relabel f g).text = e.line.text from rfl]
  cases readHeader? "elif" e.line.text with
  | none => rfl
  | some r =>
    cases r with
    | error p => exact congrArg some (fault_relabel e p)
    | ok condition =>
      refine withBody_relabel e body fun b _ => ?_
      rw [Chain.add_relabel, goOn_relabel hf]

theorem orElse_relabel (hf : StrictMono f) (e : Entry) (c : Chain) (body : Option (Option Block)) :
    (e.relabel f g).orElse (c.relabel f g) (body.map (Option.map (Block.renumber g))) =
      (e.orElse c body).map (Step.relabel f g) := by
  unfold orElse
  rw [line_relabel, show (e.line.relabel f g).text = e.line.text from rfl]
  cases afterKeyword? "else" e.line.text with
  | none => rfl
  | some rest =>
    simp only [Option.bind_some]
    split
    · refine withBody_relabel e body fun b _ => ?_
      rw [← finish_relabel hf, ← Chain.close_relabel, renumberElse]
      rfl
    · exact congrArg some (fault_relabel e _)

/-- **An entry comes to what it came to before.** -/
theorem step_relabel (hf : StrictMono f) (chain : Option Chain) (e : Entry)
    (body : Option (Option Block)) (hbody : ∀ b, body = some (some b) → e.inner.isSome = true) :
    (e.relabel f g).step (chain.map (Chain.relabel f g)) (body.map (Option.map (Block.renumber g))) =
      (e.step chain body).map (Step.relabel f g) := by
  have hkind : (e.relabel f g).line.kind = e.line.kind := by
    rw [line_relabel]
    rfl
  have hstart : ((e.relabel f g).start (body.map (Option.map (Block.renumber g)))).map
      (fun st : Step => (closeChain (chain.map (Chain.relabel f g)) ++ st.1, st.2)) =
      ((e.start body).map fun st : Step => (closeChain chain ++ st.1, st.2)).map
        (Step.relabel f g) := by
    rw [start_relabel hf e body hbody, closeChain_relabel]
    cases e.start body with
    | none => rfl
    | some st => simp only [Option.map_some, Step.relabel, Block.renumber_append]
  unfold step
  rw [hkind]
  cases chain with
  | none => exact hstart
  | some c =>
    cases hk : e.line.kind with
    | elifHeader => exact elseIf_relabel hf e c body
    | elseHeader => exact orElse_relabel hf e c body
    | _ => exact hstart

end Entry

-- The recursion is that of reading. That no section is empty, which an outline
-- of lines is sure of, is what the indentation of a first body rests on.
mutual

theorem Entry.body_relabel (hf : StrictMono f) : ∀ e : Entry, e.Nested →
    (e.relabel f g).body = e.body.map (Option.map (Block.renumber g))
  | .mk l [], _ => by
    rw [Entry.relabel, Outline.relabel, Entry.body, Entry.body]
    rfl
  | .mk l (s :: more), h => by
    rw [Entry.Nested, Outline.Nested] at h
    obtain ⟨⟨i, _, _, hs, _⟩, _⟩ := h
    have hread := readSection_relabel hf s i hs none
    rw [Option.map_none] at hread
    rw [Entry.relabel, Outline.relabel, Entry.body, Entry.body, hread, Option.map_map, Option.map_map]
    rfl

/-- **A section is read as before.** -/
theorem readSection_relabel (hf : StrictMono f) : ∀ (s : List Entry) (i : Nat), Section.Nested i s →
    ∀ chain : Option Chain,
      readSection (chain.map (Chain.relabel f g)) (Section.relabel f g s) =
        (readSection chain s).map (Block.renumber g)
  | [], _, _, chain => by
    rw [Section.relabel, readSection, readSection, closeChain_relabel, Option.map_some]
  | e :: es, i, h, chain => by
    rw [Section.Nested] at h
    obtain ⟨_, he, hes⟩ := h
    have hstep := Entry.step_relabel (g := g) hf chain e e.body fun b hb => Entry.isSome_inner_of_body he hb
    rw [Section.relabel, readSection_cons, readSection_cons, Entry.body_relabel hf e he, hstep]
    cases e.step chain e.body with
    | none => rfl
    | some st =>
      have hrest := readSection_relabel hf es i hes st.2
      simp only [Option.map_some, Option.bind_some, Entry.Step.relabel, hrest, Option.map_map,
        Function.comp_def, Block.renumber_append]

end

theorem readDedents_relabel (hf : StrictMono f) : ∀ (o : Outline) (k : Nat), Outline.Nested k o →
    readDedents (Outline.relabel f g o) = (readDedents o).map (Block.renumber g)
  | [], _, _ => by rw [Outline.relabel, readDedents, Option.map_some, Block.renumber]
  | s :: more, k, h => by
    rw [Outline.Nested] at h
    obtain ⟨⟨i, _, _, hs, _⟩, hmore⟩ := h
    have hhead : ((Section.relabel f g s).head?.toList.map fun e =>
        Tree.malformed e.line.number .inconsistentDedent) =
        Block.renumber g
          (s.head?.toList.map fun e => Tree.malformed e.line.number .inconsistentDedent) := by
      cases s with
      | nil => simp [Section.relabel, Block.renumber]
      | cons e es =>
        simp [Section.relabel, Block.renumber, Tree.renumber, Entry.line_relabel, Line.relabel]
    have hread := readSection_relabel (g := g) hf s i hs none
    rw [Option.map_none] at hread
    rw [Outline.relabel, readDedents, readDedents, hread, readDedents_relabel hf more k hmore]
    cases readSection none s with
    | none => rfl
    | some b =>
      cases readDedents more with
      | none => rfl
      | some c =>
        simp only [Option.map_some, Option.bind_eq_bind, Option.bind_some, Option.pure_def, hhead,
          Block.renumber_append]

/-- **Lines are read as the same block, but for the numbers.** -/
theorem Block.ofLines?_relabel (hf : StrictMono f) (ls : List Line) :
    Block.ofLines? (ls.map (Line.relabel f g)) = (Block.ofLines? ls).map (Block.renumber g) := by
  have hn := Outline.nested_ofLines ls
  unfold Block.ofLines?
  rw [Outline.ofLines_relabel hf]
  cases ho : Outline.ofLines ls with
  | nil => simp only [Outline.relabel, Outline.read?, Option.map_some, Block.renumber]
  | cons s more =>
    rw [ho, Outline.Nested] at hn
    obtain ⟨⟨i, _, _, hs, _⟩, hmore⟩ := hn
    have hread := readSection_relabel (g := g) hf s i hs none
    rw [Option.map_none] at hread
    rw [Outline.relabel, Outline.read?, Outline.read?, hread, readDedents_relabel hf more 0 hmore]
    cases readSection none s with
    | none => rfl
    | some b =>
      cases readDedents more with
      | none => rfl
      | some c =>
        simp only [Option.map_some, Option.bind_eq_bind, Option.bind_some, Option.pure_def,
          Block.renumber_append]

/-! ### Functions and entry point -/

/-- **The lines go to the same functions.** -/
theorem sortLines_relabel (hf : StrictMono f) : ∀ (ls : List Line) (owner : Option Nat),
    sortLines (owner.map f) (ls.map (Line.relabel f g)) =
      ((sortLines owner ls).1.map (Line.relabel f g), (sortLines owner ls).2.1.map (Function.relabel f g),
        (sortLines owner ls).2.2.map (Line.relabel f g))
  | [], _ => rfl
  | l :: ls, owner => by
    have howned : (owner.map f).any (· < (l.relabel f g).indent) = owner.any (· < l.indent) := by
      cases owner with
      | none => rfl
      | some i => simp [Line.relabel, hf.lt_iff_lt]
    have hsignature : (l.relabel f g).signature? = l.signature? := rfl
    rw [List.map_cons, sortLines, sortLines, howned, hsignature]
    split
    · rw [sortLines_relabel hf ls owner]
      rfl
    · cases l.signature? with
      | some s =>
        have ih := sortLines_relabel hf ls (some l.indent)
        rw [Option.map_some] at ih
        simp only [show (l.relabel f g).indent = f l.indent from rfl, ih]
        rfl
      | none =>
        have ih := sortLines_relabel hf ls none
        rw [Option.map_none] at ih
        simp only [ih]
        rfl

theorem OrderedMap.insert_map {κ α β : Type} [DecidableEq κ] (h : α → β) (k : κ) (a : α) :
    ∀ m : OrderedMap κ α,
      insert k (h a) (m.map fun entry => (entry.1, h entry.2)) =
        (insert k a m).map fun entry => (entry.1, h entry.2)
  | [] => rfl
  | (k', a') :: m => by
    have ih := insert_map h k a m
    rw [List.map_cons, insert, insert]
    split
    · rfl
    · rw [List.map_cons, ih]

theorem Function.byName_map (h : Function → Function) (hname : ∀ g, (h g).signature.name = g.signature.name)
    (gs : List Function) :
    Function.byName (gs.map h) = (Function.byName gs).map fun entry => (entry.1, h entry.2) := by
  have hall : ∀ (gs : List Function) (m : OrderedMap Text Function),
      (gs.map h).foldl (fun m g => OrderedMap.insert g.signature.name g m)
          (m.map fun entry => (entry.1, h entry.2)) =
        (gs.foldl (fun m g => OrderedMap.insert g.signature.name g m) m).map
          fun entry => (entry.1, h entry.2) := by
    intro gs
    induction gs with
    | nil => exact fun m => rfl
    | cons g gs ih =>
      intro m
      have hinsert := OrderedMap.insert_map h g.signature.name g m
      rw [List.map_cons, List.foldl_cons, List.foldl_cons, ← ih, ← hinsert, hname]
  exact hall gs []

/-- **A program is the same but for the labels of its lines.** -/
theorem Program.ofLines_relabel (hf : StrictMono f) (ls : List Line) :
    Program.ofLines (ls.map (Line.relabel f g)) = (Program.ofLines ls).relabel f g := by
  have hsort := sortLines_relabel (g := g) hf ls none
  rw [Option.map_none] at hsort
  unfold Program.ofLines
  rw [hsort]
  simp only [Function.byName_map (Function.relabel f g) fun _ => rfl, Program.relabel]

end Offside

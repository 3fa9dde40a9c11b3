/-
# The layout of blocks

A well-laid-out block is a run of statements at one indentation: a line of a
plain kind, a loop with a deeper block under its header, or a conditional with
a deeper block under each of its branches. The blocks need not have one width:
each may be as deep as it likes, as long as it is deeper than its header.

Key definitions: `BlockLayout`, `StatementLayout`, `BranchesLayout`.
Key theorems: `BlockLayout.le_indent`, `BlockLayout.exists_head`.
-/
import Offside.Header
import Offside.Line.Basic

namespace Offside

/-- The kinds of the statements that are one line. -/
def Line.Kind.isPlain : Line.Kind → Bool
  | returned | print | pass | breakLoop | continueLoop | call | assignment | update => true
  | _ => false

namespace Line

/-- A line with the readable header of a loop. -/
def OpensLoop (l : Line) : Prop :=
  (l.kind = .whileHeader ∧ ∃ c, readHeader? "while" l.text = some (.ok c)) ∨
  (l.kind = .forHeader ∧ ∃ loop, RangeLoop.ofText? l.text = some (.ok loop))

/-- A line that starts a conditional with a readable condition. -/
def OpensConditional (l : Line) : Prop :=
  l.kind = .ifHeader ∧ ∃ c, readHeader? "if" l.text = some (.ok c)

/-- A line that continues a conditional with a readable condition. -/
def OpensElseIf (l : Line) : Prop :=
  l.kind = .elifHeader ∧ ∃ c, readHeader? "elif" l.text = some (.ok c)

/-- A line that continues a conditional with nothing but a colon. -/
def OpensElse (l : Line) : Prop :=
  l.kind = .elseHeader ∧ ∃ rest, afterKeyword? "else" l.text = some rest ∧ Text.trim rest = [':']

end Line

mutual

/-- One or more statements at the indentation `i`. -/
inductive BlockLayout : Nat → List Line → Prop where
  | last {i : Nat} {s : List Line} (hs : StatementLayout i s) : BlockLayout i s
  | more {i : Nat} {s ls : List Line} (hs : StatementLayout i s) (hb : BlockLayout i ls) :
    BlockLayout i (s ++ ls)

/-- A statement at the indentation `i`, with the blocks under it. -/
inductive StatementLayout : Nat → List Line → Prop where
  | plain {l : Line} (hk : l.kind.isPlain = true) : StatementLayout l.indent [l]
  | loop {l : Line} {j : Nat} {body : List Line} (hl : l.OpensLoop) (hj : l.indent < j)
    (hb : BlockLayout j body) : StatementLayout l.indent (l :: body)
  | conditional {l : Line} {j : Nat} {body branches : List Line} (hl : l.OpensConditional)
    (hj : l.indent < j) (hb : BlockLayout j body) (hm : BranchesLayout l.indent branches) :
    StatementLayout l.indent (l :: (body ++ branches))

/-- Further branches of a conditional at the indentation `i`, and the last one
without a condition if there is one. -/
inductive BranchesLayout : Nat → List Line → Prop where
  | none {i : Nat} : BranchesLayout i []
  | elseIf {l : Line} {j : Nat} {body branches : List Line} (hl : l.OpensElseIf) (hj : l.indent < j)
    (hb : BlockLayout j body) (hm : BranchesLayout l.indent branches) :
    BranchesLayout l.indent (l :: (body ++ branches))
  | orElse {l : Line} {j : Nat} {body : List Line} (hl : l.OpensElse) (hj : l.indent < j)
    (hb : BlockLayout j body) : BranchesLayout l.indent (l :: body)

end

/-! ### Indentation -/

theorem le_indent_of_body {l : Line} {j : Nat} {body : List Line} (hj : l.indent < j)
    (hb : ∀ m ∈ body, j ≤ m.indent) : ∀ m ∈ l :: body, l.indent ≤ m.indent := by
  intro m hm
  rcases List.mem_cons.1 hm with rfl | hm
  · exact Nat.le_refl _
  · exact Nat.le_trans (Nat.le_of_lt hj) (hb m hm)

mutual

theorem BlockLayout.le_indent : ∀ {i : Nat} {ls : List Line}, BlockLayout i ls →
    ∀ l ∈ ls, i ≤ l.indent
  | _, _, .last hs => hs.le_indent
  | _, _, .more hs hb => fun l hl =>
    (List.mem_append.1 hl).elim (hs.le_indent l) (hb.le_indent l)

theorem StatementLayout.le_indent : ∀ {i : Nat} {ls : List Line}, StatementLayout i ls →
    ∀ l ∈ ls, i ≤ l.indent
  | _, _, .plain _ => by simp
  | _, _, .loop _ hj hb => le_indent_of_body hj hb.le_indent
  | _, _, .conditional _ hj hb hm => by
    intro m hmem
    rw [← List.cons_append] at hmem
    exact (List.mem_append.1 hmem).elim (le_indent_of_body hj hb.le_indent m) (hm.le_indent m)

theorem BranchesLayout.le_indent : ∀ {i : Nat} {ls : List Line}, BranchesLayout i ls →
    ∀ l ∈ ls, i ≤ l.indent
  | _, _, .none => by simp
  | _, _, .elseIf _ hj hb hm => by
    intro m hmem
    rw [← List.cons_append] at hmem
    exact (List.mem_append.1 hmem).elim (le_indent_of_body hj hb.le_indent m) (hm.le_indent m)
  | _, _, .orElse _ hj hb => le_indent_of_body hj hb.le_indent

end

theorem BlockLayout.lt_indent {i j : Nat} {ls : List Line} (h : BlockLayout j ls) (hj : i < j) :
    ∀ l ∈ ls, i < l.indent :=
  fun l hl => Nat.lt_of_lt_of_le hj (h.le_indent l hl)

/-- A statement starts with a line of its indentation that continues no
conditional. -/
theorem StatementLayout.exists_head {i : Nat} {s : List Line} (h : StatementLayout i s) :
    ∃ l rest, s = l :: rest ∧ l.indent = i ∧ l.kind.continuesConditional = false := by
  cases h with
  | @plain l hk =>
    refine ⟨l, [], rfl, rfl, ?_⟩
    cases hl : l.kind <;> simp_all [Line.Kind.isPlain, Line.Kind.continuesConditional]
  | @loop l _ body hl =>
    refine ⟨l, body, rfl, rfl, ?_⟩
    rcases hl with ⟨hk, _⟩ | ⟨hk, _⟩ <;> rw [hk] <;> rfl
  | @conditional l _ body branches hl =>
    refine ⟨l, body ++ branches, rfl, rfl, ?_⟩
    rw [hl.1]
    rfl

theorem BlockLayout.exists_head {i : Nat} {ls : List Line} (h : BlockLayout i ls) :
    ∃ l rest, ls = l :: rest ∧ l.indent = i ∧ l.kind.continuesConditional = false := by
  cases h with
  | last hs => exact hs.exists_head
  | more hs _ =>
    obtain ⟨l, rest, rfl, hl⟩ := hs.exists_head
    exact ⟨l, _, List.cons_append, hl⟩

theorem BranchesLayout.indent_head {i : Nat} {ls : List Line} (h : BranchesLayout i ls) :
    ∀ m ∈ ls.head?, m.indent = i := by
  cases h <;> simp

end Offside

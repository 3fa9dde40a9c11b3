/-
# The expressions of a block and their lines

`Block.expressions` lists the expressions that a block leaves to be
translated, each with the line that its problem would be reported on. That is
the line that holds the expression, with one exception: the condition of a
further branch of a conditional goes by the line of the first branch
(`Held`). A reader goes through the lines of a conditional one by one, and
keeps that its branches so far are all there (`Opened`).

Key definitions: `Block.expressions`, `Traced`, `Line.Holds`, `Held`, `Opened`,
`Entry.Owns`.
Key theorems: `Entry.owns_of_step`, `Entry.opened_of_step`,
`Entry.held_of_step`, `held_of_readSection`, `Block.held_of_ofLines`,
`Block.traced`, `Line.infix_of_holds`.
-/
import Offside.Proofs.Causes
import Offside.Proofs.Extracts
import Offside.Proofs.Faults

namespace Offside

/-! ### Expressions -/

mutual

/-- The expressions of a statement, each with the line it is reported on. -/
def Tree.expressions : Tree → List (Nat × Text)
  | .conditional line branches otherwise =>
    expressionsOfBranches line branches ++ expressionsOfElse otherwise
  | .whileLoop line condition body => (line, condition) :: Block.expressions body
  | .forLoop line loop body => loop.bounds.map (Prod.mk line) ++ Block.expressions body
  | .returned line value => value.toList.map (Prod.mk line)
  | .print line arguments => arguments.map (Prod.mk line)
  | .assignment line _ value => [(line, value)]
  | .update line _ _ value => [(line, value)]
  | .call _ _ | .pass _ | .breakLoop _ | .continueLoop _ | .malformed _ _ => []

/-- The expressions of the statements of a block. -/
def Block.expressions : List Tree → List (Nat × Text)
  | [] => []
  | t :: ts => t.expressions ++ Block.expressions ts

/-- The expressions of the branches of a conditional. -/
def expressionsOfBranches (line : Nat) : List (Text × List Tree) → List (Nat × Text)
  | [] => []
  | (condition, body) :: more =>
    (line, condition) :: Block.expressions body ++ expressionsOfBranches line more

/-- The expressions of the last branch of a conditional, if it has one. -/
def expressionsOfElse : Option (List Tree) → List (Nat × Text)
  | none => []
  | some body => Block.expressions body

end

theorem Block.expressions_append : ∀ a b : Block,
    Block.expressions (a ++ b) = Block.expressions a ++ Block.expressions b
  | [], _ => rfl
  | t :: a, b => by
    rw [List.cons_append, Block.expressions, Block.expressions, Block.expressions_append a b,
      List.append_assoc]

theorem expressionsOfBranches_append (line : Nat) : ∀ a b : List (Text × Block),
    expressionsOfBranches line (a ++ b) = expressionsOfBranches line a ++ expressionsOfBranches line b
  | [], _ => rfl
  | (_, body) :: a, b => by
    rw [List.cons_append, expressionsOfBranches, expressionsOfBranches, expressionsOfBranches_append line a b,
      List.append_assoc]

theorem expressions_strays : ∀ (ls : List Line) (inner : Option Nat), Block.expressions (strays inner ls) = []
  | [], _ => rfl
  | l :: ls, inner => by
    rw [strays, Block.expressions, Tree.expressions, expressions_strays ls none, List.nil_append]

/-! ### Faults -/

/-- A fault comes from one of the expressions `xs`, or from one of the simple
statements `ts`: from a malformed one, or from one that is not allowed where it
stands. -/
inductive Traced (xs : List (Nat × Text)) (ts : List Tree) : Diagnostic → Prop where
  | expression {line : Nat} {e : Text} (h : (line, e) ∈ xs) (ht : translate? e = none) :
    Traced xs ts ⟨line, .unterminatedString e⟩
  | malformed {line : Nat} {p : Problem} (h : .malformed line p ∈ ts) : Traced xs ts ⟨line, p⟩
  | returned {line : Nat} {value : Option Text} (h : .returned line value ∈ ts) :
    Traced xs ts ⟨line, .returnOutsideFunction⟩
  | update {line : Nat} {name value : Text} {operator : Char} (h : .update line name operator value ∈ ts) :
    Traced xs ts ⟨line, .undefinedVariable name⟩

namespace Traced

variable {xs ys : List (Nat × Text)} {ts us : List Tree} {d : Diagnostic}

theorem mono (h : Traced xs ts d) (hxs : xs ⊆ ys) (hts : ts ⊆ us) : Traced ys us d := by
  cases h with
  | expression h ht => exact .expression (hxs h) ht
  | malformed h => exact .malformed (hts h)
  | returned h => exact .returned (hts h)
  | update h => exact .update (hts h)

theorem left (h : Traced xs ts d) (ys : List (Nat × Text)) (us : List Tree) :
    Traced (xs ++ ys) (ts ++ us) d :=
  h.mono (List.subset_append_left ..) (List.subset_append_left ..)

theorem right (h : Traced ys us d) (xs : List (Nat × Text)) (ts : List Tree) :
    Traced (xs ++ ys) (ts ++ us) d :=
  h.mono (List.subset_append_right ..) (List.subset_append_right ..)

theorem of_untranslated {line : Nat} {e : Text} (h : d ∈ untranslated line e) (hmem : (line, e) ∈ xs) :
    Traced xs ts d := by
  unfold untranslated at h
  cases ht : translate? e with
  | some t => simp [ht] at h
  | none =>
    have hd : d = ⟨line, .unterminatedString e⟩ := by simpa [ht] using h
    exact hd ▸ .expression hmem ht

end Traced

-- The recursion is that of the faults.
mutual

theorem Tree.traced (inFunction : Bool) : ∀ (t : Tree) (visible : List Text),
    ∀ d ∈ t.faults inFunction visible, Traced t.expressions t.leaves d
  | .conditional line branches otherwise, visible, d, hd => by
    rw [Tree.faults, List.mem_append] at hd
    rw [Tree.expressions, Tree.leaves]
    exact hd.elim (fun hd => (traced_branches inFunction line branches visible d hd).left _ _)
      fun hd => (traced_else inFunction otherwise visible d hd).right _ _
  | .whileLoop line condition body, visible, d, hd => by
    rw [Tree.faults, List.mem_append] at hd
    rw [Tree.expressions, Tree.leaves]
    rcases hd with hd | hd
    · exact .of_untranslated hd (List.mem_cons_self ..)
    · exact (Block.traced inFunction body visible d hd).right [(line, condition)] []
  | .forLoop line loop body, visible, d, hd => by
    rw [Tree.faults, List.mem_append, List.mem_append, List.mem_append, or_assoc, or_assoc] at hd
    rw [Tree.expressions, Tree.leaves]
    rcases hd with hd | hd | hd | hd
    · exact .of_untranslated hd (by simp [RangeLoop.bounds])
    · exact .of_untranslated hd (by simp [RangeLoop.bounds])
    · exact .of_untranslated hd (by simp [RangeLoop.bounds])
    · exact (Block.traced inFunction body (loop.counter :: visible) d hd).right _ []
  | .returned line value, visible, d, hd => by
    rw [Tree.faults] at hd
    split at hd
    · obtain ⟨v, hv, hd⟩ := List.mem_flatMap.1 hd
      exact .of_untranslated hd (List.mem_map_of_mem hv)
    · exact List.mem_singleton.1 hd ▸ .returned (List.mem_singleton_self _)
  | .print line arguments, visible, d, hd => by
    obtain ⟨a, ha, hd⟩ := List.mem_flatMap.1 hd
    exact .of_untranslated hd (List.mem_map_of_mem ha)
  | .assignment line name value, visible, d, hd => .of_untranslated hd (List.mem_singleton_self _)
  | .update line name operator value, visible, d, hd => by
    rw [Tree.faults] at hd
    split at hd
    · exact .of_untranslated hd (List.mem_singleton_self _)
    · exact List.mem_singleton.1 hd ▸ .update (List.mem_singleton_self _)
  | .malformed line problem, visible, d, hd => List.mem_singleton.1 hd ▸ .malformed (List.mem_singleton_self _)
  | .call _ _, _, _, hd | .pass _, _, _, hd | .breakLoop _, _, _, hd | .continueLoop _, _, _, hd =>
    absurd hd List.not_mem_nil

/-- **Every fault of a block comes from an expression of it, or from a simple
statement that is malformed or not allowed where it stands.** -/
theorem Block.traced (inFunction : Bool) : ∀ (ts : List Tree) (visible : List Text),
    ∀ d ∈ Block.faults inFunction visible ts, Traced (Block.expressions ts) (Block.leaves ts) d
  | [], _, _, hd => absurd hd List.not_mem_nil
  | t :: ts, visible, d, hd => by
    rw [Block.faults, List.mem_append] at hd
    rw [Block.expressions, Block.leaves]
    exact hd.elim (fun hd => (t.traced inFunction visible d hd).left _ _)
      fun hd => (Block.traced inFunction ts (t.introduced ++ visible) d hd).right _ _

theorem traced_branches (inFunction : Bool) (line : Nat) :
    ∀ (branches : List (Text × List Tree)) (visible : List Text),
    ∀ d ∈ faultsOfBranches inFunction visible line branches,
      Traced (expressionsOfBranches line branches) (leavesOfBranches branches) d
  | [], _, _, hd => absurd hd List.not_mem_nil
  | (condition, body) :: more, visible, d, hd => by
    rw [faultsOfBranches, List.mem_append, List.mem_append, or_assoc] at hd
    rw [expressionsOfBranches, leavesOfBranches]
    rcases hd with hd | hd | hd
    · exact .of_untranslated hd (List.mem_cons_self ..)
    · exact ((Block.traced inFunction body visible d hd).right [(line, condition)] []).left _ _
    · exact (traced_branches inFunction line more visible d hd).right _ _

theorem traced_else (inFunction : Bool) : ∀ (otherwise : Option (List Tree)) (visible : List Text),
    ∀ d ∈ faultsOfElse inFunction visible otherwise,
      Traced (expressionsOfElse otherwise) (leavesOfElse otherwise) d
  | none, _, _, hd => absurd hd List.not_mem_nil
  | some body, visible, d, hd => Block.traced inFunction body visible d hd

end

/-! ### The lines of expressions -/

/-- The expressions of what a line says by itself. -/
def Sentence.expressions : Sentence → List Text
  | .whole t => t.expressions.map Prod.snd
  | .refused _ => []
  | .loop condition => [condition]
  | .range counting => counting.bounds
  | .branch condition => [condition]

/-- A line holds an expression of what it says, by itself or as a further
branch of a conditional. -/
inductive Line.Holds (l : Line) : Text → Prop where
  | sentence {s : Sentence} {e : Text} (hs : l.sentence? = some s) (he : e ∈ s.expressions) : l.Holds e
  | branch {e : Text} (hk : l.kind = .elifHeader) (hr : readHeader? "elif" l.text = some (.ok e)) :
    l.Holds e

/-- An expression that is reported on a line is held by it, or the line starts
a conditional and the expression is the condition of a later branch. -/
def Held (ls : List Line) (x : Nat × Text) : Prop :=
  (∃ l ∈ ls, l.number = x.1 ∧ l.Holds x.2) ∨
    ∃ before m rest, ls = before ++ m :: rest ∧ m.kind = .ifHeader ∧ m.number = x.1 ∧
      ∃ k ∈ m.laterBranches rest, k.kind = .elifHeader ∧ readHeader? "elif" k.text = some (.ok x.2)

theorem Held.mono {ls : List Line} {x : Nat × Text} (h : Held ls x) (front more : List Line) :
    Held (front ++ ls ++ more) x := by
  rcases h with ⟨l, hl, hx⟩ | ⟨before, m, rest, rfl, hm, hnumber, k, hk, hcondition⟩
  · exact .inl ⟨l, by simp [hl], hx⟩
  · exact .inr ⟨front ++ before, m, rest ++ more, by simp, hm, hnumber, k,
      mem_laterBranches_append more hk, hcondition⟩

/-- The lines `done` have started the conditional `c` at the indentation `i`,
and every branch that may still follow goes on with it. -/
def Opened (i : Nat) (done : List Line) (c : Chain) : Prop :=
  ∃ before m between, done = before ++ m :: between ∧ m.kind = .ifHeader ∧ m.indent = i ∧
    m.number = c.line ∧ ∀ rest, branchesFrom i rest ⊆ branchesFrom i (between ++ rest)

theorem Line.of_mem_expressions {l : Line} {t : Tree} {x : Nat × Text}
    (hs : l.sentence? = some (.whole t)) (hx : x ∈ t.expressions) : x.1 = l.number ∧ x.2 <:+: l.text := by
  cases speaks_of_sentence hs with
  | @returned rest _ hrest =>
    obtain ⟨v, hv, rfl⟩ := List.mem_map.1 hx
    rw [Option.mem_toList, Option.ite_none_left_eq_some, Option.some.injEq] at hv
    obtain ⟨-, rfl⟩ := hv
    exact ⟨rfl, (Text.infix_trim rest).trans (infix_of_afterKeyword hrest)⟩
  | print _ harguments =>
    obtain ⟨a, ha, rfl⟩ := List.mem_map.1 hx
    exact ⟨rfl, (infix_of_mem_splitArguments ha).trans (infix_of_callArguments harguments)⟩
  | assignment _ ha | update _ ha =>
    rw [List.mem_singleton.1 hx]
    exact ⟨rfl, Assignment.infix_of_ofText ha⟩
  | pass | breakLoop | continueLoop | call | unsupported | collection => cases hx

/-- **An expression that a line holds is part of it, if it cannot be
translated.** The bounds of a range that are made up can be. -/
theorem Line.infix_of_holds {l : Line} {e : Text} (h : l.Holds e) (ht : translate? e = none) :
    e <:+: l.text := by
  cases h with
  | @sentence s _ hs he =>
    have hkind := Line.kind_of_sentence hs
    cases s with
    | whole t =>
      obtain ⟨x, hx, rfl⟩ := List.mem_map.1 he
      exact (Line.of_mem_expressions hs hx).2
    | refused p => cases he
    | loop c =>
      rw [List.mem_singleton.1 he]
      exact infix_of_readHeader hkind.2
    | range counting => exact RangeLoop.infix_of_ofText hkind.2 e he ht
    | branch c =>
      rw [List.mem_singleton.1 he]
      exact infix_of_readHeader hkind.2
  | branch hk hr => exact infix_of_readHeader hr

/-! ### One entry -/

theorem expressions_close (c : Chain) (otherwise : Option Block) :
    (c.close otherwise).expressions = (c.close none).expressions ++ expressionsOfElse otherwise := by
  simp [Chain.close, Tree.expressions, expressionsOfElse]

theorem expressions_add_close (c : Chain) (condition : Text) (b : Block) :
    ((c.add condition b).close none).expressions =
      (c.close none).expressions ++ (c.line, condition) :: Block.expressions b := by
  simp [Chain.add, Chain.close, Tree.expressions, expressionsOfBranches_append, expressionsOfBranches,
    expressionsOfElse]

theorem expressions_closeChain (c : Chain) :
    Block.expressions (closeChain (some c)) = (c.close none).expressions := by
  rw [closeChain, Block.expressions, Block.expressions, List.append_nil]

namespace Entry

/-- The expressions of what an entry comes to, those of the conditional that
may go on among them. -/
def Step.expressions (st : Step) : List (Nat × Text) :=
  Block.expressions st.1 ++ Block.expressions (closeChain st.2)

theorem expressions_started (chain : Option Chain) (st : Step) :
    Step.expressions (closeChain chain ++ st.1, st.2) =
      Block.expressions (closeChain chain) ++ st.expressions := by
  rw [Step.expressions, Step.expressions, Block.expressions_append, List.append_assoc]

theorem expressions_statement (t : Tree) (inner : Option Nat) (ls : List Line) :
    Step.expressions (t :: strays inner ls, none) = t.expressions := by
  rw [Step.expressions, Block.expressions, expressions_strays, closeChain, Block.expressions,
    List.append_nil, List.append_nil]

theorem expressions_goOn (e : Entry) (c : Chain) :
    Step.expressions (e.goOn c) = (c.close none).expressions := by
  rcases e.goOn_cases c with ⟨-, hgo⟩ | ⟨-, hgo⟩ <;> rw [hgo]
  · rw [Step.expressions, expressions_closeChain, Block.expressions, List.nil_append]
  · exact expressions_statement ..

theorem eq_of_mem_goOn {e : Entry} {c c' : Chain} (h : c' ∈ (e.goOn c).2) : c' = c := by
  rcases e.goOn_cases c with ⟨-, hgo⟩ | ⟨-, hgo⟩ <;> rw [hgo] at h
  · exact (Option.some.inj h).symm
  · cases h

variable {e : Entry} {chain : Option Chain} {done : List Line} {st : Step}

/-- Where an expression of what an entry comes to is from: the conditional
before it, its line, its body, or, as the condition of a further branch, the
line of the conditional before it. -/
inductive Owns (e : Entry) (chain : Option Chain) (x : Nat × Text) : Prop where
  | before (hx : x ∈ Block.expressions (closeChain chain))
  | line (hnumber : x.1 = e.line.number) (hholds : e.line.Holds x.2)
  | under {b : Block} (hb : e.body = some (some b)) (hx : x ∈ Block.expressions b)
  | condition {c : Chain} (hc : c ∈ chain) (hnumber : c.line = x.1) (hk : e.line.kind = .elifHeader)
    (hr : readHeader? "elif" e.line.text = some (.ok x.2))

theorem owns_of_step (h : e.step chain e.body = some st) : ∀ x ∈ st.expressions, e.Owns chain x := by
  intro x hx
  cases outcome_of_step h with
  | whole hs =>
    rw [expressions_started chain (_, _), expressions_statement, List.mem_append] at hx
    exact hx.elim .before fun hx => .line (Line.of_mem_expressions hs hx).1
      (.sentence hs (List.mem_map_of_mem hx))
  | refused | bodyless =>
    rw [expressions_started chain (_, _), List.mem_append] at hx
    exact hx.elim .before fun hx => absurd hx List.not_mem_nil
  | lost => exact absurd hx List.not_mem_nil
  | whileLoop hs hb =>
    rw [expressions_started chain (_, _), expressions_statement, Tree.expressions, List.mem_append,
      List.mem_cons] at hx
    rcases hx with hx | rfl | hx
    · exact .before hx
    · exact .line rfl (.sentence hs (List.mem_singleton_self _))
    · exact .under hb hx
  | forLoop hs hb =>
    rw [expressions_started chain (_, _), expressions_statement, Tree.expressions, List.mem_append,
      List.mem_append] at hx
    rcases hx with hx | hx | hx
    · exact .before hx
    · obtain ⟨bound, hbound, rfl⟩ := List.mem_map.1 hx
      exact .line rfl (.sentence hs hbound)
    · exact .under hb hx
  | branch hs hb =>
    rw [expressions_started, expressions_goOn, List.mem_append] at hx
    simp only [Chain.close, Tree.expressions, expressionsOfBranches, expressionsOfElse, List.append_nil,
      List.mem_cons] at hx
    rcases hx with hx | rfl | hx
    · exact .before hx
    · exact .line rfl (.sentence hs (List.mem_singleton_self _))
    · exact .under hb hx
  | elseIf hk hr hb =>
    rw [expressions_goOn, expressions_add_close, List.mem_append, List.mem_cons] at hx
    rcases hx with hx | rfl | hx
    · exact .before (by rwa [expressions_closeChain])
    · exact .condition rfl rfl hk hr
    · exact .under hb hx
  | orElse hk hr ht hb =>
    rw [expressions_statement, expressions_close, List.mem_append, expressionsOfElse] at hx
    rcases hx with hx | hx
    · exact .before (by rwa [expressions_closeChain])
    · exact .under hb hx

/-- A further branch is one of the conditional, with whatever comes after it. -/
theorem subset_branchesFrom (he : e.Nested) (hk : e.line.kind = .elifHeader) {between : List Line}
    (h : ∀ rest, branchesFrom e.line.indent rest ⊆ branchesFrom e.line.indent (between ++ rest)) (rest : List Line) :
    e.line :: branchesFrom e.line.indent rest ⊆ branchesFrom e.line.indent (between ++ e.lines ++ rest) := by
  have hline : branchesFrom e.line.indent (e.lines ++ rest) = e.line :: branchesFrom e.line.indent rest := by
    rw [e.lines_eq, List.cons_append, branchesFrom_branch (by rw [hk]; rfl), branchesFrom_under (e.le_indent he)]
  rw [List.append_assoc, ← hline]
  exact h _

/-- The conditional that may go on after an entry has been started by its line
or by the one before. -/
theorem opened_of_step (he : e.Nested) (hopened : ∀ c ∈ chain, Opened e.line.indent done c)
    (h : e.step chain e.body = some st) : ∀ c ∈ st.2, Opened e.line.indent (done ++ e.lines) c := by
  intro c hc
  cases outcome_of_step h with
  | branch hs hb =>
    rw [eq_of_mem_goOn hc, e.lines_eq]
    refine ⟨done, e.line, _, rfl, (Line.kind_of_sentence hs).1, rfl, rfl, fun rest => ?_⟩
    rw [branchesFrom_under (e.le_indent he)]
    exact List.Subset.refl _
  | @elseIf chain condition b hk hr hb =>
    obtain ⟨first, m, between, rfl, hm, hindent, hnumber, hbranches⟩ := hopened chain rfl
    rw [eq_of_mem_goOn hc]
    refine ⟨first, m, between ++ e.lines, by simp, hm, hindent, hnumber, fun rest => ?_⟩
    exact List.Subset.trans (List.subset_cons_self ..) (subset_branchesFrom he hk hbranches rest)
  | _ => cases hc

/-- The condition of a further branch goes by the line of the first one. -/
theorem held_condition (he : e.Nested) {c : Chain} (hopened : Opened e.line.indent done c)
    (hk : e.line.kind = .elifHeader) {condition : Text}
    (hr : readHeader? "elif" e.line.text = some (.ok condition)) : Held (done ++ e.lines) (c.line, condition) := by
  obtain ⟨first, m, between, rfl, hm, hindent, hnumber, hbranches⟩ := hopened
  refine .inr ⟨first, m, between ++ e.lines, by simp, hm, hnumber, e.line, ?_, hk, hr⟩
  have hmem := subset_branchesFrom he hk hbranches [] (List.mem_cons_self ..)
  rw [List.append_nil] at hmem
  rwa [Line.laterBranches, if_pos (.inl hm), hindent]

/-- **What an entry comes to is held by its lines and those before it.** -/
theorem held_of_step (he : e.Nested) (hopened : ∀ c ∈ chain, Opened e.line.indent done c)
    (hchain : ∀ x ∈ Block.expressions (closeChain chain), Held done x)
    (hbody : ∀ b, e.body = some (some b) → ∀ x ∈ Block.expressions b, Held (Outline.lines e.under) x)
    (h : e.step chain e.body = some st) : ∀ x ∈ st.expressions, Held (done ++ e.lines) x := by
  intro x hx
  cases owns_of_step h x hx with
  | before hx => exact (hchain x hx).mono [] e.lines
  | line hnumber hholds =>
    exact .inl ⟨e.line, List.mem_append_right _ e.line_mem_lines, hnumber.symm, hholds⟩
  | under hb hx =>
    have hmono := (hbody _ hb x hx).mono (done ++ [e.line]) []
    rwa [List.append_nil, List.append_assoc, List.singleton_append, ← e.lines_eq] at hmono
  | condition hc hnumber hk hr =>
    have hheld := held_condition he (hopened _ hc) hk hr
    rwa [hnumber] at hheld

end Entry

/-! ### Whole blocks -/

-- The recursion is that of reading; `done` are the lines of the section that
-- have been read, among which an open conditional has started.
mutual

theorem Entry.held_of_body : ∀ (e : Entry), e.Nested → ∀ b, e.body = some (some b) →
    ∀ x ∈ Block.expressions b, Held (Outline.lines e.under) x
  | .mk _ [], _, _, hb => by simp [Entry.body] at hb
  | .mk l (s :: more), hn, b, hb => by
    intro x hx
    rw [Entry.body, Option.map_eq_some_iff] at hb
    obtain ⟨b', hread, hb⟩ := hb
    cases hb
    rw [Entry.Nested, Outline.Nested] at hn
    obtain ⟨⟨i, -, -, hs, -⟩, -⟩ := hn
    have hsection := held_of_readSection s [] hs (fun c h => absurd h (Option.not_mem_none c))
      (fun _ h => absurd h List.not_mem_nil) hread x hx
    exact hsection.mono [] (Outline.lines more)

/-- **The expressions of what a section is read as are held by its lines and
those before it.** -/
theorem held_of_readSection : ∀ (s : List Entry) {i : Nat} {chain : Option Chain} (done : List Line)
    {b : Block}, Section.Nested i s → (∀ c ∈ chain, Opened i done c) →
    (∀ x ∈ Block.expressions (closeChain chain), Held done x) → readSection chain s = some b →
    ∀ x ∈ Block.expressions b, Held (done ++ Section.lines s) x
  | [], _, chain, done, b, _, _, hchain, h => by
    intro x hx
    rw [readSection, Option.some.injEq] at h
    rw [Section.lines, List.append_nil]
    exact hchain x (h ▸ hx)
  | e :: es, i, chain, done, b, hn, hopened, hchain, h => by
    intro x hx
    rw [Section.Nested] at hn
    obtain ⟨rfl, he, hes⟩ := hn
    rw [readSection_cons] at h
    obtain ⟨st, hstep, h⟩ := Option.bind_eq_some_iff.1 h
    obtain ⟨more, hmore, rfl⟩ := Option.map_eq_some_iff.1 h
    have hheld := Entry.held_of_step he hopened hchain (e.held_of_body he) hstep
    have hnext := Entry.opened_of_step he hopened hstep
    have hrest := held_of_readSection es (done ++ e.lines) hes hnext
      (fun x hx => hheld x (List.mem_append_right _ hx)) hmore
    rw [Section.lines, ← List.append_assoc]
    rw [Block.expressions_append, List.mem_append] at hx
    rcases hx with hx | hx
    · exact (hheld x (List.mem_append_left _ hx)).mono [] (Section.lines es)
    · exact hrest x hx

end

theorem held_of_section {s : List Entry} {i : Nat} {b : Block} (hn : Section.Nested i s)
    (h : readSection none s = some b) : ∀ x ∈ Block.expressions b, Held (Section.lines s) x :=
  held_of_readSection s [] hn (fun c h => absurd h (Option.not_mem_none c))
    (fun _ h => absurd h List.not_mem_nil) h

/-- **The expressions of a block are held by its lines.** -/
theorem Block.held_of_ofLines {ls : List Line} {b : Block} (h : Block.ofLines? ls = some b) :
    ∀ x ∈ Block.expressions b, Held ls x := by
  refine Block.induction_ofLines (P := fun ls b => ∀ x ∈ Block.expressions b, Held ls x)
    (fun x hx => absurd hx List.not_mem_nil) ?append (fun hn hread => held_of_section hn hread) ?report h
  case append =>
    intro ls ms a b ha hb x hx
    rw [Block.expressions_append, List.mem_append] at hx
    rcases hx with hx | hx
    · exact (ha x hx).mono [] ms
    · have hmono := (hb x hx).mono ls []
      rwa [List.append_nil] at hmono
  case report =>
    intro s b hb x hx
    have hdedent : Block.expressions (dedent s) = [] := by cases s <;> rfl
    rw [Block.expressions_append, hdedent, List.nil_append] at hx
    exact hb x hx

end Offside

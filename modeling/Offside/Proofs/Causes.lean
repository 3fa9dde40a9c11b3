/-
# What problems are about

Every simple statement of a block is read from one of the block's lines: it is
what the line says by itself, or a problem that the line has (`Line.Makes`). A
malformed statement thus has the number of its line, and a problem that this
line can have. What one entry of a section comes to is read from the lines of
the entry, or was in its body or in the conditional before it
(`Entry.accounts_of_step`), so what a section comes to is read from its lines.

A line of a known kind is never reported as an unsupported statement: its kind
promises what the reader asks for.

Key definitions: `Line.Causes`, `Accounted`, `Line.Makes`, `MadeBy`.
Key theorems: `Entry.accounts_of_step`, `made_of_readSection`,
`Block.made_of_ofLines`, `Block.accounted_of_ofLines`,
`Line.Classified.kind_of_causes`.
-/
import Offside.Proofs.Leaves
import Offside.Proofs.Nesting
import Offside.Proofs.Steps

namespace Offside

/-- The problems that a line can have. -/
inductive Line.Causes (l : Line) : Problem → Prop where
  | unexpectedIndent : l.Causes .unexpectedIndent
  | inconsistentDedent : l.Causes .inconsistentDedent
  | missingBody (hk : l.kind.isHeader = true) : l.Causes (.missingBody l.text)
  | missingColon (hk : l.kind = .elseHeader) : l.Causes (.missingColon "else")
  | elseIf {p : Problem} (hk : l.kind = .elifHeader) (hr : readHeader? "elif" l.text = some (.error p)) :
    l.Causes p
  | refused {p : Problem} (hs : l.sentence? = some (.refused p)) : l.Causes p
  | whole {p : Problem} (hs : l.sentence? = some (.whole (.malformed l.number p))) : l.Causes p

/-- A problem that one of the lines `ls` has. -/
def Accounted (ls : List Line) (d : Diagnostic) : Prop :=
  ∃ l ∈ ls, l.number = d.line ∧ l.Causes d.problem

/-- The simple statements that a line is read as: what it says by itself, and
its problems. -/
inductive Line.Makes (l : Line) : Tree → Prop where
  | whole {t : Tree} (hs : l.sentence? = some (.whole t)) : l.Makes t
  | problem {p : Problem} (hp : l.Causes p) : l.Makes (.malformed l.number p)

/-- A simple statement that is read from one of the lines `ls`. -/
def MadeBy (ls : List Line) (t : Tree) : Prop := ∃ l ∈ ls, l.Makes t

theorem MadeBy.mono {ls more : List Line} {t : Tree} (h : MadeBy ls t) (hsub : ∀ l ∈ ls, l ∈ more) :
    MadeBy more t := by
  obtain ⟨l, hl, ht⟩ := h
  exact ⟨l, hsub l hl, ht⟩

/-- A statement that a line is by itself is simple, and a problem has the
number of the line. -/
theorem Line.leaves_of_whole {l : Line} {t : Tree} (hs : l.sentence? = some (.whole t)) :
    t.leaves = [t] ∧ ∀ {n p}, t = .malformed n p → n = l.number := by
  cases speaks_of_sentence hs with
  | unsupported | collection => exact ⟨rfl, fun h => (Tree.malformed.inj h).1.symm⟩
  | _ => exact ⟨rfl, nofun⟩

theorem Line.Makes.causes {l : Line} {n : Nat} {p : Problem} (h : l.Makes (.malformed n p)) :
    l.number = n ∧ l.Causes p := by
  cases h with
  | whole hs =>
    obtain rfl := (Line.leaves_of_whole hs).2 rfl
    exact ⟨rfl, .whole hs⟩
  | problem hp => exact ⟨rfl, hp⟩

/-! ### One entry -/

theorem made_of_strays : ∀ {inner : Option Nat} {ls : List Line},
    ∀ t ∈ Block.leaves (strays inner ls), MadeBy ls t
  | _, [], _, ht => absurd ht List.not_mem_nil
  | inner, l :: ls, t, ht => by
    rw [strays, Block.leaves, Tree.leaves, List.singleton_append, List.mem_cons] at ht
    rcases ht with rfl | ht
    · refine ⟨l, List.mem_cons_self .., .problem ?_⟩
      by_cases hdedent : inner.any (l.indent < ·) = true
      · simp only [if_pos hdedent]
        exact .inconsistentDedent
      · simp only [if_neg hdedent]
        exact .unexpectedIndent
    · exact (made_of_strays t ht).mono fun m hm => List.mem_cons_of_mem l hm

namespace Entry

/-- The leaves of what an entry comes to, those of the conditional that may go
on among them. -/
def Step.leaves (st : Step) : List Tree := Block.leaves st.1 ++ Block.leaves (closeChain st.2)

/-- A simple statement is accounted for by an entry with the body `body` after
the conditional `chain`: it was in one of these, or a line of the entry is read
as it. -/
def Accounts (e : Entry) (chain : Option Chain) (body : Option (Option Block)) (t : Tree) : Prop :=
  t ∈ Block.leaves (closeChain chain) ∨ (∃ b, body = some (some b) ∧ t ∈ Block.leaves b) ∨ MadeBy e.lines t

section Steps

variable {e : Entry} {chain : Option Chain} {body : Option (Option Block)} {st : Step}

theorem line_mem_lines (e : Entry) : e.line ∈ e.lines := by
  cases e
  exact List.mem_cons_self ..

theorem mem_lines_of_under {l : Line} (h : l ∈ Outline.lines e.under) : l ∈ e.lines := by
  cases e
  exact List.mem_cons_of_mem _ h

theorem made_of_leftover {inner : Option Nat} {t : Tree} (h : t ∈ Block.leaves (strays inner e.leftover)) :
    MadeBy e.lines t := by
  refine (made_of_strays t h).mono fun l hl => mem_lines_of_under ?_
  obtain ⟨e', he', rfl⟩ := List.mem_map.1 hl
  obtain ⟨s, hs, hes⟩ := List.mem_flatten.1 he'
  have hflat : e' ∈ e.under.flatten := List.mem_flatten.2 ⟨s, List.mem_of_mem_drop hs, hes⟩
  exact Outline.mem_lines_of_mem_heads _ (List.mem_map_of_mem hflat)

theorem causes_of_branchFault {l : Line} {p : Problem} (h : l.BranchFault p) : l.Causes p := by
  cases h with
  | condition hk hr => exact .elseIf hk hr
  | colon hk => exact .missingColon hk
  | body hk =>
    refine .missingBody ?_
    cases hl : l.kind <;> rw [hl] at hk <;> first | rfl | cases hk

/-- The leaves of a conditional, and of the lines that its last body leaves
over. -/
theorem made_of_goOn {c : Chain} :
    ∀ t ∈ Step.leaves (e.goOn c), t ∈ (c.close none).leaves ∨ MadeBy e.lines t := by
  intro t ht
  rcases goOn_cases e c with ⟨-, hgo⟩ | ⟨-, hgo⟩
  · rw [hgo, Step.leaves, closeChain, Block.leaves, Block.leaves, Block.leaves, List.append_nil,
      List.nil_append] at ht
    exact .inl ht
  · rw [hgo, Step.leaves, closeChain, Block.leaves, Block.leaves, List.append_nil, List.mem_append] at ht
    exact ht.imp_right made_of_leftover

theorem leaves_close (c : Chain) (otherwise : Option Block) :
    (c.close otherwise).leaves = (c.close none).leaves ++ leavesOfElse otherwise := by
  simp [Chain.close, Tree.leaves, leavesOfElse]

theorem leaves_add_close (c : Chain) (condition : Text) (b : Block) :
    ((c.add condition b).close none).leaves = (c.close none).leaves ++ Block.leaves b := by
  simp [Chain.add, Chain.close, Tree.leaves, leavesOfBranches_append, leavesOfBranches, leavesOfElse]

theorem mem_leaves_started {trees : Block} {next : Option Chain} {t : Tree} :
    t ∈ Step.leaves (closeChain chain ++ trees, next) ↔
      t ∈ Block.leaves (closeChain chain) ∨ t ∈ Step.leaves (trees, next) := by
  rw [Step.leaves, Step.leaves, Block.leaves_append, List.append_assoc, List.mem_append]

theorem mem_leaves_ended {t u : Tree} {trees : Block} :
    t ∈ Step.leaves (u :: trees, none) ↔ t ∈ u.leaves ∨ t ∈ Block.leaves trees := by
  rw [Step.leaves, closeChain, Block.leaves, Block.leaves, List.append_nil, List.mem_append]

/-- **What an entry comes to is accounted for by it, its body and the
conditional before it.** -/
theorem accounts_of_step (h : e.step chain body = some st) : ∀ t ∈ st.leaves, e.Accounts chain body t := by
  intro t ht
  have own : ∀ {p}, e.line.Causes p → ∀ {chain}, t ∈ Step.leaves ([.malformed e.line.number p], none) →
      e.Accounts chain body t := by
    intro p hp chain ht
    have ht : t = .malformed e.line.number p := by
      simpa [mem_leaves_ended, Tree.leaves, Block.leaves] using ht
    exact .inr (.inr ⟨e.line, e.line_mem_lines, ht ▸ .problem hp⟩)
  cases outcome_of_step h with
  | whole hs =>
    rw [mem_leaves_started, mem_leaves_ended, (Line.leaves_of_whole hs).1, List.mem_singleton] at ht
    rcases ht with ht | rfl | ht
    · exact .inl ht
    · exact .inr (.inr ⟨e.line, e.line_mem_lines, .whole hs⟩)
    · have hstray := (made_of_strays t ht).mono Outline.mem_lines_of_mem_heads
      exact .inr (.inr (hstray.mono fun l => mem_lines_of_under))
  | refused hs => exact (mem_leaves_started.1 ht).elim .inl (own (.refused hs))
  | bodyless hk => exact (mem_leaves_started.1 ht).elim .inl (own (.missingBody hk))
  | whileLoop hs hb | forLoop hs hb =>
    rw [mem_leaves_started, mem_leaves_ended] at ht
    rcases ht with ht | ht | ht
    · exact .inl ht
    · exact .inr (.inl ⟨_, hb, ht⟩)
    · exact .inr (.inr (made_of_leftover ht))
  | branch hs hb =>
    rcases mem_leaves_started.1 ht with ht | ht
    · exact .inl ht
    · have hclosed := made_of_goOn t ht
      simp only [Chain.close, Tree.leaves, leavesOfBranches, leavesOfElse, List.append_nil] at hclosed
      exact .inr (hclosed.imp_left fun ht => ⟨_, hb, ht⟩)
  | lost hf => exact own (causes_of_branchFault hf) ht
  | @elseIf c _ b hk hr hb =>
    have hclosed := made_of_goOn t ht
    rw [leaves_add_close, List.mem_append, or_assoc] at hclosed
    rcases hclosed with ht | ht | ht
    · exact .inl (by simpa [closeChain, Block.leaves] using ht)
    · exact .inr (.inl ⟨b, hb, ht⟩)
    · exact .inr (.inr ht)
  | @orElse c _ b hk hr _ hb =>
    rw [mem_leaves_ended, leaves_close, List.mem_append, or_assoc] at ht
    rcases ht with ht | ht | ht
    · exact .inl (by simpa [closeChain, Block.leaves] using ht)
    · exact .inr (.inl ⟨b, hb, ht⟩)
    · exact .inr (.inr (made_of_leftover ht))

end Steps

end Entry

/-! ### Whole blocks -/

mutual

theorem Entry.made_of_body : ∀ (e : Entry) {b : Block}, e.body = some (some b) →
    ∀ t ∈ Block.leaves b, MadeBy e.lines t
  | .mk _ [], _, h => by simp [Entry.body] at h
  | .mk l (s :: more), b, h => by
    intro t ht
    rw [Entry.body, Option.map_eq_some_iff] at h
    obtain ⟨b', hread, hb⟩ := h
    rw [Option.some.inj hb] at hread
    rcases made_of_readSection s hread t ht with hnone | ht
    · exact absurd hnone (List.not_mem_nil)
    · refine ht.mono fun m hm => ?_
      rw [Entry.lines, Outline.lines]
      exact List.mem_cons_of_mem l (List.mem_append_left _ hm)

/-- **What a section is read as is accounted for by its lines and the
conditional before it.** -/
theorem made_of_readSection : ∀ (s : List Entry) {chain : Option Chain} {b : Block},
    readSection chain s = some b →
    ∀ t ∈ Block.leaves b, t ∈ Block.leaves (closeChain chain) ∨ MadeBy (Section.lines s) t
  | [], chain, b, h => by
    rw [readSection] at h
    cases h
    exact fun t ht => .inl ht
  | e :: es, chain, b, h => by
    intro t ht
    obtain ⟨trees, next, more, hstep, hmore, rfl⟩ := exists_step_of_readSection h
    have hfirst : t ∈ Entry.Step.leaves (trees, next) ∨ MadeBy (Section.lines es) t := by
      rw [Block.leaves_append, List.mem_append] at ht
      rw [Entry.Step.leaves, List.mem_append, or_assoc]
      exact ht.imp_right (made_of_readSection es hmore t)
    rw [Section.lines]
    rcases hfirst with ht | ht
    · rcases Entry.accounts_of_step hstep t ht with hchain | ⟨b, hb, ht⟩ | ht
      · exact .inl hchain
      · exact .inr ((e.made_of_body hb t ht).mono fun m hm => List.mem_append_left _ hm)
      · exact .inr (ht.mono fun m hm => List.mem_append_left _ hm)
    · exact .inr (ht.mono fun m hm => List.mem_append_right _ hm)

end

theorem made_of_section {s : List Entry} {b : Block} (h : readSection none s = some b) :
    ∀ t ∈ Block.leaves b, MadeBy (Section.lines s) t := by
  intro t ht
  rcases made_of_readSection s h t ht with hnone | ht
  · exact absurd hnone List.not_mem_nil
  · exact ht

/-- **Every simple statement of a block is read from a line of the block.** -/
theorem Block.made_of_ofLines {ls : List Line} {b : Block} (h : Block.ofLines? ls = some b) :
    ∀ t ∈ Block.leaves b, MadeBy ls t := by
  refine Block.induction_ofLines (P := fun ls b => ∀ t ∈ Block.leaves b, MadeBy ls t)
    (fun t ht => absurd ht List.not_mem_nil) ?append (fun _ hread => made_of_section hread) ?report h
  case append =>
    intro ls ms a b ha hb t ht
    rw [Block.leaves_append, List.mem_append] at ht
    rcases ht with ht | ht
    · exact (ha t ht).mono fun m hm => List.mem_append_left _ hm
    · exact (hb t ht).mono fun m hm => List.mem_append_right _ hm
  case report =>
    intro s b hb t ht
    rw [Block.leaves_append, List.mem_append] at ht
    rcases ht with ht | ht
    · -- the dedent is reported for the first line of the section
      cases s with
      | nil => cases ht
      | cons e es =>
        cases List.mem_singleton.1 ht
        exact ⟨e.line, Section.line_mem_lines e (List.mem_cons_self ..), .problem .inconsistentDedent⟩
    · exact hb t ht

/-- **Every problem of a block is one that a line of the block has.** -/
theorem Block.accounted_of_ofLines {ls : List Line} {b : Block} (h : Block.ofLines? ls = some b) :
    ∀ d ∈ Block.problems b, Accounted ls d := by
  intro d hd
  obtain ⟨l, hl, hmakes⟩ := Block.made_of_ofLines h _ (Block.malformed_mem_leaves b d hd)
  exact ⟨l, hl, hmakes.causes⟩

/-! ### Unsupported statements -/

theorem error_of_rangeLoop {t : Text} {p : Problem} (h : RangeLoop.ofText? t = some (.error p)) :
    p = .missingColon "for" ∨ p = .unsupportedLoop t ∨ ∃ n, p = .rangeArguments n := by
  obtain ⟨rest, -, h⟩ := Option.map_eq_some_iff.1 h
  unfold RangeLoop.ofHeader at h
  split at h
  · cases h
    exact .inl rfl
  · split at h
    · cases h
      exact .inr (.inl rfl)
    · unfold RangeLoop.ofArguments at h
      split at h <;> cases h
      exact .inr (.inr ⟨_, rfl⟩)

/-- Whether a problem is one that a line is refused for. -/
def Problem.isRefusal : Problem → Bool
  | malformedDefinition _ | nestedDefinition _ | missingColon _ | missingCondition _ | danglingBranch _
  | unsupportedLoop _ | rangeArguments _ => true
  | _ => false

theorem Line.isRefusal_of_refused {l : Line} {p : Problem} (h : l.sentence? = some (.refused p)) :
    p.isRefusal = true := by
  cases speaks_of_sentence h with
  | badBranch _ hr | badLoop _ hr => rcases error_of_readHeader hr with rfl | rfl <;> rfl
  | badRange _ hr => rcases error_of_rangeLoop hr with rfl | rfl | ⟨n, rfl⟩ <;> rfl
  | nested | badDefinition | danglingElif | danglingElse => rfl

theorem Line.problem_of_whole {l : Line} {n : Nat} {p : Problem}
    (h : l.sentence? = some (.whole (.malformed n p))) :
    p = .unsupportedStatement l.text ∨ ∃ kind, p = .unsupportedCollection kind := by
  cases speaks_of_sentence h with
  | unsupported => exact .inl rfl
  | @collection kind => exact .inr ⟨kind, rfl⟩

/-- An open literal is no problem of a line: it is found when an expression is
translated. -/
theorem Line.Causes.ne_unterminatedString {l : Line} {p : Problem} (h : l.Causes p) (e : Text) :
    p ≠ .unterminatedString e := by
  rintro rfl
  cases h with
  | elseIf hk hr => rcases error_of_readHeader hr with hp | hp <;> cases hp
  | refused hs => cases Line.isRefusal_of_refused hs
  | whole hs => rcases Line.problem_of_whole hs with hp | ⟨kind, hp⟩ <;> cases hp

/-- **Only a line of no known kind is an unsupported statement.** -/
theorem Line.Classified.kind_of_causes {l : Line} {t : Text} (hl : l.Classified)
    (h : l.Causes (.unsupportedStatement t)) : l.kind = .unknown ∧ l.text = t := by
  cases h with
  | elseIf hk hr => rcases error_of_readHeader hr with hp | hp <;> cases hp
  | refused hs => cases Line.isRefusal_of_refused hs
  | whole hs =>
    have hplain : l.kind.isPlain = false := by
      by_contra hplain
      obtain ⟨tree, htree, hstates⟩ := hl.exists_states (by simpa using hplain)
      rw [hs] at htree
      cases htree
      cases hstates
    cases speaks_of_sentence hs with
    | unsupported hk =>
      rw [hplain] at hk
      exact ⟨hk.resolve_right Bool.false_ne_true, rfl⟩

end Offside

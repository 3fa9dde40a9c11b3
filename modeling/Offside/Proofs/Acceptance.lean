/-
# Which lines are read without a problem

A list of classified lines is read without a malformed statement exactly when
it is empty or a well-laid-out block at the indentation of its first line.

One way goes by the outline: a section that is read without a problem is made
of clean steps, and each of them adds a statement or a branch to a layout
(`layout_of_readSection`). The other way goes by the layout
(`BlockLayout.reading`).

Key definition: `Follows`.
Key theorems: `layout_of_readSection`, `Block.forall₂_parts_of_ofLines`,
`Block.problems_eq_nil_iff`.
-/
import Offside.Proofs.Reading

namespace Offside

/-! ### From a reading to a layout -/

/-- Lines that go on with the conditional `chain`, if one may go on, and then
are statements at the indentation `i`. -/
def Follows (i : Nat) (chain : Option Chain) (ls : List Line) : Prop :=
  ∃ branches rest, ls = branches ++ rest ∧ BranchesLayout i branches ∧
    (chain = none → branches = []) ∧ (rest = [] ∨ BlockLayout i rest)

namespace Follows

variable {i : Nat} {chain next : Option Chain} {ls : List Line}

theorem nil : Follows i chain [] := ⟨[], [], rfl, .none, fun _ => rfl, .inl rfl⟩

theorem block (h : Follows i none ls) : ls = [] ∨ BlockLayout i ls := by
  obtain ⟨branches, rest, rfl, _, hnone, hrest⟩ := h
  rw [hnone rfl, List.nil_append]
  exact hrest

theorem statement {s : List Line} (hs : StatementLayout i s) (h : Follows i none ls) :
    Follows i chain (s ++ ls) := by
  refine ⟨[], s ++ ls, rfl, .none, fun _ => rfl, .inr ?_⟩
  rcases h.block with rfl | hb
  · rw [List.append_nil]
    exact .last hs
  · exact .more hs hb

theorem conditional {l : Line} {j : Nat} {body : List Line} (hl : l.OpensConditional)
    (hj : l.indent < j) (hb : BlockLayout j body) (h : Follows l.indent next ls) :
    Follows l.indent chain (l :: (body ++ ls)) := by
  obtain ⟨branches, rest, rfl, hbranches, _, hrest⟩ := h
  have hs := StatementLayout.conditional hl hj hb hbranches
  refine ⟨[], l :: (body ++ (branches ++ rest)), rfl, .none, fun _ => rfl, .inr ?_⟩
  rcases hrest with rfl | hr
  · rw [List.append_nil]
    exact .last hs
  · rw [← List.append_assoc, ← List.cons_append]
    exact .more hs hr

theorem elseIf {l : Line} {j : Nat} {body : List Line} {c : Chain} (hl : l.OpensElseIf)
    (hj : l.indent < j) (hb : BlockLayout j body) (h : Follows l.indent next ls) :
    Follows l.indent (some c) (l :: (body ++ ls)) := by
  obtain ⟨branches, rest, rfl, hbranches, _, hrest⟩ := h
  refine ⟨l :: (body ++ branches), rest, ?_, .elseIf hl hj hb hbranches, by simp, hrest⟩
  rw [List.cons_append, List.append_assoc]

theorem orElse {l : Line} {j : Nat} {body : List Line} {c : Chain} (hl : l.OpensElse)
    (hj : l.indent < j) (hb : BlockLayout j body) (h : Follows l.indent none ls) :
    Follows l.indent (some c) (l :: (body ++ ls)) :=
  ⟨l :: body, ls, (List.cons_append).symm, .orElse hl hj hb, by simp, h.block⟩

end Follows

mutual

/-- What is under an entry is a block, if its body is read without a problem
and leaves no line over. -/
theorem Entry.layout_of_body : ∀ (e : Entry) {b : Block}, e.Nested → e.body = some (some b) →
    Block.problems b = [] → e.leftover = [] →
    ∃ j ls, e.lines = e.line :: ls ∧ e.line.indent < j ∧ BlockLayout j ls
  | .mk l [], b, _, h, _, _ => by simp [Entry.body] at h
  | .mk l (s :: more), b, hn, h, hp, hl => by
    obtain ⟨⟨j, hj, hlt, hs, _⟩, hm⟩ := hn
    have hmore : more = [] := Outline.eq_nil_of_heads hm hl
    have hread : readSection none s = some b := by
      rw [Entry.body, Option.map_eq_some_iff] at h
      obtain ⟨b', hb', hsome⟩ := h
      rw [hb', Option.some.inj hsome]
    refine ⟨j, Section.lines s, ?_, hlt, ?_⟩
    · rw [hmore, Entry.lines, Outline.lines, Outline.lines, List.append_nil]
      rfl
    · rcases (layout_of_readSection s hs hread hp).block with hnil | hb
      · cases s with
        | nil => cases hj
        | cons e es => cases e; simp [Section.lines, Entry.lines] at hnil
      · exact hb

/-- **A section that is read without a problem is well laid out.** -/
theorem layout_of_readSection : ∀ (s : List Entry) {i : Nat} {chain : Option Chain} {b : Block},
    Section.Nested i s → readSection chain s = some b → Block.problems b = [] →
    Follows i chain (Section.lines s)
  | [], _, _, _, _, _, _ => Follows.nil
  | e :: es, i, chain, b, hn, h, hp => by
    obtain ⟨hi, he, hes⟩ := hn
    subst hi
    obtain ⟨trees, next, more, hstep, hmore, rfl⟩ := exists_step_of_readSection h
    rw [Block.problems_append, List.append_eq_nil_iff] at hp
    have htail := layout_of_readSection es hes hmore hp.2
    have hnext := problems_closeChain_of_readSection hmore hp.2
    rw [Section.lines]
    -- every clean step adds one rule to the layout of the entries after it
    cases Entry.clean_of_step hstep hp.1 with
    | plain hs ht hu =>
      have hunder : e.under = [] := by
        cases e
        exact Outline.eq_nil_of_heads he hu
      have hlines : e.lines = [e.line] := by
        cases e
        rw [Entry.under] at hunder
        rw [Entry.lines, hunder, Outline.lines]
        rfl
      rw [hlines]
      exact .statement (.plain (Line.isPlain_of_whole hs ht)) htail
    | whileLoop hs hb hl =>
      rw [Block.problems_append, List.append_eq_nil_iff] at hp
      have hbody := List.append_eq_nil_iff.1 hp.1.2
      obtain ⟨j, ls, hlines, hj, hlay⟩ := e.layout_of_body he hb hbody.1 hl
      obtain ⟨hk, hr⟩ := Line.kind_of_sentence hs
      rw [hlines]
      exact .statement (.loop (.inl ⟨hk, _, hr⟩) hj hlay) htail
    | forLoop hs hb hl =>
      rw [Block.problems_append, List.append_eq_nil_iff] at hp
      have hbody := List.append_eq_nil_iff.1 hp.1.2
      obtain ⟨j, ls, hlines, hj, hlay⟩ := e.layout_of_body he hb hbody.1 hl
      obtain ⟨hk, hr⟩ := Line.kind_of_sentence hs
      rw [hlines]
      exact .statement (.loop (.inr ⟨hk, _, hr⟩) hj hlay) htail
    | branch hs hb hl =>
      simp only [closeChain, Chain.close, Block.problems, Tree.problems, problemsOfElse,
        problemsOfBranches, List.append_nil] at hnext
      obtain ⟨j, ls, hlines, hj, hlay⟩ := e.layout_of_body he hb hnext hl
      obtain ⟨hk, hr⟩ := Line.kind_of_sentence hs
      rw [hlines, List.cons_append]
      exact .conditional ⟨hk, _, hr⟩ hj hlay htail
    | elseIf hk hr hb hl =>
      simp only [closeChain, Chain.close, Chain.add, Block.problems, Tree.problems, problemsOfElse,
        problemsOfBranches, problemsOfBranches_append, List.append_nil,
        List.append_eq_nil_iff] at hnext
      obtain ⟨j, ls, hlines, hj, hlay⟩ := e.layout_of_body he hb hnext.2 hl
      rw [hlines, List.cons_append]
      exact .elseIf ⟨hk, _, hr⟩ hj hlay htail
    | orElse hk hr ht hb hl =>
      simp only [Chain.close, Block.problems, Tree.problems, problemsOfElse, List.append_nil,
        List.append_eq_nil_iff] at hp
      obtain ⟨j, ls, hlines, hj, hlay⟩ := e.layout_of_body he hb hp.1.2 hl
      rw [hlines, List.cons_append]
      exact .orElse ⟨hk, _, hr, ht⟩ hj hlay htail

end

theorem eq_nil_of_problems_readDedents {k : Nat} {o : Outline} {b : Block} (hn : Outline.Nested k o)
    (h : readDedents o = some b) (hp : Block.problems b = []) : o = [] := by
  cases o with
  | nil => rfl
  | cons s more =>
    obtain ⟨⟨i, hi, _⟩, _⟩ := hn
    cases s with
    | nil => cases hi
    | cons e es =>
      rw [readDedents] at h
      obtain ⟨first, _, h⟩ := Option.bind_eq_some_iff.1 h
      obtain ⟨rest, _, h⟩ := Option.bind_eq_some_iff.1 h
      cases h
      simp [Block.problems, Tree.problems] at hp

theorem Block.layout_of_ofLines {ls : List Line} {b : Block} (h : Block.ofLines? ls = some b)
    (hp : Block.problems b = []) :
    ls = [] ∨ ∃ l, ls.head? = some l ∧ BlockLayout l.indent ls := by
  have hlines := Outline.lines_ofLines ls
  have hindent := Outline.indent?_ofLines ls
  have hnested := Outline.nested_ofLines ls
  unfold Block.ofLines? at h
  generalize Outline.ofLines ls = o at h hlines hindent hnested
  cases o with
  | nil => exact .inl hlines.symm
  | cons s more =>
    obtain ⟨⟨i, hi, _, hs, _⟩, hm⟩ := hnested
    obtain ⟨first, hfirst, h⟩ := Option.bind_eq_some_iff.1 h
    obtain ⟨rest, hrest, h⟩ := Option.bind_eq_some_iff.1 h
    cases h
    rw [Block.problems_append, List.append_eq_nil_iff] at hp
    have hmore : more = [] := eq_nil_of_problems_readDedents hm hrest hp.2
    have hls : Section.lines s = ls := by
      rw [← hlines, hmore, Outline.lines, Outline.lines, List.append_nil]
    rcases (layout_of_readSection s hs hfirst hp.1).block with hnil | hb
    · exact .inl (hls.symm.trans hnil)
    · rw [hls] at hb
      obtain ⟨l, rest', hl, hli, _⟩ := hb.exists_head
      exact .inr ⟨l, by rw [hl]; rfl, hli.symm ▸ hb⟩

/-! ### From a layout to a reading -/

/-- A well-laid-out block of classified lines is read without a problem, line
by line. -/
theorem Block.reading_of_layout {i : Nat} {ls : List Line} (h : BlockLayout i ls)
    (hc : ∀ l ∈ ls, l.Classified) :
    ∃ b, Block.ofLines? ls = some b ∧ Block.problems b = [] ∧
      ∀ p : Place, List.Forall₂ (ReadAs p.depth) (nest ls) (Block.parts p b) := by
  obtain ⟨s, b, hr⟩ := h.reading hc
  refine ⟨b, ?_, hr.clean, hr.parts⟩
  have hs : s ≠ [] := by
    rintro rfl
    obtain ⟨m, rest, rfl, _⟩ := h.exists_head
    have := hr.isSection.head?
    simp at this
  rw [Block.ofLines?, hr.isSection.outline, Outline.ofSection, if_neg hs, Outline.read?, hr.read]
  exact congrArg some (List.append_nil b)

/-- **Lines that are read without a problem are the parts of their block, one
by one and in order.** -/
theorem Block.forall₂_parts_of_ofLines {ls : List Line} {b : Block} (h : Block.ofLines? ls = some b)
    (hc : ∀ l ∈ ls, l.Classified) (hp : Block.problems b = []) (p : Place) :
    List.Forall₂ (ReadAs p.depth) (nest ls) (Block.parts p b) := by
  rcases Block.layout_of_ofLines h hp with rfl | ⟨l, _, hl⟩
  · cases h
    exact .nil
  · obtain ⟨b', hb', _, hparts⟩ := Block.reading_of_layout hl hc
    rw [h] at hb'
    exact Option.some.inj hb' ▸ hparts p

/-- **Classified lines are read without a problem exactly when they are none,
or a well-laid-out block at the indentation of the first line.** -/
theorem Block.problems_eq_nil_iff (ls : List Line) (hc : ∀ l ∈ ls, l.Classified) :
    ∃ b, Block.ofLines? ls = some b ∧
      (Block.problems b = [] ↔ ls = [] ∨ ∃ l, ls.head? = some l ∧ BlockLayout l.indent ls) := by
  obtain ⟨b, hb⟩ := Option.isSome_iff_exists.1 (Block.isSome_ofLines hc)
  refine ⟨b, hb, Block.layout_of_ofLines hb, ?_⟩
  rintro (rfl | ⟨l, _, hl⟩)
  · cases hb
    rfl
  · obtain ⟨b', hb', hp, _⟩ := Block.reading_of_layout hl hc
    rw [hb] at hb'
    exact Option.some.inj hb' ▸ hp

/-- A conditional whose branches are indented differently, with a loop in one
of them. -/
def ladder : Text :=
  "if a:\n  x = 1\nelif b:\n      while c:\n       break\n      x = 2\nelse:\n pass\nprint(x)"

theorem Block.problems_eq_nil_iff_ladder :
    (∀ l ∈ linesOf ladder, l.Classified) ∧ ∃ b, Block.ofLines? (linesOf ladder) = some b ∧
      (Block.problems b = [] ↔
        linesOf ladder = [] ∨ ∃ l, (linesOf ladder).head? = some l ∧ BlockLayout l.indent (linesOf ladder)) :=
  ⟨fun _ hl => kind_of_mem_linesOf hl,
    Block.problems_eq_nil_iff _ fun _ hl => kind_of_mem_linesOf hl⟩

end Offside

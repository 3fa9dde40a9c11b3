/-
# What hides a problem

A line that is a problem by itself is reported wherever it stands, unless a
line that encloses it hides it (`Line.Hides`): that line is reported itself, so
that what is under it is passed over; or it heads a branch of a conditional of
which a later branch is refused, so that the branches before it are lost.
Nothing else that is wrong with a program hides a line
(`Block.reported_of_unhidden`).

Every line of an outline is either reported or under a line that hides it
(`SeenIn`), and this is put together from the parts of the outline as reading
goes through them.

Key definitions: `enclosing`, `Line.ReportedIn`, `Line.Hides`, `SeenIn`.
Key theorems: `kept_or_refused`, `seenIn_readSection`,
`Block.reported_of_unhidden`, `Block.lost_branch`.
-/
import Offside.Proofs.Causes

namespace Offside

/-! ### Lines that hide others -/

/-- The lines that enclose a line at the indentation `i`, of the lines
`before` it, nearest first: the nearest that is shallower, and so on outwards.
Each comes with the lines after it; `rest` are those from the line on. -/
def enclosing (i : Nat) : List Line → List Line → List (Line × List Line)
  | [], _ => []
  | m :: before, rest =>
    if m.indent < i then (m, rest) :: enclosing m.indent before (m :: rest)
    else enclosing i before (m :: rest)

/-- Whether lines of a kind are problems by themselves. -/
def Line.Kind.isUnsupported : Line.Kind → Bool
  | collection _ | unknown => true
  | _ => false

/-- Whether a problem keeps a line from being a branch. -/
def Problem.isBranchFault : Problem → Bool
  | missingColon _ | missingCondition _ | missingBody _ => true
  | _ => false

namespace Line

/-- Some problem has the number of the line. -/
def ReportedIn (ds : List Diagnostic) (l : Line) : Prop := ∃ d ∈ ds, d.line = l.number

/-- Some problem that has the number of the line keeps it from being a
branch. -/
def RefusedIn (ds : List Diagnostic) (l : Line) : Prop :=
  ∃ d ∈ ds, d.line = l.number ∧ d.problem.isBranchFault = true

/-- A line hides what is under it: it is reported, or a later branch of the
conditional that it heads a branch of is refused. -/
def Hides (ds : List Diagnostic) (l : Line) (rest : List Line) : Prop :=
  l.ReportedIn ds ∨ ∃ k ∈ l.laterBranches rest, k.RefusedIn ds

instance (ds : List Diagnostic) (l : Line) : Decidable (l.ReportedIn ds) :=
  inferInstanceAs (Decidable (∃ d ∈ ds, _))

instance (ds : List Diagnostic) (l : Line) : Decidable (l.RefusedIn ds) :=
  inferInstanceAs (Decidable (∃ d ∈ ds, _))

instance (ds : List Diagnostic) (l : Line) (rest : List Line) : Decidable (l.Hides ds rest) :=
  inferInstanceAs (Decidable (_ ∨ ∃ k ∈ l.laterBranches rest, _))

variable {ds es : List Diagnostic} {l : Line}

theorem ReportedIn.mono (h : l.ReportedIn ds) (hsub : ds ⊆ es) : l.ReportedIn es := by
  obtain ⟨d, hd, hl⟩ := h
  exact ⟨d, hsub hd, hl⟩

theorem RefusedIn.mono (h : l.RefusedIn ds) (hsub : ds ⊆ es) : l.RefusedIn es := by
  obtain ⟨d, hd, hl⟩ := h
  exact ⟨d, hsub hd, hl⟩

theorem Hides.mono {rest : List Line} (h : l.Hides ds rest) (hsub : ds ⊆ es) (more : List Line) :
    l.Hides es (rest ++ more) := by
  rcases h with h | ⟨k, hk, h⟩
  · exact .inl (h.mono hsub)
  · exact .inr ⟨k, mem_laterBranches_append more hk, h.mono hsub⟩

end Line

/-- A line between others is reported, or a line that all lines from it on are
deeper than hides it. -/
def Seen (ds : List Diagnostic) (before : List Line) (l : Line) (after : List Line) : Prop :=
  l.ReportedIn ds ∨ ∃ outer m inner, before = outer ++ m :: inner ∧
    (∀ x ∈ inner ++ [l], m.indent < x.indent) ∧ m.Hides ds (inner ++ l :: after)

/-- The lines that are problems by themselves are all seen. -/
def SeenIn (ds : List Diagnostic) (ls : List Line) : Prop :=
  ∀ before l after, ls = before ++ l :: after → l.kind.isUnsupported = true → Seen ds before l after

/-- A line that all lines after it, up to a line at the indentation `i`, are
deeper than encloses that line. -/
theorem mem_enclosing (m : Line) (outer : List Line) : ∀ (i : Nat) (inner rest : List Line),
    m.indent < i → (∀ x ∈ inner, m.indent < x.indent) →
      (m, inner.reverse ++ rest) ∈ enclosing i (inner ++ m :: outer) rest
  | i, [], rest, hi, _ => by
    rw [List.nil_append, enclosing, if_pos hi]
    exact List.mem_cons_self ..
  | i, x :: inner, rest, hi, h => by
    have hx := h x (List.mem_cons_self ..)
    have hinner := fun y hy => h y (List.mem_cons_of_mem x hy)
    rw [List.cons_append, enclosing, List.reverse_cons, List.append_assoc, List.singleton_append]
    split
    · exact List.mem_cons_of_mem _ (mem_enclosing m outer x.indent inner (x :: rest) hx hinner)
    · exact mem_enclosing m outer i inner (x :: rest) hi hinner

theorem Seen.reported_or_hidden {ds : List Diagnostic} {before after : List Line} {l : Line}
    (h : Seen ds before l after) :
    l.ReportedIn ds ∨ ∃ e ∈ enclosing l.indent before.reverse (l :: after), e.1.Hides ds e.2 := by
  rcases h with h | ⟨outer, m, inner, rfl, hdeeper, hides⟩
  · exact .inl h
  · have hmem := mem_enclosing m outer.reverse l.indent inner.reverse (l :: after)
      (hdeeper l (by simp)) fun x hx => hdeeper x (by simp [List.mem_reverse.1 hx])
    have hplace : (m, inner ++ l :: after) ∈
        enclosing l.indent (outer ++ m :: inner).reverse (l :: after) := by
      simpa using hmem
    exact .inr ⟨_, hplace, hides⟩

theorem split_append {a b before after : List Line} {l : Line} (h : a ++ b = before ++ l :: after) :
    (∃ rest, a = before ++ l :: rest ∧ after = rest ++ b) ∨
      ∃ front, before = a ++ front ∧ b = front ++ l :: after := by
  rcases List.append_eq_append_iff.1 h with ⟨c, hbefore, hb⟩ | ⟨c, ha, hb⟩
  · exact .inr ⟨c, hbefore, hb⟩
  · cases c with
    | nil => exact .inr ⟨[], by simpa using ha.symm, hb.symm⟩
    | cons x c =>
      obtain ⟨rfl, rfl⟩ := List.cons.inj hb
      exact .inl ⟨c, ha, rfl⟩

namespace Seen

variable {ds es : List Diagnostic} {before after : List Line} {l : Line}

/-- Further problems and further lines around hide nothing more. -/
theorem mono (h : Seen ds before l after) (hsub : ds ⊆ es) (front rest : List Line) :
    Seen es (front ++ before) l (after ++ rest) := by
  rcases h with h | ⟨outer, m, inner, rfl, hdeeper, hides⟩
  · exact .inl (h.mono hsub)
  · refine .inr ⟨front ++ outer, m, inner, (List.append_assoc ..).symm, hdeeper, ?_⟩
    have hmono := hides.mono hsub rest
    rwa [List.append_assoc, List.cons_append] at hmono

end Seen

namespace SeenIn

variable {ds es : List Diagnostic} {a b ls : List Line} {m : Line}

theorem nil : SeenIn ds [] := by
  intro before l after h
  cases before <;> cases h

theorem mono (h : SeenIn ds ls) (hsub : ds ⊆ es) : SeenIn es ls := by
  intro before l after hls hl
  have hmono := (h before l after hls hl).mono hsub [] []
  rwa [List.append_nil] at hmono

theorem append (ha : SeenIn ds a) (hb : SeenIn ds b) : SeenIn ds (a ++ b) := by
  intro before l after h hl
  rcases split_append h with ⟨rest, ha', rfl⟩ | ⟨front, rfl, hb'⟩
  · exact (ha before l rest ha' hl).mono (List.Subset.refl ds) [] b
  · have hfront := (hb front l after hb' hl).mono (List.Subset.refl ds) a []
    rwa [List.append_nil] at hfront

theorem cons (hm : m.kind.isUnsupported = true → m.ReportedIn ds) (h : SeenIn ds ls) :
    SeenIn ds (m :: ls) := by
  have hone : SeenIn ds [m] := by
    intro before l after hls hl
    cases before with
    | nil =>
      cases hls
      exact .inl (hm hl)
    | cons x before => cases before <;> cases hls
  exact hone.append h

theorem hidden (hm : m.kind.isUnsupported = true → m.ReportedIn ds) (hdeeper : ∀ x ∈ a, m.indent < x.indent)
    (hides : m.Hides ds (a ++ b)) (hb : SeenIn ds b) : SeenIn ds (m :: (a ++ b)) := by
  intro before l after h hl
  cases before with
  | nil =>
    cases h
    exact .inl (hm hl)
  | cons x before =>
    rw [List.cons_append, List.cons.injEq] at h
    obtain ⟨rfl, h⟩ := h
    rcases split_append h with ⟨rest, rfl, rfl⟩ | ⟨front, rfl, hb'⟩
    · refine .inr ⟨[], m, before, rfl, fun x hx => hdeeper x ?_, by simpa using hides⟩
      rw [List.append_cons]
      exact List.mem_append_left rest hx
    · have hfront := (hb front l after hb' hl).mono (List.Subset.refl ds) (m :: a) []
      rwa [List.append_nil] at hfront

end SeenIn

/-! ### Lines that belong to no body -/

theorem reportedIn_strays {l : Line} : ∀ {ls : List Line} {inner : Option Nat}, l ∈ ls →
    l.ReportedIn (Block.problems (strays inner ls))
  | m :: ls, inner, h => by
    rw [strays, Block.problems, Tree.problems, List.singleton_append]
    rcases List.mem_cons.1 h with rfl | h
    · exact ⟨_, List.mem_cons_self .., rfl⟩
    · exact (reportedIn_strays h).mono (List.subset_cons_self ..)

/-- The lines of a section whose entries are all reported. -/
theorem seenIn_section {ds : List Diagnostic} : ∀ {s : List Entry} {i : Nat}, Section.Nested i s →
    (∀ e ∈ s, e.line.ReportedIn ds) → SeenIn ds (Section.lines s)
  | [], _, _, _ => .nil
  | e :: es, i, hn, h => by
    rw [Section.Nested] at hn
    have he := h e (List.mem_cons_self ..)
    have hes := seenIn_section hn.2.2 fun e' he' => h e' (List.mem_cons_of_mem e he')
    rw [Section.lines, e.lines_eq, List.cons_append]
    exact .hidden (fun _ => he) (e.le_indent hn.2.1) (.inl he) hes

theorem seenIn_outline {ds : List Diagnostic} : ∀ {o : Outline} {least : Nat}, Outline.Nested least o →
    (∀ l ∈ Entry.heads o, l.ReportedIn ds) → SeenIn ds (Outline.lines o)
  | [], _, _, _ => .nil
  | s :: more, least, hn, h => by
    rw [Outline.Nested] at hn
    obtain ⟨⟨i, -, -, hs, -⟩, hmore⟩ := hn
    rw [Entry.heads, List.flatten_cons, List.map_append] at h
    rw [Outline.lines]
    refine (seenIn_section hs fun e he => ?_).append (seenIn_outline hmore fun l hl => ?_)
    · exact h _ (List.mem_append_left _ (List.mem_map_of_mem he))
    · exact h _ (List.mem_append_right _ hl)

/-! ### Sections -/

theorem Line.sentence_of_isUnsupported {l : Line} (h : l.kind.isUnsupported = true) :
    ∃ p, l.sentence? = some (.whole (.malformed l.number p)) := by
  unfold sentence?
  cases hk : l.kind with
  | collection kind => exact ⟨_, rfl⟩
  | unknown => exact ⟨_, rfl⟩
  | _ => rw [hk] at h; cases h

theorem Line.BranchFault.isBranchFault {l : Line} {p : Problem} (h : l.BranchFault p) :
    p.isBranchFault = true := by
  cases h with
  | condition hk hr => rcases error_of_readHeader hr with rfl | rfl <;> rfl
  | colon | body => rfl

namespace Entry

theorem problems_close (c : Chain) (otherwise : Option Block) :
    (c.close otherwise).problems = (c.close none).problems ++ problemsOfElse otherwise := by
  simp [Chain.close, Tree.problems, problemsOfElse]

theorem problems_add_close (c : Chain) (condition : Text) (b : Block) :
    ((c.add condition b).close none).problems = (c.close none).problems ++ Block.problems b := by
  simp [Chain.add, Chain.close, Tree.problems, problemsOfBranches_append, problemsOfBranches, problemsOfElse]

variable {e : Entry} {body : Option (Option Block)} {chain : Option Chain} {st : Step}

theorem reportedIn_of_step (h : e.step chain body = some st) (hl : e.line.kind.isUnsupported = true) :
    e.line.ReportedIn (Block.problems st.1) := by
  obtain ⟨p, hs⟩ := Line.sentence_of_isUnsupported hl
  have hk : e.line.kind.continuesConditional = false := by
    cases hk : e.line.kind <;> rw [hk] at hl <;> first | rfl | cases hl
  rw [step_eq_start hk, start, hs, Option.bind_some, Option.map_some, Option.some.injEq] at h
  subst h
  refine ⟨⟨e.line.number, p⟩, ?_, rfl⟩
  simp [Block.problems_append, Block.problems, Tree.problems]

end Entry

/-- **A conditional that is open is kept with its problems, or one of its later
branches is refused.** -/
theorem kept_or_refused : ∀ (s : List Entry) {i : Nat} {c : Chain} {b : Block}, Section.Nested i s →
    readSection (some c) s = some b →
    (c.close none).problems ⊆ Block.problems b ∨
      ∃ k ∈ branchesFrom i (Section.lines s), k.RefusedIn (Block.problems b)
  | [], _, c, b, _, h => by
    rw [readSection] at h
    cases h
    exact .inl (by simp [closeChain, Block.problems])
  | e :: es, i, c, b, hn, h => by
    rw [Section.Nested] at hn
    obtain ⟨rfl, he, hes⟩ := hn
    rw [readSection_cons] at h
    obtain ⟨st, hstep, h⟩ := Option.bind_eq_some_iff.1 h
    obtain ⟨more, hmore, rfl⟩ := Option.map_eq_some_iff.1 h
    rw [Section.lines, e.lines_eq, List.cons_append, Block.problems_append]
    cases Entry.outcome_of_step hstep with
    | whole | refused | bodyless | whileLoop | forLoop | branch =>
      refine .inl fun d hd => List.mem_append_left _ ?_
      simp [closeChain, Block.problems, hd]
    | lost hf =>
      rw [branchesFrom_branch hf.continues]
      exact .inr ⟨e.line, List.mem_cons_self .., _, List.mem_append_left _ (List.mem_singleton_self _), rfl,
        hf.isBranchFault⟩
    | @elseIf _ cond body hk hr hb =>
      have hadd : (c.close none).problems ⊆ ((c.add cond body).close none).problems := by
        rw [Entry.problems_add_close]
        exact List.subset_append_left ..
      rcases Entry.goOn_cases e (c.add cond body) with ⟨-, hgo⟩ | ⟨-, hgo⟩ <;> rw [hgo] at hmore ⊢
      · -- the conditional goes on, so that the later entries decide
        have hbranches : branchesFrom e.line.indent
            (e.line :: (Outline.lines e.under ++ Section.lines es)) =
            e.line :: branchesFrom e.line.indent (Section.lines es) := by
          rw [branchesFrom_branch (by rw [hk]; rfl), branchesFrom_under (e.le_indent he)]
        rcases kept_or_refused es hes hmore with hkept | ⟨k, hk', hrefused⟩
        · exact .inl fun d hd => List.mem_append_right _ (hkept (hadd hd))
        · rw [hbranches]
          exact .inr ⟨k, List.mem_cons_of_mem _ hk', hrefused⟩
      · refine .inl fun d hd => List.mem_append_left _ ?_
        rw [Block.problems]
        exact List.mem_append_left _ (hadd hd)
    | orElse =>
      refine .inl fun d hd => List.mem_append_left _ ?_
      rw [Block.problems, Entry.problems_close]
      exact List.mem_append_left _ (List.mem_append_left _ hd)

/-! ### What is seen -/

namespace Entry

/-- What is under an entry with a body is seen, if the problems of the body are
kept and the lines that it leaves over are reported. -/
def BodySeen (e : Entry) : Prop :=
  ∀ (b : Block) (ds : List Diagnostic), e.body = some (some b) → Block.problems b ⊆ ds →
    (∀ l ∈ e.leftover, l.ReportedIn ds) → SeenIn ds (Outline.lines e.under)

variable {e : Entry} {es : List Entry} {chain : Option Chain} {b : Block} {ds : List Diagnostic}

/-- A statement that keeps its body and the lines that this leaves over. -/
theorem seenIn_of_statement {t : Tree} {inner : Option Nat} (hbody : e.BodySeen)
    (hb : e.body = some (some b)) (ht : Block.problems b ⊆ t.problems)
    (hds : Block.problems (t :: strays inner e.leftover) ⊆ ds) : SeenIn ds (Outline.lines e.under) := by
  rw [Block.problems, List.append_subset] at hds
  exact hbody b ds hb (List.Subset.trans ht hds.1) fun l hl => (reportedIn_strays hl).mono hds.2

theorem seenIn_or_hides_of_goOn {c : Chain} {more : Block} (he : e.Nested)
    (hes : Section.Nested e.line.indent es) (hbody : e.BodySeen)
    (hk : e.line.kind = .ifHeader ∨ e.line.kind = .elifHeader) (hb : e.body = some (some b))
    (hc : Block.problems b ⊆ (c.close none).problems) (hmore : readSection (e.goOn c).2 es = some more)
    (hds : Block.problems (e.goOn c).1 ⊆ ds) (hsub : Block.problems more ⊆ ds) :
    SeenIn ds (Outline.lines e.under) ∨ e.line.Hides ds (Outline.lines e.under ++ Section.lines es) := by
  rcases e.goOn_cases c with ⟨hl, hgo⟩ | ⟨-, hgo⟩ <;> rw [hgo] at hmore hds
  · -- the conditional goes on, so that the later entries decide
    rcases kept_or_refused es hes hmore with hkept | ⟨k, hbranch, hrefused⟩
    · refine .inl (hbody b ds hb (List.Subset.trans hc (List.Subset.trans hkept hsub)) fun l hleft => ?_)
      rw [hl] at hleft
      exact absurd hleft List.not_mem_nil
    · refine .inr (.inr ⟨k, ?_, hrefused.mono hsub⟩)
      rwa [Line.laterBranches, if_pos hk, branchesFrom_under (e.le_indent he)]
  · exact .inl (seenIn_of_statement hbody hb hc hds)

/-- **What is under an entry is seen, or the line of the entry hides it.** -/
theorem seenIn_or_hides {st : Step} {more : Block} (he : e.Nested) (hes : Section.Nested e.line.indent es)
    (hbody : e.BodySeen) (hstep : e.step chain e.body = some st) (hmore : readSection st.2 es = some more)
    (hds : Block.problems st.1 ⊆ ds) (hsub : Block.problems more ⊆ ds) :
    SeenIn ds (Outline.lines e.under) ∨ e.line.Hides ds (Outline.lines e.under ++ Section.lines es) := by
  cases outcome_of_step hstep with
  | whole =>
    simp only [Block.problems_append, Block.problems, List.append_subset] at hds
    exact .inl (seenIn_outline he.under fun l hl => (reportedIn_strays hl).mono hds.2.2)
  | refused | bodyless =>
    simp only [Block.problems_append, Block.problems, Tree.problems, List.append_subset] at hds
    exact .inr (.inl ⟨_, hds.2.1 (List.mem_singleton_self _), rfl⟩)
  | lost => exact .inr (.inl ⟨_, hds (List.mem_singleton_self _), rfl⟩)
  | whileLoop hs hb | forLoop hs hb =>
    rw [Block.problems_append, List.append_subset] at hds
    exact .inl (seenIn_of_statement hbody hb (List.Subset.refl _) hds.2)
  | branch hs hb =>
    have hkind := Line.kind_of_sentence hs
    rw [Block.problems_append, List.append_subset] at hds
    refine seenIn_or_hides_of_goOn he hes hbody (.inl hkind.1) hb ?_ hmore hds.2 hsub
    simp [Chain.close, Tree.problems, problemsOfBranches]
  | elseIf hk hr hb =>
    refine seenIn_or_hides_of_goOn he hes hbody (.inr hk) hb ?_ hmore hds hsub
    rw [problems_add_close]
    exact List.subset_append_right ..
  | orElse hk hr ht hb =>
    refine .inl (seenIn_of_statement hbody hb ?_ hds)
    rw [problems_close]
    exact List.subset_append_right ..

end Entry

-- The recursion is that of reading: a body is seen in any list that holds its
-- problems, and what becomes of the conditional around it decides whether the
-- problems of the section do.
mutual

theorem Entry.bodySeen : ∀ e : Entry, e.Nested → e.BodySeen
  | .mk _ [], _ => by
    intro b ds hb
    simp [Entry.body] at hb
  | .mk l (s :: more), hn => by
    intro b ds hb hsub hleft
    rw [Entry.body, Option.map_eq_some_iff] at hb
    obtain ⟨b', hread, hb⟩ := hb
    cases hb
    rw [Entry.Nested, Outline.Nested] at hn
    obtain ⟨⟨i, -, -, hs, -⟩, hmore⟩ := hn
    exact ((seenIn_readSection s hs hread).mono hsub).append (seenIn_outline hmore hleft)

/-- **The lines of a section are seen in what it is read as.** -/
theorem seenIn_readSection : ∀ (s : List Entry) {i : Nat} {chain : Option Chain} {b : Block},
    Section.Nested i s → readSection chain s = some b → SeenIn (Block.problems b) (Section.lines s)
  | [], _, _, _, _, _ => .nil
  | e :: es, i, chain, b, hn, h => by
    rw [Section.Nested] at hn
    obtain ⟨rfl, he, hes⟩ := hn
    rw [readSection_cons] at h
    obtain ⟨st, hstep, h⟩ := Option.bind_eq_some_iff.1 h
    obtain ⟨more, hmore, rfl⟩ := Option.map_eq_some_iff.1 h
    have hfirst : Block.problems st.1 ⊆ Block.problems (st.1 ++ more) := by
      rw [Block.problems_append]
      exact List.subset_append_left ..
    have hsub : Block.problems more ⊆ Block.problems (st.1 ++ more) := by
      rw [Block.problems_append]
      exact List.subset_append_right ..
    have hline : e.line.kind.isUnsupported = true → e.line.ReportedIn (Block.problems (st.1 ++ more)) :=
      fun hl => (e.reportedIn_of_step hstep hl).mono hfirst
    have hrest := (seenIn_readSection es hes hmore).mono hsub
    rw [Section.lines, e.lines_eq]
    rcases Entry.seenIn_or_hides he hes (e.bodySeen he) hstep hmore hfirst hsub with hunder | hides
    · exact (hunder.cons hline).append hrest
    · exact .hidden hline (e.le_indent he) hides hrest

end

/-! ### Whole blocks -/

theorem Block.seenIn_ofLines {ls : List Line} {b : Block} (h : Block.ofLines? ls = some b) :
    SeenIn (Block.problems b) ls := by
  refine Block.induction_ofLines (P := fun ls b => SeenIn (Block.problems b) ls) .nil ?append
    (fun hn hread => seenIn_readSection _ hn hread) ?report h
  case append =>
    intro ls ms a b ha hb
    rw [Block.problems_append]
    exact (ha.mono (List.subset_append_left ..)).append (hb.mono (List.subset_append_right ..))
  case report =>
    intro s b hb
    rw [Block.problems_append]
    exact hb.mono (List.subset_append_right ..)

/-- **Only a line that is reported, or a refused branch, hides a problem.** The
lines of any source are read as a block, and so is any list of lines of the
kinds of their texts. A line of it that is a problem by itself is then
reported, provided that no line around it is: neither reported itself, nor the
head of a branch of a conditional that a later branch is refused of. -/
theorem Block.reported_of_unhidden (ls : List Line) (hc : ∀ l ∈ ls, l.Classified) :
    ∃ b, Block.ofLines? ls = some b ∧
      ∀ before l after, ls = before ++ l :: after → l.kind.isUnsupported = true →
        (∀ e ∈ enclosing l.indent before.reverse (l :: after), ¬ e.1.Hides (Block.problems b) e.2) →
          l.ReportedIn (Block.problems b) := by
  obtain ⟨b, hb⟩ := Option.isSome_iff_exists.1 (Block.isSome_ofLines hc)
  refine ⟨b, hb, fun before l after hls hl hunhidden => ?_⟩
  rcases (Block.seenIn_ofLines hb before l after hls hl).reported_or_hidden with h | ⟨e, he, hides⟩
  · exact h
  · exact absurd hides (hunhidden e he)

/-- A problem in the first branch of a conditional, and another in the loop
that the last branch holds. -/
def told : Text := "if a:\n    x = [1]\nelif b:\n    while c:\n        ?\n".toList

theorem Block.reported_of_unhidden_told :
    ∃ b before l after, Block.ofLines? (linesOf told) = some b ∧ linesOf told = before ++ l :: after ∧
      l.kind = .unknown ∧
      (∀ e ∈ enclosing l.indent before.reverse (l :: after), ¬ e.1.Hides (Block.problems b) e.2) ∧
      l.ReportedIn (Block.problems b) := by
  obtain ⟨b, hb, hreported⟩ := Block.reported_of_unhidden (linesOf told) fun _ => kind_of_mem_linesOf
  have hproblems : (Block.ofLines? (linesOf told)).map Block.problems =
      some [⟨2, .unsupportedCollection .list⟩, ⟨5, .unsupportedStatement "?"⟩] := by decide +kernel
  rw [hb, Option.map_some, Option.some.injEq] at hproblems
  have hsplit : linesOf told = (linesOf told).take 4 ++ ⟨"?", 8, 5, .unknown⟩ :: [] := by decide +kernel
  have hunhidden : ∀ e ∈ enclosing 8 ((linesOf told).take 4).reverse [⟨"?", 8, 5, .unknown⟩],
      ¬ e.1.Hides (Block.problems b) e.2 := by
    rw [hproblems]
    decide +kernel
  exact ⟨b, _, _, _, hb, hsplit, rfl, hunhidden, hreported _ _ _ hsplit rfl hunhidden⟩

/-- A problem in the first branch of a conditional, and a second branch without
its colon. -/
def lost : Text := "if a:\n    x = [1]\nelif b\n    y = 2\n".toList

/-- **A refused branch loses the problems of the branches before it**, although
the line around them is not reported. -/
theorem Block.lost_branch :
    ∃ b, Block.ofLines? (linesOf lost) = some b ∧
      ∃ before l after, linesOf lost = before ++ l :: after ∧ l.kind = .collection .list ∧
        (∀ e ∈ enclosing l.indent before.reverse (l :: after), ¬ e.1.ReportedIn (Block.problems b)) ∧
        ¬ l.ReportedIn (Block.problems b) := by
  have hproblems : (Block.ofLines? (linesOf lost)).map Block.problems =
      some [⟨3, .missingColon "elif"⟩] := by decide +kernel
  obtain ⟨b, hb, hb'⟩ := Option.map_eq_some_iff.1 hproblems
  have hsplit : linesOf lost =
      [⟨"if a:", 0, 1, .ifHeader⟩] ++ ⟨"x = [1]", 4, 2, .collection .list⟩ ::
        [⟨"elif b", 0, 3, .elifHeader⟩, ⟨"y = 2", 4, 4, .assignment⟩] := by decide +kernel
  refine ⟨b, hb, _, _, _, hsplit, rfl, ?_⟩
  rw [hb']
  decide +kernel

end Offside

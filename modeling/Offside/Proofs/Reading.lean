/-
# What a layout is read as

A well-laid-out block of classified lines is one section of the outline, and
the section is read without a malformed statement. Its parts are the lines,
one by one and in order: each part is what its line says, at the depth at
which the headers nest the line (`BlockLayout.reading`).

Key definitions: `Line.Says`, `ReadAs`, `IsSection`, `Reading`.
Key theorems: `BlockLayout.reading`, `StatementLayout.reading`,
`BranchesLayout.reading`.
-/
import Mathlib.Data.List.Forall2
import Offside.Proofs.Nesting
import Offside.Proofs.Outline
import Offside.Proofs.Places
import Offside.Proofs.Steps

namespace Offside

/-- What a line says when it is read. -/
inductive Line.Says (l : Line) : Part → Prop where
  | ifThen {c : Text} (hk : l.kind = .ifHeader) (hr : readHeader? "if" l.text = some (.ok c)) :
    l.Says (.ifThen c)
  | elseIf {c : Text} (hk : l.kind = .elifHeader) (hr : readHeader? "elif" l.text = some (.ok c)) :
    l.Says (.elseIf c)
  | orElse (hk : l.kind = .elseHeader) : l.Says .orElse
  | whileLoop {c : Text} {b : Block} (hk : l.kind = .whileHeader)
    (hr : readHeader? "while" l.text = some (.ok c)) : l.Says (.statement (.whileLoop l.number c b))
  | forLoop {loop : RangeLoop} {b : Block} (hk : l.kind = .forHeader)
    (hr : RangeLoop.ofText? l.text = some (.ok loop)) : l.Says (.statement (.forLoop l.number loop b))
  | plain {t : Tree} (hs : l.States t) : l.Says (.statement t)

/-- Of lines that stand `k` deep: a line with the headers around it, and the
part it is read as. -/
def ReadAs (k : Nat) (e : Nat × Line) (x : Place × Part) : Prop := x.1.depth = k + e.1 ∧ e.2.Says x.2

theorem forall₂_readAs_deeper {k : Nat} {es : List (Nat × Line)} {xs : List (Place × Part)}
    (h : List.Forall₂ (ReadAs (k + 1)) es xs) :
    List.Forall₂ (ReadAs k) (es.map fun e => (e.1 + 1, e.2)) xs := by
  rw [List.forall₂_map_left_iff]
  refine h.imp fun e x hx => ⟨?_, hx.2⟩
  rw [hx.1]
  omega

/-! ### Lines that make up one section -/

/-- The outline that is one section, or empty. -/
def Outline.ofSection (s : Section) : Outline := if s = [] then [] else [s]

/-- The lines `ls` make up the section `s` at the indentation `i`. -/
structure IsSection (i : Nat) (ls : List Line) (s : Section) : Prop where
  outline : Outline.ofLines ls = Outline.ofSection s
  indent : ∀ l ∈ ls.head?, l.indent = i

namespace IsSection

theorem nil (i : Nat) : IsSection i [] [] := ⟨rfl, by simp⟩

theorem head? {i : Nat} {ls : List Line} {s : Section} (h : IsSection i ls s) :
    s.head?.map Entry.line = ls.head? := by
  have hfirst := Outline.first?_ofLines ls
  rw [h.outline] at hfirst
  rw [← hfirst]
  cases s <;> rfl

theorem cons {l : Line} {under more : List Line} {s : Section} (hu : ∀ m ∈ under, l.indent < m.indent)
    (h : IsSection l.indent more s) :
    IsSection l.indent (l :: (under ++ more)) (.mk l (Outline.ofLines under) :: s) := by
  refine ⟨?_, by simp⟩
  rw [Outline.ofLines_entry hu fun m hm => Nat.le_of_eq (h.indent m hm), h.outline]
  cases s with
  | nil => rfl
  | cons e s =>
    have hline : e.line.indent = l.indent := h.indent e.line h.head?.symm
    have hi : Section.indent? (e :: s) = some l.indent := congrArg some hline
    simp only [Outline.ofSection, List.cons_ne_nil, if_false, Outline.attach]
    exact if_pos hi

end IsSection

/-! ### Reading one step at a time -/

theorem Entry.Clean.readSection {e : Entry} {chain next : Option Chain} {trees : Block}
    (h : e.Clean e.body chain (trees, next)) (es : Section) :
    readSection chain (e :: es) = (readSection next es).map (trees ++ ·) := by
  rw [readSection_cons, h.step, Option.bind_some]

theorem readSection_closes {s : Section}
    (h : ∀ e ∈ s.head?, e.line.kind.continuesConditional = false) (chain : Option Chain) :
    readSection chain s = (readSection none s).map (closeChain chain ++ ·) := by
  cases s with
  | nil =>
    simp only [readSection, closeChain, Option.map_some, List.append_nil]
  | cons e es =>
    have hk := h e rfl
    rw [readSection_cons, readSection_cons, Entry.step_eq_start hk, Entry.step_eq_start hk]
    cases e.start e.body with
    | none => rfl
    | some st =>
      simp only [Option.map_some, Option.bind_some, closeChain, List.nil_append, Option.map_map,
        Function.comp_def, List.append_assoc]

/-! ### From a layout to a reading -/

/-- The lines `ls` make up the section `s`, which is read as the block `b`
without a problem, line by line. -/
structure Reading (i : Nat) (ls : List Line) (s : Section) (b : Block) : Prop where
  isSection : IsSection i ls s
  read : readSection none s = some b
  clean : Block.problems b = []
  parts : ∀ p : Place, List.Forall₂ (ReadAs p.depth) (nest ls) (Block.parts p b)

namespace Reading

variable {l : Line} {j : Nat} {body more : List Line} {s sb : Section} {b : Block}

/-- A block under a header is the body of the header's entry, and leaves no
line over. -/
theorem entry (h : Reading j body sb b) (hlay : BlockLayout j body) (hj : l.indent < j)
    (hs : IsSection l.indent more s) :
    ∃ e : Entry, e.line = l ∧ e.body = some (some b) ∧ e.leftover = [] ∧
      IsSection l.indent (l :: (body ++ more)) (e :: s) := by
  have hsb : Outline.ofLines body = [sb] := by
    rw [h.isSection.outline, Outline.ofSection, if_neg]
    rintro rfl
    obtain ⟨m, rest, rfl, _⟩ := hlay.exists_head
    have := h.isSection.head?
    simp at this
  refine ⟨.mk l (Outline.ofLines body), rfl, ?_, ?_, hs.cons (hlay.lt_indent hj)⟩
  · rw [hsb, Entry.body, h.read]
    rfl
  · rw [hsb]
    rfl

theorem parts_header (h : Reading j body sb b) (hlay : BlockLayout j body) (hj : l.indent < j)
    (hk : l.kind.isHeader = true) (hm : ∀ m ∈ more.head?, m.indent ≤ l.indent) {p inner : Place}
    (hp : inner.depth = p.depth + 1) {part : Part} (hsaid : l.Says part) {xs : List (Place × Part)}
    (hxs : List.Forall₂ (ReadAs p.depth) (nest more) xs) :
    List.Forall₂ (ReadAs p.depth) (nest (l :: (body ++ more)))
      ((p, part) :: (Block.parts inner b ++ xs)) := by
  have hbody := forall₂_readAs_deeper (hp ▸ h.parts inner)
  rw [nest_header hk (hlay.lt_indent hj) hm, List.cons_append]
  exact .cons ⟨rfl, hsaid⟩ (List.rel_append hbody hxs)

theorem parts_last (h : Reading j body sb b) (hlay : BlockLayout j body) (hj : l.indent < j)
    (hk : l.kind.isHeader = true) {p inner : Place} (hp : inner.depth = p.depth + 1) {part : Part}
    (hsaid : l.Says part) :
    List.Forall₂ (ReadAs p.depth) (nest (l :: body)) ((p, part) :: Block.parts inner b) := by
  have hnil : ∀ m ∈ ([] : List Line).head?, m.indent ≤ l.indent := by simp
  have := h.parts_header hlay hj hk hnil hp hsaid .nil
  rwa [List.append_nil, List.append_nil] at this

end Reading

mutual

/-- **A well-laid-out block of classified lines is read without a problem,
line by line.** -/
theorem BlockLayout.reading : ∀ {i : Nat} {ls : List Line}, BlockLayout i ls →
    (∀ l ∈ ls, l.Classified) → ∃ s b, Reading i ls s b
  | i, ls, .last hs, hc => by
    obtain ⟨es, t, hsec, hread, hclean, hparts⟩ := hs.reading hc (IsSection.nil i) (by simp)
    simp only [List.append_nil] at hsec hread
    refine ⟨es, [t], hsec, hread, ?_, fun p => ?_⟩
    · rw [Block.problems, hclean]
      rfl
    · rw [Block.parts, Block.parts, List.append_nil]
      exact hparts p
  | i, _, @BlockLayout.more _ st ls hs hb, hc => by
    obtain ⟨s, b, hrest⟩ := hb.reading fun l hl => hc l (List.mem_append_right _ hl)
    obtain ⟨m, rest, hls, hm, hcont⟩ := hb.exists_head
    obtain ⟨es, t, hsec, hread, hclean, hparts⟩ :=
      hs.reading (fun l hl => hc l (List.mem_append_left _ hl)) hrest.isSection
        (by rw [hls]; simpa using hcont)
    refine ⟨es ++ s, t :: b, hsec, ?_, ?_, fun p => ?_⟩
    · rw [hread, hrest.read]
      rfl
    · rw [Block.problems, hclean, hrest.clean]
      rfl
    · have hle : ∀ l ∈ st, ∀ n ∈ ls.head?, n.indent ≤ l.indent := by
        intro l hl n hn
        rw [hls, List.head?_cons, Option.mem_some_iff] at hn
        rw [← hn, hm]
        exact hs.le_indent l hl
      rw [nest_append hle, Block.parts]
      exact List.rel_append (hparts p) (hrest.parts (p.next t))

/-- **A well-laid-out statement is read as one statement, whatever follows
it.** -/
theorem StatementLayout.reading : ∀ {i : Nat} {ls more : List Line} {s : Section},
    StatementLayout i ls → (∀ l ∈ ls, l.Classified) → IsSection i more s →
    (∀ m ∈ more.head?, m.kind.continuesConditional = false) →
    ∃ es t, IsSection i (ls ++ more) (es ++ s) ∧
      readSection none (es ++ s) = (readSection none s).map (t :: ·) ∧ t.problems = [] ∧
      ∀ p : Place, List.Forall₂ (ReadAs p.depth) (nest ls) (t.parts p)
  | _, _, more, s, @StatementLayout.plain l hk, hc, hs, _ => by
    obtain ⟨t, hwhole, hstates⟩ := (hc l (by simp)).exists_states hk
    have ht := hstates.problems_eq_nil
    have hclean : (Entry.mk l []).Clean (Entry.mk l []).body none ([t], none) := .plain hwhole ht rfl
    have hsec : IsSection l.indent (l :: ([] ++ more)) (.mk l [] :: s) := hs.cons (by simp)
    refine ⟨[.mk l []], t, hsec, hclean.readSection s, ht, fun p => ?_⟩
    rw [hstates.parts_eq p, nest_singleton]
    exact .cons ⟨rfl, .plain hstates⟩ .nil
  | _, _, more, s, @StatementLayout.loop l _ body hl hj hb, hc, hs, _ => by
    obtain ⟨sb, b, hr⟩ := hb.reading fun m hm => hc m (List.mem_cons_of_mem _ hm)
    obtain ⟨e, rfl, hbody, hleft, hsec⟩ := hr.entry hb hj hs
    rcases hl with ⟨hk, c, hh⟩ | ⟨hk, loop, hh⟩
    · have hclean : e.Clean e.body none ([.whileLoop e.line.number c b], none) :=
        .whileLoop (Line.sentence_whileHeader hk hh) hbody hleft
      refine ⟨[e], .whileLoop e.line.number c b, hsec, hclean.readSection s, hr.clean, fun p => ?_⟩
      exact hr.parts_last hb hj (by rw [hk]; rfl) (p.depth_inside _) (.whileLoop hk hh)
    · have hclean : e.Clean e.body none ([.forLoop e.line.number loop b], none) :=
        .forLoop (Line.sentence_forHeader hk hh) hbody hleft
      refine ⟨[e], .forLoop e.line.number loop b, hsec, hclean.readSection s, hr.clean, fun p => ?_⟩
      exact hr.parts_last hb hj (by rw [hk]; rfl) (p.depth_inside _) (.forLoop hk hh)
  | _, _, more, s, @StatementLayout.conditional l _ body bs hl hj hb hm, hc, hs, hcont => by
    obtain ⟨hk, c, hh⟩ := hl
    obtain ⟨sb, b, hr⟩ := hb.reading fun m hmem => hc m (by simp [hmem])
    obtain ⟨es, branches, otherwise, hsec, hread, hp, hparts⟩ :=
      hm.reading (fun m hmem => hc m (by simp [hmem])) hs hcont
    obtain ⟨e, rfl, hbody, hleft, hsec'⟩ := hr.entry hb hj hsec
    have hclean : e.Clean e.body none ([], some ⟨e.line.number, e.inner.getD 0, [(c, b)]⟩) :=
      .branch (Line.sentence_ifHeader hk hh) hbody hleft
    refine ⟨e :: es, .conditional e.line.number ((c, b) :: branches) otherwise, ?_, ?_, ?_, fun p => ?_⟩
    · rw [List.cons_append, List.append_assoc]
      exact hsec'
    · rw [List.cons_append, hclean.readSection, hread]
      simp only [Option.map_map, Function.comp_def, List.nil_append, List.cons_append]
    · rw [Tree.problems, problemsOfBranches, hr.clean, List.nil_append]
      exact hp
    · rw [Tree.parts, partsOfBranches, List.cons_append, List.cons_append, List.append_assoc]
      exact hr.parts_header hb hj (by rw [hk]; rfl) (fun m hmem => Nat.le_of_eq (hm.indent_head m hmem))
        (p.depth_inside _) (.ifThen hk hh) (hparts p _ (p.depth_inside _))

/-- **Well-laid-out branches go on with the conditional before them.** -/
theorem BranchesLayout.reading : ∀ {i : Nat} {ls more : List Line} {s : Section},
    BranchesLayout i ls → (∀ l ∈ ls, l.Classified) → IsSection i more s →
    (∀ m ∈ more.head?, m.kind.continuesConditional = false) →
    ∃ es branches otherwise, IsSection i (ls ++ more) (es ++ s) ∧
      (∀ c : Chain, readSection (some c) (es ++ s) =
        (readSection none s).map (.conditional c.line (c.branches ++ branches) otherwise :: ·)) ∧
      problemsOfBranches branches ++ problemsOfElse otherwise = [] ∧
      ∀ p inner : Place, inner.depth = p.depth + 1 →
        List.Forall₂ (ReadAs p.depth) (nest ls)
          (partsOfBranches p inner false branches ++ partsOfElse p inner otherwise)
  | _, _, more, s, .none, hc, hs, hcont => by
    have hstarts : ∀ e ∈ s.head?, e.line.kind.continuesConditional = false := by
      intro e he
      refine hcont e.line ?_
      rw [← hs.head?, Option.mem_def.1 he]
      rfl
    refine ⟨[], [], none, hs, fun c => ?_, rfl, fun _ _ _ => .nil⟩
    rw [List.nil_append, readSection_closes hstarts, List.append_nil]
    rfl
  | _, _, more, s, @BranchesLayout.elseIf l _ body bs hl hj hb hm, hc, hs, hcont => by
    obtain ⟨hk, c, hh⟩ := hl
    obtain ⟨sb, b, hr⟩ := hb.reading fun m hmem => hc m (by simp [hmem])
    obtain ⟨es, branches, otherwise, hsec, hread, hp, hparts⟩ :=
      hm.reading (fun m hmem => hc m (by simp [hmem])) hs hcont
    obtain ⟨e, rfl, hbody, hleft, hsec'⟩ := hr.entry hb hj hsec
    refine ⟨e :: es, (c, b) :: branches, otherwise, ?_, fun chain => ?_, ?_, fun p inner hp => ?_⟩
    · rw [List.cons_append, List.append_assoc]
      exact hsec'
    · have hclean : e.Clean e.body (some chain) ([], some (chain.add c b)) := .elseIf hk hh hbody hleft
      rw [List.cons_append, hclean.readSection, hread]
      simp only [Option.map_map, Function.comp_def, List.nil_append, Chain.add, List.append_assoc,
        List.cons_append]
    · rw [problemsOfBranches, hr.clean, List.nil_append]
      exact hp
    · rw [partsOfBranches, List.cons_append, List.cons_append, List.append_assoc]
      exact hr.parts_header hb hj (by rw [hk]; rfl) (fun m hmem => Nat.le_of_eq (hm.indent_head m hmem))
        hp (.elseIf hk hh) (hparts p inner hp)
  | _, _, more, s, @BranchesLayout.orElse l _ body hl hj hb, hc, hs, hcont => by
    obtain ⟨hk, rest, hh, ht⟩ := hl
    obtain ⟨sb, b, hr⟩ := hb.reading fun m hmem => hc m (List.mem_cons_of_mem _ hmem)
    obtain ⟨e, rfl, hbody, hleft, hsec⟩ := hr.entry hb hj hs
    refine ⟨[e], [], some b, hsec, fun chain => ?_, hr.clean, fun p inner hp => ?_⟩
    · have hclean : e.Clean e.body (some chain) ([chain.close (some b)], none) :=
        .orElse hk hh ht hbody hleft
      rw [List.append_nil]
      exact hclean.readSection s
    · exact hr.parts_last hb hj (by rw [hk]; rfl) hp (.orElse hk)

end

end Offside

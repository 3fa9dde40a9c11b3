/-
# Steps without a problem

`Entry.Clean` lists what an entry of a section can come to if nothing is wrong
with it: a plain statement with nothing under it, a loop, the first branch of
a conditional, or a further branch of the conditional before it. In each case
the body takes up everything under the line. A step that reports no problem is
one of these (`Entry.clean_of_step`), and each of these is a step
(`Entry.Clean.step`).

Key definition: `Entry.Clean`.
Key theorems: `Entry.clean_of_step`, `Entry.Clean.step`,
`problems_closeChain_of_readSection`.
-/
import Offside.Proofs.Outcomes
import Offside.Proofs.Sections

namespace Offside
namespace Entry

/-- What an entry with the body `body` comes to after a conditional, if
nothing is wrong with it. -/
inductive Clean (e : Entry) (body : Option (Option Block)) : Option Chain → Step → Prop where
  | plain {chain : Option Chain} {t : Tree} (hs : e.line.sentence? = some (.whole t))
    (ht : t.problems = []) (hu : heads e.under = []) :
    Clean e body chain (closeChain chain ++ [t], none)
  | whileLoop {chain : Option Chain} {c : Text} {b : Block} (hs : e.line.sentence? = some (.loop c))
    (hb : body = some (some b)) (hl : e.leftover = []) :
    Clean e body chain (closeChain chain ++ [.whileLoop e.line.number c b], none)
  | forLoop {chain : Option Chain} {loop : RangeLoop} {b : Block}
    (hs : e.line.sentence? = some (.range loop)) (hb : body = some (some b)) (hl : e.leftover = []) :
    Clean e body chain (closeChain chain ++ [.forLoop e.line.number loop b], none)
  | branch {chain : Option Chain} {c : Text} {b : Block} (hs : e.line.sentence? = some (.branch c))
    (hb : body = some (some b)) (hl : e.leftover = []) :
    Clean e body chain (closeChain chain, some ⟨e.line.number, e.inner.getD 0, [(c, b)]⟩)
  | elseIf {chain : Chain} {c : Text} {b : Block} (hk : e.line.kind = .elifHeader)
    (hr : readHeader? "elif" e.line.text = some (.ok c)) (hb : body = some (some b)) (hl : e.leftover = []) :
    Clean e body (some chain) ([], some (chain.add c b))
  | orElse {chain : Chain} {rest : Text} {b : Block} (hk : e.line.kind = .elseHeader)
    (hr : afterKeyword? "else" e.line.text = some rest) (ht : Text.trim rest = [':'])
    (hb : body = some (some b)) (hl : e.leftover = []) :
    Clean e body (some chain) ([chain.close (some b)], none)

/-! ### Which steps report no problem -/

theorem eq_nil_of_problems_strays {inner : Option Nat} {ls : List Line}
    (h : Block.problems (strays inner ls) = []) : ls = [] := by
  cases ls with
  | nil => rfl
  | cons l ls => simp [strays, Block.problems, Tree.problems] at h

/-- A conditional reports no problem only if the body of its branch leaves no
line over. -/
theorem leftover_of_goOn {e : Entry} {c : Chain} (h : Block.problems (e.goOn c).1 = []) :
    e.leftover = [] ∧ e.goOn c = ([], some c) := by
  rcases goOn_cases e c with hgo | ⟨hl, hgo⟩
  · exact hgo
  · rw [hgo, Block.problems, List.append_eq_nil_iff] at h
    exact absurd (eq_nil_of_problems_strays h.2) hl

theorem continues_of_sentence {l : Line} {s : Sentence} (h : l.sentence? = some s)
    (hs : ∀ p, s ≠ .refused p) (hw : ∀ t, s = .whole t → t.problems = []) :
    l.kind.continuesConditional = false := by
  have hkind := Line.kind_of_sentence h
  cases s with
  | whole t =>
    have hp := hkind.resolve_right (not_not_intro (hw t rfl))
    cases hl : l.kind <;> simp_all [Line.Kind.isPlain, Line.Kind.continuesConditional]
  | refused p => exact absurd rfl (hs p)
  | loop c => rw [hkind.1]; rfl
  | range loop => rw [hkind.1]; rfl
  | branch c => rw [hkind.1]; rfl

theorem step_none (e : Entry) (body : Option (Option Block)) : e.step none body = e.start body := by
  unfold step
  split
  · contradiction
  · contradiction
  · simp [closeChain]

theorem step_elif {e : Entry} (hk : e.line.kind = .elifHeader) (c : Chain)
    (body : Option (Option Block)) : e.step (some c) body = e.elseIf c body := by
  simp only [step, hk]

theorem step_else {e : Entry} (hk : e.line.kind = .elseHeader) (c : Chain)
    (body : Option (Option Block)) : e.step (some c) body = e.orElse c body := by
  simp only [step, hk]

theorem step_eq_start {e : Entry} (h : e.line.kind.continuesConditional = false) (chain : Option Chain)
    (body : Option (Option Block)) :
    e.step chain body = (e.start body).map fun (trees, next) => (closeChain chain ++ trees, next) := by
  unfold step
  split
  · next hk => rw [hk] at h; cases h
  · next hk => rw [hk] at h; cases h
  · rfl

/-- **A step that reports no problem is a clean one.** -/
theorem clean_of_step {e : Entry} {body : Option (Option Block)} {chain : Option Chain} {st : Step}
    (h : e.step chain body = some st) (hp : Block.problems st.1 = []) : e.Clean body chain st := by
  cases outcome_of_step h with
  | whole hs =>
    simp only [Block.problems_append, Block.problems, List.append_eq_nil_iff] at hp
    have hu := eq_nil_of_problems_strays hp.2.2
    rw [hu]
    exact .plain hs hp.2.1 hu
  | refused | bodyless | lost => simp [Block.problems_append, Block.problems, Tree.problems] at hp
  | whileLoop hs hb =>
    simp only [Block.problems_append, Block.problems, List.append_eq_nil_iff] at hp
    have hl := eq_nil_of_problems_strays hp.2.2
    rw [hl]
    exact .whileLoop hs hb hl
  | forLoop hs hb =>
    simp only [Block.problems_append, Block.problems, List.append_eq_nil_iff] at hp
    have hl := eq_nil_of_problems_strays hp.2.2
    rw [hl]
    exact .forLoop hs hb hl
  | branch hs hb =>
    rw [Block.problems_append, List.append_eq_nil_iff] at hp
    obtain ⟨hl, hgo⟩ := leftover_of_goOn hp.2
    rw [hgo, List.append_nil]
    exact .branch hs hb hl
  | elseIf hk hr hb =>
    obtain ⟨hl, hgo⟩ := leftover_of_goOn hp
    rw [hgo]
    exact .elseIf hk hr hb hl
  | orElse hk hr ht hb =>
    rw [Block.problems, List.append_eq_nil_iff] at hp
    have hl := eq_nil_of_problems_strays hp.2
    rw [hl]
    exact .orElse hk hr ht hb hl

/-- **A clean step is a step.** -/
theorem Clean.step {e : Entry} {body : Option (Option Block)} {chain : Option Chain} {st : Step}
    (h : e.Clean body chain st) : e.step chain body = some st := by
  cases h with
  | plain hs ht hu =>
    have hk := continues_of_sentence hs (by simp) (by rintro _ ⟨⟩; exact ht)
    simp only [step_eq_start hk, start, hs, Option.bind_some, hu, Option.map_some, strays]
  | whileLoop hs hb hl =>
    have hk := continues_of_sentence hs (by simp) (by simp)
    subst hb
    simp only [step_eq_start hk, start, hs, Option.bind_some, Option.map_some, withBody, finish, hl, strays]
  | forLoop hs hb hl =>
    have hk := continues_of_sentence hs (by simp) (by simp)
    subst hb
    simp only [step_eq_start hk, start, hs, Option.bind_some, Option.map_some, withBody, finish, hl, strays]
  | branch hs hb hl =>
    have hk := continues_of_sentence hs (by simp) (by simp)
    subst hb
    simp only [step_eq_start hk, start, hs, Option.bind_some, Option.map_some, withBody, goOn, hl,
      List.append_nil]
  | elseIf hk hr hb hl =>
    subst hb
    simp only [Entry.step, hk, Entry.elseIf, hr, Option.bind_some, Option.map_some, withBody, goOn, hl]
  | orElse hk hr ht hb hl =>
    subst hb
    simp only [Entry.step, hk, Entry.orElse, hr, Option.bind_some, ht, if_true, Option.map_some,
      withBody, finish, hl, strays]

end Entry

/-! ### The problems of an open conditional -/

theorem problems_closeChain_of_readSection : ∀ {s : List Entry} {chain : Option Chain} {b : Block},
    readSection chain s = some b → Block.problems b = [] → Block.problems (closeChain chain) = []
  | [], chain, b, h, hp => by
    rw [readSection] at h
    cases h
    exact hp
  | e :: es, chain, b, h, hp => by
    obtain ⟨trees, next, more, hstep, hmore, rfl⟩ := exists_step_of_readSection h
    rw [Block.problems_append, List.append_eq_nil_iff] at hp
    have hnext := problems_closeChain_of_readSection hmore hp.2
    cases Entry.clean_of_step hstep hp.1 with
    | plain | whileLoop | forLoop =>
      rw [Block.problems_append, List.append_eq_nil_iff] at hp
      exact hp.1.1
    | branch => exact hp.1
    | elseIf =>
      simp only [closeChain, Chain.close, Chain.add, Block.problems, Tree.problems, problemsOfElse,
        problemsOfBranches_append, List.append_nil, List.append_eq_nil_iff] at hnext ⊢
      exact hnext.1
    | orElse =>
      simp only [closeChain, Chain.close, Block.problems, Tree.problems, problemsOfElse,
        List.append_nil, List.append_eq_nil_iff] at hp ⊢
      exact hp.1.1

end Offside

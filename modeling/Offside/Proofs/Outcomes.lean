/-
# What an entry comes to

`Entry.Outcome` lists what an entry of a section can come to: a statement by
itself, a problem, a loop, or a branch of a conditional. The conditional that
was open before the entry is closed and kept, or goes on, with one exception:
a further branch that cannot be read leaves nothing of it
(`Entry.Outcome.lost`).

Key definitions: `Line.BranchFault`, `Entry.Outcome`.
Key theorems: `Entry.outcome_of_step`, `Entry.goOn_cases`.
-/
import Offside.Proofs.Kinds
import Offside.Proofs.Nesting

namespace Offside

theorem error_of_readHeader {keyword t : Text} {p : Problem} (h : readHeader? keyword t = some (.error p)) :
    p = .missingColon keyword ∨ p = .missingCondition keyword := by
  obtain ⟨rest, -, h⟩ := Option.map_eq_some_iff.1 h
  unfold readCondition at h
  split at h
  · cases h
    exact .inl rfl
  · split at h
    · cases h
      exact .inr rfl
    · cases h

/-- Why a line that continues a conditional can be no branch of it. -/
inductive Line.BranchFault (l : Line) : Problem → Prop where
  | condition {p : Problem} (hk : l.kind = .elifHeader) (hr : readHeader? "elif" l.text = some (.error p)) :
    l.BranchFault p
  | colon (hk : l.kind = .elseHeader) : l.BranchFault (.missingColon "else")
  | body (hk : l.kind.continuesConditional = true) : l.BranchFault (.missingBody l.text)

theorem Line.BranchFault.continues {l : Line} {p : Problem} (h : l.BranchFault p) :
    l.kind.continuesConditional = true := by
  cases h with
  | condition hk => rw [hk]; rfl
  | colon hk => rw [hk]; rfl
  | body hk => exact hk

namespace Entry

/-- What an entry with the body `body` comes to after the conditional `chain`,
if one is open. -/
inductive Outcome (e : Entry) (body : Option (Option Block)) : Option Chain → Step → Prop where
  /-- A statement by itself, or a problem of the line. -/
  | whole {chain : Option Chain} {t : Tree} (hs : e.line.sentence? = some (.whole t)) :
    Outcome e body chain (closeChain chain ++ t :: strays none (heads e.under), none)
  /-- A problem; what is under the line is passed over. -/
  | refused {chain : Option Chain} {p : Problem} (hs : e.line.sentence? = some (.refused p)) :
    Outcome e body chain (closeChain chain ++ [.malformed e.line.number p], none)
  /-- A header with nothing under it. -/
  | bodyless {chain : Option Chain} (hk : e.line.kind.isHeader = true) (hb : body = some none) :
    Outcome e body chain (closeChain chain ++ [.malformed e.line.number (.missingBody e.line.text)], none)
  | whileLoop {chain : Option Chain} {c : Text} {b : Block} (hs : e.line.sentence? = some (.loop c))
    (hb : body = some (some b)) :
    Outcome e body chain
      (closeChain chain ++ .whileLoop e.line.number c b :: strays e.inner e.leftover, none)
  | forLoop {chain : Option Chain} {loop : RangeLoop} {b : Block}
    (hs : e.line.sentence? = some (.range loop)) (hb : body = some (some b)) :
    Outcome e body chain
      (closeChain chain ++ .forLoop e.line.number loop b :: strays e.inner e.leftover, none)
  /-- The first branch of a conditional. -/
  | branch {chain : Option Chain} {c : Text} {b : Block} (hs : e.line.sentence? = some (.branch c))
    (hb : body = some (some b)) :
    Outcome e body chain (closeChain chain ++ (e.goOn ⟨e.line.number, e.inner.getD 0, [(c, b)]⟩).1,
      (e.goOn ⟨e.line.number, e.inner.getD 0, [(c, b)]⟩).2)
  /-- A further branch that cannot be read. The conditional is lost with it. -/
  | lost {chain : Chain} {p : Problem} (hf : e.line.BranchFault p) :
    Outcome e body (some chain) ([.malformed e.line.number p], none)
  | elseIf {chain : Chain} {c : Text} {b : Block} (hk : e.line.kind = .elifHeader)
    (hr : readHeader? "elif" e.line.text = some (.ok c)) (hb : body = some (some b)) :
    Outcome e body (some chain) (e.goOn (chain.add c b))
  | orElse {chain : Chain} {rest : Text} {b : Block} (hk : e.line.kind = .elseHeader)
    (hr : afterKeyword? "else" e.line.text = some rest) (ht : Text.trim rest = [':'])
    (hb : body = some (some b)) :
    Outcome e body (some chain) (chain.close (some b) :: strays (some chain.inner) e.leftover, none)

variable {e : Entry} {body : Option (Option Block)} {chain : Option Chain} {st : Step}

/-- What needs a body comes to a problem without one. -/
theorem withBody_cases {make : Block → Step} (h : body.map (e.withBody · make) = some st) :
    (body = some none ∧ st = e.fault (.missingBody e.line.text)) ∨
      ∃ b, body = some (some b) ∧ st = make b := by
  obtain ⟨b?, rfl, rfl⟩ := Option.map_eq_some_iff.1 h
  cases b? with
  | none => exact .inl ⟨rfl, rfl⟩
  | some b => exact .inr ⟨b, rfl, rfl⟩

/-- A conditional goes on unless the body of its branch leaves lines over. -/
theorem goOn_cases (e : Entry) (c : Chain) :
    (e.leftover = [] ∧ e.goOn c = ([], some c)) ∨
      (e.leftover ≠ [] ∧ e.goOn c = (c.close none :: strays (some c.inner) e.leftover, none)) := by
  unfold goOn
  cases hl : e.leftover with
  | nil => exact .inl ⟨rfl, rfl⟩
  | cons l ls =>
    exact .inr ⟨nofun, by rw [finish, hl]⟩

theorem outcome_of_start (h : e.start body = some st) :
    e.Outcome body chain (closeChain chain ++ st.1, st.2) := by
  obtain ⟨s, hs, h⟩ := Option.bind_eq_some_iff.1 h
  have hkind := Line.kind_of_sentence hs
  cases s with
  | whole t =>
    cases h
    exact .whole hs
  | refused p =>
    cases h
    exact .refused hs
  | loop c =>
    rcases withBody_cases h with ⟨hb, rfl⟩ | ⟨b, hb, rfl⟩
    · exact .bodyless (by rw [hkind.1]; rfl) hb
    · exact .whileLoop hs hb
  | range loop =>
    rcases withBody_cases h with ⟨hb, rfl⟩ | ⟨b, hb, rfl⟩
    · exact .bodyless (by rw [hkind.1]; rfl) hb
    · exact .forLoop hs hb
  | branch c =>
    rcases withBody_cases h with ⟨hb, rfl⟩ | ⟨b, hb, rfl⟩
    · exact .bodyless (by rw [hkind.1]; rfl) hb
    · exact .branch hs hb

/-- **What an entry comes to is one of the outcomes.** -/
theorem outcome_of_step (h : e.step chain body = some st) : e.Outcome body chain st := by
  unfold step at h
  split at h
  · next c hk =>
    obtain ⟨r, hr, h⟩ := Option.bind_eq_some_iff.1 h
    cases r with
    | error p =>
      cases h
      exact .lost (.condition hk hr)
    | ok condition =>
      rcases withBody_cases h with ⟨-, rfl⟩ | ⟨b, hb, rfl⟩
      · exact .lost (.body (by rw [hk]; rfl))
      · exact .elseIf hk hr hb
  · next c hk =>
    obtain ⟨rest, hr, h⟩ := Option.bind_eq_some_iff.1 h
    by_cases hcolon : Text.trim rest = [':']
    · rw [if_pos hcolon] at h
      rcases withBody_cases h with ⟨-, rfl⟩ | ⟨b, hb, rfl⟩
      · exact .lost (.body (by rw [hk]; rfl))
      · exact .orElse hk hr hcolon hb
    · rw [if_neg hcolon] at h
      cases h
      exact .lost (.colon hk)
  · obtain ⟨started, hstart, rfl⟩ := Option.map_eq_some_iff.1 h
    exact outcome_of_start hstart

end Entry
end Offside

/-
# What the kind of a line promises

The kind of a classified line says how its text was cut: a line that prints
holds the arguments of the call, a line that assigns has its two sides, and
the line has an operator exactly when it updates. So a classified line of a
plain kind is read as a statement without a problem, and a line that is read
so is of a plain kind. `Line.Speaks` lists all that a line can say by itself, of
whatever kind it is.

Key definitions: `Line.States`, `Line.Speaks`.
Key theorems: `Line.Kind.ofText_cases`, `Line.Classified.exists_states`,
`Line.speaks_of_sentence`, `Line.kind_of_sentence`.
-/
import Offside.Block.Total
import Offside.Proofs.Layout
import Offside.Proofs.Leaves
import Offside.Proofs.Places

namespace Offside
namespace Line.Kind

/-- The four ways in which a line gets its kind. -/
theorem ofText_cases (t : Text) :
    (∃ w, (w, ofText t) ∈ byFirstWord ∧ startsWithWord w t = true) ∨
    ((callArguments? "print" t).isSome = true ∧ ofText t = print) ∨
    byWholeText.lookup t = some (ofText t) ∨ ofText t = ofShape t := by
  generalize hk : ofText t = k
  unfold ofText at hk
  split at hk
  · next entry he =>
    subst hk
    have hfound := List.find?_some he
    exact .inl ⟨entry.1, List.mem_of_find?_eq_some he, hfound⟩
  · split at hk
    · next hp => exact .inr (.inl ⟨hp, hk.symm⟩)
    · cases hl : byWholeText.lookup t with
      | some k' =>
        rw [hl, Option.getD_some] at hk
        exact .inr (.inr (.inl (by rw [hk])))
      | none =>
        rw [hl, Option.getD_none] at hk
        exact .inr (.inr (.inr hk.symm))

theorem eq_of_lookup {t : Text} {k : Kind} (h : byWholeText.lookup t = some k) :
    k = pass ∨ k = breakLoop ∨ k = continueLoop := by
  simp only [byWholeText, List.lookup_cons, List.lookup_nil] at h
  split at h
  · exact .inl (Option.some.inj h).symm
  · split at h
    · exact .inr (.inl (Option.some.inj h).symm)
    · split at h
      · exact .inr (.inr (Option.some.inj h).symm)
      · cases h

/-- A line that no word gives a kind calls, assigns or is not known. -/
theorem ofShape_cases (t : Text) :
    ofShape t = call ∨ ofShape t = unknown ∨
      ∃ a, Assignment.ofText? t = some a ∧ ofShape t = ofAssignment a := by
  unfold ofShape
  split
  · exact .inl rfl
  · split
    · next a ha =>
      split
      · exact .inr (.inr ⟨a, ha, rfl⟩)
      · exact .inr (.inl rfl)
    · exact .inr (.inl rfl)

theorem isSome_callArguments_of_ofText {t : Text} (h : ofText t = print) :
    (callArguments? "print" t).isSome = true := by
  rcases ofText_cases t with ⟨w, hw, _⟩ | ⟨hp, _⟩ | hl | hs
  · rw [h] at hw
    simp [byFirstWord] at hw
  · exact hp
  · rw [h] at hl
    simpa using eq_of_lookup hl
  · rw [h] at hs
    rcases ofShape_cases t with hc | hc | ⟨a, _, hc⟩
    · rw [hc] at hs
      cases hs
    · rw [hc] at hs
      cases hs
    · rw [hc] at hs
      unfold ofAssignment at hs
      split at hs
      · cases hs
      · split at hs <;> cases hs

theorem exists_assignment_of_ofText {t : Text} (h : ofText t = assignment ∨ ofText t = update) :
    ∃ a, Assignment.ofText? t = some a ∧ (a.operator.isSome = true ↔ ofText t = update) := by
  rcases ofText_cases t with ⟨w, hw, _⟩ | ⟨_, hp⟩ | hl | hs
  · rcases h with h | h <;> rw [h] at hw <;> simp [byFirstWord] at hw
  · rcases h with h | h <;> rw [h] at hp <;> cases hp
  · rcases h with h | h <;> rw [h] at hl <;> simpa using eq_of_lookup hl
  · rcases ofShape_cases t with hc | hc | ⟨a, ha, hc⟩
    · rcases h with h | h <;> rw [h, hc] at hs <;> cases hs
    · rcases h with h | h <;> rw [h, hc] at hs <;> cases hs
    · refine ⟨a, ha, ?_⟩
      rw [hs, hc] at h ⊢
      unfold ofAssignment at h ⊢
      split at h
      · rcases h with h | h <;> cases h
      · cases a.operator <;> simp

end Line.Kind

namespace Line

/-- The statement that a line of a plain kind makes. -/
inductive States (l : Line) : Tree → Prop where
  | returnNothing {rest : Text} (hk : l.kind = .returned)
    (hr : afterKeyword? "return" l.text = some rest) (hv : Text.trim rest = []) :
    l.States (.returned l.number none)
  | returnValue {rest : Text} (hk : l.kind = .returned)
    (hr : afterKeyword? "return" l.text = some rest) (hv : Text.trim rest ≠ []) :
    l.States (.returned l.number (some (Text.trim rest)))
  | print {arguments : Text} (hk : l.kind = .print)
    (hr : callArguments? "print" l.text = some arguments) :
    l.States (.print l.number (splitArguments arguments))
  | pass (hk : l.kind = .pass) : l.States (.pass l.number)
  | breakLoop (hk : l.kind = .breakLoop) : l.States (.breakLoop l.number)
  | continueLoop (hk : l.kind = .continueLoop) : l.States (.continueLoop l.number)
  | call (hk : l.kind = .call) : l.States (.call l.number l.text)
  | assignment {a : Assignment} (hk : l.kind = .assignment)
    (hr : Assignment.ofText? l.text = some a) : l.States (.assignment l.number a.target a.value)
  | update {a : Assignment} {operator : Char} (hk : l.kind = .update)
    (hr : Assignment.ofText? l.text = some a) (ho : a.operator = some operator) :
    l.States (.update l.number a.target operator a.value)

/-- **A classified line of a plain kind makes a statement of this kind.** -/
theorem Classified.exists_states {l : Line} (h : l.Classified) (hk : l.kind.isPlain = true) :
    ∃ t, l.sentence? = some (.whole t) ∧ l.States t := by
  unfold sentence?
  cases hkind : l.kind with
  | returned =>
    obtain ⟨rest, hrest⟩ := Option.isSome_iff_exists.1
      (h.isSome_afterKeyword hkind (w := "return") (by decide) (by decide))
    simp only [hrest, Option.map_some]
    refine ⟨_, rfl, ?_⟩
    by_cases hv : Text.trim rest = []
    · rw [if_pos hv]
      exact .returnNothing hkind hrest hv
    · rw [if_neg hv]
      exact .returnValue hkind hrest hv
  | print =>
    obtain ⟨args, hargs⟩ := Option.isSome_iff_exists.1
      (Kind.isSome_callArguments_of_ofText (h.symm.trans hkind))
    simp only [hargs]
    exact ⟨_, rfl, .print hkind hargs⟩
  | pass => exact ⟨_, rfl, .pass hkind⟩
  | breakLoop => exact ⟨_, rfl, .breakLoop hkind⟩
  | continueLoop => exact ⟨_, rfl, .continueLoop hkind⟩
  | call => exact ⟨_, rfl, .call hkind⟩
  | assignment =>
    obtain ⟨⟨target, operator, value⟩, ha, hop⟩ :=
      Kind.exists_assignment_of_ofText (.inl (h.symm.trans hkind))
    refine ⟨_, rfl, ?_⟩
    rw [← h, hkind] at hop
    obtain _ | operator := operator
    · rw [Line.assignment, ha]
      exact .assignment hkind ha
    · exact absurd (hop.1 rfl) nofun
  | update =>
    obtain ⟨⟨target, operator, value⟩, ha, hop⟩ :=
      Kind.exists_assignment_of_ofText (.inr (h.symm.trans hkind))
    refine ⟨_, rfl, ?_⟩
    rw [← h, hkind] at hop
    obtain ⟨operator, rfl⟩ := Option.isSome_iff_exists.1 (hop.2 rfl)
    rw [Line.assignment, ha]
    exact .update hkind ha rfl
  | _ => rw [hkind] at hk; cases hk

namespace States

variable {l : Line} {t : Tree}

theorem problems_eq_nil (h : l.States t) : t.problems = [] := by
  cases h <;> rfl

theorem parts_eq (h : l.States t) (p : Place) : t.parts p = [(p, .statement t)] := by
  cases h <;> rfl

theorem isPass_iff (h : l.States t) : l.kind = .pass ↔ (Part.statement t).isPass = true := by
  cases h <;> simp [*, Part.isPass]

end States

/-- What a line can say by itself, and what its kind and its text are then. -/
inductive Speaks (l : Line) : Sentence → Prop where
  | branch {c : Text} (hk : l.kind = .ifHeader) (hr : readHeader? "if" l.text = some (.ok c)) : l.Speaks (.branch c)
  | loop {c : Text} (hk : l.kind = .whileHeader) (hr : readHeader? "while" l.text = some (.ok c)) : l.Speaks (.loop c)
  | range {loop : RangeLoop} (hk : l.kind = .forHeader) (hr : RangeLoop.ofText? l.text = some (.ok loop)) :
    l.Speaks (.range loop)
  | badBranch {p : Problem} (hk : l.kind = .ifHeader) (hr : readHeader? "if" l.text = some (.error p)) :
    l.Speaks (.refused p)
  | badLoop {p : Problem} (hk : l.kind = .whileHeader) (hr : readHeader? "while" l.text = some (.error p)) :
    l.Speaks (.refused p)
  | badRange {p : Problem} (hk : l.kind = .forHeader) (hr : RangeLoop.ofText? l.text = some (.error p)) :
    l.Speaks (.refused p)
  | nested {s : Signature} (hk : l.kind = .definition) (hs : Signature.ofText? l.text = some s) :
    l.Speaks (.refused (.nestedDefinition s.name))
  | badDefinition (hk : l.kind = .definition) (hs : Signature.ofText? l.text = none) :
    l.Speaks (.refused (.malformedDefinition l.text))
  | danglingElif (hk : l.kind = .elifHeader) : l.Speaks (.refused (.danglingBranch "elif"))
  | danglingElse (hk : l.kind = .elseHeader) : l.Speaks (.refused (.danglingBranch "else"))
  | returned {rest : Text} (hk : l.kind = .returned) (hr : afterKeyword? "return" l.text = some rest) :
    l.Speaks (.whole (.returned l.number (if Text.trim rest = [] then none else some (Text.trim rest))))
  | print {arguments : Text} (hk : l.kind = .print) (hr : callArguments? "print" l.text = some arguments) :
    l.Speaks (.whole (.print l.number (splitArguments arguments)))
  | pass (hk : l.kind = .pass) : l.Speaks (.whole (.pass l.number))
  | breakLoop (hk : l.kind = .breakLoop) : l.Speaks (.whole (.breakLoop l.number))
  | continueLoop (hk : l.kind = .continueLoop) : l.Speaks (.whole (.continueLoop l.number))
  | call (hk : l.kind = .call) : l.Speaks (.whole (.call l.number l.text))
  | assignment {target value : Text} (hk : l.kind.isPlain = true)
    (ha : Assignment.ofText? l.text = some ⟨target, none, value⟩) :
    l.Speaks (.whole (.assignment l.number target value))
  | update {target value : Text} {operator : Char} (hk : l.kind.isPlain = true)
    (ha : Assignment.ofText? l.text = some ⟨target, some operator, value⟩) :
    l.Speaks (.whole (.update l.number target operator value))
  /-- A line of a plain kind is not supported only if it was made by hand. -/
  | unsupported (hk : l.kind = .unknown ∨ l.kind.isPlain = true) :
    l.Speaks (.whole (.malformed l.number (.unsupportedStatement l.text)))
  | collection {kind : Collection} (hk : l.kind = .collection kind) :
    l.Speaks (.whole (.malformed l.number (.unsupportedCollection kind)))

/-- **A line says nothing else by itself.** -/
theorem speaks_of_sentence {l : Line} {s : Sentence} (h : l.sentence? = some s) : l.Speaks s := by
  have assigns : l.kind.isPlain = true → l.Speaks (.whole l.assignment) := by
    intro hk
    unfold Line.assignment
    split
    · next ha => exact .update hk ha
    · next ha => exact .assignment hk ha
    · exact .unsupported (.inr hk)
  unfold sentence? at h
  cases hkind : l.kind <;> simp only [hkind] at h
  case definition =>
    split at h <;> cases h
    · next hs => exact .nested hkind hs
    · next hs => exact .badDefinition hkind hs
  case ifHeader =>
    obtain ⟨r, hr, rfl⟩ := Option.map_eq_some_iff.1 h
    cases r with
    | ok c => exact .branch hkind hr
    | error p => exact .badBranch hkind hr
  case whileHeader =>
    obtain ⟨r, hr, rfl⟩ := Option.map_eq_some_iff.1 h
    cases r with
    | ok c => exact .loop hkind hr
    | error p => exact .badLoop hkind hr
  case forHeader =>
    obtain ⟨r, hr, rfl⟩ := Option.map_eq_some_iff.1 h
    cases r with
    | ok loop => exact .range hkind hr
    | error p => exact .badRange hkind hr
  case returned =>
    obtain ⟨rest, hr, rfl⟩ := Option.map_eq_some_iff.1 h
    exact .returned hkind hr
  case print =>
    split at h <;> cases h
    · next hr => exact .print hkind hr
    · exact .unsupported (.inr (by rw [hkind]; rfl))
  case assignment | update =>
    cases h
    exact assigns (by rw [hkind]; rfl)
  case elifHeader => cases h; exact .danglingElif hkind
  case elseHeader => cases h; exact .danglingElse hkind
  case pass => cases h; exact .pass hkind
  case breakLoop => cases h; exact .breakLoop hkind
  case continueLoop => cases h; exact .continueLoop hkind
  case call => cases h; exact .call hkind
  case collection => cases h; exact .collection hkind
  case unknown => cases h; exact .unsupported (.inl hkind)

theorem kind_of_sentence {l : Line} {s : Sentence} (h : l.sentence? = some s) :
    match s with
    | .whole t => l.kind.isPlain = true ∨ t.problems ≠ []
    | .refused _ => True
    | .loop c => l.kind = .whileHeader ∧ readHeader? "while" l.text = some (.ok c)
    | .range loop => l.kind = .forHeader ∧ RangeLoop.ofText? l.text = some (.ok loop)
    | .branch c => l.kind = .ifHeader ∧ readHeader? "if" l.text = some (.ok c) := by
  cases speaks_of_sentence h with
  | branch hk hr | loop hk hr | range hk hr => exact ⟨hk, hr⟩
  | badBranch | badLoop | badRange | nested | badDefinition | danglingElif | danglingElse => trivial
  | assignment hk | update hk => exact .inl hk
  | unsupported | collection => exact .inr (List.cons_ne_nil _ _)
  | returned hk | print hk | pass hk | breakLoop hk | continueLoop hk | call hk =>
    exact .inl (by rw [hk]; rfl)

theorem sentence_whileHeader {l : Line} {c : Text} (hk : l.kind = .whileHeader)
    (hr : readHeader? "while" l.text = some (.ok c)) : l.sentence? = some (.loop c) := by
  simp only [sentence?, hk, hr, Option.map_some]

theorem sentence_forHeader {l : Line} {loop : RangeLoop} (hk : l.kind = .forHeader)
    (hr : RangeLoop.ofText? l.text = some (.ok loop)) : l.sentence? = some (.range loop) := by
  simp only [sentence?, hk, hr, Option.map_some]

theorem sentence_ifHeader {l : Line} {c : Text} (hk : l.kind = .ifHeader)
    (hr : readHeader? "if" l.text = some (.ok c)) : l.sentence? = some (.branch c) := by
  simp only [sentence?, hk, hr, Option.map_some]

theorem isPlain_of_whole {l : Line} {t : Tree} (h : l.sentence? = some (.whole t))
    (ht : t.problems = []) : l.kind.isPlain = true :=
  (kind_of_sentence h).resolve_right (not_not_intro ht)

end Line
end Offside

/-
# Calls that take up a line

A line is taken for a call if it starts like one and ends with a closing
parenthesis, whatever stands between. The two parentheses belong together
unless the first one is closed early, by a parenthesis within the line, or is
not closed at all, as where the last one stands in a literal
(`matched_iff`). Where it is closed early, the line goes on after a call
(`goesOn_iff`): `print(a) + (b)` is printed as if it were one.

Key definitions: `parenDepth`, `Matched`, `ClosesEarly`, `StaysOpen`,
`IsWholeCall`, `GoesOn`.
Key theorems: `nonneg_or_closesEarly`, `matched_iff`, `goesOn_iff`,
`calls_spanned`, `calls_spanned_sum`.
-/
import Mathlib.Data.List.Infix
import Offside.Proofs.Arguments
import Offside.Proofs.Preservation
import Offside.Proofs.Shapes

namespace Offside

/-! ### Parentheses -/

/-- How many more parentheses a text opens than it closes. -/
def parenDepth (t : Text) : Int := t.count '(' - t.count ')'

theorem parenDepth_append (s t : Text) : parenDepth (s ++ t) = parenDepth s + parenDepth t := by
  unfold parenDepth
  rw [List.count_append, List.count_append]
  omega

theorem parenDepth_singleton (c : Char) : (c = ')' → parenDepth [c] = -1) ∧ (c ≠ ')' → 0 ≤ parenDepth [c]) := by
  constructor
  · rintro rfl
    decide
  · intro hc
    have hnone : [c].count ')' = 0 := List.count_eq_zero.2 (by simpa [eq_comm] using hc)
    unfold parenDepth
    omega

/-- Whether a text between two parentheses lets them belong together. The
parentheses in it are counted where they stand in no literal. -/
structure Matched (args : Text) : Prop where
  /-- No parenthesis in it closes the first one. -/
  nonneg : ∀ p, p <+: mask args → 0 ≤ parenDepth p
  /-- The last one finds no other parenthesis open. -/
  balanced : parenDepth (mask args) = 0
  /-- The last one is in no literal. -/
  closed : isClosed args = true

instance (args : Text) : Decidable (Matched args) :=
  decidable_of_iff (((mask args).inits.all (0 ≤ parenDepth ·)) = true ∧ parenDepth (mask args) = 0 ∧
      isClosed args = true)
    ⟨fun ⟨h, hb, hc⟩ => ⟨by simpa [List.mem_inits] using h, hb, hc⟩,
      fun h => ⟨by simpa [List.mem_inits] using h.nonneg, h.balanced, h.closed⟩⟩

/-- Whether a parenthesis before the last one closes the first one. -/
def ClosesEarly (args : Text) : Prop := ∃ inner rest, args = inner ++ ')' :: rest ∧ Matched inner

/-- Whether no parenthesis closes the first one. -/
structure StaysOpen (args : Text) : Prop where
  nonneg : ∀ p, p <+: mask args → 0 ≤ parenDepth p
  unmatched : ¬ (parenDepth (mask args) = 0 ∧ isClosed args = true)

/-! ### Where the first parenthesis is closed -/

theorem ClosesEarly.exists_prefix {args : Text} (h : ClosesEarly args) :
    ∃ p, p <+: mask args ∧ parenDepth p = -1 := by
  obtain ⟨inner, rest, rfl, hinner⟩ := h
  have hquote : Quote.after .outside inner = .outside := by simpa [isClosed] using hinner.closed
  have hmask : mask (inner ++ ')' :: rest) = mask inner ++ [')'] ++ maskFrom .outside rest := by
    rw [mask, maskFrom_append, hquote, List.append_assoc]
    rfl
  refine ⟨mask inner ++ [')'], ⟨_, hmask.symm⟩, ?_⟩
  rw [parenDepth_append, hinner.balanced]
  decide

/-- **A text that closes more parentheses than it opens, up to some place,
closes the first one early.** The induction is on the text from its end: the
last character is the first that can close too many. -/
theorem nonneg_or_closesEarly (args : Text) : (∀ p, p <+: mask args → 0 ≤ parenDepth p) ∨ ClosesEarly args := by
  induction args using List.reverseRecOn with
  | nil =>
    left
    intro p hp
    rw [List.prefix_nil.1 hp]
    decide
  | append_singleton args c ih =>
    rcases ih with hnonneg | ⟨inner, rest, rfl, hinner⟩
    · have hmask : mask (args ++ [c]) = mask args ++ [(Quote.after .outside args).masked c] := by
        rw [mask, maskFrom_append]
        rfl
      have hdepth : 0 ≤ parenDepth (mask args) := hnonneg _ (List.prefix_refl _)
      by_cases hlast : 0 ≤ parenDepth (mask (args ++ [c]))
      · left
        intro p hp
        rw [hmask, List.prefix_concat_iff, ← hmask] at hp
        rcases hp with rfl | hp
        · exact hlast
        · exact hnonneg p hp
      · right
        obtain ⟨hclose, hother⟩ := parenDepth_singleton ((Quote.after .outside args).masked c)
        rw [hmask, parenDepth_append] at hlast
        have hshows : (Quote.after .outside args).masked c = ')' := by
          by_contra hne
          have hnone := hother hne
          omega
        obtain ⟨hquote, rfl⟩ := (Quote.masked_eq_iff (by decide) (by decide)).1 hshows
        have hone := hclose hshows
        exact ⟨args, [], rfl, hnonneg, by omega, by simp [isClosed, hquote]⟩
    · exact .inr ⟨inner, rest ++ [c], by simp, hinner⟩

/-- **The outer parentheses of a call belong together, or the first one is
closed early, or it is not closed**, and only one of these. -/
theorem matched_iff (args : Text) :
    (Matched args ↔ ¬ ClosesEarly args ∧ ¬ StaysOpen args) ∧ ¬ (ClosesEarly args ∧ StaysOpen args) := by
  have hearly : (∀ p, p <+: mask args → 0 ≤ parenDepth p) → ¬ ClosesEarly args := by
    intro hnonneg h
    obtain ⟨p, hp, hdepth⟩ := h.exists_prefix
    have hp := hnonneg p hp
    omega
  refine ⟨⟨?_, ?_⟩, fun ⟨hearly', hopen⟩ => hearly hopen.nonneg hearly'⟩
  · intro h
    exact ⟨hearly h.nonneg, fun hopen => hopen.unmatched ⟨h.balanced, h.closed⟩⟩
  · rintro ⟨hnone, hopen⟩
    have hnonneg := (nonneg_or_closesEarly args).resolve_right hnone
    obtain ⟨hbalanced, hclosed⟩ := not_not.1 fun hunmatched => hopen ⟨hnonneg, hunmatched⟩
    exact ⟨hnonneg, hbalanced, hclosed⟩

/-! ### What is taken for a call -/

/-- Whether a text is one call of `name`, from its first parenthesis to the one
that closes it. -/
def IsWholeCall (name t : Text) : Prop :=
  ∃ gap args, (∀ c ∈ gap, isBlank c = true) ∧ t = name ++ gap ++ '(' :: (args ++ [')']) ∧ Matched args

/-- Whether a text goes on after one call of `name`. -/
def GoesOn (name t : Text) : Prop := ∃ front rest, rest ≠ [] ∧ t = front ++ rest ∧ IsWholeCall name front

section

variable {name t args : Text}

theorem isWholeCall_iff (h : callArguments? name t = some args) : IsWholeCall name t ↔ Matched args := by
  obtain ⟨gap, hgap, ht⟩ := callArguments?_eq_some_iff.1 h
  constructor
  · rintro ⟨gap', args', hgap', ht', hmatched⟩
    have h' := callArguments?_eq_some_iff.2 ⟨gap', hgap', ht'⟩
    obtain rfl := Option.some.inj (h.symm.trans h')
    exact hmatched
  · exact fun hmatched => ⟨gap, args, hgap, ht, hmatched⟩

/-- **The first parenthesis is closed early exactly if the text goes on after a
call.** -/
theorem goesOn_iff (h : callArguments? name t = some args) : GoesOn name t ↔ ClosesEarly args := by
  obtain ⟨gap, hgap, rfl⟩ := callArguments?_eq_some_iff.1 h
  constructor
  · rintro ⟨front, rest, hrest, hsplit, gap', inner, hgap', rfl, hmatched⟩
    have hcut : gap ++ '(' :: (args ++ [')']) = gap' ++ '(' :: (inner ++ [')'] ++ rest) := by
      simpa using hsplit
    -- both are the text after the name, without its white space
    have hinner := congrArg Text.trimStart hcut
    rw [trimStart_opened hgap, trimStart_opened hgap'] at hinner
    obtain ⟨more, d, rfl⟩ := (List.eq_nil_or_concat rest).resolve_left hrest
    have hsame : args ++ [')'] = (inner ++ ')' :: more) ++ [d] := by simpa using (List.cons.inj hinner).2
    obtain ⟨rfl, -⟩ := List.append_inj' hsame rfl
    exact ⟨inner, more, rfl, hmatched⟩
  · rintro ⟨inner, more, rfl, hmatched⟩
    exact ⟨name ++ gap ++ '(' :: (inner ++ [')']), more ++ [')'], by simp, by simp, gap, inner, hgap, rfl, hmatched⟩

end

/-- **A line that is taken for a call starts and ends like one.** It is a name,
white space, and parentheses up to the end; the name tells an output from any
other call and from the keywords. It is one whole call unless it goes on after
one, or its first parenthesis is not closed. -/
theorem calls_spanned (name t : Text) :
    (∀ args, callArgumentsBySlices? name t = some (some args) ↔
      ∃ gap, (∀ c ∈ gap, isBlank c = true) ∧ t = name ++ gap ++ '(' :: (args ++ [')'])) ∧
    (Line.Kind.ofText t = .print ↔ ∃ args, callArgumentsBySlices? "print" t = some (some args)) ∧
    (Line.Kind.ofText t = .call ↔ ∃ name gap args, isName name = true ∧ name ∉ keywords ∧
      name ≠ "print" ∧ (∀ c ∈ gap, isBlank c = true) ∧ t = name ++ gap ++ '(' :: (args ++ [')'])) ∧
    ∀ args, callArgumentsBySlices? name t = some (some args) →
      (IsWholeCall name t ↔ Matched args) ∧ (Matched args ↔ ¬ GoesOn name t ∧ ¬ StaysOpen args) ∧
        ¬ (GoesOn name t ∧ StaysOpen args) := by
  simp only [callArgumentsBySlices?_eq, Option.some_inj]
  refine ⟨fun _ => callArguments?_eq_some_iff, Line.Kind.ofText_eq_print_iff t,
    Line.Kind.ofText_eq_call_iff t, fun args h => ?_⟩
  rw [goesOn_iff h]
  exact ⟨isWholeCall_iff h, matched_iff args⟩

/-- A call with nested parentheses and one in a literal. -/
theorem calls_spanned_nested : callArgumentsBySlices? "print" "print (f(a), \")\", (b))" =
      some (some "f(a), \")\", (b)".toList) ∧
    IsWholeCall "print" "print (f(a), \")\", (b))" ∧ ¬ GoesOn "print" "print (f(a), \")\", (b))" := by
  have hargs : callArgumentsBySlices? "print" "print (f(a), \")\", (b))" =
      some (some "f(a), \")\", (b)".toList) := by decide +kernel
  have hmatched : Matched "f(a), \")\", (b)" := by decide +kernel
  obtain ⟨hwhole, hends, -⟩ := (calls_spanned _ _).2.2.2 _ hargs
  exact ⟨hargs, hwhole.2 hmatched, (hends.1 hmatched).1⟩

/-- A sum that starts and ends with a call. -/
def summed : Text := "print(a) + (b)\n".toList

/-- The sum is taken for one call, and the conversion yields code. -/
theorem calls_spanned_sum :
    Line.Kind.ofText "print(a) + (b)" = .print ∧
      callArgumentsBySlices? "print" "print(a) + (b)" = some (some "a) + (b".toList) ∧
      ¬ Matched "a) + (b" ∧ ∃ text, (convertProgram summed).value = some (.code text) :=
  ⟨by decide +kernel, by decide +kernel, by decide +kernel, exists_text_of_isCode (by decide +kernel)⟩

end Offside

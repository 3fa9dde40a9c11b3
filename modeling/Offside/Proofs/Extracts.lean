/-
# Expressions are parts of their line

Every reader of a line cuts texts out of it and trims them, so what it yields
stands in the line as it is. The bounds of a range that a loop does not give
are the exception: they are made up, and they can always be translated.

Key definition: `RangeLoop.bounds`.
Key theorems: `infix_of_mem_splitArguments`, `Assignment.infix_of_ofText`,
`Assignment.infix_target_of_ofText`, `infix_of_readHeader`,
`RangeLoop.infix_of_ofText`.
-/
import Mathlib.Data.List.Infix
import Offside.Expression
import Offside.Proofs.Sides
import Offside.Proofs.Trimming

namespace Offside

/-! ### Cutting -/

namespace Text

theorem prefix_of_dropEnd {mark : Char} {t s : Text} (h : dropEnd? mark t = some s) : s <+: t := by
  rw [(dropEnd?_eq_some_iff mark).1 h]
  exact List.prefix_append ..

theorem suffix_of_dropBytes {n : Nat} {t s : Text} (h : dropBytes? n t = some s) : s <:+ t := by
  obtain ⟨r, rfl, -⟩ := exists_of_dropBytes h
  exact List.suffix_append ..

theorem suffix_of_isPrefixOf {s t rest : Text} (h : s.isPrefixOf? t = some rest) : rest <:+ t := by
  rw [eq_of_isPrefixOf h]
  exact List.suffix_append ..

theorem suffix_of_cut {mark t before after : Text} (h : cut? mark t = some (before, after)) :
    after <:+ t := by
  rw [eq_of_cut mark h]
  exact List.suffix_append ..

end Text

/-! ### The readers of a line -/

/-- Pieces between commas are parts of the text, and the first one starts it. -/
theorem infix_of_mem_splitAtCommas : ∀ (t : Text) (n : Nesting),
    (∀ p ∈ (splitAtCommas n t).head?, p <+: t) ∧ ∀ p ∈ splitAtCommas n t, p <:+: t
  | [], n => by simp [splitAtCommas]
  | c :: cs, n => by
    obtain ⟨hfirst, hall⟩ := infix_of_mem_splitAtCommas cs (n.next c)
    rw [splitAtCommas]
    split
    · obtain ⟨-, hall⟩ := infix_of_mem_splitAtCommas cs n
      refine ⟨by simp, fun p hp => ?_⟩
      rcases List.mem_cons.1 hp with rfl | hp
      · exact List.nil_infix
      · exact (hall p hp).trans (List.suffix_cons c cs).isInfix
    · cases hs : splitAtCommas (n.next c) cs with
      | nil => exact absurd hs (splitAtCommas_ne_nil _ _)
      | cons piece more =>
        rw [hs] at hfirst hall
        have hpiece : c :: piece <+: c :: cs := (List.prefix_cons_inj c).2 (hfirst piece rfl)
        refine ⟨by simpa using hpiece, fun p hp => ?_⟩
        rcases List.mem_cons.1 hp with rfl | hp
        · exact hpiece.isInfix
        · exact (hall p (List.mem_cons_of_mem _ hp)).trans (List.suffix_cons c cs).isInfix

/-- **The arguments of a list are parts of it.** -/
theorem infix_of_mem_splitArguments {t p : Text} (h : p ∈ splitArguments t) : p <:+: t := by
  unfold splitArguments at h
  split at h
  · exact absurd h List.not_mem_nil
  · obtain ⟨piece, hpiece, rfl⟩ := List.mem_map.1 h
    exact (Text.infix_trim piece).trans ((infix_of_mem_splitAtCommas t _).2 piece hpiece)

theorem infix_of_callArguments {name t arguments : Text} (h : callArguments? name t = some arguments) :
    arguments <:+: t := by
  unfold callArguments? at h
  split at h
  · next rest hrest =>
    split at h
    · cases h
    · split at h
      · next inner hinner =>
        have hopened : '(' :: inner <:+: rest := hinner ▸ (List.dropWhile_suffix _).isInfix
        have hcut : arguments <:+: inner := (Text.prefix_of_dropEnd h).isInfix
        exact hcut.trans (((List.suffix_cons _ _).isInfix.trans hopened).trans
          (Text.suffix_of_isPrefixOf hrest).isInfix)
      · cases h
  · cases h

theorem Assignment.infix_of_find {n : Nesting} {before t : Text} {a : Assignment}
    (h : find? n before t = some a) : a.value <:+: t := by
  have later : ∀ {c : Char} {rest v : Text}, v <:+: rest → v <:+: c :: rest := fun {c rest v} hv =>
    hv.trans (List.suffix_cons c rest).isInfix
  fun_induction find? n before t with
  | case1 | case5 => cases h
  | case2 n before rest ih => exact later (later (ih h))
  | case3 | case6 | case7 =>
    cases h
    exact later (Text.infix_trim _)
  | case4 _ _ _ _ _ _ _ _ ih => exact later (ih h)
  | case8 _ _ _ _ _ _ ih => exact later (ih h)

theorem Assignment.infix_of_ofText {t : Text} {a : Assignment} (h : ofText? t = some a) : a.value <:+: t :=
  infix_of_find h

theorem Assignment.infix_target_of_find {n : Nesting} {before t : Text} {a : Assignment}
    (h : find? n before t = some a) : a.target <:+: before.reverse ++ t := by
  fun_induction find? n before t with
  | case1 | case5 => cases h
  | case2 n before rest ih => simpa using ih h
  | case3 =>
    cases h
    exact List.nil_infix
  | case4 _ _ _ _ _ _ _ _ ih => simpa using ih h
  | case6 =>
    cases h
    refine (Text.infix_trim _).trans ?_
    rw [List.reverse_cons, List.append_assoc]
    exact (List.prefix_append _ _).isInfix
  | case7 =>
    cases h
    exact (Text.infix_trim _).trans (List.prefix_append _ _).isInfix
  | case8 _ _ _ _ _ _ ih => simpa using ih h

theorem Assignment.infix_target_of_ofText {t : Text} {a : Assignment} (h : ofText? t = some a) :
    a.target <:+: t :=
  infix_target_of_find h

/-! ### Headers -/

theorem infix_of_afterKeyword {keyword t rest : Text} (h : afterKeyword? keyword t = some rest) :
    rest <:+: t :=
  (Text.suffix_of_dropBytes h).isInfix

theorem infix_of_dropEnd_trim {mark : Char} {t inner : Text}
    (h : Text.dropEnd? mark (Text.trim t) = some inner) : inner <:+: t :=
  (Text.prefix_of_dropEnd h).isInfix.trans (Text.infix_trim t)

/-- **A condition is part of its header.** -/
theorem infix_of_readHeader {keyword t condition : Text}
    (h : readHeader? keyword t = some (.ok condition)) : condition <:+: t := by
  obtain ⟨rest, hrest, h⟩ := Option.map_eq_some_iff.1 h
  unfold readCondition at h
  split at h
  · cases h
  · next inner hinner =>
    split at h
    · cases h
    · cases h
      exact (Text.infix_trim inner).trans ((infix_of_dropEnd_trim hinner).trans (infix_of_afterKeyword hrest))

namespace RangeLoop

/-- The bounds of a range: its start, its stop and its step. -/
def bounds (loop : RangeLoop) : List Text := [loop.start, loop.stop, loop.step]

/-- A bound is an argument of the range, or is made up and can be
translated. -/
theorem mem_bounds_of_ofArguments {counter : Text} {arguments : List Text} {loop : RangeLoop}
    (h : ofArguments counter arguments = .ok loop) :
    ∀ e ∈ loop.bounds, e ∈ arguments ∨ (translate? e).isSome = true := by
  have zero : (translate? ['0']).isSome = true := by decide
  have one : (translate? ['1']).isSome = true := by decide
  unfold ofArguments at h
  split at h <;> cases h <;> simp [bounds, zero, one]

theorem infix_of_cutHeader {t counter arguments : Text} (h : cutHeader? t = some (counter, arguments)) :
    arguments <:+: t := by
  unfold cutHeader? at h
  simp only [Option.bind_eq_bind, Option.bind_eq_some_iff, Option.ite_none_right_eq_some] at h
  obtain ⟨⟨name, iterable⟩, hcut, -, inner, hinner, h⟩ := h
  cases h
  exact (infix_of_callArguments hinner).trans
    ((Text.infix_trim iterable).trans (Text.suffix_of_cut hcut).isInfix)

/-- **A bound of a range is part of the header of its loop, unless it is made
up.** -/
theorem infix_of_ofText {t : Text} {loop : RangeLoop} (h : ofText? t = some (.ok loop)) :
    ∀ e ∈ loop.bounds, translate? e = none → e <:+: t := by
  intro e he hnone
  obtain ⟨rest, hrest, h⟩ := Option.map_eq_some_iff.1 h
  unfold ofHeader at h
  split at h
  · cases h
  · next inner hinner =>
    split at h
    · cases h
    · next counter arguments hcut =>
      rcases mem_bounds_of_ofArguments h e he with hmem | hsome
      · exact (infix_of_mem_splitArguments hmem).trans ((infix_of_cutHeader hcut).trans
          ((infix_of_dropEnd_trim hinner).trans (infix_of_afterKeyword hrest)))
      · rw [hnone] at hsome
        cases hsome

end RangeLoop

end Offside

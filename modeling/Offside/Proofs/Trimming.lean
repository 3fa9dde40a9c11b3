/-
# What trimming leaves

A text is trimmed if it neither starts nor ends with white space. Trimming
cuts a text into white space, a trimmed text and white space again, and there
is only one way to cut it so (`Text.trim_eq_iff`).

Key definition: `Text.IsTrimmed`.
Key theorems: `Text.trim_eq_iff`, `Text.isTrimmed_trim`, `Text.trim_eq_self`,
`isNameChar_of_isBlank`.
-/
import Mathlib.Data.List.Induction
import Mathlib.Data.List.TakeWhile
import Offside.Name
import Offside.Text.Blank

namespace Offside

/-- White space is neither a letter nor a numeral, so no name holds any. -/
theorem isNameChar_of_isBlank {c : Char} (h : isBlank c = true) : isNameChar c = false := by
  have hall : ∀ r ∈ blanks, ∀ n ∈ List.range' r.1 (r.2 + 1 - r.1),
      (letters.has n || numerals.has n || n == '_'.toNat) = false := by decide +kernel
  obtain ⟨r, hr, hfirst, hlast⟩ := Ranges.exists_of_has h
  have hn := hall r hr c.toNat (List.mem_range'_1.2 ⟨hfirst, by omega⟩)
  simp only [Bool.or_eq_false_iff] at hn
  have hunder : (c == '_') = false := by
    rw [beq_eq_false_iff_ne]
    rintro rfl
    simp at hn
  simp [isNameChar, isLetter, isNumeral, hn, hunder]

namespace Text

/-- Whether a text neither starts nor ends with white space. -/
def IsTrimmed (t : Text) : Prop :=
  (∀ c ∈ t.head?, isBlank c = false) ∧ ∀ c ∈ t.getLast?, isBlank c = false

instance (t : Text) : Decidable (IsTrimmed t) :=
  decidable_of_iff (t.head?.all (!isBlank ·) && t.getLast?.all (!isBlank ·))
    (by simp [IsTrimmed, Option.all_eq_true])

/-! ### The start -/

theorem trimStart_append {front : Text} (h : ∀ c ∈ front, isBlank c = true) (t : Text) :
    trimStart (front ++ t) = trimStart t :=
  List.dropWhile_append_of_pos h

theorem trimStart_eq_self {t : Text} (h : ∀ c ∈ t.head?, isBlank c = false) : trimStart t = t := by
  cases t with
  | nil => rfl
  | cons c cs =>
    have hc : ¬ isBlank c = true := by simp [h c rfl]
    exact List.dropWhile_cons_of_neg hc

theorem exists_trimStart (t : Text) : ∃ front, t = front ++ trimStart t ∧ ∀ c ∈ front, isBlank c = true :=
  ⟨t.takeWhile isBlank, List.takeWhile_append_dropWhile.symm, fun _ => List.mem_takeWhile_imp⟩

/-! ### The end -/

theorem trimEnd_append (t : Text) {back : Text} (h : ∀ c ∈ back, isBlank c = true) :
    trimEnd (t ++ back) = trimEnd t := by
  induction back using List.reverseRecOn with
  | nil => rw [List.append_nil]
  | append_singleton back c ih =>
    rw [← List.append_assoc, trimEnd_append_blank (h c (by simp)), ih fun d hd => h d (by simp [hd])]

theorem trimEnd_eq_self : ∀ {t : Text}, (∀ c ∈ t.getLast?, isBlank c = false) → trimEnd t = t
  | [], _ => rfl
  | [c], h => by simp [trimEnd, h c rfl]
  | c :: d :: ds, h => by
    rw [List.getLast?_cons_cons] at h
    rw [trimEnd, trimEnd_eq_self h]

theorem exists_trimEnd : ∀ t : Text, ∃ back, t = trimEnd t ++ back ∧ (∀ c ∈ back, isBlank c = true) ∧
    ∀ c ∈ (trimEnd t).getLast?, isBlank c = false
  | [] => ⟨[], rfl, by simp, by simp [trimEnd]⟩
  | c :: cs => by
    obtain ⟨back, hback, hblank, hlast⟩ := exists_trimEnd cs
    rw [trimEnd]
    cases hcs : trimEnd cs with
    | nil =>
      rw [hcs, List.nil_append] at hback
      subst hback
      by_cases hc : isBlank c = true
      · exact ⟨c :: cs, by simp [hc], by simpa [hc] using hblank, by simp [hc]⟩
      · exact ⟨cs, by simp [hc], hblank, by simp [hc]⟩
    | cons d ds =>
      rw [hcs] at hback hlast
      exact ⟨back, by rw [hback]; rfl, hblank, by rwa [List.getLast?_cons_cons]⟩

/-! ### Both -/

theorem isTrimmed_trim (t : Text) : IsTrimmed (trim t) := by
  refine ⟨fun c hc => ?_, ?_⟩
  · obtain ⟨back, hback, -, -⟩ := exists_trimEnd (trimStart t)
    obtain ⟨cs, hcs⟩ := List.head?_eq_some_iff.1 hc
    rw [← trim, hcs, List.cons_append] at hback
    exact trimStart_eq_cons hback
  · obtain ⟨-, -, -, hlast⟩ := exists_trimEnd (trimStart t)
    exact hlast

theorem exists_trim (t : Text) : ∃ front back, t = front ++ trim t ++ back ∧
    (∀ c ∈ front, isBlank c = true) ∧ ∀ c ∈ back, isBlank c = true := by
  obtain ⟨front, hfront, hblank⟩ := exists_trimStart t
  obtain ⟨back, hback, hblank', -⟩ := exists_trimEnd (trimStart t)
  refine ⟨front, back, ?_, hblank, hblank'⟩
  rw [List.append_assoc, trim, ← hback, ← hfront]

theorem infix_trim (t : Text) : trim t <:+: t := by
  obtain ⟨front, back, ht, -⟩ := exists_trim t
  exact ⟨front, back, ht.symm⟩

theorem head?_trim (t : Text) : (trim t).head? = t.find? fun c => !isBlank c := by
  obtain ⟨front, back, ht, hfront, hback⟩ := exists_trim t
  have hfirst := (isTrimmed_trim t).1
  have hnone : ∀ s : Text, (∀ c ∈ s, isBlank c = true) → s.find? (fun c => !isBlank c) = none :=
    fun s hs => List.find?_eq_none.2 fun c hc => by simp [hs c hc]
  conv_rhs => rw [ht, List.append_assoc, List.find?_append, List.find?_append, hnone front hfront,
    hnone back hback]
  cases hs : trim t with
  | nil => rfl
  | cons c cs =>
    rw [hs] at hfirst
    simp [hfirst c rfl]

theorem isTrimmed_enclosed {c d : Char} (hc : isBlank c = false) (hd : isBlank d = false) (s : Text) :
    IsTrimmed (c :: s ++ [d]) := by
  refine ⟨?_, ?_⟩
  · simpa using hc
  · rw [List.getLast?_concat]
    simpa using hd

theorem trim_eq_self {t : Text} (h : IsTrimmed t) : trim t = t := by
  rw [trim, trimStart_eq_self h.1, trimEnd_eq_self h.2]

theorem trim_append (t : Text) {front back : Text} (hfront : ∀ c ∈ front, isBlank c = true)
    (hback : ∀ c ∈ back, isBlank c = true) : trim (front ++ t ++ back) = trim t := by
  obtain ⟨front', ht, hfront'⟩ := exists_trimStart t
  rw [List.append_assoc, trim, trimStart_append hfront, trim]
  by_cases hblank : trimStart t = []
  · -- nothing but white space
    rw [hblank, List.append_nil] at ht
    have hall : ∀ c ∈ t ++ back, isBlank c = true := by
      intro c hc
      rcases List.mem_append.1 hc with hc | hc
      · exact hfront' c (ht ▸ hc)
      · exact hback c hc
    rw [hblank, (trimStart_eq_nil_iff _).2 hall]
  · have hstart : trimStart (t ++ back) = trimStart t ++ back := by
      rw [ht, List.append_assoc, trimStart_append hfront', trimStart_append hfront']
      obtain ⟨c, cs, hcs⟩ := List.exists_cons_of_ne_nil hblank
      rw [hcs]
      have hc := trimStart_eq_cons hcs
      rw [trimStart_eq_self (by simpa using hc), trimStart_eq_self (by simpa using hc)]
    rw [hstart, trimEnd_append _ hback]

/-- **A text trims to the trimmed text that stands between white space in it.** -/
theorem trim_eq_iff {t s : Text} : trim t = s ↔ IsTrimmed s ∧ ∃ front back, t = front ++ s ++ back ∧
    (∀ c ∈ front, isBlank c = true) ∧ ∀ c ∈ back, isBlank c = true := by
  constructor
  · rintro rfl
    exact ⟨isTrimmed_trim t, exists_trim t⟩
  · rintro ⟨hs, front, back, rfl, hfront, hback⟩
    rw [trim_append s hfront hback, trim_eq_self hs]

end Text
end Offside

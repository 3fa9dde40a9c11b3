/-
# White space

The characters of the Unicode property White_Space, and a text without those
at its start or its end.

Key definitions: `isBlank`, `Text.trimStart`, `Text.trimEnd`, `Text.trim`.
Key theorems: `Text.trim_eq_nil_iff`, `Text.trimEnd_append_blank`.
-/
import Offside.Text.Basic
import Offside.Text.Ranges

namespace Offside

/-- The code points of White_Space. -/
def blanks : Ranges := [
  (0x09, 0x0D), (0x20, 0x20), (0x85, 0x85), (0xA0, 0xA0), (0x1680, 0x1680), (0x2000, 0x200A),
  (0x2028, 0x2029), (0x202F, 0x202F), (0x205F, 0x205F), (0x3000, 0x3000)]

/-- Whether a character is white space. -/
def isBlank (c : Char) : Bool := blanks.has c.toNat

namespace Text

/-- The text without the white space at its start. -/
def trimStart (t : Text) : Text := t.dropWhile isBlank

/-- The text without the white space at its end. -/
def trimEnd : Text → Text
  | [] => []
  | c :: cs =>
    match trimEnd cs with
    | [] => if isBlank c then [] else [c]
    | d :: ds => c :: d :: ds

/-- The text without the white space around it. -/
def trim (t : Text) : Text := trimEnd (trimStart t)

theorem trimEnd_eq_nil_iff : ∀ t : Text, trimEnd t = [] ↔ ∀ c ∈ t, isBlank c = true
  | [] => by simp [trimEnd]
  | c :: cs => by
    have ih := trimEnd_eq_nil_iff cs
    unfold trimEnd
    cases h : trimEnd cs with
    | nil =>
      have hall := ih.1 h
      by_cases hc : isBlank c = true
      · simpa [hc] using hall
      · simp [hc]
    | cons d ds =>
      have hn : ¬ ∀ x ∈ cs, isBlank x = true := fun hall => by simp [ih.2 hall] at h
      simp only [reduceCtorEq, List.mem_cons, forall_eq_or_imp, false_iff, not_and]
      exact fun _ => hn

theorem trimStart_eq_nil_iff : ∀ t : Text, trimStart t = [] ↔ ∀ c ∈ t, isBlank c = true
  | [] => by simp [trimStart]
  | c :: cs => by
    have ih := trimStart_eq_nil_iff cs
    unfold trimStart at ih ⊢
    by_cases hc : isBlank c = true
    · simp [hc, ih]
    · simp [hc]

theorem trimStart_eq_cons : ∀ {t : Text} {c : Char} {cs : Text}, trimStart t = c :: cs →
    isBlank c = false
  | [], _, _, h => by simp [trimStart] at h
  | d :: ds, c, cs, h => by
    unfold trimStart at h
    by_cases hd : isBlank d = true
    · rw [List.dropWhile_cons_of_pos hd] at h
      exact trimStart_eq_cons (t := ds) h
    · rw [List.dropWhile_cons_of_neg hd] at h
      obtain ⟨rfl, _⟩ := List.cons.inj h
      simpa using hd

/-- **Only white space trims to nothing.** -/
theorem trim_eq_nil_iff (t : Text) : trim t = [] ↔ ∀ c ∈ t, isBlank c = true := by
  unfold trim
  rw [trimEnd_eq_nil_iff, ← trimStart_eq_nil_iff t]
  constructor
  · intro h
    cases hd : trimStart t with
    | nil => rfl
    | cons d ds =>
      have := h d (by simp [hd])
      simp [trimStart_eq_cons hd] at this
  · intro h
    simp [h]

theorem trimEnd_append_blank {c : Char} (h : isBlank c = true) :
    ∀ t : Text, trimEnd (t ++ [c]) = trimEnd t
  | [] => by simp [trimEnd, h]
  | d :: ds => by
    rw [List.cons_append]
    unfold trimEnd
    rw [trimEnd_append_blank h ds]

end Text
end Offside

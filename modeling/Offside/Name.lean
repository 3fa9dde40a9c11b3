/-
# Names

What functions, parameters and variables are called: a letter or an
underscore, then letters, numerals and underscores. The same characters
decide where a keyword ends.

Key definitions: `isNameChar`, `isName`.
Key theorem: `isName_iff`.
-/
import Offside.Text.Basic
import Offside.Text.Letter

namespace Offside

/-- Whether a character may stand inside a name. -/
def isNameChar (c : Char) : Bool := isLetter c || isNumeral c || c == '_'

/-- Whether a character may stand first in a name. -/
def isNameStart (c : Char) : Bool := isLetter c || c == '_'

/-- Whether the whole text is one name. -/
def isName : Text → Bool
  | [] => false
  | c :: cs => isNameStart c && cs.all isNameChar

theorem isNameChar_of_isNameStart {c : Char} (h : isNameStart c = true) : isNameChar c = true := by
  simp only [isNameStart, Bool.or_eq_true] at h
  rcases h with h | h <;> simp [isNameChar, h]

theorem isName_iff (t : Text) :
    isName t = true ↔ (∃ c, t.head? = some c ∧ isNameStart c = true) ∧ ∀ c ∈ t, isNameChar c = true := by
  cases t with
  | nil => simp [isName]
  | cons c cs =>
    simp only [isName, Bool.and_eq_true, List.all_eq_true, List.head?_cons, Option.some.injEq,
      exists_eq_left', List.mem_cons, forall_eq_or_imp]
    exact ⟨fun ⟨h, ht⟩ => ⟨h, isNameChar_of_isNameStart h, ht⟩, fun ⟨h, _, ht⟩ => ⟨h, ht⟩⟩

theorem not_mem_of_isName {t : Text} (h : isName t = true) {c : Char} (hc : isNameChar c = false) : c ∉ t := by
  intro hmem
  have hchar := ((isName_iff t).1 h).2 c hmem
  rw [hc] at hchar
  cases hchar

end Offside

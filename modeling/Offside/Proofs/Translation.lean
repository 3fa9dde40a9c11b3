/-
# Laws of the translation

The translation goes through a text and breaks off only between words: before a
character of no name it may be cut in two (`translateFrom_append`). Inside a
literal it copies; outside, the letters of a word are put together and
substituted.

Key theorems: `exists_word`, `translateFrom_append`, `translateFrom_name`,
`translateFrom_inside`, `translateFrom_outside`.
-/
import Mathlib.Data.List.TakeWhile
import Offside.Expression

namespace Offside

theorem substitute_nil : substitute [] = [] := by decide

theorem ne_quote_of_isNameChar {c : Char} (h : isNameChar c = true) : c ≠ '"' := by
  rintro rfl
  revert h
  decide

/-- A text starts with a word, which may be empty, and what follows does not
go on with it. -/
theorem exists_word (t : Text) : ∃ word more, t = word ++ more ∧ (∀ c ∈ word, isNameChar c = true) ∧
    ¬ more.head?.any isNameChar = true := by
  refine ⟨t.takeWhile isNameChar, t.dropWhile isNameChar, List.takeWhile_append_dropWhile.symm,
    fun c hc => List.mem_takeWhile_imp hc, ?_⟩
  have hstop := List.head?_dropWhile_not isNameChar t
  cases hmore : (t.dropWhile isNameChar).head? with
  | none => simp
  | some c =>
    rw [hmore] at hstop
    simpa using hstop

theorem word_eq_takeWhile {word more : Text} (hword : ∀ c ∈ word, isNameChar c = true)
    (hmore : ¬ more.head?.any isNameChar = true) :
    (word ++ more).takeWhile isNameChar = word ∧ (word ++ more).dropWhile isNameChar = more := by
  rw [List.takeWhile_append_of_pos hword, List.dropWhile_append_of_pos hword]
  cases more with
  | nil => simp
  | cons c cs =>
    have hc : ¬ isNameChar c = true := by simpa using hmore
    rw [List.takeWhile_cons_of_neg hc, List.dropWhile_cons_of_neg hc, List.append_nil]
    exact ⟨rfl, rfl⟩

theorem Quote.after_word (rest : Text) : ∀ {word : Text}, (∀ c ∈ word, isNameChar c = true) →
    Quote.after .outside (word ++ rest) = Quote.after .outside rest
  | [], _ => rfl
  | c :: word, h => by
    obtain ⟨hc, hmore⟩ := List.forall_mem_cons.1 h
    have hnext : Quote.next .outside c = .outside := by simp [next, ne_quote_of_isNameChar hc]
    rw [List.cons_append, after_cons, hnext]
    exact Quote.after_word rest hmore

/-! ### Steps -/

/-- The letters of a word are put together. -/
theorem translateFrom_word (rest : Text) : ∀ (word front : Text), (∀ c ∈ word, isNameChar c = true) →
    translateFrom .outside front (word ++ rest) = translateFrom .outside (front ++ word) rest
  | [], front, _ => by simp
  | c :: word, front, h => by
    obtain ⟨hc, hmore⟩ := List.forall_mem_cons.1 h
    rw [List.cons_append, translateFrom, if_pos ⟨rfl, hc⟩, translateFrom_word rest word _ hmore,
      List.append_assoc]
    rfl

theorem translateFrom_name {word : Text} (h : ∀ c ∈ word, isNameChar c = true) :
    translateFrom .outside [] word = substitute word := by
  have hword := translateFrom_word [] word [] h
  rwa [List.append_nil] at hword

theorem translateFrom_copy {q : Quote} {c : Char} (h : ¬ (q = .outside ∧ isNameChar c = true)) (word cs : Text) :
    translateFrom q word (c :: cs) = substitute word ++ c :: translateFrom (q.next c) [] cs := by
  rw [translateFrom, if_neg h]

theorem translateFrom_outside {c : Char} (h : isNameChar c = false) (word cs : Text) :
    translateFrom .outside word (c :: cs) =
      substitute word ++ c :: translateFrom (Quote.next .outside c) [] cs :=
  translateFrom_copy (fun hc => by simp [h] at hc) word cs

theorem translateFrom_inside {q : Quote} (h : q ≠ .outside) (c : Char) (cs : Text) :
    translateFrom q [] (c :: cs) = c :: translateFrom (q.next c) [] cs := by
  rw [translateFrom_copy fun hc => h hc.1, substitute_nil, List.nil_append]

/-- **Before a character of no name a text may be cut in two.** -/
theorem translateFrom_append {t : Text} (ht : ¬ t.head?.any isNameChar = true) : ∀ (q : Quote) (word s : Text),
    translateFrom q word (s ++ t) = translateFrom q word s ++ translateFrom (q.after s) [] t
  | q, word, [] => by
    have hend : translateFrom q word [] = substitute word := rfl
    have hafter : q.after [] = q := rfl
    cases t with
    | nil => simp [translateFrom, substitute_nil]
    | cons c cs =>
      have hc : ¬ (q = .outside ∧ isNameChar c = true) := fun h => ht (by simp [h.2])
      rw [List.nil_append, hend, hafter, translateFrom_copy hc, translateFrom_copy hc, substitute_nil,
        List.nil_append]
  | q, word, c :: s => by
    rw [List.cons_append, Quote.after_cons]
    by_cases hc : q = .outside ∧ isNameChar c = true
    · have hnext : q.next c = q := by simp [hc.1, Quote.next, ne_quote_of_isNameChar hc.2]
      rw [translateFrom, if_pos hc, translateFrom, if_pos hc, translateFrom_append ht, hnext]
    · rw [translateFrom_copy hc, translateFrom_copy hc, translateFrom_append ht, List.append_assoc,
        List.cons_append]

end Offside

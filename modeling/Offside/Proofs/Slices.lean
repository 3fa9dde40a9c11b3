/-
# Slices of a text

A slice is cut out between two places of a text. Places are counted in
characters, or in the bytes of the UTF-8 form. A slice that ends before it
starts or after the text is none, and neither is one that starts or ends inside
a character.

Key definitions: `Text.slice?`, `Text.takeBytes?`, `Text.sliceBytes?`,
`Text.firstAt?`, `Text.lastAt?`.
Key theorems: `Text.slice?_eq_some_iff`, `Text.sliceBytes?_eq_some_iff`,
`Text.firstAt?_eq`, `Text.lastAt?_eq`.
-/
import Offside.Text.Basic

namespace Offside
namespace Text

/-- The characters from the place `start` to the place `stop`. -/
def slice? (start stop : Nat) (t : Text) : Option Text :=
  if start ≤ stop ∧ stop ≤ t.length then some ((t.take stop).drop start) else none

/-- The first `n` bytes of a text, if these are whole characters of it. -/
def takeBytes? : Nat → Text → Option Text
  | 0, _ => some []
  | _ + 1, [] => none
  | n + 1, c :: cs =>
    if c.utf8Size ≤ n + 1 then (takeBytes? (n + 1 - c.utf8Size) cs).map (c :: ·) else none

/-- The bytes from the place `start` to the place `stop`, if these are whole
characters. -/
def sliceBytes? (start stop : Nat) (t : Text) : Option Text :=
  (takeBytes? stop t).bind (dropBytes? start)

/-- The place, in bytes, of the first occurrence of `mark`. -/
def firstAt? (mark : Char) : Text → Option Nat
  | [] => none
  | c :: cs => if c = mark then some 0 else (firstAt? mark cs).map (c.utf8Size + ·)

/-- The place, in bytes, of the last occurrence of `mark`. -/
def lastAt? (mark : Char) : Text → Option Nat
  | [] => none
  | c :: cs =>
    match lastAt? mark cs with
    | some n => some (c.utf8Size + n)
    | none => if c = mark then some 0 else none

/-! ### What slices there are -/

/-- **A slice lies within its text.** -/
theorem slice?_eq_some_iff {i j : Nat} {t s : Text} :
    slice? i j t = some s ↔ ∃ a b, t = a ++ s ++ b ∧ a.length = i ∧ a.length + s.length = j := by
  unfold slice?
  constructor
  · intro h
    obtain ⟨⟨hij, hj⟩, rfl⟩ := Option.ite_none_right_eq_some.1 h |>.imp id Option.some.inj
    refine ⟨t.take i, t.drop j, ?_, ?_, ?_⟩
    · have htake : t.take i = (t.take j).take i := by rw [List.take_take, Nat.min_eq_left hij]
      rw [htake, List.take_append_drop, List.take_append_drop]
    · rw [List.length_take, Nat.min_eq_left (Nat.le_trans hij hj)]
    · rw [List.length_take, List.length_drop, List.length_take]
      omega
  · rintro ⟨a, b, rfl, rfl, rfl⟩
    have hlength : a.length + s.length = (a ++ s).length := List.length_append.symm
    rw [if_pos (by simp), hlength, List.take_left, List.drop_left]

theorem utf8Length_append : ∀ s t : Text, utf8Length (s ++ t) = utf8Length s + utf8Length t
  | [], t => by simp [utf8Length]
  | c :: cs, t => by
    rw [List.cons_append, utf8Length, utf8Length, utf8Length_append cs t, Nat.add_assoc]

theorem utf8Length_eq_zero_iff : ∀ {s : Text}, utf8Length s = 0 ↔ s = []
  | [] => by simp [utf8Length]
  | c :: cs => by
    have hc := c.utf8Size_pos
    simp only [utf8Length, reduceCtorEq, iff_false]
    omega

/-- The first bytes of a text are whole characters exactly when they are a
prefix of it. -/
theorem takeBytes?_eq_some_iff : ∀ {n : Nat} {t s : Text},
    takeBytes? n t = some s ↔ ∃ r, t = s ++ r ∧ utf8Length s = n
  | 0, t, s => by
    rw [takeBytes?, Option.some.injEq]
    constructor
    · rintro rfl
      exact ⟨t, rfl, rfl⟩
    · rintro ⟨r, -, hs⟩
      exact (utf8Length_eq_zero_iff.1 hs).symm
  | n + 1, [], s => by
    simp only [takeBytes?, reduceCtorEq, false_iff, not_exists, not_and]
    intro r hr hs
    rw [(List.append_eq_nil_iff.1 hr.symm).1] at hs
    cases hs
  | n + 1, c :: cs, s => by
    rw [takeBytes?, Option.ite_none_right_eq_some, Option.map_eq_some_iff]
    constructor
    · rintro ⟨hc, s', hs', rfl⟩
      obtain ⟨r, rfl, hlength⟩ := takeBytes?_eq_some_iff.1 hs'
      refine ⟨r, rfl, ?_⟩
      rw [utf8Length, hlength]
      omega
    · rintro ⟨r, hr, hs⟩
      cases s with
      | nil => cases hs
      | cons d ds =>
        obtain ⟨rfl, rfl⟩ := List.cons.inj hr
        rw [utf8Length] at hs
        have htail : utf8Length ds = n + 1 - c.utf8Size := by omega
        exact ⟨by omega, ds, takeBytes?_eq_some_iff.2 ⟨r, rfl, htail⟩, rfl⟩

theorem exists_of_dropBytes : ∀ {n : Nat} {t r : Text}, dropBytes? n t = some r →
    ∃ s, t = s ++ r ∧ utf8Length s = n
  | 0, t, r, h => by
    rw [dropBytes?, Option.some.injEq] at h
    exact ⟨[], h, rfl⟩
  | n + 1, [], r, h => by cases h
  | n + 1, c :: cs, r, h => by
    rw [dropBytes?, Option.ite_none_right_eq_some] at h
    obtain ⟨hc, hr⟩ := h
    obtain ⟨s, rfl, hlength⟩ := exists_of_dropBytes hr
    refine ⟨c :: s, rfl, ?_⟩
    rw [utf8Length, hlength]
    omega

theorem dropBytes?_eq_some_iff {n : Nat} {t r : Text} :
    dropBytes? n t = some r ↔ ∃ s, t = s ++ r ∧ utf8Length s = n := by
  constructor
  · exact exists_of_dropBytes
  · rintro ⟨s, rfl, rfl⟩
    exact dropBytes?_append s r

/-- **A slice by bytes lies within its text, and starts and ends between
characters.** -/
theorem sliceBytes?_eq_some_iff {i j : Nat} {t s : Text} : sliceBytes? i j t = some s ↔
    ∃ a b, t = a ++ s ++ b ∧ utf8Length a = i ∧ utf8Length a + utf8Length s = j := by
  unfold sliceBytes?
  rw [Option.bind_eq_some_iff]
  constructor
  · rintro ⟨front, hfront, hs⟩
    obtain ⟨b, rfl, hj⟩ := takeBytes?_eq_some_iff.1 hfront
    obtain ⟨a, rfl, hi⟩ := dropBytes?_eq_some_iff.1 hs
    exact ⟨a, b, rfl, hi, by rw [← utf8Length_append, hj]⟩
  · rintro ⟨a, b, rfl, hi, hj⟩
    rw [← utf8Length_append] at hj
    exact ⟨a ++ s, takeBytes?_eq_some_iff.2 ⟨b, rfl, hj⟩, dropBytes?_eq_some_iff.2 ⟨a, rfl, hi⟩⟩

/-! ### Where marks are -/

theorem firstAt?_eq (mark : Char) : ∀ t : Text,
    firstAt? mark t = (cut? [mark] t).map fun p => utf8Length p.1
  | [] => rfl
  | c :: cs => by
    have hprefix : List.isPrefixOf? [mark] (c :: cs) = if mark == c then some cs else none := rfl
    rw [firstAt?, cut?, hprefix, firstAt?_eq mark cs]
    by_cases hc : c = mark
    · simp [hc, utf8Length]
    · have hne : (mark == c) = false := by simpa using fun h => hc h.symm
      simp [hc, hne, utf8Length, Function.comp_def]

/-- From the place of its first mark on, a text is what follows the characters
that are none. -/
theorem dropBytes?_firstAt (mark : Char) : ∀ t : Text,
    (firstAt? mark t).elim (some []) (dropBytes? · t) = some (t.dropWhile (· ≠ mark))
  | [] => rfl
  | c :: cs => by
    have ih := dropBytes?_firstAt mark cs
    rw [firstAt?]
    by_cases hc : c = mark
    · simp [hc, dropBytes?]
    · rw [if_neg hc, List.dropWhile_cons_of_pos (by simpa using hc)]
      cases hm : firstAt? mark cs with
      | none =>
        rw [hm] at ih
        exact ih
      | some n =>
        rw [hm, Option.elim_some] at ih
        obtain ⟨s, hs, hn⟩ := dropBytes?_eq_some_iff.1 ih
        rw [Option.map_some, Option.elim_some]
        refine dropBytes?_eq_some_iff.2 ⟨c :: s, ?_, ?_⟩
        · rw [List.cons_append, ← hs]
        · rw [utf8Length, hn]

theorem lastAt?_eq (mark : Char) : ∀ t : Text,
    lastAt? mark t = (cutLast? mark t).map fun p => utf8Length p.1
  | [] => rfl
  | c :: cs => by
    rw [lastAt?, cutLast?, lastAt?_eq mark cs]
    cases cutLast? mark cs with
    | some p => rfl
    | none =>
      by_cases hc : c = mark
      · simp [hc, utf8Length]
      · simp [hc]

theorem lt_of_lastAt {mark : Char} {t : Text} {n : Nat} (h : lastAt? mark t = some n) :
    n < utf8Length t := by
  rw [lastAt?_eq] at h
  obtain ⟨⟨before, after⟩, hcut, rfl⟩ := Option.map_eq_some_iff.1 h
  have hm := mark.utf8Size_pos
  rw [(eq_of_cutLast mark hcut).1, utf8Length_append, utf8Length]
  show utf8Length before < utf8Length before + (mark.utf8Size + utf8Length after)
  omega

theorem lastAt?_append (mark : Char) : ∀ s t : Text,
    lastAt? mark (s ++ t) = ((lastAt? mark t).map (utf8Length s + ·)).or (lastAt? mark s)
  | [], t => by cases h : lastAt? mark t <;> simp [lastAt?, utf8Length, h]
  | c :: cs, t => by
    rw [List.cons_append, lastAt?, lastAt?_append mark cs t]
    cases lastAt? mark t with
    | some n => simp [utf8Length, Nat.add_assoc]
    | none => simp [lastAt?]

end Text
end Offside

/-
# Texts

A text is a list of characters, so that every reader in this library is a
recursion over its characters. This module holds what the readers share: the
pieces of a text between separators, the two sides of a mark, a text without
its first bytes or its last character, and the decimal digits of a number.

Key definitions: `Text`, `Text.pieces`, `Text.cut?`, `Text.cutLast?`,
`Text.dropEnd?`, `Text.firstLine`, `Text.dropBytes?`, `Text.decimal`.
Key theorems: `Text.not_mem_of_mem_pieces`, `Text.pieces_flatMap`,
`Text.flatMap_pieces`, `Text.eq_of_cut`, `Text.cut?_append_of_not_mem`, `Text.cut?_append`,
`Text.eq_of_cutLast`, `Text.cutLast?_append`, `Text.dropEnd?_eq_some_iff`, `Text.dropBytes?_append`.
-/

namespace Offside

/-- A text, read and written character by character. -/
abbrev Text := List Char

instance : Coe String Text := ⟨String.toList⟩

namespace Text

/-- The decimal digits of a number. -/
def decimal (n : Nat) : Text := Nat.toDigits 10 n

/-- The pieces between the occurrences of `mark`. A text without the mark is
one piece. -/
def pieces (mark : Char) : Text → List Text
  | [] => [[]]
  | c :: cs =>
    if c = mark then [] :: pieces mark cs
    else
      match pieces mark cs with
      | [] => [[c]]
      | piece :: more => (c :: piece) :: more

/-- The texts before and after the first occurrence of `mark`, which is not
empty. -/
def cut? (mark : Text) : Text → Option (Text × Text)
  | [] => none
  | c :: cs =>
    match mark.isPrefixOf? (c :: cs) with
    | some rest => some ([], rest)
    | none => (cut? mark cs).map fun (before, after) => (c :: before, after)

/-- The texts before and after the last occurrence of `mark`. -/
def cutLast? (mark : Char) : Text → Option (Text × Text)
  | [] => none
  | c :: cs =>
    match cutLast? mark cs with
    | some (before, after) => some (c :: before, after)
    | none => if c = mark then some ([], cs) else none

/-- The text without its last character, if that is `mark`. -/
def dropEnd? (mark : Char) : Text → Option Text
  | [] => none
  | [c] => if c = mark then some [] else none
  | c :: cs => (dropEnd? mark cs).map (c :: ·)

/-- The first line of a text that a line feed follows. A carriage return just
before the line feed belongs to the end of the line. -/
def firstLine (t : Text) : Text :=
  let line := t.takeWhile (· ≠ '\n')
  (dropEnd? '\r' line).getD line

/-- The text without the first `n` bytes of its UTF-8 form, if these are whole
characters of it. -/
def dropBytes? : Nat → Text → Option Text
  | 0, t => some t
  | _ + 1, [] => none
  | n + 1, c :: cs => if c.utf8Size ≤ n + 1 then dropBytes? (n + 1 - c.utf8Size) cs else none

theorem pieces_ne_nil (mark : Char) : ∀ t : Text, pieces mark t ≠ []
  | [] => by simp [pieces]
  | c :: cs => by
    unfold pieces
    split
    · simp
    · split <;> simp

theorem not_mem_of_mem_pieces (mark : Char) : ∀ {t p : Text}, p ∈ pieces mark t → mark ∉ p
  | [], p, h => by
    simp only [pieces, List.mem_singleton] at h
    simp [h]
  | c :: cs, p, h => by
    unfold pieces at h
    have ih := fun {q : Text} (hq : q ∈ pieces mark cs) => not_mem_of_mem_pieces mark hq
    by_cases hc : c = mark
    · rw [if_pos hc] at h
      rcases List.mem_cons.1 h with rfl | h
      · simp
      · exact ih h
    · rw [if_neg hc] at h
      cases hp : pieces mark cs with
      | nil => exact absurd hp (pieces_ne_nil mark cs)
      | cons q more =>
        rw [hp] at h ih
        rcases List.mem_cons.1 h with rfl | h
        · have := ih (q := q) (by simp)
          simp only [List.mem_cons, not_or]
          exact ⟨fun h => hc h.symm, this⟩
        · exact ih (List.mem_cons_of_mem _ h)

/-- The pieces of a text that holds the mark are those on its two sides. -/
theorem pieces_append (mark : Char) (after : Text) : ∀ before : Text,
    pieces mark (before ++ mark :: after) = pieces mark before ++ pieces mark after
  | [] => by simp [pieces]
  | c :: cs => by
    have ih := pieces_append mark after cs
    rw [List.cons_append, pieces, pieces, ih]
    by_cases hc : c = mark
    · rw [if_pos hc, if_pos hc, List.cons_append]
    · rw [if_neg hc, if_neg hc]
      cases hp : pieces mark cs with
      | nil => exact absurd hp (pieces_ne_nil mark cs)
      | cons p more => rfl

theorem pieces_of_not_mem {mark : Char} : ∀ {t : Text}, mark ∉ t → pieces mark t = [t]
  | [], _ => rfl
  | c :: cs, h => by
    rw [List.mem_cons, not_or] at h
    rw [pieces, if_neg (Ne.symm h.1), pieces_of_not_mem h.2]

/-- **Texts that the mark ends are the pieces of what they make up**, and after
them comes an empty one. -/
theorem pieces_flatMap {mark : Char} : ∀ {ts : List Text}, (∀ t ∈ ts, mark ∉ t) →
    pieces mark (ts.flatMap (· ++ [mark])) = ts ++ [[]]
  | [], _ => rfl
  | t :: ts, h => by
    obtain ⟨ht, hts⟩ := List.forall_mem_cons.1 h
    rw [List.flatMap_cons, List.append_assoc, List.singleton_append, pieces_append, pieces_of_not_mem ht,
      pieces_flatMap hts]
    rfl

theorem pieces_intercalate {mark : Char} : ∀ {ts : List Text}, ts ≠ [] → (∀ t ∈ ts, mark ∉ t) →
    pieces mark (List.intercalate [mark] ts) = ts
  | [], h, _ => absurd rfl h
  | [t], _, h => by
    rw [List.intercalate_singleton, pieces_of_not_mem (h t (List.mem_cons_self ..))]
  | t :: u :: ts, _, h => by
    obtain ⟨ht, hts⟩ := List.forall_mem_cons.1 h
    rw [List.intercalate_cons_cons, List.append_assoc, List.singleton_append, pieces_append,
      pieces_of_not_mem ht, pieces_intercalate (List.cons_ne_nil _ _) hts, List.singleton_append]

/-- A text is what its pieces make up. -/
theorem flatMap_pieces (mark : Char) : ∀ t : Text, (pieces mark t).flatMap (· ++ [mark]) = t ++ [mark]
  | [] => rfl
  | c :: cs => by
    have ih := flatMap_pieces mark cs
    rw [pieces]
    by_cases hc : c = mark
    · rw [if_pos hc, List.flatMap_cons, ih, hc]
      rfl
    · rw [if_neg hc]
      cases hp : pieces mark cs with
      | nil => exact absurd hp (pieces_ne_nil mark cs)
      | cons p more =>
        rw [hp] at ih
        simpa using ih

theorem mem_of_mem_intercalate {sep : Text} {c : Char} : ∀ {ts : List Text},
    c ∈ List.intercalate sep ts → c ∈ sep ∨ ∃ t ∈ ts, c ∈ t
  | [], h => by simp [List.intercalate] at h
  | [t], h => .inr ⟨t, List.mem_singleton_self t, by simpa [List.intercalate] using h⟩
  | t :: u :: ts, h => by
    rw [List.intercalate_cons_cons, List.append_assoc, List.mem_append, List.mem_append] at h
    rcases h with h | h | h
    · exact .inr ⟨t, List.mem_cons_self .., h⟩
    · exact .inl h
    · exact (mem_of_mem_intercalate h).imp_right fun ⟨s, hs, hc⟩ => ⟨s, List.mem_cons_of_mem t hs, hc⟩

theorem eq_of_isPrefixOf : ∀ {s t rest : Text}, s.isPrefixOf? t = some rest → t = s ++ rest
  | [], _, _, h => Option.some.inj h
  | _ :: _, [], _, h => nomatch h
  | c :: cs, d :: ds, rest, h => by
    change (if c == d then cs.isPrefixOf? ds else none) = some rest at h
    by_cases hcd : (c == d) = true
    · rw [if_pos hcd] at h
      rw [eq_of_isPrefixOf h, eq_of_beq hcd]
      rfl
    · rw [if_neg hcd] at h
      cases h

/-- **A cut loses nothing but the mark.** -/
theorem eq_of_cut (mark : Text) : ∀ {t before after : Text}, cut? mark t = some (before, after) →
    t = before ++ mark ++ after
  | [], _, _, h => by simp [cut?] at h
  | c :: cs, before, after, h => by
    unfold cut? at h
    split at h
    · next rest hrest =>
      simp only [Option.some.injEq, Prod.mk.injEq] at h
      obtain ⟨rfl, rfl⟩ := h
      exact eq_of_isPrefixOf hrest
    · simp only [Option.map_eq_some_iff, Prod.exists, Prod.mk.injEq] at h
      obtain ⟨b, a, hba, rfl, rfl⟩ := h
      rw [eq_of_cut mark hba]
      simp

theorem isPrefixOf?_append : ∀ s t : Text, s.isPrefixOf? (s ++ t) = some t
  | [], _ => rfl
  | c :: s, t => by
    change (if c == c then s.isPrefixOf? (s ++ t) else none) = some t
    rw [if_pos (beq_self_eq_true c), isPrefixOf?_append s t]

/-- A mark is looked for behind characters with which it does not start. -/
theorem cut?_append_of_not_mem {c : Char} (mark t : Text) : ∀ {before : Text}, c ∉ before →
    cut? (c :: mark) (before ++ t) = (cut? (c :: mark) t).map (Prod.map (before ++ ·) id)
  | [], _ => by
    rw [List.nil_append]
    cases cut? (c :: mark) t <;> rfl
  | d :: before, h => by
    rw [List.mem_cons, not_or] at h
    have hne : (c == d) = false := beq_eq_false_iff_ne.2 h.1
    have hprefix : (c :: mark).isPrefixOf? (d :: (before ++ t)) = none := by
      change (if c == d then _ else none) = none
      rw [hne]
      rfl
    rw [List.cons_append, cut?, hprefix, cut?_append_of_not_mem mark t h.2]
    cases cut? (c :: mark) t <;> rfl

theorem cut?_self_append {c : Char} (mark after : Text) :
    cut? (c :: mark) (c :: mark ++ after) = some ([], after) := by
  have hprefix := isPrefixOf?_append (c :: mark) after
  rw [List.cons_append] at hprefix ⊢
  rw [cut?, hprefix]

/-- A mark is found where it first starts, in particular if its first character
is nowhere before it. -/
theorem cut?_append {c : Char} (mark after : Text) {before : Text} (h : c ∉ before) :
    cut? (c :: mark) (before ++ c :: mark ++ after) = some (before, after) := by
  rw [List.append_assoc, cut?_append_of_not_mem mark _ h, cut?_self_append]
  simp

theorem not_mem_of_cutLast (mark : Char) : ∀ {t : Text}, cutLast? mark t = none → mark ∉ t
  | [], _ => by simp
  | c :: cs, h => by
    unfold cutLast? at h
    cases hcs : cutLast? mark cs with
    | some q => simp [hcs] at h
    | none =>
      rw [hcs] at h
      have hc : c ≠ mark := fun hc => by simp [hc] at h
      simp only [List.mem_cons, not_or]
      exact ⟨fun h => hc h.symm, not_mem_of_cutLast mark hcs⟩

/-- **A cut at the last mark loses nothing but the mark, and leaves none behind it.** -/
theorem eq_of_cutLast (mark : Char) : ∀ {t before after : Text},
    cutLast? mark t = some (before, after) → t = before ++ mark :: after ∧ mark ∉ after
  | [], _, _, h => by simp [cutLast?] at h
  | c :: cs, before, after, h => by
    unfold cutLast? at h
    cases hcs : cutLast? mark cs with
    | some q =>
      obtain ⟨b, a⟩ := q
      rw [hcs] at h
      simp only [Option.some.injEq, Prod.mk.injEq] at h
      obtain ⟨rfl, rfl⟩ := h
      obtain ⟨rfl, hm⟩ := eq_of_cutLast mark hcs
      exact ⟨rfl, hm⟩
    | none =>
      rw [hcs] at h
      simp only [Option.ite_none_right_eq_some, Option.some.injEq, Prod.mk.injEq] at h
      obtain ⟨rfl, rfl, rfl⟩ := h
      exact ⟨rfl, not_mem_of_cutLast c hcs⟩

theorem cutLast?_append {mark : Char} {after : Text} (h : mark ∉ after) : ∀ before : Text,
    cutLast? mark (before ++ mark :: after) = some (before, after)
  | [] => by
    have hnone : cutLast? mark after = none := by
      cases hcut : cutLast? mark after with
      | none => rfl
      | some p =>
        obtain ⟨front, back⟩ := p
        rw [(eq_of_cutLast mark hcut).1] at h
        exact absurd (by simp) h
    rw [List.nil_append, cutLast?, hnone]
    exact if_pos rfl
  | c :: cs => by rw [List.cons_append, cutLast?, cutLast?_append h cs]

/-- **Only a text that ends in the mark can lose it.** -/
theorem dropEnd?_eq_some_iff (mark : Char) : ∀ {t s : Text}, dropEnd? mark t = some s ↔ t = s ++ [mark]
  | [], s => by simp [dropEnd?]
  | [c], s => by
    unfold dropEnd?
    cases s with
    | nil => by_cases hc : c = mark <;> simp [hc]
    | cons d ds => by_cases hc : c = mark <;> simp [hc]
  | c :: d :: ds, s => by
    unfold dropEnd?
    cases s with
    | nil => simp
    | cons e es =>
      rw [Option.map_eq_some_iff]
      constructor
      · rintro ⟨r, hr, he⟩
        obtain ⟨rfl, rfl⟩ := List.cons.inj he
        rw [(dropEnd?_eq_some_iff mark).1 hr]
        rfl
      · intro h
        rw [List.cons_append, List.cons.injEq] at h
        obtain ⟨rfl, h⟩ := h
        exact ⟨es, (dropEnd?_eq_some_iff mark).2 h, rfl⟩

/-- How many bytes a text has. -/
def utf8Length : Text → Nat
  | [] => 0
  | c :: cs => c.utf8Size + utf8Length cs

theorem dropBytes?_append : ∀ s t : Text, dropBytes? s.utf8Length (s ++ t) = some t
  | [], t => by simp [utf8Length, dropBytes?]
  | c :: cs, t => by
    have hc := c.utf8Size_pos
    obtain ⟨n, hn⟩ : ∃ n, c.utf8Size + utf8Length cs = n + 1 :=
      ⟨c.utf8Size + utf8Length cs - 1, by omega⟩
    rw [utf8Length, hn, List.cons_append, dropBytes?, if_pos (by omega)]
    rw [show n + 1 - c.utf8Size = utf8Length cs by omega]
    exact dropBytes?_append cs t

end Text
end Offside

/-
# Words found at places

A translation may also go place by place: it keeps whether it is in a literal,
copies an escaped character together with its backslash, and looks at every
start of a word whether one of the words to substitute stands there. Such a
translation yields nothing at all if it looks at a place outside the text, or
if a word leaves it where it is, so that it would never end. It yields what the
translation word by word yields, so neither happens.

Key definitions: `keywordAt?`, `replacementAt?`, `translateBySlices?`.
Key theorems: `replacementAt?_eq`, `translateFromSlices?_word`,
`translateBySlices?_eq`.
-/
import Offside.Proofs.Slices
import Offside.Proofs.Translation

namespace Offside

/-- Whether the word `keyword` stands at the place `start` and ends there. -/
def keywordAt? (chars : Text) (start : Nat) (keyword : Text) : Option Bool :=
  let stop := start + keyword.utf8Length
  if chars.length < stop then some false
  else (Text.slice? start stop chars).map fun word =>
    word == keyword && !(chars[stop]?).any isNameChar

/-- The first of the words that stands at the place `i`, and what it is
replaced by. -/
def replacementAt? (chars : Text) (i : Nat) : List (Text × Text) → Option (Option (Text × Text))
  | [] => some none
  | (keyword, replacement) :: more => do
    if ← keywordAt? chars i keyword then return some (keyword, replacement)
    else replacementAt? chars i more

/-- The word to substitute at the place `i`, if one starts there outside the
literals. -/
def foundAt? (chars : Text) (i : Nat) (inString : Bool) : Option (Option (Text × Text)) := do
  let wordStart ← if i = 0 then some true else (chars[i - 1]?).map fun p => !isNameChar p
  if !inString && wordStart then replacementAt? chars i substitutions else some none

/-- The translation of the characters from the place `i` on, after the
translation `out` of those before it. After an empty word it would stay where it
is, so it yields nothing. -/
def translateFromSlices? (chars : Text) (i : Nat) (inString : Bool) (out : Text) : Option (Option Text) :=
  if i < chars.length then do
    let c ← chars[i]?
    if inString && c == '\\' then
      translateFromSlices? chars (i + 2) inString (out ++ c :: (chars[i + 1]?).toList)
    else if c = '"' then translateFromSlices? chars (i + 1) (!inString) (out ++ [c])
    else
      match ← foundAt? chars i inString with
      | some (keyword, replacement) =>
        if 0 < keyword.utf8Length then
          translateFromSlices? chars (i + keyword.utf8Length) inString (out ++ replacement)
        else none
      | none => translateFromSlices? chars (i + 1) inString (out ++ [c])
  else some (if inString then none else some out)
termination_by chars.length - i

/-- The translation of an expression, place by place. -/
def translateBySlices? (expression : Text) : Option (Option Text) :=
  translateFromSlices? expression 0 false []

/-! ### Keywords -/

/-- A word that can stand in a text by itself, of one byte a character. -/
def IsKeyword (w : Text) : Prop := w ≠ [] ∧ w.all isNameChar = true ∧ w.utf8Length = w.length

theorem isKeyword_of_mem_substitutions : ∀ e ∈ substitutions, IsKeyword e.1 := by
  unfold IsKeyword
  decide

/-- A keyword that a text starts with, and that ends there, is the first word
of the text. -/
theorem eq_of_take {word rest keyword : Text} (hword : ∀ c ∈ word, isNameChar c = true)
    (hrest : ¬ rest.head?.any isNameChar = true) (hk : ∀ c ∈ keyword, isNameChar c = true)
    (hlong : keyword.length ≤ (word ++ rest).length) :
    (word ++ rest).take keyword.length = keyword ∧
        ¬ (word ++ rest)[keyword.length]?.any isNameChar = true ↔ word = keyword := by
  constructor
  · rintro ⟨htake, hend⟩
    rcases Nat.lt_trichotomy keyword.length word.length with hlt | heq | hgt
    · -- the word goes on after the keyword
      rw [List.getElem?_append_left hlt, List.getElem?_eq_getElem hlt] at hend
      exact absurd (hword _ (List.getElem_mem hlt)) hend
    · rw [heq, List.take_left] at htake
      exact htake
    · -- the keyword goes on after the word
      cases rest with
      | nil =>
        rw [List.append_nil] at hlong
        omega
      | cons c cs =>
        refine absurd (hk c ?_) hrest
        obtain ⟨j, hj⟩ : ∃ j, keyword.length - word.length = j + 1 :=
          ⟨keyword.length - word.length - 1, by omega⟩
        rw [← htake, List.take_append, hj, List.take_succ_cons]
        simp
  · rintro rfl
    rw [List.take_left, List.getElem?_append_right (Nat.le_refl _), Nat.sub_self, ← List.head?_eq_getElem?]
    exact ⟨rfl, hrest⟩

/-- **The word at a place is a keyword exactly when the keyword stands there.** -/
theorem keywordAt?_eq {before word rest keyword : Text} (hword : ∀ c ∈ word, isNameChar c = true)
    (hrest : ¬ rest.head?.any isNameChar = true) (hk : IsKeyword keyword) :
    keywordAt? (before ++ (word ++ rest)) before.length keyword = some (word == keyword) := by
  obtain ⟨-, hname, hbytes⟩ := hk
  unfold keywordAt?
  rw [hbytes, List.length_append]
  by_cases hlong : keyword.length ≤ (word ++ rest).length
  · have hslice : Text.slice? before.length (before.length + keyword.length) (before ++ (word ++ rest)) =
        some ((word ++ rest).take keyword.length) := by
      refine Text.slice?_eq_some_iff.2 ⟨before, (word ++ rest).drop keyword.length, ?_, rfl, ?_⟩
      · rw [List.append_assoc, List.take_append_drop]
      · rw [List.length_take, Nat.min_eq_left hlong]
    have hiff := eq_of_take hword hrest (List.all_eq_true.1 hname) hlong
    have hshort : ¬ before.length + (word ++ rest).length < before.length + keyword.length := by omega
    rw [if_neg hshort, hslice, Option.map_some, List.getElem?_append_right (Nat.le_add_right _ _),
      Nat.add_sub_cancel_left, Option.some.injEq, Bool.eq_iff_iff, beq_iff_eq, ← hiff]
    simp
  · have hne : word ≠ keyword := by
      rintro rfl
      simp at hlong
    have hover : before.length + (word ++ rest).length < before.length + keyword.length := by omega
    rw [if_pos hover]
    simp [hne]

theorem replacementAt?_eq {before word rest : Text} (hword : ∀ c ∈ word, isNameChar c = true)
    (hrest : ¬ rest.head?.any isNameChar = true) : ∀ {entries : List (Text × Text)},
    (∀ e ∈ entries, IsKeyword e.1) →
    replacementAt? (before ++ (word ++ rest)) before.length entries =
      some ((entries.lookup word).map fun r => (word, r))
  | [], _ => rfl
  | (keyword, replacement) :: more, h => by
    have hmore : replacementAt? (before ++ (word ++ rest)) before.length more =
        some ((more.lookup word).map fun r => (word, r)) :=
      replacementAt?_eq hword hrest fun e he => h e (List.mem_cons_of_mem _ he)
    rw [replacementAt?, keywordAt?_eq hword hrest (h _ (List.mem_cons_self ..)), hmore, List.lookup_cons]
    by_cases hw : word = keyword
    · simp [hw]
    · have hne : (word == keyword) = false := by simpa using hw
      simp [hne]

/-! ### Steps from place to place -/

theorem foundAt?_eq (before rest : Text) (inString : Bool) :
    foundAt? (before ++ rest) before.length inString =
      if !inString && !before.getLast?.any isNameChar then
        replacementAt? (before ++ rest) before.length substitutions
      else some none := by
  unfold foundAt?
  rcases List.eq_nil_or_concat before with rfl | ⟨front, p, rfl⟩
  · rfl
  · simp

theorem translateFromSlices?_nil (before : Text) (inString : Bool) (out : Text) :
    translateFromSlices? before before.length inString out =
      some (if inString then none else some out) := by
  rw [translateFromSlices?, if_neg (Nat.lt_irrefl _)]

theorem translateFromSlices?_cons (before cs : Text) (c : Char) (inString : Bool) (out : Text) :
    translateFromSlices? (before ++ c :: cs) before.length inString out =
      if inString && c == '\\' then
        translateFromSlices? (before ++ c :: cs) (before.length + 2) inString (out ++ c :: cs.head?.toList)
      else if c = '"' then
        translateFromSlices? (before ++ c :: cs) (before.length + 1) (!inString) (out ++ [c])
      else
        (foundAt? (before ++ c :: cs) before.length inString).bind fun
          | some (keyword, replacement) =>
            if 0 < keyword.utf8Length then
              translateFromSlices? (before ++ c :: cs) (before.length + keyword.utf8Length) inString
                (out ++ replacement)
            else none
          | none => translateFromSlices? (before ++ c :: cs) (before.length + 1) inString (out ++ [c]) := by
  have hlt : before.length < (before ++ c :: cs).length := by simp
  have hat : (before ++ c :: cs)[before.length]? = some c := by simp
  have hafter : (before ++ c :: cs)[before.length + 1]? = cs.head? := by
    simp [List.getElem?_append_right, List.head?_eq_getElem?]
  rw [translateFromSlices?, if_pos hlt, hat, hafter]
  rfl

theorem translateFromSlices?_copy (rest : Text) : ∀ (word before out : Text),
    before.getLast?.any isNameChar = true → (∀ c ∈ word, isNameChar c = true) →
    translateFromSlices? (before ++ (word ++ rest)) before.length false out =
      translateFromSlices? (before ++ (word ++ rest)) (before ++ word).length false (out ++ word)
  | [], before, out, _, _ => by simp
  | c :: word, before, out, hlast, hword => by
    obtain ⟨hc, hmore⟩ := List.forall_mem_cons.1 hword
    have hfound := foundAt?_eq before (c :: (word ++ rest)) false
    have ih := translateFromSlices?_copy rest word (before ++ [c]) (out ++ [c]) (by simpa using hc) hmore
    rw [List.cons_append, translateFromSlices?_cons, hfound, hlast]
    simpa [ne_quote_of_isNameChar hc] using ih

/-- **A whole word is substituted.** -/
theorem translateFromSlices?_word {word before rest : Text} (hword : ∀ c ∈ word, isNameChar c = true)
    (hrest : ¬ rest.head?.any isNameChar = true)
    (hstart : word ≠ [] → ¬ before.getLast?.any isNameChar = true) (out : Text) :
    translateFromSlices? (before ++ (word ++ rest)) before.length false out =
      translateFromSlices? (before ++ (word ++ rest)) (before ++ word).length false
        (out ++ substitute word) := by
  cases word with
  | nil => simp [substitute_nil]
  | cons c word =>
    obtain ⟨hc, hmore⟩ := List.forall_mem_cons.1 hword
    have hfound : foundAt? (before ++ (c :: word ++ rest)) before.length false =
        some ((substitutions.lookup (c :: word)).map fun r => (c :: word, r)) := by
      rw [foundAt?_eq, replacementAt?_eq hword hrest isKeyword_of_mem_substitutions]
      simp [hstart (List.cons_ne_nil c word)]
    have hstep := translateFromSlices?_cons before (word ++ rest) c false out
    rw [← List.cons_append, hfound, Option.bind_some, Bool.false_and, if_neg Bool.false_ne_true,
      if_neg (ne_quote_of_isNameChar hc)] at hstep
    rw [hstep, substitute]
    cases hlookup : substitutions.lookup (c :: word) with
    | some replacement =>
      obtain ⟨front, back, hsplit, -⟩ := List.lookup_eq_some_iff.1 hlookup
      have hmem : (c :: word, replacement) ∈ substitutions := by simp [hsplit]
      have hbytes := (isKeyword_of_mem_substitutions _ hmem).2.2
      have hpos : 0 < (c :: word).length := Nat.succ_pos _
      simp only [Option.map_some, hbytes, if_pos hpos, List.length_append, Option.getD_some]
    | none =>
      have hcopy := translateFromSlices?_copy rest word (before ++ [c]) (out ++ [c]) (by simpa using hc) hmore
      simpa using hcopy

/-! ### Whole expressions -/

/-- Where the reader stands, going by whether it is in a literal. -/
def Quote.ofInString (inString : Bool) : Quote := if inString then .inside else .outside

/-- From any place on that is not inside a word, the translation place by place
is the one word by word. -/
def TranslatesFrom (rest : Text) : Prop :=
  ∀ (before out : Text) (inString : Bool),
    (inString = false → rest.head?.any isNameChar = true → ¬ before.getLast?.any isNameChar = true) →
    translateFromSlices? (before ++ rest) before.length inString out =
      some (if (Quote.ofInString inString).after rest = .outside then
        some (out ++ translateFrom (Quote.ofInString inString) [] rest)
      else none)

theorem TranslatesFrom.after_char {c : Char} {cs : Text} (h : TranslatesFrom cs) (before out : Text)
    {inString : Bool} (hc : inString = false → isNameChar c = false) :
    translateFromSlices? (before ++ c :: cs) (before.length + 1) inString (out ++ [c]) =
      some (if (Quote.ofInString inString).after cs = .outside then
        some (out ++ c :: translateFrom (Quote.ofInString inString) [] cs)
      else none) := by
  have hstart : inString = false → cs.head?.any isNameChar = true →
      ¬ (before ++ [c]).getLast?.any isNameChar = true := by
    intro hout _
    simp [hc hout]
  have hmore := h (before ++ [c]) (out ++ [c]) inString hstart
  rwa [List.length_append, List.append_assoc, List.append_assoc] at hmore

/-- Inside a literal every character is copied, an escaped one with its
backslash. -/
theorem translatesFrom_inside {rest : Text}
    (ih : ∀ more : Text, more.length < rest.length → TranslatesFrom more) (before out : Text) :
    translateFromSlices? (before ++ rest) before.length true out =
      some (if Quote.after .inside rest = .outside then some (out ++ translateFrom .inside [] rest)
        else none) := by
  cases rest with
  | nil =>
    rw [List.append_nil, translateFromSlices?_nil]
    rfl
  | cons c cs =>
    rw [translateFromSlices?_cons, translateFrom_inside (q := .inside) (by decide), Quote.after_cons]
    by_cases hescape : c = '\\'
    · subst hescape
      have hnext : Quote.next .inside '\\' = .escaped := rfl
      rw [if_pos (by rfl), hnext]
      cases cs with
      | nil =>
        have hend : ¬ before.length + 2 < (before ++ ['\\']).length := by simp
        rw [translateFromSlices?, if_neg hend]
        rfl
      | cons d ds =>
        have hshorter : ds.length < ('\\' :: d :: ds).length :=
          Nat.lt_succ_of_lt (Nat.lt_succ_self ds.length)
        have hmore := ih ds hshorter (before ++ ['\\', d]) (out ++ ['\\', d]) true
          fun h => absurd h.symm Bool.false_ne_true
        rw [translateFrom_inside (q := .escaped) (by decide)]
        rw [List.length_append, List.append_assoc, List.append_assoc] at hmore
        exact hmore
    · rw [if_neg (by simpa using hescape)]
      by_cases hquote : c = '"'
      · subst hquote
        rw [if_pos rfl]
        exact (ih cs (by simp)).after_char before out fun _ => by decide
      · have hfound : foundAt? (before ++ c :: cs) before.length true = some none := foundAt?_eq ..
        have hnext : Quote.next .inside c = .inside := by simp [Quote.next, hescape, hquote]
        rw [if_neg hquote, hfound, hnext]
        exact (ih cs (by simp)).after_char before out fun h => absurd h.symm Bool.false_ne_true

/-- Outside the literals a word is substituted, and the character after it is
copied. -/
theorem translatesFrom_outside {rest : Text}
    (ih : ∀ more : Text, more.length < rest.length → TranslatesFrom more) {before : Text}
    (hstart : rest.head?.any isNameChar = true → ¬ before.getLast?.any isNameChar = true) (out : Text) :
    translateFromSlices? (before ++ rest) before.length false out =
      some (if Quote.after .outside rest = .outside then some (out ++ translateFrom .outside [] rest)
        else none) := by
  obtain ⟨word, more, rfl, hword, hmore⟩ := exists_word rest
  have hfirst : word ≠ [] → ¬ before.getLast?.any isNameChar = true := by
    intro hne
    obtain ⟨c, cs, rfl⟩ := List.exists_cons_of_ne_nil hne
    exact hstart (by simpa using hword c (List.mem_cons_self ..))
  rw [translateFromSlices?_word hword hmore hfirst, translateFrom_word more word [] hword,
    Quote.after_word more hword, List.nil_append, ← List.append_assoc]
  cases more with
  | nil =>
    rw [List.append_nil, translateFromSlices?_nil]
    rfl
  | cons c cs =>
    have hc : isNameChar c = false := by simpa using hmore
    have hshorter : cs.length < (word ++ c :: cs).length := by
      rw [List.length_append, List.length_cons]
      omega
    rw [translateFromSlices?_cons, translateFrom_outside hc, Quote.after_cons, Bool.false_and,
      if_neg Bool.false_ne_true, ← List.append_assoc]
    by_cases hquote : c = '"'
    · subst hquote
      rw [if_pos rfl]
      exact (ih cs hshorter).after_char (before ++ word) (out ++ substitute word)
        fun h => absurd h.symm Bool.false_ne_true
    · have hfound : foundAt? (before ++ word ++ c :: cs) (before ++ word).length false = some none := by
        have hnone : replacementAt? (before ++ word ++ ([] ++ c :: cs)) (before ++ word).length substitutions =
            some ((substitutions.lookup []).map fun r => ([], r)) :=
          replacementAt?_eq (List.forall_mem_nil _) hmore isKeyword_of_mem_substitutions
        rw [foundAt?_eq]
        split
        · exact hnone
        · rfl
      have hnext : Quote.next .outside c = .outside := by simp [Quote.next, hquote]
      rw [if_neg hquote, hfound, hnext]
      exact (ih cs hshorter).after_char (before ++ word) (out ++ substitute word) fun _ => hc

/-- **Place by place is word by word.** -/
theorem translatesFrom (rest : Text) : TranslatesFrom rest := by
  induction hlength : rest.length using Nat.strong_induction_on generalizing rest with
  | _ n ih =>
    subst hlength
    have hshorter : ∀ more : Text, more.length < rest.length → TranslatesFrom more :=
      fun more hmore => ih more.length hmore more rfl
    intro before out inString hstart
    cases inString with
    | true => exact translatesFrom_inside hshorter before out
    | false => exact translatesFrom_outside hshorter (hstart rfl) out

/-- **No place is looked at outside the expression, and the translation
ends.** -/
theorem translateBySlices?_eq (expression : Text) :
    translateBySlices? expression = some (translate? expression) := by
  have hall := translatesFrom expression [] [] false (fun _ _ => by simp)
  unfold translateBySlices? translate? isClosed
  refine hall.trans ?_
  simp only [beq_iff_eq]
  rfl

end Offside

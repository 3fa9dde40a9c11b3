/-
# First words and whole calls

The first word of a text is its longest run of name characters from the start.
A keyword starts a text exactly if it is this word, so a text has at most one
keyword, and its kind is looked up by its first word (`Line.Kind.ofText_eq`).
A call is a name, white space and parentheses up to the end, with anything in
between (`callArguments?_eq_some_iff`, `isCall_iff`); these shapes decide which
lines print and which lines call.

Key definitions: `keywords`, `firstWord`.
Key theorems: `startsWithWord_iff`, `Line.Kind.ofText_eq`,
`Line.Kind.ofText_eq_iff_firstWord`,
`callArguments?_eq_some_iff`, `isCall_iff`, `Line.Kind.ofText_of_call`,
`Line.Kind.ofText_eq_print_iff`, `Line.Kind.ofText_eq_call_iff`.
-/
import Offside.Proofs.Kinds
import Offside.Proofs.Translation
import Offside.Proofs.Trimming

namespace Offside

/-! ### First words -/

/-- The words that give a line its kind. -/
def keywords : List Text := ["def", "if", "elif", "else", "while", "for", "return"]

/-- The name characters that a text starts with. -/
def firstWord (t : Text) : Text := t.takeWhile isNameChar

theorem firstWord_append {word rest : Text} (hword : ∀ c ∈ word, isNameChar c = true)
    (hrest : ¬ rest.head?.any isNameChar = true) : firstWord (word ++ rest) = word :=
  (word_eq_takeWhile hword hrest).1

/-- **A word starts a text exactly if it is its first word.** -/
theorem startsWithWord_iff {word : Text} (hword : ∀ c ∈ word, isNameChar c = true) (t : Text) :
    startsWithWord word t = true ↔ firstWord t = word := by
  constructor
  · intro h
    unfold startsWithWord at h
    split at h
    · next rest hrest =>
      have hstop : ¬ rest.head?.any isNameChar = true := by simpa using h
      rw [Text.eq_of_isPrefixOf hrest, firstWord_append hword hstop]
    · cases h
  · rintro rfl
    obtain ⟨word, rest, rfl, hword, hrest⟩ := exists_word t
    rw [firstWord_append hword hrest, startsWithWord, Text.isPrefixOf?_append]
    simpa using hrest

/-- Entries are found by the word that a text starts with as they are looked up
by its first word. -/
theorem find?_startsWithWord {α : Type} (t : Text) : ∀ {entries : List (Text × α)},
    (∀ e ∈ entries, ∀ c ∈ e.1, isNameChar c = true) →
    (entries.find? fun e => startsWithWord e.1 t).map Prod.snd = entries.lookup (firstWord t)
  | [], _ => rfl
  | (word, a) :: entries, h => by
    obtain ⟨hword, hentries⟩ := List.forall_mem_cons.1 h
    have hstarts : startsWithWord word t = (firstWord t == word) := by
      rw [Bool.eq_iff_iff, startsWithWord_iff hword, beq_iff_eq]
    have ih := find?_startsWithWord t hentries
    rw [List.find?_cons, List.lookup_cons, ← ih]
    simp only [hstarts]
    cases firstWord t == word <;> rfl

namespace Line.Kind

theorem isNameChar_of_mem : ∀ e ∈ byFirstWord ++ byWholeText, ∀ c ∈ e.1, isNameChar c = true := by
  have hall : ((byFirstWord ++ byWholeText).all fun e => e.1.all isNameChar) = true := by decide
  simpa only [List.all_eq_true] using hall

/-- **The kind of a line is that of its first word, if this is a keyword.** -/
theorem ofText_eq (t : Text) : ofText t = (byFirstWord.lookup (firstWord t)).getD
    (if (callArguments? "print" t).isSome then print else (byWholeText.lookup t).getD (ofShape t)) := by
  have hwords : ∀ e ∈ byFirstWord, ∀ c ∈ e.1, isNameChar c = true :=
    fun e he => isNameChar_of_mem e (List.mem_append_left _ he)
  rw [ofText, ← find?_startsWithWord t hwords]
  cases byFirstWord.find? fun e => startsWithWord e.1 t <;> rfl

theorem lookup_eq_none_iff (word : Text) : byFirstWord.lookup word = none ↔ word ∉ keywords := by
  have hkeywords : keywords = byFirstWord.map Prod.fst := rfl
  rw [List.lookup_eq_none_iff, hkeywords, List.mem_map, not_exists]
  constructor
  · rintro h e ⟨he, rfl⟩
    exact absurd rfl (bne_iff_ne.1 (h e he))
  · intro h e he
    rw [bne_iff_ne]
    rintro rfl
    exact h e ⟨he, rfl⟩

/-- **A line is of the kind of a keyword exactly if this is its first word.** -/
theorem ofText_eq_iff_firstWord {w t : Text} {k : Line.Kind} (h : (w, k) ∈ byFirstWord) :
    ofText t = k ↔ firstWord t = w := by
  have hlookup : ∀ e ∈ byFirstWord, byFirstWord.lookup e.1 = some e.2 := by decide
  constructor
  · intro hk
    have hword := isNameChar_of_mem (w, k) (List.mem_append_left _ h)
    exact (startsWithWord_iff hword t).1 (startsWithWord_of_ofText h hk)
  · intro hfirst
    rw [ofText_eq, hfirst, hlookup (w, k) h, Option.getD_some]

end Line.Kind

/-! ### Calls -/

theorem not_isNameChar_opened {gap : Text} (hgap : ∀ c ∈ gap, isBlank c = true) (inner : Text) :
    ¬ (gap ++ '(' :: inner).head?.any isNameChar = true := by
  cases gap with
  | nil =>
    have hopen : isNameChar '(' = false := by decide
    simp [hopen]
  | cons c gap =>
    have hc := isNameChar_of_isBlank (hgap c (List.mem_cons_self ..))
    simp [hc]

theorem trimStart_opened {gap : Text} (hgap : ∀ c ∈ gap, isBlank c = true) (inner : Text) :
    Text.trimStart (gap ++ '(' :: inner) = '(' :: inner := by
  have hopen : isBlank '(' = false := by decide
  rw [Text.trimStart_append hgap]
  exact Text.trimStart_eq_self (by simp [hopen])

/-- **The arguments of a call of a name stand between the name and the end of
the text, in parentheses.** -/
theorem callArguments?_eq_some_iff {name t args : Text} : callArguments? name t = some args ↔
    ∃ gap, (∀ c ∈ gap, isBlank c = true) ∧ t = name ++ gap ++ '(' :: (args ++ [')']) := by
  constructor
  · intro h
    unfold callArguments? at h
    split at h
    · next rest hrest =>
      split at h
      · cases h
      · split at h
        · next inner hinner =>
          obtain ⟨gap, hgap, hblank⟩ := Text.exists_trimStart rest
          rw [hinner, (Text.dropEnd?_eq_some_iff ')').1 h] at hgap
          refine ⟨gap, hblank, ?_⟩
          rw [Text.eq_of_isPrefixOf hrest, hgap, List.append_assoc]
        · cases h
    · cases h
  · rintro ⟨gap, hblank, rfl⟩
    have hstop := not_isNameChar_opened hblank (args ++ [')'])
    rw [List.append_assoc, callArguments?, Text.isPrefixOf?_append]
    simp only [if_neg hstop, trimStart_opened hblank]
    exact (Text.dropEnd?_eq_some_iff ')').2 rfl

theorem isTrimmed_of_isName {t : Text} (h : isName t = true) : Text.IsTrimmed t := by
  have hchars := ((isName_iff t).1 h).2
  have hnone : ∀ c ∈ t, isBlank c = false := by
    intro c hc
    by_contra hblank
    rw [Bool.not_eq_false] at hblank
    have hname := hchars c hc
    rw [isNameChar_of_isBlank hblank] at hname
    cases hname
  exact ⟨fun c hc => hnone c (List.mem_of_mem_head? hc), fun c hc => hnone c (List.mem_of_getLast? hc)⟩

theorem trim_of_isName {front name back : Text} (hfront : ∀ c ∈ front, isBlank c = true)
    (hname : isName name = true) (hback : ∀ c ∈ back, isBlank c = true) : Text.trim (front ++ name ++ back) = name :=
  Text.trim_eq_iff.2 ⟨isTrimmed_of_isName hname, front, back, rfl, hfront, hback⟩

/-- **A call is a name, white space, and parentheses up to the end.** -/
theorem isCall_iff (t : Text) : isCall t = true ↔ ∃ name gap args, isName name = true ∧
    (∀ c ∈ gap, isBlank c = true) ∧ t = name ++ gap ++ '(' :: (args ++ [')']) := by
  unfold isCall
  constructor
  · intro h
    split at h
    · next before inner hcut =>
      rw [Bool.and_eq_true] at h
      obtain ⟨hname, hlast⟩ := h
      obtain ⟨args, rfl⟩ := List.getLast?_eq_some_iff.1 (eq_of_beq hlast)
      obtain ⟨gap, hgap, hblank, -⟩ := Text.exists_trimEnd before
      refine ⟨Text.trimEnd before, gap, args, hname, hblank, ?_⟩
      have ht := Text.eq_of_cut _ hcut
      rw [← hgap, ht, List.append_assoc]
      rfl
    · cases h
  · rintro ⟨name, gap, args, hname, hblank, rfl⟩
    have hbefore : '(' ∉ name ++ gap := by
      rw [List.mem_append, not_or]
      refine ⟨not_mem_of_isName hname (by decide), fun hmem => ?_⟩
      exact absurd (hblank _ hmem) (by decide)
    have hcut : Text.cut? "(" (name ++ gap ++ '(' :: (args ++ [')'])) = some (name ++ gap, args ++ [')']) := by
      have hcut := Text.cut?_append [] (args ++ [')']) hbefore
      rw [List.append_assoc] at hcut
      exact hcut
    have htrim : Text.trimEnd (name ++ gap) = name := by
      rw [Text.trimEnd_append name hblank, Text.trimEnd_eq_self (isTrimmed_of_isName hname).2]
    rw [hcut]
    simp only [htrim, hname, List.getLast?_concat, beq_self_eq_true, Bool.and_self]

theorem firstWord_of_call {name gap inner : Text} (hname : isName name = true)
    (hgap : ∀ c ∈ gap, isBlank c = true) : firstWord (name ++ gap ++ '(' :: inner) = name := by
  rw [List.append_assoc]
  exact firstWord_append ((isName_iff name).1 hname).2 (not_isNameChar_opened hgap inner)

theorem firstWord_of_callArguments {name t args : Text} (hname : ∀ c ∈ name, isNameChar c = true)
    (h : callArguments? name t = some args) : firstWord t = name :=
  (startsWithWord_iff hname t).1 (startsWithWord_of_callArguments h)

theorem isNameChar_of_mem_print : ∀ c ∈ "print".toList, isNameChar c = true :=
  List.all_eq_true.1 (by decide)

/-! ### Lines that print and lines that call -/

namespace Line.Kind

/-- **The lines that print are the calls of `print`.** -/
theorem ofText_eq_print_iff (t : Text) : ofText t = print ↔ ∃ args, callArguments? "print" t = some args := by
  rw [← Option.isSome_iff_exists]
  constructor
  · exact isSome_callArguments_of_ofText
  · intro h
    obtain ⟨args, hargs⟩ := Option.isSome_iff_exists.1 h
    have hnone : byFirstWord.lookup "print".toList = none := by decide
    rw [ofText_eq, firstWord_of_callArguments isNameChar_of_mem_print hargs, hnone, Option.getD_none, if_pos h]

theorem lookup_eq_none_of_mem {t : Text} {c : Char} (hc : isNameChar c = false) (h : c ∈ t) :
    byWholeText.lookup t = none := by
  have hwords : ∀ e ∈ byWholeText, ∀ c ∈ e.1, isNameChar c = true :=
    fun e he => isNameChar_of_mem e (List.mem_append_right _ he)
  rw [List.lookup_eq_none_iff]
  intro e he
  rw [bne_iff_ne]
  rintro rfl
  rw [hwords e he c h] at hc
  cases hc

/-- **The kind of a call goes by the name that it calls.** -/
theorem ofText_of_call {name gap args : Text} (hname : isName name = true) (hgap : ∀ c ∈ gap, isBlank c = true) :
    ofText (name ++ gap ++ '(' :: (args ++ [')'])) =
      (byFirstWord.lookup name).getD (if name = "print" then print else call) := by
  have hfirst : firstWord (name ++ gap ++ '(' :: (args ++ [')'])) = name := firstWord_of_call hname hgap
  rw [ofText_eq, hfirst]
  congr 1
  by_cases hprint : name = "print"
  · have hargs : callArguments? name (name ++ gap ++ '(' :: (args ++ [')'])) = some args :=
      callArguments?_eq_some_iff.2 ⟨gap, hgap, rfl⟩
    rw [if_pos hprint, ← hprint, hargs]
    rfl
  · have hnone : callArguments? "print" (name ++ gap ++ '(' :: (args ++ [')'])) = none := by
      rw [Option.eq_none_iff_forall_ne_some]
      intro inner hinner
      exact hprint (hfirst.symm.trans (firstWord_of_callArguments isNameChar_of_mem_print hinner))
    have hwhole := lookup_eq_none_of_mem (t := name ++ gap ++ '(' :: (args ++ [')'])) (c := '(') (by decide) (by simp)
    have hcall := (isCall_iff _).2 ⟨name, gap, args, hname, hgap, rfl⟩
    rw [if_neg hprint, hnone, hwhole, Option.getD_none, ofShape, if_pos hcall]
    rfl

theorem isCall_of_ofText {t : Text} (h : ofText t = call) : isCall t = true := by
  rcases ofText_cases t with ⟨w, hw, -⟩ | ⟨-, hp⟩ | hl | hs
  · rw [h] at hw
    simp [byFirstWord] at hw
  · rw [h] at hp
    cases hp
  · rw [h] at hl
    simpa using eq_of_lookup hl
  · by_contra hcall
    rw [h, ofShape, if_neg hcall] at hs
    split at hs
    · split at hs
      · unfold ofAssignment at hs
        split at hs
        · cases hs
        · split at hs <;> cases hs
      · cases hs
    · cases hs

/-- **The lines that call are the calls of names that are neither keywords nor
`print`.** -/
theorem ofText_eq_call_iff (t : Text) : ofText t = call ↔ ∃ name gap args, isName name = true ∧
    name ∉ keywords ∧ name ≠ "print" ∧ (∀ c ∈ gap, isBlank c = true) ∧
    t = name ++ gap ++ '(' :: (args ++ [')']) := by
  constructor
  · intro h
    obtain ⟨name, gap, args, hname, hgap, rfl⟩ := (isCall_iff t).1 (isCall_of_ofText h)
    rw [ofText_of_call hname hgap] at h
    cases hlookup : byFirstWord.lookup name with
    | none =>
      refine ⟨name, gap, args, hname, (lookup_eq_none_iff name).1 hlookup, ?_, hgap, rfl⟩
      intro hprint
      rw [hlookup, Option.getD_none, if_pos hprint] at h
      cases h
    | some k =>
      -- no keyword gives this kind
      have hkinds : ∀ e ∈ byFirstWord, e.2 ≠ call := by decide
      obtain ⟨front, back, hsplit, -⟩ := List.lookup_eq_some_iff.1 hlookup
      rw [hlookup, Option.getD_some] at h
      exact absurd h (hkinds (name, k) (by simp [hsplit]))
  · rintro ⟨name, gap, args, hname, hkeyword, hprint, hgap, rfl⟩
    rw [ofText_of_call hname hgap, (lookup_eq_none_iff name).2 hkeyword, Option.getD_none, if_neg hprint]

end Line.Kind
end Offside

/-
# Arguments are translated one by one

A translation keeps every comma, bracket and quote, so an argument list falls
into the same pieces before and after it (`splitAtCommas_translateFrom`); and it
keeps the white space around a piece (`trim_translateFrom`). A piece ends
outside the literals unless it is the last one, so a list can be translated
exactly when all its arguments can.

Key definition: `isNeutral`.
Key theorems: `odd_count_maskFrom`, `trim_translateFrom`,
`splitAtCommas_translateFrom`, `isClosed_iff_splitArguments`,
`arguments_translated`.
-/
import Mathlib.Algebra.Ring.Parity
import Mathlib.Data.List.Basic
import Offside.Proofs.Generated
import Offside.Proofs.Sides
import Offside.Proofs.Tokens
import Offside.Proofs.Trimming

namespace Offside

/-! ### Literals and the mask -/

theorem Quote.masked_eq_quote_iff (q : Quote) (c : Char) :
    q.masked c = '"' ↔ ¬ (q = .outside ↔ q.next c = .outside) := by
  cases q with
  | outside => by_cases hc : c = '"' <;> simp [masked, shows, next, hc]
  | inside =>
    by_cases hc : c = '"'
    · simp [masked, shows, next, hc]
    · by_cases hb : c = '\\' <;> simp [masked, shows, next, hc, hb]
  | escaped => simp [masked, shows, next]

/-- **A mask shows an odd number of quotes exactly if its text ends on the
other side of the quotes than it starts.** -/
theorem odd_count_maskFrom : ∀ (q : Quote) (t : Text),
    Odd ((maskFrom q t).count '"') ↔ ¬ (q = .outside ↔ q.after t = .outside)
  | q, [] => by simp [maskFrom, Quote.after]
  | q, c :: cs => by
    have ih := odd_count_maskFrom (q.next c) cs
    rw [maskFrom_cons, Quote.after_cons]
    by_cases hsame : q = .outside ↔ q.next c = .outside
    · have hmark : q.masked c ≠ '"' := mt (q.masked_eq_quote_iff c).1 (not_not_intro hsame)
      rw [List.count_cons_of_ne hmark, ih, hsame]
    · have hmark : q.masked c = '"' := (q.masked_eq_quote_iff c).2 hsame
      rw [hmark, List.count_cons_self, Nat.odd_add_one, ih]
      tauto

/-! ### White space -/

theorem ne_quote_of_isBlank {c : Char} (h : isBlank c = true) : c ≠ '"' := by
  rintro rfl
  revert h
  decide

theorem Quote.after_blanks : ∀ {s : Text} (q : Quote), (∀ c ∈ s, isBlank c = true) →
    (q.after s = .outside ↔ q = .outside)
  | [], _, _ => Iff.rfl
  | c :: cs, q, h => by
    obtain ⟨hc, hcs⟩ := List.forall_mem_cons.1 h
    rw [after_cons, Quote.after_blanks _ hcs]
    constructor
    · exact Quote.eq_outside_of_next (ne_quote_of_isBlank hc)
    · rintro rfl
      simp [next, ne_quote_of_isBlank hc]

theorem translateFrom_blanks (t : Text) : ∀ {s : Text}, (∀ c ∈ s, isBlank c = true) →
    translateFrom .outside [] (s ++ t) = s ++ translateFrom .outside [] t
  | [], _ => rfl
  | c :: cs, h => by
    obtain ⟨hc, hcs⟩ := List.forall_mem_cons.1 h
    have hnext : Quote.next .outside c = .outside := by simp [Quote.next, ne_quote_of_isBlank hc]
    rw [List.cons_append, translateFrom_outside (isNameChar_of_isBlank hc), substitute_nil, hnext,
      translateFrom_blanks t hcs]
    rfl

theorem isClosed_trim (t : Text) : isClosed (Text.trim t) = isClosed t := by
  obtain ⟨front, back, ht, hfront, hback⟩ := Text.exists_trim t
  have hstart : Quote.after .outside front = .outside := (Quote.after_blanks _ hfront).2 rfl
  rw [Bool.eq_iff_iff, isClosed, isClosed, beq_iff_eq, beq_iff_eq]
  conv_rhs => rw [ht, Quote.after_append, Quote.after_append, hstart, Quote.after_blanks _ hback]

/-! ### Ends of a translation -/

theorem substitute_cases (word : Text) :
    substitute word = word ∨ (word, substitute word) ∈ substitutions := by
  unfold substitute
  cases h : substitutions.lookup word with
  | none => exact .inl rfl
  | some replacement =>
    obtain ⟨front, back, hsplit, -⟩ := List.lookup_eq_some_iff.1 h
    exact .inr (by simp [hsplit])

/-- A token becomes something, and its ends become no white space. -/
theorem Token.translation_spec {k : Token} (h : k.text ≠ []) : k.translation ≠ [] ∧
    ((∀ c ∈ k.text.head?, isBlank c = false) → ∀ c ∈ k.translation.head?, isBlank c = false) ∧
    ((∀ c ∈ k.text.getLast?, isBlank c = false) → ∀ c ∈ k.translation.getLast?, isBlank c = false) := by
  have hwords : ∀ e ∈ substitutions, e.2 ≠ [] ∧ Text.IsTrimmed e.2 := by decide +kernel
  cases k with
  | literal | openLiteral | mark => exact ⟨h, id, id⟩
  | word letters =>
    rw [Token.translation_word]
    rcases substitute_cases letters with hsame | hmem
    · rw [hsame]
      exact ⟨h, id, id⟩
    · obtain ⟨hne, htrimmed⟩ := hwords _ hmem
      exact ⟨hne, fun _ => htrimmed.1, fun _ => htrimmed.2⟩

theorem Cut.text_ne_nil {t : Text} {ks : List Token} (h : Cut t ks) : ∀ k ∈ ks, k.text ≠ [] := by
  induction h with
  | nil => exact List.forall_mem_nil _
  | cons hk _ ih => exact List.forall_mem_cons.2 ⟨hk.text_ne_nil, ih⟩

theorem translateFrom_eq_nil_iff (t : Text) : translateFrom .outside [] t = [] ↔ t = [] := by
  obtain ⟨ks, hks⟩ := exists_cut t
  rw [hks.translateFrom_eq.1, ← hks.flatMap_text, List.flatMap_eq_nil_iff, List.flatMap_eq_nil_iff]
  constructor
  · exact fun h k hk => absurd (h k hk) (Token.translation_spec (hks.text_ne_nil k hk)).1
  · exact fun h k hk => absurd (h k hk) (hks.text_ne_nil k hk)

/-- **The translation of a trimmed text is trimmed.** -/
theorem isTrimmed_translateFrom {t : Text} (h : Text.IsTrimmed t) :
    Text.IsTrimmed (translateFrom .outside [] t) := by
  obtain ⟨ks, hks⟩ := exists_cut t
  have hne := hks.text_ne_nil
  rw [hks.translateFrom_eq.1]
  rw [← hks.flatMap_text] at h
  obtain ⟨hfirst, hlast⟩ := h
  refine ⟨?_, ?_⟩
  · cases ks with
    | nil => exact hfirst
    | cons k ks =>
      have hk : k.text ≠ [] := hne k (List.mem_cons_self ..)
      obtain ⟨hsome, hhead, -⟩ := Token.translation_spec hk
      rw [List.flatMap_cons, List.head?_append_of_ne_nil _ hk] at hfirst
      rw [List.flatMap_cons, List.head?_append_of_ne_nil _ hsome]
      exact hhead hfirst
  · rcases List.eq_nil_or_concat ks with rfl | ⟨ks, k, rfl⟩
    · exact hlast
    · have hk : k.text ≠ [] := hne k (by simp)
      obtain ⟨hsome, -, hend⟩ := Token.translation_spec hk
      rw [List.concat_eq_append, List.flatMap_append, List.flatMap_singleton,
        List.getLast?_append_of_ne_nil _ hk] at hlast
      rw [List.concat_eq_append, List.flatMap_append, List.flatMap_singleton,
        List.getLast?_append_of_ne_nil _ hsome]
      exact hend hlast

/-- **Trimming and translating may be done in either order.** -/
theorem trim_translateFrom {t : Text} (h : isClosed t = true) :
    Text.trim (translateFrom .outside [] t) = translateFrom .outside [] (Text.trim t) := by
  obtain ⟨front, back, ht, hfront, hback⟩ := Text.exists_trim t
  have hclosed : Quote.after .outside (Text.trim t) = .outside := by
    rw [← isClosed_trim] at h
    simpa [isClosed] using h
  have hstop : ¬ back.head?.any isNameChar = true := by
    cases back with
    | nil => simp
    | cons c cs => simp [isNameChar_of_isBlank (hback c (List.mem_cons_self ..))]
  have hend : translateFrom .outside [] back = back := by
    have hcopy := translateFrom_blanks [] hback
    rwa [List.append_nil, translateFrom, substitute_nil, List.append_nil] at hcopy
  refine Text.trim_eq_iff.2 ⟨isTrimmed_translateFrom (Text.isTrimmed_trim t), front, back, ?_, hfront, hback⟩
  conv_lhs => rw [ht]
  rw [List.append_assoc, translateFrom_blanks _ hfront, translateFrom_append hstop, hclosed, hend,
    List.append_assoc]

/-! ### Commas -/

/-- Whether a character is no quote, no comma and no bracket. -/
def isNeutral (c : Char) : Bool := !"\",([\x7b)]\x7d".toList.contains c

theorem isNeutral_of_class {p : Char → Bool} (hnone : ("\",([\x7b)]\x7d".toList.all fun d => !p d) = true)
    {c : Char} (h : p c = true) : isNeutral c = true := by
  rw [isNeutral, Bool.not_eq_true', ← Bool.not_eq_true, List.contains_iff_mem]
  intro hmem
  have hc := List.all_eq_true.1 hnone c hmem
  rw [h] at hc
  cases hc

theorem isNeutral_of_isNameChar {c : Char} (h : isNameChar c = true) : isNeutral c = true :=
  isNeutral_of_class (by decide) h

theorem isNeutral_of_isBlank {c : Char} (h : isBlank c = true) : isNeutral c = true :=
  isNeutral_of_class (by decide) h

theorem isNeutral_substitute {word : Text} (h : ∀ c ∈ word, isNameChar c = true) :
    ∀ c ∈ substitute word, isNeutral c = true := by
  have hwords : ∀ e ∈ substitutions, e.2.all isNeutral = true := by decide
  rcases substitute_cases word with hsame | hmem
  · rw [hsame]
    exact fun c hc => isNeutral_of_isNameChar (h c hc)
  · exact List.all_eq_true.1 (hwords _ hmem)

theorem Nesting.next_of_isNeutral {n : Nesting} (hn : n.quote = .outside) {c : Char} (h : isNeutral c = true) :
    n.next c = n := by
  obtain ⟨q, depth⟩ := n
  subst hn
  simp only [isNeutral, Bool.not_eq_true', List.contains_eq_mem, decide_eq_false_iff_not] at h
  simp at h
  simp [next, Quote.next, bracketDepth, h]

theorem splitAtCommas_neutral {n : Nesting} (t : Text) : ∀ {s : Text}, (s ≠ [] → n.quote = .outside) →
    (∀ c ∈ s, isNeutral c = true) → splitAtCommas n (s ++ t) = (splitAtCommas n t).modifyHead (s ++ ·)
  | [], _, _ => by
    rw [List.nil_append]
    cases splitAtCommas n t <;> rfl
  | c :: cs, hn, h => by
    obtain ⟨hc, hcs⟩ := List.forall_mem_cons.1 h
    have hquote : n.quote = .outside := hn (List.cons_ne_nil _ _)
    have hcomma : (n.atTop && c == ',') = false := by
      have hne : c ≠ ',' := by
        rintro rfl
        revert hc
        decide
      simp [hne]
    rw [List.cons_append, splitAtCommas_cons hcomma, Nesting.next_of_isNeutral hquote hc,
      splitAtCommas_neutral t (fun _ => hquote) hcs, List.modifyHead_modifyHead]
    rfl

theorem splitAtCommas_substitute {n : Nesting} {word : Text} (hn : word ≠ [] → n.quote = .outside)
    (hword : ∀ c ∈ word, isNameChar c = true) (t : Text) :
    splitAtCommas n (substitute word ++ t) = (splitAtCommas n t).modifyHead (substitute word ++ ·) := by
  refine splitAtCommas_neutral t ?_ (isNeutral_substitute hword)
  intro hne
  refine hn ?_
  rintro rfl
  exact hne substitute_nil

/-- A character is a comma between two pieces, or the start of the first
piece. -/
theorem splitAtCommas_cons_cases {n : Nesting} {c : Char} {cs p : Text} {ps : List Text}
    (h : splitAtCommas n (c :: cs) = p :: ps) :
    (n.quote = .outside ∧ (n.atTop && c == ',') = true ∧ c = ',' ∧ p = [] ∧ splitAtCommas n cs = ps) ∨
      ((n.atTop && c == ',') = false ∧ ∃ first, p = c :: first ∧ splitAtCommas (n.next c) cs = first :: ps) := by
  by_cases hcomma : (n.atTop && c == ',') = true
  · obtain ⟨⟨hquote, -⟩, hc⟩ : (n.quote = .outside ∧ n.depth = 0) ∧ c = ',' := by
      simpa [Nesting.atTop] using hcomma
    rw [splitAtCommas, if_pos hcomma] at h
    obtain ⟨hp, hps⟩ := List.cons.inj h
    exact .inl ⟨hquote, hcomma, hc, hp.symm, hps⟩
  · rw [Bool.not_eq_true] at hcomma
    obtain ⟨first, more, hpieces⟩ := List.exists_cons_of_ne_nil (splitAtCommas_ne_nil (n.next c) cs)
    rw [splitAtCommas_cons hcomma, hpieces, List.modifyHead_cons] at h
    obtain ⟨hp, rfl⟩ := List.cons.inj h
    exact .inr ⟨hcomma, first, hp.symm, hpieces⟩

/-- **A text falls into the same pieces before and after its translation.** The
first piece goes on with the letters `word` of an unfinished word. -/
theorem splitAtCommas_translateFrom : ∀ (t : Text) (n : Nesting) (word : Text),
    (word ≠ [] → n.quote = .outside) → (∀ c ∈ word, isNameChar c = true) →
    ∀ {p : Text} {ps : List Text}, splitAtCommas n t = p :: ps →
      splitAtCommas n (translateFrom n.quote word t) =
        translateFrom n.quote word p :: ps.map (translateFrom .outside [])
  | [], n, word, hn, hword, p, ps, h => by
    have hone : splitAtCommas n [] = [[]] := rfl
    have hpieces := splitAtCommas_substitute hn hword []
    rw [hone] at h
    obtain ⟨rfl, rfl⟩ := List.cons.inj h
    rw [List.append_nil, hone] at hpieces
    rw [translateFrom, hpieces, List.modifyHead_cons, List.append_nil]
    rfl
  | c :: cs, n, word, hn, hword, p, ps, h => by
    have hnone : ∀ m : Nesting, ([] : Text) ≠ [] → m.quote = .outside := fun _ hne => absurd rfl hne
    rcases splitAtCommas_cons_cases h with ⟨hquote, hcomma, rfl, rfl, rfl⟩ | ⟨hcomma, first, rfl, hfirst⟩
    · -- the comma ends the word and the piece
      obtain ⟨first, more, hpieces⟩ := List.exists_cons_of_ne_nil (splitAtCommas_ne_nil n cs)
      have ih := splitAtCommas_translateFrom cs n [] (hnone n) (List.forall_mem_nil _) hpieces
      have hcopy : ¬ (n.quote = .outside ∧ isNameChar ',' = true) := fun hc => absurd hc.2 (by decide)
      have hnext : n.quote.next ',' = n.quote := by
        rw [hquote]
        rfl
      rw [translateFrom_copy hcopy, splitAtCommas_substitute hn hword, hnext, splitAtCommas, if_pos hcomma, ih,
        hpieces, hquote, List.modifyHead_cons, List.append_nil]
      rfl
    · by_cases hletter : n.quote = .outside ∧ isNameChar c = true
      · -- a letter goes to the word, and to the first piece
        obtain ⟨hquote, hc⟩ := hletter
        rw [Nesting.next_of_isNeutral hquote (isNeutral_of_isNameChar hc)] at hfirst
        have hword' : ∀ d ∈ word ++ [c], isNameChar d = true := by
          simpa [or_imp, forall_and] using ⟨hword, hc⟩
        have ih := splitAtCommas_translateFrom cs n (word ++ [c]) (fun _ => hquote) hword' hfirst
        rw [translateFrom, if_pos ⟨hquote, hc⟩, ih, translateFrom, if_pos ⟨hquote, hc⟩]
      · -- any other character ends the word, within the first piece
        have hquote : (n.next c).quote = n.quote.next c := rfl
        have ih := splitAtCommas_translateFrom cs (n.next c) [] (hnone _) (List.forall_mem_nil _) hfirst
        rw [hquote] at ih
        rw [translateFrom_copy hletter, splitAtCommas_substitute hn hword, splitAtCommas_cons hcomma, ih,
          List.modifyHead_cons, List.modifyHead_cons, translateFrom_copy hletter]

/-- All pieces but the last end outside the literals, and the last one ends
where the text does. -/
theorem after_iff_splitAtCommas : ∀ (t : Text) (n : Nesting) {p : Text} {ps : List Text},
    splitAtCommas n t = p :: ps →
      (n.quote.after t = .outside ↔ n.quote.after p = .outside ∧ ∀ q ∈ ps, isClosed q = true)
  | [], n, p, ps, h => by
    have hone : splitAtCommas n [] = [[]] := rfl
    rw [hone] at h
    obtain ⟨rfl, rfl⟩ := List.cons.inj h
    simp
  | c :: cs, n, p, ps, h => by
    rcases splitAtCommas_cons_cases h with ⟨hquote, -, rfl, rfl, rfl⟩ | ⟨-, first, rfl, hfirst⟩
    · obtain ⟨first, more, hpieces⟩ := List.exists_cons_of_ne_nil (splitAtCommas_ne_nil n cs)
      have ih := after_iff_splitAtCommas cs n hpieces
      have hnext : n.quote.next ',' = n.quote := by
        rw [hquote]
        rfl
      rw [Quote.after_cons, hnext, ih, hpieces, List.forall_mem_cons, hquote, isClosed, beq_iff_eq]
      exact (and_iff_right rfl).symm
    · rw [Quote.after_cons, Quote.after_cons]
      exact after_iff_splitAtCommas cs (n.next c) hfirst

/-! ### Arguments -/

/-- **A list ends outside the literals exactly if each of its arguments does.** -/
theorem isClosed_iff_splitArguments (t : Text) :
    isClosed t = true ↔ ∀ p ∈ splitArguments t, isClosed p = true := by
  unfold splitArguments
  split_ifs with hblank
  · rw [← isClosed_trim, hblank]
    exact iff_of_true rfl (List.forall_mem_nil _)
  · obtain ⟨p, ps, hpieces⟩ := List.exists_cons_of_ne_nil (splitAtCommas_ne_nil {} t)
    have hends : isClosed t = true ↔ ∀ q ∈ p :: ps, isClosed q = true := by
      have hafter := after_iff_splitAtCommas t {} hpieces
      rw [List.forall_mem_cons, isClosed, isClosed, beq_iff_eq, beq_iff_eq]
      exact hafter
    rw [hends, hpieces, List.forall_mem_map]
    exact forall₂_congr fun q _ => by rw [isClosed_trim]

theorem splitArguments_translateFrom {t : Text} (h : isClosed t = true) :
    splitArguments (translateFrom .outside [] t) =
      (splitArguments t).map (translateFrom .outside []) := by
  have hargs := (isClosed_iff_splitArguments t).1 h
  have hnil := translateFrom_eq_nil_iff (Text.trim t)
  rw [splitArguments, trim_translateFrom h]
  by_cases hblank : Text.trim t = []
  · rw [if_pos (hnil.2 hblank), splitArguments, if_pos hblank]
    rfl
  · have hlist : splitArguments t = (splitAtCommas {} t).map Text.trim := if_neg hblank
    obtain ⟨p, ps, hpieces⟩ := List.exists_cons_of_ne_nil (splitAtCommas_ne_nil {} t)
    have hsplit : splitAtCommas {} (translateFrom .outside [] t) =
        (splitAtCommas {} t).map (translateFrom .outside []) := by
      rw [hpieces, List.map_cons]
      exact splitAtCommas_translateFrom t {} [] (fun hne => absurd rfl hne) (List.forall_mem_nil _) hpieces
    rw [if_neg (mt hnil.1 hblank), hsplit, hlist, List.map_map, List.map_map]
    refine List.map_congr_left fun q hq => trim_translateFrom ?_
    rw [← isClosed_trim]
    refine hargs _ ?_
    rw [hlist]
    exact List.mem_map_of_mem hq

theorem translate?_eq_none_iff (t : Text) : translate? t = none ↔ ¬ isClosed t = true := by
  unfold translate?
  split_ifs with hclosed <;> simp [hclosed]

theorem translate?_eq_some_iff (t e : Text) :
    translate? t = some e ↔ isClosed t = true ∧ translateFrom .outside [] t = e := by
  unfold translate?
  split_ifs with hclosed <;> simp [hclosed]

/-- **The arguments of a list can be translated one by one or all at once.** A
list has no translation if its mask shows an odd number of quotes, or, what is
the same, if one of its arguments has none; the translation of any other list
splits into the translations of its arguments, and these are what is printed. -/
theorem arguments_translated (t : Text) :
    (translate? t = none ↔ Odd ((mask t).count '"')) ∧
      (translateBySlices? t = some none ↔ Odd ((mask t).count '"')) ∧
      (translate? t = none ↔ ∃ p ∈ splitArguments t, translate? p = none) ∧
      ∀ e, translate? t = some e →
        (splitArguments t).map translate? = (splitArguments e).map some ∧
          splitBySlices? e = some ((splitArguments t).map (translateFrom .outside [])) ∧
          ∀ inFunction scope line, lowerTree inFunction scope (.print line (splitArguments t)) =
            .ok (some (.println (printed (splitArguments e)))) := by
  have hodd : translate? t = none ↔ Odd ((mask t).count '"') := by
    rw [translate?_eq_none_iff, mask, odd_count_maskFrom, isClosed, beq_iff_eq]
    simp
  have hargs := isClosed_iff_splitArguments t
  refine ⟨hodd, ?_, ?_, ?_⟩
  · rw [translateBySlices?_eq, Option.some_inj]
    exact hodd
  · rw [translate?_eq_none_iff, hargs]
    simp [translate?_eq_none_iff]
  · intro e he
    obtain ⟨hclosed, rfl⟩ := (translate?_eq_some_iff t e).1 he
    have heach : ∀ p ∈ splitArguments t, translate? p = some (translateFrom .outside [] p) :=
      fun p hp => (translate?_eq_some_iff p _).2 ⟨hargs.1 hclosed p hp, rfl⟩
    have hsplit := splitArguments_translateFrom hclosed
    refine ⟨?_, ?_, fun inFunction scope line => ?_⟩
    · rw [hsplit, List.map_map]
      exact List.map_congr_left heach
    · rw [splitBySlices?_eq, hsplit]
    · have hline : (splitArguments t).map (translateOn line) =
          ((splitArguments t).map (translateFrom .outside [])).map Except.ok := by
        rw [List.map_map]
        refine List.map_congr_left fun p hp => ?_
        rw [translateOn, heach p hp]
        rfl
      rw [lowerTree, hline, Generated.all_map_ok, hsplit]
      rfl

/-- A nested call and a literal each hold a comma. -/
theorem arguments_translated_nested :
    translate? "not a, f(b, \"c, \\\" and\") , d or True" = some "! a, f(b, \"c, \\\" and\") , d || true" ∧
      (splitArguments "not a, f(b, \"c, \\\" and\") , d or True").map translate? =
        (splitArguments "! a, f(b, \"c, \\\" and\") , d || true").map some ∧
      lowerTree false [[]] (.print 1 (splitArguments "not a, f(b, \"c, \\\" and\") , d or True")) =
        .ok (some (.println (printed (splitArguments "! a, f(b, \"c, \\\" and\") , d || true")))) := by
  have htranslated : translate? "not a, f(b, \"c, \\\" and\") , d or True" =
      some "! a, f(b, \"c, \\\" and\") , d || true" := by decide +kernel
  obtain ⟨heach, -, hprint⟩ := (arguments_translated _).2.2.2 _ htranslated
  exact ⟨htranslated, heach, hprint false [[]] 1⟩

end Offside

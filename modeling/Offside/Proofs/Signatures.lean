/-
# Definitions written and read

A list of names is white space alone, or names with white space around them and
commas between them (`ListsNames`). The reader of argument lists knows brackets
and literals, but where all its pieces are names there are none of them, so it
finds exactly the names that are listed (`splitArguments_eq_names_iff`). The
header of a definition is cut at its first opening and its last closing
parenthesis; this is its name, its list of names and its colon, with white space
between them, and nothing else (`Signature.ofText?_eq_some_iff`).

Key definitions: `ListsNames`, `Signature.Named`, `Signature.Spread`.
Key theorems: `splitArguments_eq_names_iff`, `Signature.ofText?_eq_some_iff`,
`Signature.Spread.ofText_eq_definition_iff`, `signatures_read`.
-/
import Offside.Proofs.Arguments
import Offside.Proofs.Shapes

namespace Offside

/-! ### Lists of names -/

/-- A text lists names: none of them is listed by white space, and others have
white space around them and commas between them. -/
inductive ListsNames : Text → List Text → Prop where
  | none {blanks : Text} (hblank : ∀ c ∈ blanks, isBlank c = true) : ListsNames blanks []
  | last {front name back : Text} (hfront : ∀ c ∈ front, isBlank c = true) (hname : isName name = true)
    (hback : ∀ c ∈ back, isBlank c = true) : ListsNames (front ++ name ++ back) [name]
  | cons {front name back t next : Text} {names : List Text} (hfront : ∀ c ∈ front, isBlank c = true)
    (hname : isName name = true) (hback : ∀ c ∈ back, isBlank c = true) (h : ListsNames t (next :: names)) :
    ListsNames (front ++ name ++ back ++ ',' :: t) (name :: next :: names)

theorem isNeutral_of_isName {name : Text} (hname : isName name = true) : ∀ c ∈ name, isNeutral c = true :=
  fun c hc => isNeutral_of_isNameChar (((isName_iff name).1 hname).2 c hc)

theorem isNeutral_of_mem_spaced {front name back : Text} (hfront : ∀ c ∈ front, isBlank c = true)
    (hname : isName name = true) (hback : ∀ c ∈ back, isBlank c = true) :
    ∀ c ∈ front ++ name ++ back, isNeutral c = true := by
  intro c hc
  rw [List.mem_append, List.mem_append] at hc
  rcases hc with (hc | hc) | hc
  · exact isNeutral_of_isBlank (hfront c hc)
  · exact isNeutral_of_isName hname c hc
  · exact isNeutral_of_isBlank (hback c hc)

theorem trim_ne_nil_of_isName {name : Text} (hname : isName name = true) (front back : Text) :
    Text.trim (front ++ name ++ back) ≠ [] := by
  rw [Ne, Text.trim_eq_nil_iff]
  intro hblank
  obtain ⟨⟨c, hc, hstart⟩, -⟩ := (isName_iff name).1 hname
  have hmem : c ∈ name := List.mem_of_mem_head? hc
  have hname := isNameChar_of_isBlank (hblank c (by simp [hmem]))
  rw [isNameChar_of_isNameStart hstart] at hname
  cases hname

namespace ListsNames

variable {t : Text} {names : List Text}

theorem isName (h : ListsNames t names) : ∀ p ∈ names, isName p = true := by
  induction h with
  | none => exact List.forall_mem_nil _
  | last _ hname => exact List.forall_mem_singleton.2 hname
  | cons _ hname _ _ ih => exact List.forall_mem_cons.2 ⟨hname, ih⟩

theorem map_trim_splitAtCommas (h : ListsNames t names) (hne : names ≠ []) :
    (splitAtCommas {} t).map Text.trim = names ∧ Text.trim t ≠ [] := by
  induction h with
  | none => exact absurd rfl hne
  | @last front name back hfront hname hback =>
    have hpieces := splitAtCommas_neutral (n := {}) [] (fun _ => rfl) (isNeutral_of_mem_spaced hfront hname hback)
    have htrim := trim_of_isName hfront hname hback
    refine ⟨?_, trim_ne_nil_of_isName hname front back⟩
    rw [List.append_nil] at hpieces
    rw [hpieces, splitAtCommas, List.modifyHead_cons, List.append_nil, List.map_singleton, htrim]
  | @cons front name back t next names hfront hname hback h ih =>
    obtain ⟨hmore, -⟩ := ih (List.cons_ne_nil _ _)
    have hpieces := splitAtCommas_neutral (n := {}) (',' :: t) (fun _ => rfl)
      (isNeutral_of_mem_spaced hfront hname hback)
    have hcomma : splitAtCommas {} (',' :: t) = [] :: splitAtCommas {} t := rfl
    have htrim := trim_of_isName hfront hname hback
    refine ⟨?_, ?_⟩
    · rw [hpieces, hcomma, List.modifyHead_cons, List.append_nil, List.map_cons, htrim, hmore]
    · rw [List.append_assoc]
      exact trim_ne_nil_of_isName hname front _

end ListsNames

/-- Texts that trim to names list these names, with commas between them. -/
theorem listsNames_of_pieces : ∀ {p : Text} {ps : List Text}, (∀ q ∈ p :: ps, isName (Text.trim q) = true) →
    ListsNames (List.intercalate [','] (p :: ps)) ((p :: ps).map Text.trim)
  | p, [], h => by
    obtain ⟨front, back, hp, hfront, hback⟩ := Text.exists_trim p
    rw [List.intercalate_singleton, List.map_singleton]
    conv => arg 1; rw [hp]
    exact .last hfront (h p (List.mem_singleton_self p)) hback
  | p, q :: ps, h => by
    obtain ⟨hname, hmore⟩ := List.forall_mem_cons.1 h
    obtain ⟨front, back, hp, hfront, hback⟩ := Text.exists_trim p
    rw [List.intercalate_cons_cons, List.map_cons, List.map_cons, List.append_assoc, List.singleton_append]
    conv => arg 1; rw [hp]
    exact .cons hfront hname hback (listsNames_of_pieces hmore)

/-- **Arguments that are names are the names that a text lists.** -/
theorem splitArguments_eq_names_iff {t : Text} {names : List Text} :
    (splitArguments t = names ∧ ∀ p ∈ names, isName p = true) ↔ ListsNames t names := by
  constructor
  · rintro ⟨hsplit, hnames⟩
    by_cases hblank : Text.trim t = []
    · rw [splitArguments, if_pos hblank] at hsplit
      subst hsplit
      exact .none ((Text.trim_eq_nil_iff t).1 hblank)
    · rw [splitArguments, if_neg hblank] at hsplit
      obtain ⟨-, hjoin⟩ := separated_splitAtCommas t {}
      obtain ⟨p, ps, hpieces⟩ := List.exists_cons_of_ne_nil (splitAtCommas_ne_nil {} t)
      rw [hpieces] at hsplit hjoin
      subst hsplit
      rw [← hjoin]
      exact listsNames_of_pieces fun q hq => hnames _ (List.mem_map_of_mem hq)
  · intro h
    refine ⟨?_, h.isName⟩
    by_cases hne : names = []
    · subst hne
      cases h with
      | none hblank => exact if_pos ((Text.trim_eq_nil_iff _).2 hblank)
    · obtain ⟨hsplit, hsome⟩ := h.map_trim_splitAtCommas hne
      rw [splitArguments, if_neg hsome, hsplit]

theorem isPiece_of_isName {name : Text} (h : isName name = true) : IsPiece name := by
  obtain ⟨hafter, huncut⟩ := Nesting.after_neutral (n := {}) rfl (isNeutral_of_isName h)
  exact (isPiece_iff name).2 ⟨huncut, hafter⟩

theorem listsNames_join {names : List Text} (h : ∀ p ∈ names, isName p = true) :
    ListsNames (List.intercalate ", " names) names := by
  refine splitArguments_eq_names_iff.1 ⟨splitArguments_intercalate fun p hp => ?_, h⟩
  refine ⟨?_, isTrimmed_of_isName (h p hp), isPiece_of_isName (h p hp)⟩
  rintro rfl
  exact absurd (h [] hp) (by decide)

/-! ### Headers -/

namespace Signature

/-- Whether a function and its parameters are called by names. -/
structure Named (s : Signature) : Prop where
  name : isName s.name = true
  parameters : ∀ p ∈ s.parameters, isName p = true

/-- Whether a text is the definition of `s`, with its keyword, its name, its list
of names in parentheses and its colon, and white space between these parts. -/
structure Spread (s : Signature) (t front gap inner space back : Text) : Prop where
  text : t = "def" ++ front ++ s.name ++ gap ++ '(' :: (inner ++ ')' :: (space ++ ':' :: back))
  blank : ∀ c ∈ front ++ gap ++ space ++ back, isBlank c = true
  name : isName s.name = true
  lists : ListsNames inner s.parameters

namespace Spread

variable {s : Signature} {t front gap inner space back : Text}

theorem named (h : s.Spread t front gap inner space back) : s.Named := ⟨h.name, h.lists.isName⟩

theorem blanks (h : s.Spread t front gap inner space back) :
    ((∀ c ∈ front, isBlank c = true) ∧ ∀ c ∈ gap, isBlank c = true) ∧
      (∀ c ∈ space, isBlank c = true) ∧ ∀ c ∈ back, isBlank c = true := by
  simpa [or_imp, forall_and, and_assoc] using h.blank

/-- What follows the keyword is cut at the first opening parenthesis, which
ends the name, and at the last closing one, before the colon. -/
theorem ofHeader?_eq (h : s.Spread t front gap inner space back) :
    ofHeader? (front ++ s.name ++ gap ++ '(' :: (inner ++ ')' :: (space ++ ':' :: back))) = some s := by
  obtain ⟨⟨hfront, hgap⟩, hspace, hback⟩ := h.blanks
  obtain ⟨hsplit, hall⟩ := splitArguments_eq_names_iff.2 h.lists
  have hbefore : '(' ∉ front ++ s.name ++ gap := fun hmem =>
    absurd (isNeutral_of_mem_spaced hfront h.name hgap _ hmem) (by decide)
  have hbehind : ')' ∉ space ++ ':' :: back := by
    intro hmem
    have hblank : isBlank ')' = true := by
      have hmem : ')' ∈ space ∨ ')' ∈ back := by simpa using hmem
      exact hmem.elim (hspace _) (hback _)
    exact absurd hblank (by decide)
  have hopen := Text.cut?_append [] (inner ++ ')' :: (space ++ ':' :: back)) hbefore
  have hclose := Text.cutLast?_append hbehind inner
  have hname := trim_of_isName hfront h.name hgap
  have hcolon : Text.trim (space ++ ':' :: back) = [':'] :=
    Text.trim_eq_iff.2 ⟨by decide, space, back, by simp, hspace, hback⟩
  rw [List.append_assoc, List.singleton_append] at hopen
  change (Text.cut? ['('] _).bind _ = some s
  rw [hopen, Option.bind_some]
  change (Text.cutLast? ')' _).bind _ = some s
  rw [hclose, Option.bind_some]
  simp only [hname, hsplit]
  exact if_pos ⟨hcolon, h.name, List.all_eq_true.2 hall⟩

theorem ofText?_eq (h : s.Spread t front gap inner space back) : ofText? t = some s := by
  have hread := h.ofHeader?_eq
  rw [List.append_assoc, List.append_assoc] at hread
  rw [h.text, ofText?, List.append_assoc, List.append_assoc, List.append_assoc, Text.isPrefixOf?_append]
  exact hread

end Spread

/-- **A definition is its keyword, its name, its list of names and its colon.** -/
theorem ofText?_eq_some_iff {t : Text} {s : Signature} : ofText? t = some s ↔
    ∃ front gap inner space back, s.Spread t front gap inner space back := by
  constructor
  · intro h
    obtain ⟨name, parameters⟩ := s
    simp only [ofText?, ofHeader?, Option.bind_eq_bind, Option.bind_eq_some_iff, Option.ite_none_right_eq_some,
      Option.some.injEq, Prod.exists] at h
    obtain ⟨rest, hkeyword, before, opened, hopen, inner, closed, hclose, ⟨hcolon, hname, hall⟩, hs⟩ := h
    obtain ⟨rfl, rfl⟩ := Signature.mk.inj hs
    obtain ⟨front, gap, hbefore, hfront, hgap⟩ := Text.exists_trim before
    obtain ⟨space, back, hclosed, hspace, hback⟩ := Text.exists_trim closed
    refine ⟨front, gap, inner, space, back, ?_, ?_, hname, ?_⟩
    · have hopened := (Text.eq_of_cutLast ')' hclose).1
      have hrest := Text.eq_of_cut _ hopen
      rw [hcolon] at hclosed
      rw [Text.eq_of_isPrefixOf hkeyword, hrest, hopened]
      conv_lhs => rw [hbefore, hclosed]
      simp
    · simpa [or_imp, forall_and] using ⟨hfront, hgap, hspace, hback⟩
    · exact splitArguments_eq_names_iff.1 ⟨rfl, List.all_eq_true.1 hall⟩
  · rintro ⟨front, gap, inner, space, back, h⟩
    exact h.ofText?_eq

/-- **A definition is a line of that kind exactly if white space follows its
keyword.** -/
theorem Spread.ofText_eq_definition_iff {s : Signature} {t front gap inner space back : Text}
    (h : s.Spread t front gap inner space back) : Line.Kind.ofText t = .definition ↔ front ≠ [] := by
  have hkeyword : ("def".toList, Line.Kind.definition) ∈ Line.Kind.byFirstWord := by decide
  have hdef : ∀ c ∈ "def".toList, isNameChar c = true := List.all_eq_true.1 (by decide)
  rw [Line.Kind.ofText_eq_iff_firstWord hkeyword, h.text]
  obtain ⟨⟨hfront, hgap⟩, -⟩ := h.blanks
  cases front with
  | nil =>
    -- the name goes on with the word
    have hword : ∀ c ∈ "def".toList ++ s.name, isNameChar c = true := by
      intro c hc
      rcases List.mem_append.1 hc with hc | hc
      · exact hdef c hc
      · exact ((isName_iff _).1 h.name).2 c hc
    have hfirst := firstWord_append hword
      (not_isNameChar_opened hgap (inner ++ ')' :: (space ++ ':' :: back)))
    rw [List.append_nil, List.append_assoc _ gap, hfirst]
    have hname : s.name ≠ [] := by
      intro hnil
      have hname := h.name
      rw [hnil] at hname
      cases hname
    simpa using hname
  | cons c front =>
    have hc : isNameChar c = false := isNameChar_of_isBlank (hfront c (List.mem_cons_self ..))
    rw [List.append_assoc, List.append_assoc, List.append_assoc, firstWord_append hdef (by simp [hc])]
    simp

theorem Named.spread_header {s : Signature} (h : s.Named) :
    s.Spread s.header [' '] [] (List.intercalate ", " s.parameters) [] [] where
  text := by
    have hheader : s.header = ("def".toList ++ [' ']) ++ s.name ++ ['('] ++
        List.intercalate ", " s.parameters ++ ([')'] ++ [':']) := rfl
    rw [hheader]
    simp only [List.append_assoc, List.append_nil, List.nil_append, List.cons_append]
  blank := List.forall_mem_singleton.2 (by decide)
  name := h.name
  lists := listsNames_join h.parameters

end Signature

/-- **Definitions are read as they are written.** A header with a name and named
parameters is a definition and is read back. Whatever is read has names only, and
its header is read as the same. A text is read exactly if it is a keyword, a name,
names in parentheses and a colon, with any white space between these parts and at
the end; it is a line of that kind if there is some behind the keyword. -/
theorem signatures_read :
    (∀ s : Signature, s.Named → Line.Kind.ofText s.header = .definition ∧
      Signature.ofText? s.header = some s ∧ Signature.bySlices? s.header = some (some s)) ∧
    (∀ (t : Text) (s : Signature), Signature.ofText? t = some s →
      s.Named ∧ Signature.ofText? s.header = some s) ∧
    ∀ (t : Text) (s : Signature),
      (Signature.ofText? t = some s ↔ ∃ front gap inner space back, s.Spread t front gap inner space back) ∧
      (Signature.bySlices? t = some (some s) ↔
        ∃ front gap inner space back, s.Spread t front gap inner space back) ∧
      ∀ front gap inner space back, s.Spread t front gap inner space back →
        (Line.Kind.ofText t = .definition ↔ front ≠ []) := by
  refine ⟨fun s hs => ?_, fun t s h => ?_, fun t s => ⟨Signature.ofText?_eq_some_iff, ?_, ?_⟩⟩
  · have hread := hs.spread_header.ofText?_eq
    refine ⟨hs.spread_header.ofText_eq_definition_iff.2 (List.cons_ne_nil _ _), hread, ?_⟩
    rw [Signature.bySlices?_eq, hread]
  · obtain ⟨front, gap, inner, space, back, hspread⟩ := Signature.ofText?_eq_some_iff.1 h
    exact ⟨hspread.named, hspread.named.spread_header.ofText?_eq⟩
  · rw [Signature.bySlices?_eq, Option.some_inj]
    exact Signature.ofText?_eq_some_iff
  · exact fun front gap inner space back h => h.ofText_eq_definition_iff

/-- Names in two scripts and white space of several kinds; a name that goes on
from the keyword; and an annotation, which is no name. -/
theorem signatures_read_spaced :
    Signature.ofText? "def größe_1( \t β2,_c )\u3000: " = some ⟨"größe_1", ["β2", "_c"]⟩ ∧
      Signature.ofText? "def größe_1(β2, _c):" = some ⟨"größe_1", ["β2", "_c"]⟩ ∧
      Line.Kind.ofText "def größe_1(β2, _c):" = .definition ∧
      Signature.ofText? "def f(n: int):" = none := by
  have hread : Signature.ofText? "def größe_1( \t β2,_c )\u3000: " = some ⟨"größe_1", ["β2", "_c"]⟩ := by
    decide +kernel
  obtain ⟨hwritten, hagain, -⟩ := signatures_read
  obtain ⟨hnamed, hheader⟩ := hagain _ _ hread
  exact ⟨hread, hheader, (hwritten _ hnamed).1, by decide +kernel⟩

end Offside

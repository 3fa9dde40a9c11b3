/-
# Types by the shape of the source

The type of an expression goes by its translation, but it can be told from the
source. Numbers are their own translations, a translation starts with a quote
where its text does, and nothing but a name becomes a name. The shapes that
decide exclude one another (`Shape.Fits.unique`), so they may be tried in any
order, and a variable never stands in for a literal.

Key definitions: `Digits`, `Whole`, `Decimal`, `Shape`, `Shape.Fits`,
`Shape.type`, `Shape.firstType`.
Key theorems: `isWhole_iff`, `isDecimal_iff`, `eq_of_translate`,
`Shape.name_of_translate`, `Shape.Fits.unique`,
`Shape.typeOf_eq_firstType`, `types_inferred`.
-/
import Offside.Proofs.Retranslation
import Offside.Proofs.Splitting
import Offside.Typing

namespace Offside

/-! ### Numbers -/

/-- Whether a text is one or more of the digits from `0` to `9`. -/
def Digits (t : Text) : Prop := t ≠ [] ∧ ∀ c ∈ t, c ∈ "0123456789".toList

/-- Whether a text is two runs of digits with a point between them. -/
def Pointed (t : Text) : Prop :=
  ∃ whole fraction, Digits whole ∧ Digits fraction ∧ t = whole ++ '.' :: fraction

/-- A text with a minus sign before it, or without one. -/
inductive Signed (P : Text → Prop) : Text → Prop where
  | plain {t : Text} (h : P t) : Signed P t
  | negative {t : Text} (h : P t) : Signed P ('-' :: t)

/-- Whether an expression is a whole number. -/
def Whole : Text → Prop := Signed Digits

/-- Whether an expression is a number with a decimal point. -/
def Decimal : Text → Prop := Signed Pointed

theorem isDigit_iff (c : Char) : c.isDigit = true ↔ c ∈ "0123456789".toList := by
  have hall : ∀ d ∈ "0123456789".toList, d.isDigit = true := List.all_eq_true.1 (by decide)
  refine ⟨fun h => ?_, hall c⟩
  have hcodes : ∀ n ∈ List.range' 48 10, Char.ofNat n ∈ "0123456789".toList := by decide
  obtain ⟨hfirst, hlast⟩ : 48 ≤ c.toNat ∧ c.toNat ≤ 57 := by
    simpa [Char.isDigit, UInt32.le_iff_toNat_le] using h
  rw [← Char.ofNat_toNat c]
  exact hcodes c.toNat (List.mem_range'_1.2 ⟨hfirst, by omega⟩)

theorem isDigits_iff (t : Text) : isDigits t = true ↔ Digits t := by
  simp only [isDigits, Digits, Bool.and_eq_true, Bool.not_eq_true', List.isEmpty_eq_false_iff, List.all_eq_true,
    isDigit_iff]

theorem Digits.not_mem {t : Text} (h : Digits t) {c : Char} (hc : c ∉ "0123456789".toList) : c ∉ t :=
  fun hmem => hc (h.2 c hmem)

/-- A number without its sign is what is left when the sign is dropped. -/
theorem signed_iff {P : Text → Prop} (hP : ∀ t, P t → t.head? ≠ some '-') (t : Text) :
    P (unsigned t) ↔ Signed P t := by
  constructor
  · intro h
    unfold unsigned at h
    split at h
    · exact .negative h
    · exact .plain h
  · intro h
    cases h with
    | plain h =>
      have hsign := hP t h
      unfold unsigned
      split
      · exact absurd rfl hsign
      · exact h
    | negative h => exact h

theorem Digits.head?_ne {t : Text} (h : Digits t) : t.head? ≠ some '-' := fun hhead =>
  h.not_mem (by decide) (List.mem_of_mem_head? hhead)

theorem Pointed.head?_ne {t : Text} (h : Pointed t) : t.head? ≠ some '-' := by
  obtain ⟨whole, fraction, hwhole, -, rfl⟩ := h
  rw [List.head?_append_of_ne_nil _ hwhole.1]
  exact hwhole.head?_ne

theorem isWhole_iff (t : Text) : isWhole t = true ↔ Whole t := by
  rw [isWhole, isDigits_iff]
  exact signed_iff (fun _ h => h.head?_ne) t

theorem isDecimal_iff (t : Text) : isDecimal t = true ↔ Decimal t := by
  have hpointed : isDecimal t = true ↔ Pointed (unsigned t) := by
    unfold isDecimal
    constructor
    · intro h
      split at h
      · next whole fraction hcut =>
        rw [Bool.and_eq_true, isDigits_iff, isDigits_iff] at h
        refine ⟨whole, fraction, h.1, h.2, ?_⟩
        rw [Text.eq_of_cut _ hcut, List.append_assoc]
        rfl
      · cases h
    · rintro ⟨whole, fraction, hwhole, hfraction, ht⟩
      have hcut := Text.cut?_append [] fraction (hwhole.not_mem (c := '.') (by decide))
      rw [List.append_assoc, List.singleton_append, ← ht] at hcut
      rw [show ".".toList = ['.'] from rfl, hcut]
      simp only [(isDigits_iff _).2 hwhole, (isDigits_iff _).2 hfraction, Bool.and_self]
  rw [hpointed]
  exact signed_iff (fun _ h => h.head?_ne) t

/-- Whether a character can stand in a number. -/
def isNumeric (c : Char) : Bool := "-.0123456789".toList.contains c

/-- Whether a text has only characters that can stand in a number, and some. -/
def Numeric (t : Text) : Prop := t ≠ [] ∧ ∀ c ∈ t, isNumeric c = true

theorem Digits.numeric {t : Text} (h : Digits t) : Numeric t := by
  have hall : ∀ c ∈ "0123456789".toList, isNumeric c = true := List.all_eq_true.1 (by decide)
  exact ⟨h.1, fun c hc => hall c (h.2 c hc)⟩

theorem Pointed.numeric {t : Text} (h : Pointed t) : Numeric t := by
  obtain ⟨whole, fraction, hwhole, hfraction, rfl⟩ := h
  refine ⟨by simp, ?_⟩
  rw [List.forall_mem_append, List.forall_mem_cons]
  exact ⟨hwhole.numeric.2, by decide, hfraction.numeric.2⟩

theorem Signed.numeric {P : Text → Prop} (hP : ∀ t, P t → Numeric t) {t : Text} (h : Signed P t) : Numeric t := by
  cases h with
  | plain h => exact hP t h
  | negative h => exact ⟨List.cons_ne_nil _ _, List.forall_mem_cons.2 ⟨by decide, (hP _ h).2⟩⟩

theorem Whole.numeric {t : Text} (h : Whole t) : Numeric t := Signed.numeric (fun _ => Digits.numeric) h

theorem Decimal.numeric {t : Text} (h : Decimal t) : Numeric t := Signed.numeric (fun _ => Pointed.numeric) h

theorem Whole.not_mem {t : Text} (h : Whole t) : '.' ∉ t := by
  cases h with
  | plain h => exact h.not_mem (by decide)
  | negative h => exact List.not_mem_cons_of_ne_of_not_mem (by decide) (h.not_mem (by decide))

theorem Decimal.mem {t : Text} (h : Decimal t) : '.' ∈ t := by
  cases h with
  | plain h =>
    obtain ⟨whole, fraction, -, -, rfl⟩ := h
    simp
  | negative h =>
    obtain ⟨whole, fraction, -, -, rfl⟩ := h
    simp

/-! ### What a translation tells about its text -/

/-- **A translation is its text** if of every substitution either the word cannot
be made of the characters of the text, or what is written for it cannot be made
of those of the translation. -/
theorem eq_of_translate {e v : Text} (h : translate? e = some v)
    (hnone : ∀ s ∈ substitutions, (∃ c ∈ s.1, c ∉ e) ∨ ∃ c ∈ s.2, c ∉ v) : v = e := by
  obtain ⟨ks, hks⟩ := exists_cut e
  obtain ⟨-, rfl⟩ := (translate?_eq_some_iff e v).1 h
  rw [hks.translateFrom_eq.1] at hnone ⊢
  have hwords : ∀ s ∈ substitutions, (Token.word s.1).translation = s.2 := by decide
  have hcopied : ∀ k ∈ ks, k.isSubstituted = false := by
    intro k hk
    by_contra hsubstituted
    rw [Bool.not_eq_false] at hsubstituted
    obtain ⟨w, hw, rfl⟩ := Token.exists_of_isSubstituted hsubstituted
    obtain ⟨s, hs, rfl⟩ := List.mem_map.1 hw
    rcases hnone s hs with ⟨c, hc, hmissing⟩ | ⟨c, hc, hmissing⟩
    · rw [← hks.flatMap_text] at hmissing
      exact hmissing (List.mem_flatMap.2 ⟨_, hk, hc⟩)
    · rw [← hwords s hs] at hc
      exact hmissing (List.mem_flatMap.2 ⟨_, hk, hc⟩)
  rw [flatMap_translation_eq hcopied, hks.flatMap_text]

/-- A text that is made of numeric characters before or after the translation is
its own translation. -/
theorem eq_of_numeric {e v : Text} (h : translate? e = some v) (hn : Numeric e ∨ Numeric v) : v = e := by
  have hwords : ∀ s ∈ substitutions, s.1.any (!isNumeric ·) = true ∧ s.2.any (!isNumeric ·) = true := by decide
  have hmissing : ∀ {t u : Text}, Numeric u → t.any (!isNumeric ·) = true → ∃ c ∈ t, c ∉ u := by
    intro t u hu hany
    obtain ⟨c, hc, hnot⟩ := List.any_eq_true.1 hany
    refine ⟨c, hc, fun hmem => ?_⟩
    rw [hu.2 c hmem] at hnot
    cases hnot
  refine eq_of_translate h fun s hs => ?_
  obtain ⟨hword, hwritten⟩ := hwords s hs
  exact hn.imp (fun he => hmissing he hword) fun hv => hmissing hv hwritten

theorem numeric_translate_iff {P : Text → Prop} (hP : ∀ t, P t → Numeric t) {e v : Text}
    (h : translate? e = some v) : P v ↔ P e := by
  constructor
  · intro hv
    rwa [← eq_of_numeric h (.inr (hP v hv))]
  · intro he
    rwa [eq_of_numeric h (.inl (hP e he))]

theorem head?_eq_quote_iff {e v : Text} (h : translate? e = some v) :
    v.head? = some '"' ↔ e.head? = some '"' := by
  obtain ⟨ks, hks⟩ := exists_cut e
  obtain ⟨-, rfl⟩ := (translate?_eq_some_iff e v).1 h
  rw [hks.translateFrom_eq.1]
  cases hks with
  | nil => rfl
  | @cons _ rest k ks hk _ =>
    have hne := (Token.translation_spec hk.text_ne_nil).1
    rw [List.flatMap_cons, List.head?_append_of_ne_nil _ hne, hk.eq_text,
      List.head?_append_of_ne_nil _ hk.text_ne_nil]
    cases hk with
    | literal | openLiteral | mark => exact Iff.rfl
    | word _ hletters _ =>
      rw [Token.translation_word]
      refine iff_of_false (fun hquote => ?_) fun hquote => ?_
      · exact absurd (isNeutral_substitute hletters _ (List.mem_of_mem_head? hquote)) (by decide)
      · exact ne_quote_of_isNameChar (hletters _ (List.mem_of_mem_head? hquote)) rfl

theorem isNameChar_of_translateFrom : ∀ (t : Text) (q : Quote) (word : Text),
    (∀ c ∈ translateFrom q word t, isNameChar c = true) → ∀ c ∈ t, isNameChar c = true
  | [], _, _, _ => List.forall_mem_nil _
  | c :: cs, q, word, h => by
    by_cases hc : q = .outside ∧ isNameChar c = true
    · rw [translateFrom, if_pos hc] at h
      exact List.forall_mem_cons.2 ⟨hc.2, isNameChar_of_translateFrom cs q _ h⟩
    · rw [translateFrom_copy hc, List.forall_mem_append, List.forall_mem_cons] at h
      exact List.forall_mem_cons.2 ⟨h.2.1, isNameChar_of_translateFrom cs _ _ h.2.2⟩

theorem substitute_of_not_mem {word : Text} (h : word ∉ substitutions.map Prod.fst) : substitute word = word := by
  rcases substitute_cases word with hsame | hmem
  · exact hsame
  · exact absurd (List.mem_map_of_mem hmem) h

theorem translate_name {e v : Text} (h : translate? e = some v) (he : isName e = true) : v = substitute e := by
  obtain ⟨-, rfl⟩ := (translate?_eq_some_iff e v).1 h
  exact translateFrom_name ((isName_iff e).1 he).2

/-! ### What is no name -/

theorem not_isName_of_head {t : Text} {c : Char} (h : t.head? = some c) (hc : isNameStart c = false) :
    ¬ isName t = true := by
  intro hname
  obtain ⟨⟨d, hd, hstart⟩, -⟩ := (isName_iff t).1 hname
  obtain rfl : c = d := Option.some.inj (h.symm.trans hd)
  rw [hc] at hstart
  cases hstart

theorem Numeric.not_isName {t : Text} (h : Numeric t) : ¬ isName t = true ∧ t.head? ≠ some '"' := by
  have hstart : "-.0123456789".toList.all (fun c => !isNameStart c && c != '"') = true := by decide
  obtain ⟨c, hc⟩ := Option.isSome_iff_exists.1 (List.isSome_head?.2 h.1)
  have hall := List.all_eq_true.1 hstart c (List.contains_iff_mem.1 (h.2 c (List.mem_of_mem_head? hc)))
  obtain ⟨hname, hquote⟩ : isNameStart c = false ∧ c ≠ '"' := by simpa using hall
  exact ⟨not_isName_of_head hc hname, fun hhead => hquote (Option.some.inj (hc.symm.trans hhead))⟩

/-! ### Shapes -/

theorem Scope.exists_of_find? {name : Text} {s : Symbol} : ∀ {scope : Scope}, scope.find? name = some s →
    ∃ f ∈ scope, s ∈ f ∧ s.name = name
  | f :: scope, h => by
    rw [Scope.find?, Option.or_eq_some_iff] at h
    rcases h with h | ⟨-, h⟩
    · refine ⟨f, List.mem_cons_self .., List.mem_of_find?_eq_some h, ?_⟩
      simpa using List.find?_some (show List.find? (fun s => s.name = name) f = some s from h)
    · obtain ⟨g, hg, hs⟩ := Scope.exists_of_find? h
      exact ⟨g, List.mem_cons_of_mem f hg, hs⟩

/-- The shapes of an expression that its type goes by. -/
inductive Shape where
  | whole
  | decimal
  | quoted
  | truth
  | visible
  deriving DecidableEq, Repr

namespace Shape

/-- The truth values, as the source and as the generated code writes them. -/
def truths : List Text := ["True", "False", "true", "false"]

/-- The words of the source that are operators. -/
def operators : List Text := ["and", "or", "not"]

/-- Whether an expression of the source has a shape, where `scope` is visible. -/
def Fits (scope : Scope) (e : Text) : Shape → Prop
  | whole => Whole e
  | decimal => Decimal e
  | quoted => e.head? = some '"'
  | truth => e ∈ truths
  | visible => isName e = true ∧ e ∉ truths ∧ e ∉ operators ∧ scope.sees e = true

/-- The type that an expression of a shape has. -/
def type (scope : Scope) (e : Text) : Shape → ValueType
  | whole => .int
  | decimal => .double
  | quoted => .string
  | truth => .boolean
  | visible => (scope.find? e).elim .int Symbol.type

instance (scope : Scope) (e : Text) : DecidablePred (Fits scope e)
  | whole => decidable_of_iff _ (isWhole_iff e)
  | decimal => decidable_of_iff _ (isDecimal_iff e)
  | quoted => inferInstanceAs (Decidable (e.head? = some '"'))
  | truth => inferInstanceAs (Decidable (e ∈ truths))
  | visible =>
    inferInstanceAs (Decidable (isName e = true ∧ e ∉ truths ∧ e ∉ operators ∧ scope.sees e = true))

/-- The type by the first shape of a list that an expression has, `otherwise` if
it has none of them. -/
def firstType (scope : Scope) (e : Text) (otherwise : ValueType) : List Shape → ValueType
  | [] => otherwise
  | s :: order => if s.Fits scope e then s.type scope e else firstType scope e otherwise order

variable {scope : Scope} {e v : Text} {s : Shape}

/-- The only shape that an expression can have. -/
def only (e : Text) : Shape :=
  if isName e then if truths.contains e then truth else visible
  else if e.head? = some '"' then quoted
  else if '.' ∈ e then decimal
  else whole

theorem isName_of_mem_truths (h : e ∈ truths) : isName e = true := by
  have hall : ∀ t ∈ truths, isName t = true := by decide
  exact hall e h

theorem Fits.eq_only (h : s.Fits scope e) : s = only e := by
  have hnumber : Numeric e → only e = if '.' ∈ e then decimal else whole := by
    intro hnumeric
    obtain ⟨hname, hquote⟩ := hnumeric.not_isName
    rw [only, if_neg hname, if_neg hquote]
  cases s with
  | whole =>
    have hwhole : Whole e := h
    rw [hnumber hwhole.numeric, if_neg hwhole.not_mem]
  | decimal =>
    have hdecimal : Decimal e := h
    rw [hnumber hdecimal.numeric, if_pos hdecimal.mem]
  | quoted =>
    have hquote : e.head? = some '"' := h
    rw [only, if_neg (not_isName_of_head hquote (by decide)), if_pos hquote]
  | truth =>
    have htruth : e ∈ truths := h
    rw [only, if_pos (isName_of_mem_truths htruth), if_pos (List.contains_iff_mem.2 htruth)]
  | visible =>
    have hvisible : isName e = true ∧ e ∉ truths ∧ e ∉ operators ∧ scope.sees e = true := h
    rw [only, if_pos hvisible.1, if_neg (mt List.contains_iff_mem.1 hvisible.2.1)]

/-- **An expression has one shape at most.** -/
theorem Fits.unique (h : s.Fits scope e) {s' : Shape} (h' : s'.Fits scope e) : s' = s :=
  h'.eq_only.trans h.eq_only.symm

theorem firstType_of_fits (otherwise : ValueType) (h : s.Fits scope e) : ∀ {order : List Shape}, s ∈ order →
    firstType scope e otherwise order = s.type scope e
  | first :: order, hmem => by
    by_cases hfirst : first.Fits scope e
    · rw [firstType, if_pos hfirst, h.unique hfirst]
    · have hne : s ≠ first := by
        rintro rfl
        exact hfirst h
      rw [firstType, if_neg hfirst, firstType_of_fits otherwise h (List.mem_of_ne_of_mem hne hmem)]

theorem firstType_of_none (otherwise : ValueType) : ∀ {order : List Shape}, (∀ s ∈ order, ¬ s.Fits scope e) →
    firstType scope e otherwise order = otherwise
  | [], _ => rfl
  | first :: order, h => by
    rw [firstType, if_neg (h first List.mem_cons_self),
      firstType_of_none otherwise fun s hs => h s (List.mem_cons_of_mem first hs)]

/-! ### The type of a translation by the shape of its text -/

/-- **Only a name is translated to a name.** It is the same one, unless it is a
truth value. -/
theorem name_of_translate (h : translate? e = some v) (hv : isName v = true) :
    (v = e ∧ e ∉ substitutions.map Prod.fst) ∨ e ∈ truths := by
  obtain ⟨-, rfl⟩ := (translate?_eq_some_iff e v).1 h
  have hchars := isNameChar_of_translateFrom e .outside [] ((isName_iff _).1 hv).2
  rw [translateFrom_name hchars] at hv ⊢
  by_cases he : e ∈ substitutions.map Prod.fst
  · obtain ⟨s, hs, rfl⟩ := List.mem_map.1 he
    have hwords : ∀ s ∈ substitutions, isName (substitute s.1) = true → s.1 ∈ truths := by decide
    exact .inr (hwords s hs hv)
  · exact .inl ⟨substitute_of_not_mem he, he⟩

/-- A translation is a truth value of the generated code exactly if its text is
one of either. -/
theorem truth_translate_iff (h : translate? e = some v) : (v = "true".toList ∨ v = "false".toList) ↔ e ∈ truths := by
  constructor
  · intro hv
    have hnamed : isName v = true := by rcases hv with rfl | rfl <;> decide
    rcases name_of_translate h hnamed with ⟨rfl, -⟩ | htruth
    · rcases hv with rfl | rfl <;> decide
    · exact htruth
  · intro he
    have hall : ∀ t ∈ truths, substitute t = "true".toList ∨ substitute t = "false".toList := by decide
    rw [translate_name h (isName_of_mem_truths he)]
    exact hall e he

/-- A variable that a translation names is named by its text, where scopes hold
names only. -/
theorem find?_translate (hnames : ∀ f ∈ scope, ∀ s ∈ f, isName s.name = true) (h : translate? e = some v)
    (htruth : e ∉ truths) :
    scope.find? v = if Fits scope e visible then scope.find? e else none := by
  by_cases hvisible : Fits scope e visible
  · have ⟨hname, _, hoperator, _⟩ : isName e = true ∧ e ∉ truths ∧ e ∉ operators ∧ scope.sees e = true := hvisible
    have hwords : ∀ w ∈ substitutions.map Prod.fst, w ∈ truths ∨ w ∈ operators := by decide
    have hkept : e ∉ substitutions.map Prod.fst := fun hmem => (hwords e hmem).elim htruth hoperator
    rw [if_pos hvisible, translate_name h hname, substitute_of_not_mem hkept]
  · rw [if_neg hvisible, Option.eq_none_iff_forall_ne_some]
    intro found hfound
    obtain ⟨f, hf, hs, rfl⟩ := Scope.exists_of_find? hfound
    rcases name_of_translate h (hnames f hf found hs) with ⟨heq, hword⟩ | htranslated
    · have hwords : ∀ w ∈ operators, w ∈ substitutions.map Prod.fst := by decide
      have hsees : scope.sees e = true := by rw [Scope.sees, ← heq, hfound]; rfl
      exact hvisible ⟨heq ▸ hnames f hf found hs, htruth, fun hop => hword (hwords e hop), hsees⟩
    · exact htruth htranslated

/-- The shapes that a text has by itself. -/
def literals : List Shape := [whole, decimal, quoted, truth]

theorem mem_literals (h : s ≠ visible) : s ∈ literals := by
  cases s with
  | visible => exact absurd rfl h
  | _ => decide

theorem fits_literal_iff (h : s ≠ visible) (other : Scope) : s.Fits other e ↔ s.Fits scope e := by
  cases s with
  | visible => exact absurd rfl h
  | _ => exact Iff.rfl

theorem type_literal (h : s ≠ visible) (other : Scope) : s.type other e = s.type scope e := by
  cases s with
  | visible => exact absurd rfl h
  | _ => rfl

/-- **The checks on a translation are checks on its text**, one shape each, before
its name is looked up. -/
theorem typeOf_eq_firstType (scope : Scope) (h : translate? e = some v) :
    typeOf scope v = firstType scope e ((scope.find? v).elim .int Symbol.type) literals := by
  have hwhole : isWhole v = true ↔ Fits scope e whole :=
    (isWhole_iff v).trans (numeric_translate_iff (fun _ => Whole.numeric) h)
  have hdecimal : isDecimal v = true ↔ Fits scope e decimal :=
    (isDecimal_iff v).trans (numeric_translate_iff (fun _ => Decimal.numeric) h)
  have hquoted : v.head? = some '"' ↔ Fits scope e quoted := head?_eq_quote_iff h
  have htruth : (v = "true".toList ∨ v = "false".toList) ↔ Fits scope e truth := truth_translate_iff h
  rw [typeOf]
  simp only [literals, firstType, hwhole, hdecimal, hquoted, htruth, type]
  cases scope.find? v <;> rfl

theorem typeOf_literal (h : translate? e = some v) (hs : s ≠ visible) (hfits : s.Fits scope e) (other : Scope) :
    typeOf other v = s.type scope e := by
  have hother : s.Fits other e := (fits_literal_iff hs other).2 hfits
  rw [typeOf_eq_firstType other h, firstType_of_fits _ hother (mem_literals hs), type_literal hs other]

theorem typeOf_of_not_literal (hnames : ∀ f ∈ scope, ∀ s ∈ f, isName s.name = true) (h : translate? e = some v)
    (hnone : ∀ s ∈ literals, ¬ s.Fits scope e) :
    typeOf scope v = if Fits scope e visible then visible.type scope e else .int := by
  rw [typeOf_eq_firstType scope h, firstType_of_none _ hnone, find?_translate hnames h (hnone truth (by decide))]
  split_ifs <;> rfl

end Shape

/-- **Inferred types go by the shape of the source.** Where the names in scope are
names, the type of what an expression is translated to is that of the shape the
expression has: a whole number, a number with a point, what starts with a quote,
a truth value, or a variable that is visible and no operator. An expression of no
shape counts as a whole number. No expression has two shapes. So a literal keeps
its type whatever else is in scope, and the shapes may be tried in any order. -/
theorem types_inferred {scope : Scope} (hnames : ∀ f ∈ scope, ∀ s ∈ f, isName s.name = true) {e v : Text}
    (h : translate? e = some v) :
    (∀ s : Shape, s.Fits scope e → typeOf scope v = s.type scope e) ∧
      ((∀ s : Shape, ¬ s.Fits scope e) → typeOf scope v = .int) ∧
      (∀ s s' : Shape, s.Fits scope e → s'.Fits scope e → s' = s) ∧
      (∀ s : Shape, s ≠ .visible → s.Fits scope e → ∀ other : Scope, typeOf other v = s.type scope e) ∧
      ∀ order : List Shape, (∀ s, s ∈ order) → typeOf scope v = Shape.firstType scope e .int order := by
  have hfits : ∀ s : Shape, s.Fits scope e → typeOf scope v = s.type scope e := by
    intro s hs
    by_cases hvisible : s = .visible
    · subst hvisible
      have hnone : ∀ s ∈ Shape.literals, ¬ s.Fits scope e := by
        intro s hmem hliteral
        rw [hs.unique hliteral] at hmem
        exact absurd hmem (by decide)
      rw [Shape.typeOf_of_not_literal hnames h hnone, if_pos hs]
    · exact Shape.typeOf_literal h hvisible hs scope
  have hnone : (∀ s : Shape, ¬ s.Fits scope e) → typeOf scope v = .int := by
    intro hnone
    rw [Shape.typeOf_of_not_literal hnames h fun s _ => hnone s, if_neg (hnone .visible)]
  refine ⟨hfits, hnone, fun s s' hs hs' => hs.unique hs', fun s hliteral hs other =>
    Shape.typeOf_literal h hliteral hs other, fun order hall => ?_⟩
  by_cases hshape : ∃ s : Shape, s.Fits scope e
  · obtain ⟨s, hs⟩ := hshape
    rw [hfits s hs, Shape.firstType_of_fits _ hs (hall s)]
  · have hno := not_exists.1 hshape
    rw [hnone hno, Shape.firstType_of_none _ fun s _ => hno s]

/-- A variable is called like one around it, another like the text that `True` is
translated to. -/
theorem types_inferred_shadowed :
    let scope : Scope := [[⟨"size", .double, 3⟩], [⟨"size", .string, 2⟩, ⟨"true", .int, 1⟩]]
    (∀ f ∈ scope, ∀ s ∈ f, isName s.name = true) ∧
      translate? "True" = some "true".toList ∧ typeOf scope "true" = .boolean ∧
      translate? "size" = some "size".toList ∧ typeOf scope "size" = .double := by
  intro scope
  have hnames : ∀ f ∈ scope, ∀ s ∈ f, isName s.name = true := by decide
  have htrue : translate? "True" = some "true".toList := by decide
  have hsize : translate? "size" = some "size".toList := by decide
  refine ⟨hnames, htrue, ?_, hsize, ?_⟩
  · exact (types_inferred hnames htrue).1 .truth (by decide)
  · exact (types_inferred hnames hsize).1 .visible (by decide)

end Offside

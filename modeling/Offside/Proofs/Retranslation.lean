/-
# Translating a translation

A translation is its own translation. A word to substitute becomes marks or
another word, every other token stays, and nothing that a token becomes merges
with what stands beside it: a replacement comes to stand where a word did,
between characters of no name (`Cut.of_translateFrom`). So a text is left as it
is exactly if it has no word to substitute and no literal left open
(`translate?_eq_self_iff`).

Key definitions: `Token.translated`, `Token.isSubstituted`, `Token.isLiteral`.
Key theorems: `Cut.of_translateFrom`, `translate?_eq_self_iff`,
`translation_settles`.
-/
import Mathlib.Data.List.Basic
import Offside.Proofs.Tokens

namespace Offside

/-! ### What a token becomes -/

namespace Token

/-- The tokens that the translation of a token is cut into. -/
def translated : Token → List Token
  | word letters =>
    if letters = "and" then [mark '&', mark '&']
    else if letters = "or" then [mark '|', mark '|']
    else if letters = "not" then [mark '!']
    else if letters = "True" then [word "true"]
    else if letters = "False" then [word "false"]
    else [word letters]
  | token => [token]

/-- Whether a token is a word that the generated code writes otherwise. -/
def isSubstituted : Token → Bool
  | word letters => (substitutions.map Prod.fst).contains letters
  | _ => false

/-- Whether a token is a quoted literal, left open or not. -/
def isLiteral : Token → Bool
  | literal _ | openLiteral _ => true
  | _ => false

theorem translated_of_not_substituted {k : Token} (h : k.isSubstituted = false) :
    k.translated = [k] ∧ k.translation = k.text := by
  cases k with
  | word letters =>
    simp only [isSubstituted, substitutions, List.map_cons, List.map_nil, List.contains_eq_mem,
      decide_eq_false_iff_not, List.mem_cons, List.not_mem_nil, or_false, not_or] at h
    obtain ⟨hand, hor, hnot, htrue, hfalse⟩ := h
    constructor
    · rw [translated, if_neg hand, if_neg hor, if_neg hnot, if_neg htrue, if_neg hfalse]
    · rw [translation, if_neg hand, if_neg hor, if_neg hnot, if_neg htrue, if_neg hfalse]
      rfl
  | literal | openLiteral | mark => exact ⟨rfl, rfl⟩

theorem exists_of_isSubstituted {k : Token} (h : k.isSubstituted = true) :
    ∃ w ∈ substitutions.map Prod.fst, k = word w := by
  cases k with
  | word letters => exact ⟨letters, by simpa [isSubstituted] using h, rfl⟩
  | literal | openLiteral | mark => cases h

/-- **What a token becomes makes up its translation, and holds no word to
substitute.** Of the literals it holds the token itself, if that is one. -/
theorem translated_spec (k : Token) : k.translated.flatMap text = k.translation ∧
    (∀ m ∈ k.translated, m.isSubstituted = false) ∧
    k.translated.filter isLiteral = [k].filter isLiteral := by
  have hwords : ∀ w ∈ substitutions.map Prod.fst,
      (word w).translated.flatMap text = (word w).translation ∧
      (∀ m ∈ (word w).translated, m.isSubstituted = false) ∧
      (word w).translated.filter isLiteral = [word w].filter isLiteral := by decide
  cases h : k.isSubstituted with
  | true =>
    obtain ⟨w, hw, rfl⟩ := exists_of_isSubstituted h
    exact hwords w hw
  | false =>
    obtain ⟨hsame, htext⟩ := translated_of_not_substituted h
    rw [hsame, htext]
    exact ⟨List.append_nil _, by simpa using h, rfl⟩

end Token

/-! ### Nothing merges -/

/-- A translation goes on with what its text goes on with, where no word goes
on. -/
theorem head?_translateFrom {t : Text} (h : ¬ t.head?.any isNameChar = true) :
    (translateFrom .outside [] t).head? = t.head? := by
  cases t with
  | nil => rfl
  | cons c cs =>
    have hc : isNameChar c = false := by simpa using h
    rw [translateFrom_outside hc, substitute_nil]
    rfl

/-- A token stays the first one, whatever follows it, as long as that does not
go on with a word and nothing follows an open literal. -/
theorem FirstToken.before {t rest rest' : Text} {k : Token} (h : FirstToken t k rest)
    (hrest : ¬ rest.head?.any isNameChar = true → ¬ rest'.head?.any isNameChar = true)
    (hend : rest = [] → rest' = []) : FirstToken (k.text ++ rest') k rest' := by
  cases h with
  | @literal body _ hbody =>
    have hwritten : (Token.literal body).text ++ rest' = '"' :: (body ++ '"' :: rest') := by
      simp [Token.text]
    rw [hwritten]
    exact .literal hbody
  | openLiteral hbody hback =>
    rw [hend rfl, List.append_nil]
    exact .openLiteral hbody hback
  | word hne hletters hstop => exact .word hne hletters (hrest hstop)
  | mark hquote hc => exact .mark hquote hc

theorem cut_substituted {w rest : Text} {ks : List Token} (hw : w ∈ substitutions.map Prod.fst)
    (hrest : ¬ rest.head?.any isNameChar = true) (hks : Cut rest ks) :
    Cut ((Token.word w).translation ++ rest) ((Token.word w).translated ++ ks) := by
  simp only [substitutions, List.map_cons, List.map_nil, List.mem_cons, List.not_mem_nil, or_false] at hw
  have hamp : ∀ {rest ks}, Cut rest ks → Cut ('&' :: rest) (.mark '&' :: ks) :=
    fun h => .cons (.mark (by decide) (by decide)) h
  have hbar : ∀ {rest ks}, Cut rest ks → Cut ('|' :: rest) (.mark '|' :: ks) :=
    fun h => .cons (.mark (by decide) (by decide)) h
  rcases hw with rfl | rfl | rfl | rfl | rfl
  · exact hamp (hamp hks)
  · exact hbar (hbar hks)
  · exact .cons (.mark (by decide) (by decide)) hks
  · exact .cons (.word (by decide) (List.all_eq_true.1 (by decide)) hrest) hks
  · exact .cons (.word (by decide) (List.all_eq_true.1 (by decide)) hrest) hks

/-- **A translation is cut where its text is cut**, into what the tokens
become. -/
theorem Cut.of_translateFrom {t : Text} {ks : List Token} (h : Cut t ks) :
    Cut (translateFrom .outside [] t) (ks.flatMap Token.translated) := by
  induction h with
  | nil => exact .nil
  | @cons t rest k ks hk _ ih =>
    have hstop : ¬ rest.head?.any isNameChar = true →
        ¬ (translateFrom .outside [] rest).head?.any isNameChar = true := by
      intro hrest
      rwa [head?_translateFrom hrest]
    have hend : rest = [] → translateFrom .outside [] rest = [] := by
      rintro rfl
      exact substitute_nil
    rw [hk.translateFrom_eq.1, List.flatMap_cons]
    cases hsubstituted : k.isSubstituted with
    | true =>
      obtain ⟨w, hw, rfl⟩ := Token.exists_of_isSubstituted hsubstituted
      refine cut_substituted hw (hstop ?_) ih
      cases hk with
      | word _ _ hrest => exact hrest
    | false =>
      obtain ⟨hsame, htext⟩ := Token.translated_of_not_substituted hsubstituted
      rw [hsame, htext]
      exact .cons (hk.before hstop hend) ih

/-! ### Fixed points -/

theorem filter_isLiteral_translated (ks : List Token) :
    (ks.flatMap Token.translated).filter Token.isLiteral = ks.filter Token.isLiteral := by
  induction ks with
  | nil => rfl
  | cons k ks ih =>
    have hk := k.translated_spec.2.2
    rw [List.flatMap_cons, List.filter_append, hk, ih, ← List.filter_append, List.singleton_append]

theorem flatMap_translation_eq {ks : List Token} (h : ∀ k ∈ ks, k.isSubstituted = false) :
    ks.flatMap Token.translation = ks.flatMap Token.text :=
  List.flatMap_congr fun k hk => (Token.translated_of_not_substituted (h k hk)).2

/-- **A text is its own translation exactly if it holds no word to substitute
and no literal left open.** -/
theorem translate?_eq_self_iff {t : Text} {ks : List Token} (h : Cut t ks) :
    translate? t = some t ↔ ∀ k ∈ ks, k.isSubstituted = false ∧ k.isOpen = false := by
  obtain ⟨htranslate, hclosed⟩ := h.translateFrom_eq
  have hopen : isClosed t = true ↔ ∀ k ∈ ks, k.isOpen = false := by
    rw [hclosed]
    simp
  rw [translate?]
  constructor
  · intro hself
    obtain ⟨hc, hself⟩ := Option.ite_none_right_eq_some.1 hself
    -- the tokens of the text are those of its translation
    have hcut := h.of_translateFrom
    rw [Option.some.inj hself] at hcut
    have hks : ks.flatMap Token.translated = ks := h.unique hcut
    intro k hk
    refine ⟨?_, hopen.1 hc k hk⟩
    rw [← hks] at hk
    obtain ⟨k', -, hk'⟩ := List.mem_flatMap.1 hk
    exact k'.translated_spec.2.1 k hk'
  · intro hks
    have hcopied := flatMap_translation_eq fun k hk => (hks k hk).1
    rw [if_pos (hopen.2 fun k hk => (hks k hk).2), htranslate, hcopied, h.flatMap_text]

/-- **A translation is its own translation.** It is cut into what the tokens of
its text become, so none of them merges with another. There is no word to
substitute among them, and no literal left open; the literals are those of the
text, in their order. -/
theorem translation_settles (t e : Text) (h : translate? t = some e) :
    translate? e = some e ∧ translateBySlices? e = some (some e) ∧
      ∃ ks, Cut t ks ∧ Cut e (ks.flatMap Token.translated) ∧
        (∀ k ∈ ks.flatMap Token.translated, k.isSubstituted = false ∧ k.isOpen = false) ∧
        (ks.flatMap Token.translated).filter Token.isLiteral = ks.filter Token.isLiteral := by
  obtain ⟨ks, hks⟩ := exists_cut t
  obtain ⟨hclosed, rfl⟩ := Option.ite_none_right_eq_some.1 h |>.imp_right Option.some.inj
  have hcut := hks.of_translateFrom
  have hliterals := filter_isLiteral_translated ks
  have hended : ∀ k ∈ ks, k.isOpen = false := by
    rw [hks.translateFrom_eq.2] at hclosed
    simpa using hclosed
  have hsettled : ∀ m ∈ ks.flatMap Token.translated, m.isSubstituted = false ∧ m.isOpen = false := by
    intro m hm
    obtain ⟨k, -, hmk⟩ := List.mem_flatMap.1 hm
    refine ⟨k.translated_spec.2.1 m hmk, ?_⟩
    by_contra hopen
    -- an open literal is one of the literals of the text
    have hliteral : m.isLiteral = true := by
      cases m with
      | literal | openLiteral => rfl
      | word | mark => exact absurd rfl hopen
    have hmem : m ∈ ks.filter Token.isLiteral := by
      rw [← hliterals]
      exact List.mem_filter.2 ⟨hm, hliteral⟩
    exact hopen (hended m (List.mem_filter.1 hmem).1)
  have hself := (translate?_eq_self_iff hcut).2 hsettled
  exact ⟨hself, by rw [translateBySlices?_eq, hself], ks, hks, hcut, hsettled, hliterals⟩

/-- Words to substitute between quotes, marks and one another. -/
theorem translation_settles_crowded :
    translate? "not\"or\\\"\"and(True)or not_False" = some "!\"or\\\"\"&&(true)|| not_False" ∧
      translate? "!\"or\\\"\"&&(true)|| not_False" = some "!\"or\\\"\"&&(true)|| not_False" := by
  have h : translate? "not\"or\\\"\"and(True)or not_False" =
      some "!\"or\\\"\"&&(true)|| not_False" := by decide +kernel
  exact ⟨h, (translation_settles _ _ h).1⟩

end Offside

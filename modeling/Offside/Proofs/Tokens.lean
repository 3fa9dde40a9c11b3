/-
# The tokens of an expression

An expression is cut into quoted literals, words and single characters, in one
way only (`Cut.unique`). The translation goes by these tokens: words are
substituted, all others are copied, and there is no translation exactly when
the last token is a literal that is left open.

Key definitions: `Token`, `LiteralBody`, `FirstToken`, `Cut`.
Key theorems: `FirstToken.unique`, `Cut.unique`, `FirstToken.translateFrom_eq`,
`Cut.translate?_eq`, `translation_by_tokens`.
-/
import Offside.Lowering
import Offside.Proofs.Words

namespace Offside

/-! ### Tokens -/

/-- A part of an expression. -/
inductive Token where
  /-- A quoted literal, with what stands between its quotes. -/
  | literal (body : Text)
  /-- A literal that is left open, with what stands after its quote. -/
  | openLiteral (body : Text)
  /-- A longest run of name characters outside the literals. -/
  | word (letters : Text)
  /-- Any other character outside the literals. -/
  | mark (c : Char)
  deriving DecidableEq, Repr

namespace Token

/-- A token as the expression writes it. -/
def text : Token → Text
  | literal body => '"' :: (body ++ ['"'])
  | openLiteral body => '"' :: body
  | word letters => letters
  | mark c => [c]

/-- A token as the generated code writes it: five words are written
otherwise. -/
def translation : Token → Text
  | word letters =>
    if letters = "and" then "&&"
    else if letters = "or" then "||"
    else if letters = "not" then "!"
    else if letters = "True" then "true"
    else if letters = "False" then "false"
    else letters
  | token => token.text

/-- Whether a token is a literal that is left open. -/
def isOpen : Token → Bool
  | openLiteral _ => true
  | _ => false

theorem translation_word (letters : Text) : (word letters).translation = substitute letters := by
  have hall : ∀ w ∈ substitutions.map Prod.fst, (word w).translation = substitute w := by decide
  by_cases h : letters ∈ substitutions.map Prod.fst
  · exact hall letters h
  · have hnone : substitutions.lookup letters = none :=
      List.lookup_eq_none_iff.2 fun e he => by
        rw [bne_iff_ne]
        rintro rfl
        exact h (List.mem_map_of_mem he)
    simp only [substitutions, List.map_cons, List.map_nil, List.mem_cons, List.not_mem_nil, or_false,
      not_or] at h
    obtain ⟨hand, hor, hnot, htrue, hfalse⟩ := h
    rw [translation, if_neg hand, if_neg hor, if_neg hnot, if_neg htrue, if_neg hfalse, substitute, hnone]
    rfl

end Token

/-- What can stand inside a literal: characters that are neither quotes nor
backslashes, and backslashes each with the character after it. -/
inductive LiteralBody : Text → Prop where
  | nil : LiteralBody []
  | plain {c : Char} {body : Text} (hquote : c ≠ '"') (hescape : c ≠ '\\') (h : LiteralBody body) :
    LiteralBody (c :: body)
  | escaped {c : Char} {body : Text} (h : LiteralBody body) : LiteralBody ('\\' :: c :: body)

/-- An expression starts with the token `k`, and `rest` comes after it. -/
inductive FirstToken : Text → Token → Text → Prop where
  | literal {body rest : Text} (h : LiteralBody body) :
    FirstToken ('"' :: (body ++ '"' :: rest)) (.literal body) rest
  /-- Nothing comes after a literal that is left open. It may end in a
  backslash. -/
  | openLiteral {body back : Text} (h : LiteralBody body) (hback : back = [] ∨ back = ['\\']) :
    FirstToken ('"' :: (body ++ back)) (.openLiteral (body ++ back)) []
  | word {letters rest : Text} (hne : letters ≠ []) (hletters : ∀ c ∈ letters, isNameChar c = true)
    (hrest : ¬ rest.head?.any isNameChar = true) : FirstToken (letters ++ rest) (.word letters) rest
  | mark {c : Char} {rest : Text} (hquote : c ≠ '"') (hc : isNameChar c = false) :
    FirstToken (c :: rest) (.mark c) rest

/-- An expression is cut into tokens. -/
inductive Cut : Text → List Token → Prop where
  | nil : Cut [] []
  | cons {t rest : Text} {k : Token} {ks : List Token} (hk : FirstToken t k rest) (h : Cut rest ks) :
    Cut t (k :: ks)

/-! ### Literals -/

/-- What stands after the body of a literal: its quote, or the end of the
expression, where a backslash may be left over. -/
def EndsBody (stop : Text) : Prop := stop = [] ∨ stop = ['\\'] ∨ stop.head? = some '"'

theorem EndsBody.quote (rest : Text) : EndsBody ('"' :: rest) := .inr (.inr rfl)

theorem EndsBody.of_back {back : Text} (h : back = [] ∨ back = ['\\']) : EndsBody back := h.imp_right .inl

theorem exists_literalBody : ∀ t : Text, ∃ body stop, t = body ++ stop ∧ LiteralBody body ∧ EndsBody stop
  | [] => ⟨[], [], rfl, .nil, .inl rfl⟩
  | c :: cs => by
    by_cases hquote : c = '"'
    · exact ⟨[], c :: cs, rfl, .nil, hquote ▸ .quote cs⟩
    · by_cases hescape : c = '\\'
      · subst hescape
        cases cs with
        | nil => exact ⟨[], ['\\'], rfl, .nil, .inr (.inl rfl)⟩
        | cons d ds =>
          obtain ⟨body, stop, rfl, hbody, hstop⟩ := exists_literalBody ds
          exact ⟨'\\' :: d :: body, stop, rfl, .escaped hbody, hstop⟩
      · obtain ⟨body, stop, rfl, hbody, hstop⟩ := exists_literalBody cs
        exact ⟨c :: body, stop, rfl, .plain hquote hescape hbody, hstop⟩

theorem LiteralBody.eq_nil_of_endsBody {body stop : Text} (h : LiteralBody body) (hend : EndsBody (body ++ stop)) :
    body = [] := by
  cases h with
  | nil => rfl
  | plain hquote hescape h => rcases hend with hend | hend | hend <;> simp_all
  | escaped h => rcases hend with hend | hend | hend <;> simp at hend

/-- **The body of a literal is determined.** -/
theorem LiteralBody.unique {body stop : Text} (h : LiteralBody body) (hstop : EndsBody stop) :
    ∀ {body' stop' : Text}, LiteralBody body' → EndsBody stop' → body ++ stop = body' ++ stop' →
      body' = body ∧ stop' = stop := by
  induction h with
  | nil =>
    intro body' stop' h' hstop' heq
    have hends : EndsBody (body' ++ stop') := heq ▸ hstop
    have hnil := h'.eq_nil_of_endsBody hends
    subst hnil
    exact ⟨rfl, heq.symm⟩
  | @plain c body hquote hescape h ih =>
    intro body' stop' h' hstop' heq
    cases h' with
    | nil =>
      have hend : EndsBody (c :: body ++ stop) := by rw [heq]; exact hstop'
      exact absurd ((h.plain hquote hescape).eq_nil_of_endsBody hend) (List.cons_ne_nil _ _)
    | plain _ _ h' =>
      obtain ⟨rfl, htail⟩ := List.cons.inj heq
      obtain ⟨rfl, rfl⟩ := ih h' hstop' htail
      exact ⟨rfl, rfl⟩
    | escaped _ => exact absurd (List.cons.inj heq).1 hescape
  | @escaped c body h ih =>
    intro body' stop' h' hstop' heq
    cases h' with
    | nil =>
      have hend : EndsBody ('\\' :: c :: body ++ stop) := by rw [heq]; exact hstop'
      exact absurd (h.escaped.eq_nil_of_endsBody hend) (List.cons_ne_nil _ _)
    | plain _ hescape _ => exact absurd (List.cons.inj heq).1.symm hescape
    | escaped h' =>
      obtain ⟨rfl, htail⟩ := List.cons.inj (List.cons.inj heq).2
      obtain ⟨rfl, rfl⟩ := ih h' hstop' htail
      exact ⟨rfl, rfl⟩

/-! ### The first token -/

namespace FirstToken

variable {t rest : Text} {k : Token}

theorem ne_nil (h : FirstToken t k rest) : t ≠ [] := by
  cases h with
  | word hne => simp [hne]
  | literal | openLiteral | mark => exact List.cons_ne_nil _ _

theorem eq_text (h : FirstToken t k rest) : t = k.text ++ rest := by
  cases h <;> simp [Token.text]

theorem text_ne_nil (h : FirstToken t k rest) : k.text ≠ [] := by
  cases h with
  | word hne => exact hne
  | literal | openLiteral | mark => exact List.cons_ne_nil _ _

theorem of_quote {s : Text} (h : FirstToken ('"' :: s) k rest) :
    ∃ body stop, s = body ++ stop ∧ LiteralBody body ∧
      (stop = '"' :: rest ∧ k = .literal body ∨
        (stop = [] ∨ stop = ['\\']) ∧ k = .openLiteral s ∧ rest = []) := by
  generalize ht : '"' :: s = t at h
  cases h with
  | @literal body rest hbody =>
    exact ⟨body, '"' :: rest, (List.cons.inj ht).2, hbody, .inl ⟨rfl, rfl⟩⟩
  | @openLiteral body back hbody hback =>
    have hs := (List.cons.inj ht).2
    exact ⟨body, back, hs, hbody, .inr ⟨hback, by rw [hs], rfl⟩⟩
  | @word letters rest hne hletters =>
    obtain ⟨c, cs, rfl⟩ := List.exists_cons_of_ne_nil hne
    have hc := (List.cons.inj ht).1
    exact absurd hc.symm (ne_quote_of_isNameChar (hletters c (List.mem_cons_self ..)))
  | mark hquote => exact absurd (List.cons.inj ht).1.symm hquote

theorem of_name {c : Char} {s : Text} (hc : isNameChar c = true) (h : FirstToken (c :: s) k rest) :
    k = .word ((c :: s).takeWhile isNameChar) ∧ rest = (c :: s).dropWhile isNameChar := by
  generalize ht : c :: s = t at h ⊢
  cases h with
  | literal | openLiteral => exact absurd (List.cons.inj ht).1 (ne_quote_of_isNameChar hc)
  | word hne hletters hrest =>
    obtain ⟨htake, hdrop⟩ := word_eq_takeWhile hletters hrest
    rw [htake, hdrop]
    exact ⟨rfl, rfl⟩
  | mark hquote hmark =>
    rw [(List.cons.inj ht).1, hmark] at hc
    cases hc

theorem of_mark {c : Char} {s : Text} (hquote : c ≠ '"') (hc : isNameChar c = false)
    (h : FirstToken (c :: s) k rest) : k = .mark c ∧ rest = s := by
  generalize ht : c :: s = t at h
  cases h with
  | literal | openLiteral => exact absurd (List.cons.inj ht).1 hquote
  | @word letters rest hne hletters =>
    obtain ⟨d, ds, rfl⟩ := List.exists_cons_of_ne_nil hne
    rw [(List.cons.inj ht).1, hletters d (List.mem_cons_self ..)] at hc
    cases hc
  | mark =>
    obtain ⟨rfl, rfl⟩ := List.cons.inj ht
    exact ⟨rfl, rfl⟩

/-- **The first token is determined.** -/
theorem unique (h : FirstToken t k rest) {k' : Token} {rest' : Text} (h' : FirstToken t k' rest') :
    k' = k ∧ rest' = rest := by
  obtain ⟨c, s, rfl⟩ := List.exists_cons_of_ne_nil h.ne_nil
  by_cases hquote : c = '"'
  · subst hquote
    obtain ⟨body, stop, rfl, hbody, hends⟩ := h.of_quote
    obtain ⟨body', stop', hs, hbody', hends'⟩ := h'.of_quote
    have hstop : EndsBody stop := by
      rcases hends with ⟨rfl, -⟩ | ⟨hback, -⟩
      · exact .quote rest
      · exact .of_back hback
    have hstop' : EndsBody stop' := by
      rcases hends' with ⟨rfl, -⟩ | ⟨hback, -⟩
      · exact .quote rest'
      · exact .of_back hback
    obtain ⟨rfl, rfl⟩ := hbody.unique hstop hbody' hstop' hs
    rcases hends with ⟨rfl, rfl⟩ | ⟨hback, rfl, rfl⟩ <;> rcases hends' with ⟨heq, rfl⟩ | ⟨hback', rfl, rfl⟩
    · exact ⟨rfl, (List.cons.inj heq).2.symm⟩
    · simp at hback'
    · simp [heq] at hback
    · exact ⟨rfl, rfl⟩
  · cases hc : isNameChar c with
    | true =>
      obtain ⟨rfl, rfl⟩ := h.of_name hc
      exact h'.of_name hc
    | false =>
      obtain ⟨rfl, rfl⟩ := h.of_mark hquote hc
      exact h'.of_mark hquote hc

end FirstToken

theorem exists_firstToken {t : Text} (h : t ≠ []) : ∃ k rest, FirstToken t k rest := by
  obtain ⟨c, s, rfl⟩ := List.exists_cons_of_ne_nil h
  by_cases hquote : c = '"'
  · obtain ⟨body, stop, rfl, hbody, hstop⟩ := exists_literalBody s
    rw [hquote]
    rcases hstop with hback | hback | hhead
    · exact ⟨_, _, .openLiteral hbody (.inl hback)⟩
    · exact ⟨_, _, .openLiteral hbody (.inr hback)⟩
    · obtain ⟨rest, rfl⟩ := List.head?_eq_some_iff.1 hhead
      exact ⟨_, _, .literal hbody⟩
  · cases hc : isNameChar c with
    | true =>
      obtain ⟨word, more, hword, hletters, hmore⟩ := exists_word (c :: s)
      have hne : word ≠ [] := by
        rintro rfl
        rw [List.nil_append] at hword
        simp [← hword, hc] at hmore
      rw [hword]
      exact ⟨_, _, .word hne hletters hmore⟩
    | false => exact ⟨_, _, .mark hquote hc⟩

/-! ### All tokens -/

/-- **An expression is cut into tokens in one way only.** -/
theorem Cut.unique {t : Text} {ks : List Token} (h : Cut t ks) : ∀ {ks' : List Token}, Cut t ks' → ks' = ks := by
  induction h with
  | nil =>
    intro ks' h'
    cases h' with
    | nil => rfl
    | cons hk => exact absurd rfl hk.ne_nil
  | cons hk _ ih =>
    intro ks' h'
    cases h' with
    | nil => exact absurd rfl hk.ne_nil
    | cons hk' h' =>
      obtain ⟨rfl, rfl⟩ := hk.unique hk'
      rw [ih h']

theorem exists_cut (t : Text) : ∃ ks, Cut t ks := by
  induction hlength : t.length using Nat.strong_induction_on generalizing t with
  | _ n ih =>
    by_cases ht : t = []
    · exact ⟨[], ht ▸ .nil⟩
    · obtain ⟨k, rest, hk⟩ := exists_firstToken ht
      have hshorter : rest.length < n := by
        have hpos := List.length_pos_iff.2 hk.text_ne_nil
        rw [← hlength, hk.eq_text, List.length_append]
        omega
      obtain ⟨ks, hks⟩ := ih rest.length hshorter rest rfl
      exact ⟨k :: ks, .cons hk hks⟩

theorem Cut.flatMap_text {t : Text} {ks : List Token} (h : Cut t ks) : ks.flatMap Token.text = t := by
  induction h with
  | nil => rfl
  | cons hk _ ih => rw [List.flatMap_cons, ih, ← hk.eq_text]

/-! ### The translation -/

/-- The body of a literal is copied, and the reader stays inside. -/
theorem LiteralBody.translateFrom_append {body : Text} (h : LiteralBody body) (t : Text) :
    translateFrom .inside [] (body ++ t) = body ++ translateFrom .inside [] t ∧
      Quote.after .inside (body ++ t) = Quote.after .inside t := by
  induction h with
  | nil => exact ⟨rfl, rfl⟩
  | @plain c body hquote hescape _ ih =>
    have hnext : Quote.next .inside c = .inside := by simp [Quote.next, hquote, hescape]
    rw [List.cons_append, translateFrom_inside (q := .inside) (by decide), hnext, ih.1,
      Quote.after_cons, hnext, ih.2]
    exact ⟨rfl, rfl⟩
  | @escaped c body _ ih =>
    have hnext : Quote.next .inside '\\' = .escaped := rfl
    have hnext' : Quote.next .escaped c = .inside := rfl
    rw [List.cons_append, List.cons_append, translateFrom_inside (q := .inside) (by decide), hnext,
      translateFrom_inside (q := .escaped) (by decide), hnext', ih.1, Quote.after_cons, hnext,
      Quote.after_cons, hnext', ih.2]
    exact ⟨rfl, rfl⟩

/-- **The first token is translated by itself.** A literal that is left open
keeps the reader inside. -/
theorem FirstToken.translateFrom_eq {t rest : Text} {k : Token} (h : FirstToken t k rest) :
    translateFrom .outside [] t = k.translation ++ translateFrom .outside [] rest ∧
      isClosed t = (!k.isOpen && isClosed rest) := by
  have hquote : isNameChar '"' = false := by decide
  have hopens : Quote.next .outside '"' = .inside := rfl
  have hcloses : Quote.next .inside '"' = .outside := rfl
  cases h with
  | @literal body _ hbody =>
    obtain ⟨hcopy, hafter⟩ := hbody.translateFrom_append ('"' :: rest)
    refine ⟨?_, ?_⟩
    · rw [translateFrom_outside hquote, substitute_nil, hopens, hcopy,
        translateFrom_inside (q := .inside) (by decide), hcloses]
      simp [Token.translation, Token.text]
    · have hall : Quote.after .outside ('"' :: (body ++ '"' :: rest)) = Quote.after .outside rest := hafter
      rw [isClosed, hall]
      rfl
  | @openLiteral body back hbody hback =>
    obtain ⟨hcopy, hafter⟩ := hbody.translateFrom_append back
    have hback' : translateFrom .inside [] back = back ∧ Quote.after .inside back ≠ .outside := by
      rcases hback with rfl | rfl <;> decide
    refine ⟨?_, ?_⟩
    · rw [translateFrom_outside hquote, substitute_nil, hopens, hcopy, hback'.1]
      simp [Token.translation, Token.text, translateFrom, substitute_nil]
    · have hall : Quote.after .outside ('"' :: (body ++ back)) = Quote.after .inside back := hafter
      rw [isClosed, hall]
      simpa [Token.isOpen] using hback'.2
  | @word letters _ hne hletters hrest =>
    have hafter : Quote.after .outside letters = .outside := by
      have hword := Quote.after_word [] hletters
      rwa [List.append_nil] at hword
    refine ⟨?_, ?_⟩
    · rw [translateFrom_append hrest, hafter, translateFrom_name hletters, Token.translation_word]
    · rw [isClosed, Quote.after_word rest hletters]
      rfl
  | @mark c _ hmark hc =>
    have hnext : Quote.next .outside c = .outside := by simp [Quote.next, hmark]
    refine ⟨?_, ?_⟩
    · rw [translateFrom_outside hc, substitute_nil, hnext]
      rfl
    · rw [isClosed, Quote.after_cons, hnext]
      rfl

/-- **The translation goes token by token.** -/
theorem Cut.translateFrom_eq {t : Text} {ks : List Token} (h : Cut t ks) :
    translateFrom .outside [] t = ks.flatMap Token.translation ∧ isClosed t = !ks.any Token.isOpen := by
  induction h with
  | nil => decide
  | @cons t rest k ks hk _ ih =>
    obtain ⟨htranslate, hclosed⟩ := hk.translateFrom_eq
    rw [htranslate, hclosed, ih.1, ih.2, List.flatMap_cons, List.any_cons, Bool.not_or]
    exact ⟨rfl, rfl⟩

/-- Only the last token can be left open. -/
theorem Cut.any_isOpen {t : Text} {ks : List Token} (h : Cut t ks) :
    ks.any Token.isOpen = ks.getLast?.any Token.isOpen := by
  induction h with
  | nil => rfl
  | @cons t rest k ks hk h ih =>
    cases h with
    | nil => simp
    | @cons _ rest' k' ks' hk' _ =>
      have hclosed : k.isOpen = false := by
        cases hk with
        | openLiteral => exact absurd rfl hk'.ne_nil
        | literal | word | mark => rfl
      rw [List.any_cons, hclosed, Bool.false_or, ih, List.getLast?_cons_cons]

/-- The translations of tokens, one after the other, unless the last token is
left open. -/
def assembled (ks : List Token) : Option Text :=
  if ks.getLast?.any Token.isOpen then none else some (ks.flatMap Token.translation)

theorem Cut.translate?_eq {t : Text} {ks : List Token} (h : Cut t ks) : translate? t = assembled ks := by
  obtain ⟨htranslate, hclosed⟩ := h.translateFrom_eq
  rw [translate?, assembled, htranslate, hclosed, h.any_isOpen]
  cases ks.getLast?.any Token.isOpen <;> rfl

/-- **An expression is translated token by token.** It is cut into literals,
words and single characters in one way only. If the last token is a literal
that is left open, this is reported with the expression; otherwise the
translation is that of the tokens, one after the other. A translation that goes
place by place yields the same. -/
theorem translation_by_tokens (t : Text) :
    ∃ ks, (Cut t ks ∧ ∀ ks', Cut t ks' → ks' = ks) ∧ ks.flatMap Token.text = t ∧
      translate? t = assembled ks ∧ translateBySlices? t = some (assembled ks) ∧
      ∀ line, translateOn line t =
        match assembled ks with
        | some e => .ok e
        | none => .error [⟨line, .unterminatedString t⟩] := by
  obtain ⟨ks, hks⟩ := exists_cut t
  have htranslate := hks.translate?_eq
  refine ⟨ks, ⟨hks, fun ks' => hks.unique⟩, hks.flatMap_text, htranslate, ?_, fun line => ?_⟩
  · rw [translateBySlices?_eq, htranslate]
  · rw [translateOn, htranslate]
    rfl

example : assembled [.word "not", .mark ' ', .literal "or \\\" and", .mark '=', .mark '=', .word "True_"] =
    some "! \"or \\\" and\"==True_" := by
  decide

end Offside

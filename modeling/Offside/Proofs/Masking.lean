/-
# Masks keep every place

A mask shows each character of its text or a space for it, so that what is found
at a place of the mask is cut out of the text at the same place. This module
says which characters show: all but those between the quotes of a literal,
where the literals are those of the only cut of the text into tokens
(`Cut.mask_eq`). A mask is its own mask (`mask_mask`), and what follows closed
literals is masked by itself. Hence a mark that shows, and is neither a space
nor a quote, parts the mask into the masks of the two parts of the text, with no
literal open between them (`mask_eq_append_iff`).

Key definitions: `Standing`, `Token.standings`, `MaskedInPlace`.
Key theorems: `Cut.mask_eq`, `mask_mask`, `mask_eq_append_iff`,
`masking_exact`.
-/
import Offside.Proofs.Sides
import Offside.Proofs.Tokens

namespace Offside

/-! ### Standings -/

/-- Where a character stands with respect to the literals of a text. -/
inductive Standing where
  /-- In no literal. -/
  | outside
  /-- The quote that opens a literal. -/
  | opening
  /-- After the opening quote of a literal, and before its closing one if it has
  one. -/
  | inside
  /-- The quote that closes a literal. -/
  | closing
  deriving DecidableEq, Repr

namespace Standing

/-- Whether a character can stand so. Inside a literal a quote can, after a
backslash. -/
def Admits (p : Standing) (c : Char) : Prop :=
  match p with
  | outside => c ≠ '"'
  | opening => c = '"'
  | inside => True
  | closing => c = '"'

/-- A character that stands so, as a mask shows it. -/
def shown (p : Standing) (c : Char) : Char := if p = inside then ' ' else c

end Standing

/-- How the characters of a token stand. -/
def Token.standings : Token → List Standing
  | literal body => .opening :: (List.replicate body.length .inside ++ [.closing])
  | openLiteral body => .opening :: List.replicate body.length .inside
  | word letters => List.replicate letters.length .outside
  | mark _ => [.outside]

/-- Place by place, how the characters of a text stand and what its mask shows of
them. -/
inductive ShownAt : List Standing → Text → Text → Prop where
  | nil : ShownAt [] [] []
  | cons {p : Standing} {c : Char} {ps : List Standing} {t m : Text} (hp : p.Admits c) (h : ShownAt ps t m) :
    ShownAt (p :: ps) (c :: t) (p.shown c :: m)

namespace ShownAt

theorem append {ps qs : List Standing} {s t m n : Text} (h : ShownAt ps s m) (h' : ShownAt qs t n) :
    ShownAt (ps ++ qs) (s ++ t) (m ++ n) := by
  induction h with
  | nil => exact h'
  | cons hp _ ih => exact .cons hp ih

theorem same {p : Standing} : ∀ {t : Text}, (∀ c ∈ t, p.Admits c) →
    ShownAt (List.replicate t.length p) t (t.map p.shown)
  | [], _ => .nil
  | c :: t, h => by
    obtain ⟨hc, ht⟩ := List.forall_mem_cons.1 h
    exact .cons hc (same ht)

/-- What the mask has for a character is said by how that character stands. -/
theorem getElem? {ps : List Standing} {t m : Text} (h : ShownAt ps t m) : ∀ {i : Nat} {c : Char},
    t[i]? = some c → ∃ p, ps[i]? = some p ∧ p.Admits c ∧ m[i]? = some (p.shown c) := by
  induction h with
  | nil =>
    intro i c hc
    simp at hc
  | @cons p d ps t m hp _ ih =>
    intro i c hc
    cases i with
    | zero =>
      obtain rfl : d = c := by simpa using hc
      exact ⟨p, rfl, hp, rfl⟩
    | succ i => exact ih hc

end ShownAt

/-! ### What shows -/

theorem LiteralBody.maskFrom_append {body : Text} (h : LiteralBody body) (t : Text) :
    maskFrom .inside (body ++ t) = body.map Standing.inside.shown ++ maskFrom .inside t := by
  induction h with
  | nil => rfl
  | @plain c body hquote hescape _ ih =>
    have hnext : Quote.next .inside c = .inside := by simp [Quote.next, hquote, hescape]
    have hmasked : Quote.masked .inside c = ' ' := by simp [Quote.masked, Quote.shows, hquote]
    rw [List.cons_append, maskFrom_cons, hnext, hmasked, ih]
    rfl
  | escaped _ ih => exact congrArg (' ' :: ' ' :: ·) ih

theorem maskFrom_of_not_mem : ∀ {s : Text}, '"' ∉ s → ∀ t, maskFrom .outside (s ++ t) = s ++ maskFrom .outside t
  | [], _, _ => rfl
  | c :: s, h, t => by
    rw [List.mem_cons, not_or] at h
    have hnext : Quote.next .outside c = .outside := by simp [Quote.next, Ne.symm h.1]
    rw [List.cons_append, maskFrom_cons, hnext, maskFrom_of_not_mem h.2 t]
    rfl

theorem Standing.map_shown_outside (t : Text) : t.map Standing.outside.shown = t := List.map_id t

/-- **A mask shows the first token by itself.** -/
theorem FirstToken.mask_eq {t rest : Text} {k : Token} (h : FirstToken t k rest) :
    ∃ front, mask t = front ++ mask rest ∧ ShownAt k.standings k.text front := by
  have hclosing : ShownAt [.closing] ['"'] ['"'] := .cons rfl .nil
  cases h with
  | @literal body _ hbody =>
    refine ⟨'"' :: (body.map Standing.inside.shown ++ ['"']), ?_, ?_⟩
    · show '"' :: maskFrom .inside (body ++ '"' :: rest) = _
      rw [hbody.maskFrom_append, List.cons_append, List.append_assoc]
      rfl
    · exact .cons rfl ((ShownAt.same (p := .inside) fun _ _ => trivial).append hclosing)
  | @openLiteral body back hbody hback =>
    refine ⟨'"' :: (body ++ back).map Standing.inside.shown, ?_, .cons rfl (ShownAt.same fun _ _ => trivial)⟩
    have hend : maskFrom .inside back = back.map Standing.inside.shown := by
      rcases hback with rfl | rfl <;> rfl
    show '"' :: maskFrom .inside (body ++ back) = _
    rw [hbody.maskFrom_append, hend, List.map_append]
    exact (List.append_nil _).symm
  | @word letters _ _ hletters =>
    have hquotes : ∀ c ∈ letters, c ≠ '"' := fun c hc => ne_quote_of_isNameChar (hletters c hc)
    refine ⟨letters, maskFrom_of_not_mem (fun hmem => hquotes _ hmem rfl) rest, ?_⟩
    have hshown := ShownAt.same (p := .outside) hquotes
    rwa [Standing.map_shown_outside] at hshown
  | @mark c _ hquote =>
    refine ⟨[c], maskFrom_of_not_mem (s := [c]) (by simpa using Ne.symm hquote) rest, .cons hquote .nil⟩

/-- **A mask shows all but what is inside the literals.** -/
theorem Cut.mask_eq {t : Text} {ks : List Token} (h : Cut t ks) : ShownAt (ks.flatMap Token.standings) t (mask t) := by
  induction h with
  | nil => exact .nil
  | cons hk _ ih =>
    obtain ⟨front, hmask, hfront⟩ := hk.mask_eq
    rw [hmask, List.flatMap_cons, hk.eq_text]
    exact hfront.append ih

/-! ### Masks of masks -/

/-- Where a reader of the mask stands while one of the text stands at `q`: the
mask has no backslashes inside literals. -/
def Quote.ofMask (q : Quote) : Quote := if q = .escaped then .inside else q

/-- A character of the mask takes its reader as the character of the text does,
and shows as it is. -/
theorem Quote.ofMask_next (q : Quote) (c : Char) :
    q.ofMask.next (q.masked c) = (q.next c).ofMask ∧ q.ofMask.masked (q.masked c) = q.masked c := by
  cases q with
  | outside => by_cases hc : c = '"' <;> simp [Quote.ofMask, Quote.next, Quote.masked, Quote.shows, hc]
  | inside =>
    by_cases hc : c = '"'
    · simp [Quote.ofMask, Quote.next, Quote.masked, Quote.shows, hc]
    · by_cases hb : c = '\\' <;> simp [Quote.ofMask, Quote.next, Quote.masked, Quote.shows, hc, hb]
  | escaped => simp [Quote.ofMask, Quote.next, Quote.masked, Quote.shows]

theorem maskFrom_maskFrom : ∀ (q : Quote) (t : Text), maskFrom q.ofMask (maskFrom q t) = maskFrom q t
  | _, [] => rfl
  | q, c :: cs => by
    obtain ⟨hnext, hmasked⟩ := q.ofMask_next c
    rw [maskFrom_cons, maskFrom_cons, hnext, hmasked, maskFrom_maskFrom (q.next c) cs]

/-- **A mask is its own mask.** -/
theorem mask_mask (t : Text) : mask (mask t) = mask t := maskFrom_maskFrom .outside t

/-! ### Cuts at what a mask shows -/

theorem mask_append {s : Text} (h : isClosed s = true) (t : Text) : mask (s ++ t) = mask s ++ mask t := by
  rw [isClosed, beq_iff_eq] at h
  rw [mask, maskFrom_append, h]
  rfl

theorem exists_of_maskFrom_eq_append {m : Char} (hspace : ' ' ≠ m) (hquote : '"' ≠ m) {back : Text} :
    ∀ {q : Quote} {front t : Text}, maskFrom q t = front ++ m :: back →
      ∃ before after, t = before ++ m :: after ∧ q.after before = .outside ∧ maskFrom q before = front ∧
        maskFrom .outside after = back
  | _, front, [], h => by
    have hnil : front ++ m :: back = [] := h.symm
    simp at hnil
  | q, [], c :: cs, h => by
    obtain ⟨hm, hback⟩ := List.cons.inj h
    obtain ⟨rfl, rfl⟩ := (Quote.masked_eq_iff hspace hquote).1 hm
    have hnext : Quote.next .outside c = .outside := by simp [Quote.next, Ne.symm hquote]
    rw [hnext] at hback
    exact ⟨[], cs, rfl, rfl, rfl, hback⟩
  | q, d :: front, c :: cs, h => by
    obtain ⟨rfl, hmore⟩ := List.cons.inj h
    obtain ⟨before, after, rfl, hclosed, rfl, hback⟩ := exists_of_maskFrom_eq_append hspace hquote hmore
    exact ⟨c :: before, after, rfl, hclosed, rfl, hback⟩

/-- **A mark that shows parts the mask where it parts the text**, and no literal
is open there. -/
theorem mask_eq_append_iff {m : Char} (hspace : ' ' ≠ m) (hquote : '"' ≠ m) {t front back : Text} :
    mask t = front ++ m :: back ↔
      ∃ before after, t = before ++ m :: after ∧ isClosed before = true ∧ mask before = front ∧
        mask after = back := by
  constructor
  · intro h
    obtain ⟨before, after, ht, hclosed, hfront, hback⟩ := exists_of_maskFrom_eq_append hspace hquote h
    exact ⟨before, after, ht, beq_iff_eq.2 hclosed, hfront, hback⟩
  · rintro ⟨before, after, rfl, hclosed, rfl, rfl⟩
    have hmark : mask (m :: after) = m :: mask after := by
      show maskFrom .outside ([m] ++ after) = _
      rw [maskFrom_of_not_mem (by simpa using hquote)]
      rfl
    rw [mask_append hclosed, hmark]

/-- What a mask says of its text `t`, which is cut into the tokens `ks`. -/
structure MaskedInPlace (t : Text) (ks : List Token) : Prop where
  /-- A mask is as long as its text. -/
  length : (mask t).length = t.length
  /-- Outside the literals and at the quotes around them a mask has the
  character of the text, and inside them a space. -/
  standings : ∀ (i : Nat) (c : Char), t[i]? = some c →
    ∃ p : Standing, (ks.flatMap Token.standings)[i]? = some p ∧ p.Admits c ∧
      (mask t)[i]? = some (if p = .inside then ' ' else c)
  /-- A mask is its own mask. -/
  again : mask (mask t) = mask t
  /-- If every literal is closed, what comes after the text is masked by
  itself. -/
  append : (∀ k ∈ ks, k.isOpen = false) → ∀ u, mask (t ++ u) = mask t ++ mask u
  /-- A mark that is found in a mask is in the text at the same place. No literal
  is open there, and the text is cut there into parts with the masks that the
  mask is cut into. -/
  cut : ∀ (i : Nat) (m : Char), m ≠ ' ' → m ≠ '"' → (mask t)[i]? = some m →
    t[i]? = some m ∧ isClosed (t.take i) = true ∧ mask (t.take i) = (mask t).take i ∧
      mask (t.drop (i + 1)) = (mask t).drop (i + 1)
  /-- Argument lists and assignments that are cut at the places of such marks
  come apart as they do character by character. -/
  arguments : splitBySlices? t = some (splitArguments t)
  assignment : Assignment.bySlices? t = some (Assignment.ofText? t)

/-- **Masking is exact, place by place**, for the only cut of a text into
tokens. -/
theorem masking_exact (t : Text) :
    ∃ ks, (Cut t ks ∧ ∀ ks', Cut t ks' → ks' = ks) ∧ MaskedInPlace t ks := by
  obtain ⟨ks, hks⟩ := exists_cut t
  have hlength : (mask t).length = t.length := maskFrom_length .outside t
  refine ⟨ks, ⟨hks, fun ks' => hks.unique⟩, ?_⟩
  refine ⟨hlength, fun i c hc => hks.mask_eq.getElem? hc, mask_mask t, ?_, ?_, splitBySlices?_eq t,
    Assignment.bySlices?_eq t⟩
  · intro hopen u
    refine mask_append ?_ u
    rw [hks.translateFrom_eq.2, Bool.not_eq_true', List.any_eq_false]
    intro k hk
    simp [hopen k hk]
  · intro i m hspace hquote hm
    obtain ⟨hi, hget⟩ := List.getElem?_eq_some_iff.1 hm
    have hparts : mask t = (mask t).take i ++ m :: (mask t).drop (i + 1) := by
      rw [← hget, List.getElem_cons_drop, List.take_append_drop]
    obtain ⟨before, after, rfl, hclosed, hfront, hback⟩ :=
      (mask_eq_append_iff (Ne.symm hspace) (Ne.symm hquote)).1 hparts
    -- the part before the mark is as long as its mask
    have hplace : before.length = i := by
      rw [← maskFrom_length .outside before, ← mask, hfront, List.length_take]
      omega
    subst hplace
    simp [hclosed, hfront, hback]

example : mask "f(\"a, \\\"b\", c) + \"d" = "f(\"      \", c) + \" " := by decide

end Offside

/-
# Arguments joined again

The pieces of an argument list are the texts between its top-level commas: none
of them has such a comma itself, all but the last end in no literal and no
bracket, and with the commas between them they make up the list again. These
laws determine them (`splitAtCommas_eq_iff`). White space around a piece
changes none of this, so the trimmed pieces, joined by a comma and a space, are
the arguments of what they make up (`splitArguments_join`).

Key definitions: `meetsComma`, `Nesting.Uncut`, `IsPiece`, `Separated`.
Key theorems: `splitAtCommas_append`, `splitAtCommas_eq_iff`,
`splitArguments_join`, `splitArguments_intercalate`, `arguments_rejoined`.
-/
import Offside.Proofs.Splitting

namespace Offside

/-! ### Texts without a top-level comma -/

/-- Whether a reader of a masked text, with `depth` brackets open, meets a
comma while none is open. -/
def meetsComma (depth : Nat) : Text → Bool
  | [] => false
  | c :: cs => c == ',' && depth == 0 || meetsComma (bracketDepth depth c) cs

/-- A text that holds no top-level comma, and ends in no literal and in no
bracket. -/
structure IsPiece (p : Text) : Prop where
  uncut : meetsComma 0 (mask p) = false
  balanced : (mask p).foldl bracketDepth 0 = 0
  closed : isClosed p = true

instance (p : Text) : Decidable (IsPiece p) :=
  decidable_of_iff (meetsComma 0 (mask p) = false ∧ (mask p).foldl bracketDepth 0 = 0 ∧ isClosed p = true)
    ⟨fun ⟨h, hb, hc⟩ => ⟨h, hb, hc⟩, fun h => ⟨h.uncut, h.balanced, h.closed⟩⟩

namespace Nesting

/-- A text, read from `n` on, has no top-level comma. -/
def Uncut (n : Nesting) (t : Text) : Prop := meetsComma n.depth (maskFrom n.quote t) = false

variable {n : Nesting}

theorem uncut_nil : n.Uncut [] := rfl

theorem uncut_cons {c : Char} {cs : Text} :
    n.Uncut (c :: cs) ↔ (n.atTop && c == ',') = false ∧ (n.next c).Uncut cs := by
  have hcomma : (n.quote.masked c == ',' && n.depth == 0) = (n.atTop && c == ',') := by
    rw [Bool.eq_iff_iff, atTop_and_eq_iff (by decide) (by decide)]
    simp
  have hquote : (n.next c).quote = n.quote.next c := rfl
  rw [Uncut, maskFrom_cons, meetsComma, Bool.or_eq_false_iff, hcomma, depth_next, Uncut, hquote]

theorem uncut_append {t : Text} : ∀ {s : Text} {n : Nesting},
    n.Uncut (s ++ t) ↔ n.Uncut s ∧ (n.after s).Uncut t
  | [], n => by
    rw [List.nil_append]
    exact (and_iff_right uncut_nil).symm
  | c :: cs, n => by
    have hafter : n.after (c :: cs) = (n.next c).after cs := rfl
    rw [List.cons_append, uncut_cons, uncut_cons, uncut_append, hafter, and_assoc]

theorem depth_after : ∀ (t : Text) (n : Nesting),
    (n.after t).depth = (maskFrom n.quote t).foldl bracketDepth n.depth
  | [], _ => rfl
  | c :: cs, n => by
    have hafter : n.after (c :: cs) = (n.next c).after cs := rfl
    rw [hafter, depth_after cs, maskFrom_cons, List.foldl_cons, depth_next]
    rfl

end Nesting

theorem isPiece_iff (p : Text) : IsPiece p ↔ Nesting.Uncut {} p ∧ Nesting.after {} p = {} := by
  have hdepth : (Nesting.after {} p).depth = (mask p).foldl bracketDepth 0 := Nesting.depth_after p {}
  have hquote : (Nesting.after {} p).quote = Quote.after .outside p := Nesting.after_quote {} p
  have hends : Nesting.after {} p = {} ↔ Quote.after .outside p = .outside ∧
      (mask p).foldl bracketDepth 0 = 0 := by
    rw [← hdepth, ← hquote]
    cases Nesting.after {} p
    simp
  rw [hends]
  constructor
  · rintro ⟨huncut, hbalanced, hclosed⟩
    exact ⟨huncut, by simpa [isClosed] using hclosed, hbalanced⟩
  · rintro ⟨huncut, hclosed, hbalanced⟩
    exact ⟨huncut, hbalanced, by simpa [isClosed] using hclosed⟩

/-! ### The pieces of a text -/

/-- Texts that a reader, from `n` on, finds between top-level commas: no such
comma is in one of them, and each ends at the top if a comma follows it. -/
def Separated : Nesting → List Text → Prop
  | _, [] => False
  | n, [p] => n.Uncut p
  | n, p :: q :: ps => n.Uncut p ∧ n.after p = {} ∧ Separated {} (q :: ps)

/-- A text without a top-level comma belongs to the first piece. -/
theorem splitAtCommas_append (t : Text) : ∀ {s : Text} {n : Nesting}, n.Uncut s →
    splitAtCommas n (s ++ t) = (splitAtCommas (n.after s) t).modifyHead (s ++ ·)
  | [], n, _ => by
    have hafter : n.after [] = n := rfl
    rw [List.nil_append, hafter]
    cases splitAtCommas n t <;> rfl
  | c :: cs, n, h => by
    obtain ⟨hc, hcs⟩ := Nesting.uncut_cons.1 h
    have hafter : n.after (c :: cs) = (n.next c).after cs := rfl
    rw [List.cons_append, splitAtCommas_cons hc, splitAtCommas_append t hcs, hafter, List.modifyHead_modifyHead]
    rfl

theorem splitAtCommas_intercalate : ∀ {ps : List Text} {n : Nesting}, Separated n ps →
    splitAtCommas n (List.intercalate [','] ps) = ps
  | [], _, h => h.elim
  | [p], n, h => by
    have hone := splitAtCommas_append [] (show n.Uncut p from h)
    rw [List.append_nil] at hone
    rw [List.intercalate_singleton, hone]
    simp [splitAtCommas]
  | p :: q :: ps, n, h => by
    obtain ⟨huncut, htop, hmore⟩ := h
    have hcomma : splitAtCommas {} (',' :: List.intercalate [','] (q :: ps)) = [] :: q :: ps := by
      rw [splitAtCommas, splitAtCommas_intercalate hmore]
      rfl
    rw [List.intercalate_cons_cons, List.append_assoc, List.singleton_append, splitAtCommas_append _ huncut,
      htop, hcomma, List.modifyHead_cons, List.append_nil]

/-- A character that is no top-level comma may come before the first piece. -/
theorem Separated.cons {n : Nesting} {c : Char} {p : Text} {ps : List Text}
    (hc : (n.atTop && c == ',') = false) (h : Separated (n.next c) (p :: ps)) :
    Separated n ((c :: p) :: ps) := by
  cases ps with
  | nil => exact Nesting.uncut_cons.2 ⟨hc, h⟩
  | cons q ps =>
    obtain ⟨huncut, htop, hmore⟩ := h
    exact ⟨Nesting.uncut_cons.2 ⟨hc, huncut⟩, htop, hmore⟩

theorem intercalate_cons_head (sep : Text) (c : Char) (p : Text) (ps : List Text) :
    List.intercalate sep ((c :: p) :: ps) = c :: List.intercalate sep (p :: ps) := by
  cases ps with
  | nil => rw [List.intercalate_singleton, List.intercalate_singleton]
  | cons q ps => rw [List.intercalate_cons_cons, List.intercalate_cons_cons]; rfl

theorem separated_splitAtCommas : ∀ (t : Text) (n : Nesting),
    Separated n (splitAtCommas n t) ∧ List.intercalate [','] (splitAtCommas n t) = t
  | [], _ => ⟨Nesting.uncut_nil, rfl⟩
  | c :: cs, n => by
    by_cases hcomma : (n.atTop && c == ',') = true
    · -- at a top-level comma the reader stands as at the start
      obtain ⟨rfl, rfl⟩ : n = {} ∧ c = ',' := by
        obtain ⟨q, depth⟩ := n
        simpa [Nesting.atTop] using hcomma
      obtain ⟨hsep, hjoin⟩ := separated_splitAtCommas cs {}
      obtain ⟨p, ps, hpieces⟩ := List.exists_cons_of_ne_nil (splitAtCommas_ne_nil {} cs)
      rw [hpieces] at hsep hjoin
      rw [splitAtCommas, if_pos hcomma, hpieces]
      refine ⟨⟨Nesting.uncut_nil, rfl, hsep⟩, ?_⟩
      rw [List.intercalate_cons_cons, hjoin]
      rfl
    · rw [Bool.not_eq_true] at hcomma
      obtain ⟨hsep, hjoin⟩ := separated_splitAtCommas cs (n.next c)
      obtain ⟨p, ps, hpieces⟩ := List.exists_cons_of_ne_nil (splitAtCommas_ne_nil (n.next c) cs)
      rw [hpieces] at hsep hjoin
      rw [splitAtCommas_cons hcomma, hpieces, List.modifyHead_cons, intercalate_cons_head, hjoin]
      exact ⟨hsep.cons hcomma, rfl⟩

/-- **The pieces of a text are the texts between its top-level commas.** -/
theorem splitAtCommas_eq_iff {n : Nesting} {t : Text} {ps : List Text} :
    splitAtCommas n t = ps ↔ Separated n ps ∧ List.intercalate [','] ps = t := by
  constructor
  · rintro rfl
    exact separated_splitAtCommas t n
  · rintro ⟨hsep, rfl⟩
    exact splitAtCommas_intercalate hsep

/-! ### White space around pieces -/

theorem Nesting.after_neutral {n : Nesting} (hn : n.quote = .outside) : ∀ {s : Text},
    (∀ c ∈ s, isNeutral c = true) → n.after s = n ∧ n.Uncut s
  | [], _ => ⟨rfl, uncut_nil⟩
  | c :: cs, h => by
    obtain ⟨hc, hcs⟩ := List.forall_mem_cons.1 h
    obtain ⟨hafter, huncut⟩ := Nesting.after_neutral hn hcs
    have hnext : n.next c = n := next_of_isNeutral hn hc
    have hcomma : (n.atTop && c == ',') = false := by
      have hne : c ≠ ',' := by
        rintro rfl
        revert hc
        decide
      simp [hne]
    refine ⟨?_, uncut_cons.2 ⟨hcomma, by rwa [hnext]⟩⟩
    have hcons : n.after (c :: cs) = (n.next c).after cs := rfl
    rw [hcons, hnext, hafter]

theorem Nesting.after_blanks {n : Nesting} (hn : n.quote = .outside) {s : Text}
    (h : ∀ c ∈ s, isBlank c = true) : n.after s = n ∧ n.Uncut s :=
  Nesting.after_neutral hn fun c hc => isNeutral_of_isBlank (h c hc)

theorem Nesting.trim_spec (t : Text) : (Uncut {} t → Uncut {} (Text.trim t)) ∧
    (after {} t = {} → after {} (Text.trim t) = {}) := by
  obtain ⟨front, back, ht, hfront, hback⟩ := Text.exists_trim t
  obtain ⟨hstart, -⟩ := Nesting.after_blanks (n := {}) rfl hfront
  constructor
  · intro huncut
    rw [ht, List.append_assoc, uncut_append, hstart, uncut_append] at huncut
    exact huncut.2.1
  · intro htop
    rw [ht, List.append_assoc, after_append, hstart, after_append] at htop
    generalize after {} (Text.trim t) = m at htop ⊢
    -- white space does not lead out of a literal
    have hquote : m.quote.after back = .outside := by rw [← after_quote, htop]
    rwa [(Nesting.after_blanks ((Quote.after_blanks _ hback).1 hquote) hback).1] at htop

theorem Separated.map {f : Text → Text} (hf : ∀ t, Nesting.Uncut {} t → Nesting.Uncut {} (f t))
    (hf' : ∀ t, Nesting.after {} t = {} → Nesting.after {} (f t) = {}) : ∀ {ps : List Text},
    Separated {} ps → Separated {} (ps.map f)
  | [], h => h
  | [p], h => hf p h
  | p :: _ :: _, h => ⟨hf p h.1, hf' p h.2.1, Separated.map hf hf' h.2.2⟩

theorem Separated.uncut : ∀ {ps : List Text}, Separated {} ps → ∀ p ∈ ps, Nesting.Uncut {} p
  | [p], h, q, hq => by
    rw [List.mem_singleton] at hq
    rwa [hq]
  | p :: q :: ps, h, r, hr => by
    rcases List.mem_cons.1 hr with rfl | hr
    · exact h.1
    · exact Separated.uncut h.2.2 r hr

/-! ### Arguments -/

theorem intercalate_comma_space : ∀ (p : Text) (ps : List Text),
    List.intercalate ", " (p :: ps) = List.intercalate [','] (p :: ps.map (' ' :: ·))
  | p, [] => by rw [List.intercalate_singleton, List.map_nil, List.intercalate_singleton]
  | p, q :: ps => by
    have ih := intercalate_comma_space q ps
    rw [List.intercalate_cons_cons, ih, List.map_cons, List.intercalate_cons_cons, intercalate_cons_head]
    simp

/-- **Trimmed texts that are separated are the arguments of what they make
up**, with a comma and a space between them. -/
theorem splitArguments_join {p : Text} {ps : List Text} (hsep : Separated {} (p :: ps))
    (htrimmed : ∀ q ∈ p :: ps, Text.IsTrimmed q) (hne : ps = [] → p ≠ []) :
    splitArguments (List.intercalate ", " (p :: ps)) = p :: ps := by
  obtain ⟨hp, hps⟩ := List.forall_mem_cons.1 htrimmed
  have hspaced : Separated {} (p :: ps.map (' ' :: ·)) := by
    cases ps with
    | nil => exact hsep
    | cons q ps =>
      obtain ⟨huncut, htop, hmore⟩ := hsep
      have hspace : ∀ t, Nesting.Uncut {} t → Nesting.Uncut {} (' ' :: t) := fun t ht =>
        Nesting.uncut_cons.2 ⟨rfl, ht⟩
      exact ⟨huncut, htop, hmore.map hspace fun t ht => ht⟩
  have hpieces : splitAtCommas {} (List.intercalate ", " (p :: ps)) = p :: ps.map (' ' :: ·) := by
    rw [intercalate_comma_space]
    exact splitAtCommas_eq_iff.2 ⟨hspaced, rfl⟩
  have hsome : Text.trim (List.intercalate ", " (p :: ps)) ≠ [] := by
    rw [Ne, Text.trim_eq_nil_iff]
    intro hblank
    cases ps with
    | nil =>
      rw [List.intercalate_singleton, ← Text.trim_eq_nil_iff, Text.trim_eq_self hp] at hblank
      exact hne rfl hblank
    | cons q ps =>
      have hcomma := hblank ',' (by simp [List.intercalate_cons_cons])
      revert hcomma
      decide
  have htrim : ∀ q ∈ ps, Text.trim (' ' :: q) = q := by
    intro q hq
    have hspace : Text.trim ([' '] ++ q ++ []) = Text.trim q := Text.trim_append q (List.forall_mem_singleton.2 (by decide)) (by simp)
    rwa [List.append_nil, Text.trim_eq_self (hps q hq)] at hspace
  have hsame : (ps.map (' ' :: ·)).map Text.trim = ps := by
    rw [List.map_map]
    exact (List.map_congr_left htrim).trans (List.map_id ps)
  rw [splitArguments, if_neg hsome, hpieces, List.map_cons, hsame, Text.trim_eq_self hp]

theorem separated_of_isPiece : ∀ {p : Text} {ps : List Text}, (∀ q ∈ p :: ps, IsPiece q) →
    Separated {} (p :: ps)
  | p, [], h => ((isPiece_iff p).1 (h p (List.mem_cons_self ..))).1
  | p, q :: ps, h => by
    obtain ⟨hp, hps⟩ := List.forall_mem_cons.1 h
    obtain ⟨huncut, htop⟩ := (isPiece_iff p).1 hp
    exact ⟨huncut, htop, separated_of_isPiece hps⟩

/-- **Trimmed pieces that are not empty are the arguments of what they make up.** -/
theorem splitArguments_intercalate {ps : List Text} (h : ∀ p ∈ ps, p ≠ [] ∧ Text.IsTrimmed p ∧ IsPiece p) :
    splitArguments (List.intercalate ", " ps) = ps := by
  cases ps with
  | nil => rfl
  | cons p ps =>
    have hsep : Separated {} (p :: ps) := separated_of_isPiece fun q hq => (h q hq).2.2
    exact splitArguments_join hsep (fun q hq => (h q hq).2.1) fun _ => (h p (List.mem_cons_self ..)).1

/-- The trimmed pieces of a text that holds more than white space: they are
separated, and none is alone and empty. -/
theorem exists_trimmed {t : Text} (h : Text.trim t ≠ []) : ∃ p ps, splitArguments t = p :: ps ∧
    Separated {} (p :: ps) ∧ (∀ q ∈ p :: ps, Text.IsTrimmed q) ∧ (ps = [] → p ≠ []) := by
  obtain ⟨p, ps, hpieces⟩ := List.exists_cons_of_ne_nil (splitAtCommas_ne_nil {} t)
  obtain ⟨hsep, hjoin⟩ := splitAtCommas_eq_iff.1 hpieces
  have hsplit : splitArguments t = Text.trim p :: ps.map Text.trim := by
    rw [splitArguments, if_neg h, hpieces, List.map_cons]
  refine ⟨_, _, hsplit, hsep.map (fun t => (Nesting.trim_spec t).1) fun t => (Nesting.trim_spec t).2, ?_, ?_⟩
  · intro q hq
    obtain ⟨r, -, rfl⟩ := List.mem_map.1 (show q ∈ (p :: ps).map Text.trim from hq)
    exact Text.isTrimmed_trim r
  · intro hps
    rw [List.map_eq_nil_iff.1 hps, List.intercalate_singleton] at hjoin
    rwa [hjoin]

/-- **Splitting undoes joining and loses nothing.** Trimmed pieces that are not
empty are the arguments of what they make up, with a comma and a space between
them. The arguments of any list are trimmed; one that is not empty has itself
for its only argument; joined again they are the arguments as before. And
joined by commas alone they are the list without the white space at its ends
and beside its top-level commas. -/
theorem arguments_rejoined :
    (∀ ps : List Text, (∀ p ∈ ps, p ≠ [] ∧ Text.IsTrimmed p ∧ IsPiece p) →
      splitArguments (List.intercalate ", " ps) = ps ∧
        splitBySlices? (List.intercalate ", " ps) = some ps) ∧
    ∀ t : Text,
      (∀ p ∈ splitArguments t, Text.IsTrimmed p ∧ (p ≠ [] → splitArguments p = [p])) ∧
      splitArguments (List.intercalate ", " (splitArguments t)) = splitArguments t ∧
      ∃ pieces, (Separated {} pieces ∧ List.intercalate [','] pieces = t) ∧
        List.intercalate [','] (splitArguments t) = List.intercalate [','] (pieces.map Text.trim) := by
  refine ⟨fun ps hps => ?_, fun t => ⟨fun p hp => ?_, ?_, splitAtCommas {} t, splitAtCommas_eq_iff.1 rfl, ?_⟩⟩
  · have hjoin := splitArguments_intercalate hps
    exact ⟨hjoin, by rw [splitBySlices?_eq, hjoin]⟩
  · by_cases hblank : Text.trim t = []
    · rw [splitArguments, if_pos hblank] at hp
      exact absurd hp List.not_mem_nil
    · obtain ⟨q, qs, hsplit, hsep, htrimmed, -⟩ := exists_trimmed hblank
      rw [hsplit] at hp
      refine ⟨htrimmed p hp, fun hne => ?_⟩
      have halone : Separated {} [p] := hsep.uncut p hp
      have hone := splitArguments_join halone (by simpa using htrimmed p hp) fun _ => hne
      rwa [List.intercalate_singleton] at hone
  · by_cases hblank : Text.trim t = []
    · have hnone : splitArguments t = [] := if_pos hblank
      rw [hnone]
      rfl
    · obtain ⟨q, qs, hsplit, hsep, htrimmed, hne⟩ := exists_trimmed hblank
      rw [hsplit, splitArguments_join hsep htrimmed hne]
  · by_cases hblank : Text.trim t = []
    · -- white space is one piece, and none of it is left
      have hall := (Text.trim_eq_nil_iff t).1 hblank
      have halone : Separated {} [t] := (Nesting.after_blanks rfl hall).2
      have hone : splitAtCommas {} t = [t] := splitAtCommas_eq_iff.2 ⟨halone, List.intercalate_singleton ..⟩
      rw [splitArguments, if_pos hblank, hone, List.map_singleton, hblank]
      rfl
    · rw [splitArguments, if_neg hblank]

/-- Nested calls, a literal with a comma and a quote, brackets of two kinds that
count as one, and a closing bracket too many. -/
theorem arguments_rejoined_nested :
    (∀ p ∈ ["f(a, g(b))".toList, "\"x, \\\" y\"", "[1, 2)", "]c"], p ≠ [] ∧ Text.IsTrimmed p ∧ IsPiece p) ∧
      splitArguments "f(a, g(b)), \"x, \\\" y\", [1, 2), ]c" =
        ["f(a, g(b))", "\"x, \\\" y\"", "[1, 2)", "]c"] := by
  have hpieces : ∀ p ∈ ["f(a, g(b))".toList, "\"x, \\\" y\"", "[1, 2)", "]c"],
      p ≠ [] ∧ Text.IsTrimmed p ∧ IsPiece p := by decide +kernel
  exact ⟨hpieces, (arguments_rejoined.1 _ hpieces).1⟩

end Offside

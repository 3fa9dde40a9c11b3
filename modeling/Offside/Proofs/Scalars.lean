/-
# Strings and numbers in JSON

The inside of a string spells code units, each as a character, as an escape of
one letter or as four hexadecimal digits (`Spells`). A number has a whole part
and may have a sign, a fraction and an exponent (`IsNumber`). The readers
accept just these, and read a string up to its quote and a number as far as it
goes.

Key definitions: `Json.Spells`, `Json.IsNumber`, `Json.EndsNumber`.
Key theorems: `Json.readString?_append`, `Json.exists_spells`,
`Json.readNumber?_append`, `Json.eq_of_readNumber`.
-/
import Offside.Json.Read

namespace Offside
namespace Json

/-! ### Strings -/

/-- The code units that the inside of a string stands for. -/
inductive Spells : List Nat → Text → Prop where
  | nil : Spells [] []
  | plain {c : Char} {us : List Nat} {t : Text} (hc : c ≠ '"' ∧ c ≠ '\\' ∧ 0x20 ≤ c.toNat)
    (h : Spells us t) : Spells (c.toNat :: us) (c :: t)
  | letter {e : Char} {u : Nat} {us : List Nat} {t : Text} (hu : unescape? e = some u) (h : Spells us t) :
    Spells (u :: us) ('\\' :: e :: t)
  | unit {a b c d : Char} {u : Nat} {us : List Nat} {t : Text} (hu : hexUnit? a b c d = some u)
    (h : Spells us t) : Spells (u :: us) ('\\' :: 'u' :: a :: b :: c :: d :: t)

theorem readString?_plain {c : Char} (hc : c ≠ '"' ∧ c ≠ '\\' ∧ 0x20 ≤ c.toNat) (t : Text) :
    readString? (c :: t) = (readString? t).map fun (us, rest) => (c.toNat :: us, rest) := by
  obtain ⟨hquote, hslash, hprints⟩ := hc
  rw [readString?, if_neg (by omega)]
  · cases readString? t <;> rfl
  · exact hquote
  · exact fun _ _ _ _ _ h => absurd h hslash
  · exact fun _ _ h => absurd h hslash

theorem readString?_letter {e : Char} {u : Nat} (hu : unescape? e = some u) (t : Text) :
    readString? ('\\' :: e :: t) = (readString? t).map fun (us, rest) => (u :: us, rest) := by
  have hne : e ≠ 'u' := by
    rintro rfl
    cases hu
  rw [readString?, hu]
  · cases readString? t <;> rfl
  · exact fun _ _ _ _ _ h => absurd h hne

theorem readString?_unit {a b c d : Char} {u : Nat} (hu : hexUnit? a b c d = some u) (t : Text) :
    readString? ('\\' :: 'u' :: a :: b :: c :: d :: t) = (readString? t).map fun (us, rest) => (u :: us, rest) := by
  rw [readString?, hu]
  cases readString? t <;> rfl

theorem readString?_append {us : List Nat} {t : Text} (h : Spells us t) (rest : Text) :
    readString? (t ++ '"' :: rest) = some (us, rest) := by
  induction h with
  | nil => rfl
  | plain hc _ ih => rw [List.cons_append, readString?_plain hc, ih]; rfl
  | letter hu _ ih => rw [List.cons_append, List.cons_append, readString?_letter hu, ih]; rfl
  | unit hu _ ih => simp only [List.cons_append]; rw [readString?_unit hu, ih]; rfl

theorem exists_spells {t rest : Text} {us : List Nat} (h : readString? t = some (us, rest)) :
    ∃ s, t = s ++ '"' :: rest ∧ Spells us s := by
  fun_induction readString? t generalizing us rest with
  | case1 => cases h
  | case2 rest =>
    cases h
    exact ⟨[], rfl, .nil⟩
  | case3 a b c d rest ih =>
    obtain ⟨u, hu, h⟩ := Option.bind_eq_some_iff.1 h
    obtain ⟨⟨us, rest⟩, hrest, h⟩ := Option.bind_eq_some_iff.1 h
    cases h
    obtain ⟨s, rfl, hs⟩ := ih hrest
    exact ⟨_, rfl, .unit hu hs⟩
  | case4 e rest _ ih =>
    obtain ⟨u, hu, h⟩ := Option.bind_eq_some_iff.1 h
    obtain ⟨⟨us, rest⟩, hrest, h⟩ := Option.bind_eq_some_iff.1 h
    cases h
    obtain ⟨s, rfl, hs⟩ := ih hrest
    exact ⟨_, rfl, .letter hu hs⟩
  | case5 => cases h
  | case6 c t hquote _ hslash hprints ih =>
    obtain ⟨⟨us, rest⟩, hrest, h⟩ := Option.bind_eq_some_iff.1 h
    cases h
    obtain ⟨s, rfl, hs⟩ := ih hrest
    have hne : c ≠ '\\' := by
      rintro rfl
      cases s <;> exact hslash _ _ rfl rfl
    exact ⟨c :: s, rfl, .plain ⟨hquote, hne, by omega⟩ hs⟩

/-! ### Texts as strings -/

/-- The units that a text is spelled by when none of its characters is written
as a pair. -/
def units (t : Text) : List Nat := t.map Char.toNat

theorem not_isLead_toNat (c : Char) : isLead c.toNat = false ∧ isTrail c.toNat = false := by
  have hvalid : c.toNat < 0xD800 ∨ 0xDFFF < c.toNat ∧ c.toNat < 0x110000 := c.valid
  simp only [isLead, isTrail, Bool.and_eq_false_iff, decide_eq_false_iff_not]
  omega

theorem textOf?_units : ∀ t : Text, textOf? (units t) = some t
  | [] => rfl
  | [c] => by
    obtain ⟨hlead, htrail⟩ := not_isLead_toNat c
    show (if isLead c.toNat || isTrail c.toNat then none else some [Char.ofNat c.toNat]) = some [c]
    rw [hlead, htrail, Char.ofNat_toNat]
    rfl
  | c :: d :: cs => by
    obtain ⟨hlead, htrail⟩ := not_isLead_toNat c
    have ih := textOf?_units (d :: cs)
    show textOf? (c.toNat :: d.toNat :: units cs) = _
    rw [textOf?, hlead, htrail]
    show (textOf? (units (d :: cs))).map (Char.ofNat c.toNat :: ·) = _
    rw [ih, Char.ofNat_toNat]
    rfl

theorem hexUnit?_hexDigit : ∀ n < 0x20, hexUnit? '0' '0' (hexDigit (n / 16)) (hexDigit (n % 16)) = some n := by
  decide

theorem Spells.escape (c : Char) {us : List Nat} {t : Text} (h : Spells us t) :
    Spells (c.toNat :: us) (Json.escape c ++ t) := by
  by_cases hletter : c = '"' ∨ c = '\\' ∨ c = '\n' ∨ c = '\r' ∨ c = '\t' ∨ c = '\x08' ∨ c = '\x0c'
  · rcases hletter with rfl | rfl | rfl | rfl | rfl | rfl | rfl <;> exact .letter rfl h
  · simp only [not_or] at hletter
    have hother : Json.escape c = if c.toNat < 0x20 then
        "\\u00" ++ [hexDigit (c.toNat / 16), hexDigit (c.toNat % 16)] else [c] := by
      simp only [Json.escape, hletter, if_false]
    rw [hother]
    split
    · next hcontrol => exact .unit (hexUnit?_hexDigit _ hcontrol) h
    · next hprints => exact .plain ⟨hletter.1, hletter.2.1, Nat.le_of_not_lt hprints⟩ h

theorem spells_units : ∀ t : Text, Spells (units t) (t.flatMap escape)
  | [] => .nil
  | c :: cs => (spells_units cs).escape c

/-! ### Numbers -/

/-- One digit or more. -/
def IsDigits (t : Text) : Prop := t ≠ [] ∧ ∀ c ∈ t, c.isDigit = true

/-- Digits that do not start with a zero, unless it is the only one. -/
def IsWhole (t : Text) : Prop := IsDigits t ∧ (t.head? = some '0' → t.length = 1)

/-- The fraction of a number, which may be left out. -/
inductive IsFraction : Text → Prop where
  | none : IsFraction []
  | some {ds : Text} (h : IsDigits ds) : IsFraction ('.' :: ds)

/-- The exponent of a number, which may be left out. -/
inductive IsExponent : Text → Prop where
  | none : IsExponent []
  | some {e : Char} {sign ds : Text} (he : e = 'e' ∨ e = 'E') (hsign : sign = [] ∨ sign = ['+'] ∨ sign = ['-'])
    (h : IsDigits ds) : IsExponent (e :: (sign ++ ds))

/-- A number as it may be written. -/
inductive IsNumber : Text → Prop where
  | mk {sign whole fraction exponent : Text} (hsign : sign = [] ∨ sign = ['-']) (hwhole : IsWhole whole)
    (hfraction : IsFraction fraction) (hexponent : IsExponent exponent) :
    IsNumber (sign ++ whole ++ fraction ++ exponent)

/-- Whether a number may go on with a character. -/
def continuesNumber (c : Char) : Bool := c.isDigit || c == '.' || c == 'e' || c == 'E'

/-- A text that no number before it goes on with. -/
def EndsNumber (rest : Text) : Prop := ∀ c ∈ rest.head?, continuesNumber c = false

theorem EndsNumber.of_cons {c : Char} {rest : Text} (h : continuesNumber c = false) : EndsNumber (c :: rest) := by
  intro d hd
  obtain rfl := Option.some.inj hd
  exact h

theorem isDigit_of_continues {c : Char} (h : continuesNumber c = false) : c.isDigit = false := by
  simp only [continuesNumber, Bool.or_eq_false_iff] at h
  exact h.1.1.1

theorem readDigits?_append {ds rest : Text} (h : IsDigits ds) (hrest : ∀ c ∈ rest.head?, c.isDigit = false) :
    readDigits? (ds ++ rest) = some (ds, rest) := by
  obtain ⟨hne, hds⟩ := h
  have htake : (ds ++ rest).takeWhile Char.isDigit = ds := by
    rw [List.takeWhile_append_of_pos hds]
    cases rest with
    | nil => simp
    | cons c cs => simp [hrest c rfl]
  have hdrop : (ds ++ rest).dropWhile Char.isDigit = rest := by
    rw [List.dropWhile_append_of_pos hds]
    cases rest with
    | nil => rfl
    | cons c cs => simp [hrest c rfl]
  rw [readDigits?, htake, hdrop]
  cases ds with
  | nil => exact absurd rfl hne
  | cons d ds => rfl

theorem eq_of_readDigits {t ds rest : Text} (h : readDigits? t = some (ds, rest)) :
    IsDigits ds ∧ t = ds ++ rest := by
  unfold readDigits? at h
  split at h
  · cases h
  · next d ds htake =>
    cases h
    have hds : (t.takeWhile Char.isDigit).all Char.isDigit = true := List.all_takeWhile
    rw [htake] at hds
    refine ⟨⟨List.cons_ne_nil _ _, List.all_eq_true.1 hds⟩, ?_⟩
    rw [← htake, List.takeWhile_append_dropWhile]

theorem readWhole?_append {ds rest : Text} (h : IsWhole ds) (hrest : ∀ c ∈ rest.head?, c.isDigit = false) :
    readWhole? (ds ++ rest) = some (ds, rest) := by
  rw [readWhole?, readDigits?_append h.1 hrest]
  refine if_neg ?_
  rintro ⟨hzero, hlong⟩
  exact absurd (h.2 hzero) (Nat.ne_of_gt hlong)

theorem eq_of_readWhole {t ds rest : Text} (h : readWhole? t = some (ds, rest)) : IsWhole ds ∧ t = ds ++ rest := by
  rw [readWhole?, Option.bind_eq_bind, Option.bind_eq_some_iff] at h
  obtain ⟨⟨digits, left⟩, hdigits, h⟩ := h
  obtain ⟨hds, rfl⟩ := eq_of_readDigits hdigits
  dsimp only at h
  split at h
  · cases h
  · next hzero =>
    cases h
    refine ⟨⟨hds, fun hhead => ?_⟩, rfl⟩
    have hpos := List.length_pos_iff.2 hds.1
    rw [not_and] at hzero
    have := hzero hhead
    omega

theorem readFraction?_append {t rest : Text} (h : IsFraction t)
    (hrest : ∀ c ∈ rest.head?, c.isDigit = false ∧ c ≠ '.') : readFraction? (t ++ rest) = some (t, rest) := by
  cases h with
  | none =>
    rw [List.nil_append]
    cases rest with
    | nil => rfl
    | cons c cs =>
      rw [readFraction?]
      exact fun t h => absurd (List.cons.inj h).1 (hrest c rfl).2
  | some h =>
    rw [List.cons_append, readFraction?, readDigits?_append h fun c hc => (hrest c hc).1]
    rfl

theorem eq_of_readFraction {t s rest : Text} (h : readFraction? t = some (s, rest)) :
    IsFraction s ∧ t = s ++ rest := by
  unfold readFraction? at h
  split at h
  · rw [Option.map_eq_some_iff] at h
    obtain ⟨⟨ds, left⟩, hds, h⟩ := h
    obtain ⟨hdigits, rfl⟩ := eq_of_readDigits hds
    cases h
    exact ⟨.some hdigits, rfl⟩
  · cases h
    exact ⟨.none, rfl⟩

theorem readExponent?_append {t rest : Text} (h : IsExponent t) (hrest : EndsNumber rest) :
    readExponent? (t ++ rest) = some (t, rest) := by
  cases h with
  | none =>
    rw [List.nil_append]
    cases rest with
    | nil => rfl
    | cons c cs =>
      have hc := hrest c rfl
      have hne : ¬(c = 'e' ∨ c = 'E') := by rintro (rfl | rfl) <;> cases hc
      unfold readExponent?
      exact if_neg hne
  | @some e sign ds he hsign h =>
    have hdigits := readDigits?_append h fun c hc => isDigit_of_continues (hrest c hc)
    rw [List.cons_append, List.append_assoc]
    unfold readExponent?
    dsimp only
    rw [if_pos he]
    rcases hsign with rfl | rfl | rfl
    · -- the digits do not start with a sign
      obtain ⟨d, ds, rfl⟩ := List.exists_cons_of_ne_nil h.1
      have hd : d.isDigit = true := h.2 d (List.mem_cons_self ..)
      rw [List.nil_append, List.cons_append]
      split
      · next heq => cases heq; cases hd
      · next heq => cases heq; cases hd
      · exact congrArg (Option.map _) hdigits
    · exact congrArg (Option.map _) hdigits
    · exact congrArg (Option.map _) hdigits

theorem eq_of_readExponent {t s rest : Text} (h : readExponent? t = some (s, rest)) :
    IsExponent s ∧ t = s ++ rest := by
  unfold readExponent? at h
  split at h
  · split at h
    · next he =>
      split at h
      all_goals
        rw [Option.map_eq_some_iff] at h
        obtain ⟨⟨ds, left⟩, hds, h⟩ := h
        obtain ⟨hdigits, rfl⟩ := eq_of_readDigits hds
        cases h
      · exact ⟨.some he (.inr (.inl rfl)) hdigits, rfl⟩
      · exact ⟨.some he (.inr (.inr rfl)) hdigits, rfl⟩
      · exact ⟨.some he (.inl rfl) hdigits, rfl⟩
    · cases h
      exact ⟨.none, rfl⟩
  · cases h
    exact ⟨.none, rfl⟩


theorem IsExponent.head? {t rest : Text} (h : IsExponent t) (hrest : EndsNumber rest) :
    ∀ c ∈ (t ++ rest).head?, c.isDigit = false ∧ c ≠ '.' := by
  intro c hc
  cases h with
  | none =>
    have hends := hrest c hc
    refine ⟨isDigit_of_continues hends, ?_⟩
    rintro rfl
    cases hends
  | some he _ =>
    cases hc
    rcases he with rfl | rfl <;> decide

theorem IsFraction.head? {t rest : Text} (h : IsFraction t) (hrest : ∀ c ∈ rest.head?, c.isDigit = false) :
    ∀ c ∈ (t ++ rest).head?, c.isDigit = false := by
  intro c hc
  cases h with
  | none => exact hrest c hc
  | some =>
    cases hc
    rfl

theorem IsNumber.exists_head {t : Text} (h : IsNumber t) :
    ∃ c cs, t = c :: cs ∧ (c.isDigit = true ∨ c = '-') := by
  cases h with
  | @mk sign whole fraction exponent hsign hwhole =>
    obtain ⟨d, ds, rfl⟩ := List.exists_cons_of_ne_nil hwhole.1.1
    rcases hsign with rfl | rfl
    · exact ⟨d, _, rfl, .inl (hwhole.1.2 d (List.mem_cons_self ..))⟩
    · exact ⟨'-', _, rfl, .inr rfl⟩

/-- What a number comes to after its sign. -/
def readUnsigned? (sign t : Text) : Option (Json × Text) := do
  let (whole, t) ← readWhole? t
  let (fraction, t) ← readFraction? t
  let (exponent, t) ← readExponent? t
  return (.number (sign ++ whole ++ fraction ++ exponent), t)

theorem readNumber?_eq_unsigned {t : Text} (h : ∀ u, t ≠ '-' :: u) : readNumber? t = readUnsigned? [] t := by
  unfold readNumber?
  split
  next heq =>
    split at heq
    · exact absurd rfl (h _)
    · cases heq
      rfl

theorem readNumber?_append {t rest : Text} (h : IsNumber t) (hrest : EndsNumber rest) :
    readNumber? (t ++ rest) = some (.number t, rest) := by
  cases h with
  | @mk sign whole fraction exponent hsign hwhole hfraction hexponent =>
    have hafter := hexponent.head? hrest
    have hread : readUnsigned? sign (whole ++ (fraction ++ (exponent ++ rest))) =
        some (.number (sign ++ whole ++ fraction ++ exponent), rest) := by
      rw [readUnsigned?, readWhole?_append hwhole (hfraction.head? fun c hc => (hafter c hc).1)]
      dsimp only [Option.bind_eq_bind, Option.bind_some]
      rw [readFraction?_append hfraction hafter]
      dsimp only [Option.bind_some]
      rw [readExponent?_append hexponent hrest]
      rfl
    simp only [List.append_assoc] at hread ⊢
    rcases hsign with rfl | rfl
    · rw [List.nil_append, readNumber?_eq_unsigned, hread]
      -- the digits do not start with a sign
      intro u hu
      obtain ⟨d, ds, rfl⟩ := List.exists_cons_of_ne_nil hwhole.1.1
      have hd : d.isDigit = true := hwhole.1.2 d (List.mem_cons_self ..)
      cases hu
      cases hd
    · exact hread

theorem eq_of_readUnsigned {sign t rest : Text} {j : Json} (hsign : sign = [] ∨ sign = ['-'])
    (h : readUnsigned? sign t = some (j, rest)) : ∃ s, sign ++ t = s ++ rest ∧ IsNumber s ∧ j = .number s := by
  unfold readUnsigned? at h
  simp only [Option.bind_eq_bind, Option.bind_eq_some_iff] at h
  obtain ⟨⟨whole, t₁⟩, hw, ⟨fraction, t₂⟩, hf, ⟨exponent, t₃⟩, he, h⟩ := h
  obtain ⟨hwhole, rfl⟩ := eq_of_readWhole hw
  obtain ⟨hfraction, rfl⟩ := eq_of_readFraction hf
  obtain ⟨hexponent, rfl⟩ := eq_of_readExponent he
  cases h
  exact ⟨_, by simp only [List.append_assoc], .mk hsign hwhole hfraction hexponent, rfl⟩

theorem eq_of_readNumber {t rest : Text} {j : Json} (h : readNumber? t = some (j, rest)) :
    ∃ s, t = s ++ rest ∧ IsNumber s ∧ j = .number s := by
  by_cases hminus : ∃ u, t = '-' :: u
  · obtain ⟨u, rfl⟩ := hminus
    exact eq_of_readUnsigned (.inr rfl) h
  · rw [readNumber?_eq_unsigned (not_exists.1 hminus)] at h
    exact eq_of_readUnsigned (.inl rfl) h

end Json
end Offside

/-
# Lower case is final

No run of capitals holds a small letter of a run (`CaseRun.sparedBy`), so a
small letter is passed on. Every character of a lower-case form is its own
small letter and has no rule of its own (`IsSmall`). So the lower-case form of
a lower-case form is itself; and a trimmed text stays trimmed, since no letter
becomes white space.

Key definitions: `CaseRun.Becomes`, `CaseRun.sparedBy`, `IsSmall`.
Key theorems: `lowerCode_of_sparedBy`, `isSmall_lowerChar`,
`Text.lowercase_lowercase`, `Text.isTrimmed_lowercase`.
-/
import Mathlib.Data.List.Basic
import Offside.Proofs.Trimming
import Offside.Text.Lowercase

namespace Offside

/-! ### Runs -/

namespace CaseRun

/-- A code point is a small letter of the run. -/
def Becomes (run : CaseRun) (n : Nat) : Prop :=
  ∃ k ≤ run.last - run.first, k % run.stride = 0 ∧ n = run.image + k

/-- Whether the small letters of a run stay clear of a range of code points. -/
def avoids (run : CaseRun) (first last : Nat) : Bool :=
  decide (run.image + (run.last - run.first) < first) || decide (last < run.image)

/-- Whether the small letters of a run are characters other than white space
and the capital I with a dot above. -/
def isLettered (run : CaseRun) : Bool :=
  run.avoids 0xD800 0xDFFF && decide (run.image + (run.last - run.first) < 0x110000) &&
    run.avoids 0x130 0x130 && blanks.all fun r => run.avoids r.1 r.2

/-- Whether the small letters of `run` are no capitals of `other` because they
lie after them or between them. -/
def misses (run other : CaseRun) : Bool :=
  decide (other.last < run.image) ||
    ((run.first == run.last || run.stride % other.stride == 0) &&
      run.image % other.stride != other.first % other.stride)

/-- Whether the small letters of a run are no capitals of a table. Runs that
start after them are not looked at. -/
def sparedBy (run : CaseRun) : List CaseRun → Bool
  | [] => true
  | other :: more =>
    decide (run.image + (run.last - run.first) < other.first) || (run.misses other && run.sparedBy more)

theorem lt_or_lt_of_avoids {run : CaseRun} {first last n : Nat} (h : run.avoids first last = true)
    (hn : run.Becomes n) : n < first ∨ last < n := by
  obtain ⟨k, hk, -, rfl⟩ := hn
  simp only [avoids, Bool.or_eq_true, decide_eq_true_eq] at h
  omega

theorem mod_ne_of_misses {run other : CaseRun} (h : run.misses other = true) {n : Nat}
    (hn : run.Becomes n) (hfirst : other.first ≤ n) (hlast : n ≤ other.last) :
    (n - other.first) % other.stride ≠ 0 := by
  rw [misses, Bool.or_eq_true, decide_eq_true_eq, Bool.and_eq_true, Bool.or_eq_true, beq_iff_eq, beq_iff_eq,
    bne_iff_ne] at h
  obtain ⟨k, hk, hstride, rfl⟩ := hn
  rcases h with h | ⟨hstep, hparity⟩
  · omega
  · -- all small letters are as far from the capitals as the first one is
    have hk : k % other.stride = 0 := by
      rcases hstep with hsingle | hdvd
      · rw [show k = 0 by omega, Nat.zero_mod]
      · exact Nat.mod_eq_zero_of_dvd
          (Nat.dvd_trans (Nat.dvd_of_mod_eq_zero hdvd) (Nat.dvd_of_mod_eq_zero hstride))
    intro hmod
    have hsame : (other.first + (run.image + k - other.first)) % other.stride =
        other.first % other.stride := by
      rw [Nat.add_mod, hmod, Nat.add_zero, Nat.mod_mod]
    rw [Nat.add_sub_cancel' hfirst, Nat.add_mod, hk, Nat.add_zero, Nat.mod_mod] at hsame
    exact hparity hsame

end CaseRun

/-- A code point is passed on, or it becomes a small letter of a run. -/
theorem lowerCode_cases : ∀ (runs : List CaseRun) (n : Nat),
    lowerCode runs n = n ∨ ∃ run ∈ runs, run.Becomes (lowerCode runs n)
  | [], _ => .inl rfl
  | run :: runs, n => by
    rw [lowerCode]
    split
    · exact .inl rfl
    · split
      · split
        · next hmod => exact .inr ⟨run, List.mem_cons_self .., n - run.first, by omega, hmod, rfl⟩
        · exact .inl rfl
      · exact (lowerCode_cases runs n).imp_right fun ⟨r, hr, h⟩ => ⟨r, List.mem_cons_of_mem _ hr, h⟩

theorem lowerCode_of_sparedBy {run : CaseRun} {n : Nat} (hn : run.Becomes n) :
    ∀ {runs : List CaseRun}, run.sparedBy runs = true → lowerCode runs n = n
  | [], _ => rfl
  | other :: runs, h => by
    simp only [CaseRun.sparedBy, Bool.or_eq_true, decide_eq_true_eq, Bool.and_eq_true] at h
    rw [lowerCode]
    rcases h with hbefore | ⟨hmisses, hmore⟩
    · obtain ⟨k, hk, -, rfl⟩ := hn
      rw [if_pos (by omega)]
    · split
      · rfl
      · next hfirst =>
        split
        · next hlast => rw [if_neg (CaseRun.mod_ne_of_misses hmisses hn (Nat.le_of_not_lt hfirst) hlast)]
        · exact lowerCode_of_sparedBy hn hmore

/-- **No small letter of the table is a capital of it.** All are characters,
other than white space. -/
theorem caseRuns_spared :
    (caseRuns.all fun run => run.isLettered && run.sparedBy caseRuns) = true := by
  decide +kernel

theorem isLettered_of_mem_caseRuns {run : CaseRun} (h : run ∈ caseRuns) :
    run.isLettered = true ∧ run.sparedBy caseRuns = true := by
  have hall := List.all_eq_true.1 caseRuns_spared run h
  rwa [Bool.and_eq_true] at hall

/-! ### Characters -/

/-- A character is its own small letter, and none of the two with a rule of
their own. -/
def IsSmall (c : Char) : Prop := lowerChar c = c ∧ c ≠ 'Σ' ∧ c ≠ 'İ'

instance (c : Char) : Decidable (IsSmall c) :=
  inferInstanceAs (Decidable (lowerChar c = c ∧ c ≠ 'Σ' ∧ c ≠ 'İ'))

theorem lowerChar_cases (c : Char) : lowerChar c = c ∨
    ∃ run ∈ caseRuns, run.isLettered = true ∧ run.Becomes (lowerChar c).toNat := by
  rw [lowerChar]
  rcases lowerCode_cases caseRuns c.toNat with h | ⟨run, hrun, h⟩
  · exact .inl (by rw [h, Char.ofNat_toNat])
  · have hlettered := (isLettered_of_mem_caseRuns hrun).1
    simp only [CaseRun.isLettered, Bool.and_eq_true, decide_eq_true_eq] at hlettered
    obtain ⟨⟨⟨hgap, htop⟩, -⟩, -⟩ := hlettered
    have hvalid : (lowerCode caseRuns c.toNat).isValidChar := by
      have hclear := CaseRun.lt_or_lt_of_avoids hgap h
      obtain ⟨k, hk, -, hn⟩ := h
      unfold Nat.isValidChar
      omega
    have hcode : (Char.ofNat (lowerCode caseRuns c.toNat)).toNat = lowerCode caseRuns c.toNat := by
      rw [Char.ofNat, dif_pos hvalid]
      rfl
    exact .inr ⟨run, hrun, (isLettered_of_mem_caseRuns hrun).1, hcode.symm ▸ h⟩

/-- **A small letter is its own small letter.** -/
theorem isSmall_lowerChar {c : Char} (hsigma : c ≠ 'Σ') (hdotted : c ≠ 'İ') : IsSmall (lowerChar c) := by
  rcases lowerChar_cases c with h | ⟨run, hrun, hlettered, hbecomes⟩
  · rw [h]
    exact ⟨h, hsigma, hdotted⟩
  · have hfixed : lowerChar (lowerChar c) = lowerChar c := by
      rw [lowerChar, lowerCode_of_sparedBy hbecomes (isLettered_of_mem_caseRuns hrun).2, Char.ofNat_toNat]
    refine ⟨hfixed, fun h => ?_, fun h => ?_⟩
    · have hsmall : lowerChar 'Σ' ≠ 'Σ' := by decide +kernel
      rw [h] at hfixed
      exact hsmall hfixed
    · simp only [CaseRun.isLettered, Bool.and_eq_true] at hlettered
      have hclear := CaseRun.lt_or_lt_of_avoids hlettered.1.2 hbecomes
      rw [h] at hclear
      revert hclear
      decide

theorem isBlank_lowerChar {c : Char} (h : isBlank c = false) : isBlank (lowerChar c) = false := by
  rcases lowerChar_cases c with hsame | ⟨run, -, hlettered, hbecomes⟩
  · rw [hsame, h]
  · simp only [CaseRun.isLettered, Bool.and_eq_true, List.all_eq_true] at hlettered
    rw [← Bool.not_eq_true]
    intro hblank
    obtain ⟨r, hr, hfirst, hlast⟩ := Ranges.exists_of_has hblank
    have hclear := CaseRun.lt_or_lt_of_avoids (hlettered.2 r hr) hbecomes
    omega

/-! ### Texts -/

namespace Text

/-- What a character becomes between the characters `before`, nearest first,
and `rest`. -/
def lowered (before : Text) (c : Char) (rest : Text) : Text :=
  if c = 'Σ' then [if meetsCased before && !meetsCased rest then 'ς' else 'σ']
  else if c = 'İ' then ['i', '\u0307']
  else [lowerChar c]

theorem lowercaseAfter_cons (before : Text) (c : Char) (cs : Text) :
    lowercaseAfter before (c :: cs) = lowered before c cs ++ lowercaseAfter (c :: before) cs := rfl

theorem isSmall_of_mem_lowered {before rest : Text} {c d : Char} (hd : d ∈ lowered before c rest) :
    IsSmall d := by
  have hsigmas : IsSmall 'ς' ∧ IsSmall 'σ' ∧ IsSmall 'i' ∧ IsSmall '\u0307' := by decide +kernel
  unfold lowered at hd
  split at hd
  · split at hd <;> simp_all
  · split at hd
    · rcases List.mem_pair.1 hd with rfl | rfl <;> simp_all
    · next hsigma hdotted =>
      rw [List.mem_singleton.1 hd]
      exact isSmall_lowerChar hsigma hdotted

/-- A character becomes something, and no white space unless it is some. -/
theorem lowered_spec (before rest : Text) {c : Char} (hc : isBlank c = false) :
    lowered before c rest ≠ [] ∧ ∀ d ∈ lowered before c rest, isBlank d = false := by
  have hmarks : isBlank 'ς' = false ∧ isBlank 'σ' = false ∧ isBlank 'i' = false ∧
    isBlank '\u0307' = false := by decide +kernel
  unfold lowered
  split
  · split <;> simp [hmarks]
  · split
    · simp [hmarks]
    · simp [isBlank_lowerChar hc]

/-- **Every character of a lower-case form is its own small letter.** -/
theorem isSmall_of_mem_lowercaseAfter {d : Char} : ∀ {t before : Text}, d ∈ lowercaseAfter before t →
    IsSmall d
  | [], _, hd => absurd hd List.not_mem_nil
  | c :: cs, before, hd => by
    rw [lowercaseAfter_cons, List.mem_append] at hd
    rcases hd with hd | hd
    · exact isSmall_of_mem_lowered hd
    · exact isSmall_of_mem_lowercaseAfter hd

theorem lowercaseAfter_of_isSmall : ∀ {t : Text} (before : Text), (∀ c ∈ t, IsSmall c) →
    lowercaseAfter before t = t
  | [], _, _ => rfl
  | c :: cs, before, h => by
    obtain ⟨⟨hsame, hsigma, hdotted⟩, hcs⟩ := List.forall_mem_cons.1 h
    rw [lowercaseAfter_cons, lowered, if_neg hsigma, if_neg hdotted, hsame,
      lowercaseAfter_of_isSmall _ hcs, List.singleton_append]

/-- **The lower-case form of a lower-case form is itself.** -/
theorem lowercase_lowercase (t : Text) : lowercase (lowercase t) = lowercase t :=
  lowercaseAfter_of_isSmall [] fun _ => isSmall_of_mem_lowercaseAfter

/-- A lower-case form ends in what the last character becomes. -/
theorem exists_lowercaseAfter_append (c : Char) : ∀ s before : Text,
    ∃ front last, lowercaseAfter before (s ++ [c]) = front ++ lowered last c []
  | [], before => ⟨[], before, List.append_nil _⟩
  | d :: s, before => by
    obtain ⟨front, last, h⟩ := exists_lowercaseAfter_append c s (d :: before)
    exact ⟨lowered before d (s ++ [c]) ++ front, last, by
      rw [List.cons_append, lowercaseAfter_cons, h, List.append_assoc]⟩

theorem isTrimmed_lowercase {t : Text} (h : IsTrimmed t) : IsTrimmed (lowercase t) := by
  rcases List.eq_nil_or_concat t with rfl | ⟨front, c, rfl⟩
  · exact h
  · refine ⟨fun d hd => ?_, fun d hd => ?_⟩
    · obtain ⟨first, rest, hcons⟩ : ∃ first rest, front ++ [c] = first :: rest :=
        List.exists_cons_of_ne_nil (by simp)
      obtain ⟨hne, hclear⟩ := lowered_spec [] rest (h.1 first (by simp [hcons]))
      rw [List.concat_eq_append, hcons, lowercase, lowercaseAfter_cons, List.head?_append_of_ne_nil _ hne] at hd
      exact hclear d (List.mem_of_mem_head? hd)
    · obtain ⟨before, last, hlast⟩ := exists_lowercaseAfter_append c front []
      obtain ⟨hne, hclear⟩ := lowered_spec last [] (h.2 c (by simp))
      rw [List.concat_eq_append, lowercase, hlast, List.getLast?_append_of_ne_nil _ hne] at hd
      exact hclear d (List.mem_of_mem_getLast? hd)

end Text
end Offside

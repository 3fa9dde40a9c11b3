/-
# Outlines keep to the indentation

The outline of a list of lines is nested as the indentation says: what is
under a line is deeper than the line, the entries of a section stand at one
indentation, and each section is shallower than the one before it
(`Outline.nested_ofLines`). And it is made piece by piece: lines that are all
deeper than the next line are outlined by themselves (`Outline.ofLines_append`),
so that a line, the deeper lines after it and the rest are outlined apart
(`Outline.ofLines_entry`).

Key definitions: `Outline.Nested`, `Outline.attach`.
Key theorems: `exists_deeper`, `Outline.nested_ofLines`, `Outline.ofLines_append`,
`Outline.ofLines_entry`.
-/
import Offside.Outline

namespace Offside

/-- The first line of an outline. -/
def Outline.first? (o : Outline) : Option Line := (o.head?.bind List.head?).map Entry.line

/-- The indentation of the first section of an outline. -/
def Outline.indent? (o : Outline) : Option Nat := o.head?.bind Section.indent?

/-- Lines start with some that are deeper than `i`, if only with none at all. -/
theorem exists_deeper (i : Nat) (ls : List Line) : ∃ under rest, ls = under ++ rest ∧
    (∀ m ∈ under, i < m.indent) ∧ ∀ m ∈ rest.head?, m.indent ≤ i := by
  induction ls with
  | nil => exact ⟨[], [], rfl, by simp, by simp⟩
  | cons l ls ih =>
    by_cases hl : i < l.indent
    · obtain ⟨under, rest, rfl, hunder, hrest⟩ := ih
      exact ⟨l :: under, rest, rfl, List.forall_mem_cons.2 ⟨hl, hunder⟩, hrest⟩
    · exact ⟨[], l :: ls, rfl, by simp, by simpa using hl⟩

mutual

/-- What is under the line of an entry is deeper than the line. -/
def Entry.Nested : Entry → Prop
  | .mk l o => Outline.Nested (l.indent + 1) o

/-- The entries of a section stand at the indentation `i`. -/
def Section.Nested (i : Nat) : List Entry → Prop
  | [] => True
  | e :: es => e.line.indent = i ∧ e.Nested ∧ Section.Nested i es

/-- The sections of an outline stand at the indentation `least` or deeper,
each of them shallower than the one before. -/
def Outline.Nested (least : Nat) : List (List Entry) → Prop
  | [] => True
  | s :: more =>
    (∃ i, Section.indent? s = some i ∧ least ≤ i ∧ Section.Nested i s ∧
      ∀ j ∈ Outline.indent? more, j < i) ∧ Outline.Nested least more

end

namespace Section

/-- Whether a section is deeper than the indentation `i`. -/
def isDeeper (i : Nat) (s : Section) : Bool := s.indent?.any (i < ·)

theorem isDeeper_iff {i j : Nat} {s : Section} (h : s.indent? = some j) :
    s.isDeeper i = true ↔ i < j := by
  simp [isDeeper, h]

end Section

namespace Outline

/-- An outline with one more entry before it, in its first section if that has
the indentation of the entry. -/
def attach (e : Entry) : Outline → Outline
  | [] => [[e]]
  | s :: more => if s.indent? = some e.line.indent then (e :: s) :: more else [e] :: s :: more

theorem cons_eq_attach (l : Line) (o : Outline) :
    cons l o = attach (.mk l (o.takeWhile (Section.isDeeper l.indent)))
      (o.dropWhile (Section.isDeeper l.indent)) := rfl

theorem ofLines_cons (l : Line) (ls : List Line) : ofLines (l :: ls) = cons l (ofLines ls) := rfl

theorem first?_attach (e : Entry) (o : Outline) : first? (attach e o) = some e.line := by
  unfold attach
  split
  · rfl
  · split <;> rfl

theorem first?_ofLines (ls : List Line) : first? (ofLines ls) = ls.head? := by
  cases ls with
  | nil => rfl
  | cons l ls => rw [ofLines_cons, cons_eq_attach, first?_attach]; rfl

theorem indent?_eq_first? (o : Outline) : indent? o = (first? o).map (·.indent) := by
  rcases o with _ | ⟨_ | ⟨e, s⟩, more⟩ <;> rfl

theorem indent?_ofLines (ls : List Line) : indent? (ofLines ls) = ls.head?.map (·.indent) := by
  rw [indent?_eq_first?, first?_ofLines]

/-! ### The nesting of an outline -/

theorem nested_takeWhile (i : Nat) : ∀ {k : Nat} {o : Outline}, Nested k o →
    Nested (i + 1) (o.takeWhile (Section.isDeeper i))
  | _, [], _ => by simp [Nested]
  | k, s :: more, h => by
    rw [Nested] at h
    obtain ⟨⟨j, hj, _, hs, hlt⟩, hm⟩ := h
    by_cases hd : Section.isDeeper i s = true
    · rw [List.takeWhile_cons_of_pos hd, Nested]
      have hij : i < j := (Section.isDeeper_iff hj).1 hd
      refine ⟨⟨j, hj, by omega, hs, ?_⟩, nested_takeWhile i hm⟩
      intro m hmem
      cases more with
      | nil => simp [indent?] at hmem
      | cons s' more' =>
        by_cases hd' : Section.isDeeper i s' = true
        · rw [List.takeWhile_cons_of_pos hd'] at hmem
          exact hlt m hmem
        · rw [List.takeWhile_cons_of_neg hd'] at hmem
          simp [indent?] at hmem
    · rw [List.takeWhile_cons_of_neg hd]
      simp [Nested]

theorem nested_dropWhile (i : Nat) : ∀ {k : Nat} {o : Outline}, Nested k o →
    Nested k (o.dropWhile (Section.isDeeper i)) ∧
      ∀ j ∈ indent? (o.dropWhile (Section.isDeeper i)), j ≤ i
  | _, [], _ => by simp [Nested, indent?]
  | k, s :: more, h => by
    have h' := h
    rw [Nested] at h'
    obtain ⟨⟨j, hj, _⟩, hm⟩ := h'
    by_cases hd : Section.isDeeper i s = true
    · rw [List.dropWhile_cons_of_pos hd]
      exact nested_dropWhile i hm
    · rw [List.dropWhile_cons_of_neg hd]
      refine ⟨h, fun m hmem => ?_⟩
      have hjm : j = m := by simpa [indent?, hj] using hmem
      have := mt (Section.isDeeper_iff hj).2 hd
      omega

theorem nested_attach {k : Nat} {e : Entry} {o : Outline} (hk : k ≤ e.line.indent) (he : e.Nested)
    (ho : Nested k o) (hle : ∀ j ∈ indent? o, j ≤ e.line.indent) : Nested k (attach e o) := by
  have hone : Section.Nested e.line.indent [e] := by simp [Section.Nested, he]
  cases o with
  | nil => exact ⟨⟨e.line.indent, rfl, hk, hone, by simp [indent?]⟩, trivial⟩
  | cons s more =>
    have ho' := ho
    rw [Nested] at ho'
    obtain ⟨⟨j, hj, hkj, hs, hlt⟩, hm⟩ := ho'
    have hje : j ≤ e.line.indent := hle j (by simp [indent?, hj])
    by_cases heq : j = e.line.indent
    · rw [attach, if_pos (by rw [hj, heq])]
      exact ⟨⟨e.line.indent, rfl, hk, ⟨rfl, he, heq ▸ hs⟩, heq ▸ hlt⟩, hm⟩
    · rw [attach, if_neg (by rw [hj, Option.some.injEq]; exact heq)]
      refine ⟨⟨e.line.indent, rfl, hk, hone, fun m hmem => ?_⟩, ho⟩
      have hjm : j = m := by simpa [indent?, hj] using hmem
      omega

/-- **An outline is nested as the indentation of its lines says.** -/
theorem nested_ofLines : ∀ ls : List Line, Nested 0 (ofLines ls)
  | [] => trivial
  | l :: ls => by
    have ih := nested_ofLines ls
    rw [ofLines_cons, cons_eq_attach]
    refine nested_attach (Nat.zero_le _) ?_ (nested_dropWhile l.indent ih).1 (nested_dropWhile l.indent ih).2
    exact nested_takeWhile l.indent ih

/-! ### The pieces of an outline -/

/-- A line goes to the outline before it if what comes after that is not as
deep as the line. -/
theorem attach_append {e : Entry} {p : Outline} (hp : ∀ j ∈ indent? p, j < e.line.indent) (o : Outline) :
    attach e (o ++ p) = attach e o ++ p := by
  cases o with
  | nil =>
    cases p with
    | nil => rfl
    | cons s more =>
      have hne : s.indent? ≠ some e.line.indent := by
        intro h
        have := hp e.line.indent (by simp [indent?, h])
        omega
      simp only [List.nil_append, attach, if_neg hne]
      rfl
  | cons s more =>
    simp only [List.cons_append, attach]
    split <;> rfl

theorem takeWhile_eq_nil {i : Nat} {p : Outline} (hp : ∀ j ∈ indent? p, j ≤ i) :
    p.takeWhile (Section.isDeeper i) = [] ∧ p.dropWhile (Section.isDeeper i) = p := by
  cases p with
  | nil => simp
  | cons s more =>
    have hd : ¬ Section.isDeeper i s = true := by
      intro h
      obtain ⟨j, hj, hij⟩ := (Option.any_eq_true _ _).1 h
      have := hp j (by simpa [indent?] using hj)
      simp only [decide_eq_true_eq] at hij
      omega
    exact ⟨List.takeWhile_cons_of_neg hd, List.dropWhile_cons_of_neg hd⟩

theorem cons_append {l : Line} {p : Outline} (hp : ∀ j ∈ indent? p, j < l.indent) (o : Outline) :
    cons l (o ++ p) = cons l o ++ p := by
  have hstop := takeWhile_eq_nil fun j hj => Nat.le_of_lt (hp j hj)
  have htake : (o ++ p).takeWhile (Section.isDeeper l.indent) = o.takeWhile (Section.isDeeper l.indent) := by
    induction o with
    | nil => exact hstop.1
    | cons s o ih => simp only [List.cons_append, List.takeWhile_cons, ih]
  have hdrop : (o ++ p).dropWhile (Section.isDeeper l.indent) =
      o.dropWhile (Section.isDeeper l.indent) ++ p := by
    clear htake
    induction o with
    | nil => exact hstop.2
    | cons s o ih =>
      simp only [List.cons_append, List.dropWhile_cons, ih]
      split <;> rfl
  rw [cons_eq_attach, htake, hdrop, attach_append hp, ← cons_eq_attach]

/-- **Lines that are all deeper than the next one are outlined by
themselves.** -/
theorem ofLines_append : ∀ {ls more : List Line}, (∀ l ∈ ls, ∀ m ∈ more.head?, m.indent < l.indent) →
    ofLines (ls ++ more) = ofLines ls ++ ofLines more
  | [], _, _ => rfl
  | l :: ls, more, h => by
    have ih : ofLines (ls ++ more) = ofLines ls ++ ofLines more :=
      ofLines_append fun l' hl' => h l' (List.mem_cons_of_mem _ hl')
    have hlt : ∀ j ∈ indent? (ofLines more), j < l.indent := by
      intro j hj
      rw [indent?_ofLines, Option.mem_def, Option.map_eq_some_iff] at hj
      obtain ⟨m, hm, rfl⟩ := hj
      exact h l (by simp) m hm
    rw [List.cons_append, ofLines_cons, ofLines_cons, ih, cons_append hlt]

theorem isDeeper_of_mem_ofLines {i : Nat} {ls : List Line} (h : ∀ l ∈ ls, i < l.indent) :
    ∀ s ∈ ofLines ls, Section.isDeeper i s = true := by
  have hl : ∀ l ∈ lines (ofLines ls), i < l.indent := by rwa [lines_ofLines]
  have hn := nested_ofLines ls
  generalize ofLines ls = o at hl hn
  induction o with
  | nil => simp
  | cons s more ih =>
    rw [Nested] at hn
    obtain ⟨⟨j, hj, _⟩, hm⟩ := hn
    have hs : i < j := by
      obtain ⟨e, he, rfl⟩ := Option.map_eq_some_iff.1 hj
      obtain ⟨es, rfl⟩ := List.head?_eq_some_iff.1 he
      exact hl e.line (by cases e; simp [lines, Section.lines, Entry.lines, Entry.line])
    intro t ht
    rcases List.mem_cons.1 ht with rfl | ht
    · exact (Section.isDeeper_iff hj).2 hs
    · exact ih (fun l hl' => hl l (by simp [lines, hl'])) hm t ht

/-- **A line, the deeper lines after it and the rest are outlined apart.** -/
theorem ofLines_entry {l : Line} {under more : List Line} (hu : ∀ m ∈ under, l.indent < m.indent)
    (hm : ∀ m ∈ more.head?, m.indent ≤ l.indent) :
    ofLines (l :: (under ++ more)) = attach (.mk l (ofLines under)) (ofLines more) := by
  have happ : ofLines (under ++ more) = ofLines under ++ ofLines more :=
    ofLines_append fun m hm' n hn => Nat.lt_of_le_of_lt (hm n hn) (hu m hm')
  have hle : ∀ j ∈ indent? (ofLines more), j ≤ l.indent := by
    intro j hj
    rw [indent?_ofLines, Option.mem_def, Option.map_eq_some_iff] at hj
    obtain ⟨m, hm', rfl⟩ := hj
    exact hm m hm'
  have hstop := takeWhile_eq_nil hle
  have hdeep := isDeeper_of_mem_ofLines hu
  rw [ofLines_cons, happ, cons_eq_attach, List.takeWhile_append_of_pos hdeep,
    List.dropWhile_append_of_pos hdeep, hstop.1, hstop.2, List.append_nil]

end Outline
end Offside

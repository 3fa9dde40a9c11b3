/-
# Reading section by section

A section is read entry by entry, and a list of lines section by section: what
holds of every section, and of blocks that are put together, holds of every
list of lines and its block (`Block.induction_ofLines`).

Key theorems: `readSection_cons`, `Outline.le_indent`, `Outline.heads_sublist`,
`Outline.head?_lines`, `Block.induction_ofLines`.
-/
import Offside.Block
import Offside.Proofs.Outline

namespace Offside

/-! ### Entry by entry -/

theorem readSection_cons (chain : Option Chain) (e : Entry) (es : List Entry) :
    readSection chain (e :: es) =
      (e.step chain e.body).bind fun st => (readSection st.2 es).map (st.1 ++ ·) := by
  rw [readSection]
  cases e.step chain e.body with
  | none => rfl
  | some st =>
    simp only [Option.bind_eq_bind, Option.bind_some]
    cases readSection st.2 es <;> rfl

theorem exists_step_of_readSection {chain : Option Chain} {e : Entry} {es : List Entry} {b : Block}
    (h : readSection chain (e :: es) = some b) :
    ∃ trees next more, e.step chain e.body = some (trees, next) ∧ readSection next es = some more ∧
      b = trees ++ more := by
  rw [readSection_cons] at h
  obtain ⟨⟨trees, next⟩, hstep, h⟩ := Option.bind_eq_some_iff.1 h
  obtain ⟨more, hmore, rfl⟩ := Option.map_eq_some_iff.1 h
  exact ⟨trees, next, more, hstep, hmore, rfl⟩

/-! ### What is under an entry -/

theorem Entry.lines_eq (e : Entry) : e.lines = e.line :: Outline.lines e.under := by
  cases e
  rfl

theorem Entry.Nested.under {e : Entry} (h : e.Nested) : Outline.Nested (e.line.indent + 1) e.under := by
  cases e
  exact h

theorem Outline.eq_nil_of_heads {k : Nat} {o : Outline} (h : Outline.Nested k o)
    (hh : Entry.heads o = []) : o = [] := by
  cases o with
  | nil => rfl
  | cons s more =>
    obtain ⟨⟨i, hi, _⟩, _⟩ := h
    cases s with
    | nil => cases hi
    | cons e es => simp [Entry.heads] at hh

mutual

theorem Entry.le_indent : ∀ e : Entry, e.Nested → ∀ l ∈ Outline.lines e.under, e.line.indent < l.indent
  | .mk _ o, h => fun l hl => Outline.le_indent o h l hl

theorem Section.le_indent : ∀ (s : List Entry) {i : Nat}, Section.Nested i s →
    ∀ l ∈ Section.lines s, i ≤ l.indent
  | [], _, _ => fun l hl => absurd hl List.not_mem_nil
  | e :: es, i, h => by
    intro l hl
    rw [Section.Nested] at h
    obtain ⟨hi, he, hes⟩ := h
    rw [Section.lines, List.mem_append, e.lines_eq, List.mem_cons] at hl
    rcases hl with (rfl | hl) | hl
    · exact Nat.le_of_eq hi.symm
    · have := Entry.le_indent e he l hl
      omega
    · exact Section.le_indent es hes l hl

theorem Outline.le_indent : ∀ (o : List (List Entry)) {least : Nat}, Outline.Nested least o →
    ∀ l ∈ Outline.lines o, least ≤ l.indent
  | [], _, _ => fun l hl => absurd hl List.not_mem_nil
  | s :: more, least, h => by
    intro l hl
    rw [Outline.Nested] at h
    obtain ⟨⟨i, -, hi, hs, -⟩, hmore⟩ := h
    rw [Outline.lines, List.mem_append] at hl
    rcases hl with hl | hl
    · exact Nat.le_trans hi (Section.le_indent s hs l hl)
    · exact Outline.le_indent more hmore l hl

end

theorem Section.heads_sublist : ∀ s : Section, List.Sublist (s.map Entry.line) (Section.lines s)
  | [] => .slnil
  | e :: es => by
    rw [Section.lines, e.lines_eq, List.map_cons, List.cons_append]
    exact (List.sublist_append_of_sublist_right (Section.heads_sublist es)).cons_cons _

theorem Outline.heads_sublist : ∀ o : Outline, List.Sublist (Entry.heads o) (Outline.lines o)
  | [] => .slnil
  | s :: more => by
    rw [Entry.heads, List.flatten_cons, List.map_append, Outline.lines]
    exact (Section.heads_sublist s).append (Outline.heads_sublist more)

theorem Section.line_mem_lines {s : Section} (e : Entry) (h : e ∈ s) : e.line ∈ Section.lines s :=
  (Section.heads_sublist s).subset (List.mem_map_of_mem h)

theorem Outline.mem_lines_of_mem_heads {o : Outline} (l : Line) (h : l ∈ Entry.heads o) :
    l ∈ Outline.lines o :=
  (Outline.heads_sublist o).subset h

/-! ### First lines -/

/-- The first line of entries that stand no deeper than at the indentation
`j`, before lines that do not either. -/
theorem Section.head?_lines_append {j : Nat} {es : Section} {rest : List Line} (hes : Section.Nested j es)
    (hrest : ∀ m ∈ rest.head?, m.indent ≤ j) :
    ∀ m ∈ (Section.lines es ++ rest).head?, m.indent ≤ j := by
  cases es with
  | nil => exact hrest
  | cons e es =>
    rw [Section.lines, e.lines_eq]
    intro m hm
    obtain rfl := Option.some.inj hm
    exact Nat.le_of_eq hes.1

theorem Outline.head?_lines {k : Nat} {o : Outline} (ho : Outline.Nested k o) :
    (Outline.lines o).head? = Outline.first? o := by
  rcases o with _ | ⟨_ | ⟨e, s⟩, more⟩
  · rfl
  · obtain ⟨⟨j, hj, -⟩, -⟩ := ho
    cases hj
  · rw [Outline.lines, Section.lines, e.lines_eq]
    rfl

/-- The first line of an outline that is shallower than the indentation `j`,
before lines that are too. -/
theorem Outline.head?_lines_append {j k : Nat} {o : Outline} {rest : List Line} (ho : Outline.Nested k o)
    (hj : ∀ i ∈ Outline.indent? o, i < j) (hrest : ∀ m ∈ rest.head?, m.indent < j) :
    ∀ m ∈ (Outline.lines o ++ rest).head?, m.indent < j := by
  intro m hm
  rw [List.head?_append, Outline.head?_lines ho] at hm
  rw [Outline.indent?_eq_first?] at hj
  cases hfirst : Outline.first? o with
  | none => exact hrest m (by simpa [hfirst] using hm)
  | some l =>
    obtain rfl : l = m := by simpa [hfirst] using hm
    exact hj _ (by rw [hfirst]; rfl)

/-! ### Bodies -/

theorem Outline.length_lines_drop (o : Outline) :
    (Outline.lines (o.drop 1)).length ≤ (Outline.lines o).length := by
  cases o with
  | nil => exact Nat.le_refl _
  | cons s more =>
    rw [Outline.lines, List.length_append]
    exact Nat.le_add_left ..

theorem Outline.Nested.drop {k : Nat} {o : Outline} (h : Outline.Nested k o) :
    Outline.Nested k (o.drop 1) := by
  cases o with
  | nil => trivial
  | cons s more => exact h.2

theorem Entry.under_of_body {e : Entry} (h : e.body = some none) : e.under = [] := by
  rcases e with ⟨l, _ | ⟨s, more⟩⟩
  · rfl
  · rw [body, Option.map_eq_some_iff] at h
    obtain ⟨b, -, hb⟩ := h
    cases hb

theorem Entry.inner_eq_indent? (e : Entry) : e.inner = Outline.indent? e.under := rfl

theorem Entry.isSome_inner_of_body {e : Entry} (he : e.Nested) {b : Block} (hb : e.body = some (some b)) :
    e.inner.isSome = true := by
  rcases e with ⟨l, _ | ⟨s, more⟩⟩
  · rw [body] at hb
    cases hb
  · obtain ⟨⟨i, hi, -⟩, -⟩ := he
    simp [inner, under, hi]

/-! ### Section by section -/

/-- The report of a section that follows another one. -/
def dedent (s : Section) : Block :=
  s.head?.toList.map fun e => .malformed e.line.number .inconsistentDedent

theorem Outline.read?_cons (s : Section) (more : Outline) :
    Outline.read? (s :: more) =
      (readSection none s).bind fun a => (readDedents more).map (a ++ ·) := by
  rw [Outline.read?]
  cases readSection none s with
  | none => rfl
  | some a => cases readDedents more <;> rfl

theorem readDedents_cons (s : Section) (more : Outline) :
    readDedents (s :: more) =
      (readSection none s).bind fun a => (readDedents more).map (dedent s ++ a ++ ·) := by
  rw [readDedents]
  cases readSection none s with
  | none => rfl
  | some a => cases readDedents more <;> rfl

section Induction

variable {P : List Line → Block → Prop} (nil : P [] [])
  (append : ∀ {ls ms : List Line} {a b : Block}, P ls a → P ms b → P (ls ++ ms) (a ++ b))
  (read : ∀ {s : Section} {i : Nat} {b : Block}, Section.Nested i s → readSection none s = some b →
    P (Section.lines s) b)
  (report : ∀ {s : Section} {b : Block}, P (Section.lines s) b → P (Section.lines s) (dedent s ++ b))

include nil append read report

theorem induction_readDedents : ∀ {o : Outline} {least : Nat} {b : Block}, Outline.Nested least o →
    readDedents o = some b → P (Outline.lines o) b
  | [], _, _, _, h => by
    cases h
    exact nil
  | s :: more, least, b, hn, h => by
    rw [Outline.Nested] at hn
    obtain ⟨⟨i, -, -, hs, -⟩, hmore⟩ := hn
    rw [readDedents] at h
    obtain ⟨first, hfirst, h⟩ := Option.bind_eq_some_iff.1 h
    obtain ⟨rest, hrest, h⟩ := Option.bind_eq_some_iff.1 h
    cases h
    exact append (report (read hs hfirst)) (induction_readDedents hmore hrest)

/-- **What holds of every section holds of every list of lines and its
block**, if it holds of no lines, of lines put together, and of a section that
is reported as a dedent. -/
theorem Block.induction_ofLines {ls : List Line} {b : Block} (h : Block.ofLines? ls = some b) : P ls b := by
  have hn := Outline.nested_ofLines ls
  rw [← Outline.lines_ofLines ls]
  unfold Block.ofLines? at h
  cases ho : Outline.ofLines ls with
  | nil =>
    rw [ho] at h
    cases h
    exact nil
  | cons s more =>
    rw [ho] at h hn
    obtain ⟨⟨i, -, -, hs, -⟩, hmore⟩ := hn
    obtain ⟨first, hfirst, h⟩ := Option.bind_eq_some_iff.1 h
    obtain ⟨rest, hrest, h⟩ := Option.bind_eq_some_iff.1 h
    cases h
    exact append (read hs hfirst) (induction_readDedents nil append read report hmore hrest)

end Induction

end Offside

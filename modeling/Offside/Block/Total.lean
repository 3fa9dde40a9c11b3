/-
# Reading blocks never stops on scanned lines

A line whose kind is that of its text begins with the keyword that its kind
promises, so the keyword can be cut off and the line can be read. Hence a list
of such lines, the scanned lines of any source text among them, always has its
block.

Key definition: `Line.Classified`.
Key theorems: `Line.Kind.startsWithWord_of_ofText`, `isSome_readSection`,
`Block.isSome_ofLines`.
-/
import Offside.Block

namespace Offside

/-- The kind of a line is that of its text. -/
def Line.Classified (l : Line) : Prop := l.kind = Kind.ofText l.text

namespace Line.Kind

/-- Whether a kind is given by a first word. -/
def hasFirstWord (k : Kind) : Bool := byFirstWord.any fun entry => entry.2 = k

theorem hasFirstWord_ofAssignment (a : Assignment) : (ofAssignment a).hasFirstWord = false := by
  unfold ofAssignment
  split
  · rfl
  · split <;> rfl

theorem hasFirstWord_ofShape (t : Text) : (ofShape t).hasFirstWord = false := by
  unfold ofShape
  split
  · rfl
  · split
    · split
      · exact hasFirstWord_ofAssignment _
      · rfl
    · rfl

theorem hasFirstWord_of_lookup {t : Text} {k : Kind} (h : byWholeText.lookup t = some k) :
    k.hasFirstWord = false := by
  simp only [byWholeText, List.lookup_cons, List.lookup_nil] at h
  split at h
  · cases h; rfl
  · split at h
    · cases h; rfl
    · split at h
      · cases h; rfl
      · cases h

/-- **A line of a kind that a first word gives begins with that word.** -/
theorem startsWithWord_of_ofText {t w : Text} {k : Kind} (hw : (w, k) ∈ byFirstWord)
    (h : ofText t = k) : startsWithWord w t = true := by
  unfold ofText at h
  split at h
  · next entry he =>
    have hfound := List.find?_some he
    have hmem := List.mem_of_find?_eq_some he
    subst h
    simp only [byFirstWord, List.mem_cons, List.not_mem_nil, or_false] at hw hmem
    rcases hmem with rfl | rfl | rfl | rfl | rfl | rfl | rfl <;> simp_all
  · have hk : k.hasFirstWord = true := by
      unfold hasFirstWord
      rw [List.any_eq_true]
      exact ⟨(w, k), hw, by simp⟩
    split at h
    · subst h
      cases hk
    · cases hl : byWholeText.lookup t with
      | some k' =>
        rw [hl, Option.getD_some] at h
        rw [← h, hasFirstWord_of_lookup hl] at hk
        cases hk
      | none =>
        rw [hl, Option.getD_none] at h
        rw [← h, hasFirstWord_ofShape] at hk
        cases hk

end Line.Kind

/-- Whether every character of a word is one byte long. -/
def isOneByteEach (w : Text) : Bool := w.all fun c => c.utf8Size == 1

theorem utf8Length_of_isOneByteEach : ∀ {w : Text}, isOneByteEach w = true →
    w.utf8Length = w.length
  | [], _ => rfl
  | c :: cs, h => by
    simp only [isOneByteEach, List.all_cons, Bool.and_eq_true, beq_iff_eq] at h
    rw [Text.utf8Length, h.1, utf8Length_of_isOneByteEach h.2, List.length_cons]
    omega

theorem isSome_afterKeyword {w t : Text} (hw : isOneByteEach w = true)
    (h : startsWithWord w t = true) : (afterKeyword? w t).isSome = true := by
  unfold startsWithWord at h
  split at h
  · next rest hrest =>
    unfold afterKeyword?
    rw [Text.eq_of_isPrefixOf hrest, ← utf8Length_of_isOneByteEach hw, Text.dropBytes?_append]
    rfl
  · cases h

namespace Line.Classified

theorem isSome_afterKeyword {l : Line} (h : l.Classified) {w : Text} {k : Line.Kind} (hk : l.kind = k)
    (hw : (w, k) ∈ Line.Kind.byFirstWord) (hb : isOneByteEach w = true) :
    (afterKeyword? w l.text).isSome = true :=
  Offside.isSome_afterKeyword hb (Line.Kind.startsWithWord_of_ofText hw (h.symm.trans hk))

theorem isSome_sentence {l : Line} (h : l.Classified) : l.sentence?.isSome = true := by
  unfold Line.sentence?
  split
  case h_2 hk =>
    have := h.isSome_afterKeyword hk (w := "if") (by decide) (by decide)
    rwa [Option.isSome_map, readHeader?, Option.isSome_map]
  case h_5 hk =>
    have := h.isSome_afterKeyword hk (w := "while") (by decide) (by decide)
    rwa [Option.isSome_map, readHeader?, Option.isSome_map]
  case h_6 hk =>
    have := h.isSome_afterKeyword hk (w := "for") (by decide) (by decide)
    rwa [Option.isSome_map, RangeLoop.ofText?, Option.isSome_map]
  case h_7 hk =>
    have := h.isSome_afterKeyword hk (w := "return") (by decide) (by decide)
    rwa [Option.isSome_map]
  case h_1 => split <;> rfl
  case h_8 => split <;> rfl
  all_goals rfl

end Line.Classified

theorem Entry.isSome_step {e : Entry} (h : e.line.Classified) (chain : Option Chain)
    (body : Option Block) : (e.step chain (some body)).isSome = true := by
  unfold step
  split
  · next c hk =>
    obtain ⟨rest, hrest⟩ := Option.isSome_iff_exists.1
      (h.isSome_afterKeyword hk (w := "elif") (by decide) (by decide))
    rw [elseIf, readHeader?, hrest, Option.map_some, Option.bind_some]
    split <;> rfl
  · next c hk =>
    obtain ⟨rest, hrest⟩ := Option.isSome_iff_exists.1
      (h.isSome_afterKeyword hk (w := "else") (by decide) (by decide))
    rw [orElse, hrest, Option.bind_some]
    split <;> rfl
  · obtain ⟨s, hs⟩ := Option.isSome_iff_exists.1 h.isSome_sentence
    rw [Option.isSome_map, start, hs, Option.bind_some]
    cases s <;> rfl

mutual

theorem Entry.isSome_body : ∀ e : Entry, (∀ l ∈ e.lines, l.Classified) → e.body.isSome = true
  | .mk _ [], _ => by simp [Entry.body]
  | .mk _ (s :: more), h => by
    rw [Entry.body, Option.isSome_map]
    exact isSome_readSection s (fun l hl => h l (by simp [Entry.lines, Outline.lines, hl])) none

/-- **A section of classified lines can be read.** -/
theorem isSome_readSection : ∀ s : List Entry, (∀ l ∈ Section.lines s, l.Classified) →
    ∀ chain : Option Chain, (readSection chain s).isSome = true
  | [], _, _ => by simp [readSection]
  | e :: es, h, chain => by
    have he : e.line.Classified := h _ (by cases e; simp [Section.lines, Entry.lines, Entry.line])
    obtain ⟨body, hbody⟩ := Option.isSome_iff_exists.1
      (Entry.isSome_body e fun l hl => h l (by simp [Section.lines, hl]))
    obtain ⟨⟨trees, next⟩, hstep⟩ := Option.isSome_iff_exists.1 (e.isSome_step he chain body)
    obtain ⟨b, hb⟩ := Option.isSome_iff_exists.1
      (isSome_readSection es (fun l hl => h l (by simp [Section.lines, hl])) next)
    rw [readSection, hbody, hstep]
    simp [hb]

end

theorem isSome_readDedents : ∀ o : Outline, (∀ l ∈ Outline.lines o, l.Classified) →
    (readDedents o).isSome = true
  | [], _ => rfl
  | s :: more, h => by
    obtain ⟨b, hb⟩ := Option.isSome_iff_exists.1
      (isSome_readSection s (fun l hl => h l (by simp [Outline.lines, hl])) none)
    obtain ⟨c, hc⟩ := Option.isSome_iff_exists.1
      (isSome_readDedents more fun l hl => h l (by simp [Outline.lines, hl]))
    simp [readDedents, hb, hc]

/-- **Classified lines always have their block.** -/
theorem Block.isSome_ofLines {ls : List Line} (h : ∀ l ∈ ls, l.Classified) :
    (Block.ofLines? ls).isSome = true := by
  rw [← Outline.lines_ofLines ls] at h
  unfold Block.ofLines?
  cases ho : Outline.ofLines ls with
  | nil => rfl
  | cons s more =>
    rw [ho] at h
    obtain ⟨b, hb⟩ := Option.isSome_iff_exists.1
      (isSome_readSection s (fun l hl => h l (by simp [Outline.lines, hl])) none)
    obtain ⟨c, hc⟩ := Option.isSome_iff_exists.1
      (isSome_readDedents more fun l hl => h l (by simp [Outline.lines, hl]))
    simp [Outline.read?, hb, hc]

end Offside

/-
# Conversions never go out of range

Three things could stop a conversion: a reader that cuts a text at a place
outside it or inside a character, a line that ends before the keyword that its
kind promises, and a header or statement that its reader does not expect. None
of them happens. Readers that go by places yield what the readers of the
conversion yield, whatever the text (`Text.inRange`); the lines of a source
text keep the promises of their kinds (`Line.Classified.promises`), in
functions and in the entry point; so every conversion yields something, and an
unsupported statement is always a line of no known kind.

Key definitions: `Text.InRange`, `Line.Promises`.
Key theorems: `Text.inRange`, `Line.Classified.promises`,
`isSome_convertProgram`, `convertProgram_in_range`.
-/
import Offside.Proofs.Causes
import Offside.Proofs.Cutting
import Offside.Proofs.Preservation
import Offside.Proofs.Sides
import Offside.Proofs.Words

namespace Offside

/-- The readers that cut the text `t` at places stay within it, and read what
the others read. -/
structure Text.InRange (t : Text) : Prop where
  callArguments : ∀ name, callArgumentsBySlices? name t = some (callArguments? name t)
  call : isCallBySlices? t = some (isCall t)
  collection : Collection.findBySlices? t = some (Collection.find? t)
  arguments : splitBySlices? t = some (splitArguments t)
  signature : Signature.bySlices? t = some (Signature.ofText? t)
  assignment : Assignment.bySlices? t = some (Assignment.ofText? t)
  translation : translateBySlices? t = some (translate? t)

/-- **No reader leaves its text.** -/
theorem Text.inRange (t : Text) : t.InRange where
  callArguments name := callArgumentsBySlices?_eq name t
  call := isCallBySlices?_eq t
  collection := Collection.findBySlices?_eq t
  arguments := splitBySlices?_eq t
  signature := Signature.bySlices?_eq t
  assignment := Assignment.bySlices?_eq t
  translation := translateBySlices?_eq t

namespace Line

/-- What the kind of a line promises about its text. -/
structure Promises (l : Line) : Prop where
  /-- The keyword of the kind is there and can be cut off. -/
  keyword : ∀ w, (w, l.kind) ∈ Kind.byFirstWord →
    ∃ rest, l.text = w ++ rest ∧ afterKeyword? w l.text = some rest
  /-- A line that prints is a call. -/
  arguments : l.kind = .print → (callArguments? "print" l.text).isSome = true
  /-- A line that assigns has two sides, and an operator exactly if it
  updates. -/
  sides : l.kind = .assignment ∨ l.kind = .update →
    ∃ a, Assignment.ofText? l.text = some a ∧ (a.operator.isSome = true ↔ l.kind = .update)

theorem Kind.isOneByteEach_of_mem_byFirstWord {w : Text} {k : Kind} (h : (w, k) ∈ byFirstWord) :
    isOneByteEach w = true := by
  have hall : ∀ e ∈ byFirstWord, isOneByteEach e.1 = true := by decide
  exact hall (w, k) h

/-- **A classified line keeps the promises of its kind.** -/
theorem Classified.promises {l : Line} (h : l.Classified) : l.Promises where
  keyword w hw := by
    have hbytes := Kind.isOneByteEach_of_mem_byFirstWord hw
    have hstarts := Kind.startsWithWord_of_ofText hw h.symm
    unfold startsWithWord at hstarts
    cases hrest : w.isPrefixOf? l.text with
    | none =>
      rw [hrest] at hstarts
      cases hstarts
    | some rest =>
      have htext := Text.eq_of_isPrefixOf hrest
      refine ⟨rest, htext, ?_⟩
      rw [afterKeyword?, htext, ← utf8Length_of_isOneByteEach hbytes, Text.dropBytes?_append]
  arguments hk := Kind.isSome_callArguments_of_ofText (h.symm.trans hk)
  sides hk := by
    have htext : l.kind = Kind.ofText l.text := h
    rw [htext] at hk ⊢
    exact Kind.exists_assignment_of_ofText hk

end Line

/-! ### Whole conversions -/

theorem Function.isSome_lower {f : Function} (h : ∀ l ∈ f.body, l.Classified) :
    f.lower.value.isSome = true := by
  rw [value_lower]
  by_cases hbody : f.body = []
  · rw [if_pos hbody]
    rfl
  · rw [if_neg hbody, Option.isSome_map]
    exact Block.isSome_ofLines h

/-- **Every conversion yields something.** -/
theorem isSome_convertProgram (source : Text) : (convertProgram source).value.isSome = true := by
  obtain ⟨hfunctions, hentry⟩ := Program.classified_ofLines source
  rw [value_convertProgram, Option.isSome_map, Program.isSome_lower_iff]
  refine ⟨fun f hf => Function.isSome_lower (hfunctions f hf), ?_⟩
  rw [Program.value_lowerEntryPoint, Option.isSome_map]
  exact Block.isSome_ofLines hentry

theorem Block.unknown_of_unsupportedStatement {ls : List Line} (hc : ∀ l ∈ ls, l.Classified) :
    ∃ b, Block.ofLines? ls = some b ∧ ∀ d ∈ Block.problems b, ∀ t, d.problem = .unsupportedStatement t →
      ∃ l ∈ ls, l.kind = .unknown ∧ l.number = d.line ∧ l.text = t := by
  obtain ⟨b, hb⟩ := Option.isSome_iff_exists.1 (Block.isSome_ofLines hc)
  refine ⟨b, hb, fun d hd t ht => ?_⟩
  obtain ⟨l, hl, hnumber, hcauses⟩ := Block.accounted_of_ofLines hb d hd
  rw [ht] at hcauses
  obtain ⟨hkind, htext⟩ := (hc l hl).kind_of_causes hcauses
  exact ⟨l, hl, hkind, hnumber, htext⟩

/-- **A conversion never goes out of range.** Readers stay within their texts,
the lines of the source keep the promises of their kinds, the conversion
yields something, and in the functions and in the entry point an unsupported
statement is a line of no known kind. -/
theorem convertProgram_in_range (source : Text) :
    (∀ t : Text, t.InRange) ∧ (∀ l ∈ linesOf source, l.Promises) ∧
      (convertProgram source).value.isSome = true ∧
      ∀ ls, ls = (Program.ofLines (linesOf source)).entryPoint ∨
          (∃ f ∈ (Program.ofLines (linesOf source)).functions.values, ls = f.body) →
        ∃ b, Block.ofLines? ls = some b ∧
          ∀ d ∈ Block.problems b, ∀ t, d.problem = .unsupportedStatement t →
            ∃ l ∈ ls, l.kind = .unknown ∧ l.number = d.line ∧ l.text = t := by
  obtain ⟨hfunctions, hentry⟩ := Program.classified_ofLines source
  refine ⟨Text.inRange, fun l hl => ?_, isSome_convertProgram source, ?_⟩
  · exact Line.Classified.promises (kind_of_mem_linesOf hl)
  · rintro ls (rfl | ⟨f, hf, rfl⟩)
    · exact Block.unknown_of_unsupportedStatement hentry
    · exact Block.unknown_of_unsupportedStatement (hfunctions f hf)

end Offside

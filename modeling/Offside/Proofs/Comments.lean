/-
# Comments and blank lines leave no trace

A line of the source that is blank or a comment is idle: it shifts the numbers
of the lines after it and does nothing else. Two scans of lines that agree but
for their numbers are renumberings of one list, in which a line's number is its
place (`placed`), so they come to the same class, or to the same problems on
lines of the same places (`Program.agrees_of_alike`).

Key definitions: `IsIdle`, `spoken`, `Line.Alike`, `Conversion.Agrees`.
Key theorems: `Program.agrees_of_alike`, `alike_of_spoken`,
`convertProgram_alike`.
-/
import Offside.Proofs.Numbers
import Offside.Proofs.Safety
import Offside.Proofs.Trimming

namespace Offside

/-! ### Lines that agree but for their numbers -/

/-- Two lines agree but for their numbers. -/
structure Line.Alike (l m : Line) : Prop where
  text : l.text = m.text
  indent : l.indent = m.indent
  kind : l.kind = m.kind

/-- Two diagnostics report the same problem, on lines of the same place in
their lists. -/
structure Diagnostic.Alike (ls ms : List Line) (d e : Diagnostic) : Prop where
  problem : d.problem = e.problem
  place : ∃ i : Nat, ls[i]?.map Line.number = some d.line ∧ ms[i]?.map Line.number = some e.line

/-- Two conversions of the lines `ls` and `ms` yield the same code, or the
same problems on lines of the same places. -/
inductive Conversion.Agrees (ls ms : List Line) : Conversion → Conversion → Prop where
  | code (text : Text) : Agrees ls ms (.code text) (.code text)
  | report {ds es : List Diagnostic} (h : List.Forall₂ (Diagnostic.Alike ls ms) ds es) :
    Agrees ls ms (.report ds) (.report es)

/-- Lines whose numbers are their places. -/
def placed (ls : List Line) : List Line := ls.mapIdx fun i l => { l with number := i }

/-- The number of the line in a place. -/
def numberAt (ls : List Line) (i : Nat) : Nat := (ls[i]?.map Line.number).getD 0

theorem placed_renumber (ls : List Line) : (placed ls).map (Line.renumber (numberAt ls)) = ls := by
  refine List.ext_getElem? fun i => ?_
  rw [List.getElem?_map, placed, List.getElem?_mapIdx]
  cases h : ls[i]? with
  | none => rfl
  | some l =>
    have hnumber : numberAt ls i = l.number := by rw [numberAt, h]; rfl
    simp only [Option.map_some, Line.renumber, hnumber]

/-- What is made of a line's place and of all but its number is made of the
other line as well. -/
theorem mapIdx_eq_of_alike {ls ms : List Line} (h : List.Forall₂ Line.Alike ls ms) :
    ∀ {make : Nat → Line → Line}, (∀ i l m, Line.Alike l m → make i l = make i m) →
      ls.mapIdx make = ms.mapIdx make := by
  induction h with
  | nil => exact fun _ => rfl
  | cons hl _ ih =>
    intro make hmake
    rw [List.mapIdx_cons, List.mapIdx_cons, hmake 0 _ _ hl, ih fun i l m => hmake (i + 1) l m]

theorem placed_eq_of_alike {ls ms : List Line} (h : List.Forall₂ Line.Alike ls ms) :
    placed ls = placed ms :=
  mapIdx_eq_of_alike h fun i l m hlm => by rw [hlm.text, hlm.indent, hlm.kind]

theorem lt_length_of_mem_placed {ls : List Line} {l : Line} (h : l ∈ placed ls) :
    l.number < ls.length := by
  obtain ⟨i, hi, rfl⟩ := List.mem_mapIdx.1 h
  exact hi

theorem numberAt_eq {ls : List Line} {i : Nat} (h : i < ls.length) :
    ls[i]?.map Line.number = some (numberAt ls i) := by
  rw [numberAt, List.getElem?_eq_getElem h]
  rfl

/-- **Programs of lines that agree but for their numbers come to the same
class, or to the same problems on lines of the same places.** -/
theorem Program.agrees_of_alike {ls ms : List Line} (h : List.Forall₂ Line.Alike ls ms)
    {g : Generated Java.Class} (hg : (ofLines ls).lower.value = some g) :
    ∃ g', (ofLines ms).lower.value = some g' ∧
      Conversion.Agrees ls ms (.ofGenerated g) (.ofGenerated g') := by
  have hls : (ofLines ls).lower.value =
      (ofLines (placed ls)).lower.value.map (Generated.renumber (numberAt ls)) := by
    rw [← value_lower_renumber, ← ofLines_renumber, placed_renumber]
  have hms : (ofLines ms).lower.value =
      (ofLines (placed ls)).lower.value.map (Generated.renumber (numberAt ms)) := by
    rw [placed_eq_of_alike h, ← value_lower_renumber, ← ofLines_renumber, placed_renumber]
  rw [hls, Option.map_eq_some_iff] at hg
  obtain ⟨g₀, hg₀, rfl⟩ := hg
  refine ⟨Generated.renumber (numberAt ms) g₀, by rw [hms, hg₀, Option.map_some], ?_⟩
  cases g₀ with
  | ok c => exact .code c.render
  | error ds =>
    refine .report (List.forall₂_map_left_iff.2 (List.forall₂_map_right_iff.2 (List.forall₂_same.2 ?_)))
    intro d hd
    obtain ⟨l, hl, hline⟩ := line_mem_of_lower hg₀ d hd
    have hplace : d.line < ls.length := hline ▸ lt_length_of_mem_placed hl
    exact ⟨rfl, d.line, numberAt_eq hplace, numberAt_eq (h.length_eq ▸ hplace)⟩

/-! ### Idle lines -/

/-- Whether a line of the source is blank, or a comment: its first character
other than white space is the comment mark. -/
def IsIdle (raw : Text) : Prop := ∀ c, raw.find? (fun c => !isBlank c) = some c → c = '#'

instance (raw : Text) : Decidable (IsIdle raw) :=
  decidable_of_iff ((raw.find? fun c => !isBlank c).all (· = '#')) (by simp [IsIdle, Option.all_eq_true])

/-- The lines of a source text that are not idle. -/
def spoken (source : Text) : List Text := (Text.pieces '\n' source).filter fun raw => ¬ IsIdle raw

namespace Line

/-- Exactly the idle lines of the source are no logical lines. -/
theorem ofRaw?_eq_none_iff (number : Nat) (raw : Text) : ofRaw? number raw = none ↔ IsIdle raw := by
  have hhead := Text.head?_trim raw
  unfold ofRaw? IsIdle
  simp only [ite_eq_left_iff, reduceCtorEq, imp_false, not_not, ← hhead]
  cases Text.trim raw with
  | nil => simp
  | cons c cs => simp

theorem ofRaw?_renumber {f : Nat → Nat} (number : Nat) (raw : Text) :
    (ofRaw? number raw).map (renumber f) = ofRaw? (f number) raw := by
  unfold ofRaw?
  simp only [apply_ite (Option.map (renumber f)), Option.map_none, Option.map_some]
  rfl

theorem alike_of_renumber {f g : Nat → Nat} {l m : Line} (h : l.renumber f = m.renumber g) :
    l.Alike m := by
  obtain ⟨htext, hindent, -, hkind⟩ := Line.mk.inj h
  exact ⟨htext, hindent, hkind⟩

end Line

theorem linesFrom_renumber : ∀ (raws : List Text) (number : Nat),
    (linesFrom number raws).map (Line.renumber fun _ => 0) =
      (raws.filter fun raw => ¬ IsIdle raw).filterMap (Line.ofRaw? 0)
  | [], _ => rfl
  | raw :: raws, number => by
    have ih := linesFrom_renumber raws (number + 1)
    have hraw := Line.ofRaw?_renumber (f := fun _ => 0) number raw
    have hidle := Line.ofRaw?_eq_none_iff 0 raw
    rw [linesFrom, List.map_append, ih]
    by_cases h : IsIdle raw
    · rw [hidle.2 h, Option.map_eq_none_iff] at hraw
      simp [hraw, h]
    · obtain ⟨l, hl⟩ := Option.ne_none_iff_exists'.1 (mt hidle.1 h)
      rw [hl] at hraw
      obtain ⟨m, hm, hmap⟩ := Option.map_eq_some_iff.1 hraw
      simp [h, hl, hm, hmap]

theorem alike_of_spoken {s t : Text} (h : spoken s = spoken t) :
    List.Forall₂ Line.Alike (linesOf s) (linesOf t) := by
  have heq : (linesOf s).map (Line.renumber fun _ => 0) = (linesOf t).map (Line.renumber fun _ => 0) := by
    rw [linesOf, linesOf, linesFrom_renumber, linesFrom_renumber]
    exact congrArg (List.filterMap (Line.ofRaw? 0)) h
  rw [← List.forall₂_eq_eq_eq, List.forall₂_map_left_iff, List.forall₂_map_right_iff] at heq
  exact heq.imp fun l m hlm => Line.alike_of_renumber hlm

theorem spoken_insert (before after : Text) {idle : Text} (hline : '\n' ∉ idle) (hidle : IsIdle idle) :
    spoken (before ++ '\n' :: (idle ++ '\n' :: after)) = spoken (before ++ '\n' :: after) := by
  rw [spoken, spoken, Text.pieces_append, Text.pieces_append, Text.pieces_append,
    Text.pieces_of_not_mem hline, List.filter_append, List.filter_append, List.filter_append]
  simp [hidle]

/-- **Line numbers, blank lines and comments never influence the translation.**
Two source texts whose logical lines agree, place by place, but for their
numbers are converted to the same code, or to reports of the same problems in
the same order, on lines of the same places. That is so of any two texts of
the same lines, idle ones apart; and an idle line put between two lines, or
taken away from there, leaves the others. -/
theorem convertProgram_alike :
    (∀ s t : Text, List.Forall₂ Line.Alike (linesOf s) (linesOf t) →
      ∃ c d, (convertProgram s).value = some c ∧ (convertProgram t).value = some d ∧
        c.Agrees (linesOf s) (linesOf t) d) ∧
    (∀ s t : Text, spoken s = spoken t → List.Forall₂ Line.Alike (linesOf s) (linesOf t)) ∧
    ∀ before idle after : Text, '\n' ∉ idle → IsIdle idle →
      spoken (before ++ '\n' :: (idle ++ '\n' :: after)) = spoken (before ++ '\n' :: after) := by
  refine ⟨fun s t h => ?_, fun s t => alike_of_spoken, fun before idle after => spoken_insert before after⟩
  obtain ⟨c, hc⟩ := Option.isSome_iff_exists.1 (isSome_convertProgram s)
  rw [value_convertProgram, Option.map_eq_some_iff] at hc
  obtain ⟨g, hg, rfl⟩ := hc
  obtain ⟨g', hg', hagrees⟩ := Program.agrees_of_alike h hg
  refine ⟨_, _, ?_, ?_, hagrees⟩
  · rw [value_convertProgram, hg, Option.map_some]
  · rw [value_convertProgram, hg', Option.map_some]

/-- A literal left open. -/
def plain : Text := "x = 1\ny = \"a\n".toList

/-- The same lines with notes and blank lines between them. -/
def annotated : Text := "# notes\nx = 1\n\n   # more of them\ny = \"a\n".toList

theorem convertProgram_alike_annotated :
    spoken plain = spoken annotated ∧
      (∃ c d, (convertProgram plain).value = some c ∧ (convertProgram annotated).value = some d ∧
        c.Agrees (linesOf plain) (linesOf annotated) d) ∧
      (Program.ofLines (linesOf plain)).faults = [⟨2, .unterminatedString "\"a"⟩] ∧
      (Program.ofLines (linesOf annotated)).faults = [⟨5, .unterminatedString "\"a"⟩] := by
  have hspoken : spoken plain = spoken annotated := by decide +kernel
  obtain ⟨hconvert, halike, -⟩ := convertProgram_alike
  exact ⟨hspoken, hconvert _ _ (halike _ _ hspoken), by decide +kernel, by decide +kernel⟩

end Offside

/-
# What a scan keeps of a line

A logical line stands in a line of its source: some spaces, white space that
starts with none, a trimmed text, white space (`Line.StandsIn`). The scan keeps
the number of the spaces and the text, so a line made of just these is scanned
to the same logical line. White space elsewhere has no effect, carriage returns
before line feeds among it.

Key definitions: `Text.lines`, `Line.StandsIn`, `plainRow`, `rebuilt`,
`withReturns`, `Scanned`.
Key theorems: `Line.ofRaw?_eq_some_iff`, `linesFrom_lines`, `linesOf_congr`,
`scanned_linesOf`, `scanning_stable`.
-/
import Offside.Conversion
import Offside.Proofs.Comments
import Offside.Proofs.Literals
import Offside.Proofs.Trimming

namespace Offside

/-! ### Lines of a text -/

namespace Text

/-- A line without a carriage return at its end. -/
def dropReturn (line : Text) : Text := (dropEnd? '\r' line).getD line

/-- The lines that pieces between line feeds are. The last piece has no line
feed after it, and is no line if it is empty. -/
def endedLines : List Text → List Text
  | [] => []
  | [last] => if last = [] then [] else [last]
  | piece :: next :: more => dropReturn piece :: endedLines (next :: more)

/-- The lines of a text. A line feed ends a line, together with a carriage
return just before it. -/
def lines (t : Text) : List Text := endedLines (pieces '\n' t)

theorem dropReturn_cases (line : Text) : dropReturn line = line ∨ line = dropReturn line ++ ['\r'] := by
  unfold dropReturn
  cases h : dropEnd? '\r' line with
  | none => exact .inl rfl
  | some front => exact .inr ((dropEnd?_eq_some_iff '\r').1 h)

/-- A line is a piece, or a piece without the carriage return at its end. -/
theorem exists_of_mem_endedLines {line : Text} : ∀ {ps : List Text}, line ∈ endedLines ps →
    ∃ p ∈ ps, line = p ∨ p = line ++ ['\r']
  | [], h => absurd h List.not_mem_nil
  | [last], h => by
    rw [endedLines] at h
    split at h
    · exact absurd h List.not_mem_nil
    · exact ⟨last, List.mem_cons_self .., .inl (List.mem_singleton.1 h)⟩
  | piece :: next :: more, h => by
    rw [endedLines] at h
    rcases List.mem_cons.1 h with rfl | h
    · exact ⟨piece, List.mem_cons_self .., dropReturn_cases piece⟩
    · obtain ⟨p, hp, hline⟩ := exists_of_mem_endedLines h
      exact ⟨p, List.mem_cons_of_mem _ hp, hline⟩

theorem not_mem_of_mem_lines {t line : Text} (h : line ∈ lines t) : '\n' ∉ line := by
  obtain ⟨p, hp, rfl | rfl⟩ := exists_of_mem_endedLines h
  · exact not_mem_of_mem_pieces '\n' hp
  · exact fun hn => not_mem_of_mem_pieces '\n' hp (List.mem_append_left _ hn)

end Text

/-! ### The logical line of a line -/

/-- A logical line stands in the line `raw` of the source, which has the number
`number`: after spaces, as many as its indentation, and other white space. -/
structure Line.StandsIn (number : Nat) (raw : Text) (l : Line) : Prop where
  number : l.number = number
  kind : l.kind = Kind.ofText l.text
  ne_nil : l.text ≠ []
  isTrimmed : Text.IsTrimmed l.text
  head : l.text.head? ≠ some '#'
  parts : ∃ gap back, raw = List.replicate l.indent ' ' ++ gap ++ l.text ++ back ∧ gap.head? ≠ some ' ' ∧
    (∀ c ∈ gap, isBlank c = true) ∧ ∀ c ∈ back, isBlank c = true

theorem takeWhile_space {k : Nat} {gap text : Text} (hgap : gap.head? ≠ some ' ') (hne : text ≠ [])
    (htext : Text.IsTrimmed text) (back : Text) :
    (List.replicate k ' ' ++ gap ++ text ++ back).takeWhile (· = ' ') = List.replicate k ' ' := by
  have hstop : (gap ++ (text ++ back)).takeWhile (· = ' ') = [] := by
    cases gap with
    | cons c gap =>
      have hc : c ≠ ' ' := fun h => hgap (by rw [h]; rfl)
      rw [List.cons_append, List.takeWhile_cons_of_neg (by simpa using hc)]
    | nil =>
      obtain ⟨c, cs, rfl⟩ := List.exists_cons_of_ne_nil hne
      have hc : c ≠ ' ' := by
        rintro rfl
        exact absurd (htext.1 ' ' rfl) (by decide)
      rw [List.nil_append, List.cons_append, List.takeWhile_cons_of_neg (by simpa using hc)]
  rw [List.append_assoc, List.append_assoc, List.takeWhile_append_of_pos (by simp), hstop, List.append_nil]

/-- **A line of the source is scanned to the logical line that stands in it.** -/
theorem Line.ofRaw?_eq_some_iff {number : Nat} {raw : Text} {l : Line} :
    ofRaw? number raw = some l ↔ l.StandsIn number raw := by
  unfold ofRaw?
  simp only [Option.ite_none_left_eq_some, Option.some.injEq, not_or]
  constructor
  · rintro ⟨⟨hne, hhead⟩, rfl⟩
    refine ⟨rfl, rfl, hne, Text.isTrimmed_trim raw, hhead, ?_⟩
    obtain ⟨front, back, hraw, hfront, hback⟩ := Text.exists_trim raw
    have hspaces : front = List.replicate (front.takeWhile (· = ' ')).length ' ' ++
        front.dropWhile (· = ' ') := by
      have hall : front.takeWhile (· = ' ') = List.replicate (front.takeWhile (· = ' ')).length ' ' :=
        List.eq_replicate_iff.2 ⟨rfl, fun c hc => by simpa using List.mem_takeWhile_imp hc⟩
      rw [← hall, List.takeWhile_append_dropWhile]
    have hgap : (front.dropWhile (· = ' ')).head? ≠ some ' ' := by
      intro h
      have hstop := List.head?_dropWhile_not (· = ' ') front
      rw [h] at hstop
      simp at hstop
    have hindent : (raw.takeWhile (· = ' ')).length = (front.takeWhile (· = ' ')).length := by
      rw [hraw, hspaces, takeWhile_space hgap hne (Text.isTrimmed_trim raw), List.length_replicate, ← hspaces]
    refine ⟨front.dropWhile (· = ' '), back, ?_, hgap, ?_, hback⟩
    · rw [hindent, ← hspaces]
      exact hraw
    · exact fun c hc => hfront c ((List.dropWhile_sublist _).subset hc)
  · rintro ⟨hnumber, hkind, hne, htrimmed, hhead, gap, back, hraw, hgap, hblank, hback⟩
    have htext : Text.trim raw = l.text := by
      refine Text.trim_eq_iff.2 ⟨htrimmed, List.replicate l.indent ' ' ++ gap, back, hraw, ?_, hback⟩
      intro c hc
      rcases List.mem_append.1 hc with hc | hc
      · rw [List.eq_of_mem_replicate hc]
        decide
      · exact hblank c hc
    have hindent : (raw.takeWhile (· = ' ')).length = l.indent := by
      rw [hraw, takeWhile_space hgap hne htrimmed, List.length_replicate]
    rw [htext, hindent, ← hnumber, ← hkind]
    exact ⟨⟨hne, hhead⟩, rfl⟩

/-- A carriage return at the end of a line leaves no trace. -/
theorem Line.ofRaw?_append_return (number : Nat) (raw : Text) :
    ofRaw? number (raw ++ ['\r']) = ofRaw? number raw := by
  have htrim : Text.trim (raw ++ ['\r']) = Text.trim raw := by
    have hblank : ∀ c ∈ ['\r'], isBlank c = true := List.all_eq_true.1 (by decide)
    simpa using Text.trim_append raw (List.forall_mem_nil _) hblank
  have hspaces : (raw ++ ['\r']).takeWhile (· = ' ') = raw.takeWhile (· = ' ') := by
    rw [List.takeWhile_append]
    split
    · next hall => simp [(List.takeWhile_prefix (· = ' ')).eq_of_length hall]
    · rfl
  rw [ofRaw?, ofRaw?, htrim, hspaces]

/-! ### Scans -/

/-- The logical lines of lines whose numbers count on from each other. -/
theorem linesFrom_congr {f : Text → Text} (h : ∀ number raw, Line.ofRaw? number (f raw) = Line.ofRaw? number raw) :
    ∀ (number : Nat) (raws : List Text), linesFrom number (raws.map f) = linesFrom number raws
  | _, [] => rfl
  | number, raw :: raws => by
    rw [List.map_cons, linesFrom, linesFrom, h, linesFrom_congr h (number + 1) raws]

theorem linesFrom_endedLines : ∀ (number : Nat) (ps : List Text),
    linesFrom number (Text.endedLines ps) = linesFrom number ps
  | _, [] => rfl
  | number, [last] => by
    rw [Text.endedLines]
    split
    · next h => rw [h]; rfl
    · rfl
  | number, piece :: next :: more => by
    have hpiece : Line.ofRaw? number (Text.dropReturn piece) = Line.ofRaw? number piece := by
      rcases Text.dropReturn_cases piece with h | h
      · rw [h]
      · rw [h, Line.ofRaw?_append_return, ← h]
    rw [Text.endedLines, linesFrom, hpiece, linesFrom_endedLines (number + 1) (next :: more), ← linesFrom]

/-- **The logical lines of a text are those of its lines.** -/
theorem linesFrom_lines (source : Text) : linesFrom 1 (Text.lines source) = linesOf source :=
  linesFrom_endedLines 1 _

theorem convertProgram_congr {s t : Text} (h : linesOf s = linesOf t) :
    convertProgram s = convertProgram t := by
  have hscan : scan s = scan t := by rw [scan, scan, h]
  rw [convertProgram, convertProgram, hscan]

/-- A logical line without white space other than the spaces before it. -/
def Line.plain (l : Line) : Text := List.replicate l.indent ' ' ++ l.text

/-- A line of the source without the white space that does not count, empty if
it is no logical line. -/
def plainRow (raw : Text) : Text := ((Line.ofRaw? 0 raw).map Line.plain).getD []

/-- The source text of the lines that are left so. -/
def rebuilt (source : Text) : Text := List.intercalate ['\n'] ((Text.lines source).map plainRow)

/-- The source text with a carriage return before every line feed. -/
def withReturns (source : Text) : Text :=
  source.flatMap fun c => if c = '\n' then ['\r', '\n'] else [c]

theorem Line.StandsIn.congr {n : Nat} {raw : Text} {l : Line} (h : l.StandsIn n raw) (m : Nat) :
    StandsIn m raw { l with number := m } :=
  { h with number := rfl }

theorem Line.StandsIn.plain {n : Nat} {raw : Text} {l : Line} (h : l.StandsIn n raw) :
    l.StandsIn n l.plain :=
  { h with parts := ⟨[], [], by simp [Line.plain], by simp, by simp, by simp⟩ }

/-- **What is left of a line is scanned to the same logical line.** -/
theorem Line.ofRaw?_plainRow (number : Nat) (raw : Text) :
    ofRaw? number (plainRow raw) = ofRaw? number raw := by
  have hnumber := ofRaw?_renumber (f := fun _ => number) 0 raw
  unfold plainRow
  cases h : ofRaw? 0 raw with
  | none =>
    rw [h] at hnumber
    rw [← hnumber]
    rfl
  | some l =>
    rw [h] at hnumber
    rw [← hnumber]
    exact ofRaw?_eq_some_iff.2 ((ofRaw?_eq_some_iff.1 h).plain.congr number)

theorem plainRow_eq {k : Nat} {gap text back : Text} (hgap : gap.head? ≠ some ' ')
    (hblank : ∀ c ∈ gap, isBlank c = true) (hne : text ≠ []) (htrimmed : Text.IsTrimmed text)
    (hhead : text.head? ≠ some '#') (hback : ∀ c ∈ back, isBlank c = true) :
    plainRow (List.replicate k ' ' ++ gap ++ text ++ back) = List.replicate k ' ' ++ text := by
  have hstands : Line.StandsIn 0 (List.replicate k ' ' ++ gap ++ text ++ back)
      ⟨text, k, 0, Line.Kind.ofText text⟩ :=
    ⟨rfl, rfl, hne, htrimmed, hhead, gap, back, rfl, hgap, hblank, hback⟩
  rw [plainRow, Line.ofRaw?_eq_some_iff.2 hstands]
  rfl

theorem not_mem_plainRow {raw : Text} (h : '\n' ∉ raw) : '\n' ∉ plainRow raw := by
  unfold plainRow
  cases hline : Line.ofRaw? 0 raw with
  | none => simp
  | some l =>
    have htext : '\n' ∉ l.text := fun hn => h ((Line.infix_of_ofRaw hline).subset hn)
    simp [Line.plain, htext]

/-- **Sources of which the same is left have the same logical lines.** -/
theorem linesOf_congr {s t : Text} (h : (Text.lines s).map plainRow = (Text.lines t).map plainRow) :
    linesOf s = linesOf t := by
  rw [← linesFrom_lines, ← linesFrom_lines, ← linesFrom_congr Line.ofRaw?_plainRow, h,
    linesFrom_congr Line.ofRaw?_plainRow]

/-- **The rebuilt source has the same logical lines.** -/
theorem linesOf_rebuilt (source : Text) : linesOf (rebuilt source) = linesOf source := by
  rw [← linesFrom_lines source, ← linesFrom_congr Line.ofRaw?_plainRow]
  cases hlines : Text.lines source with
  | nil =>
    rw [rebuilt, hlines]
    rfl
  | cons line more =>
    rw [← hlines, linesOf, rebuilt, Text.pieces_intercalate]
    · simp [hlines]
    · intro p hp
      obtain ⟨raw, hraw, rfl⟩ := List.mem_map.1 hp
      exact not_mem_plainRow (Text.not_mem_of_mem_lines hraw)

/-! ### Carriage returns -/

/-- Pieces with a carriage return at the end of all but the last. -/
def addReturns : List Text → List Text
  | [] => []
  | [last] => [last]
  | piece :: next :: more => (piece ++ ['\r']) :: addReturns (next :: more)

theorem pieces_withReturns : ∀ t : Text,
    Text.pieces '\n' (withReturns t) = addReturns (Text.pieces '\n' t)
  | [] => rfl
  | c :: cs => by
    have ih := pieces_withReturns cs
    obtain ⟨p, ps, hps⟩ := List.exists_cons_of_ne_nil (Text.pieces_ne_nil '\n' cs)
    by_cases hc : c = '\n'
    · have hfeed : withReturns (c :: cs) = ['\r'] ++ '\n' :: withReturns cs := by
        simp [withReturns, hc]
      have hpieces : Text.pieces '\n' (c :: cs) = [] :: p :: ps := by rw [Text.pieces, if_pos hc, hps]
      rw [hfeed, Text.pieces_append, ih, hpieces, hps]
      rfl
    · have hother : withReturns (c :: cs) = c :: withReturns cs := by simp [withReturns, hc]
      rw [hother, Text.pieces, Text.pieces, if_neg hc, if_neg hc, ih, hps]
      cases ps <;> rfl

theorem linesFrom_addReturns : ∀ (number : Nat) (ps : List Text),
    linesFrom number (addReturns ps) = linesFrom number ps
  | _, [] => rfl
  | _, [_] => rfl
  | number, piece :: next :: more => by
    rw [addReturns, linesFrom, Line.ofRaw?_append_return, linesFrom_addReturns (number + 1) (next :: more),
      ← linesFrom]

theorem linesOf_withReturns (source : Text) : linesOf (withReturns source) = linesOf source := by
  rw [linesOf, pieces_withReturns, linesFrom_addReturns, ← linesOf]

/-! ### What a scan yields -/

/-- The logical lines `ls` are those of the source text: their numbers
increase, each stands in the line of its number, and every other line is blank
or a comment. -/
structure Scanned (source : Text) (ls : List Line) : Prop where
  increasing : ls.Pairwise fun l m => l.number < m.number
  standsIn : ∀ l ∈ ls, ∃ n raw, (Text.lines source)[n]? = some raw ∧ l.StandsIn (n + 1) raw
  oneLine : ∀ l ∈ ls, '\n' ∉ l.text
  dropped : ∀ n raw, (Text.lines source)[n]? = some raw →
    ((∀ l ∈ ls, l.number ≠ n + 1) ↔ (∀ c ∈ raw, isBlank c = true) ∨ (Text.trim raw).head? = some '#')

theorem pairwise_linesFrom : ∀ (number : Nat) (raws : List Text),
    (linesFrom number raws).Pairwise fun l m => l.number < m.number
  | _, [] => .nil
  | number, raw :: raws => by
    rw [linesFrom, List.pairwise_append]
    refine ⟨?_, pairwise_linesFrom (number + 1) raws, fun l hl m hm => ?_⟩
    · cases Line.ofRaw? number raw <;> simp
    · have hl := (Line.ofRaw?_eq_some_iff.1 (Option.mem_toList.1 hl)).number
      obtain ⟨i, -, -, hm, -⟩ := exists_place_of_mem_linesFrom hm
      omega

theorem mem_linesFrom {l : Line} : ∀ {raws : List Text} {number n : Nat} {raw : Text}, raws[n]? = some raw →
    Line.ofRaw? (number + n) raw = some l → l ∈ linesFrom number raws
  | [], _, _, _, h, _ => by simp at h
  | raw :: raws, number, 0, _, h, hl => by
    cases h
    exact List.mem_append_left _ (Option.mem_toList.2 hl)
  | raw :: raws, number, n + 1, _, h, hl => by
    rw [← Nat.succ_add_eq_add_succ] at hl
    exact List.mem_append_right _ (mem_linesFrom h hl)

/-- **A scan yields the logical lines of its source.** -/
theorem scanned_linesOf (source : Text) : Scanned source (linesOf source) := by
  have hstands : ∀ l ∈ linesOf source, ∃ n raw, (Text.lines source)[n]? = some raw ∧ l.StandsIn (n + 1) raw := by
    intro l hl
    rw [← linesFrom_lines] at hl
    obtain ⟨n, raw, hraw, hnumber, hline⟩ := exists_place_of_mem_linesFrom hl
    rw [Nat.add_comm] at hnumber
    exact ⟨n, raw, hraw, Line.ofRaw?_eq_some_iff.1 (hnumber ▸ hline)⟩
  refine ⟨pairwise_linesFrom 1 _, hstands, fun l hl hn => ?_, fun n raw hraw => ?_⟩
  · obtain ⟨n, raw, hraw, hl⟩ := hstands l hl
    have hwithin := Line.infix_of_ofRaw (Line.ofRaw?_eq_some_iff.2 hl)
    exact Text.not_mem_of_mem_lines (List.mem_of_getElem? hraw) (hwithin.subset hn)
  · have hnone : Line.ofRaw? (n + 1) raw = none ↔
        (∀ c ∈ raw, isBlank c = true) ∨ (Text.trim raw).head? = some '#' := by
      rw [← Text.trim_eq_nil_iff, Line.ofRaw?]
      simp [or_iff_not_imp_left]
    rw [← hnone]
    constructor
    · intro habsent
      rw [Option.eq_none_iff_forall_ne_some]
      intro l hl
      refine habsent l ?_ (Line.ofRaw?_eq_some_iff.1 hl).number
      rw [← linesFrom_lines]
      exact mem_linesFrom hraw (by rwa [Nat.add_comm])
    · rintro hdropped l hl hnumber
      obtain ⟨m, raw', hraw', hl⟩ := hstands l hl
      have hsame : m = n := Nat.succ_inj.1 (hl.number.symm.trans hnumber)
      rw [hsame, hraw, Option.some.injEq] at hraw'
      rw [← hraw', hsame, ← Line.ofRaw?_eq_some_iff, hdropped] at hl
      cases hl

/-- **A scan keeps what counts and nothing else.** It yields the logical lines
of its source; the source rebuilt from their spaces and texts has the same
logical lines and is converted to the same code or report. So does every source
of whose lines the same is left, and neither white space between the spaces and
the text of a line, nor white space after the text, nor a carriage return before
a line feed is left. -/
theorem scanning_stable (source : Text) :
    Scanned source (linesOf source) ∧
      linesOf (rebuilt source) = linesOf source ∧
      (∃ c, (convertProgram source).value = some c ∧ (convertProgram (rebuilt source)).value = some c) ∧
      (∀ other, (Text.lines other).map plainRow = (Text.lines source).map plainRow →
        linesOf other = linesOf source ∧ convertProgram other = convertProgram source) ∧
      (∀ (k : Nat) (gap text back : Text), gap.head? ≠ some ' ' → (∀ c ∈ gap, isBlank c = true) →
        text ≠ [] → Text.IsTrimmed text → text.head? ≠ some '#' → (∀ c ∈ back, isBlank c = true) →
        plainRow (List.replicate k ' ' ++ gap ++ text ++ back) = List.replicate k ' ' ++ text) ∧
      linesOf (withReturns source) = linesOf source ∧
      convertProgram (withReturns source) = convertProgram source := by
  have hrebuilt := linesOf_rebuilt source
  have hreturns := linesOf_withReturns source
  obtain ⟨c, hc⟩ := Option.isSome_iff_exists.1 (isSome_convertProgram source)
  refine ⟨scanned_linesOf source, hrebuilt, ⟨c, hc, ?_⟩, fun other h => ?_, ?_, hreturns,
    convertProgram_congr hreturns⟩
  · rw [convertProgram_congr hrebuilt, hc]
  · exact ⟨linesOf_congr h, convertProgram_congr (linesOf_congr h)⟩
  · exact fun k gap text back hgap hblank hne htrimmed hhead hback =>
      plainRow_eq hgap hblank hne htrimmed hhead hback

/-- A function and a call, with white space that does not count. -/
def untidy : Text := "def f(a):\r\n  \t return a\t \r\n\u00a0# note\n   \nf(1)\r".toList

/-- The same lines without it. -/
def tidy : Text := "def f(a):\n  return a\n\n\nf(1)\n".toList

theorem scanning_stable_untidy :
    (Text.lines untidy).map plainRow = (Text.lines tidy).map plainRow ∧
      convertProgram untidy = convertProgram tidy ∧
      plainRow (List.replicate 2 ' ' ++ ['\t', ' '] ++ "return a".toList ++ ['\t', ' ']) =
        "  return a".toList ∧
      rebuilt untidy = "def f(a):\n  return a\n\n\nf(1)".toList := by
  have hsame : (Text.lines untidy).map plainRow = (Text.lines tidy).map plainRow := by decide +kernel
  obtain ⟨-, -, -, hconvert, hplain, -⟩ := scanning_stable tidy
  refine ⟨hsame, (hconvert untidy hsame).2, ?_, by decide +kernel⟩
  exact hplain 2 ['\t', ' '] "return a".toList ['\t', ' '] (by decide) (List.all_eq_true.1 (by decide))
    (by decide) (by decide +kernel) (by decide) (List.all_eq_true.1 (by decide))

end Offside

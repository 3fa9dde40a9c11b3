/-
# Where an open literal is reported

An expression that cannot be translated is reported with the text of it. The
line of the report is the line of the source that holds this text
(`Shows`), except for the condition of a further branch of a conditional,
which is reported on the first line of the conditional.

Key definitions: `lineAt?`, `Shows`, `Program.parts`.
Key theorems: `shows_of_mem_linesOf`, `Program.traced_of_mem_faults`,
`report_of_faults`, `shows_of_unterminated`, `unterminated_elsewhere`.
-/
import Offside.Proofs.Expressions
import Offside.Proofs.Safety

namespace Offside

/-! ### Lines of the source -/

/-- The line of a source text that has the number `n`, counted from one. -/
def lineAt? (source : Text) : Nat → Option Text
  | 0 => none
  | n + 1 => (Text.pieces '\n' source)[n]?

/-- The line of the source that has the number `n` holds the text `e`. -/
def Shows (source : Text) (n : Nat) (e : Text) : Prop := ∃ raw ∈ lineAt? source n, e <:+: raw

instance (source : Text) (n : Nat) (e : Text) : Decidable (Shows source n e) :=
  inferInstanceAs (Decidable (∃ raw ∈ lineAt? source n, e <:+: raw))

theorem Line.infix_of_ofRaw {n : Nat} {raw : Text} {l : Line} (h : ofRaw? n raw = some l) : l.text <:+: raw := by
  unfold ofRaw? at h
  simp only [Option.ite_none_left_eq_some, Option.some.injEq] at h
  obtain ⟨-, rfl⟩ := h
  exact Text.infix_trim raw

theorem exists_place_of_mem_linesFrom {l : Line} : ∀ {raws : List Text} {first : Nat},
    l ∈ linesFrom first raws → ∃ i raw, raws[i]? = some raw ∧ l.number = first + i ∧
      Line.ofRaw? l.number raw = some l
  | [], _, h => absurd h List.not_mem_nil
  | raw :: raws, first, h => by
    rw [linesFrom, List.mem_append, Option.mem_toList] at h
    rcases h with h | h
    · have hnumber : l.number = first := by
        unfold Line.ofRaw? at h
        simp only [Option.ite_none_left_eq_some, Option.some.injEq] at h
        rw [← h.2]
      exact ⟨0, raw, rfl, hnumber, hnumber ▸ h⟩
    · obtain ⟨i, raw', hraw, hnumber, hline⟩ := exists_place_of_mem_linesFrom h
      exact ⟨i + 1, raw', hraw, by omega, hline⟩

/-- A logical line is made of the line of the source that has its number. -/
theorem exists_lineAt_of_mem_linesOf {source : Text} {l : Line} (hl : l ∈ linesOf source) :
    ∃ raw, lineAt? source l.number = some raw ∧ Line.ofRaw? l.number raw = some l := by
  obtain ⟨i, raw, hraw, hnumber, hline⟩ := exists_place_of_mem_linesFrom hl
  refine ⟨raw, ?_, hline⟩
  rw [hnumber, Nat.add_comm]
  exact hraw

/-- **The line of the source that has a logical line's number holds its
text**, and whatever is part of it. -/
theorem shows_of_mem_linesOf {source e : Text} {l : Line} (hl : l ∈ linesOf source) (he : e <:+: l.text) :
    Shows source l.number e := by
  obtain ⟨raw, hraw, hline⟩ := exists_lineAt_of_mem_linesOf hl
  exact ⟨raw, hraw, he.trans (Line.infix_of_ofRaw hline)⟩

/-! ### Parts of a program -/

namespace Program

/-- The lists of lines that a program is read from: the entry point, and the
bodies of its functions. -/
def parts (p : Program) : List (List Line) := p.entryPoint :: p.functions.values.map Function.body

theorem mem_linesOf_of_mem_parts {source : Text} {ls : List Line}
    (h : ls ∈ (ofLines (linesOf source)).parts) : ∀ l ∈ ls, l ∈ linesOf source := by
  intro l hl
  rw [parts, List.mem_cons, List.mem_map] at h
  rcases h with rfl | ⟨f, hf, rfl⟩
  · exact mem_of_mem_sortLines _ none (.inr (.inr hl))
  · exact mem_of_mem_sortLines _ none (.inr (.inl ⟨f, mem_of_mem_byName hf, hl⟩))

/-- A fault of a program is a function without a body, or it comes from the
block of a part. -/
theorem traced_of_mem_faults {p : Program} {d : Diagnostic} (hd : d ∈ p.faults) :
    (∃ f ∈ p.functions.values, d = ⟨f.line, .missingBody f.signature.header⟩) ∨
      ∃ ls ∈ p.parts, ∃ b, Block.ofLines? ls = some b ∧ Traced (Block.expressions b) (Block.leaves b) d := by
  rw [faults, List.mem_append, List.mem_flatMap] at hd
  rcases hd with ⟨f, hf, hd⟩ | hd
  · unfold Function.faults at hd
    split at hd
    · exact .inl ⟨f, hf, List.mem_singleton.1 hd⟩
    · cases hb : Block.ofLines? f.body with
      | none =>
        rw [hb] at hd
        cases hd
      | some b =>
        rw [hb] at hd
        exact .inr ⟨f.body, List.mem_cons_of_mem _ (List.mem_map_of_mem hf), b, hb, Block.traced _ b _ d hd⟩
  · unfold entryPointFaults at hd
    cases hb : Block.ofLines? p.entryPoint with
    | none =>
      rw [hb] at hd
      cases hd
    | some b =>
      rw [hb] at hd
      exact .inr ⟨p.entryPoint, List.mem_cons_self .., b, hb, Block.traced _ b _ d hd⟩

theorem held_of_mem_faults {p : Program} {d : Diagnostic} {e : Text} (hd : d ∈ p.faults)
    (he : d.problem = .unterminatedString e) : translate? e = none ∧ ∃ ls ∈ p.parts, Held ls (d.line, e) := by
  rcases traced_of_mem_faults hd with ⟨f, -, rfl⟩ | ⟨ls, hls, b, hb, htraced⟩
  · cases he
  · cases htraced with
    | expression h ht =>
      cases he
      exact ⟨ht, ls, hls, Block.held_of_ofLines hb _ h⟩
    | malformed h =>
      obtain ⟨l, -, hmakes⟩ := Block.made_of_ofLines hb _ h
      exact absurd he (hmakes.causes.2.ne_unterminatedString e)
    | returned | update => cases he

end Program

theorem lower_of_report {source : Text} {ds : List Diagnostic}
    (h : (convertProgram source).value = some (.report ds)) :
    (Program.ofLines (linesOf source)).lower.value = some (.error ds) := by
  rw [value_convertProgram, Option.map_eq_some_iff] at h
  obtain ⟨g, hg, hreport⟩ := h
  cases g with
  | ok c => cases hreport
  | error es =>
    cases hreport
    exact hg

theorem eq_faults_of_convertProgram {source : Text} {ds : List Diagnostic}
    (h : (convertProgram source).value = some (.report ds)) :
    ds = (Program.ofLines (linesOf source)).faults :=
  (Program.reports_lower _ _ (lower_of_report h)).2

theorem report_of_faults {source : Text} {ds : List Diagnostic}
    (h : (Program.ofLines (linesOf source)).faults = ds) (hne : ds ≠ []) :
    (convertProgram source).value = some (.report ds) := by
  have hsome := isSome_convertProgram source
  rw [value_convertProgram, Option.isSome_map] at hsome
  have hlower := ((Program.ofLines (linesOf source)).reports_lower.eq_error_iff ds).2 ⟨hsome, h.symm, hne⟩
  rw [value_convertProgram, hlower]
  rfl

/-- **An open literal is reported on the line that holds it, or, in the
condition of a further branch, on the first line of the conditional.** In the
first case the line of the source with the diagnostic's number contains the
expression. In the second it is an `if` line, and a later `elif` line of its
conditional has the expression for its condition and contains it. -/
theorem shows_of_unterminated {source : Text} {ds : List Diagnostic}
    (h : (convertProgram source).value = some (.report ds)) :
    ∀ d ∈ ds, ∀ e, d.problem = .unterminatedString e →
      Shows source d.line e ∨
        ∃ ls ∈ (Program.ofLines (linesOf source)).parts, ∃ before m rest, ls = before ++ m :: rest ∧
          m.kind = .ifHeader ∧ m.number = d.line ∧
          ∃ k ∈ m.laterBranches rest, k.kind = .elifHeader ∧
            readHeader? "elif" k.text = some (.ok e) ∧ Shows source k.number e := by
  intro d hd e he
  rw [eq_faults_of_convertProgram h] at hd
  obtain ⟨ht, ls, hls, hheld⟩ := Program.held_of_mem_faults hd he
  have hlines := Program.mem_linesOf_of_mem_parts hls
  rcases hheld with ⟨l, hl, hnumber, hholds⟩ | ⟨before, m, rest, rfl, hm, hnumber, k, hk, hkind, hr⟩
  · have hshows := shows_of_mem_linesOf (hlines l hl) (Line.infix_of_holds hholds ht)
    rw [hnumber] at hshows
    exact .inl hshows
  · refine .inr ⟨_, hls, before, m, rest, rfl, hm, hnumber, k, hk, hkind, hr, ?_⟩
    have hmem : k ∈ rest := mem_of_mem_laterBranches hk
    exact shows_of_mem_linesOf (hlines k (by simp [hmem])) (infix_of_readHeader hr)

/-- A literal left open in a loop of a function, after a comment. -/
def loose : Text := "# count\ndef f(n):\n    while n != \"a:\n        pass\n".toList

theorem shows_of_unterminated_loose :
    (convertProgram loose).value = some (.report [⟨3, .unterminatedString "n != \"a"⟩]) ∧
      Shows loose 3 "n != \"a" := by
  have hfaults : (Program.ofLines (linesOf loose)).faults = [⟨3, .unterminatedString "n != \"a"⟩] := by
    decide +kernel
  have hreport := report_of_faults hfaults (by simp)
  have hkinds : ∀ l ∈ linesOf loose, l.kind ≠ .ifHeader := by decide +kernel
  refine ⟨hreport, ?_⟩
  rcases shows_of_unterminated hreport _ (List.mem_singleton_self _) _ rfl with
    h | ⟨ls, hls, before, m, rest, rfl, hm, -⟩
  · exact h
  · exact absurd hm (hkinds m (Program.mem_linesOf_of_mem_parts hls m (by simp)))

/-- A literal left open in the second branch of a conditional. -/
def misplaced : Text := "if a:\n    pass\nelif \"b:\n    pass\n".toList

/-- **A literal left open in a later condition is reported on the first line of
the conditional**, which does not contain it. -/
theorem unterminated_elsewhere :
    (∃ d, (convertProgram misplaced).value = some (.report [d]) ∧
      d.problem = .unterminatedString "\"b" ∧ ¬ Shows misplaced d.line "\"b") ∧
      Shows misplaced 3 "\"b" := by
  refine ⟨⟨⟨1, .unterminatedString "\"b"⟩, ?_, rfl, by decide +kernel⟩, by decide +kernel⟩
  exact report_of_faults (by decide +kernel) (by simp)

end Offside

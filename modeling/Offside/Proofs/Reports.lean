/-
# Reports can be read back

A report is one line of text for each diagnostic, under a heading. A message
quotes parts of lines, names and keywords, and none of these holds a line feed
(`Line.Causes.oneLine`, `Program.oneLine_of_mem_faults`), so that the lines of
the text are the diagnostics: their numbers and messages can be read from it,
and no other ones make up the same text (`readReport?_report`).

Key definitions: `Problem.quoted`, `readDiagnostic?`, `readReport?`,
`WellFormedReport`.
Key theorems: `Problem.not_mem_message`, `Program.oneLine_of_mem_faults`,
`readReport?_report`, `wellFormed_of_report`.
-/
import Offside.Proofs.Comments
import Offside.Proofs.Definitions
import Offside.Proofs.Literals

namespace Offside

/-! ### What messages quote -/

/-- The texts that the message of a problem quotes. -/
def Problem.quoted : Problem → List Text
  | malformedDefinition t | nestedDefinition t | missingColon t | missingCondition t | missingBody t
  | danglingBranch t | unsupportedLoop t | unterminatedString t | unsupportedStatement t
  | undefinedVariable t | remark t => [t]
  | unsupportedCollection _ | rangeArguments _ | unexpectedIndent | inconsistentDedent
  | returnOutsideFunction => []

/-- A problem that quotes no line feed. -/
def Problem.OneLine (p : Problem) : Prop := ∀ t ∈ p.quoted, '\n' ∉ t

namespace Text

theorem isDigit_of_mem_decimal {n : Nat} {c : Char} (h : c ∈ decimal n) : c.isDigit = true :=
  Nat.isDigit_of_mem_toDigits (by decide) (by decide) h

theorem not_mem_decimal (n : Nat) {c : Char} (hc : c.isDigit = false) : c ∉ decimal n := by
  intro h
  rw [isDigit_of_mem_decimal h] at hc
  cases hc

end Text

theorem Problem.oneLine_iff {p : Problem} {t : Text} (h : p.quoted = [t]) : p.OneLine ↔ '\n' ∉ t := by
  rw [OneLine, h, List.forall_mem_singleton]

theorem not_mem_between {c : Char} {before t after : Text} (hbefore : c ∉ before) (ht : c ∉ t)
    (hafter : c ∉ after) : c ∉ before ++ t ++ after := by
  rw [List.mem_append, List.mem_append, not_or, not_or]
  exact ⟨⟨hbefore, ht⟩, hafter⟩

/-- **A message has a line feed only from what it quotes.** -/
theorem Problem.not_mem_message {p : Problem} (h : p.OneLine) : '\n' ∉ p.message := by
  cases p with
  | unsupportedCollection kind =>
    have hkind : '\n' ∉ kind.name := by cases kind <;> decide
    exact not_mem_between List.not_mem_nil hkind (by simp)
  | rangeArguments count =>
    have hwords : '\n' ∉ "range() takes 1 to 3 arguments, got ".toList := by simp
    exact fun hmem => (List.mem_append.1 hmem).elim hwords (Text.not_mem_decimal count (by decide))
  | unexpectedIndent | inconsistentDedent | returnOutsideFunction => decide +kernel
  | remark words => exact h words (List.mem_singleton_self words)
  | _ t => exact not_mem_between (by simp) (h t (List.mem_singleton_self t)) (by simp)

theorem not_mem_of_isInfix {c : Char} {s t : Text} (h : c ∉ t) (hs : s <:+: t) : c ∉ s :=
  fun hc => h (hs.subset hc)

/-! ### What lines and programs are reported with -/

namespace Line

variable {l : Line} {p : Problem}

theorem oneLine_of_readHeader {keyword t : Text} (hkeyword : '\n' ∉ keyword)
    (h : readHeader? keyword t = some (.error p)) : p.OneLine := by
  rcases error_of_readHeader h with rfl | rfl
  · exact (Problem.oneLine_iff rfl).2 hkeyword
  · exact (Problem.oneLine_iff rfl).2 hkeyword

/-- A line is refused with a part of it, or with its keyword. -/
theorem oneLine_of_refused (hl : '\n' ∉ l.text) (h : l.sentence? = some (.refused p)) : p.OneLine := by
  cases speaks_of_sentence h with
  | badBranch _ hr | badLoop _ hr => exact oneLine_of_readHeader (by decide) hr
  | badRange _ hr =>
    rcases error_of_rangeLoop hr with rfl | rfl | ⟨n, rfl⟩
    · exact (Problem.oneLine_iff rfl).2 (by decide)
    · exact (Problem.oneLine_iff rfl).2 hl
    · exact fun t ht => absurd ht List.not_mem_nil
  | nested _ hs =>
    obtain ⟨rest, -, hheader⟩ := Option.bind_eq_some_iff.1 hs
    exact (Problem.oneLine_iff rfl).2 (not_mem_of_isName (Signature.isName_of_ofHeader hheader).1 (by decide))
  | badDefinition => exact (Problem.oneLine_iff rfl).2 hl
  | danglingElif | danglingElse => exact (Problem.oneLine_iff rfl).2 (by decide)

/-- **A problem of a line quotes nothing but parts of it, and keywords.** -/
theorem Causes.oneLine (hl : '\n' ∉ l.text) (h : l.Causes p) : p.OneLine := by
  cases h with
  | unexpectedIndent | inconsistentDedent => exact fun t ht => absurd ht List.not_mem_nil
  | missingBody => exact (Problem.oneLine_iff rfl).2 hl
  | missingColon => exact (Problem.oneLine_iff rfl).2 (by decide)
  | elseIf hk hr => exact oneLine_of_readHeader (by decide) hr
  | refused hs => exact oneLine_of_refused hl hs
  | whole hs =>
    rcases Line.problem_of_whole hs with rfl | ⟨kind, rfl⟩
    · exact (Problem.oneLine_iff rfl).2 hl
    · exact fun t ht => absurd ht List.not_mem_nil

theorem Makes.infix_of_update {n : Nat} {name value : Text} {operator : Char}
    (h : l.Makes (.update n name operator value)) : name <:+: l.text := by
  cases h with
  | whole hs =>
    cases speaks_of_sentence hs with
    | update _ ha => exact Assignment.infix_target_of_ofText ha

theorem oneLine_of_mem_linesOf {source : Text} (h : l ∈ linesOf source) : '\n' ∉ l.text := by
  obtain ⟨raw, hraw, hline⟩ := exists_lineAt_of_mem_linesOf h
  have hmem : raw ∈ Text.pieces '\n' source := by
    cases hnumber : l.number with
    | zero => simp [hnumber, lineAt?] at hraw
    | succ n =>
      rw [hnumber] at hraw
      exact List.mem_of_getElem? hraw
  exact not_mem_of_isInfix (Text.not_mem_of_mem_pieces '\n' hmem) (infix_of_ofRaw hline)

end Line

theorem Function.isName_of_mem_sortLines {ls : List Line} {f : Function} (h : f ∈ (sortLines none ls).2.1) :
    isName f.signature.name = true ∧ f.signature.parameters.all isName = true := by
  obtain ⟨-, -, hheaders⟩ := sortLines_eq_roles ls none
  have hmem := List.mem_map_of_mem (f := fun f : Function => (some f.signature, f.line)) h
  rw [hheaders] at hmem
  obtain ⟨l, -, hl⟩ := List.mem_map.1 hmem
  have hsignature : l.signature? = some f.signature := congrArg Prod.fst hl
  unfold Line.signature? at hsignature
  rw [Option.ite_none_right_eq_some] at hsignature
  obtain ⟨rest, -, hheader⟩ := Option.bind_eq_some_iff.1 hsignature.2
  exact Signature.isName_of_ofHeader hheader

theorem Signature.not_mem_header {s : Signature} (hname : isName s.name = true)
    (hparameters : s.parameters.all isName = true) : '\n' ∉ s.header := by
  have hlist : '\n' ∉ List.intercalate ", ".toList s.parameters := by
    intro hmem
    rcases Text.mem_of_mem_intercalate hmem with h | ⟨p, hp, h⟩
    · exact absurd h (by decide)
    · exact not_mem_of_isName (List.all_eq_true.1 hparameters p hp) (by decide) h
  have hopen : '\n' ∉ "def ".toList ++ s.name ++ "(".toList :=
    not_mem_between (by decide) (not_mem_of_isName hname (by decide)) (by decide)
  exact not_mem_between hopen hlist (by decide)

namespace Program

/-- **What is wrong with a program is told in one line.** -/
theorem oneLine_of_mem_faults {source : Text} :
    ∀ d ∈ (ofLines (linesOf source)).faults, d.problem.OneLine := by
  intro d hd
  rcases traced_of_mem_faults hd with ⟨f, hf, rfl⟩ | ⟨ls, hls, b, hb, htraced⟩
  · obtain ⟨hname, hparameters⟩ := Function.isName_of_mem_sortLines (mem_of_mem_byName hf)
    exact (Problem.oneLine_iff rfl).2 (Signature.not_mem_header hname hparameters)
  · have hlines : ∀ l ∈ ls, '\n' ∉ l.text := fun l hl =>
      Line.oneLine_of_mem_linesOf (mem_linesOf_of_mem_parts hls l hl)
    cases htraced with
    | @expression line e h ht =>
      refine (Problem.oneLine_iff rfl).2 ?_
      rcases Block.held_of_ofLines hb _ h with ⟨l, hl, -, hholds⟩ | ⟨before, m, rest, rfl, -, -, k, hk, -, hr⟩
      · exact not_mem_of_isInfix (hlines l hl) (Line.infix_of_holds hholds ht)
      · have hmem : k ∈ rest := mem_of_mem_laterBranches hk
        exact not_mem_of_isInfix (hlines k (by simp [hmem])) (infix_of_readHeader hr)
    | malformed h =>
      obtain ⟨l, hl, hmakes⟩ := Block.made_of_ofLines hb _ h
      exact hmakes.causes.2.oneLine (hlines l hl)
    | returned => exact fun t ht => absurd ht List.not_mem_nil
    | update h =>
      obtain ⟨l, hl, hmakes⟩ := Block.made_of_ofLines hb _ h
      exact (Problem.oneLine_iff rfl).2 (not_mem_of_isInfix (hlines l hl) hmakes.infix_of_update)

end Program

/-! ### Reading a report -/

/-- The number and the message in a line of a report. -/
def readDiagnostic? (t : Text) : Option (Nat × Text) := do
  let rest ← "Line ".toList.isPrefixOf? t
  let (digits, message) ← Text.cut? ": " rest
  return (Nat.ofDigitChars 10 digits 0, message)

/-- The numbers and the messages in a report. -/
def readReport? (t : Text) : Option (List (Nat × Text)) :=
  match Text.pieces '\n' t with
  | [] => none
  | heading :: rest => if heading = reportHeading then rest.dropLast.mapM readDiagnostic? else none

/-- What a diagnostic tells: its number and its message. -/
def Diagnostic.content (d : Diagnostic) : Nat × Text := (d.line, d.message)

theorem display_eq (d : Diagnostic) :
    d.display = "Line ".toList ++ (Text.decimal d.line ++ ": ".toList ++ d.message) := by
  have hdisplay : d.display = "Line ".toList ++ Text.decimal d.line ++ ": ".toList ++ d.message := rfl
  rw [hdisplay, List.append_assoc, List.append_assoc, List.append_assoc]

/-- **A line of a report can be read.** -/
theorem readDiagnostic?_display (d : Diagnostic) : readDiagnostic? d.display = some d.content := by
  have hprefix := Text.isPrefixOf?_append "Line ".toList (Text.decimal d.line ++ ": ".toList ++ d.message)
  have hcut : Text.cut? ": ".toList (Text.decimal d.line ++ ": ".toList ++ d.message) =
      some (Text.decimal d.line, d.message) :=
    Text.cut?_append [' '] d.message (Text.not_mem_decimal d.line (by decide))
  have hnumber : Nat.ofDigitChars 10 (Text.decimal d.line) 0 = d.line := Nat.ofDigitChars_ten_toDigits
  rw [readDiagnostic?, display_eq, hprefix, Option.bind_eq_bind, Option.bind_some, hcut, Option.bind_eq_bind,
    Option.bind_some]
  change some (Nat.ofDigitChars 10 (Text.decimal d.line) 0, d.message) = some (d.line, d.message)
  rw [hnumber]

theorem mapM_readDiagnostic? : ∀ ds : List Diagnostic,
    (ds.map Diagnostic.display).mapM readDiagnostic? = some (ds.map Diagnostic.content)
  | [] => rfl
  | d :: ds => by
    rw [List.map_cons, List.mapM_cons, readDiagnostic?_display, mapM_readDiagnostic? ds]
    rfl

theorem not_mem_display {d : Diagnostic} (h : '\n' ∉ d.message) : '\n' ∉ d.display := by
  have hnumber : '\n' ∉ "Line ".toList ++ Text.decimal d.line ++ ": ".toList :=
    not_mem_between (by decide) (Text.not_mem_decimal d.line (by decide)) (by decide)
  exact fun hmem => (List.mem_append.1 hmem).elim hnumber h

theorem report_eq (ds : List Diagnostic) :
    report ds = (reportHeading :: ds.map Diagnostic.display).flatMap (· ++ ['\n']) := by
  rw [report, List.flatMap_cons, List.flatMap_map]

/-- The lines of a report are its heading and its diagnostics. -/
theorem pieces_report {ds : List Diagnostic} (h : ∀ d ∈ ds, '\n' ∉ d.message) :
    Text.pieces '\n' (report ds) = reportHeading :: ds.map Diagnostic.display ++ [[]] := by
  rw [report_eq]
  refine Text.pieces_flatMap (List.forall_mem_cons.2 ⟨by decide, List.forall_mem_map.2 fun d hd => ?_⟩)
  exact not_mem_display (h d hd)

/-- **A report gives back what its diagnostics tell.** -/
theorem readReport?_report {ds : List Diagnostic} (h : ∀ d ∈ ds, '\n' ∉ d.message) :
    readReport? (report ds) = some (ds.map Diagnostic.content) := by
  rw [readReport?, pieces_report h, List.cons_append]
  simp only [if_true, List.dropLast_concat]
  exact mapM_readDiagnostic? ds

/-! ### Reports of conversions -/

/-- A report of diagnostics of a source text that is well formed. -/
structure WellFormedReport (source : Text) (ds : List Diagnostic) : Prop where
  /-- Something is reported. -/
  nonempty : ds ≠ []
  /-- A diagnostic has the number of a logical line, which is neither blank nor
  a comment. -/
  numbered : ∀ d ∈ ds, ∃ l ∈ linesOf source, l.number = d.line ∧
    ∃ raw ∈ lineAt? source d.line, Line.ofRaw? d.line raw = some l ∧ ¬ IsIdle raw
  /-- No message goes on in another line. -/
  one_line : ∀ d ∈ ds, '\n' ∉ d.message
  /-- The text is the heading and a line for each diagnostic, each with a line
  feed after it. -/
  lines : (Conversion.report ds).text = (reportHeading :: ds.map Diagnostic.display).flatMap (· ++ ['\n'])
  /-- A reader that splits the text at line feeds finds just these. -/
  pieces : Text.pieces '\n' (Conversion.report ds).text = reportHeading :: ds.map Diagnostic.display ++ [[]]
  /-- The numbers and the messages can be read from the text. -/
  readable : readReport? (Conversion.report ds).text = some (ds.map Diagnostic.content)
  /-- No others make up the same text. -/
  unique : ∀ es : List Diagnostic, (∀ e ∈ es, '\n' ∉ e.message) →
    (Conversion.report es).text = (Conversion.report ds).text → es.map Diagnostic.content = ds.map Diagnostic.content

/-- **Every report is well formed.** -/
theorem wellFormed_of_report {source : Text} {ds : List Diagnostic}
    (h : (convertProgram source).value = some (.report ds)) : WellFormedReport source ds := by
  have hlower := lower_of_report h
  have hone : ∀ d ∈ ds, '\n' ∉ d.message := by
    intro d hd
    rw [eq_faults_of_convertProgram h] at hd
    exact Problem.not_mem_message (Program.oneLine_of_mem_faults d hd)
  refine ⟨?nonempty, ?numbered, hone, report_eq ds, pieces_report hone, readReport?_report hone, ?unique⟩
  case nonempty =>
    rintro rfl
    exact (Program.reports_lower _ _ hlower).1 rfl
  case numbered =>
    intro d hd
    obtain ⟨l, hl, hnumber⟩ := Program.line_mem_of_lower hlower d hd
    obtain ⟨raw, hraw, hline⟩ := exists_lineAt_of_mem_linesOf hl
    rw [hnumber] at hraw hline
    have hidle : ¬ IsIdle raw := by
      rw [← Line.ofRaw?_eq_none_iff d.line, hline]
      exact Option.some_ne_none l
    exact ⟨l, hl, hnumber, raw, hraw, hline, hidle⟩
  case unique =>
    intro es hes htext
    have hread := readReport?_report hes
    have htext : report es = report ds := htext
    rw [htext, readReport?_report hone, Option.some.injEq] at hread
    exact hread.symm

/-- A definition without a body, an update of nothing and an open literal. -/
def faulty : Text := "def f( n ):\n# note\nx += 1\nif \"a:\n    pass\n".toList

theorem wellFormed_of_report_faulty :
    (convertProgram faulty).value = some (.report
        [⟨1, .missingBody "def f(n):"⟩, ⟨3, .undefinedVariable "x"⟩, ⟨4, .unterminatedString "\"a"⟩]) ∧
      WellFormedReport faulty
        [⟨1, .missingBody "def f(n):"⟩, ⟨3, .undefinedVariable "x"⟩, ⟨4, .unterminatedString "\"a"⟩] := by
  have hfaults : (Program.ofLines (linesOf faulty)).faults =
      [⟨1, .missingBody "def f(n):"⟩, ⟨3, .undefinedVariable "x"⟩, ⟨4, .unterminatedString "\"a"⟩] := by
    decide +kernel
  have hreport := report_of_faults hfaults (List.cons_ne_nil _ _)
  exact ⟨hreport, wellFormed_of_report hreport⟩

end Offside

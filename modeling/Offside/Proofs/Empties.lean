/-
# Where an expression is left empty

A condition and a returned value are read only if something stands there. The
value of an assignment and the arguments of a list are not looked at: a line may
assign nothing, and leave nothing beside a comma (`Line.LeavesEmpty`). In a
class, each line that does so has an expression of no characters, and no other
line has one (`Line.Becomes.empty_iff`).

Key definitions: `Line.LeavesEmpty`, `Line.operands`, `Java.Item.positions`,
`Filled`.
Key theorems: `two_le_length_of_nil_mem`, `Line.Becomes.empty_iff`,
`Line.Becomes.ne_nil`, `empties_located`, `empties_generated`.
-/
import Offside.Proofs.Closed

namespace Offside

/-! ### Lists with an empty argument -/

/-- A list with an empty argument has another argument too. -/
theorem two_le_length_of_nil_mem {t : Text} (h : [] ∈ splitArguments t) : 2 ≤ (splitArguments t).length := by
  have hne : Text.trim t ≠ [] := by
    intro hblank
    rw [splitArguments, if_pos hblank] at h
    exact absurd h List.not_mem_nil
  obtain ⟨p, ps, hsplit, -, -, halone⟩ := exists_trimmed hne
  rw [hsplit] at h ⊢
  have hps : ps ≠ [] := by
    intro hps
    rw [hps, List.mem_singleton] at h
    exact halone hps h.symm
  have hpos : 0 < ps.length := List.length_pos_iff.2 hps
  rw [List.length_cons]
  omega

theorem translate?_eq_nil_iff {t e : Text} (h : translate? t = some e) : e = [] ↔ t = [] := by
  obtain ⟨-, rfl⟩ := (translate?_eq_some_iff t e).1 h
  exact translateFrom_eq_nil_iff t

theorem map_translateFrom_of_map_translate : ∀ {arguments ts : List Text},
    arguments.map translate? = ts.map some → arguments.map (translateFrom .outside []) = ts
  | [], ts, h => by rw [List.map_eq_nil_iff.1 h.symm]; rfl
  | a :: arguments, ts, h => by
    obtain ⟨t, ts, rfl, ht, hts⟩ := List.map_eq_cons_iff.1 h.symm
    obtain ⟨-, rfl⟩ := (translate?_eq_some_iff a t).1 ht.symm
    rw [List.map_cons, map_translateFrom_of_map_translate hts.symm]

theorem ne_nil_of_readHeader {keyword t c : Text} (h : readHeader? keyword t = some (.ok c)) : c ≠ [] := by
  obtain ⟨rest, -, hread⟩ := Option.map_eq_some_iff.1 h
  unfold readCondition at hread
  split at hread
  · cases hread
  · split at hread
    · cases hread
    · next hne =>
      cases hread
      exact hne

/-! ### Lines and items -/

namespace Line

/-- The lines that leave an expression empty. -/
inductive LeavesEmpty (l : Line) : Prop where
  /-- Nothing stands after the sign of an assignment. -/
  | value {a : Assignment} (hk : l.kind = .assignment ∨ l.kind = .update)
    (ha : Assignment.ofText? l.text = some a) (hempty : a.value = [])
  /-- An argument of a range is empty. -/
  | bound {loop : RangeLoop} (hk : l.kind = .forHeader) (hr : RangeLoop.ofText? l.text = some (.ok loop))
    (hempty : [] ∈ loop.bounds)
  /-- An argument of an output is empty. -/
  | operand {arguments : Text} (hk : l.kind = .print) (hr : callArguments? "print" l.text = some arguments)
    (hempty : [] ∈ splitArguments arguments)

/-- The operands of what a line prints. -/
def operands (l : Line) : List Text :=
  ((callArguments? "print" l.text).elim [] splitArguments).map (translateFrom .outside [])

/-- Only assignments, loops over ranges and outputs leave an expression
empty. -/
theorem not_leavesEmpty {l : Line}
    (hk : l.kind ≠ .assignment ∧ l.kind ≠ .update ∧ l.kind ≠ .forHeader ∧ l.kind ≠ .print) :
    ¬ l.LeavesEmpty := by
  obtain ⟨hassignment, hupdate, hfor, hprint⟩ := hk
  intro h
  cases h with
  | value hk => exact hk.elim hassignment hupdate
  | bound hk => exact hfor hk
  | operand hk => exact hprint hk

theorem leavesEmpty_iff_value {l : Line} {a : Assignment} (hk : l.kind = .assignment ∨ l.kind = .update)
    (ha : Assignment.ofText? l.text = some a) : l.LeavesEmpty ↔ a.value = [] := by
  constructor
  · intro h
    cases h with
    | value _ ha' hempty =>
      obtain rfl := Option.some.inj (ha.symm.trans ha')
      exact hempty
    | bound hk' => simp [hk'] at hk
    | operand hk' => simp [hk'] at hk
  · exact .value hk ha

theorem leavesEmpty_iff_bound {l : Line} {loop : RangeLoop} (hk : l.kind = .forHeader)
    (hr : RangeLoop.ofText? l.text = some (.ok loop)) : l.LeavesEmpty ↔ [] ∈ loop.bounds := by
  constructor
  · intro h
    cases h with
    | value hk' => simp [hk] at hk'
    | bound _ hr' hempty =>
      obtain rfl := Except.ok.inj (Option.some.inj (hr.symm.trans hr'))
      exact hempty
    | operand hk' => simp [hk] at hk'
  · exact .bound hk hr

theorem leavesEmpty_iff_operand {l : Line} {arguments : Text} (hk : l.kind = .print)
    (hr : callArguments? "print" l.text = some arguments) :
    l.LeavesEmpty ↔ [] ∈ splitArguments arguments := by
  constructor
  · intro h
    cases h with
    | value hk' => simp [hk] at hk'
    | bound hk' => simp [hk] at hk'
    | operand _ hr' hempty =>
      obtain rfl := Option.some.inj (hr.symm.trans hr')
      exact hempty
  · exact .operand hk hr

end Line

/-- The expressions of an item that must not be empty, if it prints the
operands `operands`. A call has none, and one operand may be empty. -/
def Java.Item.positions (operands : List Text) : Java.Item → List Text
  | .println _ => if 1 < operands.length then operands else []
  | .call _ => []
  | i => i.expressions

namespace Line.Becomes

variable {l : Line} {i : Java.Item}

theorem println_eq {v : Text} (h : l.Becomes (.println v)) : v = printed l.operands := by
  cases h with
  | println _ hr hts =>
    rw [operands, hr, Option.elim_some, map_translateFrom_of_map_translate hts]

/-- **An item has an empty expression exactly if its line leaves one empty.** -/
theorem empty_iff (h : l.Becomes i) : [] ∈ i.positions l.operands ↔ l.LeavesEmpty := by
  cases h with
  | ifThen hk hr ht | elseIf hk hr ht | whileLoop hk hr ht =>
    have hne := ne_nil_of_readHeader hr
    have hnone := not_leavesEmpty (l := l) (by simp [hk])
    simpa [Java.Item.positions, Java.Item.expressions, hnone, eq_comm (a := []), translate?_eq_nil_iff ht] using hne
  | returnValue hk hr hv ht =>
    have hnone := not_leavesEmpty (l := l) (by simp [hk])
    simpa [Java.Item.positions, Java.Item.expressions, hnone, eq_comm (a := []), translate?_eq_nil_iff ht] using hv
  | orElse hk | returnNothing hk | call hk | breakLoop hk | continueLoop hk =>
    have hnone := not_leavesEmpty (l := l) (by simp [hk])
    simp [Java.Item.positions, Java.Item.expressions, hnone]
  | declaration hk hr hv | assignment hk hr hv =>
    rw [leavesEmpty_iff_value (.inl hk) hr, ← translate?_eq_nil_iff hv]
    simp [Java.Item.positions, Java.Item.expressions, eq_comm]
  | update hk hr ho hv =>
    rw [leavesEmpty_iff_value (.inr hk) hr, ← translate?_eq_nil_iff hv]
    simp [Java.Item.positions, Java.Item.expressions, eq_comm]
  | forLoop hk hr hfirst hlast hstep =>
    rw [leavesEmpty_iff_bound hk hr]
    simp [Java.Item.positions, Java.Item.expressions, RangeLoop.bounds, eq_comm (a := []),
      translate?_eq_nil_iff hfirst, translate?_eq_nil_iff hlast, translate?_eq_nil_iff hstep]
  | @println arguments ts hk hr hts =>
    have hoperands : l.operands = (splitArguments arguments).map (translateFrom .outside []) := by
      rw [operands, hr, Option.elim_some]
    have hmem : [] ∈ l.operands ↔ [] ∈ splitArguments arguments := by
      rw [hoperands]
      simp [translateFrom_eq_nil_iff]
    rw [leavesEmpty_iff_operand hk hr, ← hmem]
    unfold Java.Item.positions
    by_cases hseveral : 1 < l.operands.length
    · rw [if_pos hseveral]
    · have hnone : [] ∉ l.operands := by
        intro hempty
        have htwo := two_le_length_of_nil_mem (hmem.1 hempty)
        rw [hoperands, List.length_map] at hseveral
        omega
      simp [if_neg hseveral, hnone]

theorem ne_nil {t : Text} (h : l.Becomes i) (hi : i = .ifThen t ∨ i = .elseIf t ∨ i = .whileLoop t ∨
    i = .returned (some t)) : t ≠ [] := by
  rintro rfl
  have hempty : [] ∈ i.positions l.operands := by
    rcases hi with rfl | rfl | rfl | rfl <;> exact List.mem_singleton_self _
  have hleaves := h.empty_iff.1 hempty
  have hkind : l.kind ≠ .assignment ∧ l.kind ≠ .update ∧ l.kind ≠ .forHeader ∧ l.kind ≠ .print := by
    rcases hi with rfl | rfl | rfl | rfl <;> cases h <;> simp [*]
  exact not_leavesEmpty hkind hleaves

end Line.Becomes

/-! ### Conversions -/

/-- The lines of a function or of the entry point, and the statements they come
to: the item of a line has an empty expression exactly if the line leaves one
empty. -/
def Filled (ls : List Line) (ss : List Java.Statement) : Prop :=
  List.Forall₂ (fun e i => e.2.Becomes i.2 ∧ ([] ∈ i.2.positions e.2.operands ↔ e.2.LeavesEmpty) ∧
      ∀ v, i.2 = .println v → v = printed e.2.operands)
    ((nest ls).filter fun e => e.2.kind ≠ .pass) (Java.items 0 ss)

theorem Preserved.filled {ls : List Line} {ss : List Java.Statement} (h : Preserved ls ss) : Filled ls ss := by
  refine List.Forall₂.imp ?_ h
  rintro e i ⟨-, hbecomes⟩
  refine ⟨hbecomes, hbecomes.empty_iff, fun v hv => ?_⟩
  rw [hv] at hbecomes
  exact hbecomes.println_eq

theorem Filled.ne_nil {ls : List Line} {ss : List Java.Statement} (h : Filled ls ss) :
    ∀ i ∈ Java.items 0 ss, ∀ t, (i.2 = .ifThen t ∨ i.2 = .elseIf t ∨ i.2 = .whileLoop t ∨
      i.2 = .returned (some t)) → t ≠ [] := by
  intro i hi t ht
  obtain ⟨e, -, hbecomes, -⟩ := exists_of_mem_right h hi
  exact hbecomes.ne_nil ht

/-- **Empty expressions are those that a line leaves empty.** Where a source text
is converted to code, no condition and no returned value of the class is empty.
The value of an assignment, a bound of a loop or one of several operands of an
output is empty exactly where the line of the source has nothing there. -/
theorem empties_located {source text : Text} (h : (convertProgram source).value = some (.code text)) :
    ∃ c : Java.Class,
      (Program.ofLines (linesOf source)).lower.value = some (.ok c) ∧ text = c.render ∧
      List.Forall₂ (fun f m => Filled f.body m.body)
        (Program.ofLines (linesOf source)).functions.values c.methods ∧
      Filled (Program.ofLines (linesOf source)).entryPoint c.main ∧
      ∀ ss ∈ c.bodies, ∀ i ∈ Java.items 0 ss, ∀ t, (i.2 = .ifThen t ∨ i.2 = .elseIf t ∨ i.2 = .whileLoop t ∨
        i.2 = .returned (some t)) → t ≠ [] := by
  obtain ⟨c, hc, rfl⟩ := exists_of_convertProgram h
  obtain ⟨hmethods, hmain⟩ := Program.forall₂_methods hc
  obtain ⟨hbodies, hentry⟩ := Program.classified_ofLines source
  have hfilled : List.Forall₂ (fun f m => Filled f.body m.body)
      (Program.ofLines (linesOf source)).functions.values c.methods := by
    refine List.Forall₂.imp ?_ ((List.forall₂_and_left _ _).2 ⟨hbodies, hmethods⟩)
    exact fun f m hfm => (Function.preserved_of_lower hfm.1 hfm.2).2.filled
  have hfilled' := (Program.preserved_of_lowerEntryPoint hentry hmain).filled
  refine ⟨c, hc, rfl, hfilled, hfilled', List.forall_mem_cons.2 ⟨hfilled'.ne_nil, ?_⟩⟩
  rw [List.forall_mem_map]
  intro m hm
  obtain ⟨f, -, hfm⟩ := exists_of_mem_right hfilled hm
  exact hfm.ne_nil

/-- A function with conditions and returns, a loop and an output. -/
def spare : Text :=
  "def f(n):\n    if n > 1:\n        return n\n    return\nx =\nfor i in range(1, , 2):\n    print(x, , i)\nprint()".toList

theorem empties_located_spare : ∃ (text : Text) (c : Java.Class),
    (convertProgram spare).value = some (.code text) ∧ text = c.render ∧
      Filled (Program.ofLines (linesOf spare)).entryPoint c.main := by
  have hcode : ∃ text, (convertProgram spare).value = some (.code text) :=
    exists_text_of_isCode (by decide +kernel)
  obtain ⟨text, htext⟩ := hcode
  obtain ⟨c, -, hrender, -, hmain, -⟩ := empties_located htext
  exact ⟨text, c, htext, hrender, hmain⟩

/-- A program that comes to a class whose main method has the items `items`. -/
def Program.ComesTo (p : Program) (items : List (Nat × Java.Item)) : Prop :=
  ∃ c, p.lower.value = some (.ok c) ∧ Java.items 0 c.main = items

/-- An assignment of nothing, a range without its second argument and an output
without its second operand are converted to code that has nothing there. -/
theorem empties_generated :
    (Program.ofLines (linesOf "x =\n")).ComesTo [(0, .declaration .int "x" "")] ∧
      (Program.ofLines (linesOf "for i in range(1,,2):\n    pass\n")).ComesTo [(0, .forLoop "i" "1" "" "2")] ∧
      (Program.ofLines (linesOf "print(1,,2)\n")).ComesTo [(0, .println "1 + \" \" +  + \" \" + 2")] := by
  have hcomes : ∀ (p : Program) (items : List (Nat × Java.Item)),
      p.lower.value.any (fun g => g.toOption.any fun c => decide (Java.items 0 c.main = items)) = true →
        p.ComesTo items := by
    intro p items hp
    obtain ⟨c, hc, hcheck⟩ := Program.exists_of_check hp
    exact ⟨c, hc, of_decide_eq_true hcheck⟩
  exact ⟨hcomes _ _ (by decide +kernel), hcomes _ _ (by decide +kernel), hcomes _ _ (by decide +kernel)⟩

end Offside

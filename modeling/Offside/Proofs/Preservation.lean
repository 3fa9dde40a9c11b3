/-
# Every line of a program is in its class

Where a source text is converted to code, each line of a function and of the
entry point but a `pass` becomes one item of the generated code, of the form
that fits its kind, in the order of the lines and as deep as the headers
around the line are many. Nothing is left out, doubled or moved.

Lines are the parts of their block (`Block.forall₂_parts_of_ofLines`), and
parts become items (`Block.emits_of_lowerBlock`); a line that was not read has
left a problem, and a problem is a fault.

Key definitions: `Line.Becomes`, `Preserved`.
Key theorems: `Line.Says.becomes`, `preserved_of_lowerBlock`,
`preserved_of_convertProgram`.
-/
import Offside.Proofs.Acceptance
import Offside.Proofs.Emission

namespace Offside

/-- What a line becomes, going by its kind. -/
inductive Line.Becomes (l : Line) : Java.Item → Prop where
  | ifThen {c t : Text} (hk : l.kind = .ifHeader) (hr : readHeader? "if" l.text = some (.ok c))
    (ht : translate? c = some t) : l.Becomes (.ifThen t)
  | elseIf {c t : Text} (hk : l.kind = .elifHeader) (hr : readHeader? "elif" l.text = some (.ok c))
    (ht : translate? c = some t) : l.Becomes (.elseIf t)
  | orElse (hk : l.kind = .elseHeader) : l.Becomes .orElse
  | whileLoop {c t : Text} (hk : l.kind = .whileHeader)
    (hr : readHeader? "while" l.text = some (.ok c)) (ht : translate? c = some t) :
    l.Becomes (.whileLoop t)
  | forLoop {loop : RangeLoop} {first last step : Text} (hk : l.kind = .forHeader)
    (hr : RangeLoop.ofText? l.text = some (.ok loop)) (hfirst : translate? loop.start = some first)
    (hlast : translate? loop.stop = some last) (hstep : translate? loop.step = some step) :
    l.Becomes (.forLoop loop.counter first last step)
  /-- A return with nothing after its keyword. -/
  | returnNothing {rest : Text} (hk : l.kind = .returned)
    (hr : afterKeyword? "return" l.text = some rest) (hv : Text.trim rest = []) :
    l.Becomes (.returned none)
  /-- A return with a value after its keyword. -/
  | returnValue {rest t : Text} (hk : l.kind = .returned)
    (hr : afterKeyword? "return" l.text = some rest) (hv : Text.trim rest ≠ [])
    (ht : translate? (Text.trim rest) = some t) : l.Becomes (.returned (some t))
  | println {arguments : Text} {ts : List Text} (hk : l.kind = .print)
    (hr : callArguments? "print" l.text = some arguments)
    (hts : (splitArguments arguments).map translate? = ts.map some) :
    l.Becomes (.println (printed ts))
  | call (hk : l.kind = .call) : l.Becomes (.call l.text)
  | declaration {a : Assignment} {type : ValueType} {v : Text} (hk : l.kind = .assignment)
    (hr : Assignment.ofText? l.text = some a) (hv : translate? a.value = some v) :
    l.Becomes (.declaration type a.target v)
  | assignment {a : Assignment} {v : Text} (hk : l.kind = .assignment)
    (hr : Assignment.ofText? l.text = some a) (hv : translate? a.value = some v) :
    l.Becomes (.assignment a.target "=" v)
  | update {a : Assignment} {operator : Char} {v : Text} (hk : l.kind = .update)
    (hr : Assignment.ofText? l.text = some a) (ho : a.operator = some operator)
    (hv : translate? a.value = some v) : l.Becomes (.assignment a.target [operator, '='] v)
  | breakLoop (hk : l.kind = .breakLoop) : l.Becomes .breakLoop
  | continueLoop (hk : l.kind = .continueLoop) : l.Becomes .continueLoop

/-- The lines of a function or of the entry point, and the statements they
come to: one item for each line but a `pass`, as deep as the headers around
the line are many. -/
def Preserved (ls : List Line) (ss : List Java.Statement) : Prop :=
  List.Forall₂ (fun e i => i.1 = e.1 ∧ e.2.Becomes i.2)
    ((nest ls).filter fun e => e.2.kind ≠ .pass) (Java.items 0 ss)

/-! ### From lines to items -/

/-- **The statement of a plain line becomes what the line becomes.** -/
theorem Line.States.becomes {l : Line} {t : Tree} {start : Scope} {p : Place} {i : Java.Item}
    (h : l.States t) (hb : Part.Becomes start p (.statement t) i) : l.Becomes i := by
  cases h with
  | returnNothing hk hr hv =>
    cases hb with
    | returnNothing => exact .returnNothing hk hr hv
  | returnValue hk hr hv =>
    cases hb with
    | returnValue ht => exact .returnValue hk hr hv ht
  | print hk hr =>
    cases hb with
    | println hts => exact .println hk hr hts
  | pass hk => cases hb
  | breakLoop hk =>
    cases hb with
    | breakLoop => exact .breakLoop hk
  | continueLoop hk =>
    cases hb with
    | continueLoop => exact .continueLoop hk
  | call hk =>
    cases hb with
    | call => exact .call hk
  | assignment hk hr =>
    cases hb with
    | declaration hv => exact .declaration hk hr hv
    | assignment hv => exact .assignment hk hr hv
  | update hk hr ho =>
    cases hb with
    | update hv => exact .update hk hr ho hv

namespace Line.Says

variable {l : Line} {part : Part}

theorem isPass_iff (h : l.Says part) : l.kind = .pass ↔ part.isPass = true := by
  cases h with
  | plain hs => exact hs.isPass_iff
  | ifThen hk | elseIf hk | orElse hk | whileLoop hk | forLoop hk => simp [hk, Part.isPass]

/-- **What a line says becomes what the line becomes.** -/
theorem becomes {start : Scope} {p : Place} {i : Java.Item} (h : l.Says part)
    (hb : part.Becomes start p i) : l.Becomes i := by
  cases h with
  | ifThen hk hr =>
    cases hb with
    | ifThen ht => exact .ifThen hk hr ht
  | elseIf hk hr =>
    cases hb with
    | elseIf ht => exact .elseIf hk hr ht
  | orElse hk =>
    cases hb with
    | orElse => exact .orElse hk
  | whileLoop hk hr =>
    cases hb with
    | whileLoop ht => exact .whileLoop hk hr ht
  | forLoop hk hr =>
    cases hb with
    | forLoop hfirst hlast hstep => exact .forLoop hk hr hfirst hlast hstep
  | plain hs => exact hs.becomes hb

end Line.Says

theorem forall₂_through {α β γ : Type} {R : α → β → Prop} {S : β → γ → Prop} {T : α → γ → Prop}
    (hT : ∀ a b c, R a b → S b c → T a c) : ∀ {as : List α} {bs : List β} {cs : List γ},
    List.Forall₂ R as bs → List.Forall₂ S bs cs → List.Forall₂ T as cs
  | _, _, _, .nil, .nil => .nil
  | _, _, _, .cons hab has, .cons hbc hbs => .cons (hT _ _ _ hab hbc) (forall₂_through hT has hbs)

theorem exists_of_mem_right {α β : Type} {R : α → β → Prop} {b : β} : ∀ {as : List α} {bs : List β},
    List.Forall₂ R as bs → b ∈ bs → ∃ a ∈ as, R a b
  | _, _, .cons hab has, h => by
    rcases List.mem_cons.1 h with rfl | h
    · exact ⟨_, List.mem_cons_self .., hab⟩
    · obtain ⟨a, ha, hR⟩ := exists_of_mem_right has h
      exact ⟨a, List.mem_cons_of_mem _ ha, hR⟩

theorem problems_eq_nil_of_lowerBlock {inFunction : Bool} {start : Scope} {b : Block}
    {ss : List Java.Statement} (h : lowerBlock inFunction start b = .ok ss) :
    Block.problems b = [] := by
  have hd : (lowerBlock inFunction start b).diagnostics = [] := by rw [h]; rfl
  rw [lowerBlock, diagnostics_gather, diagnostics_lowerTrees inFunction b (shows_names start).enter] at hd
  exact List.eq_nil_of_sublist_nil (hd ▸ Block.problems_sublist_faults inFunction b start.names)

/-- **Classified lines whose block comes to statements are all among them.** -/
theorem preserved_of_lowerBlock {inFunction : Bool} {start : Scope} {ls : List Line} {b : Block}
    {ss : List Java.Statement} (hc : ∀ l ∈ ls, l.Classified) (hread : Block.ofLines? ls = some b)
    (h : lowerBlock inFunction start b = .ok ss) : Preserved ls ss := by
  have hparts : List.Forall₂ (ReadAs 0) (nest ls) (Block.parts .top b) :=
    Block.forall₂_parts_of_ofLines hread hc (problems_eq_nil_of_lowerBlock h) .top
  -- a `pass` goes on both sides
  have hkept : List.Forall₂ (ReadAs 0) ((nest ls).filter fun e => e.2.kind ≠ .pass)
      (emitted (Block.parts .top b)) := by
    refine List.rel_filter ?_ hparts
    intro e x hx
    simp [hx.2.isPass_iff]
  refine forall₂_through ?_ hkept (Block.emits_of_lowerBlock h)
  intro e x i hx hi
  refine ⟨?_, hx.2.becomes hi.2⟩
  rw [hi.1, hx.1, Nat.zero_add]

/-! ### The lines of a program -/

theorem mem_of_mem_sortLines : ∀ (ls : List Line) (owner : Option Nat) {l : Line},
    l ∈ (sortLines owner ls).1 ∨ (∃ f ∈ (sortLines owner ls).2.1, l ∈ f.body) ∨
      l ∈ (sortLines owner ls).2.2 → l ∈ ls
  | [], owner, l, h => by simp [sortLines] at h
  | m :: ls, owner, l, h => by
    rw [List.mem_cons]
    unfold sortLines at h
    split at h
    · have ih := mem_of_mem_sortLines ls owner (l := l)
      simp only [List.mem_cons, or_assoc] at h
      exact h.imp id ih
    · split at h
      · have ih := mem_of_mem_sortLines ls (some m.indent) (l := l)
        simp only [List.not_mem_nil, false_or, List.mem_cons, exists_eq_or_imp, or_assoc] at h
        exact .inr (ih h)
      · have ih := mem_of_mem_sortLines ls none (l := l)
        simp only [List.not_mem_nil, false_or, List.mem_cons] at h
        rcases h with h | rfl | h
        · exact .inr (ih (.inr (.inl h)))
        · exact .inl rfl
        · exact .inr (ih (.inr (.inr h)))

theorem OrderedMap.mem_of_mem_values_insert {κ α : Type} [DecidableEq κ] {k : κ} {a b : α} :
    ∀ {m : OrderedMap κ α}, b ∈ values (insert k a m) → b = a ∨ b ∈ values m
  | [], h => by simpa [insert, values] using h
  | (k', a') :: m, h => by
    have ih := mem_of_mem_values_insert (k := k) (a := a) (b := b) (m := m)
    unfold insert at h
    unfold values at h ih ⊢
    split at h
    · simp only [List.map_cons, List.mem_cons] at h ⊢
      exact h.imp id .inr
    · simp only [List.map_cons, List.mem_cons] at h ⊢
      rcases h with h | h
      · exact .inr (.inl h)
      · exact (ih h).imp id .inr

theorem mem_of_mem_byName {f : Function} {fs : List Function}
    (h : f ∈ (Function.byName fs).values) : f ∈ fs := by
  have hall : ∀ (fs : List Function) (m : OrderedMap Text Function),
      f ∈ (fs.foldl (fun m f => m.insert f.signature.name f) m).values → f ∈ fs ∨ f ∈ m.values := by
    intro fs
    induction fs with
    | nil => exact fun m h => .inr h
    | cons g fs ih =>
      intro m h
      rcases ih _ h with h | h
      · exact .inl (List.mem_cons_of_mem g h)
      · rcases OrderedMap.mem_of_mem_values_insert h with rfl | h
        · exact .inl (List.mem_cons_self ..)
        · exact .inr h
  exact (hall fs [] h).resolve_right (List.not_mem_nil)

theorem Program.classified_ofLines (source : Text) :
    (∀ f ∈ (Program.ofLines (linesOf source)).functions.values, ∀ l ∈ f.body, l.Classified) ∧
      ∀ l ∈ (Program.ofLines (linesOf source)).entryPoint, l.Classified := by
  refine ⟨fun f hf l hl => ?_, fun l hl => ?_⟩
  · exact kind_of_mem_linesOf (mem_of_mem_sortLines _ none (.inr (.inl ⟨f, mem_of_mem_byName hf, hl⟩)))
  · exact kind_of_mem_linesOf (mem_of_mem_sortLines _ none (.inr (.inr hl)))

/-! ### Conversions -/

theorem value_convertProgram (source : Text) : (convertProgram source).value =
    (Program.ofLines (linesOf source)).lower.value.map Conversion.ofGenerated := by
  unfold convertProgram scan extract
  simp only [Run.value_bind, Run.value_tellAll, Run.value_pure, Run.tell, Option.bind_some]
  exact Option.map_eq_bind.symm

/-- The text of a conversion is the class that its program came to. -/
theorem exists_of_convertProgram {source text : Text}
    (h : (convertProgram source).value = some (.code text)) :
    ∃ c, (Program.ofLines (linesOf source)).lower.value = some (.ok c) ∧ text = c.render := by
  rw [value_convertProgram] at h
  obtain ⟨g, hg, hcode⟩ := Option.map_eq_some_iff.1 h
  cases g with
  | error ds => cases hcode
  | ok c =>
    cases hcode
    exact ⟨c, hg, rfl⟩

theorem exists_text_of_isCode {source : Text}
    (h : (convertProgram source).value.map Conversion.isCode = some true) :
    ∃ text, (convertProgram source).value = some (.code text) := by
  obtain ⟨conversion, hvalue, hisCode⟩ := Option.map_eq_some_iff.1 h
  cases conversion with
  | report ds => cases hisCode
  | code text => exact ⟨text, hvalue⟩

theorem Function.preserved_of_lower {f : Function} {m : Java.Method}
    (hc : ∀ l ∈ f.body, l.Classified) (h : f.lower.value = some (.ok m)) :
    m.name = f.signature.name ∧ Preserved f.body m.body := by
  obtain ⟨b, hread, hm⟩ := exists_block_of_lower h
  obtain ⟨ss, hss, rfl⟩ := Generated.exists_of_map_ok hm
  exact ⟨rfl, preserved_of_lowerBlock hc hread hss⟩

theorem Program.preserved_of_lowerEntryPoint {p : Program} {ss : List Java.Statement}
    (hc : ∀ l ∈ p.entryPoint, l.Classified) (h : p.lowerEntryPoint.value = some (.ok ss)) :
    Preserved p.entryPoint ss := by
  rw [value_lowerEntryPoint] at h
  obtain ⟨b, hread, hss⟩ := Option.map_eq_some_iff.1 h
  exact preserved_of_lowerBlock hc hread hss

theorem Program.forall₂_methods {p : Program} {c : Java.Class} (h : p.lower.value = some (.ok c)) :
    List.Forall₂ (fun f m => f.lower.value = some (.ok m)) p.functions.values c.methods ∧
      p.lowerEntryPoint.value = some (.ok c.main) := by
  obtain ⟨methods, main, hms, hmain, hjoined⟩ := exists_of_lower h
  obtain ⟨⟨ms, body⟩, hboth, rfl⟩ := Generated.exists_of_map_ok hjoined.symm
  obtain ⟨hall, rfl⟩ := Generated.exists_of_both_ok hboth
  refine ⟨?_, hmain⟩
  -- a method that failed has said why, and nothing was said
  have hr : ∀ g ∈ methods, g.Reported := by
    intro g hg
    have hmem : some g ∈ p.functions.values.map fun f => f.lower.value :=
      hms ▸ List.mem_map_of_mem hg
    obtain ⟨f, -, hf⟩ := List.mem_map.1 hmem
    exact (f.reports_lower g hf).1
  rw [← Generated.map_ok_of_all_ok hr hall, List.map_map] at hms
  have heq : List.Forall₂ Eq (p.functions.values.map fun f => f.lower.value)
      (ms.map (some ∘ Except.ok)) := by
    rw [hms]
    exact List.forall₂_refl _
  rwa [List.forall₂_map_left_iff, List.forall₂_map_right_iff] at heq

theorem Program.exists_method {p : Program} {c : Java.Class} (h : p.lower.value = some (.ok c))
    {f : Function} (hf : f ∈ p.functions.values) : ∃ m, f.lower.value = some (.ok m) := by
  have hmethods := (forall₂_methods h).1.imp fun f m hm => And.intro (Exists.intro m hm) hm
  exact ((List.forall₂_and_left _ _).1 hmethods).1 f hf

/-- **Nothing is lost, doubled or moved on the way to code.** Where a source
text is converted to code, the code is a class whose methods hold the lines of
the functions, in order, and whose main method holds those of the entry
point. -/
theorem preserved_of_convertProgram {source text : Text}
    (h : (convertProgram source).value = some (.code text)) :
    ∃ c : Java.Class,
      (Program.ofLines (linesOf source)).lower.value = some (.ok c) ∧ text = c.render ∧
      List.Forall₂ (fun f m => m.name = f.signature.name ∧ Preserved f.body m.body)
        (Program.ofLines (linesOf source)).functions.values c.methods ∧
      Preserved (Program.ofLines (linesOf source)).entryPoint c.main := by
  obtain ⟨c, hc, rfl⟩ := exists_of_convertProgram h
  obtain ⟨hmethods, hmain⟩ := Program.forall₂_methods hc
  obtain ⟨hbodies, hentry⟩ := Program.classified_ofLines source
  refine ⟨c, hc, rfl, ?_, Program.preserved_of_lowerEntryPoint hentry hmain⟩
  have hall := (List.forall₂_and_left _ _).2 ⟨hbodies, hmethods⟩
  exact hall.imp fun f m hfm => Function.preserved_of_lower hfm.1 hfm.2

/-- A function with a conditional, and a loop. -/
def countdown : Text :=
  "def half(n):\n    if n > 1:\n        return n / 2\n    else:\n        pass\nx = 9\nwhile x > 0:\n  x -= 1"

theorem preserved_of_convertProgram_countdown :
    ∃ text, (convertProgram countdown).value = some (.code text) ∧
      ∃ c : Java.Class, text = c.render ∧
        List.Forall₂ (fun f m => m.name = f.signature.name ∧ Preserved f.body m.body)
          (Program.ofLines (linesOf countdown)).functions.values c.methods := by
  have hcode : (convertProgram countdown).value.map Conversion.isCode = some true := by decide +kernel
  obtain ⟨conversion, hvalue, hisCode⟩ := Option.map_eq_some_iff.1 hcode
  cases conversion with
  | report ds => cases hisCode
  | code text =>
    obtain ⟨c, _, htext, hmethods, _⟩ := preserved_of_convertProgram hvalue
    exact ⟨text, hvalue, c, htext, hmethods⟩

end Offside

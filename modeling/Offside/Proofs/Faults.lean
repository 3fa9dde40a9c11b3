/-
# Everything that is wrong with a block

`Block.faults` lists what is wrong with a block, from the left to the right: a
malformed statement at any depth, an expression that cannot be translated, a
return outside of a function, an update of a name that is not visible. It
follows the names alone, and knows of no types and no frames. Lowering reports
this list, or yields its statements where the list is empty
(`lowering_reports_faults`).

Key definitions: `Tree.introduced`, `Tree.faults`, `Block.faults`,
`Function.faults`, `Program.faults`.
Key theorems: `diagnostics_lowerTrees`, `reported_lowerTree`,
`lowering_reports_faults`.
-/
import Mathlib.Logic.Basic
import Offside.Conversion
import Offside.Proofs.Generated
import Offside.Proofs.Leaves
import Offside.Proofs.Runs

namespace Offside

/-! ### The faults of a block -/

/-- The names that are visible in a scope. -/
def Scope.names (fs : Scope) : List Text := fs.flatten.map Symbol.name

/-- The names that a statement makes visible to the statements after it. One
that cannot be translated assigns nothing. -/
def Tree.introduced : Tree → List Text
  | .forLoop _ loop _ => [loop.counter]
  | .assignment _ name value => if (translate? value).isSome then [name] else []
  | _ => []

/-- The fault of an expression that cannot be translated. -/
def untranslated (line : Nat) (expression : Text) : List Diagnostic :=
  if (translate? expression).isSome then [] else [⟨line, .unterminatedString expression⟩]

mutual

/-- What is wrong with a statement where the names `visible` are visible. -/
def Tree.faults (inFunction : Bool) (visible : List Text) : Tree → List Diagnostic
  | .conditional line branches otherwise =>
    faultsOfBranches inFunction visible line branches ++ faultsOfElse inFunction visible otherwise
  | .whileLoop line condition body =>
    untranslated line condition ++ Block.faults inFunction visible body
  | .forLoop line loop body =>
    untranslated line loop.start ++ untranslated line loop.stop ++ untranslated line loop.step ++
      Block.faults inFunction (loop.counter :: visible) body
  | .returned line value =>
    if inFunction then value.toList.flatMap (untranslated line) else [⟨line, .returnOutsideFunction⟩]
  | .print line arguments => arguments.flatMap (untranslated line)
  | .assignment line _ value => untranslated line value
  | .update line name _ value =>
    if visible.contains name then untranslated line value else [⟨line, .undefinedVariable name⟩]
  | .malformed line problem => [⟨line, problem⟩]
  | .call _ _ | .pass _ | .breakLoop _ | .continueLoop _ => []

/-- What is wrong with the statements of a block, where the names `visible`
are visible before them. -/
def Block.faults (inFunction : Bool) (visible : List Text) : List Tree → List Diagnostic
  | [] => []
  | t :: ts => t.faults inFunction visible ++ Block.faults inFunction (t.introduced ++ visible) ts

/-- What is wrong with the branches of a conditional: each condition, then the
body of its branch. -/
def faultsOfBranches (inFunction : Bool) (visible : List Text) (line : Nat) :
    List (Text × List Tree) → List Diagnostic
  | [] => []
  | (condition, body) :: more =>
    untranslated line condition ++ Block.faults inFunction visible body ++
      faultsOfBranches inFunction visible line more

/-- What is wrong with the last branch of a conditional, if it has one. -/
def faultsOfElse (inFunction : Bool) (visible : List Text) : Option (List Tree) → List Diagnostic
  | none => []
  | some body => Block.faults inFunction visible body

end

/-- What is wrong with a function: that it has no body, or what is wrong with
the block of its body. -/
def Function.faults (f : Function) : List Diagnostic :=
  if f.body = [] then [⟨f.line, .missingBody f.signature.header⟩]
  else (Block.ofLines? f.body).elim [] (Block.faults true f.signature.parameters)

/-- What is wrong with the entry point of a program. -/
def Program.entryPointFaults (p : Program) : List Diagnostic :=
  (Block.ofLines? p.entryPoint).elim [] (Block.faults false [])

/-- What is wrong with a program: with its functions in order, then with its
entry point. -/
def Program.faults (p : Program) : List Diagnostic :=
  p.functions.values.flatMap Function.faults ++ p.entryPointFaults

/-! ### Visible names -/

/-- The visible names of a scope are those of a list. -/
def Scope.Shows (scope : Scope) (visible : List Text) : Prop := ∀ x, scope.sees x = true ↔ x ∈ visible

theorem shows_names : ∀ fs : Scope, fs.Shows fs.names
  | [], x => by simp [Scope.sees, Scope.find?, Scope.names]
  | f :: fs, x => by
    have ih := shows_names fs x
    unfold Scope.sees at ih ⊢
    rw [Scope.find?, Option.isSome_or, Bool.or_eq_true, ih]
    simp [Scope.names, Frame.find?]

theorem sees_declare (fs : Scope) (s : Symbol) (x : Text) :
    (fs.declare s).sees x = true ↔ x = s.name ∨ fs.sees x = true := by
  cases fs with
  | nil =>
    simp only [Scope.declare, Scope.sees, Scope.find?, Frame.find?, List.find?_singleton]
    by_cases h : s.name = x
    · simp [h]
    · simp [h, Ne.symm h]
  | cons f fs =>
    rw [Scope.sees, Scope.find?_declare, Scope.sees, Scope.find?]
    by_cases h : s.name = x
    · simp [h]
    · simp [h, Ne.symm h]

theorem sees_introduce (scope : Scope) (t : Tree) (x : Text) :
    (introduce scope t).sees x = true ↔ x ∈ t.introduced ∨ scope.sees x = true := by
  cases t with
  | forLoop line loop body => simp [introduce, Tree.introduced, sees_declare]
  | assignment line name value =>
    rw [introduce, Tree.introduced]
    cases translate? value with
    | none => simp
    | some v =>
      by_cases hs : scope.sees name = true
      · simp only [hs, if_true, Option.isSome_some, List.mem_singleton]
        refine ⟨.inr, ?_⟩
        rintro (rfl | h)
        · exact hs
        · exact h
      · simp [hs, sees_declare]
  | _ => simp [introduce, Tree.introduced]

theorem sees_declareParameters (line : Nat) (x : Text) : ∀ (parameters : List Text) (f : Frame),
    Scope.sees [Function.declareParameters line f parameters] x = true ↔
      x ∈ parameters ∨ Scope.sees [f] x = true
  | [], f => by simp [Function.declareParameters]
  | p :: ps, f => by
    have ih := sees_declareParameters line x ps (f.declare ⟨p, .int, line⟩)
    have hd := sees_declare [f] ⟨p, .int, line⟩ x
    rw [Function.declareParameters, List.foldl_cons, ← Function.declareParameters, ih]
    simp only [Scope.declare] at hd
    rw [hd, List.mem_cons]
    exact or_left_comm.trans or_assoc.symm

namespace Scope.Shows

variable {scope : Scope} {visible : List Text}

/-- A block that has introduced nothing hides nothing. -/
theorem enter (h : scope.Shows visible) : Scope.Shows ([] :: scope) visible := fun x => h x

theorem declare (h : scope.Shows visible) (s : Symbol) :
    (scope.declare s).Shows (s.name :: visible) := by
  intro x
  rw [sees_declare, h x, List.mem_cons]

theorem introduce (h : scope.Shows visible) (t : Tree) :
    (introduce scope t).Shows (t.introduced ++ visible) := by
  intro x
  rw [sees_introduce, h x, List.mem_append]

end Scope.Shows

/-! ### The diagnostics of lowering -/

theorem diagnostics_translateOn (line : Nat) (expression : Text) :
    (translateOn line expression).diagnostics = untranslated line expression := by
  unfold translateOn untranslated
  cases translate? expression <;> rfl

theorem reported_translateOn (line : Nat) (expression : Text) :
    (translateOn line expression).Reported := by
  unfold translateOn
  cases translate? expression with
  | some t => exact Generated.reported_ok t
  | none => exact Generated.reported_fault line _

theorem diagnostics_gather (gs : List (Generated (Option Java.Statement))) :
    (gather gs).diagnostics = gs.flatMap Generated.diagnostics := by
  rw [gather, Generated.diagnostics_map, Generated.diagnostics_all]

theorem reported_gather (gs : List (Generated (Option Java.Statement))) : (gather gs).Reported :=
  (Generated.reported_all gs).map _

/-- **A statement that comes to nothing says why.** -/
theorem reported_lowerTree (inFunction : Bool) (scope : Scope) (t : Tree) :
    (lowerTree inFunction scope t).Reported := by
  cases t with
  | conditional line branches otherwise =>
    have helse : (lowerElse inFunction scope otherwise).Reported := by
      cases otherwise with
      | none => exact Generated.reported_ok none
      | some body => exact (reported_gather _).map some
    exact ((Generated.reported_all _).both helse).map _
  | whileLoop line condition body =>
    exact ((reported_translateOn line condition).both (reported_gather _)).map _
  | forLoop line loop body =>
    exact (((reported_translateOn line loop.start).both (reported_translateOn line loop.stop)).both
      ((reported_translateOn line loop.step).both (reported_gather _))).map _
  | returned line value =>
    unfold lowerTree
    cases inFunction with
    | false => exact Generated.reported_fault line _
    | true =>
      cases value with
      | none => exact Generated.reported_ok _
      | some v => exact (reported_translateOn line v).map _
  | print line arguments => exact (Generated.reported_all _).map _
  | assignment line name value => exact (reported_translateOn line value).map _
  | update line name operator value =>
    rw [lowerTree]
    cases scope.sees name with
    | false => exact Generated.reported_fault line _
    | true => exact (reported_translateOn line value).map _
  | malformed line problem => exact Generated.reported_fault line problem
  | call line text => exact Generated.reported_ok _
  | pass line => exact Generated.reported_ok _
  | breakLoop line => exact Generated.reported_ok _
  | continueLoop line => exact Generated.reported_ok _

-- The recursion is that of lowering. A list of names is enough to go along with
-- its scope: which frame holds a name decides no fault.
mutual

theorem diagnostics_lowerTree (inFunction : Bool) : ∀ (t : Tree) {scope : Scope} {visible : List Text},
    scope.Shows visible → (lowerTree inFunction scope t).diagnostics = t.faults inFunction visible
  | .conditional line branches otherwise, scope, visible, h => by
    rw [lowerTree, Tree.faults, Generated.diagnostics_map, Generated.diagnostics_both,
      Generated.diagnostics_all, diagnostics_lowerBranches inFunction line branches h,
      diagnostics_lowerElse inFunction otherwise h]
  | .whileLoop line condition body, scope, visible, h => by
    rw [lowerTree, Tree.faults, Generated.diagnostics_map, Generated.diagnostics_both,
      diagnostics_translateOn, diagnostics_gather, diagnostics_lowerTrees inFunction body h.enter]
  | .forLoop line loop body, scope, visible, h => by
    have hbody := diagnostics_lowerTrees inFunction body (h.declare ⟨loop.counter, .int, line⟩).enter
    rw [lowerTree, Tree.faults, Generated.diagnostics_map, Generated.diagnostics_both,
      Generated.diagnostics_both, Generated.diagnostics_both, diagnostics_translateOn,
      diagnostics_translateOn, diagnostics_translateOn, diagnostics_gather, hbody]
    simp only [List.append_assoc]
  | .returned line value, scope, visible, h => by
    rw [Tree.faults]
    unfold lowerTree
    cases inFunction with
    | false => rfl
    | true =>
      cases value with
      | none => rfl
      | some v =>
        show Generated.diagnostics ((translateOn line v).map _) = _
        rw [Generated.diagnostics_map, diagnostics_translateOn]
        simp
  | .print line arguments, scope, visible, h => by
    rw [lowerTree, Tree.faults, Generated.diagnostics_map, Generated.diagnostics_all, List.flatMap_map]
    simp only [diagnostics_translateOn]
  | .assignment line name value, scope, visible, h => by
    rw [lowerTree, Tree.faults, Generated.diagnostics_map, diagnostics_translateOn]
  | .update line name operator value, scope, visible, h => by
    rw [lowerTree, Tree.faults]
    by_cases hs : scope.sees name = true
    · rw [if_pos hs, if_pos (List.contains_iff_mem.2 ((h name).1 hs)), Generated.diagnostics_map, diagnostics_translateOn]
    · rw [if_neg hs, if_neg fun hm => hs ((h name).2 (List.contains_iff_mem.1 hm))]
      rfl
  | .malformed line problem, scope, visible, h => by
    rw [lowerTree, Tree.faults]
    rfl
  | .call line text, scope, visible, h => by rw [lowerTree, Tree.faults]; rfl
  | .pass line, scope, visible, h => by rw [lowerTree, Tree.faults]; rfl
  | .breakLoop line, scope, visible, h => by rw [lowerTree, Tree.faults]; rfl
  | .continueLoop line, scope, visible, h => by rw [lowerTree, Tree.faults]; rfl

theorem diagnostics_lowerTrees (inFunction : Bool) : ∀ (ts : List Tree) {scope : Scope}
    {visible : List Text}, scope.Shows visible →
    (lowerTrees inFunction scope ts).flatMap Generated.diagnostics = Block.faults inFunction visible ts
  | [], _, _, _ => rfl
  | t :: ts, scope, visible, h => by
    rw [lowerTrees, Block.faults, List.flatMap_cons, diagnostics_lowerTree inFunction t h,
      diagnostics_lowerTrees inFunction ts (h.introduce t)]

theorem diagnostics_lowerBranches (inFunction : Bool) (line : Nat) :
    ∀ (branches : List (Text × List Tree)) {scope : Scope} {visible : List Text}, scope.Shows visible →
    (lowerBranches inFunction scope line branches).flatMap Generated.diagnostics =
      faultsOfBranches inFunction visible line branches
  | [], _, _, _ => rfl
  | (condition, body) :: more, scope, visible, h => by
    rw [lowerBranches, faultsOfBranches, List.flatMap_cons, Generated.diagnostics_both,
      diagnostics_translateOn, diagnostics_gather, diagnostics_lowerTrees inFunction body h.enter,
      diagnostics_lowerBranches inFunction line more h]

theorem diagnostics_lowerElse (inFunction : Bool) : ∀ (otherwise : Option (List Tree)) {scope : Scope}
    {visible : List Text}, scope.Shows visible →
    (lowerElse inFunction scope otherwise).diagnostics = faultsOfElse inFunction visible otherwise
  | none, _, _, _ => rfl
  | some body, scope, visible, h => by
    rw [lowerElse, faultsOfElse, Generated.diagnostics_map, diagnostics_gather,
      diagnostics_lowerTrees inFunction body h.enter]

end

/-! ### Malformed statements -/

mutual

theorem Tree.problems_sublist_faults (inFunction : Bool) : ∀ (t : Tree) (visible : List Text),
    List.Sublist t.problems (t.faults inFunction visible)
  | .conditional line branches otherwise, visible => by
    rw [Tree.problems, Tree.faults]
    exact (problemsOfBranches_sublist_faults inFunction line branches visible).append
      (problemsOfElse_sublist_faults inFunction otherwise visible)
  | .whileLoop line condition body, visible => by
    rw [Tree.problems, Tree.faults]
    exact List.sublist_append_of_sublist_right
      (Block.problems_sublist_faults inFunction body visible)
  | .forLoop line loop body, visible => by
    rw [Tree.problems, Tree.faults]
    exact List.sublist_append_of_sublist_right
      (Block.problems_sublist_faults inFunction body (loop.counter :: visible))
  | .malformed _ _, _ => List.Sublist.refl _
  | .returned _ _, _ | .print _ _, _ | .call _ _, _ | .assignment _ _ _, _ | .update _ _ _ _, _
  | .pass _, _ | .breakLoop _, _ | .continueLoop _, _ => List.nil_sublist _

/-- **Every malformed statement is a fault of its block.** -/
theorem Block.problems_sublist_faults (inFunction : Bool) : ∀ (ts : List Tree) (visible : List Text),
    List.Sublist (Block.problems ts) (Block.faults inFunction visible ts)
  | [], _ => List.Sublist.refl _
  | t :: ts, visible => by
    rw [Block.problems, Block.faults]
    exact (Tree.problems_sublist_faults inFunction t visible).append
      (Block.problems_sublist_faults inFunction ts (t.introduced ++ visible))

theorem problemsOfBranches_sublist_faults (inFunction : Bool) (line : Nat) :
    ∀ (branches : List (Text × List Tree)) (visible : List Text),
    List.Sublist (problemsOfBranches branches) (faultsOfBranches inFunction visible line branches)
  | [], _ => List.Sublist.refl _
  | (condition, body) :: more, visible => by
    rw [problemsOfBranches, faultsOfBranches]
    exact (List.sublist_append_of_sublist_right
      (Block.problems_sublist_faults inFunction body visible)).append
      (problemsOfBranches_sublist_faults inFunction line more visible)

theorem problemsOfElse_sublist_faults (inFunction : Bool) :
    ∀ (otherwise : Option (List Tree)) (visible : List Text),
    List.Sublist (problemsOfElse otherwise) (faultsOfElse inFunction visible otherwise)
  | none, _ => List.Sublist.refl _
  | some body, visible => Block.problems_sublist_faults inFunction body visible

end

/-! ### The diagnostics of a program -/

theorem shows_parameters (line : Nat) (parameters : List Text) :
    Scope.Shows [Function.declareParameters line [] parameters] parameters := by
  intro x
  rw [sees_declareParameters]
  simp [Scope.sees, Scope.find?, Frame.find?]

namespace Function

theorem diagnostics_method (f : Function) (b : Block) :
    (f.method b).diagnostics = Block.faults true f.signature.parameters b := by
  rw [method, Generated.diagnostics_map, lowerBlock, diagnostics_gather]
  exact diagnostics_lowerTrees true b (shows_parameters f.line f.signature.parameters).enter

/-- What lowering a function yields: why it has no body, or the method of its
body. -/
theorem value_lower (f : Function) :
    f.lower.value =
      if f.body = [] then some (Generated.fault f.line (.missingBody f.signature.header))
      else (Block.ofLines? f.body).map f.method := by
  unfold lower
  by_cases h : f.body = []
  · rw [if_pos h, if_pos h, Run.value_pure]
  · rw [if_neg h, if_neg h]
    simp only [Run.value_bind, Run.value_tellAll, Run.value_ofOption, Run.value_pure, Option.bind_some]
    exact Option.map_eq_bind.symm

theorem exists_block_of_lower {f : Function} {m : Java.Method} (h : f.lower.value = some (.ok m)) :
    ∃ b, Block.ofLines? f.body = some b ∧ f.method b = .ok m := by
  rw [value_lower] at h
  split at h
  · cases h
  · exact Option.map_eq_some_iff.1 h

/-- **A function reports what is wrong with it.** -/
theorem reports_lower (f : Function) : f.lower.Reports f.faults := by
  intro g h
  rw [value_lower] at h
  unfold faults
  by_cases hb : f.body = []
  · rw [if_pos hb, Option.some.injEq] at h
    rw [if_pos hb, ← h]
    exact ⟨Generated.reported_fault _ _, rfl⟩
  · rw [if_neg hb] at h
    obtain ⟨b, hread, rfl⟩ := Option.map_eq_some_iff.1 h
    rw [if_neg hb, hread, Option.elim_some]
    exact ⟨(reported_gather _).map _, f.diagnostics_method b⟩

end Function

namespace Program

theorem value_lowerEntryPoint (p : Program) :
    p.lowerEntryPoint.value = (Block.ofLines? p.entryPoint).map (lowerBlock false []) := by
  unfold lowerEntryPoint
  simp only [Run.value_bind, Run.value_tellAll, Run.value_ofOption, Run.value_pure, Option.bind_some]
  exact Option.map_eq_bind.symm

/-- **An entry point reports what is wrong with it.** -/
theorem reports_lowerEntryPoint (p : Program) : p.lowerEntryPoint.Reports p.entryPointFaults := by
  intro g h
  rw [value_lowerEntryPoint] at h
  obtain ⟨b, hread, rfl⟩ := Option.map_eq_some_iff.1 h
  rw [entryPointFaults, hread, Option.elim_some, lowerBlock, diagnostics_gather]
  exact ⟨reported_gather _, diagnostics_lowerTrees false b (shows_names []).enter⟩

theorem isSome_lower_iff (p : Program) :
    p.lower.value.isSome = true ↔
      (∀ f ∈ p.functions.values, f.lower.value.isSome = true) ∧ p.lowerEntryPoint.value.isSome = true := by
  have hms := Run.isSome_value_sequence_iff (p.functions.values.map Function.lower)
  rw [List.forall_mem_map] at hms
  rw [← hms, lower, Run.isSome_value_bind_iff]
  simp only [Run.isSome_value_bind_iff]
  rw [Option.isSome_iff_exists, Option.isSome_iff_exists]
  constructor
  · rintro ⟨ms, hms, main, hmain, -⟩
    exact ⟨⟨ms, hms⟩, main, hmain⟩
  · rintro ⟨⟨ms, hms⟩, main, hmain⟩
    exact ⟨ms, hms, main, hmain, rfl⟩

theorem exists_of_lower {p : Program} {g : Generated Java.Class} (h : p.lower.value = some g) :
    ∃ methods main, p.functions.values.map (fun f => f.lower.value) = List.map some methods ∧
      p.lowerEntryPoint.value = some main ∧
      g = ((Generated.all methods).both main).map fun (ms, body) => ⟨ms, body⟩ := by
  unfold lower at h
  simp only [Run.value_bind, Run.value_pure, Option.bind_eq_some_iff, Option.some.injEq,
    Run.value_sequence, List.map_map] at h
  obtain ⟨methods, hms, main, hmain, rfl⟩ := h
  exact ⟨methods, main, hms, hmain, rfl⟩

theorem flatMap_diagnostics_of_lower : ∀ (fs : List Function) (gs : List (Generated Java.Method)),
    fs.map (fun f => f.lower.value) = gs.map some →
      gs.flatMap Generated.diagnostics = fs.flatMap Function.faults
  | [], gs, h => by
    rw [List.map_eq_nil_iff.1 h.symm]
    rfl
  | f :: fs, gs, h => by
    obtain ⟨g, gs, rfl, hg, hgs⟩ := List.map_eq_cons_iff.1 h.symm
    have hd := (f.reports_lower g hg.symm).2
    rw [List.flatMap_cons, List.flatMap_cons, hd, flatMap_diagnostics_of_lower fs gs hgs.symm]

/-- **A program reports what is wrong with it.** -/
theorem reports_lower (p : Program) : p.lower.Reports p.faults := by
  intro g h
  obtain ⟨methods, main, hms, hmain, rfl⟩ := exists_of_lower h
  obtain ⟨hreported, hentry⟩ := p.reports_lowerEntryPoint main hmain
  refine ⟨((Generated.reported_all methods).both hreported).map _, ?_⟩
  have hmethods := flatMap_diagnostics_of_lower _ _ hms
  calc Generated.diagnostics (((Generated.all methods).both main).map _)
      = methods.flatMap Generated.diagnostics ++ main.diagnostics := by
        rw [Generated.diagnostics_map, Generated.diagnostics_both, Generated.diagnostics_all]
    _ = p.faults := by rw [hmethods, hentry, faults]

theorem faults_eq_nil_iff (p : Program) :
    p.faults = [] ↔ (∀ f ∈ p.functions.values, f.faults = []) ∧ p.entryPointFaults = [] := by
  rw [faults, List.append_eq_nil_iff, List.flatMap_eq_nil_iff]

end Program

/-- **Lowering reports everything that is wrong, or yields everything.** A
block comes to statements exactly when nothing is wrong with it, and otherwise
to its faults, of which there is at least one. A program comes to a class
exactly when each of its functions and its entry point come to something, and
otherwise to the faults of its functions in order, then of its entry point. -/
theorem lowering_reports_faults :
    (∀ (inFunction : Bool) (scope : Scope) (b : Block),
      ((∃ ss, lowerBlock inFunction scope b = .ok ss) ↔ Block.faults inFunction scope.names b = []) ∧
        ∀ ds, lowerBlock inFunction scope b = .error ds ↔
          ds = Block.faults inFunction scope.names b ∧ ds ≠ []) ∧
      ∀ p : Program,
        ((∃ c, p.lower.value = some (.ok c)) ↔
          (∀ f ∈ p.functions.values, ∃ m, f.lower.value = some (.ok m)) ∧
            ∃ ss, p.lowerEntryPoint.value = some (.ok ss)) ∧
        ∀ ds, p.lower.value = some (.error ds) ↔
          ((∀ f ∈ p.functions.values, f.lower.value.isSome = true) ∧
            p.lowerEntryPoint.value.isSome = true) ∧ ds = p.faults ∧ ds ≠ [] := by
  refine ⟨fun inFunction scope b => ?_, fun p => ⟨?_, fun ds => ?_⟩⟩
  · have hd : (lowerBlock inFunction scope b).diagnostics = Block.faults inFunction scope.names b := by
      rw [lowerBlock, diagnostics_gather]
      exact diagnostics_lowerTrees inFunction b (shows_names scope).enter
    rw [← hd]
    exact ⟨(reported_gather _).exists_ok_iff, (reported_gather _).eq_error_iff⟩
  · rw [p.reports_lower.exists_ok_iff, p.isSome_lower_iff, p.faults_eq_nil_iff,
      p.reports_lowerEntryPoint.exists_ok_iff]
    simp only [(Function.reports_lower _).exists_ok_iff, forall₂_and]
    exact and_and_and_comm
  · rw [p.reports_lower.eq_error_iff, p.isSome_lower_iff]

end Offside

/-
# Line numbers are only passed on

Lines may have other numbers (`Line.renumber`). They are then relabelled at the
same indentations: the lines are read as the same statements with the numbers
changed (`Block.ofLines?_renumber`). Lowering hands the numbers on as reading
does (`lowerTree_renumber`), so a program comes to the same class, or to the
same problems on the renumbered lines (`Program.value_lower_renumber`). The
number of a diagnostic is always that of a line: a change of all other numbers
changes no diagnostic (`Program.line_mem_of_lower`).

Key definitions: `Line.renumber`, `Program.renumber`, `Generated.renumber`.
Key theorems: `Block.ofLines?_renumber`, `Program.ofLines_renumber`,
`lowerTree_renumber`, `Program.value_lower_renumber`,
`Program.line_mem_of_lower`.
-/
import Mathlib.Data.List.Basic
import Offside.Proofs.Faults
import Offside.Proofs.Relabelling

namespace Offside

/-! ### Other numbers -/

/-- A line with another number. -/
def Line.renumber (f : Nat → Nat) (l : Line) : Line := { l with number := f l.number }

/-- A function whose lines have other numbers. -/
def Function.renumber (f : Nat → Nat) (g : Function) : Function :=
  { g with line := f g.line, body := g.body.map (Line.renumber f) }

/-- A program whose lines have other numbers. -/
def Program.renumber (f : Nat → Nat) (p : Program) : Program where
  functions := p.functions.map fun entry => (entry.1, entry.2.renumber f)
  entryPoint := p.entryPoint.map (Line.renumber f)

/-- A symbol that another line introduced. -/
def Symbol.renumber (f : Nat → Nat) (s : Symbol) : Symbol := { s with line := f s.line }

/-- A scope whose symbols other lines introduced. -/
def Scope.renumber (f : Nat → Nat) (scope : Scope) : Scope :=
  scope.map fun frame => frame.map (Symbol.renumber f)

/-- A problem on another line. -/
def Diagnostic.renumber (f : Nat → Nat) (d : Diagnostic) : Diagnostic := { d with line := f d.line }

/-- A generated value whose problems are on other lines. -/
def Generated.renumber {α : Type} (f : Nat → Nat) : Generated α → Generated α
  | .ok a => .ok a
  | .error ds => .error (ds.map (Diagnostic.renumber f))

variable {f : Nat → Nat}

/-! ### Reading -/

/-- **Lines are read as the same block, but for the numbers.** -/
theorem Block.ofLines?_renumber (ls : List Line) :
    Block.ofLines? (ls.map (Line.renumber f)) = (Block.ofLines? ls).map (Block.renumber f) :=
  Block.ofLines?_relabel (f := id) strictMono_id ls

/-- **A program is the same but for the numbers of its lines.** -/
theorem Program.ofLines_renumber (ls : List Line) :
    Program.ofLines (ls.map (Line.renumber f)) = (Program.ofLines ls).renumber f :=
  Program.ofLines_relabel (f := id) strictMono_id ls

/-! ### Scopes -/

namespace Frame

theorem find?_renumber (name : Text) (frame : Frame) :
    find? (frame.map (Symbol.renumber f)) name = (frame.find? name).map (Symbol.renumber f) := by
  rw [find?, find?, List.find?_map]
  rfl

theorem declare_renumber (frame : Frame) (s : Symbol) :
    declare (frame.map (Symbol.renumber f)) (s.renumber f) = (frame.declare s).map (Symbol.renumber f) := by
  rw [declare, declare, find?_renumber, Option.isSome_map, show (s.renumber f).name = s.name from rfl]
  split
  · rfl
  · rw [List.map_cons]

end Frame

namespace Scope

theorem find?_renumber (name : Text) : ∀ scope : Scope,
    (scope.renumber f).find? name = (scope.find? name).map (Symbol.renumber f)
  | [] => rfl
  | frame :: scope => by
    have ih := find?_renumber name scope
    unfold renumber at ih ⊢
    rw [List.map_cons, find?, find?, Frame.find?_renumber, ih]
    cases frame.find? name <;> rfl

theorem sees_renumber (scope : Scope) (name : Text) : (scope.renumber f).sees name = scope.sees name := by
  rw [sees, sees, find?_renumber, Option.isSome_map]

theorem declare_renumber (scope : Scope) (s : Symbol) :
    (scope.renumber f).declare (s.renumber f) = (scope.declare s).renumber f := by
  cases scope with
  | nil => rfl
  | cons frame scope =>
    have hframe := Frame.declare_renumber (f := f) frame s
    rw [renumber, List.map_cons, declare, declare, hframe, renumber, List.map_cons]

/-- A block that has introduced nothing has no line to tell. -/
theorem enter_renumber (scope : Scope) : [] :: scope.renumber f = Scope.renumber f ([] :: scope) := rfl

end Scope

theorem typeOf_renumber (scope : Scope) (t : Text) : typeOf (scope.renumber f) t = typeOf scope t := by
  unfold typeOf
  rw [Scope.find?_renumber]
  cases scope.find? t <;> rfl

theorem introduce_renumber (scope : Scope) (t : Tree) :
    introduce (scope.renumber f) (t.renumber f) = (introduce scope t).renumber f := by
  cases t with
  | forLoop line loop body =>
    rw [Tree.renumber, introduce, introduce, ← Scope.declare_renumber]
    rfl
  | assignment line name value =>
    rw [Tree.renumber, introduce, introduce]
    cases translate? value with
    | none => rfl
    | some v =>
      simp only [Scope.sees_renumber, typeOf_renumber]
      split
      · rfl
      · rw [← Scope.declare_renumber]
        rfl
  | _ => rw [Tree.renumber]; rfl

/-! ### Generated values -/

namespace Generated

variable {α β : Type}

theorem renumber_map (h : α → β) (g : Generated α) :
    Generated.renumber f (g.map h : Generated β) = (Generated.renumber f g).map h := by
  cases g <;> rfl

theorem renumber_both (a : Generated α) (b : Generated β) :
    Generated.renumber f (a.both b) = (Generated.renumber f a).both (Generated.renumber f b) := by
  cases a <;> cases b <;> simp [both, renumber]

theorem diagnostics_renumber (g : Generated α) :
    (Generated.renumber f g).diagnostics = g.diagnostics.map (Diagnostic.renumber f) := by
  cases g <;> rfl

theorem fragments_renumber : ∀ gs : List (Generated α),
    fragments (gs.map (Generated.renumber f)) = fragments gs
  | [] => rfl
  | .ok a :: gs => by
    rw [List.map_cons, fragments, renumber, fragments, fragments_renumber gs]
  | .error ds :: gs => by
    rw [List.map_cons, fragments, renumber, fragments, fragments_renumber gs]

theorem renumber_all (gs : List (Generated α)) :
    Generated.renumber f (all gs) = all (gs.map (Generated.renumber f)) := by
  have hdiagnostics : (gs.map (Generated.renumber f)).flatMap diagnostics =
      (gs.flatMap diagnostics).map (Diagnostic.renumber f) := by
    rw [List.flatMap_map, List.map_flatMap]
    exact List.flatMap_congr fun g _ => diagnostics_renumber g
  rw [all, all, hdiagnostics, fragments_renumber]
  cases gs.flatMap diagnostics <;> rfl

end Generated

/-! ### Lowering -/

theorem translateOn_renumber (line : Nat) (expression : Text) :
    translateOn (f line) expression = Generated.renumber f (translateOn line expression) := by
  unfold translateOn
  cases translate? expression <;> rfl

theorem gather_renumber (gs : List (Generated (Option Java.Statement))) :
    gather (gs.map (Generated.renumber f)) = Generated.renumber f (gather gs) := by
  rw [gather, gather, Generated.renumber_map, Generated.renumber_all]

theorem assign_renumber (scope : Scope) (name t : Text) :
    assign (scope.renumber f) name t = assign scope name t := by
  rw [assign, assign, Scope.sees_renumber, typeOf_renumber]

mutual

/-- **A statement comes to what it came to before.** -/
theorem lowerTree_renumber (inFunction : Bool) : ∀ (t : Tree) (scope : Scope),
    lowerTree inFunction (scope.renumber f) (t.renumber f) =
      Generated.renumber f (lowerTree inFunction scope t)
  | .conditional line branches otherwise, scope => by
    rw [Tree.renumber, lowerTree, lowerTree, lowerBranches_renumber inFunction line branches scope,
      lowerElse_renumber inFunction otherwise scope, Generated.renumber_map, Generated.renumber_both,
      Generated.renumber_all]
  | .whileLoop line condition body, scope => by
    rw [Tree.renumber, lowerTree, lowerTree, translateOn_renumber, Scope.enter_renumber,
      lowerTrees_renumber inFunction body, gather_renumber, Generated.renumber_map,
      Generated.renumber_both]
  | .forLoop line loop body, scope => by
    have hcounter : (scope.renumber f).declare ⟨loop.counter, .int, f line⟩ =
        (scope.declare ⟨loop.counter, .int, line⟩).renumber f := scope.declare_renumber ⟨_, _, line⟩
    rw [Tree.renumber, lowerTree, lowerTree]
    simp only [hcounter, Scope.enter_renumber, lowerTrees_renumber inFunction body, translateOn_renumber,
      gather_renumber, Generated.renumber_map, Generated.renumber_both]
  | .returned line value, scope => by
    rw [Tree.renumber]
    unfold lowerTree
    cases inFunction with
    | false => rfl
    | true =>
      cases value with
      | none => rfl
      | some v =>
        have hvalue := translateOn_renumber (f := f) line v
        simp only [if_true, hvalue, Generated.renumber_map]
  | .print line arguments, scope => by
    have harguments : arguments.map (translateOn (f line)) =
        (arguments.map (translateOn line)).map (Generated.renumber f) := by
      rw [List.map_map]
      exact List.map_congr_left fun a _ => translateOn_renumber line a
    rw [Tree.renumber, lowerTree, lowerTree, harguments, Generated.renumber_map, Generated.renumber_all]
  | .assignment line name value, scope => by
    rw [Tree.renumber, lowerTree, lowerTree, translateOn_renumber, Generated.renumber_map]
    simp only [assign_renumber]
  | .update line name operator value, scope => by
    rw [Tree.renumber, lowerTree, lowerTree, Scope.sees_renumber, translateOn_renumber]
    split
    · rw [Generated.renumber_map]
    · rfl
  | .call line text, scope => by rw [Tree.renumber, lowerTree, lowerTree]; rfl
  | .pass line, scope => by rw [Tree.renumber, lowerTree, lowerTree]; rfl
  | .breakLoop line, scope => by rw [Tree.renumber, lowerTree, lowerTree]; rfl
  | .continueLoop line, scope => by rw [Tree.renumber, lowerTree, lowerTree]; rfl
  | .malformed line problem, scope => by rw [Tree.renumber, lowerTree, lowerTree]; rfl

theorem lowerTrees_renumber (inFunction : Bool) : ∀ (ts : List Tree) (scope : Scope),
    lowerTrees inFunction (scope.renumber f) (Block.renumber f ts) =
      (lowerTrees inFunction scope ts).map (Generated.renumber f)
  | [], scope => by rw [Block.renumber, lowerTrees, lowerTrees, List.map_nil]
  | t :: ts, scope => by
    rw [Block.renumber, lowerTrees, lowerTrees, List.map_cons, lowerTree_renumber inFunction t,
      introduce_renumber, lowerTrees_renumber inFunction ts]

theorem lowerBranches_renumber (inFunction : Bool) (line : Nat) :
    ∀ (branches : List (Text × List Tree)) (scope : Scope),
    lowerBranches inFunction (scope.renumber f) (f line) (renumberBranches f branches) =
      (lowerBranches inFunction scope line branches).map (Generated.renumber f)
  | [], scope => by rw [renumberBranches, lowerBranches, lowerBranches, List.map_nil]
  | (condition, body) :: more, scope => by
    rw [renumberBranches, lowerBranches, lowerBranches, List.map_cons, translateOn_renumber,
      Scope.enter_renumber, lowerTrees_renumber inFunction body, gather_renumber,
      lowerBranches_renumber inFunction line more, Generated.renumber_both]

theorem lowerElse_renumber (inFunction : Bool) : ∀ (otherwise : Option (List Tree)) (scope : Scope),
    lowerElse inFunction (scope.renumber f) (renumberElse f otherwise) =
      Generated.renumber f (lowerElse inFunction scope otherwise)
  | none, scope => by rw [renumberElse, lowerElse, lowerElse]; rfl
  | some body, scope => by
    rw [renumberElse, lowerElse, lowerElse, Scope.enter_renumber, lowerTrees_renumber inFunction body,
      gather_renumber, Generated.renumber_map]

end

theorem lowerBlock_renumber (inFunction : Bool) (scope : Scope) (b : Block) :
    lowerBlock inFunction (scope.renumber f) (Block.renumber f b) =
      Generated.renumber f (lowerBlock inFunction scope b) := by
  rw [lowerBlock, lowerBlock, Scope.enter_renumber, lowerTrees_renumber, gather_renumber]

mutual

theorem Tree.returnTypes_renumber : ∀ (t : Tree) (scope : Scope),
    (t.renumber f).returnTypes (scope.renumber f) = t.returnTypes scope
  | .conditional line branches otherwise, scope => by
    rw [Tree.renumber, Tree.returnTypes, Tree.returnTypes, returnTypesOfBranches_renumber branches scope,
      returnTypesOfElse_renumber otherwise scope]
  | .whileLoop line condition body, scope => by
    rw [Tree.renumber, Tree.returnTypes, Tree.returnTypes, Scope.enter_renumber,
      returnTypes_renumber body]
  | .forLoop line loop body, scope => by
    have hcounter : (scope.renumber f).declare ⟨loop.counter, .int, f line⟩ =
        (scope.declare ⟨loop.counter, .int, line⟩).renumber f := scope.declare_renumber ⟨_, _, line⟩
    rw [Tree.renumber, Tree.returnTypes, Tree.returnTypes, hcounter, Scope.enter_renumber,
      returnTypes_renumber body]
  | .returned line (some value), scope => by
    have htype : typeOf (scope.renumber f) = typeOf scope := funext (typeOf_renumber scope)
    rw [Tree.renumber, Tree.returnTypes, Tree.returnTypes, htype]
  | .returned line none, scope => by rw [Tree.renumber]; rfl
  | .print line arguments, scope => by rw [Tree.renumber]; rfl
  | .call line text, scope => by rw [Tree.renumber]; rfl
  | .assignment line name value, scope => by rw [Tree.renumber]; rfl
  | .update line name operator value, scope => by rw [Tree.renumber]; rfl
  | .pass line, scope => by rw [Tree.renumber]; rfl
  | .breakLoop line, scope => by rw [Tree.renumber]; rfl
  | .continueLoop line, scope => by rw [Tree.renumber]; rfl
  | .malformed line problem, scope => by rw [Tree.renumber]; rfl

/-- **The values that are returned keep their types.** -/
theorem returnTypes_renumber : ∀ (ts : List Tree) (scope : Scope),
    returnTypes (scope.renumber f) (Block.renumber f ts) = returnTypes scope ts
  | [], scope => by rw [Block.renumber, returnTypes, returnTypes]
  | t :: ts, scope => by
    rw [Block.renumber, returnTypes, returnTypes, Tree.returnTypes_renumber t, introduce_renumber,
      returnTypes_renumber ts]

theorem returnTypesOfBranches_renumber : ∀ (branches : List (Text × List Tree)) (scope : Scope),
    returnTypesOfBranches (scope.renumber f) (renumberBranches f branches) =
      returnTypesOfBranches scope branches
  | [], scope => by rw [renumberBranches, returnTypesOfBranches, returnTypesOfBranches]
  | (condition, body) :: more, scope => by
    rw [renumberBranches, returnTypesOfBranches, returnTypesOfBranches, Scope.enter_renumber,
      returnTypes_renumber body, returnTypesOfBranches_renumber more]

theorem returnTypesOfElse_renumber : ∀ (otherwise : Option (List Tree)) (scope : Scope),
    returnTypesOfElse (scope.renumber f) (renumberElse f otherwise) = returnTypesOfElse scope otherwise
  | none, scope => by rw [renumberElse, returnTypesOfElse, returnTypesOfElse]
  | some body, scope => by
    rw [renumberElse, returnTypesOfElse, returnTypesOfElse, Scope.enter_renumber,
      returnTypes_renumber body]

end

namespace Function

theorem declareParameters_renumber (line : Nat) : ∀ (parameters : List Text) (frame : Frame),
    declareParameters (f line) (frame.map (Symbol.renumber f)) parameters =
      (declareParameters line frame parameters).map (Symbol.renumber f)
  | [], _ => rfl
  | p :: ps, frame => by
    have hframe : Frame.declare (frame.map (Symbol.renumber f)) ⟨p, .int, f line⟩ =
        (frame.declare ⟨p, .int, line⟩).map (Symbol.renumber f) := frame.declare_renumber ⟨_, _, line⟩
    rw [declareParameters, List.foldl_cons, hframe]
    exact declareParameters_renumber line ps (frame.declare ⟨p, .int, line⟩)

theorem method_renumber (g : Function) (b : Block) :
    (g.renumber f).method (Block.renumber f b) = Generated.renumber f (g.method b) := by
  have hscope : ([declareParameters (f g.line) [] g.signature.parameters] : Scope) =
      Scope.renumber f [declareParameters g.line [] g.signature.parameters] :=
    congrArg (fun frame => [frame]) (declareParameters_renumber g.line g.signature.parameters [])
  unfold method
  rw [show (g.renumber f).line = f g.line from rfl, show (g.renumber f).signature = g.signature from rfl,
    hscope]
  simp only [Scope.enter_renumber, returnTypes_renumber, lowerBlock_renumber, Generated.renumber_map]

theorem value_lower_renumber (g : Function) :
    (g.renumber f).lower.value = g.lower.value.map (Generated.renumber f) := by
  have hbody : (g.renumber f).body = g.body.map (Line.renumber f) := rfl
  have hnil : (g.renumber f).body = [] ↔ g.body = [] := List.map_eq_nil_iff
  rw [value_lower, value_lower]
  by_cases h : g.body = []
  · rw [if_pos h, if_pos (hnil.2 h)]
    rfl
  · rw [if_neg h, if_neg (mt hnil.1 h), hbody, Block.ofLines?_renumber, Option.map_map, Option.map_map]
    congr 1
    funext b
    exact method_renumber g b

end Function

theorem Run.value_sequence_map {α β : Type} (h : α → β) : ∀ (xs : List (Run β)) (ys : List (Run α)),
    xs.map Run.value = ys.map (fun y => y.value.map h) →
      (sequence xs).value = (sequence ys).value.map (List.map h)
  | [], [], _ => rfl
  | x :: xs, y :: ys, heq => by
    obtain ⟨hx, hxs⟩ := List.cons.inj heq
    have ih := value_sequence_map h xs ys hxs
    rw [sequence, sequence, value_bind, value_bind, hx]
    simp only [value_bind, value_pure, ih]
    cases y.value with
    | none => rfl
    | some b => cases (sequence ys).value <;> rfl

namespace Program

/-- **A program comes to what it came to before, but for the numbers of its
diagnostics.** -/
theorem value_lower_renumber (p : Program) :
    (p.renumber f).lower.value = p.lower.value.map (Generated.renumber f) := by
  have hmethods : (Run.sequence ((p.renumber f).functions.values.map Function.lower)).value =
      (Run.sequence (p.functions.values.map Function.lower)).value.map
        (List.map (Generated.renumber f)) := by
    refine Run.value_sequence_map _ _ _ ?_
    simp only [renumber, OrderedMap.values, List.map_map]
    exact List.map_congr_left fun entry _ => entry.2.value_lower_renumber
  have hmain : (p.renumber f).lowerEntryPoint.value =
      p.lowerEntryPoint.value.map (Generated.renumber f) := by
    rw [value_lowerEntryPoint, value_lowerEntryPoint, Option.map_map,
      show (p.renumber f).entryPoint = p.entryPoint.map (Line.renumber f) from rfl,
      Block.ofLines?_renumber, Option.map_map]
    congr 1
    funext b
    exact lowerBlock_renumber false [] b
  unfold lower
  simp only [Run.value_bind, Run.value_pure, hmethods, hmain]
  cases (Run.sequence (p.functions.values.map Function.lower)).value with
  | none => rfl
  | some methods =>
    cases p.lowerEntryPoint.value with
    | none => rfl
    | some main =>
      simp only [Option.map_some, Option.bind_some, ← Generated.renumber_all, ← Generated.renumber_both,
        Generated.renumber_map]

/-- **A diagnostic is on a line of the program.** -/
theorem line_mem_of_lower {ls : List Line} {ds : List Diagnostic}
    (h : (ofLines ls).lower.value = some (.error ds)) : ∀ d ∈ ds, ∃ l ∈ ls, l.number = d.line := by
  -- a change of all numbers that no line has changes no line, hence no diagnostic
  let g : Nat → Nat := fun n => if ∃ l ∈ ls, l.number = n then n else n + 1
  have hls : ls.map (Line.renumber g) = ls := by
    refine (List.map_congr_left fun l hl => ?_).trans (List.map_id ls)
    have hnumber : g l.number = l.number := if_pos ⟨l, hl, rfl⟩
    rw [Line.renumber, hnumber]
    rfl
  have hlower := value_lower_renumber (f := g) (ofLines ls)
  rw [← ofLines_renumber, hls, h, Option.map_some, Option.some.injEq, Generated.renumber,
    Except.error.injEq] at hlower
  intro d hd
  have hfixed : d.renumber g = d :=
    List.map_eq_map_iff.1 (hlower.symm.trans (List.map_id ds).symm) d hd
  have hline : g d.line = d.line := congrArg Diagnostic.line hfixed
  by_contra hne
  have hmoved : g d.line = d.line + 1 := if_neg hne
  omega

end Program

end Offside

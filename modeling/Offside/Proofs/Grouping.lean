/-
# Grouping the steps of a program

The steps of a program are joined in pairs (`Generated.both`) and in lists
(`Generated.all`), and the joined ones again. One goes by whether a step failed,
the other by whether a diagnostic was gathered, which is the same while every
failure says why (`Generated.Reported`). So a list is joined as its two parts
are, a pair of pairs either way, and however the steps are grouped, what comes
out is what joining all of them in one list gives (`Grouping.run_eq_all`).

Key definitions: `Generated.failure?`, `Grouping`, `Grouping.steps`,
`Grouping.run`.
Key theorems: `Generated.all_append`, `Generated.both_assoc`,
`Grouping.run_eq_all`, `steps_compose`.
-/
import Offside.Proofs.Generated

namespace Offside

namespace Generated

variable {α β γ δ : Type}

/-! ### Joining one list -/

/-- The diagnostics of a step that fails. -/
def failure? : Generated α → Option (List Diagnostic)
  | .ok _ => none
  | .error ds => some ds

theorem flatMap_diagnostics : ∀ gs : List (Generated α), gs.flatMap diagnostics = (gs.filterMap failure?).flatten
  | [] => rfl
  | .ok _ :: gs => flatMap_diagnostics gs
  | .error ds :: gs => congrArg (ds ++ ·) (flatMap_diagnostics gs)

theorem all_eq_ok_iff_map {gs : List (Generated α)} (hr : ∀ g ∈ gs, Reported g) (as : List α) :
    all gs = .ok as ↔ gs = as.map .ok := by
  constructor
  · exact fun h => (map_ok_of_all_ok hr h).symm
  · rintro rfl
    exact all_map_ok as

theorem exists_all_ok_iff {gs : List (Generated α)} (hr : ∀ g ∈ gs, Reported g) :
    (∃ as, all gs = .ok as) ↔ ∀ g ∈ gs, ∃ a, g = .ok a := by
  constructor
  · rintro ⟨as, h⟩ g hg
    rw [(all_eq_ok_iff_map hr as).1 h] at hg
    obtain ⟨a, -, rfl⟩ := List.mem_map.1 hg
    exact ⟨a, rfl⟩
  · intro h
    refine (reported_all gs).exists_ok ?_
    rw [diagnostics_all, List.flatMap_eq_nil_iff]
    intro g hg
    exact (hr g hg).exists_ok_iff.1 (h g hg)

theorem all_eq_error_iff {gs : List (Generated α)} (hr : ∀ g ∈ gs, Reported g) (ds : List Diagnostic) :
    all gs = .error ds ↔ (∃ g ∈ gs, ∃ es, g = .error es) ∧ ds = (gs.filterMap failure?).flatten := by
  rw [(reported_all gs).eq_error_iff, diagnostics_all, and_comm, flatMap_diagnostics]
  refine and_congr_left fun hds => ?_
  rw [← flatMap_diagnostics] at hds
  subst hds
  constructor
  · intro hne
    obtain ⟨d, hd⟩ := List.exists_mem_of_ne_nil _ hne
    obtain ⟨g, hg, hdg⟩ := List.mem_flatMap.1 hd
    cases g with
    | ok a => cases hdg
    | error es => exact ⟨_, hg, es, rfl⟩
  · rintro ⟨g, hg, es, rfl⟩ hnil
    have hes : es = [] := List.flatMap_eq_nil_iff.1 hnil _ hg
    exact hr _ hg (congrArg Except.error hes)

/-! ### Joining lists to lists -/

theorem fragments_append : ∀ gs hs : List (Generated α), fragments (gs ++ hs) = fragments gs ++ fragments hs
  | [], _ => rfl
  | .ok a :: gs, hs => congrArg (a :: ·) (fragments_append gs hs)
  | .error _ :: gs, hs => fragments_append gs hs

/-- **A list is joined as its parts are.** -/
theorem all_append (gs hs : List (Generated α)) :
    all (gs ++ hs) = ((all gs).both (all hs)).map fun p => p.1 ++ p.2 := by
  unfold all
  rw [List.flatMap_append, fragments_append]
  cases gs.flatMap diagnostics with
  | nil => cases hs.flatMap diagnostics <;> rfl
  | cons d ds =>
    cases hs.flatMap diagnostics with
    | nil => rw [List.append_nil]; rfl
    | cons e es => rfl

theorem all_singleton {g : Generated α} (h : Reported g) : all [g] = g.map fun a => [a] := by
  cases g with
  | ok a => rfl
  | error ds =>
    have hds : ds = (all [(.error ds : Generated α)]).diagnostics := by
      rw [diagnostics_all, List.flatMap_singleton]
      rfl
    exact ((reported_all _).eq_error_iff ds).2 ⟨hds, fun hnil => h (congrArg Except.error hnil)⟩

theorem all_cons {g : Generated α} (h : Reported g) (gs : List (Generated α)) :
    all (g :: gs) = (g.both (all gs)).map fun p => p.1 :: p.2 := by
  have happend := all_append [g] gs
  rw [all_singleton h] at happend
  cases g <;> cases hgs : all gs <;> rw [hgs] at happend <;> exact happend

/-- **Pairs of pairs are joined either way.** -/
theorem both_assoc (a : Generated α) (b : Generated β) (c : Generated γ) :
    ((a.both b).both c).map (fun p => (p.1.1, p.1.2, p.2)) = a.both (b.both c) := by
  cases a <;> cases b <;> cases c <;> first | rfl | exact congrArg Except.error (List.append_assoc ..)

end Generated

/-! ### Groups of groups -/

/-- Steps in the groups in which they are joined: in pairs and in lists. -/
inductive Grouping (α : Type) where
  | step (g : Generated α)
  | pair (left right : Grouping α)
  | group (parts : List (Grouping α))

namespace Grouping

open Generated

variable {α : Type}

mutual

/-- The steps of a grouping, in order. -/
def steps : Grouping α → List (Generated α)
  | step g => [g]
  | pair left right => left.steps ++ right.steps
  | group parts => stepsOfParts parts

/-- The steps of several groupings, in order. -/
def stepsOfParts : List (Grouping α) → List (Generated α)
  | [] => []
  | part :: parts => part.steps ++ stepsOfParts parts

end

mutual

/-- The fragments of the steps as the groups are joined, innermost first. -/
def run : Grouping α → Generated (List α)
  | step g => g.map fun a => [a]
  | pair left right => (left.run.both right.run).map fun p => p.1 ++ p.2
  | group parts => (all (runParts parts)).map List.flatten

/-- What each of several groupings comes to. -/
def runParts : List (Grouping α) → List (Generated (List α))
  | [] => []
  | part :: parts => part.run :: runParts parts

end

mutual

/-- **Grouping the steps changes nothing.** -/
theorem run_eq_all : ∀ t : Grouping α, (∀ g ∈ t.steps, Reported g) → t.run = all t.steps
  | step g, h => by
    rw [run, steps, all_singleton (h g (by simp [steps]))]
  | pair left right, h => by
    rw [steps, List.forall_mem_append] at h
    rw [run, run_eq_all left h.1, run_eq_all right h.2, steps, all_append]
  | group parts, h => by
    rw [run, steps]
    rw [steps] at h
    exact flatten_runParts parts h

theorem flatten_runParts : ∀ parts : List (Grouping α), (∀ g ∈ stepsOfParts parts, Reported g) →
    ((all (runParts parts)).map List.flatten : Generated (List α)) = all (stepsOfParts parts)
  | [], _ => rfl
  | part :: parts, h => by
    rw [stepsOfParts, List.forall_mem_append] at h
    have hpart := run_eq_all part h.1
    have hparts := flatten_runParts parts h.2
    have hreported : Reported part.run := hpart ▸ reported_all part.steps
    calc ((all (runParts (part :: parts))).map List.flatten : Generated (List α))
        = ((part.run.both (all (runParts parts))).map (fun p => p.1 :: p.2)).map List.flatten := by
          rw [runParts, all_cons hreported]
      _ = (part.run.both ((all (runParts parts)).map List.flatten)).map fun p => p.1 ++ p.2 := by
          cases part.run <;> cases all (runParts parts) <;> rfl
      _ = all (stepsOfParts (part :: parts)) := by
          rw [hpart, hparts, stepsOfParts, all_append]

end

end Grouping

/-- **Steps are joined alike however they are grouped.** Of steps that give a
diagnostic where they fail, a list comes to all fragments in order if no step
fails, and else to the diagnostics of those that do, in order. Lists one after
another are joined as the pair of what they come to, and pairs of pairs either
way. What is joined gives a diagnostic where it fails, too. So every grouping of
the steps comes to what the list of them comes to. -/
theorem steps_compose {α : Type} {xs : List (Generated α)} (hr : ∀ g ∈ xs, Generated.Reported g) :
    ((∃ as, Generated.all xs = .ok as) ↔ ∀ g ∈ xs, ∃ a, g = .ok a) ∧
      (∀ as, Generated.all xs = .ok as ↔ xs = as.map .ok) ∧
      (∀ ds, Generated.all xs = .error ds ↔
        (∃ g ∈ xs, ∃ es, g = .error es) ∧ ds = (xs.filterMap Generated.failure?).flatten) ∧
      (∀ ys : List (Generated α),
        Generated.all (xs ++ ys) = ((Generated.all xs).both (Generated.all ys)).map fun p => p.1 ++ p.2) ∧
      (∀ (β γ δ : Type) (a : Generated β) (b : Generated γ) (c : Generated δ),
        ((a.both b).both c).map (fun p => (p.1.1, p.1.2, p.2)) = a.both (b.both c)) ∧
      Generated.all xs ≠ .error [] ∧
      (∀ (β γ : Type) (a : Generated β) (b : Generated γ),
        a ≠ .error [] → b ≠ .error [] → a.both b ≠ .error []) ∧
      ∀ t u : Grouping α, t.steps = xs → u.steps = xs → t.run = Generated.all xs ∧ u.run = t.run := by
  have hrun : ∀ t : Grouping α, t.steps = xs → t.run = Generated.all xs := by
    rintro t rfl
    exact t.run_eq_all hr
  refine ⟨Generated.exists_all_ok_iff hr, Generated.all_eq_ok_iff_map hr, Generated.all_eq_error_iff hr,
    Generated.all_append xs, fun _ _ _ => Generated.both_assoc, Generated.reported_all xs,
    fun _ _ _ _ => Generated.Reported.both, fun t u ht hu => ⟨hrun t ht, ?_⟩⟩
  rw [hrun t ht, hrun u hu]

/-- Of three steps the first and the last fail, the last twice. -/
theorem steps_compose_mixed :
    let first : Generated Nat := .error [⟨1, .rangeArguments 0⟩]
    let last : Generated Nat := .error [⟨3, .rangeArguments 4⟩, ⟨3, .rangeArguments 5⟩]
    (∀ g ∈ [first, .ok 2, last], Generated.Reported g) ∧
      Generated.all [first, .ok 2, last] =
        .error [⟨1, .rangeArguments 0⟩, ⟨3, .rangeArguments 4⟩, ⟨3, .rangeArguments 5⟩] ∧
      (Grouping.group [.pair (.step first) (.step (.ok 2)), .step last]).run =
        (Grouping.pair (.step first) (.group [.step (.ok 2), .step last])).run := by
  intro first last
  have hr : ∀ g ∈ [first, .ok 2, last], Generated.Reported g := by simp [first, last, Generated.Reported]
  obtain ⟨-, -, herror, -, -, -, -, hgroups⟩ := steps_compose hr
  refine ⟨hr, (herror _).2 ⟨⟨first, by simp, _, rfl⟩, rfl⟩, ?_⟩
  exact (hgroups (.pair (.step first) (.group [.step (.ok 2), .step last])) _ rfl rfl).2

end Offside

/-
# What runs yield

The values of runs, without the records they write: one run after another
yields what the second one yields of the first one's value, and a sequence
yields all values or, where a run stops, none. A run that yields a generated
value has something to report, or nothing (`Run.Reports`).

Key definition: `Run.Reports`.
Key theorems: `Run.value_bind`, `Run.value_sequence`,
`Run.Reports.exists_ok_iff`, `Run.Reports.eq_error_iff`.
-/
import Offside.Log
import Offside.Proofs.Generated

namespace Offside
namespace Run

variable {α β : Type}

@[simp] theorem value_pure (a : α) : (pure a : Run α).value = some a := rfl

@[simp] theorem value_ofOption (a : Option α) : (ofOption a).value = a := rfl

@[simp] theorem value_tellAll (rs : List Record) : (tellAll rs).value = some () := rfl

@[simp] theorem value_bind (x : Run α) (f : α → Run β) :
    (x >>= f).value = x.value.bind fun a => (f a).value := by
  show (Run.bind x f).value = _
  unfold Run.bind
  cases x.value <;> rfl

/-- **A sequence yields the values of all its runs.** -/
theorem value_sequence : ∀ (xs : List (Run α)) (as : List α),
    (sequence xs).value = some as ↔ xs.map Run.value = as.map some
  | [], as => by
    rw [sequence, value_pure, Option.some.injEq, List.map_nil]
    exact ⟨fun h => by rw [← h, List.map_nil], fun h => (List.map_eq_nil_iff.1 h.symm).symm⟩
  | x :: xs, as => by
    rw [sequence, value_bind]
    simp only [value_bind, value_pure, Option.bind_eq_some_iff, Option.some.injEq]
    constructor
    · rintro ⟨a, ha, as', has, rfl⟩
      rw [List.map_cons, List.map_cons, ha, (value_sequence xs as').1 has]
    · intro h
      obtain ⟨a, as', rfl, ha, has⟩ := List.map_eq_cons_iff.1 h.symm
      exact ⟨a, ha.symm, as', (value_sequence xs as').2 has.symm, rfl⟩

theorem isSome_value_bind_iff (x : Run α) (f : α → Run β) :
    (x >>= f).value.isSome = true ↔ ∃ a, x.value = some a ∧ (f a).value.isSome = true := by
  rw [value_bind]
  cases x.value <;> simp

theorem isSome_value_sequence_iff : ∀ xs : List (Run α),
    (sequence xs).value.isSome = true ↔ ∀ x ∈ xs, x.value.isSome = true
  | [] => by simp [sequence]
  | x :: xs => by
    have ih := isSome_value_sequence_iff xs
    rw [sequence, isSome_value_bind_iff]
    simp only [isSome_value_bind_iff, List.forall_mem_cons]
    rw [← ih, Option.isSome_iff_exists, Option.isSome_iff_exists]
    constructor
    · rintro ⟨a, ha, as, has, -⟩
      exact ⟨⟨a, ha⟩, as, has⟩
    · rintro ⟨⟨a, ha⟩, as, has⟩
      exact ⟨a, ha, as, has, rfl⟩

/-! ### Runs that report -/

/-- What a run yields is a fragment, or reports the diagnostics `ds`. -/
def Reports (x : Run (Generated α)) (ds : List Diagnostic) : Prop :=
  ∀ g, x.value = some g → g.Reported ∧ g.diagnostics = ds

namespace Reports

variable {x : Run (Generated α)} {ds : List Diagnostic}

/-- **A run that does not stop yields a fragment when it has nothing to
report.** -/
theorem exists_ok_iff (h : x.Reports ds) :
    (∃ a, x.value = some (.ok a)) ↔ x.value.isSome = true ∧ ds = [] := by
  constructor
  · rintro ⟨a, ha⟩
    exact ⟨Option.isSome_iff_exists.2 ⟨_, ha⟩, (h _ ha).2.symm⟩
  · rintro ⟨hs, hnil⟩
    obtain ⟨g, hg⟩ := Option.isSome_iff_exists.1 hs
    obtain ⟨hr, hd⟩ := h g hg
    obtain ⟨a, rfl⟩ := hr.exists_ok (hd.trans hnil)
    exact ⟨a, hg⟩

/-- **Otherwise it yields what it has to report.** -/
theorem eq_error_iff (h : x.Reports ds) (es : List Diagnostic) :
    x.value = some (.error es) ↔ x.value.isSome = true ∧ es = ds ∧ es ≠ [] := by
  constructor
  · intro he
    obtain ⟨hr, hd⟩ := h _ he
    obtain ⟨-, hne⟩ := (hr.eq_error_iff es).1 rfl
    exact ⟨Option.isSome_iff_exists.2 ⟨_, he⟩, hd, hne⟩
  · rintro ⟨hs, rfl, hne⟩
    obtain ⟨g, hg⟩ := Option.isSome_iff_exists.1 hs
    obtain ⟨hr, hd⟩ := h g hg
    rw [hg, (hr.eq_error_iff es).2 ⟨hd.symm, hne⟩]

end Reports

theorem exists_of_check {x : Run (Generated α)} {check : α → Bool}
    (h : x.value.any (fun g => g.toOption.any check) = true) :
    ∃ a, x.value = some (.ok a) ∧ check a = true := by
  obtain ⟨g, hg, hany⟩ := (Option.any_eq_true _ _).1 h
  obtain ⟨a, ha, hcheck⟩ := (Option.any_eq_true _ _).1 hany
  cases g with
  | error ds => cases ha
  | ok a' =>
    cases ha
    exact ⟨a, hg, hcheck⟩

end Run
end Offside

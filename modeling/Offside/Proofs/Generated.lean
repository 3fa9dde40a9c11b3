/-
# Joining generated values

Joined values report what each of them reports, in order and each once. A
value that fails says why (`Generated.Reported`), and what is joined from such
values does too, so that values without a diagnostic are all there.

Key definition: `Generated.Reported`.
Key theorems: `Generated.diagnostics_both`, `Generated.diagnostics_all`,
`Generated.Reported.exists_ok`.
-/
import Offside.Generated

namespace Offside
namespace Generated

variable {α β γ : Type}

/-- A value that fails has a diagnostic. -/
def Reported (g : Generated α) : Prop := g ≠ .error []

theorem diagnostics_both (a : Generated α) (b : Generated β) :
    (a.both b).diagnostics = a.diagnostics ++ b.diagnostics := by
  cases a <;> cases b <;> simp [both, diagnostics]

theorem diagnostics_all (gs : List (Generated α)) : (all gs).diagnostics = gs.flatMap diagnostics := by
  unfold all
  cases gs.flatMap diagnostics <;> rfl

theorem diagnostics_map (f : α → β) (g : Generated α) :
    diagnostics (g.map f : Generated β) = diagnostics g := by
  cases g <;> rfl

theorem reported_fault (line : Nat) (p : Problem) : Reported (fault line p : Generated α) := by
  simp [Reported, fault]

theorem reported_ok (a : α) : Reported (.ok a) := nofun

theorem reported_all (gs : List (Generated α)) : Reported (all gs) := by
  unfold Reported all
  cases gs.flatMap diagnostics <;> simp

namespace Reported

theorem map {g : Generated α} (h : Reported g) (f : α → β) : Reported (g.map f : Generated β) := by
  cases g with
  | ok a => exact reported_ok (f a)
  | error ds => simpa [Reported, Except.map] using h

theorem both {a : Generated α} {b : Generated β} (ha : Reported a) (hb : Reported b) :
    Reported (a.both b) := by
  cases a <;> cases b <;> simp_all [Reported, Generated.both]

/-- **Without a diagnostic there is a value.** -/
theorem exists_ok {g : Generated α} (h : Reported g) (hd : g.diagnostics = []) : ∃ a, g = .ok a := by
  cases g with
  | ok a => exact ⟨a, rfl⟩
  | error ds =>
    have hnil : ds = [] := hd
    exact absurd (by rw [hnil]) h

theorem exists_ok_iff {g : Generated α} (h : Reported g) : (∃ a, g = .ok a) ↔ g.diagnostics = [] := by
  refine ⟨?_, h.exists_ok⟩
  rintro ⟨a, rfl⟩
  rfl

theorem eq_error_iff {g : Generated α} (h : Reported g) (ds : List Diagnostic) :
    g = .error ds ↔ ds = g.diagnostics ∧ ds ≠ [] := by
  cases g with
  | ok a =>
    simp only [reduceCtorEq, diagnostics, false_iff]
    exact fun hd => hd.2 hd.1
  | error es =>
    have hne : es ≠ [] := fun hnil => h (by rw [hnil])
    simp only [Except.error.injEq, diagnostics]
    refine ⟨?_, fun hd => hd.1.symm⟩
    rintro rfl
    exact ⟨rfl, hne⟩

end Reported

/-! ### Values that are all there -/

theorem exists_of_both_ok {a : Generated α} {b : Generated β} {x : α × β} (h : a.both b = .ok x) :
    a = .ok x.1 ∧ b = .ok x.2 := by
  cases a <;> cases b <;> cases h
  exact ⟨rfl, rfl⟩

theorem exists_of_map_ok {g : Generated α} {f : α → β} {b : β} (h : (g.map f : Generated β) = .ok b) :
    ∃ a, g = .ok a ∧ f a = b := by
  cases g with
  | ok a => exact ⟨a, rfl, Except.ok.inj h⟩
  | error ds => cases h

theorem all_map_ok : ∀ as : List α, all (as.map Except.ok) = .ok as := by
  intro as
  refine (all_eq_ok_iff _ _).2 ⟨?_, ?_⟩
  · intro g hg
    obtain ⟨a, -, rfl⟩ := List.mem_map.1 hg
    rfl
  · induction as with
    | nil => rfl
    | cons a as ih => rw [List.map_cons, fragments, ih]

theorem map_ok_of_all_ok {gs : List (Generated α)} {as : List α} (hr : ∀ g ∈ gs, Reported g)
    (h : all gs = .ok as) : List.map Except.ok as = gs := by
  obtain ⟨hd, rfl⟩ := (all_eq_ok_iff gs as).1 h
  clear h
  induction gs with
  | nil => rfl
  | cons g gs ih =>
    obtain ⟨a, rfl⟩ := (hr g (by simp)).exists_ok (hd g (by simp))
    rw [fragments, List.map_cons, ih (fun g' hg' => hr g' (List.mem_cons_of_mem _ hg'))
      fun g' hg' => hd g' (List.mem_cons_of_mem _ hg')]

end Generated
end Offside

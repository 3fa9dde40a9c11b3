/-
# How lines belong together

A header encloses the deeper lines that follow it before the next line that is
not deeper. `nest` pairs every line of a list with the number of headers that
enclose it. The branches of a conditional are the `elif` and `else` lines at its
indentation that follow it, past the deeper lines under each, up to the first
line that is neither. Both are read off the lines alone, whether or not they
are well-formed.

Key definitions: `Line.Kind.isHeader`, `nest`, `branchesFrom`,
`Line.laterBranches`.
Key theorems: `nest_append`, `nest_header`, `branchesFrom_under`,
`mem_branchesFrom_append`.
-/
import Mathlib.Data.List.TakeWhile
import Offside.Line.Basic

namespace Offside

/-! ### Headers and what they enclose -/

/-- The kinds of the lines that ask for a body. -/
def Line.Kind.isHeader : Line.Kind → Bool
  | ifHeader | elifHeader | elseHeader | whileHeader | forHeader => true
  | _ => false

/-- The first `n` lines one header deeper. -/
def enclose (n : Nat) (ls : List (Nat × Line)) : List (Nat × Line) :=
  (ls.take n).map (fun e => (e.1 + 1, e.2)) ++ ls.drop n

/-- How many lines a line encloses, of those that follow it. -/
def Line.reach (l : Line) (ls : List Line) : Nat :=
  if l.kind.isHeader then (ls.takeWhile fun m => l.indent < m.indent).length else 0

/-- The lines of a list, each with the number of headers that enclose it. -/
def nest : List Line → List (Nat × Line)
  | [] => []
  | l :: ls => (0, l) :: enclose (l.reach ls) (nest ls)

theorem nest_singleton (l : Line) : nest [l] = [(0, l)] := by
  simp [nest, enclose]

theorem map_snd_enclose (n : Nat) (ls : List (Nat × Line)) :
    (enclose n ls).map Prod.snd = ls.map Prod.snd := by
  have hone : Prod.snd ∘ (fun e : Nat × Line => (e.1 + 1, e.2)) = Prod.snd := rfl
  rw [enclose, List.map_append, List.map_map, hone, ← List.map_append, List.take_append_drop]

theorem map_snd_nest : ∀ ls : List Line, (nest ls).map Prod.snd = ls
  | [] => rfl
  | l :: ls => by rw [nest, List.map_cons, map_snd_enclose, map_snd_nest ls]

theorem length_nest (ls : List Line) : (nest ls).length = ls.length := by
  rw [← List.length_map Prod.snd, map_snd_nest]

theorem enclose_append {n : Nat} {a : List (Nat × Line)} (h : n ≤ a.length) (b : List (Nat × Line)) :
    enclose n (a ++ b) = enclose n a ++ b := by
  rw [enclose, List.take_append_of_le_length h, List.drop_append_of_le_length h, enclose,
    List.append_assoc]

theorem reach_le (l : Line) (ls : List Line) : l.reach ls ≤ ls.length := by
  unfold Line.reach
  split
  · exact (List.takeWhile_sublist _).length_le
  · omega

/-- A header reaches no further than the next line that is not deeper. -/
theorem reach_append {l : Line} {more : List Line} (h : ∀ m ∈ more.head?, m.indent ≤ l.indent)
    (ls : List Line) : l.reach (ls ++ more) = l.reach ls := by
  unfold Line.reach
  congr 2
  induction ls with
  | nil =>
    cases more with
    | nil => rfl
    | cons m more =>
      have : ¬ l.indent < m.indent := by
        have := h m rfl
        omega
      simp [this]
  | cons m ls ih => simp only [List.cons_append, List.takeWhile_cons, ih]

/-- **Lines that are none of them shallower than the next one are nested by
themselves.** -/
theorem nest_append : ∀ {ls more : List Line}, (∀ l ∈ ls, ∀ m ∈ more.head?, m.indent ≤ l.indent) →
    nest (ls ++ more) = nest ls ++ nest more
  | [], _, _ => rfl
  | l :: ls, more, h => by
    have ih : nest (ls ++ more) = nest ls ++ nest more :=
      nest_append fun l' hl' => h l' (List.mem_cons_of_mem _ hl')
    have hle : l.reach ls ≤ (nest ls).length := by
      rw [length_nest]
      exact reach_le l ls
    rw [List.cons_append, nest, nest, ih, reach_append (h l (by simp)), enclose_append hle,
      List.cons_append]

/-- **A header encloses the deeper lines that follow it, and no others.** -/
theorem nest_header {l : Line} {under more : List Line} (hk : l.kind.isHeader = true)
    (hu : ∀ m ∈ under, l.indent < m.indent) (hm : ∀ m ∈ more.head?, m.indent ≤ l.indent) :
    nest (l :: (under ++ more)) =
      (0, l) :: (nest under).map (fun e => (e.1 + 1, e.2)) ++ nest more := by
  have happ : nest (under ++ more) = nest under ++ nest more :=
    nest_append fun u hu' m hm' => Nat.le_of_lt (Nat.lt_of_le_of_lt (hm m hm') (hu u hu'))
  have hreach : l.reach (under ++ more) = (nest under).length := by
    have hall : under.takeWhile (fun m => decide (l.indent < m.indent)) = under := by
      have hdeeper := fun m hm' => decide_eq_true (hu m hm')
      exact List.takeWhile_eq_self_iff.2 hdeeper
    rw [reach_append hm, length_nest, Line.reach, if_pos hk, hall]
  rw [nest, happ, hreach, enclose_append (Nat.le_refl _), enclose, List.take_length, List.drop_length,
    List.append_nil, List.cons_append]

/-! ### Branches of a conditional -/

/-- The lines that go on with a conditional at the indentation `i`. -/
def branchesFrom (i : Nat) : List Line → List Line
  | [] => []
  | l :: ls =>
    if i < l.indent then branchesFrom i ls
    else if l.indent = i ∧ l.kind.continuesConditional = true then l :: branchesFrom i ls
    else []

/-- The branches of a conditional after the one that the line heads, if it
heads one, among the lines that follow it. -/
def Line.laterBranches (l : Line) (rest : List Line) : List Line :=
  if l.kind = .ifHeader ∨ l.kind = .elifHeader then branchesFrom l.indent rest else []

theorem branchesFrom_under {i : Nat} : ∀ {under : List Line}, (∀ l ∈ under, i < l.indent) →
    ∀ rest : List Line, branchesFrom i (under ++ rest) = branchesFrom i rest
  | [], _, _ => rfl
  | l :: under, h, rest => by
    rw [List.cons_append, branchesFrom, if_pos (h l (List.mem_cons_self ..)),
      branchesFrom_under fun m hm => h m (List.mem_cons_of_mem l hm)]

theorem branchesFrom_branch {l : Line} (h : l.kind.continuesConditional = true) (rest : List Line) :
    branchesFrom l.indent (l :: rest) = l :: branchesFrom l.indent rest := by
  rw [branchesFrom, if_neg (Nat.lt_irrefl _), if_pos ⟨rfl, h⟩]

theorem mem_branchesFrom_append {i : Nat} {k : Line} (more : List Line) : ∀ {ls : List Line},
    k ∈ branchesFrom i ls → k ∈ branchesFrom i (ls ++ more)
  | [], h => absurd h List.not_mem_nil
  | l :: ls, h => by
    rw [branchesFrom] at h
    rw [List.cons_append, branchesFrom]
    by_cases hdeeper : i < l.indent
    · rw [if_pos hdeeper] at h ⊢
      exact mem_branchesFrom_append more h
    · rw [if_neg hdeeper] at h ⊢
      by_cases hbranch : l.indent = i ∧ l.kind.continuesConditional = true
      · rw [if_pos hbranch] at h ⊢
        exact (List.mem_cons.1 h).elim (fun heq => heq ▸ List.mem_cons_self ..)
          fun h => List.mem_cons_of_mem l (mem_branchesFrom_append more h)
      · rw [if_neg hbranch] at h
        exact absurd h List.not_mem_nil

theorem mem_laterBranches_append {l k : Line} {rest : List Line} (more : List Line)
    (h : k ∈ l.laterBranches rest) : k ∈ l.laterBranches (rest ++ more) := by
  unfold Line.laterBranches at h ⊢
  split at h
  · next hk =>
    rw [if_pos hk]
    exact mem_branchesFrom_append more h
  · exact absurd h List.not_mem_nil

theorem mem_of_mem_branchesFrom {i : Nat} {k : Line} : ∀ {ls : List Line}, k ∈ branchesFrom i ls → k ∈ ls
  | [], h => h
  | l :: ls, h => by
    rw [branchesFrom] at h
    split at h
    · exact List.mem_cons_of_mem l (mem_of_mem_branchesFrom h)
    · split at h
      · rcases List.mem_cons.1 h with rfl | h
        · exact List.mem_cons_self ..
        · exact List.mem_cons_of_mem l (mem_of_mem_branchesFrom h)
      · exact absurd h List.not_mem_nil

theorem mem_of_mem_laterBranches {l k : Line} {rest : List Line} (h : k ∈ l.laterBranches rest) :
    k ∈ rest := by
  unfold Line.laterBranches at h
  split at h
  · exact mem_of_mem_branchesFrom h
  · exact absurd h List.not_mem_nil

end Offside

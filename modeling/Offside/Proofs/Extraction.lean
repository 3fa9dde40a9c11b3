/-
# The pieces of a program

The lines of a program fall into pieces: a header with the run of deeper lines
that follows it directly, or a line of the entry point. There is one way to do
so (`Pieces.unique`), and sorting goes by it: the entry point holds the lines
that are pieces of their own, and every header makes a function of the lines
under it (`Pieces.sortLines_eq`). Of the functions of one name the last is
kept, in the place of the first (`Function.keys_byName`,
`Function.lookup_byName`).

Key definitions: `Piece`, `Pieces`.
Key theorems: `Pieces.sortLines_eq`, `Pieces.roles_eq`, `Function.keys_byName`,
`Function.lookup_byName`, `Program.ofLines_pieces`.
-/
import Offside.Proofs.Definitions

namespace Offside

/-- Lines of a program that belong together. -/
inductive Piece where
  /-- A header with its signature, and the lines under it. -/
  | definition (header : Line) (signature : Signature) (under : List Line)
  /-- A line of the entry point. -/
  | entry (line : Line)

namespace Piece

/-- The lines of a piece with their roles. -/
def roles : Piece → List (Role × Line)
  | definition header _ under => (.header, header) :: under.map (Prod.mk .body)
  | entry line => [(.entry, line)]

/-- The function that a piece defines. -/
def function? : Piece → Option Function
  | definition header s under => some ⟨s, header.number, under⟩
  | entry _ => none

/-- The line that a piece adds to the entry point. -/
def entry? : Piece → Option Line
  | definition _ _ _ => none
  | entry line => some line

end Piece

/-- The pieces of a list of lines, in order. A line with a readable signature
that is under no header is one, and the longest run of deeper lines after it is
under it. -/
inductive Pieces : List Line → List Piece → Prop where
  | nil : Pieces [] []
  | definition {l : Line} {s : Signature} {under rest : List Line} {ps : List Piece}
    (hs : l.signature? = some s) (hunder : ∀ m ∈ under, l.indent < m.indent)
    (hrest : ∀ m ∈ rest.head?, m.indent ≤ l.indent) (h : Pieces rest ps) :
    Pieces (l :: (under ++ rest)) (.definition l s under :: ps)
  | entry {l : Line} {rest : List Line} {ps : List Piece} (hs : l.signature? = none)
    (h : Pieces rest ps) : Pieces (l :: rest) (.entry l :: ps)

/-! ### One way to cut -/

theorem exists_pieces (ls : List Line) : ∃ ps, Pieces ls ps := by
  match ls with
  | [] => exact ⟨[], .nil⟩
  | l :: ls =>
    cases hs : l.signature? with
    | none =>
      obtain ⟨ps, hps⟩ := exists_pieces ls
      exact ⟨_, .entry hs hps⟩
    | some s =>
      obtain ⟨ps, hps⟩ := exists_pieces (ls.dropWhile (l.indent < ·.indent))
      have hunder : ∀ m ∈ ls.takeWhile (l.indent < ·.indent), l.indent < m.indent := by
        intro m hm
        simpa using List.mem_takeWhile_imp hm
      have hrest : ∀ m ∈ (ls.dropWhile (l.indent < ·.indent)).head?, m.indent ≤ l.indent := by
        intro m hm
        have hstop := List.head?_dropWhile_not (l.indent < ·.indent) ls
        rw [Option.mem_def.1 hm] at hstop
        simpa using hstop
      have hpieces := Pieces.definition hs hunder hrest hps
      rw [List.takeWhile_append_dropWhile] at hpieces
      exact ⟨_, hpieces⟩
termination_by ls.length
decreasing_by
  · simp
  · have := (List.dropWhile_sublist (l.indent < ·.indent) (l := ls)).length_le
    simp only [List.length_cons]
    omega

theorem under_eq_takeWhile {i : Nat} {rest : List Line} (hrest : ∀ m ∈ rest.head?, m.indent ≤ i) :
    ∀ {under : List Line}, (∀ m ∈ under, i < m.indent) →
      (under ++ rest).takeWhile (i < ·.indent) = under
  | [], _ => by
    cases rest with
    | nil => rfl
    | cons m rest =>
      have hm := hrest m rfl
      rw [List.nil_append, List.takeWhile_cons_of_neg]
      simpa using hm
  | u :: under, h => by
    rw [List.forall_mem_cons] at h
    rw [List.cons_append, List.takeWhile_cons_of_pos (by simpa using h.1), under_eq_takeWhile hrest h.2]

/-- **The pieces of a list of lines are determined.** -/
theorem Pieces.unique {ls : List Line} {ps qs : List Piece} (hp : Pieces ls ps) (hq : Pieces ls qs) :
    qs = ps := by
  induction hp generalizing qs with
  | nil => cases hq; rfl
  | @entry l rest ps hs _ ih =>
    cases hq with
    | definition hs' => rw [hs] at hs'; cases hs'
    | entry _ h => rw [ih h]
  | @definition l s under rest ps hs hunder hrest _ ih =>
    generalize hls : under ++ rest = ls at hq
    cases hq with
    | entry hs' => rw [hs] at hs'; cases hs'
    | @definition _ s' under' rest' qs hs' hunder' hrest' h =>
      have hsame : under' = under := by
        rw [← under_eq_takeWhile hrest hunder, hls, under_eq_takeWhile hrest' hunder']
      subst hsame
      rw [List.append_cancel_left hls] at ih
      rw [hs, Option.some.injEq] at hs'
      rw [ih h, hs']

/-! ### Sorting by pieces -/

section Sorting

variable {i : Nat} {rest : List Line}

/-- Where a header ends, the lines are sorted as under none. -/
theorem sortLines_of_not_deeper (hrest : ∀ m ∈ rest.head?, m.indent ≤ i) :
    sortLines (some i) rest = sortLines none rest := by
  cases rest with
  | nil => rfl
  | cons m rest =>
    have hm : ¬ i < m.indent := Nat.not_lt.2 (hrest m rfl)
    simp [sortLines, hm]

theorem sortLines_under (hrest : ∀ m ∈ rest.head?, m.indent ≤ i) :
    ∀ {under : List Line}, (∀ m ∈ under, i < m.indent) →
      sortLines (some i) (under ++ rest) = (under, (sortLines none rest).2)
  | [], _ => by
    rw [List.nil_append, sortLines_of_not_deeper hrest, ← sortLines_none rest]
  | u :: under, h => by
    rw [List.forall_mem_cons] at h
    have hu : (some i).any (· < u.indent) = true := by simpa using h.1
    rw [List.cons_append, sortLines, if_pos hu, sortLines_under hrest h.2]

theorem roles_of_not_deeper (hrest : ∀ m ∈ rest.head?, m.indent ≤ i) :
    roles (some i) rest = roles none rest := by
  cases rest with
  | nil => rfl
  | cons m rest =>
    have hm : ¬ i < m.indent := Nat.not_lt.2 (hrest m rfl)
    have hrole : m.role (some i) = m.role none := by simp [Line.role, hm]
    have hopens : m.opens (some i) = m.opens none := by
      have hclosed : m.role none ≠ .body := by
        unfold Line.role
        cases m.signature?.isSome <;> simp
      unfold Line.opens
      rw [hrole]
      cases h : m.role none with
      | body => exact absurd h hclosed
      | header => rfl
      | entry => rfl
    rw [roles, roles, hrole, hopens]

theorem roles_under (hrest : ∀ m ∈ rest.head?, m.indent ≤ i) :
    ∀ {under : List Line}, (∀ m ∈ under, i < m.indent) →
      roles (some i) (under ++ rest) = under.map (Prod.mk .body) ++ roles none rest
  | [], _ => roles_of_not_deeper hrest
  | u :: under, h => by
    rw [List.forall_mem_cons] at h
    have hrole : u.role (some i) = .body := by simp [Line.role, h.1]
    rw [List.cons_append, roles, Line.opens, hrole, roles_under hrest h.2]
    rfl

end Sorting

namespace Pieces

variable {ls : List Line} {ps : List Piece}

/-- **Sorting goes by the pieces.** -/
theorem sortLines_eq (h : Pieces ls ps) :
    sortLines none ls = ([], ps.filterMap Piece.function?, ps.filterMap Piece.entry?) := by
  induction h with
  | nil => rfl
  | definition hs hunder hrest _ ih =>
    simp only [sortLines, Option.any_none, Bool.false_eq_true, if_false, hs,
      sortLines_under hrest hunder, ih, Piece.function?, Piece.entry?, List.filterMap_cons]
  | entry hs _ ih =>
    simp only [sortLines, Option.any_none, Bool.false_eq_true, if_false, hs, ih, Piece.function?,
      Piece.entry?, List.filterMap_cons]

/-- **Every line has the role that its piece gives it.** -/
theorem roles_eq (h : Pieces ls ps) : roles none ls = ps.flatMap Piece.roles := by
  induction h with
  | nil => rfl
  | @definition l s under rest ps hs hunder hrest _ ih =>
    have hrole : l.role none = .header := by simp [Line.role, hs]
    have hopens : l.opens none = some l.indent := by rw [Line.opens, hrole]
    rw [roles, hrole, hopens, roles_under hrest hunder, ih]
    rfl
  | @entry l rest ps hs _ ih =>
    have hrole : l.role none = .entry := by simp [Line.role, hs]
    have hopens : l.opens none = none := by rw [Line.opens, hrole]
    rw [roles, hrole, hopens, ih]
    rfl

/-- **The pieces hold all lines, each once and in order.** -/
theorem lines_eq (h : Pieces ls ps) : (ps.flatMap Piece.roles).map Prod.snd = ls := by
  induction h with
  | nil => rfl
  | @definition l s under rest ps _ _ _ _ ih =>
    rw [List.flatMap_cons, List.map_append, ih, Piece.roles, List.map_cons, List.map_map]
    simp [Function.comp_def]
  | @entry l rest ps _ _ ih =>
    rw [List.flatMap_cons, List.map_append, ih]
    rfl

end Pieces

/-! ### Functions by name -/

namespace Function

/-- **The names of functions come in the order of their first definitions.** -/
theorem keys_byName (fs : List Function) :
    (byName fs).keys = (fs.map fun f => f.signature.name).eraseDups :=
  OrderedMap.keys_stored (fun f : Function => f.signature.name) id fs

/-- **A name stands for the last function of this name.** -/
theorem lookup_byName (name : Text) (fs : List Function) :
    (byName fs).lookup name = (fs.filter (·.signature.name = name)).getLast? := by
  have hlast := OrderedMap.lookup_stored (fun f : Function => f.signature.name) id name fs
  rw [Option.map_id_fun, id] at hlast
  exact hlast

end Function

/-- **A program is cut into pieces by indentation.** Its lines fall into
pieces in one way, which gives each of them a role. The entry point holds the
lines that are pieces of their own, in order; the names of the functions are
those in the headers, in the order in which they first come; and a name stands
for the function of its last header, with all lines under that. -/
theorem Program.ofLines_pieces (ls : List Line) :
    ∃ ps, (Pieces ls ps ∧ ∀ qs, Pieces ls qs → qs = ps) ∧
      roles none ls = ps.flatMap Piece.roles ∧ (ps.flatMap Piece.roles).map Prod.snd = ls ∧
      (ofLines ls).entryPoint = ps.filterMap Piece.entry? ∧
      (ofLines ls).functions.keys =
        ((ps.filterMap Piece.function?).map fun f => f.signature.name).eraseDups ∧
      ∀ name, (ofLines ls).functions.lookup name =
        ((ps.filterMap Piece.function?).filter (·.signature.name = name)).getLast? := by
  obtain ⟨ps, hps⟩ := exists_pieces ls
  have hentry : (ofLines ls).entryPoint = ps.filterMap Piece.entry? := by
    rw [ofLines, hps.sortLines_eq]
  have hfunctions : (ofLines ls).functions = Function.byName (ps.filterMap Piece.function?) := by
    rw [ofLines, hps.sortLines_eq]
  refine ⟨ps, ⟨hps, fun qs => hps.unique⟩, hps.roles_eq, hps.lines_eq, hentry, ?_, fun name => ?_⟩
  · rw [hfunctions, Function.keys_byName]
  · rw [hfunctions, Function.lookup_byName]

end Offside

/-
# Reading from a queue

Lines may also be read from a queue, without an outline: a block takes lines
off the queue up to a shallower one, a statement with a body has a block taken
off the same queue, and what is passed over is dropped. While lines are left,
one more block is taken.

That such a reader comes to an end has to be said: it yields nothing at all if
a branch, a statement or a tier leaves as many lines as it found, or if the
body of a statement is taken off a queue that is no shorter than that of the
statement.

Key definitions: `takeBody?`, `takeBranches?`, `takeStatement?`, `takeBlock?`,
`Tier`, `takeTiers?`, `assemble`.
Key theorems: `takeBlock?_statement`, `takeBlock?_strays`.
-/
import Offside.Proofs.Sections

namespace Offside

/-! ### The reader -/

/-- The queue without the lines deeper than `i` that it starts with. -/
def passOver (i : Nat) (queue : List Line) : List Line := queue.dropWhile (i < ·.indent)

/-- The indentation of the first line of the queue, if that is deeper than
`i`. -/
def deeper? (i : Nat) (queue : List Line) : Option Nat :=
  (queue.head?.map (·.indent)).filter (i < ·)

/-- What is taken off a queue, with statements before it. -/
def prepend (trees : Block) (taken : Block × List Line) : Block × List Line := (trees ++ taken.1, taken.2)

@[simp] theorem prepend_nil : prepend [] = id := rfl

section Statements

/- How a block at some indentation is taken off a queue: what it is, and the
rest of the queue. -/
variable (block? : Nat → List Line → Option (Block × List Line))

/-- The body of the line `l`, if it has one, and the rest of the queue. -/
def takeBody? (l : Line) (queue : List Line) : Option (Option Block × List Line) :=
  match deeper? l.indent queue with
  | some i => (block? i queue).map fun (b, rest) => (some b, rest)
  | none => some (none, queue)

/-- A statement made of the body of the line `l`, or the report that there is
none, and the rest of the queue. -/
def takeWith? (l : Line) (make : Block → Tree) (queue : List Line) : Option (Tree × List Line) :=
  (takeBody? block? l queue).map fun
    | (some b, rest) => (make b, rest)
    | (none, rest) => (.malformed l.number (.missingBody l.text), rest)

/-- The rest of the conditional that the line `l` starts, after `branches`. -/
def takeBranches? (l : Line) (branches : List (Text × Block)) : List Line → Option (Tree × List Line)
  | [] => some (.conditional l.number branches none, [])
  | next :: queue =>
    if next.indent = l.indent ∧ next.kind.continuesConditional = true then
      if next.kind = .elifHeader then do
        match ← readHeader? "elif" next.text with
        | .error p => return (.malformed next.number p, passOver next.indent queue)
        | .ok condition =>
          match ← takeBody? block? next queue with
          | (none, rest) => return (.malformed next.number (.missingBody next.text), rest)
          | (some b, rest) =>
            if rest.length ≤ queue.length then takeBranches? l (branches ++ [(condition, b)]) rest
            else none
      else do
        if Text.trim (← afterKeyword? "else" next.text) = [':'] then
          takeWith? block? next (fun b => .conditional l.number branches (some b)) queue
        else return (.malformed next.number (.missingColon "else"), passOver next.indent queue)
    else some (.conditional l.number branches none, next :: queue)
termination_by queue => queue.length
decreasing_by exact Nat.lt_succ_of_le (by assumption)

/-- The statement that the line `l` starts, and the rest of the queue. -/
def takeStatement? (l : Line) (queue : List Line) : Option (Tree × List Line) := do
  match ← l.sentence? with
  | .whole t => return (t, queue)
  | .refused p => return (.malformed l.number p, passOver l.indent queue)
  | .loop condition => takeWith? block? l (.whileLoop l.number condition) queue
  | .range loop => takeWith? block? l (.forLoop l.number loop) queue
  | .branch condition =>
    match ← takeBody? block? l queue with
    | (none, rest) => return (.malformed l.number (.missingBody l.text), rest)
    | (some b, rest) => takeBranches? block? l [(condition, b)] rest

end Statements

theorem length_passOver (i : Nat) (queue : List Line) : (passOver i queue).length ≤ queue.length :=
  (List.dropWhile_sublist _).length_le

/-- The statements at the indentation `i` that the queue starts with, and the
rest of the queue. A deeper line is reported; `inner` is the indentation of the
body just left. A block inside a statement is only read from a shorter queue. -/
def takeBlock? (i : Nat) (inner : Option Nat) : List Line → Option (Block × List Line)
  | [] => some ([], [])
  | l :: queue =>
    if l.indent < i then some ([], l :: queue)
    else if i < l.indent then
      (takeBlock? i none (passOver l.indent queue)).map (prepend (strays inner [l]))
    else
      let block? := fun j inside =>
        if inside.length < (l :: queue).length then takeBlock? j none inside else none
      (takeStatement? block? l queue).bind fun (t, after) =>
        if after.length < (l :: queue).length then
          (takeBlock? i (deeper? i queue) after).map (prepend [t])
        else none
termination_by queue => queue.length
decreasing_by
  · exact Nat.lt_succ_of_le (length_passOver l.indent queue)
  · assumption
  · assumption

/-- Lines taken off a queue at one time, down to a shallower one, and the block
that they are read as. -/
structure Tier where
  lines : List Line
  block : Block

/-- The tiers of a queue: each is a block at the indentation of the first line
left. A tier takes a line at least. -/
def takeTiers? : List Line → Option (List Tier)
  | [] => some []
  | l :: queue =>
    (takeBlock? l.indent none (l :: queue)).bind fun (block, rest) =>
      if rest.length < (l :: queue).length then
        (takeTiers? rest).map (⟨(l :: queue).take ((l :: queue).length - rest.length), block⟩ :: ·)
      else none
termination_by queue => queue.length
decreasing_by assumption

/-- The report that a tier is a dedent, at its first line. -/
def Tier.report (t : Tier) : Block :=
  t.lines.head?.toList.map fun l => .malformed l.number .inconsistentDedent

/-- The statements of tiers that follow each other. -/
def assemble : List Tier → Block
  | [] => []
  | t :: more => t.block ++ more.flatMap fun t => t.report ++ t.block

/-! ### What one step takes -/

/-- How a block inside another one is taken off a queue, if that has fewer
than `n` lines. -/
def takeInner? (n : Nat) (j : Nat) (queue : List Line) : Option (Block × List Line) :=
  if queue.length < n then takeBlock? j none queue else none

/-- How a block at the indentation `i` goes on after a statement, if fewer than
`n` lines are left. -/
def resume? (i n : Nat) (inner : Option Nat) (taken : Tree × List Line) : Option (Block × List Line) :=
  if taken.2.length < n then (takeBlock? i inner taken.2).map (prepend [taken.1]) else none

section Steps

variable {i n : Nat} {inner : Option Nat} {l : Line} {o : Outline} {rest queue : List Line}

/-- Deeper lines are passed over, up to a line that is not deeper. -/
theorem passOver_append {deep : List Line} (hdeep : ∀ m ∈ deep, i < m.indent)
    (hrest : ∀ m ∈ rest.head?, m.indent ≤ i) : passOver i (deep ++ rest) = rest := by
  have hstop : rest.dropWhile (i < ·.indent) = rest := by
    cases rest with
    | nil => rfl
    | cons m rest => exact List.dropWhile_cons_of_neg (by simpa using hrest m rfl)
  rw [passOver, List.dropWhile_append_of_pos (by simpa using hdeep), hstop]

theorem deeper?_of_le (h : ∀ m ∈ queue.head?, m.indent ≤ i) : deeper? i queue = none := by
  cases queue with
  | nil => rfl
  | cons m queue => simpa [deeper?, Option.filter] using h m rfl

theorem deeper?_lines (ho : Outline.Nested (i + 1) o) (hrest : ∀ m ∈ rest.head?, m.indent ≤ i) :
    deeper? i (Outline.lines o ++ rest) = Outline.indent? o := by
  cases o with
  | nil => exact deeper?_of_le hrest
  | cons s more =>
    obtain ⟨⟨j, hj, hij, -, -⟩, -⟩ := ho
    cases s with
    | nil => cases hj
    | cons e es =>
      have hi : i < e.line.indent := by
        have : e.line.indent = j := Option.some.inj hj
        omega
      simp [Outline.lines, Section.lines, e.lines_eq, deeper?, Option.filter, hi, Outline.indent?,
        Section.indent?]

theorem takeBody?_of_le {block? : Nat → List Line → Option (Block × List Line)}
    (h : ∀ m ∈ queue.head?, m.indent ≤ l.indent) : takeBody? block? l queue = some (none, queue) := by
  rw [takeBody?, deeper?_of_le h]

theorem takeBody?_of_deeper {block? : Nat → List Line → Option (Block × List Line)}
    (h : deeper? l.indent queue = some i) :
    takeBody? block? l queue = (block? i queue).map fun (b, rest) => (some b, rest) := by
  rw [takeBody?, h]

theorem takeBlock?_shallow (h : ∀ m ∈ queue.head?, m.indent < i) :
    takeBlock? i inner queue = some ([], queue) := by
  cases queue with
  | nil => rw [takeBlock?]
  | cons m queue => rw [takeBlock?, if_pos (h m rfl)]

/-- **A block starts with the statement of its first line**, and goes on after
it. -/
theorem takeBlock?_statement (h : l.indent = i) :
    takeBlock? i inner (l :: queue) =
      (takeStatement? (takeInner? (queue.length + 1)) l queue).bind
        (resume? i (queue.length + 1) (deeper? i queue)) := by
  subst h
  rw [takeBlock?, if_neg (Nat.lt_irrefl _), if_neg (Nat.lt_irrefl _)]
  rfl

theorem takeBlock?_deeper (h : i < l.indent) :
    takeBlock? i inner (l :: queue) =
      (takeBlock? i none (passOver l.indent queue)).map (prepend (strays inner [l])) := by
  rw [takeBlock?, if_neg (by omega), if_pos h]

/-- What the body just left was matters only to a deeper line. -/
theorem takeBlock?_inner (h : ∀ m ∈ queue.head?, m.indent ≤ i) :
    takeBlock? i inner queue = takeBlock? i none queue := by
  cases queue with
  | nil => rw [takeBlock?, takeBlock?]
  | cons m queue =>
    rcases Nat.lt_or_eq_of_le (h m rfl) with hlt | heq
    · rw [takeBlock?, takeBlock?, if_pos hlt, if_pos hlt]
    · rw [takeBlock?_statement heq, takeBlock?_statement heq]

/-! ### Lines that belong to no body -/

theorem prepend_prepend (a b : Block) (taken : Block × List Line) :
    prepend a (prepend b taken) = prepend (a ++ b) taken := by
  rw [prepend, prepend, prepend, List.append_assoc]

theorem map_prepend (a b : Block) (taken? : Option (Block × List Line)) :
    (taken?.map (prepend b)).map (prepend a) = taken?.map (prepend (a ++ b)) := by
  rw [Option.map_map, Function.comp_def]
  simp only [prepend_prepend]

/-- A line that belongs to no body is reported, and what is under it is passed
over. -/
theorem takeBlock?_stray {e : Entry} (he : e.Nested) (hi : i < e.line.indent)
    (hrest : ∀ m ∈ rest.head?, m.indent ≤ e.line.indent) :
    takeBlock? i inner (e.lines ++ rest) =
      (takeBlock? i none rest).map (prepend (strays inner [e.line])) := by
  rw [e.lines_eq, List.cons_append, takeBlock?_deeper hi, passOver_append (e.le_indent he) hrest]

/-- Only the first line is reported in the light of the body just left. -/
theorem strays_append (b : List Line) : ∀ (inner : Option Nat) (l : Line) (a : List Line),
    strays inner (l :: (a ++ b)) = strays inner (l :: a) ++ strays none b
  | _, _, [] => rfl
  | _, _, m :: a => congrArg (_ :: ·) (strays_append b none m a)

theorem takeBlock?_straySection {j : Nat} (hj : i < j) (hrest : ∀ m ∈ rest.head?, m.indent ≤ j) :
    ∀ (inner : Option Nat) (e : Entry) (es : Section), Section.Nested j (e :: es) →
      takeBlock? i inner (Section.lines (e :: es) ++ rest) =
        (takeBlock? i none rest).map (prepend (strays inner (e.line :: es.map Entry.line)))
  | inner, e, [], ⟨hi, he, _⟩ => by
    subst hi
    rw [Section.lines, Section.lines, List.append_nil, takeBlock?_stray he hj hrest, List.map_nil]
  | inner, e, e' :: es, ⟨hi, he, hes⟩ => by
    subst hi
    rw [Section.lines, List.append_assoc, takeBlock?_stray he hj (Section.head?_lines_append hes hrest),
      takeBlock?_straySection hj hrest none e' es hes, map_prepend]
    rfl

/-- **Lines that belong to no body are reported**, the first of them in the
light of the body just left. -/
theorem takeBlock?_strays (hrest : ∀ m ∈ rest.head?, m.indent ≤ i) :
    ∀ (inner : Option Nat) (o : Outline), Outline.Nested (i + 1) o →
      takeBlock? i inner (Outline.lines o ++ rest) =
        (takeBlock? i none rest).map (prepend (strays inner (Entry.heads o)))
  | inner, [], _ => by simp [Outline.lines, Entry.heads, strays, takeBlock?_inner hrest]
  | inner, [] :: more, ⟨⟨j, hj, _⟩, _⟩ => nomatch hj
  | inner, (e :: es) :: more, ⟨⟨j, hj, hij, hs, hless⟩, hmore⟩ => by
    have hnext : ∀ m ∈ (Outline.lines more ++ rest).head?, m.indent < j :=
      Outline.head?_lines_append hmore hless fun m hm => Nat.lt_of_le_of_lt (hrest m hm) hij
    have hheads : Entry.heads ((e :: es) :: more) = e.line :: (es.map Entry.line ++ Entry.heads more) := by
      simp [Entry.heads]
    have hle := fun m hm => Nat.le_of_lt (hnext m hm)
    rw [Outline.lines, List.append_assoc, takeBlock?_straySection hij hle inner e es hs,
      takeBlock?_strays hrest none more hmore, map_prepend, hheads, strays_append]

theorem strays_indent? {k : Nat} (ho : Outline.Nested k o) :
    strays (Outline.indent? o) (Entry.heads o) = strays none (Entry.heads o) := by
  rcases o with _ | ⟨_ | ⟨e, s⟩, more⟩
  · rfl
  · obtain ⟨⟨j, hj, -⟩, -⟩ := ho
    cases hj
  · simp [Entry.heads, strays, Outline.indent?, Section.indent?]

theorem takeBranches?_closes {block? : Nat → List Line → Option (Block × List Line)}
    {branches : List (Text × Block)} {m : Line}
    (h : m.indent ≠ l.indent ∨ m.kind.continuesConditional = false) :
    takeBranches? block? l branches (m :: queue) =
      some (.conditional l.number branches none, m :: queue) := by
  have hstop : ¬ (m.indent = l.indent ∧ m.kind.continuesConditional = true) := by
    rintro ⟨hindent, hk⟩
    rcases h with h | h
    · exact h hindent
    · rw [h] at hk
      cases hk
  rw [takeBranches?, if_neg hstop]

end Steps

end Offside

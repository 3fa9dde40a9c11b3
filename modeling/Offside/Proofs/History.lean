/-
# What a lookup finds, from the history of the store

A store comes from operations: tables are created, symbols are declared in
them, and tables are dropped and put inside others, never inside themselves
(`SymbolStore.Reached`). A lookup goes up from a table through those that have
not been dropped. It ends, since no operation leads the links of the store back
to where they started (`SymbolStore.grounded_of_reached`).

What it finds can be told from the operations alone: the symbol that was
declared first, under the name, in the nearest table above that ever received
one, as long as no table on the way there was dropped
(`SymbolStore.find?_iff_of_ascent`).

Key definitions: `SymbolStore.Operation`, `SymbolStore.Ascent`,
`SymbolStore.Reached`, `SymbolStore.firstDeclared`, `SymbolStore.parentOf`,
`SymbolStore.Reaches`, `SymbolStore.Determined`.
Key theorems: `SymbolStore.grounded_of_reached`,
`SymbolStore.recorded_of_reached`, `SymbolStore.find?_iff_of_ascent`,
`SymbolStore.determined_of_reached`.
-/
import Mathlib.Data.List.Nodup
import Mathlib.Data.List.Perm.Subperm
import Offside.SymbolStore

namespace Offside
namespace SymbolStore

/-! ### Operations -/

/-- What can be done to a store. -/
inductive Operation where
  /-- A new table, inside another one or inside none. -/
  | create (parent : Option Nat)
  /-- A symbol for a table. -/
  | declare (table : Nat) (symbol : Symbol)
  | drop (table : Nat)
  /-- Another parent for a table, or none. -/
  | reparent (table : Nat) (parent : Option Nat)
  deriving DecidableEq

/-- The store after an operation. -/
def Operation.apply (s : SymbolStore) : Operation → SymbolStore
  | create parent => s.create parent
  | declare table symbol => s.declare table symbol
  | drop table => s.drop table
  | reparent table parent => s.reparent table parent

/-- The parent that a table names, if the table has not been dropped. -/
def link? (s : SymbolStore) (i : Nat) : Option (Option Nat) := (s.live? i).map Table.parent

/-- The tables that a lookup goes through from table `i`: up to the one that
has no parent, or whose parent was dropped. -/
inductive Ascent (s : SymbolStore) : Nat → List Nat → Prop where
  | top {i : Nat} {parent : Option Nat} (h : s.link? i = some parent) (hp : ∀ j ∈ parent, s.link? j = none) :
    Ascent s i [i]
  | up {i j : Nat} {js : List Nat} (h : s.link? i = some (some j)) (hs : Ascent s j js) : Ascent s i (i :: js)

/-- The operations that a store allows. They are about tables that there are,
and a table is not put inside itself, nor inside a table that is inside it. -/
inductive Operation.Allowed (s : SymbolStore) : Operation → Prop where
  | create {parent : Option Nat} (hp : ∀ j ∈ parent, j < s.length) : Allowed s (.create parent)
  | declare {i : Nat} {symbol : Symbol} (hi : (s.live? i).isSome = true) : Allowed s (.declare i symbol)
  | drop {i : Nat} (hi : i < s.length) : Allowed s (.drop i)
  | reparent {i : Nat} {parent : Option Nat} (hi : (s.live? i).isSome = true)
    (hp : ∀ j ∈ parent, j < s.length ∧ ∀ js, s.Ascent j js → i ∉ js) : Allowed s (.reparent i parent)

/-- A store that the operations `ops` lead to, the newest of them first. -/
inductive Reached : List Operation → SymbolStore → Prop where
  | start : Reached [] []
  | step {ops : List Operation} {s : SymbolStore} {op : Operation} (h : Reached ops s) (ha : op.Allowed s) :
    Reached (op :: ops) (op.apply s)

/-! ### Single operations -/

section Operations

variable {s : SymbolStore} {i j k : Nat}

theorem lt_length_of_live (h : (s.live? i).isSome = true) : i < s.length := by
  obtain ⟨t, ht⟩ := Option.isSome_iff_exists.1 h
  exact (List.getElem?_eq_some_iff.1 (Option.filter_eq_some_iff.1 ht).1).1

theorem isSome_link (s : SymbolStore) (i : Nat) : (s.link? i).isSome = (s.live? i).isSome := Option.isSome_map

theorem live?_modify {f : Table → Table} (hf : ∀ t, (f t).alive = t.alive) (s : SymbolStore) (i k : Nat) :
    SymbolStore.live? (s.modify k f) i = (s.live? i).map fun t => if k = i then f t else t := by
  rw [live?, live?, List.getElem?_modify]
  cases s[i]? with
  | none => rfl
  | some t =>
    have halive : (if k = i then f t else t).alive = t.alive := by
      by_cases h : k = i
      · rw [if_pos h, hf]
      · rw [if_neg h]
    cases ht : t.alive <;> simp [Option.filter, halive, ht]

theorem live?_create (s : SymbolStore) (parent : Option Nat) (i : Nat) :
    (s.create parent).live? i = if i = s.length then some ⟨[], parent, true⟩ else s.live? i := by
  rw [create, live?, live?]
  rcases Nat.lt_trichotomy i s.length with h | rfl | h
  · rw [List.getElem?_append_left h, if_neg (Nat.ne_of_lt h)]
  · rw [List.getElem?_concat_length, if_pos rfl]
    rfl
  · rw [if_neg (Nat.ne_of_gt h), List.getElem?_eq_none (by simp; omega), List.getElem?_eq_none (by omega)]

theorem live?_declare (s : SymbolStore) (symbol : Symbol) (i k : Nat) : (s.declare k symbol).live? i =
    (s.live? i).map fun t => if k = i then { t with frame := t.frame.declare symbol } else t := by
  refine live?_modify ?_ s i k
  exact fun _ => rfl

theorem live?_drop (s : SymbolStore) (i k : Nat) :
    (s.drop k).live? i = if k = i then none else s.live? i := by
  rw [drop, live?, live?, List.getElem?_modify]
  by_cases h : k = i
  · rw [if_pos h]
    cases s[i]? <;> simp [h, Option.filter]
  · rw [if_neg h]
    cases s[i]? <;> simp [h]

theorem live?_reparent (s : SymbolStore) (parent : Option Nat) (i k : Nat) : (s.reparent k parent).live? i =
    (s.live? i).map fun t => if k = i then { t with parent := parent.filter fun j => (s.live? j).isSome } else t := by
  refine live?_modify ?_ s i k
  exact fun _ => rfl

theorem link?_create (s : SymbolStore) (parent : Option Nat) (i : Nat) :
    (s.create parent).link? i = if i = s.length then some parent else s.link? i := by
  rw [link?, live?_create]
  split <;> rfl

theorem link?_declare (s : SymbolStore) (symbol : Symbol) (i k : Nat) :
    (s.declare k symbol).link? i = s.link? i := by
  rw [link?, live?_declare, Option.map_map, link?]
  congr 1
  funext t
  rw [Function.comp_apply, apply_ite Table.parent, ite_self]

theorem link?_drop (s : SymbolStore) (i k : Nat) :
    (s.drop k).link? i = if k = i then none else s.link? i := by
  rw [link?, live?_drop]
  split <;> rfl

theorem link?_reparent (s : SymbolStore) (parent : Option Nat) (i k : Nat) : (s.reparent k parent).link? i =
    if k = i then (s.link? i).map fun _ => parent.filter fun j => (s.live? j).isSome else s.link? i := by
  rw [link?, live?_reparent, Option.map_map, link?, Option.map_map]
  by_cases h : k = i
  · simp only [if_pos h]
    rfl
  · simp only [if_neg h]
    rfl

end Operations

/-! ### Lookups end -/

namespace Ascent

variable {s s' : SymbolStore} {i k : Nat} {js ks : List Nat}

theorem link_ne_none (h : s.Ascent i js) : s.link? i ≠ none := by
  cases h with
  | top h | up h =>
    rw [h]
    exact Option.some_ne_none _

theorem isSome_link (h : s.Ascent i js) : (s.link? i).isSome = true := Option.isSome_iff_ne_none.2 h.link_ne_none

/-- There is one way up from a table. -/
theorem unique (h : s.Ascent i js) (h' : s.Ascent i ks) : js = ks := by
  induction h generalizing ks with
  | top h hp =>
    cases h' with
    | top => rfl
    | up hj hs =>
      rw [h, Option.some.injEq] at hj
      exact absurd (hp _ hj) hs.link_ne_none
  | up h hs ih =>
    cases h' with
    | top hj hp =>
      rw [h, Option.some.injEq] at hj
      exact absurd (hp _ hj.symm) hs.link_ne_none
    | up hj hs' =>
      rw [h, Option.some.injEq, Option.some.injEq] at hj
      subst hj
      rw [ih hs']

theorem exists_of_mem (h : s.Ascent i js) (hk : k ∈ js) : ∃ ks, s.Ascent k ks ∧ ks.length ≤ js.length := by
  induction h with
  | @top i parent h hp =>
    obtain rfl := List.mem_singleton.1 hk
    exact ⟨_, .top h hp, Nat.le_refl _⟩
  | @up i j js h hs ih =>
    rcases List.mem_cons.1 hk with rfl | hk
    · exact ⟨_, .up h hs, Nat.le_refl _⟩
    · obtain ⟨ks, hks, hlength⟩ := ih hk
      exact ⟨ks, hks, Nat.le_succ_of_le hlength⟩

/-- **No lookup goes through a table twice.** -/
theorem nodup (h : s.Ascent i js) : js.Nodup := by
  induction h with
  | top => exact List.nodup_singleton _
  | @up i j js h hs ih =>
    refine List.nodup_cons.2 ⟨fun hmem => ?_, ih⟩
    obtain ⟨ks, hks, hlength⟩ := hs.exists_of_mem hmem
    rw [← unique (.up h hs) hks, List.length_cons] at hlength
    omega

theorem lt_length (h : s.Ascent i js) : ∀ j ∈ js, j < s.length := by
  intro j hj
  obtain ⟨ks, hks, -⟩ := h.exists_of_mem hj
  exact lt_length_of_live (SymbolStore.isSome_link s j ▸ hks.isSome_link)

theorem length_le (h : s.Ascent i js) : js.length ≤ s.length := by
  have hsub : js ⊆ List.range s.length := fun j hj => List.mem_range.2 (h.lt_length j hj)
  have hle := (List.subperm_of_subset h.nodup hsub).length_le
  rwa [List.length_range] at hle

/-- The tables of a lookup are the same in a store with the same links, where
what was dropped is dropped. -/
theorem congr (h : s.Ascent i js) (hlink : ∀ j ∈ js, s'.link? j = s.link? j)
    (hdead : ∀ j, j < s.length → s.link? j = none → s'.link? j = none)
    (hbounded : ∀ i j, s.link? i = some (some j) → j < s.length) : s'.Ascent i js := by
  induction h with
  | @top i parent h hp =>
    have hsame := hlink i (List.mem_singleton_self i)
    rw [h] at hsame
    refine .top hsame fun j hj => hdead j (hbounded i j ?_) (hp j hj)
    rw [h, Option.mem_def.1 hj]
  | @up i j js h hs ih =>
    have hsame := hlink i (List.mem_cons_self ..)
    rw [h] at hsame
    exact .up hsame (ih fun k hk => hlink k (List.mem_cons_of_mem i hk))

theorem declare (h : s.Ascent i js) (k : Nat) (symbol : Symbol) : (s.declare k symbol).Ascent i js := by
  induction h with
  | top h hp => exact .top ((link?_declare ..).trans h) fun j hj => (link?_declare ..).trans (hp j hj)
  | up h _ ih => exact .up ((link?_declare ..).trans h) ih

theorem exists_of_changed (hother : ∀ j, j ≠ k → s'.link? j = s.link? j)
    (hk : (s'.link? k).isSome = true → ∃ ks, s'.Ascent k ks) (h : s.Ascent i js)
    (hi : (s'.link? i).isSome = true) : ∃ js', s'.Ascent i js' := by
  induction h with
  | @top i parent h hp =>
    by_cases hik : i = k
    · subst hik
      exact hk hi
    · have hlink := hother i hik
      rw [h] at hlink
      cases parent with
      | none => exact ⟨[i], .top hlink fun j hj => absurd hj (Option.not_mem_none j)⟩
      | some j =>
        cases hj : s'.link? j with
        | none => exact ⟨[i], .top hlink fun j' hj' => Option.mem_some_iff.1 hj' ▸ hj⟩
        | some p =>
          -- only the table that has changed can have come to life
          have hjk : j = k := by
            by_contra hne
            rw [hother j hne, hp j rfl] at hj
            cases hj
          obtain ⟨ks, hks⟩ := hk (by rw [← hjk, hj]; rfl)
          exact ⟨i :: ks, .up hlink (hjk ▸ hks)⟩
  | @up i j js h hs ih =>
    by_cases hik : i = k
    · subst hik
      exact hk hi
    · have hlink := hother i hik
      rw [h] at hlink
      cases hj : s'.link? j with
      | none => exact ⟨[i], .top hlink fun j' hj' => Option.mem_some_iff.1 hj' ▸ hj⟩
      | some p =>
        obtain ⟨js', hjs'⟩ := ih (by rw [hj]; rfl)
        exact ⟨i :: js', .up hlink hjs'⟩

end Ascent

/-- A store whose links name tables and lead to an end. -/
structure Grounded (s : SymbolStore) : Prop where
  bounded : ∀ i j, s.link? i = some (some j) → j < s.length
  ends : ∀ i, (s.link? i).isSome = true → ∃ js, s.Ascent i js

namespace Grounded

variable {s : SymbolStore} {i k : Nat}

theorem create (h : Grounded s) {parent : Option Nat} (hp : ∀ j ∈ parent, j < s.length) :
    Grounded (s.create parent) := by
  have hlink := link?_create s parent
  have hother : ∀ j, j ≠ s.length → (s.create parent).link? j = s.link? j := fun j hj => by
    rw [hlink, if_neg hj]
  have hnew : (s.create parent).link? s.length = some parent := by rw [hlink, if_pos rfl]
  have hlength : (s.create parent).length = s.length + 1 := by simp [SymbolStore.create]
  have hended : ∃ ks, (s.create parent).Ascent s.length ks := by
    cases parent with
    | none => exact ⟨_, .top hnew fun j hj => absurd hj (Option.not_mem_none j)⟩
    | some j =>
      have hj := hp j rfl
      cases hlive : s.link? j with
      | none =>
        have hdead : (s.create (some j)).link? j = none := by rw [hother j (Nat.ne_of_lt hj), hlive]
        exact ⟨_, .top hnew fun j' hj' => Option.mem_some_iff.1 hj' ▸ hdead⟩
      | some p =>
        obtain ⟨js, hjs⟩ := h.ends j (by rw [hlive]; rfl)
        refine ⟨_, .up hnew (hjs.congr (fun k hk => hother k (Nat.ne_of_lt (hjs.lt_length k hk))) ?_ h.bounded)⟩
        intro k hk hdead
        rw [hother k (Nat.ne_of_lt hk), hdead]
  refine ⟨fun i j hij => ?_, fun i hi => ?_⟩
  · rw [hlength]
    rw [hlink] at hij
    split at hij
    · rw [Option.some.injEq] at hij
      exact Nat.lt_succ_of_lt (hp j hij)
    · exact Nat.lt_succ_of_lt (h.bounded i j hij)
  · by_cases hik : i = s.length
    · exact hik ▸ hended
    · obtain ⟨js, hjs⟩ := h.ends i (by rwa [hother i hik] at hi)
      exact hjs.exists_of_changed hother (fun _ => hended) hi

theorem declare (h : Grounded s) (i : Nat) (symbol : Symbol) : Grounded (s.declare i symbol) := by
  have hlink := fun j => link?_declare s symbol j i
  have hlength : (s.declare i symbol).length = s.length := List.length_modify ..
  refine ⟨fun j k hjk => ?_, fun j hj => ?_⟩
  · rw [hlength]
    exact h.bounded j k (by rwa [hlink] at hjk)
  · obtain ⟨js, hjs⟩ := h.ends j (by rwa [hlink] at hj)
    exact ⟨js, hjs.declare i symbol⟩

theorem drop (h : Grounded s) (i : Nat) : Grounded (s.drop i) := by
  have hlink := fun j => link?_drop s j i
  have hlength : (s.drop i).length = s.length := List.length_modify ..
  have hother : ∀ j, j ≠ i → (s.drop i).link? j = s.link? j := fun j hj => by
    rw [hlink, if_neg (Ne.symm hj)]
  have hdropped : (s.drop i).link? i = none := by rw [hlink, if_pos rfl]
  refine ⟨fun j k hjk => ?_, fun j hj => ?_⟩
  · rw [hlength]
    rw [hlink] at hjk
    split at hjk
    · cases hjk
    · exact h.bounded j k hjk
  · have hne : j ≠ i := by
      rintro rfl
      rw [hdropped] at hj
      cases hj
    obtain ⟨js, hjs⟩ := h.ends j (by rwa [hother j hne] at hj)
    refine hjs.exists_of_changed hother (fun hi => ?_) hj
    rw [hdropped] at hi
    cases hi

theorem reparent (h : Grounded s) {parent : Option Nat} (hi : (s.live? i).isSome = true)
    (hp : ∀ j ∈ parent, j < s.length ∧ ∀ js, s.Ascent j js → i ∉ js) : Grounded (s.reparent i parent) := by
  have hlink := fun j => link?_reparent s parent j i
  have hlength : (s.reparent i parent).length = s.length := List.length_modify ..
  have hother : ∀ j, j ≠ i → (s.reparent i parent).link? j = s.link? j := fun j hj => by
    rw [hlink, if_neg (Ne.symm hj)]
  obtain ⟨old, hold⟩ := Option.isSome_iff_exists.1 ((isSome_link s i).trans hi)
  have hnew : (s.reparent i parent).link? i = some (parent.filter fun j => (s.live? j).isSome) := by
    rw [hlink, if_pos rfl, hold, Option.map_some]
  have hended : ∃ ks, (s.reparent i parent).Ascent i ks := by
    cases hparent : parent.filter fun j => (s.live? j).isSome with
    | none =>
      rw [hparent] at hnew
      exact ⟨_, .top hnew fun j hj => absurd hj (Option.not_mem_none j)⟩
    | some j =>
      rw [hparent] at hnew
      obtain ⟨hj, hlive⟩ := Option.filter_eq_some_iff.1 hparent
      obtain ⟨js, hjs⟩ := h.ends j ((isSome_link s j).trans hlive)
      -- the table is not among those above its new parent, whose links stay
      have hnot := (hp j hj).2 js hjs
      have hsame : ∀ k ∈ js, (s.reparent i parent).link? k = s.link? k := fun k hk =>
        hother k fun hki => hnot (hki ▸ hk)
      refine ⟨_, .up hnew (hjs.congr hsame (fun k _ hdead => ?_) h.bounded)⟩
      rw [hlink, hdead, Option.map_none, ite_self]
  refine ⟨fun j k hjk => ?_, fun j hj => ?_⟩
  · rw [hlength]
    by_cases hji : j = i
    · rw [hji, hnew, Option.some.injEq, Option.filter_eq_some_iff] at hjk
      exact (hp k hjk.1).1
    · exact h.bounded j k (by rwa [hother j hji] at hjk)
  · by_cases hji : j = i
    · exact hji ▸ hended
    · obtain ⟨js, hjs⟩ := h.ends j (by rwa [hother j hji] at hj)
      exact hjs.exists_of_changed hother (fun _ => hended) hj

/-- **An operation keeps the links leading to an end.** -/
theorem apply (h : Grounded s) {op : Operation} (ha : op.Allowed s) : Grounded (op.apply s) := by
  cases ha with
  | create hp => exact h.create hp
  | declare => exact h.declare ..
  | drop => exact h.drop _
  | reparent hi hp => exact h.reparent hi hp

end Grounded

/-- **Links always lead to an end.** -/
theorem grounded_of_reached {ops : List Operation} {s : SymbolStore} (h : Reached ops s) : Grounded s := by
  induction h with
  | start =>
    have hnone : ∀ i, link? [] i = none := fun _ => rfl
    refine ⟨fun i j h => ?_, fun i h => ?_⟩
    · rw [hnone i] at h
      cases h
    · rw [hnone i] at h
      cases h
  | step h ha ih => exact ih.apply ha

/-- The frames of the tables `js`. -/
def framesOf (s : SymbolStore) (js : List Nat) : Scope := js.filterMap fun j => (s.live? j).map Table.frame

theorem scopeWithin_of_live {s : SymbolStore} {i : Nat} {t : Table} (h : s.live? i = some t) (limit : Nat) :
    s.scopeWithin (limit + 1) i = t.frame :: t.parent.elim [] (s.scopeWithin limit) := by
  simp only [scopeWithin, h]
  cases t.parent <;> rfl

theorem scopeWithin_of_dropped {s : SymbolStore} {i : Nat} (h : s.live? i = none) :
    ∀ limit, s.scopeWithin limit i = []
  | 0 => rfl
  | limit + 1 => by rw [scopeWithin, h]

theorem framesOf_cons {s : SymbolStore} {i : Nat} {t : Table} (h : s.live? i = some t) (js : List Nat) :
    s.framesOf (i :: js) = t.frame :: s.framesOf js := by
  rw [framesOf, List.filterMap_cons, h]
  rfl

theorem scopeWithin_of_ascent {s : SymbolStore} {i : Nat} {js : List Nat} (h : s.Ascent i js) :
    ∀ {limit : Nat}, js.length ≤ limit → s.scopeWithin limit i = s.framesOf js := by
  induction h with
  | @top i parent h hp =>
    intro limit hlimit
    obtain ⟨t, ht, rfl⟩ := Option.map_eq_some_iff.1 h
    cases limit with
    | zero => cases hlimit
    | succ limit =>
      rw [scopeWithin_of_live ht, framesOf_cons ht]
      cases hparent : t.parent with
      | none => rfl
      | some j =>
        have hdropped : s.live? j = none := Option.map_eq_none_iff.1 (hp j hparent)
        rw [Option.elim_some, scopeWithin_of_dropped hdropped]
        rfl
  | @up i j js h hs ih =>
    intro limit hlimit
    obtain ⟨t, ht, hparent⟩ := Option.map_eq_some_iff.1 h
    cases limit with
    | zero => cases hlimit
    | succ limit =>
      rw [scopeWithin_of_live ht, framesOf_cons ht, hparent, Option.elim_some, ih (Nat.le_of_succ_le_succ hlimit)]

/-- **The scope of a table is made of the frames that a lookup goes through**,
up to the end. -/
theorem scope_of_ascent {s : SymbolStore} {i : Nat} {js : List Nat} (h : s.Ascent i js) :
    s.scope i = s.framesOf js := scopeWithin_of_ascent h h.length_le

/-! ### The history of a store -/

/-- How many tables the operations have created. -/
def created : List Operation → Nat
  | [] => 0
  | .create _ :: older => created older + 1
  | .declare _ _ :: older | .drop _ :: older | .reparent _ _ :: older => created older

/-- The symbol that a table received first under a name. -/
def firstDeclared : List Operation → Nat → Text → Option Symbol
  | [], _, _ => none
  | .declare table symbol :: older, i, name =>
    (firstDeclared older i name).or (if table = i ∧ symbol.name = name then some symbol else none)
  | .create _ :: older, i, name | .drop _ :: older, i, name | .reparent _ _ :: older, i, name =>
    firstDeclared older i name

/-- The parent that a table was given last. -/
def parentOf : List Operation → Nat → Option Nat
  | [], _ => none
  | .create parent :: older, i => if i = created older then parent else parentOf older i
  | .reparent table parent :: older, i => if table = i then parent else parentOf older i
  | .declare _ _ :: older, i | .drop _ :: older, i => parentOf older i

/-- A lookup under a name comes from one table to another, by the parents that
the tables were given last: none of the tables on the way was dropped, the last
one included, and none before the last ever received a symbol under the
name. -/
inductive Reaches (ops : List Operation) (name : Text) : Nat → Nat → Prop where
  | here {i : Nat} (h : .drop i ∉ ops) : Reaches ops name i i
  | up {i j k : Nat} (h : .drop i ∉ ops) (hnone : firstDeclared ops i name = none)
    (hp : parentOf ops i = some j) (hs : Reaches ops name j k) : Reaches ops name i k

/-- Operations are about the first `n` tables. -/
structure Ranged (ops : List Operation) (n : Nat) : Prop where
  dropped : ∀ i, .drop i ∈ ops → i < n
  declared : ∀ i name, firstDeclared ops i name ≠ none → i < n
  parent : ∀ i j, parentOf ops i = some j → j < n

theorem Ranged.step {ops : List Operation} {s : SymbolStore} {op : Operation} (h : Ranged ops s.length)
    (ha : op.Allowed s) : Ranged (op :: ops) (op.apply s).length := by
  have hle : s.length ≤ (op.apply s).length := by
    cases op <;> simp [Operation.apply, SymbolStore.create, declare, drop, reparent]
  refine ⟨fun i hi => Nat.lt_of_lt_of_le ?dropped hle, fun i name hi => Nat.lt_of_lt_of_le ?declared hle,
    fun i j hj => Nat.lt_of_lt_of_le ?parent hle⟩
  case dropped =>
    rcases List.mem_cons.1 hi with rfl | hi
    · cases ha with
      | drop hk => exact hk
    · exact h.dropped i hi
  case declared =>
    cases ha with
    | @declare k symbol hk =>
      by_cases hki : k = i
      · exact hki ▸ lt_length_of_live hk
      · simp only [firstDeclared, hki, false_and, if_false, Option.or_none] at hi
        exact h.declared i name hi
    | create | drop | reparent => exact h.declared i name hi
  case parent =>
    cases ha with
    | create hp =>
      rw [parentOf] at hj
      split at hj
      · exact hp j hj
      · exact h.parent i j hj
    | reparent _ hp =>
      rw [parentOf] at hj
      split at hj
      · exact (hp j hj).1
      · exact h.parent i j hj
    | declare | drop => exact h.parent i j hj

/-- What operations have done to a store can be told from them. -/
structure Recorded (ops : List Operation) (s : SymbolStore) : Prop where
  length : s.length = created ops
  ranged : Ranged ops s.length
  live : ∀ i, (s.live? i).isSome = true ↔ i < s.length ∧ .drop i ∉ ops
  frame : ∀ i t, s.live? i = some t → ∀ name, t.frame.find? name = firstDeclared ops i name
  /-- A live parent is the one that was given last. -/
  link : ∀ i parent, s.link? i = some parent → ∀ j, (s.live? j).isSome = true →
    (parent = some j ↔ parentOf ops i = some j)

namespace Recorded

variable {ops : List Operation} {s : SymbolStore}

theorem start : Recorded [] [] where
  length := rfl
  ranged := ⟨fun i hi => absurd hi List.not_mem_nil, fun i name h => absurd rfl h, fun i j h => by cases h⟩
  live i := by simp [live?]
  frame i t ht := by cases ht
  link i parent h := by cases h

theorem create (h : Recorded ops s) (hg : Grounded s) {parent : Option Nat}
    (ha : (Operation.create parent).Allowed s) : Recorded (.create parent :: ops) (s.create parent) := by
  have hlength : (s.create parent).length = s.length + 1 := by simp [SymbolStore.create]
  refine ⟨?length, h.ranged.step ha, fun i => ?live, fun i t ht name => ?frame, fun i q hq j hj => ?link⟩
  case length => rw [hlength, h.length, created]
  case live =>
    have hold := h.live i
    rw [live?_create, hlength, List.mem_cons]
    by_cases hi : i = s.length
    · have hnot : Operation.drop i ∉ ops := fun hmem => Nat.ne_of_lt (h.ranged.dropped i hmem) hi
      simp [hi ▸ hnot, hi]
    · have hlt : i < s.length + 1 ↔ i < s.length := by omega
      rw [if_neg hi, hold, hlt]
      simp
  case frame =>
    rw [live?_create] at ht
    rw [firstDeclared]
    split at ht
    · next hi =>
      cases ht
      have hnone : firstDeclared ops i name = none := by
        by_contra hne
        exact Nat.ne_of_lt (h.ranged.declared i name hne) hi
      rw [hnone]
      rfl
    · exact h.frame i t ht name
  case link =>
    rw [link?_create] at hq
    rw [parentOf, ← h.length]
    by_cases hi : i = s.length
    · rw [if_pos hi, Option.some.injEq] at hq
      rw [if_pos hi, hq]
    · rw [if_neg hi] at hq
      rw [if_neg hi]
      by_cases hj' : j = s.length
      · -- the new table is nobody's parent
        constructor
        · rintro rfl
          exact absurd (hg.bounded i j hq) (by omega)
        · exact fun hparent => absurd (h.ranged.parent i j hparent) (by omega)
      · rw [live?_create, if_neg hj'] at hj
        exact h.link i q hq j hj

theorem declare (h : Recorded ops s) {k : Nat} {symbol : Symbol} (ha : (Operation.declare k symbol).Allowed s) :
    Recorded (.declare k symbol :: ops) (s.declare k symbol) := by
  have hlength : (s.declare k symbol).length = s.length := List.length_modify ..
  have hsome : ∀ i, ((s.declare k symbol).live? i).isSome = (s.live? i).isSome := fun i => by
    rw [live?_declare, Option.isSome_map]
  refine ⟨?length, h.ranged.step ha, fun i => ?live, fun i t ht name => ?frame, fun i q hq j hj => ?link⟩
  case length => rw [hlength, h.length, created]
  case live =>
    have hold := h.live i
    rw [hsome, hlength, hold]
    simp
  case frame =>
    rw [live?_declare] at ht
    obtain ⟨old, hold, rfl⟩ := Option.map_eq_some_iff.1 ht
    rw [firstDeclared, ← h.frame i old hold name]
    by_cases hki : k = i
    · rw [if_pos hki, Frame.find?_declare]
      simp only [hki, true_and]
    · rw [if_neg hki]
      simp only [hki, false_and, if_false, Option.or_none]
  case link =>
    rw [link?_declare] at hq
    rw [hsome] at hj
    exact h.link i q hq j hj

theorem drop (h : Recorded ops s) {k : Nat} (ha : (Operation.drop k).Allowed s) :
    Recorded (.drop k :: ops) (s.drop k) := by
  have hlength : (s.drop k).length = s.length := List.length_modify ..
  have hlive : ∀ i t, (s.drop k).live? i = some t → s.live? i = some t := fun i t ht => by
    rw [live?_drop] at ht
    split at ht
    · cases ht
    · exact ht
  refine ⟨?length, h.ranged.step ha, fun i => ?live, fun i t ht name => ?frame, fun i q hq j hj => ?link⟩
  case length => rw [hlength, h.length, created]
  case live =>
    have hold := h.live i
    rw [live?_drop, hlength, List.mem_cons, Operation.drop.injEq]
    by_cases hki : k = i
    · simp [hki]
    · rw [if_neg hki, hold]
      simp [Ne.symm hki]
  case frame => exact h.frame i t (hlive i t ht) name
  case link =>
    obtain ⟨t, ht, rfl⟩ := Option.map_eq_some_iff.1 hq
    obtain ⟨u, hu⟩ := Option.isSome_iff_exists.1 hj
    have hq' : s.link? i = some t.parent := by rw [link?, hlive i t ht]; rfl
    exact h.link i t.parent hq' j (by rw [hlive j u hu]; rfl)

theorem reparent (h : Recorded ops s) {k : Nat} {parent : Option Nat}
    (ha : (Operation.reparent k parent).Allowed s) : Recorded (.reparent k parent :: ops) (s.reparent k parent) := by
  have hlength : (s.reparent k parent).length = s.length := List.length_modify ..
  have hsome : ∀ i, ((s.reparent k parent).live? i).isSome = (s.live? i).isSome := fun i => by
    rw [live?_reparent, Option.isSome_map]
  refine ⟨?length, h.ranged.step ha, fun i => ?live, fun i t ht name => ?frame, fun i q hq j hj => ?link⟩
  case length => rw [hlength, h.length, created]
  case live =>
    have hold := h.live i
    rw [hsome, hlength, hold]
    simp
  case frame =>
    rw [live?_reparent] at ht
    obtain ⟨old, hold, rfl⟩ := Option.map_eq_some_iff.1 ht
    rw [firstDeclared, ← h.frame i old hold name]
    split <;> rfl
  case link =>
    rw [hsome] at hj
    rw [link?_reparent] at hq
    rw [parentOf]
    by_cases hki : k = i
    · rw [if_pos hki] at hq
      rw [if_pos hki]
      obtain ⟨old, -, rfl⟩ := Option.map_eq_some_iff.1 hq
      rw [Option.filter_eq_some_iff]
      exact and_iff_left hj
    · rw [if_neg hki] at hq
      rw [if_neg hki]
      exact h.link i q hq j hj

/-- **An operation is recorded as it is done.** -/
theorem step (h : Recorded ops s) (hg : Grounded s) {op : Operation} (ha : op.Allowed s) :
    Recorded (op :: ops) (op.apply s) := by
  cases op with
  | create => exact h.create hg ha
  | declare => exact h.declare ha
  | drop => exact h.drop ha
  | reparent => exact h.reparent ha

end Recorded

/-- **A store is as its operations say.** -/
theorem recorded_of_reached {ops : List Operation} {s : SymbolStore} (h : Reached ops s) : Recorded ops s := by
  induction h with
  | start => exact .start
  | step h ha ih => exact ih.step (grounded_of_reached h) ha

/-! ### What a lookup finds -/

section Lookups

variable {ops : List Operation} {s : SymbolStore} {i : Nat} {js : List Nat} {name : Text}

theorem Recorded.not_dropped (hr : Recorded ops s) (h : s.Ascent i js) : .drop i ∉ ops :=
  ((hr.live i).1 (isSome_link s i ▸ h.isSome_link)).2

theorem Ascent.exists_frames (h : s.Ascent i js) :
    ∃ t, s.live? i = some t ∧ s.framesOf js = t.frame :: s.framesOf js.tail := by
  cases h with
  | top h =>
    obtain ⟨t, ht, -⟩ := Option.map_eq_some_iff.1 h
    exact ⟨t, ht, framesOf_cons ht _⟩
  | up h =>
    obtain ⟨t, ht, -⟩ := Option.map_eq_some_iff.1 h
    exact ⟨t, ht, framesOf_cons ht _⟩

theorem Reaches.eq_of_some {k : Nat} {symbol : Symbol} (h : Reaches ops name i k)
    (hsome : firstDeclared ops i name = some symbol) : k = i := by
  cases h with
  | here => rfl
  | up _ hnone =>
    rw [hsome] at hnone
    cases hnone

/-- **What a lookup finds can be told from the operations**: the first symbol
under the name in the nearest table above that received one, no table on the
way there being dropped. -/
theorem find?_iff_of_ascent (hr : Recorded ops s) (h : s.Ascent i js) (symbol : Symbol) :
    (s.framesOf js).find? name = some symbol ↔
      ∃ k, Reaches ops name i k ∧ firstDeclared ops k name = some symbol := by
  induction h with
  | @top i parent h hp =>
    have hdropped := hr.not_dropped (.top h hp)
    obtain ⟨t, ht, -⟩ := Option.map_eq_some_iff.1 h
    have hframe := hr.frame i t ht name
    rw [framesOf_cons ht, framesOf, List.filterMap_nil, Scope.find?, Scope.find?, Option.or_none, hframe]
    constructor
    · exact fun hsome => ⟨i, .here hdropped, hsome⟩
    · rintro ⟨k, hreaches, hsome⟩
      cases hreaches with
      | here => exact hsome
      | @up _ j _ _ _ hparent hs =>
        -- the parent that was given last has been dropped, so nothing is reached
        have hlive : (s.live? j).isSome = true := by
          refine (hr.live j).2 ⟨hr.ranged.parent i j hparent, ?_⟩
          cases hs with
          | here h => exact h
          | up h => exact h
        have hdead := hp j ((hr.link i parent h j hlive).2 hparent)
        rw [← isSome_link, hdead] at hlive
        cases hlive
  | @up i j js h hs ih =>
    have hdropped := hr.not_dropped (.up h hs)
    obtain ⟨t, ht, -⟩ := Option.map_eq_some_iff.1 h
    have hframe := hr.frame i t ht name
    have hparent := (hr.link i (some j) h j (isSome_link s j ▸ hs.isSome_link)).1 rfl
    rw [framesOf_cons ht, Scope.find?, hframe]
    cases hfirst : firstDeclared ops i name with
    | some first =>
      rw [Option.some_or]
      constructor
      · exact fun hsome => ⟨i, .here hdropped, hfirst.trans hsome⟩
      · rintro ⟨k, hreaches, hsome⟩
        rw [hreaches.eq_of_some hfirst, hfirst] at hsome
        exact hsome
    | none =>
      rw [Option.none_or, ih]
      constructor
      · rintro ⟨k, hreaches, hsome⟩
        exact ⟨k, .up hdropped hfirst hparent hreaches, hsome⟩
      · rintro ⟨k, hreaches, hsome⟩
        cases hreaches with
        | here =>
          rw [hfirst] at hsome
          cases hsome
        | up _ _ hp hs' =>
          rw [hparent, Option.some.injEq] at hp
          exact ⟨k, hp ▸ hs', hsome⟩

/-- A table finds what it had under a name, and otherwise what it is given
under that name. -/
theorem exists_frame_declare {t : Table} (h : s.live? i = some t) (k : Nat) (symbol : Symbol) :
    ∃ f : Frame, (∀ js, (s.declare k symbol).framesOf (i :: js) = f :: (s.declare k symbol).framesOf js) ∧
      ∀ name, f.find? name =
        (t.frame.find? name).or (if k = i ∧ symbol.name = name then some symbol else none) := by
  have hlive := live?_declare s symbol i k
  rw [h, Option.map_some] at hlive
  refine ⟨_, framesOf_cons hlive, fun name => ?_⟩
  by_cases hki : k = i
  · rw [if_pos hki, Frame.find?_declare]
    simp only [hki, true_and]
  · rw [if_neg hki]
    simp only [hki, false_and, if_false, Option.or_none]

/-- **A declaration changes what is found only under its name**, and only from
tables from which a lookup comes to the table that receives the symbol. -/
theorem Ascent.find?_declare (hr : Recorded ops s) (h : s.Ascent i js) {k : Nat} {symbol : Symbol}
    (hne : ((s.declare k symbol).framesOf js).find? name ≠ (s.framesOf js).find? name) :
    name = symbol.name ∧ Reaches ops name i k := by
  -- what differs is found in the first frame, or the first frame has nothing
  have first : ∀ {i t} {js : List Nat}, s.live? i = some t → .drop i ∉ ops →
      ((s.declare k symbol).framesOf (i :: js)).find? name ≠ (s.framesOf (i :: js)).find? name →
      (name = symbol.name ∧ Reaches ops name i k) ∨ (firstDeclared ops i name = none ∧
        ((s.declare k symbol).framesOf js).find? name ≠ (s.framesOf js).find? name) := by
    intro i t js ht hdropped hne
    obtain ⟨f, hframes, hf⟩ := exists_frame_declare ht k symbol
    rw [hframes, framesOf_cons ht, Scope.find?, Scope.find?, hf, hr.frame i t ht name] at hne
    cases hfirst : firstDeclared ops i name with
    | some old =>
      rw [hfirst, Option.some_or, Option.some_or, Option.some_or] at hne
      exact absurd rfl hne
    | none =>
      by_cases hhere : k = i ∧ symbol.name = name
      · exact .inl ⟨hhere.2.symm, hhere.1 ▸ .here (hhere.1 ▸ hdropped)⟩
      · rw [hfirst, if_neg hhere, Option.or_none, Option.none_or, Option.none_or] at hne
        exact .inr ⟨rfl, hne⟩
  induction h with
  | @top i parent h hp =>
    obtain ⟨t, ht, -⟩ := Option.map_eq_some_iff.1 h
    rcases first ht (hr.not_dropped (.top h hp)) hne with hhere | ⟨-, hrest⟩
    · exact hhere
    · exact absurd rfl hrest
  | @up i j js h hs ih =>
    obtain ⟨t, ht, -⟩ := Option.map_eq_some_iff.1 h
    have hdropped := hr.not_dropped (.up h hs)
    have hparent := (hr.link i (some j) h j (SymbolStore.isSome_link s j ▸ hs.isSome_link)).1 rfl
    rcases first ht hdropped hne with hhere | ⟨hnone, hrest⟩
    · exact hhere
    · obtain ⟨hname, hreaches⟩ := ih hrest
      exact ⟨hname, .up hdropped hnone hparent hreaches⟩

theorem firstDeclared_append {symbol : Symbol} (h : firstDeclared ops i name = some symbol) :
    ∀ more : List Operation, firstDeclared (more ++ ops) i name = some symbol
  | [] => h
  | .declare _ _ :: more => by rw [List.cons_append, firstDeclared, firstDeclared_append h more, Option.some_or]
  | .create _ :: more | .drop _ :: more | .reparent _ _ :: more => firstDeclared_append h more

end Lookups

/-- What a lookup in a store comes to, as far as the operations that led to the
store determine it. -/
structure Determined (ops : List Operation) (s : SymbolStore) : Prop where
  /-- A lookup goes through tables up to an end, through none of them twice. -/
  ends : ∀ i, (s.live? i).isSome = true → ∃ js, s.Ascent i js ∧ js.Nodup ∧ s.scope i = s.framesOf js
  /-- It finds the first symbol that the nearest table received under the name,
  if no table up to that one was dropped, and nothing otherwise. -/
  finds : ∀ i, (s.live? i).isSome = true → ∀ name symbol, (s.scope i).find? name = some symbol ↔
    ∃ k, Reaches ops name i k ∧ firstDeclared ops k name = some symbol
  /-- A declaration changes it only under its name, and only from tables from
  which the table that receives the symbol is reached. -/
  changes : ∀ k symbol i name, (s.live? i).isSome = true →
    ((s.declare k symbol).scope i).find? name ≠ (s.scope i).find? name →
      name = symbol.name ∧ Reaches ops name i k
  /-- What a table has itself it keeps, and it is found from the table, whatever
  is done afterwards. -/
  keeps : ∀ i t name symbol, s.live? i = some t → t.frame.find? name = some symbol →
    ∀ more s', Reached (more ++ ops) s' → ∀ t', s'.live? i = some t' →
      t'.frame.find? name = some symbol ∧ (s'.scope i).find? name = some symbol

/-- **What a lookup finds is determined by the history of the store.** -/
theorem determined_of_reached {ops : List Operation} {s : SymbolStore} (h : Reached ops s) :
    Determined ops s := by
  have hr := recorded_of_reached h
  have hends : ∀ {ops s}, Reached ops s → ∀ i, (s.live? i).isSome = true → ∃ js, s.Ascent i js :=
    fun h i hi => (grounded_of_reached h).ends i ((isSome_link _ i).trans hi)
  refine ⟨fun i hi => ?ends, fun i hi name symbol => ?finds, fun k symbol i name hi hne => ?changes,
    fun i t name symbol ht hfind more s' h' t' ht' => ?keeps⟩
  case ends =>
    obtain ⟨js, hjs⟩ := hends h i hi
    exact ⟨js, hjs, hjs.nodup, scope_of_ascent hjs⟩
  case finds =>
    obtain ⟨js, hjs⟩ := hends h i hi
    rw [scope_of_ascent hjs]
    exact find?_iff_of_ascent hr hjs symbol
  case changes =>
    obtain ⟨js, hjs⟩ := hends h i hi
    have hjs' : (s.declare k symbol).Ascent i js := hjs.declare k symbol
    rw [scope_of_ascent hjs, scope_of_ascent hjs'] at hne
    exact hjs.find?_declare hr hne
  case keeps =>
    have hr' := recorded_of_reached h'
    have hfirst := (hr.frame i t ht name).symm.trans hfind
    have hown := (hr'.frame i t' ht' name).trans (firstDeclared_append hfirst more)
    obtain ⟨js, hjs⟩ := hends h' i (by rw [ht']; rfl)
    obtain ⟨u, hu, hframes⟩ := hjs.exists_frames
    obtain rfl : t' = u := Option.some.inj (ht'.symm.trans hu)
    refine ⟨hown, ?_⟩
    rw [scope_of_ascent hjs, hframes, Scope.find?, hown, Option.some_or]

/-- A table inside a second one inside a third one, and the second one is
dropped. Then the first is put inside the third. -/
def rehung : List Operation :=
  [.declare 0 ⟨"x", .string, 5⟩, .reparent 2 (some 0), .drop 1, .declare 2 ⟨"y", .int, 2⟩,
    .declare 0 ⟨"x", .double, 1⟩, .create (some 1), .create (some 0), .create none]

/-- From the table `x` is found again, as it was declared first. -/
theorem determined_of_reached_rehung : ∃ s, Reached rehung s ∧ Determined rehung s ∧
    (s.scope 2).find? "x" = some ⟨"x", .double, 1⟩ := by
  have hreached : Reached rehung (rehung.foldr (fun op s => op.apply s) []) := by
    refine .step (.step (.step (.step (.step (.step (.step (.step .start (.create ?root)) (.create ?middle))
      (.create ?inner)) (.declare rfl)) (.declare rfl)) (.drop (by decide))) (.reparent rfl ?new)) (.declare rfl)
    case root => exact fun j hj => absurd hj (Option.not_mem_none j)
    case middle | inner =>
      rintro j hj
      cases hj
      decide
    case new =>
      rintro j hj
      cases hj
      refine ⟨by decide, fun js hjs => ?_⟩
      cases hjs with
      | top => decide
      | up h => cases h
  exact ⟨_, hreached, determined_of_reached hreached, by decide⟩

end SymbolStore
end Offside

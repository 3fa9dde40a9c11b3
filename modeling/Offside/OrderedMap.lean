/-
# Ordered maps

A map whose keys keep the order in which they first came. Storing under a key
that is there already replaces the value and leaves the key where it is. So once the
elements of a list have stored a value each, a key finds what the last element
of this key stored, and the keys come in the order in which they were first
stored.

Key definitions: `OrderedMap`, `OrderedMap.insert`, `OrderedMap.keys`,
`OrderedMap.stored`.
Key theorems: `OrderedMap.lookup_insert`, `OrderedMap.keys_insert`,
`OrderedMap.keys_stored`, `OrderedMap.lookup_stored`.
-/

namespace Offside

/-- Keys with their values, in the order in which the keys first came. -/
abbrev OrderedMap (κ α : Type) := List (κ × α)

namespace OrderedMap

variable {κ α β : Type} [DecidableEq κ]

/-- The map with `a` under `k`. -/
def insert (k : κ) (a : α) : OrderedMap κ α → OrderedMap κ α
  | [] => [(k, a)]
  | (k', a') :: m => if k' = k then (k, a) :: m else (k', a') :: insert k a m

/-- The keys, in the order in which they first came. -/
def keys (m : OrderedMap κ α) : List κ := m.map Prod.fst

/-- The values, in the order of their keys. -/
def values (m : OrderedMap κ α) : List α := m.map Prod.snd

omit [DecidableEq κ] in
theorem lookup_cons_ne [BEq κ] [LawfulBEq κ] {k k' : κ} (h : k' ≠ k) (a : α) (m : OrderedMap κ α) :
    List.lookup k' ((k, a) :: m) = List.lookup k' m := by
  have hb : (k' == k) = false := by simpa using h
  simp [List.lookup_cons, hb]

/-- **A key finds what was last stored under it.** -/
theorem lookup_insert [BEq κ] [LawfulBEq κ] (k k' : κ) (a : α) : ∀ m : OrderedMap κ α,
    (insert k a m).lookup k' = if k' = k then some a else m.lookup k'
  | [] => by
    by_cases h : k' = k
    · simp [insert, h]
    · rw [insert, lookup_cons_ne h, if_neg h]
  | (k₀, a₀) :: m => by
    have ih := lookup_insert k k' a m
    unfold insert
    by_cases h₀ : k₀ = k
    · subst h₀
      by_cases h : k' = k₀
      · simp [h]
      · rw [if_pos rfl, if_neg h, lookup_cons_ne h, lookup_cons_ne h]
    · rw [if_neg h₀]
      by_cases h : k' = k₀
      · subst h
        simp [h₀]
      · rw [lookup_cons_ne h, lookup_cons_ne h, ih]

/-- **Storing adds a key at the end, unless the key is there already.** -/
theorem keys_insert (k : κ) (a : α) : ∀ m : OrderedMap κ α,
    keys (insert k a m) = if k ∈ keys m then keys m else keys m ++ [k]
  | [] => by simp [insert, keys]
  | (k₀, a₀) :: m => by
    have ih := keys_insert k a m
    unfold keys at ih ⊢
    unfold insert
    by_cases h₀ : k₀ = k
    · simp [h₀]
    · have h₁ : k ≠ k₀ := fun h => h₀ h.symm
      simp only [h₀, if_false, List.map_cons, ih, List.mem_cons, h₁, false_or]
      split <;> simp

/-! ### Many stores -/

/-- The map that the elements of a list leave, of which each stores a value
under a key. -/
def stored (key : β → κ) (value : β → α) (xs : List β) : OrderedMap κ α :=
  xs.foldl (fun m x => m.insert (key x) (value x)) []

variable (key : β → κ) (value : β → α)

theorem stored_append (xs : List β) (x : β) :
    stored key value (xs ++ [x]) = (stored key value xs).insert (key x) (value x) := by
  rw [stored, List.foldl_append]
  rfl

/-- **Keys come in the order in which they were first stored.** -/
theorem keys_stored [BEq κ] [LawfulBEq κ] (xs : List β) :
    (stored key value xs).keys = (xs.map key).eraseDups := by
  -- from the last element on, which is stored last
  rw [← List.reverse_reverse xs]
  induction xs.reverse with
  | nil => rfl
  | cons x xs ih =>
    rw [List.reverse_cons, stored_append, keys_insert, ih, List.map_append, List.eraseDups_append,
      List.map_singleton, List.removeAll]
    by_cases h : key x ∈ xs.reverse.map key
    · rw [if_pos (List.mem_eraseDups.2 h), List.filter_cons_of_neg (by simpa using h)]
      exact (List.append_nil _).symm
    · rw [if_neg (mt List.mem_eraseDups.1 h), List.filter_cons_of_pos (by simpa using h)]
      rfl

/-- **A key finds what was last stored under it**, among many. -/
theorem lookup_stored [BEq κ] [LawfulBEq κ] (k : κ) (xs : List β) :
    (stored key value xs).lookup k = ((xs.filter (key · = k)).getLast?).map value := by
  rw [← List.reverse_reverse xs]
  induction xs.reverse with
  | nil => rfl
  | cons x xs ih =>
    rw [List.reverse_cons, stored_append, lookup_insert, ih, List.filter_append]
    by_cases h : k = key x
    · simp [h]
    · simp [h, Ne.symm h]

end OrderedMap
end Offside

/-
# What is visible at a place

A name is visible at a place when the scope that the block starts in sees it,
when an earlier statement of the same block or of a block around it assigns
it, or when it is the counter of a `for` loop among those or around the place.
What stands inside an earlier statement counts for nothing. The type of a name
is the one recorded when the innermost block that introduced it did so first.

Lowering keeps a scope that it changes as it goes along. At every place this
scope sees these names and knows these types (`Place.Holds`).

Key definitions: `Place.Visible`, `Place.scope`, `Place.Holds`.
Key theorems: `Place.Holds.next`, `Place.Holds.inside`.
-/
import Mathlib.Data.List.Forall2
import Offside.Proofs.Faults
import Offside.Proofs.Places

namespace Offside

/-! ### Names -/

/-- The name that a statement introduces into its block, if it is not there
already. -/
def Tree.name? : Tree → Option Text
  | .forLoop _ loop _ => some loop.counter
  | .assignment _ name _ => some name
  | _ => none

/-- The names introduced on the way to a place. -/
def Place.names (p : Place) : List Text := p.blocks.flatten.filterMap Tree.name?

/-- A name is visible at a place of a block that starts in a scope. -/
def Place.Visible (start : Scope) (p : Place) (x : Text) : Prop :=
  start.sees x = true ∨ x ∈ p.names

instance (start : Scope) (p : Place) (x : Text) : Decidable (p.Visible start x) :=
  decidable_of_iff ((start.sees x || p.names.contains x) = true) (by simp [Place.Visible])

/-! ### Types -/

/-- What a statement adds to its block where `scope` is visible. A counter is
a whole number and is always added, a name only where it is not visible. -/
def Tree.additions (scope : Scope) : Tree → List Symbol
  | .forLoop line loop _ => [⟨loop.counter, .int, line⟩]
  | .assignment line name value =>
    if scope.sees name then []
    else ((translate? value).map fun v => ⟨name, typeOf scope v, line⟩).toList
  | _ => []

/-- What the statements of a block add to it, in order. A name is looked up
from the start, so that what was added first is found. -/
def Block.additions (outer : Scope) (b : Block) : Frame :=
  b.foldl (fun f t => f ++ t.additions (f :: outer)) []

/-- The scope at a place of a block that starts in a scope. -/
def Place.scope (start : Scope) (p : Place) : Scope :=
  p.blocks.foldr (fun b outer => Block.additions outer b :: outer) start

theorem additions_append (outer : Scope) (b : Block) (t : Tree) :
    Block.additions outer (b ++ [t]) =
      Block.additions outer b ++ t.additions (Block.additions outer b :: outer) := by
  rw [Block.additions, List.foldl_append]
  rfl

theorem scope_top (start : Scope) : Place.top.scope start = [] :: start := rfl

theorem scope_next (start : Scope) (p : Place) (t : Tree) :
    ∃ f outer, p.scope start = f :: outer ∧
      (p.next t).scope start = (f ++ t.additions (f :: outer)) :: outer := by
  refine ⟨_, _, rfl, ?_⟩
  rw [Place.scope, Place.blocks_next, List.foldr_cons, additions_append]

theorem scope_inside (start : Scope) (p : Place) (t : Tree) :
    (p.inside t).scope start = [] :: (p.next t).scope start := rfl

/-! ### Scopes that find the same symbols -/

/-- Two frames that find the same symbols. -/
def Frame.Alike (f g : Frame) : Prop := ∀ x, f.find? x = g.find? x

/-- Two scopes whose frames find the same symbols. -/
def Scope.Alike (a b : Scope) : Prop := List.Forall₂ Frame.Alike a b

theorem Frame.find?_append (f g : Frame) (x : Text) :
    Frame.find? (f ++ g) x = (f.find? x).or (g.find? x) := List.find?_append

/-- What is added at the end of a frame is found as what is declared in it. -/
theorem Frame.Alike.declare {f g : Frame} (h : f.Alike g) (s : Symbol) :
    (f.declare s).Alike (g ++ [s]) := by
  intro x
  rw [find?_declare, find?_append, h x]
  congr 1
  by_cases hs : s.name = x <;> simp [find?, hs]

namespace Scope.Alike

theorem refl (a : Scope) : a.Alike a := List.forall₂_same.2 fun _ _ _ => rfl

theorem find?_eq (x : Text) : ∀ {a b : Scope}, a.Alike b → a.find? x = b.find? x
  | [], [], _ => rfl
  | f :: a, g :: b, h => by
    obtain ⟨hf, hrest⟩ := List.forall₂_cons.1 h
    rw [Scope.find?, Scope.find?, hf x, find?_eq x hrest]

theorem sees_eq {a b : Scope} (h : a.Alike b) (x : Text) : a.sees x = b.sees x := by
  rw [Scope.sees, Scope.sees, h.find?_eq]

theorem typeOf_eq {a b : Scope} (h : a.Alike b) (t : Text) : typeOf a t = typeOf b t := by
  unfold typeOf
  rw [h.find?_eq]

theorem introduce {f g : Frame} {a b : Scope} (hf : f.Alike g) (h : Scope.Alike a b) (t : Tree) :
    (Offside.introduce (f :: a) t).Alike ((g ++ t.additions (g :: b)) :: b) := by
  have hall : Scope.Alike (f :: a) (g :: b) := .cons hf h
  cases t with
  | forLoop line loop body => exact .cons (hf.declare _) h
  | assignment line name value =>
    rw [Offside.introduce, Tree.additions, hall.sees_eq]
    cases htr : translate? value with
    | none =>
      rw [Option.map_none, Option.toList_none, ite_self, List.append_nil]
      exact hall
    | some v =>
      by_cases hs : Scope.sees (g :: b) name = true
      · rw [if_pos hs, List.append_nil]
        simpa only [hs, if_true] using hall
      · simp only [hs, hall.typeOf_eq, Bool.false_eq_true, if_false]
        exact .cons (hf.declare _) h
  | _ => simpa [Offside.introduce, Tree.additions] using hall

end Scope.Alike

/-! ### The scope of lowering -/

theorem mem_names_next (p : Place) (t : Tree) (x : Text) :
    x ∈ (p.next t).names ↔ x ∈ t.name?.toList ∨ x ∈ p.names := by
  have happ : (p.next t).blocks.flatten = p.before ++ ([t] ++ p.outer.flatten) := by
    rw [Place.blocks_next, List.flatten_cons, List.append_assoc]
  have hp : p.blocks.flatten = p.before ++ p.outer.flatten := rfl
  rw [Place.names, happ, Place.names, hp]
  simp only [List.filterMap_append, List.mem_append, List.filterMap_cons, List.filterMap_nil]
  cases t.name? with
  | none => simp
  | some y => simp [or_left_comm]

/-- A statement that comes to something introduces its name, and translates
the value that it assigns. -/
theorem introduced_of_lowerTree {inFunction : Bool} {scope : Scope} {t : Tree}
    {o : Option Java.Statement} (h : lowerTree inFunction scope t = .ok o) :
    t.introduced = t.name?.toList := by
  cases t with
  | assignment line name value =>
    rw [lowerTree] at h
    obtain ⟨v, hv, -⟩ := Generated.exists_of_map_ok h
    unfold translateOn at hv
    cases htr : translate? value with
    | none =>
      rw [htr] at hv
      cases hv
    | some v => simp [Tree.introduced, Tree.name?, htr]
  | _ => rfl

namespace Place

/-- The scope that lowering has at a place of a block that starts in a
scope. -/
structure Holds (start : Scope) (p : Place) (scope : Scope) : Prop where
  types : scope.Alike (p.scope start)
  names : ∀ x, scope.sees x = true ↔ p.Visible start x

namespace Holds

variable {start scope : Scope} {p : Place} {t : Tree}

theorem top (start : Scope) : top.Holds start ([] :: start) where
  types := by
    rw [scope_top]
    exact .refl _
  names x := by
    show start.sees x = true ↔ start.sees x = true ∨ x ∈ []
    simp

/-- **After a statement lowering has the scope of the next place.** -/
theorem next (h : p.Holds start scope) (ht : t.introduced = t.name?.toList) :
    (p.next t).Holds start (introduce scope t) where
  types := by
    obtain ⟨g, outer, hp, hnext⟩ := scope_next start p t
    have htypes := h.types
    rw [hp] at htypes
    rw [hnext]
    cases htypes with
    | cons hf hrest => exact .introduce hf hrest t
  names x := by
    rw [sees_introduce, h.names, ht, Visible, Visible, mem_names_next]
    exact or_left_comm

/-- **Inside a statement lowering has the scope of a new block.** -/
theorem inside (h : p.Holds start scope) (ht : t.introduced = t.name?.toList) :
    (p.inside t).Holds start ([] :: introduce scope t) where
  types := by
    rw [scope_inside]
    exact .cons (fun _ => rfl) (h.next ht).types
  names := (h.next ht).names

end Holds
end Place

end Offside

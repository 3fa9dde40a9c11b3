/-
# Where the class introduces a name twice

In the generated code a parameter is in scope in the whole body of its method,
a declaration from its place to the end of its block, and the counter of a
`for` header throughout its loop. `Java.clashes` lists the names that
statements introduce where they are in scope already.

An assignment never makes such a clash: it declares its name only where the
name is not visible, and everything that the generated code holds is visible
(`Block.clashes_of_lowerTrees`). Nothing of the kind is asked of the counter of
a loop, of the parameters of a function, or of the parameter of the main
method, so a class is free of clashes exactly when the source keeps these
apart (`Program.clashless_iff`).

Key definitions: `Java.clashes`, `Java.Class.Clashless`, `Block.reused`,
`Block.introductions`.
Key theorems: `Java.clashes_append_eq_nil_iff`, `Block.clashes_of_lowerTrees`,
`Block.mem_introductions_of_lowerTrees`, `Program.clashless_iff`.
-/
import Offside.Proofs.Preservation

namespace Offside
namespace Java

/-! ### Scopes of the generated code -/

/-- A name, if it is in scope already. -/
def clash (scope : List Text) (name : Text) : List Text := if scope.contains name then [name] else []

/-- The names that a statement adds to the scope of the statements after it. -/
def Statement.declared : Statement → List Text
  | .declaration _ name _ => [name]
  | _ => []

mutual

/-- The names that a statement introduces where they are in scope already. -/
def Statement.clashes (scope : List Text) : Statement → List Text
  | .declaration _ name _ => clash scope name
  | .conditional branches otherwise =>
    clashesOfBranches scope branches ++ clashesOfElse scope otherwise
  | .whileLoop _ body => clashes scope body
  | .forLoop counter _ _ _ body => clash scope counter ++ clashes (counter :: scope) body
  | .assignment _ _ _ | .returned _ | .println _ | .call _ | .breakLoop | .continueLoop => []

/-- The names that the statements of a block introduce where they are in scope
already. -/
def clashes (scope : List Text) : List Statement → List Text
  | [] => []
  | s :: ss => s.clashes scope ++ clashes (s.declared ++ scope) ss

/-- The names that the branches of a conditional introduce where they are in
scope already. -/
def clashesOfBranches (scope : List Text) : List (Text × List Statement) → List Text
  | [] => []
  | (_, body) :: more => clashes scope body ++ clashesOfBranches scope more

/-- The names that the last branch of a conditional introduces where they are
in scope already. -/
def clashesOfElse (scope : List Text) : Option (List Statement) → List Text
  | none => []
  | some body => clashes scope body

end

mutual

/-- The names that a statement introduces, at any depth. -/
def Statement.introductions : Statement → List Text
  | .declaration _ name _ => [name]
  | .conditional branches otherwise => introductionsOfBranches branches ++ introductionsOfElse otherwise
  | .whileLoop _ body => introductions body
  | .forLoop counter _ _ _ body => counter :: introductions body
  | .assignment _ _ _ | .returned _ | .println _ | .call _ | .breakLoop | .continueLoop => []

/-- The names that the statements of a block introduce, at any depth. -/
def introductions : List Statement → List Text
  | [] => []
  | s :: ss => s.introductions ++ introductions ss

/-- The names that the branches of a conditional introduce. -/
def introductionsOfBranches : List (Text × List Statement) → List Text
  | [] => []
  | (_, body) :: more => introductions body ++ introductionsOfBranches more

/-- The names that the last branch of a conditional introduces. -/
def introductionsOfElse : Option (List Statement) → List Text
  | none => []
  | some body => introductions body

end

/-- The parameter of the main method. -/
def mainParameter : Text := "args"

/-- A method that introduces no name where it is in scope already. -/
def Method.Clashless (m : Method) : Prop := m.parameters.Nodup ∧ clashes m.parameters m.body = []

/-- A class that introduces no name where it is in scope already. -/
def Class.Clashless (c : Class) : Prop :=
  (∀ m ∈ c.methods, m.Clashless) ∧ clashes [mainParameter] c.main = []

instance (m : Method) : Decidable m.Clashless :=
  inferInstanceAs (Decidable (m.parameters.Nodup ∧ clashes m.parameters m.body = []))

instance (c : Class) : Decidable c.Clashless :=
  inferInstanceAs (Decidable ((∀ m ∈ c.methods, m.Clashless) ∧ clashes [mainParameter] c.main = []))

theorem clash_eq_nil_iff (scope : List Text) (name : Text) : clash scope name = [] ↔ name ∉ scope := by
  unfold clash
  by_cases h : name ∈ scope
  · simp [h]
  · simp [h]

theorem clashes_toList_append (scope : List Text) (o : Option Statement) (rest : List Statement) :
    clashes scope (o.toList ++ rest) =
      clashes scope o.toList ++ clashes (o.toList.flatMap Statement.declared ++ scope) rest := by
  cases o with
  | none => rfl
  | some s => simp [clashes]

theorem introductions_append : ∀ a b : List Statement,
    introductions (a ++ b) = introductions a ++ introductions b
  | [], _ => rfl
  | s :: a, b => by
    rw [List.cons_append, introductions, introductions, introductions_append a b, List.append_assoc]

theorem clash_append_eq_nil_iff (scope : List Text) (x name : Text) :
    clash (scope ++ [x]) name = [] ↔ clash scope name = [] ∧ x ≠ name := by
  rw [clash_eq_nil_iff, clash_eq_nil_iff, List.mem_append, List.mem_singleton, not_or]
  exact and_congr_right fun _ => ne_comm

-- One more name around a block clashes wherever the block introduces it.
mutual

theorem Statement.clashes_append_eq_nil_iff (x : Text) : ∀ (s : Statement) (scope : List Text),
    s.clashes (scope ++ [x]) = [] ↔ s.clashes scope = [] ∧ x ∉ s.introductions
  | .declaration _ name _, scope => by
    rw [Statement.clashes, Statement.clashes, Statement.introductions, List.mem_singleton]
    exact clash_append_eq_nil_iff scope x name
  | .conditional branches otherwise, scope => by
    rw [Statement.clashes, Statement.clashes, Statement.introductions, List.append_eq_nil_iff,
      List.append_eq_nil_iff, List.mem_append, not_or,
      clashesOfBranches_append_eq_nil_iff x branches scope,
      clashesOfElse_append_eq_nil_iff x otherwise scope]
    exact and_and_and_comm
  | .whileLoop _ body, scope => by
    rw [Statement.clashes, Statement.clashes, Statement.introductions]
    exact clashes_append_eq_nil_iff x body scope
  | .forLoop counter _ _ _ body, scope => by
    have hbody := clashes_append_eq_nil_iff x body (counter :: scope)
    rw [List.cons_append] at hbody
    rw [Statement.clashes, Statement.clashes, Statement.introductions, List.append_eq_nil_iff,
      List.append_eq_nil_iff, List.mem_cons, not_or, clash_append_eq_nil_iff, hbody]
    exact and_and_and_comm
  | .assignment _ _ _, _ | .returned _, _ | .println _, _ | .call _, _ | .breakLoop, _
  | .continueLoop, _ => by simp [Statement.clashes, Statement.introductions]

/-- **One more name around a block clashes exactly when the block introduces
it.** -/
theorem clashes_append_eq_nil_iff (x : Text) : ∀ (ss : List Statement) (scope : List Text),
    clashes (scope ++ [x]) ss = [] ↔ clashes scope ss = [] ∧ x ∉ introductions ss
  | [], _ => by simp [clashes, introductions]
  | s :: ss, scope => by
    have hrest := clashes_append_eq_nil_iff x ss (s.declared ++ scope)
    rw [List.append_assoc] at hrest
    rw [clashes, clashes, introductions, List.append_eq_nil_iff, List.append_eq_nil_iff,
      List.mem_append, not_or, Statement.clashes_append_eq_nil_iff x s scope, hrest]
    exact and_and_and_comm

theorem clashesOfBranches_append_eq_nil_iff (x : Text) :
    ∀ (branches : List (Text × List Statement)) (scope : List Text),
    clashesOfBranches (scope ++ [x]) branches = [] ↔
      clashesOfBranches scope branches = [] ∧ x ∉ introductionsOfBranches branches
  | [], _ => by simp [clashesOfBranches, introductionsOfBranches]
  | (_, body) :: more, scope => by
    rw [clashesOfBranches, clashesOfBranches, introductionsOfBranches, List.append_eq_nil_iff,
      List.append_eq_nil_iff, List.mem_append, not_or, clashes_append_eq_nil_iff x body scope,
      clashesOfBranches_append_eq_nil_iff x more scope]
    exact and_and_and_comm

theorem clashesOfElse_append_eq_nil_iff (x : Text) :
    ∀ (otherwise : Option (List Statement)) (scope : List Text),
    clashesOfElse (scope ++ [x]) otherwise = [] ↔
      clashesOfElse scope otherwise = [] ∧ x ∉ introductionsOfElse otherwise
  | none, _ => by simp [clashesOfElse, introductionsOfElse]
  | some body, scope => clashes_append_eq_nil_iff x body scope

end

end Java

/-! ### The names that the source introduces -/

/-- The names that a statement comes to declare. An assignment of a visible
name declares nothing. -/
def Tree.declares (visible : List Text) : Tree → List Text
  | .assignment _ name _ => if visible.contains name then [] else [name]
  | _ => []

mutual

/-- The counters of the loops of a statement that run over a name which the
generated code holds already: `visible` are the names that are visible before
the statement, `held` those of them that are in scope in the generated code. -/
def Tree.reused (visible held : List Text) : Tree → List Text
  | .conditional _ branches otherwise =>
    reusedInBranches visible held branches ++ reusedInElse visible held otherwise
  | .whileLoop _ _ body => Block.reused visible held body
  | .forLoop _ loop body =>
    Java.clash held loop.counter ++ Block.reused (loop.counter :: visible) (loop.counter :: held) body
  | .returned _ _ | .print _ _ | .call _ _ | .assignment _ _ _ | .update _ _ _ _ | .pass _
  | .breakLoop _ | .continueLoop _ | .malformed _ _ => []

/-- The counters of the loops of a block that run over a name which the
generated code holds already. -/
def Block.reused (visible held : List Text) : List Tree → List Text
  | [] => []
  | t :: ts =>
    t.reused visible held ++ Block.reused (t.name?.toList ++ visible) (t.declares visible ++ held) ts

/-- The counters in the branches of a conditional that are held already. -/
def reusedInBranches (visible held : List Text) : List (Text × List Tree) → List Text
  | [] => []
  | (_, body) :: more => Block.reused visible held body ++ reusedInBranches visible held more

/-- The counters in the last branch of a conditional that are held already. -/
def reusedInElse (visible held : List Text) : Option (List Tree) → List Text
  | none => []
  | some body => Block.reused visible held body

end

mutual

/-- The names that a statement assigns or loops over, at any depth. -/
def Tree.introductions : Tree → List Text
  | .conditional _ branches otherwise => introductionsOfBranches branches ++ introductionsOfElse otherwise
  | .whileLoop _ _ body => Block.introductions body
  | .forLoop _ loop body => loop.counter :: Block.introductions body
  | .assignment _ name _ => [name]
  | .returned _ _ | .print _ _ | .call _ _ | .update _ _ _ _ | .pass _ | .breakLoop _
  | .continueLoop _ | .malformed _ _ => []

/-- The names that the statements of a block assign or loop over, at any
depth. -/
def Block.introductions : List Tree → List Text
  | [] => []
  | t :: ts => t.introductions ++ Block.introductions ts

/-- The names that the branches of a conditional assign or loop over. -/
def introductionsOfBranches : List (Text × List Tree) → List Text
  | [] => []
  | (_, body) :: more => Block.introductions body ++ introductionsOfBranches more

/-- The names that the last branch of a conditional assigns or loops over. -/
def introductionsOfElse : Option (List Tree) → List Text
  | none => []
  | some body => Block.introductions body

end

/-! ### Statements that introduce nothing -/

/-- A statement that holds no block and introduces no name. -/
def Java.Statement.isInert : Java.Statement → Bool
  | .assignment _ _ _ | .returned _ | .println _ | .call _ | .breakLoop | .continueLoop => true
  | .declaration _ _ _ | .conditional _ _ | .whileLoop _ _ | .forLoop _ _ _ _ _ => false

/-- A simple statement without a name comes to one that introduces nothing, or
to none. -/
theorem isInert_of_lowerTree {inFunction : Bool} {scope : Scope} {t : Tree} {s : Java.Statement}
    (ht : t.isSimple = true) (hname : t.name? = none)
    (h : lowerTree inFunction scope t = .ok (some s)) : s.isInert = true := by
  cases t with
  | conditional | whileLoop | forLoop => cases ht
  | assignment => cases hname
  | returned line value =>
    unfold lowerTree at h
    cases inFunction with
    | false => cases h
    | true =>
      cases value with
      | none =>
        cases h
        rfl
      | some v =>
        obtain ⟨t, _, ht⟩ := Generated.exists_of_map_ok h
        cases ht
        rfl
  | print line arguments =>
    rw [lowerTree] at h
    obtain ⟨ts, _, ht⟩ := Generated.exists_of_map_ok h
    cases ht
    rfl
  | update line name operator value =>
    rw [lowerTree] at h
    split at h
    · obtain ⟨v, _, hv⟩ := Generated.exists_of_map_ok h
      cases hv
      rfl
    · cases h
  | call | breakLoop | continueLoop =>
    rw [lowerTree] at h
    cases h
    rfl
  | pass | malformed =>
    rw [lowerTree] at h
    cases h

theorem of_isInert {s : Java.Statement} (h : s.isInert = true) (scope : List Text) :
    s.clashes scope = [] ∧ s.introductions = [] ∧ s.declared = [] := by
  cases s with
  | declaration | conditional | whileLoop | forLoop => cases h
  | _ => simp [Java.Statement.clashes, Java.Statement.introductions, Java.Statement.declared]

theorem Tree.quiet_of_lowerTree {inFunction : Bool} {scope : Scope} {t : Tree}
    {o : Option Java.Statement} (ht : t.isSimple = true) (hname : t.name? = none)
    (h : lowerTree inFunction scope t = .ok o) (held : List Text) :
    Java.clashes held o.toList = [] ∧ Java.introductions o.toList = [] ∧
      o.toList.flatMap Java.Statement.declared = [] := by
  cases o with
  | none => exact ⟨rfl, rfl, rfl⟩
  | some s =>
    obtain ⟨hclash, hintro, hdeclared⟩ := of_isInert (isInert_of_lowerTree ht hname h) held
    simp [Java.clashes, Java.introductions, hclash, hintro, hdeclared]

/-- An assignment declares its name where that is not visible, and nothing
otherwise. -/
theorem exists_of_lowerTree_assignment {inFunction : Bool} {scope : Scope} {line : Nat}
    {name value : Text} {o : Option Java.Statement}
    (h : lowerTree inFunction scope (.assignment line name value) = .ok o) :
    ∃ v, o = some (if scope.sees name then .assignment name "=" v
      else .declaration (typeOf scope v) name v) := by
  rw [lowerTree] at h
  obtain ⟨v, _, rfl⟩ := Generated.exists_of_map_ok h
  exact ⟨v, rfl⟩

/-! ### Assignments make no clash -/

theorem declared_of_lowerTree {inFunction : Bool} {scope : Scope} {visible : List Text} {t : Tree}
    {o : Option Java.Statement} (hs : scope.Shows visible) (h : lowerTree inFunction scope t = .ok o) :
    o.toList.flatMap Java.Statement.declared = t.declares visible := by
  cases t with
  | conditional =>
    obtain ⟨bs, body, _, _, rfl⟩ := exists_of_lowerTree_conditional h
    rfl
  | whileLoop =>
    obtain ⟨c, ss, _, _, rfl⟩ := exists_of_lowerTree_whileLoop h
    rfl
  | forLoop =>
    obtain ⟨first, last, step, ss, _, _, rfl⟩ := exists_of_lowerTree_forLoop h
    rfl
  | assignment line name value =>
    obtain ⟨v, rfl⟩ := exists_of_lowerTree_assignment h
    rw [Tree.declares]
    by_cases hx : name ∈ visible
    · rw [if_pos ((hs name).2 hx), if_pos (List.contains_iff_mem.2 hx)]
      rfl
    · rw [if_neg (mt (hs name).1 hx), if_neg (mt List.contains_iff_mem.1 hx)]
      rfl
  | _ => exact (Tree.quiet_of_lowerTree rfl rfl h []).2.2

theorem held_next {visible held : List Text} (hh : ∀ x ∈ held, x ∈ visible) (t : Tree) :
    ∀ x ∈ t.declares visible ++ held, x ∈ t.name?.toList ++ visible := by
  intro x hx
  rw [List.mem_append] at hx ⊢
  rcases hx with hx | hx
  · cases t with
    | assignment line name value =>
      rw [Tree.declares] at hx
      split at hx
      · cases hx
      · exact .inl (by simpa [Tree.name?] using hx)
    | _ => cases hx
  · exact .inr (hh x hx)

theorem shows_next {inFunction : Bool} {scope : Scope} {visible : List Text} {t : Tree}
    {o : Option Java.Statement} (hs : scope.Shows visible) (h : lowerTree inFunction scope t = .ok o) :
    (introduce scope t).Shows (t.name?.toList ++ visible) := by
  have hnext := hs.introduce t
  rwa [introduced_of_lowerTree h] at hnext

-- What the generated code holds is visible at every place: with that an
-- assignment that declares its name cannot clash, and only counters are left.
mutual

theorem Tree.clashes_of_lowerTree {inFunction : Bool} : ∀ (t : Tree) {scope : Scope}
    {visible held : List Text} {o : Option Java.Statement}, scope.Shows visible →
    (∀ x ∈ held, x ∈ visible) → lowerTree inFunction scope t = .ok o →
    Java.clashes held o.toList = t.reused visible held
  | .conditional line branches otherwise, scope, visible, held, o, hs, hh, h => by
    obtain ⟨bs, body, hbs, hbody, rfl⟩ := exists_of_lowerTree_conditional h
    have hbranches := clashesOfBranches_of_lowerBranches branches hs hh hbs
    have helse := clashesOfElse_of_lowerElse otherwise hs hh hbody
    rw [Option.toList_some, Java.clashes, Java.clashes, List.append_nil, Java.Statement.clashes,
      hbranches, helse, Tree.reused]
  | .whileLoop line condition body, scope, visible, held, o, hs, hh, h => by
    obtain ⟨c, ss, _, hss, rfl⟩ := exists_of_lowerTree_whileLoop h
    have hbody := Block.clashes_of_lowerTrees body hs.enter hh hss
    rw [Option.toList_some, Java.clashes, Java.clashes, List.append_nil, Java.Statement.clashes,
      hbody, Tree.reused]
  | .forLoop line loop body, scope, visible, held, o, hs, hh, h => by
    obtain ⟨first, last, step, ss, _, hss, rfl⟩ := exists_of_lowerTree_forLoop h
    have hinner : ∀ x ∈ loop.counter :: held, x ∈ loop.counter :: visible :=
      List.cons_subset_cons loop.counter hh
    have hbody := Block.clashes_of_lowerTrees body (hs.declare ⟨loop.counter, .int, line⟩).enter
      hinner hss
    rw [Option.toList_some, Java.clashes, Java.clashes, List.append_nil, Java.Statement.clashes,
      hbody, Tree.reused]
  | .assignment line name value, scope, visible, held, o, hs, hh, h => by
    obtain ⟨v, rfl⟩ := exists_of_lowerTree_assignment h
    rw [Option.toList_some, Java.clashes, Java.clashes, List.append_nil, Tree.reused]
    by_cases hx : scope.sees name = true
    · rw [if_pos hx, Java.Statement.clashes]
    · rw [if_neg hx, Java.Statement.clashes, Java.clash_eq_nil_iff]
      exact fun hmem => hx ((hs name).2 (hh name hmem))
  | .returned _ _, _, _, held, _, _, _, h | .print _ _, _, _, held, _, _, _, h
  | .call _ _, _, _, held, _, _, _, h | .update _ _ _ _, _, _, held, _, _, _, h
  | .pass _, _, _, held, _, _, _, h | .breakLoop _, _, _, held, _, _, _, h
  | .continueLoop _, _, _, held, _, _, _, h | .malformed _ _, _, _, held, _, _, _, h => by
    rw [(Tree.quiet_of_lowerTree rfl rfl h held).1, Tree.reused]

/-- **Only the counters of loops clash.** -/
theorem Block.clashes_of_lowerTrees {inFunction : Bool} : ∀ (ts : List Tree) {scope : Scope}
    {visible held : List Text} {ss : List Java.Statement}, scope.Shows visible →
    (∀ x ∈ held, x ∈ visible) → gather (lowerTrees inFunction scope ts) = .ok ss →
    Java.clashes held ss = Block.reused visible held ts
  | [], scope, visible, held, ss, hs, hh, h => by
    cases h
    rfl
  | t :: ts, scope, visible, held, ss, hs, hh, h => by
    obtain ⟨o, rest, ht, hts, rfl⟩ := exists_of_gather_cons h
    have hfirst := Tree.clashes_of_lowerTree t hs hh ht
    have hmore := Block.clashes_of_lowerTrees ts (shows_next hs ht) (held_next hh t) hts
    rw [Java.clashes_toList_append, declared_of_lowerTree hs ht, hfirst, hmore, Block.reused]

theorem clashesOfBranches_of_lowerBranches {inFunction : Bool} {line : Nat} :
    ∀ (branches : List (Text × List Tree)) {scope : Scope} {visible held : List Text}
    {bs : List (Text × List Java.Statement)}, scope.Shows visible → (∀ x ∈ held, x ∈ visible) →
    lowerBranches inFunction scope line branches = List.map Except.ok bs →
    Java.clashesOfBranches held bs = reusedInBranches visible held branches
  | [], scope, visible, held, bs, hs, hh, h => by
    rw [List.map_eq_nil_iff.1 h.symm]
    rfl
  | (condition, body) :: more, scope, visible, held, bs, hs, hh, h => by
    obtain ⟨c, ss, bs, _, hss, hmore, rfl⟩ := exists_of_lowerBranches_cons h
    rw [Java.clashesOfBranches, reusedInBranches, Block.clashes_of_lowerTrees body hs.enter hh hss,
      clashesOfBranches_of_lowerBranches more hs hh hmore]

theorem clashesOfElse_of_lowerElse {inFunction : Bool} : ∀ (otherwise : Option (List Tree))
    {scope : Scope} {visible held : List Text} {body : Option (List Java.Statement)},
    scope.Shows visible → (∀ x ∈ held, x ∈ visible) →
    lowerElse inFunction scope otherwise = .ok body →
    Java.clashesOfElse held body = reusedInElse visible held otherwise
  | none, scope, visible, held, body, hs, hh, h => by
    cases h
    rfl
  | some ts, scope, visible, held, body, hs, hh, h => by
    obtain ⟨ss, hss, rfl⟩ := Generated.exists_of_map_ok h
    exact Block.clashes_of_lowerTrees ts hs.enter hh hss

end

/-! ### Names that are introduced somewhere -/

theorem sees_introduce_of_not_mem {scope : Scope} {t : Tree} {x : Text} (hx : scope.sees x = false)
    (ht : x ∉ t.introductions) : (introduce scope t).sees x = false := by
  have hnot : x ∉ t.introduced := by
    cases t with
    | forLoop line loop body =>
      rw [Tree.introductions, List.mem_cons, not_or] at ht
      simpa [Tree.introduced] using ht.1
    | assignment line name value =>
      rw [Tree.introductions] at ht
      rw [Tree.introduced]
      split
      · exact ht
      · simp
    | _ => simp [Tree.introduced]
  rw [Bool.eq_false_iff, ne_eq, sees_introduce, hx]
  simp [hnot]

-- Of all the places where an unseen name is introduced, the first one declares
-- it or loops over it.
mutual

theorem Tree.mem_introductions_of_lowerTree {inFunction : Bool} {x : Text} : ∀ (t : Tree)
    {scope : Scope} {o : Option Java.Statement}, scope.sees x = false →
    lowerTree inFunction scope t = .ok o → (x ∈ Java.introductions o.toList ↔ x ∈ t.introductions)
  | .conditional line branches otherwise, scope, o, hx, h => by
    obtain ⟨bs, body, hbs, hbody, rfl⟩ := exists_of_lowerTree_conditional h
    rw [Option.toList_some, Java.introductions, Java.introductions, List.append_nil,
      Java.Statement.introductions, Tree.introductions, List.mem_append, List.mem_append,
      mem_introductionsOfBranches branches hx hbs, mem_introductionsOfElse otherwise hx hbody]
  | .whileLoop line condition body, scope, o, hx, h => by
    obtain ⟨c, ss, _, hss, rfl⟩ := exists_of_lowerTree_whileLoop h
    have hinner : Scope.sees ([] :: scope) x = false := hx
    rw [Option.toList_some, Java.introductions, Java.introductions, List.append_nil,
      Java.Statement.introductions, Tree.introductions]
    exact Block.mem_introductions_of_lowerTrees body hinner hss
  | .forLoop line loop body, scope, o, hx, h => by
    obtain ⟨first, last, step, ss, _, hss, rfl⟩ := exists_of_lowerTree_forLoop h
    rw [Option.toList_some, Java.introductions, Java.introductions, List.append_nil,
      Java.Statement.introductions, Tree.introductions, List.mem_cons, List.mem_cons]
    by_cases hc : x = loop.counter
    · simp [hc]
    · have hinner : Scope.sees ([] :: scope.declare ⟨loop.counter, .int, line⟩) x = false := by
        show (scope.declare _).sees x = false
        rw [Bool.eq_false_iff, ne_eq, sees_declare, hx]
        simpa using hc
      rw [Block.mem_introductions_of_lowerTrees body hinner hss]
  | .assignment line name value, scope, o, hx, h => by
    obtain ⟨v, rfl⟩ := exists_of_lowerTree_assignment h
    rw [Option.toList_some, Java.introductions, Java.introductions, List.append_nil,
      Tree.introductions, List.mem_singleton]
    by_cases hn : scope.sees name = true
    · have hne : x ≠ name := by
        rintro rfl
        rw [hx] at hn
        cases hn
      simp [hn, Java.Statement.introductions, hne]
    · simp [hn, Java.Statement.introductions]
  | .returned _ _, _, _, _, h | .print _ _, _, _, _, h | .call _ _, _, _, _, h
  | .update _ _ _ _, _, _, _, h | .pass _, _, _, _, h | .breakLoop _, _, _, _, h
  | .continueLoop _, _, _, _, h | .malformed _ _, _, _, _, h => by
    rw [(Tree.quiet_of_lowerTree rfl rfl h []).2.1, Tree.introductions]

/-- **The generated code introduces the unseen names that the source
introduces.** -/
theorem Block.mem_introductions_of_lowerTrees {inFunction : Bool} {x : Text} : ∀ (ts : List Tree)
    {scope : Scope} {ss : List Java.Statement}, scope.sees x = false →
    gather (lowerTrees inFunction scope ts) = .ok ss →
    (x ∈ Java.introductions ss ↔ x ∈ Block.introductions ts)
  | [], scope, ss, hx, h => by
    cases h
    exact Iff.rfl
  | t :: ts, scope, ss, hx, h => by
    obtain ⟨o, rest, ht, hts, rfl⟩ := exists_of_gather_cons h
    have hfirst := Tree.mem_introductions_of_lowerTree t hx ht
    rw [Java.introductions_append, Block.introductions, List.mem_append, List.mem_append, hfirst]
    by_cases hmem : x ∈ t.introductions
    · simp [hmem]
    · rw [Block.mem_introductions_of_lowerTrees ts (sees_introduce_of_not_mem hx hmem) hts]

theorem mem_introductionsOfBranches {inFunction : Bool} {x : Text} {line : Nat} :
    ∀ (branches : List (Text × List Tree)) {scope : Scope} {bs : List (Text × List Java.Statement)},
    scope.sees x = false → lowerBranches inFunction scope line branches = List.map Except.ok bs →
    (x ∈ Java.introductionsOfBranches bs ↔ x ∈ introductionsOfBranches branches)
  | [], scope, bs, hx, h => by
    rw [List.map_eq_nil_iff.1 h.symm]
    simp [Java.introductionsOfBranches, introductionsOfBranches]
  | (condition, body) :: more, scope, bs, hx, h => by
    obtain ⟨c, ss, bs, _, hss, hmore, rfl⟩ := exists_of_lowerBranches_cons h
    have hinner : Scope.sees ([] :: scope) x = false := hx
    have hbody := Block.mem_introductions_of_lowerTrees body hinner hss
    rw [Java.introductionsOfBranches, introductionsOfBranches, List.mem_append, List.mem_append,
      hbody, mem_introductionsOfBranches more hx hmore]

theorem mem_introductionsOfElse {inFunction : Bool} {x : Text} :
    ∀ (otherwise : Option (List Tree)) {scope : Scope} {body : Option (List Java.Statement)},
    scope.sees x = false → lowerElse inFunction scope otherwise = .ok body →
    (x ∈ Java.introductionsOfElse body ↔ x ∈ introductionsOfElse otherwise)
  | none, scope, body, hx, h => by
    cases h
    simp [Java.introductionsOfElse, introductionsOfElse]
  | some ts, scope, body, hx, h => by
    obtain ⟨ss, hss, rfl⟩ := Generated.exists_of_map_ok h
    have hinner : Scope.sees ([] :: scope) x = false := hx
    exact Block.mem_introductions_of_lowerTrees ts hinner hss

end

/-! ### Classes without a clash -/

/-- The counters of a function's loops that run over a name which the method
holds already. -/
def Function.reused (f : Function) : List Text :=
  (Block.ofLines? f.body).elim [] (Block.reused f.signature.parameters f.signature.parameters)

/-- The counters of the entry point's loops that run over a name which the
main method holds already, its parameter apart. -/
def Program.reused (p : Program) : List Text :=
  (Block.ofLines? p.entryPoint).elim [] (Block.reused [] [])

/-- The names that the entry point assigns or loops over, at any depth. -/
def Program.introductions (p : Program) : List Text :=
  (Block.ofLines? p.entryPoint).elim [] Block.introductions

theorem Function.method_clashless_iff {f : Function} {m : Java.Method} (h : f.lower.value = some (.ok m)) :
    m.Clashless ↔ f.signature.parameters.Nodup ∧ f.reused = [] := by
  obtain ⟨b, hread, hm⟩ := exists_block_of_lower h
  obtain ⟨ss, hss, rfl⟩ := Generated.exists_of_map_ok hm
  have hclash := Block.clashes_of_lowerTrees b
    (shows_parameters f.line f.signature.parameters).enter (fun x hx => hx) hss
  rw [Java.Method.Clashless, hclash, reused, hread, Option.elim_some]

/-- The methods of a class are free of clashes exactly when their functions
keep their names apart. -/
theorem Function.methods_clashless_iff {fs : List Function} {ms : List Java.Method}
    (h : List.Forall₂ (fun f m => f.lower.value = some (.ok m)) fs ms) :
    (∀ m ∈ ms, m.Clashless) ↔ ∀ f ∈ fs, f.signature.parameters.Nodup ∧ f.reused = [] := by
  induction h with
  | nil => simp
  | cons hm _ ih => rw [List.forall_mem_cons, List.forall_mem_cons, method_clashless_iff hm, ih]

theorem Program.main_clashes_eq_nil_iff {p : Program} {ss : List Java.Statement}
    (h : p.lowerEntryPoint.value = some (.ok ss)) :
    Java.clashes [Java.mainParameter] ss = [] ↔
      p.reused = [] ∧ Java.mainParameter ∉ p.introductions := by
  rw [value_lowerEntryPoint] at h
  obtain ⟨b, hread, hss⟩ := Option.map_eq_some_iff.1 h
  rw [lowerBlock] at hss
  have hheld : ∀ x ∈ ([] : List Text), x ∈ ([] : List Text) := fun _ h => h
  have hunseen : Scope.sees [[]] Java.mainParameter = false := rfl
  have hclash := Block.clashes_of_lowerTrees b (shows_names []).enter hheld hss
  have hmem := Block.mem_introductions_of_lowerTrees b hunseen hss
  have hone := Java.clashes_append_eq_nil_iff Java.mainParameter ss []
  rw [List.nil_append] at hone
  rw [hone, hclash, hmem, reused, introductions, hread, Option.elim_some, Option.elim_some]
  rfl

/-- **When a class introduces no name twice.** A class is free of clashes
exactly when no function has two equal parameters, no loop runs over a name
that the generated code holds at its place (a parameter, a variable declared
earlier in an open block, the counter of a loop around it), and the entry
point neither assigns the parameter of the main method nor loops over it. -/
theorem Program.clashless_iff {p : Program} {c : Java.Class} (h : p.lower.value = some (.ok c)) :
    c.Clashless ↔
      (∀ f ∈ p.functions.values, f.signature.parameters.Nodup ∧ f.reused = []) ∧
        p.reused = [] ∧ Java.mainParameter ∉ p.introductions := by
  obtain ⟨hmethods, hmain⟩ := forall₂_methods h
  rw [Java.Class.Clashless, main_clashes_eq_nil_iff hmain]
  exact and_congr_left fun _ => Function.methods_clashless_iff hmethods

theorem Program.exists_of_check {p : Program} {check : Java.Class → Bool}
    (h : p.lower.value.any (fun g => g.toOption.any check) = true) :
    ∃ c, p.lower.value = some (.ok c) ∧ check c = true :=
  Run.exists_of_check h

/-- The same names in branches beside each other, in loops after each other and
in a function and the entry point. -/
def separate : Text :=
  "def f(a):\n    for i in range(a):\n        b = i\n    for j in range(a):\n        b = j\n    return a
a = 1\nif a > 0:\n    b = 1\nelse:\n    b = 2\nfor b in range(a):\n    pass".toList

theorem Program.clashless_iff_separate :
    ∃ c, (Program.ofLines (linesOf separate)).lower.value = some (.ok c) ∧ c.Clashless := by
  have hok : (Program.ofLines (linesOf separate)).lower.value.any
      (fun g => g.toOption.any fun _ => true) = true := by decide +kernel
  obtain ⟨c, hc, -⟩ := Program.exists_of_check hok
  exact ⟨c, hc, (clashless_iff hc).2 (by decide +kernel)⟩

/-- A program that comes to a class which introduces a name twice. -/
def Program.Clashes (p : Program) : Prop := ∃ c, p.lower.value = some (.ok c) ∧ ¬ c.Clashless

/-- Each of the three conditions is needed: a loop over a name that has been
declared, an assignment of the main method's parameter, and two equal
parameters are converted to classes that introduce the name twice. -/
theorem Program.clashes_of_loop_main_parameters :
    (Program.ofLines (linesOf "i = 1\nfor i in range(3):\n    print(i)\n")).Clashes ∧
      (Program.ofLines (linesOf "args = 1\n")).Clashes ∧
      (Program.ofLines (linesOf "def f(a, a):\n    return a\n")).Clashes := by
  have hclashes : ∀ p : Program,
      p.lower.value.any (fun g => g.toOption.any fun c => decide (¬ c.Clashless)) = true → p.Clashes := by
    intro p hp
    obtain ⟨c, hc, hcheck⟩ := Program.exists_of_check hp
    exact ⟨c, hc, of_decide_eq_true hcheck⟩
  exact ⟨hclashes _ (by decide +kernel), hclashes _ (by decide +kernel), hclashes _ (by decide +kernel)⟩

end Offside

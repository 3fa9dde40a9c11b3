/-
# What the parts of a block become

The items of generated code are its statements in the order in which they are
printed, each with the number of blocks around it; the branches of a
conditional are items of their own, so that one item stands for one line of the
source. Each part of a block but a `pass` becomes one item, at the same depth
and in the same order. Which assignment declares its name, and with which type,
goes by what is visible at its place.

Key definitions: `Java.Item`, `Java.items`, `Part.Becomes`, `Block.emitted`.
Key theorems: `Java.items_append`, `Block.forall₂_emitted`,
`Block.assignment_emitted`.
-/
import Offside.Proofs.Scoping

namespace Offside

/-! ### Generated statements in a row -/

namespace Java

/-- A generated statement or a branch of one, without the blocks in it. -/
inductive Item where
  | declaration (type : ValueType) (name value : Text)
  | assignment (name operator value : Text)
  | ifThen (condition : Text)
  | elseIf (condition : Text)
  | orElse
  | whileLoop (condition : Text)
  | forLoop (counter start stop step : Text)
  | returned (value : Option Text)
  | println (value : Text)
  | call (text : Text)
  | breakLoop
  | continueLoop
  deriving DecidableEq, Repr

mutual

/-- The items of a statement that `depth` blocks are around. -/
def Statement.items (depth : Nat) : Statement → List (Nat × Item)
  | .declaration type name value => [(depth, .declaration type name value)]
  | .assignment name operator value => [(depth, .assignment name operator value)]
  | .conditional branches otherwise =>
    itemsOfBranches depth true branches ++ itemsOfElse depth otherwise
  | .whileLoop condition body => (depth, .whileLoop condition) :: items (depth + 1) body
  | .forLoop counter start stop step body =>
    (depth, .forLoop counter start stop step) :: items (depth + 1) body
  | .returned value => [(depth, .returned value)]
  | .println value => [(depth, .println value)]
  | .call text => [(depth, .call text)]
  | .breakLoop => [(depth, .breakLoop)]
  | .continueLoop => [(depth, .continueLoop)]

/-- The items of statements that `depth` blocks are around. -/
def items (depth : Nat) : List Statement → List (Nat × Item)
  | [] => []
  | s :: ss => s.items depth ++ items depth ss

/-- The items of the branches of a conditional, of which the first one is its
`if`. -/
def itemsOfBranches (depth : Nat) (first : Bool) : List (Text × List Statement) → List (Nat × Item)
  | [] => []
  | (condition, body) :: more =>
    (depth, if first then .ifThen condition else .elseIf condition) :: items (depth + 1) body ++
      itemsOfBranches depth false more

/-- The items of the last branch of a conditional, if it has one. -/
def itemsOfElse (depth : Nat) : Option (List Statement) → List (Nat × Item)
  | none => []
  | some body => (depth, .orElse) :: items (depth + 1) body

end

theorem items_append (depth : Nat) : ∀ a b : List Statement,
    items depth (a ++ b) = items depth a ++ items depth b
  | [], _ => rfl
  | s :: a, b => by rw [List.cons_append, items, items, items_append depth a b, List.append_assoc]

end Java

/-! ### Parts and items -/

/-- What a part becomes at a place of a block that starts in a scope. -/
inductive Part.Becomes (start : Scope) (p : Place) : Part → Java.Item → Prop where
  | ifThen {c t : Text} (ht : translate? c = some t) : Becomes start p (.ifThen c) (.ifThen t)
  | elseIf {c t : Text} (ht : translate? c = some t) : Becomes start p (.elseIf c) (.elseIf t)
  | orElse : Becomes start p .orElse .orElse
  | whileLoop {line : Nat} {c t : Text} {b : Block} (ht : translate? c = some t) :
    Becomes start p (.statement (.whileLoop line c b)) (.whileLoop t)
  | forLoop {line : Nat} {loop : RangeLoop} {b : Block} {first last step : Text}
    (hfirst : translate? loop.start = some first) (hlast : translate? loop.stop = some last)
    (hstep : translate? loop.step = some step) :
    Becomes start p (.statement (.forLoop line loop b)) (.forLoop loop.counter first last step)
  | returnNothing {line : Nat} : Becomes start p (.statement (.returned line none)) (.returned none)
  | returnValue {line : Nat} {v t : Text} (ht : translate? v = some t) :
    Becomes start p (.statement (.returned line (some v))) (.returned (some t))
  | println {line : Nat} {arguments ts : List Text} (hts : arguments.map translate? = ts.map some) :
    Becomes start p (.statement (.print line arguments)) (.println (printed ts))
  | call {line : Nat} {text : Text} : Becomes start p (.statement (.call line text)) (.call text)
  | declaration {line : Nat} {x value v : Text} (hv : translate? value = some v)
    (hx : ¬ p.Visible start x) :
    Becomes start p (.statement (.assignment line x value))
      (.declaration (typeOf (p.scope start) v) x v)
  | assignment {line : Nat} {x value v : Text} (hv : translate? value = some v)
    (hx : p.Visible start x) :
    Becomes start p (.statement (.assignment line x value)) (.assignment x "=" v)
  | update {line : Nat} {x value v : Text} {operator : Char} (hv : translate? value = some v) :
    Becomes start p (.statement (.update line x operator value)) (.assignment x [operator, '='] v)
  | breakLoop {line : Nat} : Becomes start p (.statement (.breakLoop line)) .breakLoop
  | continueLoop {line : Nat} : Becomes start p (.statement (.continueLoop line)) .continueLoop

/-- A part at its place, and the item that it becomes. -/
def Emits (start : Scope) (x : Place × Part) (i : Nat × Java.Item) : Prop :=
  i.1 = x.1.depth ∧ x.2.Becomes start x.1 i.2

/-- The parts of which something is generated. -/
def emitted (xs : List (Place × Part)) : List (Place × Part) := xs.filter fun x => !x.2.isPass

theorem forall₂_emits_append {start : Scope} {xs ys : List (Place × Part)}
    {is js : List (Nat × Java.Item)} (hxs : List.Forall₂ (Emits start) (emitted xs) is)
    (hys : List.Forall₂ (Emits start) (emitted ys) js) :
    List.Forall₂ (Emits start) (emitted (xs ++ ys)) (is ++ js) := by
  rw [emitted, List.filter_append]
  exact List.rel_append hxs hys

/-! ### Values that came to something -/

theorem translate_of_translateOn {line : Nat} {expression t : Text}
    (h : translateOn line expression = .ok t) : translate? expression = some t := by
  unfold translateOn at h
  cases htr : translate? expression with
  | none =>
    rw [htr] at h
    cases h
  | some t' =>
    rw [htr] at h
    rw [Except.ok.inj h]

theorem translate_of_all_translateOn {line : Nat} {arguments ts : List Text}
    (h : Generated.all (arguments.map (translateOn line)) = .ok ts) :
    arguments.map translate? = ts.map some := by
  have hr : ∀ g ∈ arguments.map (translateOn line), g.Reported := by
    intro g hg
    obtain ⟨a, -, rfl⟩ := List.mem_map.1 hg
    exact reported_translateOn line a
  have hall := Generated.map_ok_of_all_ok hr h
  clear hr h
  induction ts generalizing arguments with
  | nil => rw [List.map_eq_nil_iff.1 hall.symm]; rfl
  | cons t ts ih =>
    obtain ⟨a, as, rfl, ha, has⟩ := List.map_eq_cons_iff.1 hall.symm
    rw [List.map_cons, List.map_cons, translate_of_translateOn ha, ih has.symm]

theorem reported_of_mem_lowerTrees {inFunction : Bool} {g : Generated (Option Java.Statement)} :
    ∀ {ts : List Tree} {scope : Scope}, g ∈ lowerTrees inFunction scope ts → g.Reported
  | [], _, h => by cases h
  | t :: ts, scope, h => by
    rw [lowerTrees] at h
    obtain rfl | h := List.mem_cons.1 h
    · exact reported_lowerTree inFunction scope t
    · exact reported_of_mem_lowerTrees h

theorem reported_of_mem_lowerBranches {inFunction : Bool} {scope : Scope} {line : Nat}
    {g : Generated (Text × List Java.Statement)} :
    ∀ {branches : List (Text × List Tree)}, g ∈ lowerBranches inFunction scope line branches →
      g.Reported
  | [], h => by cases h
  | (condition, body) :: more, h => by
    rw [lowerBranches] at h
    obtain rfl | h := List.mem_cons.1 h
    · exact (reported_translateOn line condition).both (reported_gather _)
    · exact reported_of_mem_lowerBranches h

theorem exists_of_gather_cons {inFunction : Bool} {scope : Scope} {t : Tree} {ts : List Tree}
    {ss : List Java.Statement} (h : gather (lowerTrees inFunction scope (t :: ts)) = .ok ss) :
    ∃ o rest, lowerTree inFunction scope t = .ok o ∧
      gather (lowerTrees inFunction (introduce scope t) ts) = .ok rest ∧ ss = o.toList ++ rest := by
  obtain ⟨os, hos, rfl⟩ := Generated.exists_of_map_ok h
  have hall := Generated.map_ok_of_all_ok (fun _ hg => reported_of_mem_lowerTrees hg) hos
  rw [lowerTrees] at hall
  obtain ⟨o, os, rfl, ho, hrest⟩ := List.map_eq_cons_iff.1 hall
  refine ⟨o, os.filterMap id, ho.symm, ?_, by cases o <;> rfl⟩
  rw [gather, ← hrest, Generated.all_map_ok]
  rfl

theorem exists_of_lowerTree_conditional {inFunction : Bool} {scope : Scope} {line : Nat}
    {branches : List (Text × List Tree)} {otherwise : Option (List Tree)} {o : Option Java.Statement}
    (h : lowerTree inFunction scope (.conditional line branches otherwise) = .ok o) :
    ∃ bs body, lowerBranches inFunction scope line branches = List.map Except.ok bs ∧
      lowerElse inFunction scope otherwise = .ok body ∧ o = some (.conditional bs body) := by
  rw [lowerTree] at h
  obtain ⟨⟨bs, body⟩, hboth, rfl⟩ := Generated.exists_of_map_ok h
  obtain ⟨hbs, hbody⟩ := Generated.exists_of_both_ok hboth
  have hall := Generated.map_ok_of_all_ok (fun _ hg => reported_of_mem_lowerBranches hg) hbs
  exact ⟨bs, body, hall.symm, hbody, rfl⟩

theorem exists_of_lowerTree_whileLoop {inFunction : Bool} {scope : Scope} {line : Nat}
    {condition : Text} {body : List Tree} {o : Option Java.Statement}
    (h : lowerTree inFunction scope (.whileLoop line condition body) = .ok o) :
    ∃ c ss, translate? condition = some c ∧
      gather (lowerTrees inFunction ([] :: scope) body) = .ok ss ∧ o = some (.whileLoop c ss) := by
  rw [lowerTree] at h
  obtain ⟨⟨c, ss⟩, hboth, rfl⟩ := Generated.exists_of_map_ok h
  obtain ⟨hc, hss⟩ := Generated.exists_of_both_ok hboth
  exact ⟨c, ss, translate_of_translateOn hc, hss, rfl⟩

theorem exists_of_lowerTree_forLoop {inFunction : Bool} {scope : Scope} {line : Nat}
    {loop : RangeLoop} {body : List Tree} {o : Option Java.Statement}
    (h : lowerTree inFunction scope (.forLoop line loop body) = .ok o) :
    ∃ first last step ss, (translate? loop.start = some first ∧ translate? loop.stop = some last ∧
        translate? loop.step = some step) ∧
      gather (lowerTrees inFunction ([] :: scope.declare ⟨loop.counter, .int, line⟩) body) = .ok ss ∧
      o = some (.forLoop loop.counter first last step ss) := by
  rw [lowerTree] at h
  obtain ⟨⟨⟨first, last⟩, step, ss⟩, hboth, rfl⟩ := Generated.exists_of_map_ok h
  obtain ⟨hbounds, hrest⟩ := Generated.exists_of_both_ok hboth
  obtain ⟨hfirst, hlast⟩ := Generated.exists_of_both_ok hbounds
  obtain ⟨hstep, hss⟩ := Generated.exists_of_both_ok hrest
  exact ⟨first, last, step, ss, ⟨translate_of_translateOn hfirst, translate_of_translateOn hlast,
    translate_of_translateOn hstep⟩, hss, rfl⟩

theorem exists_of_lowerBranches_cons {inFunction : Bool} {scope : Scope} {line : Nat}
    {condition : Text} {body : List Tree} {more : List (Text × List Tree)}
    {bs : List (Text × List Java.Statement)}
    (h : lowerBranches inFunction scope line ((condition, body) :: more) = List.map Except.ok bs) :
    ∃ c ss bs', translate? condition = some c ∧
      gather (lowerTrees inFunction ([] :: scope) body) = .ok ss ∧
      lowerBranches inFunction scope line more = List.map Except.ok bs' ∧ bs = (c, ss) :: bs' := by
  obtain ⟨⟨c, ss⟩, bs', rfl, hboth, hmore⟩ := List.map_eq_cons_iff.1 h.symm
  obtain ⟨hc, hss⟩ := Generated.exists_of_both_ok hboth.symm
  exact ⟨c, ss, bs', translate_of_translateOn hc, hss, hmore.symm, rfl⟩

/-! ### A block and what is generated of it -/

/-- Whether a statement has no block in it. -/
def Tree.isSimple : Tree → Bool
  | .conditional _ _ _ | .whileLoop _ _ _ | .forLoop _ _ _ => false
  | _ => true

theorem forall₂_emits_single {start : Scope} {p : Place} {part : Part} {i : Java.Item}
    (hpass : part.isPass = false) (h : part.Becomes start p i) :
    List.Forall₂ (Emits start) (emitted [(p, part)]) [(p.depth, i)] := by
  rw [emitted, List.filter_cons_of_pos (by simp [hpass]), List.filter_nil]
  exact .cons ⟨rfl, h⟩ .nil

theorem forall₂_emits_cons {start : Scope} {p : Place} {part : Part} {i : Java.Item}
    {xs : List (Place × Part)} {is : List (Nat × Java.Item)} (hpass : part.isPass = false)
    (h : part.Becomes start p i) (hxs : List.Forall₂ (Emits start) (emitted xs) is) :
    List.Forall₂ (Emits start) (emitted ((p, part) :: xs)) ((p.depth, i) :: is) := by
  rw [emitted, List.filter_cons_of_pos (by simp [hpass])]
  exact .cons ⟨rfl, h⟩ hxs

/-- A statement without a block in it becomes one item, and a `pass` none. -/
theorem Tree.forall₂_emitted_simple {inFunction : Bool} {start scope : Scope} {p : Place} {t : Tree}
    {o : Option Java.Statement} (ht : t.isSimple = true) (hp : p.Holds start scope)
    (h : lowerTree inFunction scope t = .ok o) :
    List.Forall₂ (Emits start) (emitted (t.parts p)) (Java.items p.depth o.toList) := by
  cases t with
  | conditional | whileLoop | forLoop => cases ht
  | returned line value =>
    unfold lowerTree at h
    cases inFunction with
    | false => cases h
    | true =>
      cases value with
      | none =>
        cases h
        exact forall₂_emits_single rfl .returnNothing
      | some v =>
        obtain ⟨t, ht, rfl⟩ := Generated.exists_of_map_ok h
        exact forall₂_emits_single rfl (.returnValue (translate_of_translateOn ht))
  | print line arguments =>
    rw [lowerTree] at h
    obtain ⟨ts, hts, rfl⟩ := Generated.exists_of_map_ok h
    exact forall₂_emits_single rfl (.println (translate_of_all_translateOn hts))
  | call line text =>
    rw [lowerTree] at h
    cases h
    exact forall₂_emits_single rfl .call
  | assignment line x value =>
    rw [lowerTree] at h
    obtain ⟨v, hv, rfl⟩ := Generated.exists_of_map_ok h
    have htr := translate_of_translateOn hv
    unfold assign
    by_cases hx : p.Visible start x
    · rw [if_pos ((hp.names x).2 hx)]
      exact forall₂_emits_single rfl (.assignment htr hx)
    · rw [if_neg fun hs => hx ((hp.names x).1 hs), hp.types.typeOf_eq]
      exact forall₂_emits_single rfl (.declaration htr hx)
  | update line x operator value =>
    rw [lowerTree] at h
    by_cases hx : scope.sees x = true
    · rw [if_pos hx] at h
      obtain ⟨v, hv, rfl⟩ := Generated.exists_of_map_ok h
      exact forall₂_emits_single rfl (.update (translate_of_translateOn hv))
    · rw [if_neg hx] at h
      cases h
  | pass line =>
    rw [lowerTree] at h
    cases h
    exact .nil
  | breakLoop line =>
    rw [lowerTree] at h
    cases h
    exact forall₂_emits_single rfl .breakLoop
  | continueLoop line =>
    rw [lowerTree] at h
    cases h
    exact forall₂_emits_single rfl .continueLoop
  | malformed line problem =>
    rw [lowerTree] at h
    cases h

-- The recursion follows the trees, from place to place: `Place.Holds` is what
-- one statement leaves to the next, and an outer block to an inner one.
mutual

theorem Tree.forall₂_emitted {inFunction : Bool} {start : Scope} :
    ∀ (t : Tree) {p : Place} {scope : Scope} {o : Option Java.Statement}, p.Holds start scope →
      lowerTree inFunction scope t = .ok o →
      List.Forall₂ (Emits start) (emitted (t.parts p)) (Java.items p.depth o.toList)
  | .conditional line branches otherwise, p, scope, o, hp, h => by
    obtain ⟨bs, body, hbs, hbody, rfl⟩ := exists_of_lowerTree_conditional h
    have hinner : (p.inside (.conditional line branches otherwise)).Holds start ([] :: scope) :=
      hp.inside rfl
    have hbranches := forall₂_branches_emitted branches hinner rfl true hbs
    have helse := forall₂_else_emitted otherwise hinner rfl hbody
    rw [Tree.parts, Option.toList_some, Java.items, Java.items, List.append_nil, Java.Statement.items]
    exact forall₂_emits_append hbranches helse
  | .whileLoop line condition body, p, scope, o, hp, h => by
    obtain ⟨c, ss, hc, hss, rfl⟩ := exists_of_lowerTree_whileLoop h
    have hinner : (p.inside (.whileLoop line condition body)).Holds start ([] :: scope) :=
      hp.inside rfl
    have hbody := Block.forall₂_emitted body hinner hss
    rw [Tree.parts, Option.toList_some, Java.items, Java.items, List.append_nil, Java.Statement.items]
    exact forall₂_emits_cons rfl (.whileLoop hc) hbody
  | .forLoop line loop body, p, scope, o, hp, h => by
    obtain ⟨first, last, step, ss, ⟨hfirst, hlast, hstep⟩, hss, rfl⟩ := exists_of_lowerTree_forLoop h
    have hinner : (p.inside (.forLoop line loop body)).Holds start
        ([] :: scope.declare ⟨loop.counter, .int, line⟩) :=
      hp.inside rfl
    have hbody := Block.forall₂_emitted body hinner hss
    rw [Tree.parts, Option.toList_some, Java.items, Java.items, List.append_nil, Java.Statement.items]
    exact forall₂_emits_cons rfl (.forLoop hfirst hlast hstep) hbody
  | .returned _ _, _, _, _, hp, h | .print _ _, _, _, _, hp, h | .call _ _, _, _, _, hp, h
  | .assignment _ _ _, _, _, _, hp, h | .update _ _ _ _, _, _, _, hp, h | .pass _, _, _, _, hp, h
  | .breakLoop _, _, _, _, hp, h | .continueLoop _, _, _, _, hp, h
  | .malformed _ _, _, _, _, hp, h => Tree.forall₂_emitted_simple rfl hp h

theorem Block.forall₂_emitted {inFunction : Bool} {start : Scope} :
    ∀ (ts : List Tree) {p : Place} {scope : Scope} {ss : List Java.Statement}, p.Holds start scope →
      gather (lowerTrees inFunction scope ts) = .ok ss →
      List.Forall₂ (Emits start) (emitted (Block.parts p ts)) (Java.items p.depth ss)
  | [], p, scope, ss, hp, h => by
    cases h
    exact .nil
  | t :: ts, p, scope, ss, hp, h => by
    obtain ⟨o, rest, ht, hts, rfl⟩ := exists_of_gather_cons h
    have hfirst := Tree.forall₂_emitted t hp ht
    have hnext := hp.next (introduced_of_lowerTree ht)
    have hmore := Block.forall₂_emitted ts hnext hts
    rw [Block.parts, Java.items_append]
    exact forall₂_emits_append hfirst hmore

theorem forall₂_branches_emitted {inFunction : Bool} {start : Scope} {line : Nat} {p inner : Place} :
    ∀ (branches : List (Text × List Tree)) {scope : Scope} {bs : List (Text × List Java.Statement)},
      inner.Holds start ([] :: scope) → inner.depth = p.depth + 1 → ∀ first : Bool,
      lowerBranches inFunction scope line branches = List.map Except.ok bs →
      List.Forall₂ (Emits start) (emitted (partsOfBranches p inner first branches))
        (Java.itemsOfBranches p.depth first bs)
  | [], scope, bs, hinner, hdepth, first, h => by
    rw [List.map_eq_nil_iff.1 h.symm]
    exact .nil
  | (condition, body) :: more, scope, bs, hinner, hdepth, first, h => by
    obtain ⟨c, ss, bs, hc, hss, hmore, rfl⟩ := exists_of_lowerBranches_cons h
    have hbody := Block.forall₂_emitted body hinner hss
    have hrest := forall₂_branches_emitted more hinner hdepth false hmore
    rw [hdepth] at hbody
    have hunder := forall₂_emits_append hbody hrest
    rw [partsOfBranches, Java.itemsOfBranches, List.cons_append, List.cons_append]
    cases first with
    | false => exact forall₂_emits_cons rfl (.elseIf hc) hunder
    | true => exact forall₂_emits_cons rfl (.ifThen hc) hunder

theorem forall₂_else_emitted {inFunction : Bool} {start : Scope} {p inner : Place} :
    ∀ (otherwise : Option (List Tree)) {scope : Scope} {body : Option (List Java.Statement)},
      inner.Holds start ([] :: scope) → inner.depth = p.depth + 1 →
      lowerElse inFunction scope otherwise = .ok body →
      List.Forall₂ (Emits start) (emitted (partsOfElse p inner otherwise))
        (Java.itemsOfElse p.depth body)
  | none, scope, body, hinner, hdepth, h => by
    cases h
    exact .nil
  | some ts, scope, body, hinner, hdepth, h => by
    obtain ⟨ss, hss, rfl⟩ := Generated.exists_of_map_ok h
    have hbody := Block.forall₂_emitted ts hinner hss
    rw [hdepth] at hbody
    exact forall₂_emits_cons rfl .orElse hbody

end

/-- **A block that comes to statements comes to them part by part.** -/
theorem Block.emits_of_lowerBlock {inFunction : Bool} {start : Scope} {b : Block}
    {ss : List Java.Statement} (h : lowerBlock inFunction start b = .ok ss) :
    List.Forall₂ (Emits start) (emitted (Block.parts .top b)) (Java.items 0 ss) :=
  Block.forall₂_emitted b (.top start) h

theorem Part.Becomes.of_assignment {start : Scope} {p : Place} {line : Nat} {x value : Text}
    {i : Java.Item} (h : Part.Becomes start p (.statement (.assignment line x value)) i) :
    ∃ v, translate? value = some v ∧
      i = if p.Visible start x then .assignment x "=" v
        else .declaration (typeOf (p.scope start) v) x v := by
  cases h with
  | @declaration _ _ _ v hv hx => exact ⟨v, hv, by rw [if_neg hx]⟩
  | @assignment _ _ _ v hv hx => exact ⟨v, hv, by rw [if_pos hx]⟩

/-- **Blocks are lexical scopes.** Where a block comes to statements, each
assignment in it, at any depth, declares its name exactly when the name is not
visible at its place, with the type of its value at this place, and assigns it
otherwise. -/
theorem Block.assignment_emitted {inFunction : Bool} {start : Scope} {b : Block}
    {ss : List Java.Statement} (h : lowerBlock inFunction start b = .ok ss) :
    (emitted (Block.parts .top b)).length = (Java.items 0 ss).length ∧
      ∀ (k : Nat) (p : Place) (line : Nat) (x value : Text),
        (emitted (Block.parts .top b))[k]? = some (p, .statement (.assignment line x value)) →
        ∃ v, translate? value = some v ∧
          (Java.items 0 ss)[k]? = some (p.depth,
            if p.Visible start x then .assignment x "=" v
            else .declaration (typeOf (p.scope start) v) x v) := by
  have hall := Block.emits_of_lowerBlock h
  refine ⟨hall.length_eq, ?_⟩
  intro k p line x value hk
  -- the item at the same position is what the assignment became
  obtain ⟨hlt, hpart⟩ := List.getElem?_eq_some_iff.1 hk
  have hlt' : k < (Java.items 0 ss).length := hall.length_eq ▸ hlt
  have hemits := hall.get hlt hlt'
  simp only [List.get_eq_getElem, hpart] at hemits
  obtain ⟨hdepth, hbecomes⟩ := hemits
  obtain ⟨v, hv, hitem⟩ := hbecomes.of_assignment
  refine ⟨v, hv, ?_⟩
  rw [List.getElem?_eq_getElem hlt', ← hitem, ← hdepth]

/-- A name that is declared before a loop, inside it and after it. -/
def shadows : Block :=
  [.assignment 1 "x" "1.5",
    .forLoop 2 ⟨"i", "0", "3", "1"⟩ [.assignment 3 "y" "x", .assignment 4 "i" "y"],
    .assignment 5 "y" "i"]

/-- What `shadows` comes to in a function without parameters. -/
def shadowed : List Java.Statement :=
  [.declaration .double "x" "1.5",
    .forLoop "i" "0" "3" "1" [.declaration .double "y" "x", .assignment "i" "=" "y"],
    .declaration .int "y" "i"]

theorem Block.assignment_emitted_shadows :
    lowerBlock true [] shadows = .ok shadowed ∧
      (Java.items 0 shadowed)[2]? = some (1, .declaration .double "y" "x") := by
  have h : lowerBlock true [] shadows = .ok shadowed := rfl
  obtain ⟨v, hv, hitem⟩ := (Block.assignment_emitted h).2 2 _ 3 "y" "x" rfl
  have hx : translate? "x" = some "x" := rfl
  obtain rfl := Option.some.inj (hv.symm.trans hx)
  exact ⟨h, hitem⟩

end Offside

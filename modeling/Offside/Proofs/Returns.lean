/-
# What a function returns

The type of a method is found from the values that its body returns, at any
depth, each with the type that it has where it is returned: in the scope of
its place, the one that decides about assignments there too. No name has the
type `void`, since a name gets the type of a value or counts a loop, and no
value is `void` unless a name is. So a method is `void` exactly when its body
returns no value, and no variable is ever declared `void`.

Key definitions: `Scope.NeverVoid`, `Block.returned`, `Java.returnedValues`,
`Function.scope`.
Key theorems: `Scope.NeverVoid.atPlace`, `Block.returnTypes_eq`,
`Function.returnsAsTyped_of_method`, `returns_and_declarations`.
-/
import Mathlib.Data.List.Induction
import Offside.Proofs.Preservation

namespace Offside

/-! ### Names are never void -/

/-- No name of a scope has the type `void`. -/
def Scope.NeverVoid (scope : Scope) : Prop := ∀ f ∈ scope, ∀ s ∈ f, s.type ≠ .void

theorem Frame.mem_of_find? {f : Frame} {x : Text} {s : Symbol} (h : f.find? x = some s) : s ∈ f :=
  List.mem_of_find?_eq_some h

theorem Frame.eq_or_mem_of_mem_declare {f : Frame} {s added : Symbol} (h : s ∈ f.declare added) :
    s = added ∨ s ∈ f := by
  unfold declare at h
  split at h
  · exact .inr h
  · exact List.mem_cons.1 h

namespace Scope.NeverVoid

theorem cons {f : Frame} {scope : Scope} (hf : ∀ s ∈ f, s.type ≠ .void) (h : scope.NeverVoid) :
    NeverVoid (f :: scope) :=
  List.forall_mem_cons.2 ⟨hf, h⟩

theorem find? {x : Text} {s : Symbol} : ∀ {scope : Scope}, scope.NeverVoid → scope.find? x = some s →
    s.type ≠ .void
  | f :: scope, h, hs => by
    obtain ⟨hf, hrest⟩ := List.forall_mem_cons.1 h
    rw [Scope.find?, Option.or_eq_some_iff] at hs
    rcases hs with hs | ⟨-, hs⟩
    · exact hf s (Frame.mem_of_find? hs)
    · exact find? hrest hs

/-- **No value is void** where no name is. -/
theorem typeOf_ne {scope : Scope} (h : scope.NeverVoid) (t : Text) : typeOf scope t ≠ .void := by
  unfold typeOf
  split_ifs
  · exact nofun
  · exact nofun
  · exact nofun
  · exact nofun
  · cases hs : scope.find? t with
    | none => exact nofun
    | some s => exact h.find? hs

theorem additions {scope : Scope} (h : scope.NeverVoid) (t : Tree) :
    ∀ s ∈ t.additions scope, s.type ≠ .void := by
  intro s hs
  cases t with
  | forLoop line loop body =>
    rw [List.mem_singleton.1 hs]
    exact nofun
  | assignment line name value =>
    rw [Tree.additions] at hs
    split at hs
    · cases hs
    · rw [Option.mem_toList, Option.map_eq_some_iff] at hs
      obtain ⟨v, -, rfl⟩ := hs
      exact h.typeOf_ne v
  | _ => cases hs

theorem block {outer : Scope} (h : outer.NeverVoid) (b : Block) :
    NeverVoid (Block.additions outer b :: outer) := by
  induction b using List.reverseRecOn with
  | nil => exact h.cons nofun
  | append_singleton b t ih =>
    refine h.cons fun s hs => ?_
    rw [additions_append, List.mem_append] at hs
    exact hs.elim ((List.forall_mem_cons.1 ih).1 s) (ih.additions t s)

/-- **No name is void at a place** of a block that starts where none is. -/
theorem atPlace {start : Scope} (h : start.NeverVoid) (p : Place) : (p.scope start).NeverVoid := by
  unfold Place.scope
  induction p.blocks with
  | nil => exact h
  | cons b blocks ih => exact ih.block b

theorem nil : NeverVoid [] := nofun

theorem declareParameters (line : Nat) : ∀ (parameters : List Text) {f : Frame},
    (∀ s ∈ f, s.type ≠ .void) → ∀ s ∈ Function.declareParameters line f parameters, s.type ≠ .void
  | [], _, hf => hf
  | p :: ps, f, hf => by
    refine declareParameters line ps (f := f.declare ⟨p, .int, line⟩) fun s hs => ?_
    rcases Frame.eq_or_mem_of_mem_declare hs with rfl | hs
    · exact nofun
    · exact hf s hs

end Scope.NeverVoid

/-- The scope that the body of a function starts in. -/
def Function.scope (f : Function) : Scope := [Function.declareParameters f.line [] f.signature.parameters]

theorem Function.neverVoid_scope (f : Function) : f.scope.NeverVoid :=
  Scope.NeverVoid.nil.cons (Scope.NeverVoid.declareParameters f.line f.signature.parameters nofun)

/-! ### The values that a body returns -/

/-- The value that a part returns, as the generated code writes it. -/
def Part.returned? : Part → Option Text
  | statement (.returned _ (some v)) => translate? v
  | _ => none

/-- The values that parts return, each with its place. -/
def returnedAt (xs : List (Place × Part)) : List (Place × Text) :=
  xs.filterMap fun x => x.2.returned?.map (Prod.mk x.1)

/-- The values that a block returns, at any depth, each with its place. -/
def Block.returned (b : Block) : List (Place × Text) := returnedAt (Block.parts .top b)

/-- The types of values, each at its place of a block that starts in a
scope. -/
def typesAt (start : Scope) (xs : List (Place × Text)) : List ValueType :=
  xs.map fun x => typeOf (x.1.scope start) x.2

/-- The value that an item returns. -/
def Java.Item.returned? : Java.Item → Option Text
  | .returned value => value
  | _ => none

/-- The values that generated statements return, at any depth. -/
def Java.returnedValues (ss : List Java.Statement) : List Text :=
  (Java.items 0 ss).filterMap fun i => i.2.returned?

theorem Part.returned?_of_isPass {part : Part} (h : part.isPass = true) : part.returned? = none := by
  cases part with
  | statement t => cases t <;> first | rfl | cases h
  | _ => cases h

theorem Part.Becomes.returned?_eq {start : Scope} {p : Place} {part : Part} {i : Java.Item}
    (h : part.Becomes start p i) : i.returned? = part.returned? := by
  cases h with
  | returnValue ht => exact ht.symm
  | _ => rfl

theorem returnedAt_emitted (xs : List (Place × Part)) : returnedAt (emitted xs) = returnedAt xs := by
  rw [returnedAt, returnedAt, emitted, List.filterMap_filter]
  congr 1
  funext x
  cases h : x.2.isPass with
  | false => rfl
  | true => rw [Part.returned?_of_isPass h]; rfl

theorem returnedAt_cons (x : Place × Part) (xs : List (Place × Part)) :
    returnedAt (x :: xs) = (x.2.returned?.map (Prod.mk x.1)).toList ++ returnedAt xs := by
  rw [returnedAt, List.filterMap_cons]
  cases x.2.returned? <;> rfl

theorem returned_of_emits {start : Scope} {xs : List (Place × Part)} {is : List (Nat × Java.Item)}
    (h : List.Forall₂ (Emits start) xs is) :
    is.filterMap (fun i => i.2.returned?) = (returnedAt xs).map Prod.snd := by
  induction h with
  | nil => rfl
  | @cons x i xs is hx _ ih =>
    rw [List.filterMap_cons, hx.2.returned?_eq, ih, returnedAt_cons]
    cases x.2.returned? <;> rfl

/-- **The generated code returns the values that the block returns.** -/
theorem Block.returnedValues_of_lowerBlock {inFunction : Bool} {start : Scope} {b : Block}
    {ss : List Java.Statement} (h : lowerBlock inFunction start b = .ok ss) :
    Java.returnedValues ss = b.returned.map Prod.snd := by
  have hvalues := returned_of_emits (Block.emits_of_lowerBlock h)
  rwa [returnedAt_emitted] at hvalues

/-! ### The types of returned values -/

theorem typesAt_append (start : Scope) (xs ys : List (Place × Part)) :
    typesAt start (returnedAt (xs ++ ys)) = typesAt start (returnedAt xs) ++ typesAt start (returnedAt ys) := by
  rw [returnedAt, List.filterMap_append, typesAt, List.map_append]
  rfl

theorem Tree.returnTypes_eq_simple {start scope : Scope} {p : Place} {t : Tree} (ht : t.isSimple = true)
    (hp : p.Holds start scope) : t.returnTypes scope = typesAt start (returnedAt (t.parts p)) := by
  cases t with
  | conditional | whileLoop | forLoop => cases ht
  | returned line value =>
    cases value with
    | none => rfl
    | some v =>
      have htypes : typeOf scope = typeOf (p.scope start) := funext hp.types.typeOf_eq
      rw [Tree.returnTypes, htypes, Tree.parts, returnedAt_cons, Part.returned?]
      cases translate? v <;> rfl
  | _ => rfl

-- The recursion is that of `Tree.forall₂_emitted`: what comes to something
-- leaves the scope of the next place.
mutual

theorem Tree.returnTypes_eq {inFunction : Bool} {start : Scope} :
    ∀ (t : Tree) {p : Place} {scope : Scope} {o : Option Java.Statement}, p.Holds start scope →
      lowerTree inFunction scope t = .ok o →
      t.returnTypes scope = typesAt start (returnedAt (t.parts p))
  | .conditional line branches otherwise, p, scope, o, hp, h => by
    obtain ⟨bs, body, hbs, hbody, -⟩ := exists_of_lowerTree_conditional h
    have hinner : (p.inside (.conditional line branches otherwise)).Holds start ([] :: scope) :=
      hp.inside rfl
    rw [Tree.returnTypes, Tree.parts, typesAt_append, returnTypesOfBranches_eq branches hinner true hbs,
      returnTypesOfElse_eq otherwise hinner hbody]
  | .whileLoop line condition body, p, scope, o, hp, h => by
    obtain ⟨c, ss, -, hss, -⟩ := exists_of_lowerTree_whileLoop h
    have hinner : (p.inside (.whileLoop line condition body)).Holds start ([] :: scope) :=
      hp.inside rfl
    rw [Tree.returnTypes, Tree.parts, Block.returnTypes_eq body hinner hss]
    rfl
  | .forLoop line loop body, p, scope, o, hp, h => by
    obtain ⟨first, last, step, ss, -, hss, -⟩ := exists_of_lowerTree_forLoop h
    have hinner : (p.inside (.forLoop line loop body)).Holds start
        ([] :: scope.declare ⟨loop.counter, .int, line⟩) :=
      hp.inside rfl
    rw [Tree.returnTypes, Tree.parts, Block.returnTypes_eq body hinner hss]
    rfl
  | .returned _ _, _, _, _, hp, _ | .print _ _, _, _, _, hp, _ | .call _ _, _, _, _, hp, _
  | .assignment _ _ _, _, _, _, hp, _ | .update _ _ _ _, _, _, _, hp, _ | .pass _, _, _, _, hp, _
  | .breakLoop _, _, _, _, hp, _ | .continueLoop _, _, _, _, hp, _
  | .malformed _ _, _, _, _, hp, _ => Tree.returnTypes_eq_simple rfl hp

/-- **The types that lowering goes by are those of the returned values at their
places.** -/
theorem Block.returnTypes_eq {inFunction : Bool} {start : Scope} :
    ∀ (ts : List Tree) {p : Place} {scope : Scope} {ss : List Java.Statement}, p.Holds start scope →
      gather (lowerTrees inFunction scope ts) = .ok ss →
      returnTypes scope ts = typesAt start (returnedAt (Block.parts p ts))
  | [], _, _, _, _, _ => rfl
  | t :: ts, p, scope, ss, hp, h => by
    obtain ⟨o, rest, ht, hts, -⟩ := exists_of_gather_cons h
    have hnext := hp.next (introduced_of_lowerTree ht)
    rw [returnTypes, Block.parts, typesAt_append, Tree.returnTypes_eq t hp ht,
      Block.returnTypes_eq ts hnext hts]

theorem returnTypesOfBranches_eq {inFunction : Bool} {start : Scope} {line : Nat} {p inner : Place} :
    ∀ (branches : List (Text × List Tree)) {scope : Scope} {bs : List (Text × List Java.Statement)},
      inner.Holds start ([] :: scope) → ∀ first : Bool,
      lowerBranches inFunction scope line branches = List.map Except.ok bs →
      returnTypesOfBranches scope branches =
        typesAt start (returnedAt (partsOfBranches p inner first branches))
  | [], _, _, _, _, _ => rfl
  | (condition, body) :: more, scope, bs, hinner, first, h => by
    obtain ⟨c, ss, bs, -, hss, hmore, -⟩ := exists_of_lowerBranches_cons h
    have hhead : typesAt start (returnedAt ((p, if first then .ifThen condition else .elseIf condition) ::
        Block.parts inner body)) = typesAt start (returnedAt (Block.parts inner body)) := by
      cases first <;> rfl
    rw [returnTypesOfBranches, partsOfBranches, typesAt_append, hhead, Block.returnTypes_eq body hinner hss,
      returnTypesOfBranches_eq more hinner false hmore]

theorem returnTypesOfElse_eq {inFunction : Bool} {start : Scope} {p inner : Place} :
    ∀ (otherwise : Option (List Tree)) {scope : Scope} {body : Option (List Java.Statement)},
      inner.Holds start ([] :: scope) → lowerElse inFunction scope otherwise = .ok body →
      returnTypesOfElse scope otherwise = typesAt start (returnedAt (partsOfElse p inner otherwise))
  | none, _, _, _, _ => rfl
  | some ts, scope, body, hinner, h => by
    obtain ⟨ss, hss, -⟩ := Generated.exists_of_map_ok h
    exact Block.returnTypes_eq ts hinner hss

end

/-! ### The highest type -/

namespace ValueType

/-- The highest of some types is one of them, or there are none above `void`. -/
theorem highest_mem : ∀ ts : List ValueType, highest ts = void ∨ highest ts ∈ ts
  | [] => .inl rfl
  | t :: ts => by
    have hmax : highest (t :: ts) = max t (highest ts) := rfl
    rw [hmax, max]
    split
    · exact (highest_mem ts).imp_right (List.mem_cons_of_mem t)
    · exact .inr (List.mem_cons_self ..)

theorem highest_eq_void_iff {ts : List ValueType} (h : ∀ t ∈ ts, t ≠ void) : highest ts = void ↔ ts = [] := by
  refine ⟨fun hvoid => List.eq_nil_iff_forall_not_mem.2 fun t ht => ?_, fun hnil => by rw [hnil]; rfl⟩
  have hle := rank_le_highest ht
  rw [hvoid] at hle
  have hzero : t.rank = 0 := Nat.le_zero.1 hle
  cases t <;> first | exact h _ ht rfl | cases hzero

end ValueType

/-! ### Methods and classes -/

theorem Part.Becomes.ne_void {start : Scope} {p : Place} {part : Part} {type : ValueType} {x v : Text}
    (h : part.Becomes start p (.declaration type x v)) (hstart : start.NeverVoid) : type ≠ .void := by
  cases h with
  | declaration => exact (hstart.atPlace p).typeOf_ne v

theorem declaration_ne_void {inFunction : Bool} {start : Scope} {b : Block} {ss : List Java.Statement}
    (hstart : start.NeverVoid) (h : lowerBlock inFunction start b = .ok ss) :
    ∀ i ∈ Java.items 0 ss, ∀ x v, i.2 ≠ .declaration .void x v := by
  intro i hi x v hvoid
  obtain ⟨part, -, hemits⟩ := exists_of_mem_right (Block.emits_of_lowerBlock h) hi
  have hbecomes := hemits.2
  rw [hvoid] at hbecomes
  exact hbecomes.ne_void hstart rfl

/-- The bodies of a class: of its main method, and of the others. -/
def Java.Class.bodies (c : Java.Class) : List (List Java.Statement) :=
  c.main :: c.methods.map Java.Method.body

/-- What a method returns, going by the block that it was made of. -/
structure Function.ReturnsAsTyped (f : Function) (m : Java.Method) (b : Block) : Prop where
  /-- The method returns the values that the block returns. -/
  values : Java.returnedValues m.body = b.returned.map Prod.snd
  /-- Only a method that returns no value is `void`. -/
  void_iff : m.returns = .void ↔ Java.returnedValues m.body = []
  /-- Any other has the type of a value that it returns. -/
  attained : m.returns ≠ .void → m.returns ∈ typesAt f.scope b.returned
  /-- No value that it returns has a higher type. -/
  highest : ∀ type ∈ typesAt f.scope b.returned, type.rank ≤ m.returns.rank

/-- What making a method of a block does: it lowers the block in the scope of
the function, and takes the highest of the types that the block returns. -/
theorem Function.of_method {f : Function} {b : Block} {m : Java.Method} (h : f.method b = .ok m) :
    lowerBlock true f.scope b = .ok m.body ∧
      m.returns = ValueType.highest (returnTypes ([] :: f.scope) b) := by
  obtain ⟨ss, hss, rfl⟩ := Generated.exists_of_map_ok h
  exact ⟨hss, rfl⟩

theorem Function.returnsAsTyped_of_method {f : Function} {b : Block} {m : Java.Method}
    (h : f.method b = .ok m) : f.ReturnsAsTyped m b := by
  obtain ⟨hss, hreturns⟩ := of_method h
  have hvalues : Java.returnedValues m.body = b.returned.map Prod.snd :=
    Block.returnedValues_of_lowerBlock hss
  have htypes : returnTypes ([] :: f.scope) b = typesAt f.scope b.returned :=
    Block.returnTypes_eq b (.top f.scope) hss
  have hne : ∀ type ∈ typesAt f.scope b.returned, type ≠ .void := by
    intro type htype
    obtain ⟨x, -, rfl⟩ := List.mem_map.1 htype
    exact (f.neverVoid_scope.atPlace x.1).typeOf_ne x.2
  rw [htypes] at hreturns
  refine ⟨hvalues, ?_, fun hvoid => ?_, fun type htype => ?_⟩
  · calc m.returns = .void
      _ ↔ typesAt f.scope b.returned = [] := by rw [hreturns, ValueType.highest_eq_void_iff hne]
      _ ↔ Java.returnedValues m.body = [] := by rw [hvalues, typesAt, List.map_eq_nil_iff, List.map_eq_nil_iff]
  · rw [hreturns] at hvoid ⊢
    exact (ValueType.highest_mem _).resolve_left hvoid
  · rw [hreturns]
    exact ValueType.rank_le_highest htype

/-- **Returns and declarations agree with the values.** A method is `void`
exactly when its body returns no value at any depth. Otherwise its type is the
highest of the types of the values that it returns, each in the scope of the
place where it is returned. And no variable of a class is declared `void`. -/
theorem returns_and_declarations :
    (∀ (f : Function) (m : Java.Method), f.lower.value = some (.ok m) →
      ∃ b, Block.ofLines? f.body = some b ∧ f.ReturnsAsTyped m b) ∧
    ∀ (p : Program) (c : Java.Class), p.lower.value = some (.ok c) →
      ∀ ss ∈ c.bodies, ∀ i ∈ Java.items 0 ss, ∀ x v, i.2 ≠ .declaration .void x v := by
  refine ⟨fun f m h => ?_, fun p c h => ?_⟩
  · obtain ⟨b, hread, hmethod⟩ := Function.exists_block_of_lower h
    exact ⟨b, hread, Function.returnsAsTyped_of_method hmethod⟩
  · obtain ⟨hmethods, hmain⟩ := Program.forall₂_methods h
    refine List.forall_mem_cons.2 ⟨?_, List.forall_mem_map.2 fun m hm => ?_⟩
    · rw [Program.value_lowerEntryPoint] at hmain
      obtain ⟨b, -, hss⟩ := Option.map_eq_some_iff.1 hmain
      exact declaration_ne_void .nil hss
    · obtain ⟨f, -, hf⟩ := exists_of_mem_right hmethods hm
      obtain ⟨b, -, hmethod⟩ := Function.exists_block_of_lower hf
      exact declaration_ne_void f.neverVoid_scope (Function.of_method hmethod).1

/-- A function that returns its parameter, a variable of the loop's body, and
an outer variable of the same name. -/
def mixed : Function where
  signature := ⟨"pick", ["a"]⟩
  line := 1
  body := linesOf "if a > 1:\n    return a\nwhile a < 9:\n    x = \"s\"\n    return x\nx = 0.5\nreturn x"

/-- A program of this function, which has two variables. -/
def mixing : Program := ⟨[("pick", mixed)], linesOf "y = True\nz = y\nprint(pick(z))"⟩

theorem returns_and_declarations_mixed :
    (∃ m, mixed.lower.value = some (.ok m) ∧ m.returns = .string ∧
      ∃ b, Block.ofLines? mixed.body = some b ∧ typesAt mixed.scope b.returned = [.int, .string, .double] ∧
        mixed.ReturnsAsTyped m b) ∧
    ∃ c, mixing.lower.value = some (.ok c) ∧
      ∀ ss ∈ c.bodies, ∀ i ∈ Java.items 0 ss, ∀ x v, i.2 ≠ .declaration .void x v := by
  obtain ⟨hreturns, hdeclarations⟩ := returns_and_declarations
  have hmethod : ∃ m, mixed.lower.value = some (.ok m) ∧ decide (m.returns = .string) = true :=
    Run.exists_of_check (by decide +kernel)
  have hclass : ∃ c, mixing.lower.value = some (.ok c) ∧ true = true :=
    Run.exists_of_check (by decide +kernel)
  obtain ⟨m, hm, htype⟩ := hmethod
  obtain ⟨c, hc, -⟩ := hclass
  obtain ⟨b, hb, htyped⟩ := hreturns mixed m hm
  have htypes : (Block.ofLines? mixed.body).all
      (fun b => typesAt mixed.scope b.returned = [.int, .string, .double]) = true := by decide +kernel
  rw [hb] at htypes
  exact ⟨⟨m, hm, of_decide_eq_true htype, b, hb, of_decide_eq_true htypes, htyped⟩, c, hc,
    hdeclarations mixing c hc⟩

end Offside

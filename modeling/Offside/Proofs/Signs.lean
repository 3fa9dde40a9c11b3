/-
# The sign of an assignment

An equals sign assigns if it stands in no literal and in no bracket, is left
over when the equals signs that stand side by side are taken in pairs, from
left to right, and belongs to no comparison. The reader of assignments finds
the first such sign, whatever follows it, and takes an operator before it along
(`Assignment.ofText?_eq_some_iff`). A name, an operator and a value are read
back from the line that they make up, and it is no keyword, no output and no
call before it is an assignment (`assignments_split`).

Key definitions: `Assignment.IsSign`, `Assignment.IsFirstSign`,
`Assignment.TakesOperator`, `Assignment.Spread`.
Key theorems: `Assignment.find?_eq_some_iff`, `Assignment.ofText?_eq_some_iff`,
`assignments_split`.
-/
import Offside.Proofs.Arguments
import Offside.Proofs.Shapes

namespace Offside

namespace Assignment

/-! ### Signs -/

/-- How many equals signs a text ends with. -/
def signsAtEnd (t : Text) : Nat := (t.reverse.takeWhile (· = '=')).length

/-- Whether an equals sign between `before` and `after` assigns. -/
structure IsSign (before after : Text) : Prop where
  closed : isClosed before = true
  balanced : (mask before).foldl bracketDepth 0 = 0
  /-- The signs just before it make up pairs. -/
  paired : Even (signsAtEnd before)
  /-- It makes up no pair itself. -/
  single : after.head? ≠ some '='
  /-- It belongs to no comparison. -/
  free : ∀ c ∈ before.getLast?, c ≠ '!' ∧ c ≠ '<' ∧ c ≠ '>'

/-- Whether no equals sign of `before` assigns, in a text that goes on with
`after`. -/
def Unsigned (before after : Text) : Prop :=
  ∀ earlier between, before = earlier ++ '=' :: between → ¬ IsSign earlier (between ++ after)

/-- Whether an equals sign between `before` and `after` is the first one that
assigns. -/
structure IsFirstSign (before after : Text) : Prop extends IsSign before after where
  first : Unsigned before ('=' :: after)

theorem signsAtEnd_concat (t : Text) (c : Char) :
    signsAtEnd (t ++ [c]) = if c = '=' then signsAtEnd t + 1 else 0 := by
  unfold signsAtEnd
  rw [List.reverse_append, List.reverse_singleton, List.singleton_append, List.takeWhile_cons]
  by_cases hc : c = '='
  · simp [hc]
  · simp [hc]

theorem signsAtEnd_eq_zero {t : Text} (h : ∀ c ∈ t.getLast?, c ≠ '=') : signsAtEnd t = 0 := by
  rcases List.eq_nil_or_concat t with rfl | ⟨t, c, rfl⟩
  · rfl
  · rw [List.concat_eq_append] at h ⊢
    rw [signsAtEnd_concat, if_neg (h c (by simp))]

theorem unsigned_nil (after : Text) : Unsigned [] after := by
  intro earlier between h
  exact absurd h.symm (by simp)

theorem unsigned_of_not_mem {before : Text} (h : '=' ∉ before) (after : Text) : Unsigned before after := by
  rintro earlier between rfl
  exact absurd (by simp) h

theorem Unsigned.concat {before after : Text} {c : Char} (h : Unsigned before (c :: after))
    (hc : c = '=' → ¬ IsSign before after) : Unsigned (before ++ [c]) after := by
  intro earlier between hsplit
  rcases List.eq_nil_or_concat between with rfl | ⟨between, d, rfl⟩
  · obtain ⟨rfl, hsign⟩ := List.append_inj' hsplit rfl
    exact hc (List.cons.inj hsign).1
  · have hsame : before ++ [c] = (earlier ++ '=' :: between) ++ [d] := by simpa using hsplit
    obtain ⟨hbefore, hlast⟩ := List.append_inj' hsame rfl
    obtain rfl := (List.cons.inj hlast).1
    have hnone := h earlier between hbefore
    simpa using hnone

theorem IsFirstSign.unique {before after before' after' : Text} (h : IsFirstSign before after)
    (h' : IsFirstSign before' after') (hsame : before ++ '=' :: after = before' ++ '=' :: after') :
    before = before' ∧ after = after' := by
  rcases List.append_eq_append_iff.1 hsame with ⟨between, hbefore, hafter⟩ | ⟨between, hbefore, hafter⟩
  · cases between with
    | nil => simpa [eq_comm] using And.intro hbefore hafter
    | cons c between =>
      obtain ⟨rfl, rfl⟩ := List.cons.inj hafter
      exact absurd h.toIsSign (h'.first _ _ hbefore)
  · cases between with
    | nil => simpa [eq_comm] using And.intro hbefore hafter
    | cons c between =>
      obtain ⟨rfl, rfl⟩ := List.cons.inj hafter
      exact absurd h'.toIsSign (h.first _ _ hbefore)

/-! ### What a sign takes along -/

/-- Whether the operator before a sign is `operator`, if what stands before
both is `target`. A doubled operator is none. -/
def TakesOperator (target : Text) : Option Char → Prop
  | none => ∀ c ∈ target.getLast?, c ∉ operators
  | some op => op ∈ operators ∧ ((op = '*' ∨ op = '/') → target.getLast? ≠ some op)

/-- Whether the sign between `before` and `after` makes the assignment `a`. -/
def Makes (before after : Text) (a : Assignment) : Prop :=
  ∃ target, before = target ++ a.operator.toList ∧ TakesOperator target a.operator ∧
    Text.trim target = a.target ∧ Text.trim after = a.value

theorem makes_iff_of_operator {target after : Text} {op : Char} (hop : op ∈ operators) (a : Assignment) :
    Makes (target ++ [op]) after a ↔ ((op = '*' ∨ op = '/') → target.getLast? ≠ some op) ∧
      a = ⟨Text.trim target, some op, Text.trim after⟩ := by
  obtain ⟨left, operator, right⟩ := a
  constructor
  · rintro ⟨target', hsplit, htakes, htarget, hvalue⟩
    cases operator with
    | none =>
      have hbefore : target ++ [op] = target' := by simpa using hsplit
      have hnone : op ∉ operators := htakes op (by simp [← hbefore])
      exact absurd hop hnone
    | some op' =>
      obtain ⟨rfl, hlast⟩ := List.append_inj' hsplit rfl
      obtain rfl : op = op' := (List.cons.inj hlast).1
      refine ⟨htakes.2, ?_⟩
      rw [htarget, hvalue]
  · rintro ⟨hdouble, ha⟩
    obtain ⟨rfl, rfl, rfl⟩ := Assignment.mk.inj ha
    exact ⟨target, rfl, ⟨hop, hdouble⟩, rfl, rfl⟩

theorem makes_iff_of_no_operator {before after : Text} (h : ∀ c ∈ before.getLast?, c ∉ operators)
    (a : Assignment) : Makes before after a ↔ a = ⟨Text.trim before, none, Text.trim after⟩ := by
  obtain ⟨left, operator, right⟩ := a
  constructor
  · rintro ⟨target, rfl, htakes, htarget, hvalue⟩
    cases operator with
    | none => simpa [eq_comm] using And.intro htarget hvalue
    | some op => exact absurd htakes.1 (h op (by simp))
  · intro ha
    obtain ⟨rfl, rfl, rfl⟩ := Assignment.mk.inj ha
    exact ⟨before, (List.append_nil _).symm, h, rfl, rfl⟩

theorem IsFirstSign.makes_iff {before after : Text} (h : IsFirstSign before after) (a : Assignment) :
    Makes before after a ↔ ∃ front back, before ++ '=' :: after = front ++ '=' :: back ∧
      IsFirstSign front back ∧ Makes front back a := by
  constructor
  · exact fun hmakes => ⟨before, after, rfl, h, hmakes⟩
  · rintro ⟨front, back, hsame, hfirst, hmakes⟩
    obtain ⟨rfl, rfl⟩ := h.unique hfirst hsame
    exact hmakes

theorem IsFirstSign.found_iff {before after : Text} (h : IsFirstSign before after) {a b : Assignment}
    (hmakes : Makes before after a ↔ a = b) : some b = some a ↔
      ∃ front back, before ++ '=' :: after = front ++ '=' :: back ∧ IsFirstSign front back ∧ Makes front back a := by
  rw [← h.makes_iff, hmakes]
  exact ⟨fun hsome => (Option.some.inj hsome).symm, fun ha => congrArg some ha.symm⟩

/-! ### The reader finds the first sign -/

/-- A reader is at the top exactly if what it has read ends in no literal and
in no bracket. -/
theorem atTop_after_iff (t : Text) :
    (Nesting.after {} t).atTop = true ↔ isClosed t = true ∧ (mask t).foldl bracketDepth 0 = 0 := by
  rw [Nesting.atTop, Bool.and_eq_true, Nesting.after_quote, Nesting.depth_after, beq_iff_eq, beq_iff_eq,
    isClosed, beq_iff_eq]
  exact Iff.rfl

/-- A reader at `n`, after the characters `before`, nearest first, that is not
within a pair of equals signs and has met no sign that assigns. -/
structure Searching (n : Nesting) (before rest : Text) : Prop where
  nesting : n = Nesting.after {} before.reverse
  aligned : Even (signsAtEnd before.reverse) ∨ rest.head? ≠ some '='
  unsigned : Unsigned before.reverse rest

namespace Searching

variable {n : Nesting} {before rest : Text} {c : Char}

theorem start (t : Text) : Searching {} [] t where
  nesting := rfl
  aligned := .inl Even.zero
  unsigned := unsigned_nil t

/-- A top-level sign is the first one that assigns, if it belongs to no pair
and to no comparison. -/
theorem sign (h : Searching n before (c :: rest)) (hsign : AtSign n c rest)
    (hfree : ∀ op ∈ before.head?, ¬ (op = '!' ∨ op = '<' ∨ op = '>')) :
    c = '=' ∧ IsFirstSign before.reverse rest := by
  obtain ⟨hn, rfl⟩ : n.atTop = true ∧ c = '=' := by simpa using hsign.top
  rw [h.nesting] at hn
  obtain ⟨hclosed, hbalanced⟩ := (atTop_after_iff _).1 hn
  have hpaired : Even (signsAtEnd before.reverse) := h.aligned.resolve_right (not_not_intro rfl)
  refine ⟨rfl, ⟨hclosed, hbalanced, hpaired, hsign.single, ?_⟩, h.unsigned⟩
  intro op hop
  rw [List.getLast?_reverse] at hop
  simpa [not_or] using hfree op hop

theorem pass (h : Searching n before (c :: rest)) (hsign : c = '=' → ¬ IsSign before.reverse rest)
    (haligned : c = '=' → rest.head? ≠ some '=') : Searching (n.next c) (c :: before) rest where
  nesting := by
    rw [List.reverse_cons, Nesting.after_append, ← h.nesting]
    rfl
  aligned := by
    rw [List.reverse_cons, signsAtEnd_concat]
    by_cases hc : c = '='
    · exact .inr (haligned hc)
    · rw [if_neg hc]
      exact .inl Even.zero
  unsigned := by
    rw [List.reverse_cons]
    exact h.unsigned.concat hsign

theorem low (h : Searching n before (c :: rest)) (hlow : ¬ (n.atTop && c == '=') = true)
    (hsingle : c = '=' → rest.head? ≠ some '=') : Searching (n.next c) (c :: before) rest := by
  refine h.pass ?_ hsingle
  rintro rfl hsign
  have hatTop := (atTop_after_iff _).2 ⟨hsign.closed, hsign.balanced⟩
  rw [← h.nesting] at hatTop
  exact hlow (by simp [hatTop])

/-- The sign of a comparison does not assign, and stands where it leaves the
reader. -/
theorem comparison {op : Char} {target : Text} (h : Searching n (op :: target) (c :: rest))
    (hsign : AtSign n c rest) (hop : op = '!' ∨ op = '<' ∨ op = '>') :
    Searching n (c :: op :: target) rest := by
  have hnone : ¬ IsSign (op :: target).reverse rest := by
    intro hassigns
    have hfree := hassigns.free op (by simp)
    simp [hfree] at hop
  have hnext : n.next c = n := by
    obtain ⟨⟨hquote, -⟩, rfl⟩ : (n.quote = .outside ∧ n.depth = 0) ∧ c = '=' := by
      simpa [Nesting.atTop] using hsign.top
    exact Nesting.next_of_isNeutral hquote (by decide)
  have hpassed := h.pass (fun _ => hnone) fun _ => hsign.single
  rwa [hnext] at hpassed

theorem pair (h : Searching n before ('=' :: '=' :: rest)) :
    Searching ((n.next '=').next '=') ('=' :: '=' :: before) rest := by
  have hpaired : Even (signsAtEnd before.reverse) := h.aligned.resolve_right (not_not_intro rfl)
  have hodd : ¬ Even (signsAtEnd ('=' :: before).reverse) := by
    rw [List.reverse_cons, signsAtEnd_concat, if_pos rfl, Nat.even_add_one]
    exact not_not_intro hpaired
  have hfirst : Unsigned ('=' :: before).reverse ('=' :: rest) := by
    rw [List.reverse_cons]
    exact h.unsigned.concat fun _ hsign => hsign.single rfl
  refine ⟨?_, .inl ?_, ?_⟩
  · rw [List.reverse_cons, List.reverse_cons, Nesting.after_append, Nesting.after_append, ← h.nesting]
    rfl
  · rw [List.reverse_cons, signsAtEnd_concat, if_pos rfl, Nat.even_add_one]
    exact hodd
  · rw [List.reverse_cons]
    exact hfirst.concat fun _ hsign => hodd hsign.paired

end Searching

/-- **The reader finds the first sign that assigns, and what it makes.** -/
theorem find?_eq_some_iff {n : Nesting} {before rest : Text} (h : Searching n before rest) (a : Assignment) :
    find? n before rest = some a ↔ ∃ front back, before.reverse ++ rest = front ++ '=' :: back ∧
      IsFirstSign front back ∧ Makes front back a := by
  induction n, before, rest using induction_find? with
  | finish n before hfind =>
    rw [hfind, List.append_nil]
    constructor
    · exact fun hnone => absurd hnone (by simp)
    · rintro ⟨front, back, hsplit, hfirst, -⟩
      have hnone := h.unsigned front back hsplit
      rw [List.append_nil] at hnone
      exact absurd hfirst.toIsSign hnone
  | pair n before rest hfind ih =>
    have hsame : ('=' :: '=' :: before).reverse ++ rest = before.reverse ++ '=' :: '=' :: rest := by simp
    rw [hfind, ih h.pair, hsame]
  | start n c rest hsign hfind =>
    obtain ⟨rfl, hfirst⟩ := h.sign hsign (by simp)
    rw [hfind]
    exact hfirst.found_iff (makes_iff_of_no_operator (by simp) a)
  | comparison n op c target rest hsign hop hfind ih =>
    have hsame : (c :: op :: target).reverse ++ rest = (op :: target).reverse ++ c :: rest := by simp
    rw [hfind, ih (h.comparison hsign hop), hsame]
  | doubled n op c target rest hsign hop hoperator hdouble hfind =>
    obtain ⟨rfl, hfirst⟩ := h.sign hsign (by simpa using hop)
    rw [hfind, ← hfirst.makes_iff, List.reverse_cons, makes_iff_of_operator hoperator]
    constructor
    · exact fun hnone => absurd hnone (by simp)
    · rintro ⟨hsingle, -⟩
      have hlast := hsingle hdouble.1
      rw [List.getLast?_reverse] at hlast
      exact absurd hdouble.2 hlast
  | update n op c target rest hsign hop hoperator hdouble hfind =>
    obtain ⟨rfl, hfirst⟩ := h.sign hsign (by simpa using hop)
    have hsingle : (op = '*' ∨ op = '/') → target.reverse.getLast? ≠ some op := by
      intro hop hlast
      rw [List.getLast?_reverse] at hlast
      exact hdouble ⟨hop, hlast⟩
    rw [hfind, List.reverse_cons]
    rw [List.reverse_cons] at hfirst
    exact hfirst.found_iff ((makes_iff_of_operator hoperator a).trans (and_iff_right hsingle))
  | plain n op c target rest hsign hop hoperator hfind =>
    obtain ⟨rfl, hfirst⟩ := h.sign hsign (by simpa using hop)
    have hnone : ∀ d ∈ (op :: target).reverse.getLast?, d ∉ operators := by
      intro d hd
      obtain rfl : op = d := by simpa using hd
      exact hoperator
    rw [hfind]
    exact hfirst.found_iff (makes_iff_of_no_operator hnone a)
  | pass n c before rest hlow hsingle hfind ih =>
    have hsame : (c :: before).reverse ++ rest = before.reverse ++ c :: rest := by simp
    rw [hfind, ih (h.low hlow hsingle), hsame]

theorem ofText?_eq_some_iff (t : Text) (a : Assignment) : ofText? t = some a ↔
    ∃ before after, t = before ++ '=' :: after ∧ IsFirstSign before after ∧ Makes before after a :=
  find?_eq_some_iff (Searching.start t) a

/-! ### What an assignment is split into -/

/-- Whether a text is the assignment `a`, with white space around and between
its parts, at the first sign of it. -/
structure Spread (a : Assignment) (t front gap space back : Text) : Prop where
  text : t = front ++ a.target ++ gap ++ a.operator.toList ++ '=' :: (space ++ a.value ++ back)
  blank : ∀ c ∈ front ++ gap ++ space ++ back, isBlank c = true
  target : Text.IsTrimmed a.target
  value : Text.IsTrimmed a.value
  sign : IsFirstSign (front ++ a.target ++ gap ++ a.operator.toList) (space ++ a.value ++ back)
  operator : TakesOperator (front ++ a.target ++ gap) a.operator

/-- **A line is split at its first sign, and only white space is left out.** -/
theorem ofText?_eq_some_iff_spread (t : Text) (a : Assignment) :
    ofText? t = some a ↔ ∃ front gap space back, a.Spread t front gap space back := by
  rw [ofText?_eq_some_iff]
  constructor
  · rintro ⟨before, after, rfl, hsign, target, rfl, htakes, htarget, hvalue⟩
    obtain ⟨htrimmed, front, gap, rfl, hfront, hgap⟩ := Text.trim_eq_iff.1 htarget
    obtain ⟨htrimmed', space, back, rfl, hspace, hback⟩ := Text.trim_eq_iff.1 hvalue
    refine ⟨front, gap, space, back, rfl, ?_, htrimmed, htrimmed', hsign, htakes⟩
    simpa [or_imp, forall_and] using ⟨hfront, hgap, hspace, hback⟩
  · rintro ⟨front, gap, space, back, h⟩
    obtain ⟨hfront, hgap, hspace, hback⟩ : (∀ c ∈ front, isBlank c = true) ∧ (∀ c ∈ gap, isBlank c = true) ∧
        (∀ c ∈ space, isBlank c = true) ∧ ∀ c ∈ back, isBlank c = true := by
      simpa [or_imp, forall_and] using h.blank
    refine ⟨_, _, h.text, h.sign, _, rfl, h.operator, ?_, ?_⟩
    · exact Text.trim_eq_iff.2 ⟨h.target, front, gap, rfl, hfront, hgap⟩
    · exact Text.trim_eq_iff.2 ⟨h.value, space, back, rfl, hspace, hback⟩

/-! ### Assignments as they are written -/

/-- An assignment as it is written, with a space behind the target and one
before the value. -/
def written (a : Assignment) : Text := a.target ++ [' '] ++ a.operator.toList ++ '=' :: ' ' :: a.value

/-- Whether an assignment gives a name a trimmed value, with one of the
operators if any. -/
structure Regular (a : Assignment) : Prop where
  target : isName a.target = true
  operator : ∀ op ∈ a.operator, op ∈ operators
  value : Text.IsTrimmed a.value

namespace Regular

variable {a : Assignment}

theorem neutral (h : Regular a) :
    ∀ c ∈ a.target ++ [' '] ++ a.operator.toList, isNeutral c = true ∧ c ≠ '=' := by
  have hoperators : ∀ op ∈ operators, isNeutral op = true ∧ op ≠ '=' := by
    have hall : (operators.all fun op => isNeutral op && op != '=') = true := by decide
    simpa only [List.all_eq_true, Bool.and_eq_true, bne_iff_ne] using hall
  intro c hc
  rw [List.mem_append, List.mem_append, List.mem_singleton, Option.mem_toList] at hc
  rcases hc with (hc | rfl) | hc
  · refine ⟨isNeutral_of_isNameChar (((isName_iff _).1 h.target).2 c hc), ?_⟩
    rintro rfl
    exact not_mem_of_isName h.target (by decide) hc
  · decide
  · exact hoperators c (h.operator c hc)

/-- **The sign of a written assignment is the first one.** -/
theorem isFirstSign (h : Regular a) (after : Text) :
    IsFirstSign (a.target ++ [' '] ++ a.operator.toList) (' ' :: after) := by
  have hneutral := h.neutral
  have hunsigned : '=' ∉ a.target ++ [' '] ++ a.operator.toList := fun hmem => (hneutral _ hmem).2 rfl
  have hafter := (Nesting.after_neutral (n := {}) rfl fun c hc => (hneutral c hc).1).1
  have htop : (Nesting.after {} (a.target ++ [' '] ++ a.operator.toList)).atTop = true := by
    rw [hafter]
    rfl
  obtain ⟨hclosed, hbalanced⟩ := (atTop_after_iff _).1 htop
  have hlast : ∀ c ∈ (a.target ++ [' '] ++ a.operator.toList).getLast?, c ∈ ' ' :: operators := by
    cases hop : a.operator with
    | none => simp
    | some op => simp [h.operator op hop]
  have hspace : ∀ c ∈ ' ' :: operators, c ≠ '=' ∧ c ≠ '!' ∧ c ≠ '<' ∧ c ≠ '>' := by
    have hall : ((' ' :: operators).all fun c => c != '=' && (c != '!' && (c != '<' && c != '>'))) = true := by
      decide
    simpa only [List.all_eq_true, Bool.and_eq_true, bne_iff_ne] using hall
  have hpaired : Even (signsAtEnd (a.target ++ [' '] ++ a.operator.toList)) := by
    rw [signsAtEnd_eq_zero fun c hc => (hspace c (hlast c hc)).1]
    exact Even.zero
  exact ⟨⟨hclosed, hbalanced, hpaired, by simp, fun c hc => (hspace c (hlast c hc)).2⟩,
    unsigned_of_not_mem hunsigned _⟩

/-- **A written assignment is read back.** -/
theorem ofText?_written (h : Regular a) : ofText? a.written = some a := by
  have hspace : isBlank ' ' = true := by decide
  have hblank : ∀ c ∈ ([] : Text) ++ [' '] ++ [' '] ++ [], isBlank c = true := by simp [hspace]
  have htakes : TakesOperator (a.target ++ [' ']) a.operator := by
    cases hop : a.operator with
    | none => simp [TakesOperator, operators]
    | some op =>
      refine ⟨h.operator op hop, fun hdouble hlast => ?_⟩
      obtain rfl : ' ' = op := by simpa using hlast
      revert hdouble
      decide
  refine (ofText?_eq_some_iff_spread _ a).2 ⟨[], [' '], [' '], [], ?_⟩
  refine ⟨?_, hblank, isTrimmed_of_isName h.target, h.value, ?_, ?_⟩
  · simp [written]
  · simpa using h.isFirstSign a.value
  · simpa using htakes

end Regular
end Assignment

/-! ### The kind of a written assignment -/

/-- A text in which an equals sign stands before every parenthesis is no call. -/
theorem not_isCall_of_sign {before after : Text} (h : '(' ∉ before) : ¬ isCall (before ++ '=' :: after) = true := by
  intro hcall
  obtain ⟨name, gap, args, hname, hgap, hsame⟩ := (isCall_iff _).1 hcall
  have hsign : '=' ∉ name ++ gap := by
    rw [List.mem_append, not_or]
    refine ⟨not_mem_of_isName hname (by decide), fun hmem => ?_⟩
    exact absurd (hgap _ hmem) (by decide)
  rcases List.append_eq_append_iff.1 hsame with ⟨between, hfront, hback⟩ | ⟨between, hfront, hback⟩
  · cases between with
    | nil => exact absurd (List.cons.inj hback).1 (by decide)
    | cons c between =>
      obtain rfl := (List.cons.inj hback).1
      exact hsign (by simp [hfront])
  · cases between with
    | nil => exact absurd (List.cons.inj hback).1 (by decide)
    | cons c between =>
      obtain rfl := (List.cons.inj hback).1
      exact h (by simp [hfront])

/-- **A written assignment to a name that is no keyword is of the kind that its
sides give.** -/
theorem Assignment.Regular.ofText_written {a : Assignment} (h : a.Regular) (hkeyword : a.target ∉ keywords) :
    Line.Kind.ofText a.written = Line.Kind.ofAssignment a := by
  have hopen : '(' ∉ a.target ++ [' '] ++ a.operator.toList := by
    intro hmem
    exact absurd (h.neutral _ hmem).1 (by decide)
  have hcall : ¬ isCall a.written = true := not_isCall_of_sign hopen
  have hfirst : firstWord a.written = a.target := by
    have hspace : isNameChar ' ' = false := by decide
    rw [Assignment.written, List.append_assoc, List.append_assoc]
    exact firstWord_append ((isName_iff _).1 h.target).2 (by simp [hspace])
  have hnone : Line.Kind.byFirstWord.lookup a.target = none := (Line.Kind.lookup_eq_none_iff _).2 hkeyword
  have hprint : ¬ (callArguments? "print" a.written).isSome = true := by
    intro hsome
    obtain ⟨args, hargs⟩ := Option.isSome_iff_exists.1 hsome
    obtain ⟨gap, hgap, hwritten⟩ := callArguments?_eq_some_iff.1 hargs
    exact hcall ((isCall_iff _).2 ⟨_, gap, args, by decide, hgap, hwritten⟩)
  have hwhole : Line.Kind.byWholeText.lookup a.written = none :=
    Line.Kind.lookup_eq_none_of_mem (c := ' ') (by decide) (by simp [Assignment.written])
  rw [Line.Kind.ofText_eq, hfirst, hnone, Option.getD_none, if_neg hprint, hwhole, Option.getD_none,
    Line.Kind.ofShape, if_neg hcall, h.ofText?_written]
  exact if_pos h.target

/-- **Assignments are split and sorted exactly.** What a line is split into
makes up the line, with only white space besides, and what it is split at is its
first sign that assigns. An assignment of a trimmed value to a name is read back
from the line that it makes up, whatever the value holds; the line is of the
kind that its sides give, unless the name is a keyword. -/
theorem assignments_split :
    (∀ (t : Text) (a : Assignment), Assignment.bySlices? t = some (some a) ↔
      ∃ front gap space back, a.Spread t front gap space back) ∧
    ∀ a : Assignment, a.Regular →
      Assignment.bySlices? a.written = some (some a) ∧
      (a.target ∉ keywords → Line.Kind.ofText a.written =
        match Collection.find? a.value with
        | some kind => .collection kind
        | none => if a.operator.isSome then .update else .assignment) := by
  refine ⟨fun t a => ?_, fun a h => ⟨?_, h.ofText_written⟩⟩
  · rw [Assignment.bySlices?_eq, Option.some_inj]
    exact Assignment.ofText?_eq_some_iff_spread t a
  · rw [Assignment.bySlices?_eq, h.ofText?_written]

/-- A value that holds a call, a comparison and a literal with a sign in it, and
a line with a comparison on either side of its sign. -/
theorem assignments_split_crowded :
    Assignment.bySlices? "count *= f(n == 1, \"= (\") <= m" =
      some (some ⟨"count", some '*', "f(n == 1, \"= (\") <= m"⟩) ∧
    Line.Kind.ofText "count *= f(n == 1, \"= (\") <= m" = .collection .tuple ∧
    ∃ front gap space back, Assignment.Spread ⟨"a == b[i=0] != c", none, "\"=\" >= d"⟩
      " a == b[i=0] != c=\"=\" >= d" front gap space back := by
  obtain ⟨hspread, hwritten⟩ := assignments_split
  have hoperator : ∀ op ∈ some '*', op ∈ Assignment.operators := by
    rintro op ⟨⟩
    decide
  obtain ⟨hread, hkind⟩ := hwritten ⟨"count", some '*', "f(n == 1, \"= (\") <= m"⟩
    ⟨by decide, hoperator, by decide⟩
  have hcollection : Collection.find? "f(n == 1, \"= (\") <= m" = some .tuple := by decide +kernel
  have hkind := hkind (by decide)
  rw [hcollection] at hkind
  exact ⟨hread, hkind, (hspread _ _).1 (by decide +kernel)⟩

end Offside

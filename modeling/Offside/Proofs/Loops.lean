/-
# Loops over ranges

The header of a loop is cut at its first ` in `, which comes after the counter
and white space, and has no other place: a name holds no space, and white space
holds no `i` (`Text.cut?_in`). Behind it stands one call of `range`, and a colon
at the very end. So nothing in the arguments is taken for a part of the header
(`RangeLoop.cutHeader?_eq_some_iff`).

Key definitions: `RangeLoop.header`, `RangeLoop.RangesOver`,
`RangeLoop.Heads`.
Key theorems: `RangeLoop.cutHeader?_eq_some_iff`, `RangeLoop.Heads.ofText?_eq`,
`RangeLoop.exists_heads_of_ofText`, `ranges_read`.
-/
import Offside.Proofs.Arguments
import Offside.Proofs.Shapes

namespace Offside

/-! ### The first ` in ` -/

namespace Text

theorem cut?_in_blanks (after : Text) : ∀ {gap : Text}, (∀ c ∈ gap, isBlank c = true) →
    cut? " in " (gap ++ (" in ".toList ++ after)) = some (gap, after)
  | [], _ => cut?_self_append _ _
  | c :: gap, h => by
    obtain ⟨-, hgap⟩ := List.forall_mem_cons.1 h
    have ih := cut?_in_blanks after hgap
    -- what comes next is white space too, and no `i`
    have hnext : ∃ d more, gap ++ (" in ".toList ++ after) = d :: more ∧ 'i' ≠ d := by
      cases gap with
      | nil => exact ⟨' ', "in ".toList ++ after, rfl, by decide⟩
      | cons d gap =>
        refine ⟨d, _, rfl, ?_⟩
        rintro rfl
        exact absurd (hgap 'i' (List.mem_cons_self ..)) (by decide)
    obtain ⟨d, more, hmore, hd⟩ := hnext
    have hprefix : " in ".toList.isPrefixOf? (c :: d :: more) = none := by
      change (if ' ' == c then (if 'i' == d then _ else none) else none) = none
      rw [beq_eq_false_iff_ne.2 hd]
      simp
    rw [List.cons_append, cut?, ih, hmore, hprefix]
    rfl

/-- **A header is cut behind a name and the white space after it.** -/
theorem cut?_in {name gap : Text} (hname : isName name = true) (hgap : ∀ c ∈ gap, isBlank c = true)
    (after : Text) : cut? " in " (name ++ gap ++ (" in ".toList ++ after)) = some (name ++ gap, after) := by
  have hspace : ' ' ∉ name := not_mem_of_isName hname (by decide)
  rw [List.append_assoc]
  calc cut? " in " (name ++ (gap ++ (" in ".toList ++ after)))
      = (cut? " in " (gap ++ (" in ".toList ++ after))).map (Prod.map (name ++ ·) id) :=
        cut?_append_of_not_mem "in ".toList _ hspace
    _ = some (name ++ gap, after) := by rw [cut?_in_blanks after hgap]; rfl

end Text

/-! ### Headers -/

namespace RangeLoop

/-- A loop of a counter over a range as it is usually written. -/
def header (counter : Text) (arguments : List Text) : Text :=
  "for " ++ counter ++ " in range(" ++ List.intercalate ", ".toList arguments ++ "):"

/-- A text has a counter range over the arguments of `range`, with white space
around ` in ` and beside the call. -/
inductive RangesOver (counter arguments : Text) : Text → Prop where
  | intro {gap space mid back : Text} (hname : isName counter = true)
    (hgap : ∀ c ∈ gap, isBlank c = true) (hspace : ∀ c ∈ space, isBlank c = true)
    (hmid : ∀ c ∈ mid, isBlank c = true) (hback : ∀ c ∈ back, isBlank c = true) :
    RangesOver counter arguments (counter ++ gap ++ (" in ".toList ++
      (space ++ ("range" ++ mid ++ '(' :: (arguments ++ [')'])) ++ back)))

/-- A text is the header of a loop: its keyword, a counter that ranges over
arguments, and a colon, with white space between these parts and at the end. -/
inductive Heads (counter arguments : Text) : Text → Prop where
  | intro {front inner back : Text} (hfront : ∀ c ∈ front, isBlank c = true)
    (h : RangesOver counter arguments inner) (hback : ∀ c ∈ back, isBlank c = true) :
    Heads counter arguments ("for".toList ++ (front ++ (inner ++ [':']) ++ back))

/-- **A counter ranges over what is cut out for it.** The text does not start
with white space. -/
theorem cutHeader?_eq_some_iff {t counter arguments : Text} (ht : ∀ c ∈ t.head?, isBlank c = false) :
    cutHeader? t = some (counter, arguments) ↔ RangesOver counter arguments t := by
  unfold cutHeader?
  constructor
  · intro h
    simp only [Option.bind_eq_bind, Option.bind_eq_some_iff, Option.ite_none_right_eq_some, Option.pure_def,
      Option.some.injEq, Prod.exists, Prod.mk.injEq] at h
    obtain ⟨before, after, hcut, hname, inner, hcall, rfl, rfl⟩ := h
    obtain ⟨front, gap, hbefore, hfront, hgap⟩ := Text.exists_trim before
    obtain ⟨space, back, hafter, hspace, hback⟩ := Text.exists_trim after
    obtain ⟨mid, hmid, hrange⟩ := callArguments?_eq_some_iff.1 hcall
    have htext := Text.eq_of_cut _ hcut
    -- white space before the counter would start the text
    have hnone : front = [] := by
      cases front with
      | nil => rfl
      | cons c front =>
        have hc : isBlank c = false := ht c (by rw [htext, hbefore]; rfl)
        rw [hfront c (List.mem_cons_self ..)] at hc
        cases hc
    rw [hnone, List.nil_append] at hbefore
    rw [hrange] at hafter
    have hinner : RangesOver _ inner _ := .intro hname hgap hspace hmid hback
    rw [← hbefore, ← hafter] at hinner
    rw [htext, List.append_assoc]
    exact hinner
  · rintro (@⟨gap, space, mid, back, hname, hgap, hspace, hmid, hback⟩)
    have hcut := Text.cut?_in hname hgap (space ++ ("range" ++ mid ++ '(' :: (arguments ++ [')'])) ++ back)
    have hcounter : Text.trim (counter ++ gap) = counter := trim_of_isName (List.forall_mem_nil _) hname hgap
    have htrimmed : Text.IsTrimmed ("range" ++ mid ++ '(' :: (arguments ++ [')'])) := by
      have hends := Text.isTrimmed_enclosed (c := 'r') (d := ')') (by decide) (by decide)
        ("ange" ++ mid ++ '(' :: arguments)
      simpa using hends
    have hiterable : Text.trim (space ++ ("range" ++ mid ++ '(' :: (arguments ++ [')'])) ++ back) =
        "range" ++ mid ++ '(' :: (arguments ++ [')']) := by
      rw [Text.trim_append _ hspace hback, Text.trim_eq_self htrimmed]
    have hcall : callArguments? "range" ("range" ++ mid ++ '(' :: (arguments ++ [')'])) = some arguments :=
      callArguments?_eq_some_iff.2 ⟨mid, hmid, rfl⟩
    simp only [hcut, Option.bind_eq_bind, Option.bind_some, hcounter, hname, if_true, hiterable, hcall]
    rfl

theorem ofText?_for (t : Text) : ofText? ("for".toList ++ t) = some (ofHeader ("for".toList ++ t) t) := by
  have hcut : afterKeyword? "for" ("for".toList ++ t) = some t := Text.dropBytes?_append "for".toList t
  rw [ofText?, hcut, Option.map_some]

theorem RangesOver.exists_cons {counter arguments t : Text} (h : RangesOver counter arguments t) :
    ∃ c cs, t = c :: cs ∧ isBlank c = false := by
  obtain ⟨hname⟩ := h
  obtain ⟨⟨c, hc, -⟩, -⟩ := (isName_iff counter).1 hname
  obtain ⟨cs, rfl⟩ := List.head?_eq_some_iff.1 hc
  exact ⟨c, _, rfl, (isTrimmed_of_isName hname).1 c hc⟩

/-- **A header is read for its counter and the arguments of its range.** -/
theorem Heads.ofText?_eq {counter arguments t : Text} (h : Heads counter arguments t) :
    ofText? t = some (ofArguments counter (splitArguments arguments)) := by
  obtain @⟨front, inner, back, hfront, hranges, hback⟩ := h
  obtain ⟨c, cs, rfl, hc⟩ := hranges.exists_cons
  have htrimmed : Text.IsTrimmed (c :: cs ++ [':']) := Text.isTrimmed_enclosed hc (by decide) cs
  have htrim : Text.trim (front ++ (c :: cs ++ [':']) ++ back) = c :: cs ++ [':'] := by
    rw [Text.trim_append _ hfront hback, Text.trim_eq_self htrimmed]
  have hcolon : Text.dropEnd? ':' (c :: cs ++ [':']) = some (c :: cs) := (Text.dropEnd?_eq_some_iff ':').2 rfl
  have hcut : cutHeader? (c :: cs) = some (counter, arguments) :=
    (cutHeader?_eq_some_iff (by simpa using hc)).2 hranges
  rw [ofText?_for, ofHeader, htrim, hcolon]
  simp only [hcut]

/-- A line whose first word is the keyword is the header of a loop if it is read
as one, or if only the number of its arguments is wrong. -/
theorem exists_heads_of_ofText {t : Text} (hkind : Line.Kind.ofText t = .forHeader)
    {result : Except Problem RangeLoop} (h : ofText? t = some result)
    (hresult : ∀ p, result = .error p → ∃ n, p = .rangeArguments n) :
    ∃ counter arguments, Heads counter arguments t ∧ ofArguments counter (splitArguments arguments) = result := by
  have hkeyword : ("for".toList, Line.Kind.forHeader) ∈ Line.Kind.byFirstWord := by decide
  have hfirst := (Line.Kind.ofText_eq_iff_firstWord hkeyword).1 hkind
  obtain ⟨word, rest, rfl, hword, hrest⟩ := exists_word t
  rw [firstWord_append hword hrest] at hfirst
  subst hfirst
  rw [ofText?_for, Option.some.injEq, ofHeader] at h
  split at h
  · -- there is no colon
    subst h
    obtain ⟨n, hn⟩ := hresult _ rfl
    cases hn
  · next inner hcolon =>
    split at h
    · -- nothing ranges
      subst h
      obtain ⟨n, hn⟩ := hresult _ rfl
      cases hn
    · next counter arguments hcut =>
      obtain ⟨front, back, hsplit, hfront, hback⟩ := Text.exists_trim rest
      have hinner := (Text.dropEnd?_eq_some_iff ':').1 hcolon
      have hhead : ∀ c ∈ inner.head?, isBlank c = false := by
        intro c hc
        obtain ⟨cs, rfl⟩ := List.head?_eq_some_iff.1 hc
        exact (Text.isTrimmed_trim rest).1 c (by rw [hinner]; rfl)
      rw [hinner] at hsplit
      refine ⟨counter, arguments, ?_, h⟩
      rw [hsplit]
      exact .intro hfront ((cutHeader?_eq_some_iff hhead).1 hcut) hback

theorem ofArguments_eq_error_iff {counter : Text} {arguments : List Text} {p : Problem} :
    ofArguments counter arguments = .error p ↔ p = .rangeArguments arguments.length ∧
      (arguments.length = 0 ∨ 3 < arguments.length) := by
  unfold ofArguments
  split
  · simp
  · simp
  · simp
  · next hone htwo hthree =>
    have hlength : arguments.length = 0 ∨ 3 < arguments.length := by
      match arguments with
      | [] => exact .inl rfl
      | [a] => exact absurd rfl (hone a)
      | [a, b] => exact absurd rfl (htwo a b)
      | [a, b, c] => exact absurd rfl (hthree a b c)
      | _ :: _ :: _ :: _ :: _ => exact .inr (by simp)
    rw [Except.error.injEq, and_iff_left hlength, eq_comm]

theorem heads_header {counter : Text} (h : isName counter = true) (arguments : List Text) :
    Heads counter (List.intercalate ", " arguments) (header counter arguments) := by
  have hnone : ∀ c ∈ ([] : Text), isBlank c = true := List.forall_mem_nil _
  have hspace : ∀ c ∈ [' '], isBlank c = true := List.forall_mem_singleton.2 (by decide)
  have hranges : RangesOver counter (List.intercalate ", " arguments) _ := .intro h hnone hnone hnone hnone
  have hheads := Heads.intro hspace hranges hnone
  have htext : header counter arguments = ("for".toList ++ [' ']) ++ counter ++
      (" in ".toList ++ ("range".toList ++ ['('])) ++ List.intercalate ", " arguments ++ ([')'] ++ [':']) := rfl
  rw [htext]
  simpa only [List.append_assoc, List.nil_append, List.append_nil, List.cons_append] using hheads

theorem ofText_header (counter : Text) (arguments : List Text) :
    Line.Kind.ofText (header counter arguments) = .forHeader := by
  have hkeyword : ("for".toList, Line.Kind.forHeader) ∈ Line.Kind.byFirstWord := by decide
  have hfor : ∀ c ∈ "for".toList, isNameChar c = true := List.all_eq_true.1 (by decide)
  have hspace : isNameChar ' ' = false := by decide
  have htext : header counter arguments = "for".toList ++
      ' ' :: (counter ++ " in range(" ++ List.intercalate ", " arguments ++ "):") := by
    rw [List.append_cons, ← List.append_assoc, ← List.append_assoc, ← List.append_assoc]
    rfl
  rw [Line.Kind.ofText_eq_iff_firstWord hkeyword, htext]
  exact firstWord_append hfor (by simp [hspace])

end RangeLoop

/-- **Loops over ranges are read exactly.** A header written of a counter and of
arguments that are pieces has one to three of them as its bounds, and is at fault
with their number otherwise, whatever they hold. And where a header is read as a
loop, or is at fault with a number, it was made of a counter and a text that has
these arguments. -/
theorem ranges_read :
    (∀ (counter : Text) (arguments : List Text), isName counter = true →
      (∀ a ∈ arguments, a ≠ [] ∧ Text.IsTrimmed a ∧ IsPiece a) →
      Line.Kind.ofText (RangeLoop.header counter arguments) = .forHeader ∧
      RangeLoop.ofText? (RangeLoop.header counter arguments) = some
        (match arguments with
          | [stop] => .ok ⟨counter, "0", stop, "1"⟩
          | [start, stop] => .ok ⟨counter, start, stop, "1"⟩
          | [start, stop, step] => .ok ⟨counter, start, stop, step⟩
          | _ => .error (.rangeArguments arguments.length))) ∧
    ∀ t : Text, Line.Kind.ofText t = .forHeader →
      (∀ loop, RangeLoop.ofText? t = some (.ok loop) ↔ ∃ counter arguments,
        RangeLoop.Heads counter arguments t ∧
        RangeLoop.ofArguments counter (splitArguments arguments) = .ok loop) ∧
      ∀ n, RangeLoop.ofText? t = some (.error (.rangeArguments n)) ↔ ∃ counter arguments,
        RangeLoop.Heads counter arguments t ∧ (splitArguments arguments).length = n ∧ (n = 0 ∨ 3 < n) := by
  refine ⟨fun counter arguments hname harguments => ⟨RangeLoop.ofText_header counter arguments, ?_⟩,
    fun t hkind => ⟨fun loop => ⟨fun h => ?_, ?_⟩, fun n => ⟨fun h => ?_, ?_⟩⟩⟩
  · rw [(RangeLoop.heads_header hname arguments).ofText?_eq, splitArguments_intercalate harguments]
    rcases arguments with _ | ⟨_, _ | ⟨_, _ | ⟨_, _ | ⟨_, _⟩⟩⟩⟩ <;> rfl
  · exact RangeLoop.exists_heads_of_ofText hkind h nofun
  · rintro ⟨counter, arguments, hheads, hloop⟩
    rw [hheads.ofText?_eq, hloop]
  · obtain ⟨counter, arguments, hheads, herror⟩ :=
      RangeLoop.exists_heads_of_ofText hkind h fun p hp => ⟨n, (Except.error.inj hp).symm⟩
    obtain ⟨hn, hlength⟩ := RangeLoop.ofArguments_eq_error_iff.1 herror
    obtain rfl := Problem.rangeArguments.inj hn
    exact ⟨counter, arguments, hheads, rfl, hlength⟩
  · rintro ⟨counter, arguments, hheads, rfl, hlength⟩
    rw [hheads.ofText?_eq, RangeLoop.ofArguments_eq_error_iff.2 ⟨rfl, hlength⟩]

/-- A counter that is called as the word behind it, and arguments that hold
commas, colons, parentheses and an ` in `. -/
theorem ranges_read_misleading :
    RangeLoop.ofText? "for in in range(f(a, b), \") in range(:\", c[1:2]):" =
        some (.ok ⟨"in", "f(a, b)", "\") in range(:\"", "c[1:2]"⟩) ∧
      RangeLoop.ofText? "for i in range(a, b, c, d):" = some (.error (.rangeArguments 4)) := by
  have hname : isName "in" = true := by decide
  have hpieces : ∀ a ∈ ["f(a, b)".toList, "\") in range(:\"", "c[1:2]"],
      a ≠ [] ∧ Text.IsTrimmed a ∧ IsPiece a := by decide +kernel
  have hmany : ∀ a ∈ ["a".toList, "b", "c", "d"], a ≠ [] ∧ Text.IsTrimmed a ∧ IsPiece a := by decide +kernel
  exact ⟨(ranges_read.1 "in" _ hname hpieces).2, (ranges_read.1 "i" _ (by decide) hmany).2⟩

end Offside

/-
# Headers

The lines that ask for a body: a definition with its parameters, a condition
after `if`, `elif` or `while`, and a loop over a range. A header is read after
its keyword is cut off, by as many bytes as the keyword has.

Key definitions: `Signature`, `Signature.ofText?`, `readCondition`,
`readHeader?`, `RangeLoop`, `RangeLoop.ofText?`.
Key theorem: `Signature.isName_of_ofHeader`.
-/
import Offside.Arguments
import Offside.Call
import Offside.Problem

namespace Offside

/-- The name and the parameters of a function. -/
structure Signature where
  name : Text
  parameters : List Text
  deriving DecidableEq, Repr

namespace Signature

/-- A definition's header as it is usually written. -/
def header (s : Signature) : Text :=
  "def " ++ s.name ++ "(" ++ List.intercalate ", ".toList s.parameters ++ "):"

/-- The signature between a definition's keyword and its end: a name,
parentheses around names, a colon. -/
def ofHeader? (t : Text) : Option Signature := do
  let (name, opened) ← Text.cut? "(" t
  let (parameters, closed) ← Text.cutLast? ')' opened
  let s : Signature := ⟨Text.trim name, splitArguments parameters⟩
  if Text.trim closed = [':'] ∧ isName s.name = true ∧ s.parameters.all isName = true then
    some s
  else none

/-- The signature in the header of a definition. -/
def ofText? (t : Text) : Option Signature := do
  ofHeader? (← "def".toList.isPrefixOf? t)

theorem isName_of_ofHeader {t : Text} {s : Signature} (h : ofHeader? t = some s) :
    isName s.name = true ∧ s.parameters.all isName = true := by
  simp only [ofHeader?, Option.bind_eq_bind, Option.bind_eq_some_iff, Option.ite_none_right_eq_some,
    Option.some.injEq] at h
  obtain ⟨_, _, _, _, ⟨_, hn, hp⟩, rfl⟩ := h
  exact ⟨hn, hp⟩

end Signature

/-- What follows the keyword of a line, cut off by the bytes of the keyword,
which are its characters too. A line that ends before its keyword does, or
inside a character, leaves nothing to read. -/
def afterKeyword? (keyword t : Text) : Option Text := Text.dropBytes? keyword.length t

/-- The condition in what follows the keyword of a header. -/
def readCondition (keyword t : Text) : Except Problem Text :=
  match Text.dropEnd? ':' (Text.trim t) with
  | none => .error (.missingColon keyword)
  | some inner =>
    if Text.trim inner = [] then .error (.missingCondition keyword) else .ok (Text.trim inner)

/-- The condition in the header `t`, or nothing if the text ends before the
keyword does. -/
def readHeader? (keyword t : Text) : Option (Except Problem Text) :=
  (afterKeyword? keyword t).map (readCondition keyword)

/-- A loop of a counter over a range, its bounds still to be translated. -/
structure RangeLoop where
  counter : Text
  start : Text
  stop : Text
  step : Text
  deriving DecidableEq, Repr

namespace RangeLoop

/-- The loop of a counter over a range of one, two or three arguments. -/
def ofArguments (counter : Text) : List Text → Except Problem RangeLoop
  | [stop] => .ok ⟨counter, "0", stop, "1"⟩
  | [start, stop] => .ok ⟨counter, start, stop, "1"⟩
  | [start, stop, step] => .ok ⟨counter, start, stop, step⟩
  | arguments => .error (.rangeArguments arguments.length)

/-- The counter and the text of the range's arguments in a header without its
colon. -/
def cutHeader? (t : Text) : Option (Text × Text) := do
  let (name, iterable) ← Text.cut? " in " t
  if isName (Text.trim name) then
    return (Text.trim name, ← callArguments? "range" (Text.trim iterable))
  else none

/-- The loop in what follows the keyword of the line `line`. -/
def ofHeader (line t : Text) : Except Problem RangeLoop :=
  match Text.dropEnd? ':' (Text.trim t) with
  | none => .error (.missingColon "for")
  | some inner =>
    match cutHeader? inner with
    | none => .error (.unsupportedLoop line)
    | some (counter, arguments) => ofArguments counter (splitArguments arguments)

/-- The loop in a header, or nothing if the text ends before the keyword
does. -/
def ofText? (t : Text) : Option (Except Problem RangeLoop) :=
  (afterKeyword? "for" t).map (ofHeader t)

end RangeLoop
end Offside

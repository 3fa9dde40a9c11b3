/-
# JSON values

A JSON value, and the strings in it. A string is kept as the code units that
its escapes and characters stand for, because an escape may give one half of a
surrogate pair; only a string whose halves all meet is a text.

Key definitions: `Json`, `Json.textOf?`, `Json.quote`.
-/
import Offside.Text.Basic

namespace Offside

/-- A JSON value. Numbers are kept as they are written. -/
inductive Json where
  | null
  | bool (value : Bool)
  | number (written : Text)
  | string (units : List Nat)
  | array (items : List Json)
  | object (members : List (List Nat × Json))

namespace Json

/-- Whether a code unit is the first half of a surrogate pair. -/
def isLead (u : Nat) : Bool := 0xD800 ≤ u && u ≤ 0xDBFF

/-- Whether a code unit is the second half of a surrogate pair. -/
def isTrail (u : Nat) : Bool := 0xDC00 ≤ u && u ≤ 0xDFFF

/-- The text that code units stand for, if no half of a pair stands alone. -/
def textOf? : List Nat → Option Text
  | [] => some []
  | [u] => if isLead u || isTrail u then none else some [Char.ofNat u]
  | u :: v :: more =>
    if isLead u then
      if isTrail v then
        (textOf? more).map (Char.ofNat (0x10000 + (u - 0xD800) * 0x400 + (v - 0xDC00)) :: ·)
      else none
    else if isTrail u then none
    else (textOf? (v :: more)).map (Char.ofNat u :: ·)

/-- A digit below sixteen, in lower case. -/
def hexDigit (n : Nat) : Char := if n < 10 then Char.ofNat (0x30 + n) else Char.ofNat (0x57 + n)

/-- A character as a string holds it: only the quote, the backslash and the
control characters are escaped. -/
def escape (c : Char) : Text :=
  if c = '"' then "\\\""
  else if c = '\\' then "\\\\"
  else if c = '\n' then "\\n"
  else if c = '\r' then "\\r"
  else if c = '\t' then "\\t"
  else if c = '\x08' then "\\b"
  else if c = '\x0c' then "\\f"
  else if c.toNat < 0x20 then "\\u00" ++ [hexDigit (c.toNat / 16), hexDigit (c.toNat % 16)]
  else [c]

/-- A text as a JSON string. -/
def quote (t : Text) : Text := ['"'] ++ t.flatMap escape ++ ['"']

end Json
end Offside

/-
# Reading JSON

The strict grammar: no comments, no comma before a closing bracket, no leading
zeros, no control characters in strings, and nothing but white space after the
document.

Key definitions: `Json.readString?`, `Json.readNumber?`, `Json.readValue?`,
`Json.ofText?`.
-/
import Offside.Json.Basic

namespace Offside
namespace Json

/-- Whether a character may stand between the parts of a document. -/
def isSpace (c : Char) : Bool := c == ' ' || c == '\t' || c == '\n' || c == '\r'

/-- The value of a hexadecimal digit. -/
def hexValue? (c : Char) : Option Nat :=
  if '0' ≤ c ∧ c ≤ '9' then some (c.toNat - 0x30)
  else if 'a' ≤ c ∧ c ≤ 'f' then some (c.toNat - 0x57)
  else if 'A' ≤ c ∧ c ≤ 'F' then some (c.toNat - 0x37)
  else none

/-- The value of four hexadecimal digits. -/
def hexUnit? (a b c d : Char) : Option Nat := do
  return (((← hexValue? a) * 16 + (← hexValue? b)) * 16 + (← hexValue? c)) * 16 + (← hexValue? d)

/-- The code unit of an escape of one letter. -/
def unescape? (c : Char) : Option Nat :=
  if c = '"' ∨ c = '\\' ∨ c = '/' then some c.toNat
  else if c = 'b' then some 0x08
  else if c = 'f' then some 0x0C
  else if c = 'n' then some 0x0A
  else if c = 'r' then some 0x0D
  else if c = 't' then some 0x09
  else none

/-- The code units of a string after its opening quote, and the rest of the
text. -/
def readString? : Text → Option (List Nat × Text)
  | [] => none
  | '"' :: rest => some ([], rest)
  | '\\' :: 'u' :: a :: b :: c :: d :: rest => do
    let u ← hexUnit? a b c d
    let (us, rest) ← readString? rest
    return (u :: us, rest)
  | '\\' :: e :: rest => do
    let u ← unescape? e
    let (us, rest) ← readString? rest
    return (u :: us, rest)
  | c :: rest =>
    if c.toNat < 0x20 then none
    else do
      let (us, rest) ← readString? rest
      return (c.toNat :: us, rest)

/-- The digits at the start of a text, at least one, and the rest. -/
def readDigits? (t : Text) : Option (Text × Text) :=
  match t.takeWhile Char.isDigit with
  | [] => none
  | d :: ds => some (d :: ds, t.dropWhile Char.isDigit)

/-- The whole part of a number: digits that do not start with a zero, unless
it is the only one. -/
def readWhole? (t : Text) : Option (Text × Text) := do
  let (digits, rest) ← readDigits? t
  if digits.head? = some '0' ∧ 1 < digits.length then none else some (digits, rest)

/-- The fraction of a number, empty if there is none. -/
def readFraction? : Text → Option (Text × Text)
  | '.' :: t => (readDigits? t).map fun (digits, rest) => ('.' :: digits, rest)
  | t => some ([], t)

/-- The exponent of a number, empty if there is none. -/
def readExponent? : Text → Option (Text × Text)
  | e :: t =>
    if e = 'e' ∨ e = 'E' then
      match t with
      | '+' :: t => (readDigits? t).map fun (digits, rest) => (e :: '+' :: digits, rest)
      | '-' :: t => (readDigits? t).map fun (digits, rest) => (e :: '-' :: digits, rest)
      | t => (readDigits? t).map fun (digits, rest) => (e :: digits, rest)
    else some ([], e :: t)
  | [] => some ([], [])

/-- A number and the rest of the text. -/
def readNumber? (t : Text) : Option (Json × Text) := do
  let (sign, t) : Text × Text := match t with
    | '-' :: t => (['-'], t)
    | t => ([], t)
  let (whole, t) ← readWhole? t
  let (fraction, t) ← readFraction? t
  let (exponent, t) ← readExponent? t
  return (.number (sign ++ whole ++ fraction ++ exponent), t)

/-- A value that is written as a word, and the rest of the text. -/
def readWord? (t : Text) : Option (Json × Text) :=
  match "null".toList.isPrefixOf? t, "true".toList.isPrefixOf? t, "false".toList.isPrefixOf? t with
  | some rest, _, _ => some (.null, rest)
  | none, some rest, _ => some (.bool true, rest)
  | none, none, some rest => some (.bool false, rest)
  | none, none, none => none

mutual

/-- A value and the rest of the text, in at most `limit` steps. -/
def readValue? (limit : Nat) (t : Text) : Option (Json × Text) :=
  match limit with
  | 0 => none
  | limit + 1 =>
    match t.dropWhile isSpace with
    | '"' :: rest => (readString? rest).map fun (us, rest) => (.string us, rest)
    | '[' :: rest =>
      match rest.dropWhile isSpace with
      | ']' :: rest => some (.array [], rest)
      | rest => (readItems? limit rest).map fun (items, rest) => (.array items, rest)
    | '\x7b' :: rest =>
      match rest.dropWhile isSpace with
      | '\x7d' :: rest => some (.object [], rest)
      | rest => (readMembers? limit rest).map fun (members, rest) => (.object members, rest)
    | rest => (readWord? rest).or (readNumber? rest)

/-- The items of an array up to its closing bracket, in at most `limit`
steps. -/
def readItems? (limit : Nat) (t : Text) : Option (List Json × Text) :=
  match limit with
  | 0 => none
  | limit + 1 => do
    let (item, rest) ← readValue? limit t
    match rest.dropWhile isSpace with
    | ',' :: rest =>
      let (items, rest) ← readItems? limit rest
      return (item :: items, rest)
    | ']' :: rest => return ([item], rest)
    | _ => none

/-- The members of an object up to its closing bracket, in at most `limit`
steps. -/
def readMembers? (limit : Nat) (t : Text) : Option (List (List Nat × Json) × Text) :=
  match limit with
  | 0 => none
  | limit + 1 =>
    match t.dropWhile isSpace with
    | '"' :: rest => do
      let (key, rest) ← readString? rest
      match rest.dropWhile isSpace with
      | ':' :: rest =>
        let (value, rest) ← readValue? limit rest
        match rest.dropWhile isSpace with
        | ',' :: rest =>
          let (members, rest) ← readMembers? limit rest
          return ((key, value) :: members, rest)
        | '\x7d' :: rest => return ([(key, value)], rest)
        | _ => none
      | _ => none
    | _ => none

end

/-- The value of a document. Each step but every second one takes a character,
so twice as many steps as characters are enough. -/
def ofText? (t : Text) : Option Json := do
  let (value, rest) ← readValue? (2 * t.length + 2) t
  if rest.all isSpace then some value else none

end Json
end Offside

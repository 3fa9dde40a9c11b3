/-
# Conversion requests

A JSON document that asks for a conversion: an object with the source text and
the two languages, or an array of the three in that order. Other members are
ignored, but every key has to be a text and none of the three may come twice.
The response is a document with the text that the conversion shows.

Key definitions: `Request`, `Request.ofText?`, `Request.response`.
-/
import Offside.Json.Read

namespace Offside

/-- What a document asks for. -/
structure Request where
  code : Text
  source : Text
  target : Text
  deriving DecidableEq, Repr

namespace Request

/-- The text in a string. -/
def text? : Json → Option Text
  | .string us => Json.textOf? us
  | _ => none

/-- The text of the only member with a key. -/
def member? (members : List (Text × Json)) (key : Text) : Option Text :=
  match members.filter fun m => m.1 = key with
  | [(_, value)] => text? value
  | _ => none

/-- The request in a JSON value. -/
def ofJson? : Json → Option Request
  | .array [code, source, target] => do
    return ⟨← text? code, ← text? source, ← text? target⟩
  | .object members => do
    let ms ← members.mapM fun (key, value) => do return (← Json.textOf? key, value)
    return ⟨← member? ms "code", ← member? ms "sourceLanguage", ← member? ms "targetLanguage"⟩
  | _ => none

/-- The request in a document. -/
def ofText? (t : Text) : Option Request := do ofJson? (← Json.ofText? t)

/-- The document that answers a request. -/
def response (output : Text) : Text :=
  "\x7b\n  \"output\": " ++ Json.quote output ++ "\n\x7d\n"

end Request
end Offside

/-
# Registry of converters

Converters are kept by the pair of languages they convert between. A language
tag counts without the white space around it and in lower case. Registering a
pair again replaces its converter and leaves the pair where it is.

Key definitions: `tag`, `Registry`, `Registry.register`, `Registry.get?`,
`Registry.convert`, `Registry.standard`.
-/
import Offside.Conversion
import Offside.Text.Lowercase

namespace Offside

/-- A function that converts source texts. -/
abbrev Converter := Text → Run Conversion

/-- A language tag without the differences that do not count. -/
def tag (language : Text) : Text := Text.lowercase (Text.trim language)

/-- The converters by their pairs of languages, source first. -/
abbrev Registry := OrderedMap (Text × Text) Converter

namespace Registry

/-- The registry with a converter for a pair of languages. -/
def register (r : Registry) (source target : Text) (convert : Converter) : Registry :=
  r.insert (tag source, tag target) convert

/-- The converter for a pair of languages. -/
def get? (r : Registry) (source target : Text) : Option Converter :=
  r.lookup (tag source, tag target)

/-- The pairs of languages, in the order in which they were first registered. -/
def pairs (r : Registry) : List (Text × Text) := r.keys

/-- What stands in for code when no converter is registered. -/
def unsupported : Text := "// Unsupported conversion"

/-- A conversion between two languages. For a pair that is not registered the
result stands in for code, whatever the text. -/
def convert (r : Registry) (source target text : Text) : Run Conversion :=
  match r.get? source target with
  | some f => f text
  | none => do
    Run.tell .warn ("No converter registered for '" ++ source ++ "' to '" ++ target ++ "'")
    return .code unsupported

/-- The registry of the one conversion that is built in. -/
def standard : Registry := register [] "python" "java" convertProgram

end Registry
end Offside

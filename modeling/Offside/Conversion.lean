/-
# Conversions

A conversion yields the generated code or the report of everything that stood
in its way. `convertProgram` is the conversion this library is about: lines,
functions and entry point, blocks, class.

Key definitions: `Conversion`, `Conversion.text`, `convertProgram`.
-/
import Offside.Lowering

namespace Offside

/-- What a conversion yields. -/
inductive Conversion where
  | code (text : Text)
  | report (diagnostics : List Diagnostic)

namespace Conversion

/-- Whether a conversion yields code. -/
def isCode : Conversion → Bool
  | code _ => true
  | report _ => false

/-- The text that a conversion shows. -/
def text : Conversion → Text
  | code t => t
  | report ds => Offside.report ds

/-- The outcome of a conversion: the text of the class, or the report. -/
def ofGenerated : Generated Java.Class → Conversion
  | .ok c => code c.render
  | .error ds => report ds

/-- What the outcome of a conversion writes to the log. -/
def records : Conversion → List Record
  | code _ => []
  | report ds => [⟨.debug, "Conversion failed with " ++ Text.decimal ds.length ++ " diagnostic(s)"⟩]

end Conversion

/-- The logical lines of a source text, each with a log record. -/
def scan (source : Text) : Run (List Line) :=
  ⟨(linesOf source).map fun l => ⟨.trace, "Scanned " ++ l.display⟩, some (linesOf source)⟩

/-- The functions and the entry point of a list of lines. -/
def extract (ls : List Line) : Run Program := ⟨Program.records ls, some (Program.ofLines ls)⟩

/-- The conversion of a source text into a class. -/
def convertProgram (source : Text) : Run Conversion := do
  let ls ← scan source
  Run.tell .debug ("Scanned " ++ Text.decimal ls.length ++ " logical line(s)")
  let p ← extract ls
  let c := Conversion.ofGenerated (← p.lower)
  Run.tellAll c.records
  return c

end Offside

/-
# Commands

A command reads one input, makes one text of it, and writes that text to one
place. Everything that can go wrong before the text is there leaves the output
untouched.

Key definitions: `Failure`, `Failure.headline`, `Answer`, `Options.respond`,
`Options.execute`, `Outcome`, `Options.run`.
-/
import Offside.Command.Host
import Offside.Command.Options
import Offside.Registry
import Offside.Request

namespace Offside

/-- What can keep a command from its end. -/
inductive Failure where
  /-- The input is not there, or is no text. -/
  | input (path : Option Text)
  /-- The input is no request document. -/
  | request
  /-- The output cannot be written. -/
  | output (path : Option Text)
  deriving DecidableEq, Repr

/-- The sentence that tells of a failure. -/
def Failure.message : Failure → Text
  | input (some path) => "Failed to read " ++ path
  | input none => "Failed to read standard input"
  | request => "Failed to parse the conversion request"
  | output (some path) => "Failed to write " ++ path
  | output none => "Failed to write standard output"

/-- The top line of what is told of a failure. A path may bring line ends of its
own into the sentence. -/
def Failure.headline (f : Failure) : Text := Text.firstLine f.message

/-- The text that a command writes, and whether it then counts as done. -/
structure Answer where
  text : Text
  done : Bool
  deriving DecidableEq, Repr

/-- The exit status for an answer that was written. -/
def Answer.status (a : Answer) : Nat := if a.done then 0 else 1

namespace Registry

/-- The pairs of languages, one to a line. -/
def listing (r : Registry) : Text :=
  r.pairs.flatMap fun (source, target) => source ++ " -> " ++ target ++ "\n"

end Registry

namespace Options

/-- The answer to an input that is a source text. -/
def convert (o : Options) (r : Registry) (text : Text) : Run Answer := do
  Run.tell .debug ("Converting from '" ++ o.source ++ "' to '" ++ o.target ++ "'")
  let c ← r.convert o.source o.target text
  return ⟨c.text, c.isCode⟩

/-- The answer to a request. -/
def answer (r : Registry) (q : Request) : Run Answer := do
  Run.tell .debug ("Converting request from '" ++ q.source ++ "' to '" ++ q.target ++ "'")
  let c ← r.convert q.source q.target q.code
  return ⟨Request.response c.text, true⟩

/-- The text in the bytes of an input, if they are its UTF-8 form. -/
def decode? (bytes : ByteArray) : Option Text := (String.fromUTF8? bytes).map String.toList

/-- The answer to an input, whose bytes are `none` if it could not be read. A
listing needs no input. -/
def respond (o : Options) (r : Registry) (bytes : Option ByteArray) : Run (Except Failure Answer) :=
  if o.list then return .ok ⟨r.listing, true⟩
  else
    match bytes.bind decode? with
    | none => return .error (.input o.input)
    | some text =>
      if o.json then
        match Request.ofText? text with
        | none => return .error .request
        | some q => do return .ok (← answer r q)
      else do return .ok (← o.convert r text)

/-- The level of the records that go to the log. -/
def level (o : Options) : Level := if o.verbose then .debug else .warn

end Options

/-- How a command ends. -/
structure Ending where
  status : Nat
  failure : Option Failure
  deriving DecidableEq, Repr

/-- The status of a command whose conversion stopped. -/
def stoppedStatus : Nat := 101

namespace Options

variable {m : Type → Type} [Monad m]

/-- Reads the bytes of the input, if it can be read. A listing reads nothing. -/
def fetch (o : Options) (host : Host m) : m (Option ByteArray) :=
  if o.list then return none else host.read o.input

/-- Writes the answer, if there is one, and ends the command. -/
def deliver (o : Options) (host : Host m) : Option (Except Failure Answer) → m Ending
  | none => return ⟨stoppedStatus, none⟩
  | some (.error f) => return ⟨1, some f⟩
  | some (.ok a) =>
    return if ← host.write o.output a.text then ⟨a.status, none⟩ else ⟨1, some (.output o.output)⟩

/-- A command run by a host. -/
def execute (o : Options) (host : Host m) (r : Registry) : m Ending := do
  let response := o.respond r (← o.fetch host)
  host.log (Record.upTo o.level response.records)
  o.deliver host response.value

end Options

/-- What a command leaves behind. -/
structure Outcome where
  status : Nat
  output : Text
  failure : Option Failure
  directory : Directory

/-- A command run in a directory with the bytes of its standard input. -/
def Options.run (o : Options) (r : Registry) (d : Directory) (input : ByteArray) : Outcome :=
  let (ending, desk) := (o.execute Desk.host r).run ⟨d, input, []⟩
  ⟨ending.status, desk.output, ending.failure, desk.directory⟩

/-- What the version option prints. -/
def versionText : Text := "pyjava 0.1.1\n"

/-- The lines that the help option prints. -/
def helpLines : List Text := [
  "Transliterates a subset of Python into a Java class",
  "",
  "Usage: pyjava [OPTIONS] [FILE]",
  "",
  "Arguments:",
  "  [FILE]  Source file to convert, standard input if omitted",
  "",
  "Options:",
  "  -o, --output <FILE>  Write the result to this file instead of standard output",
  "      --from <FROM>    Language of the input [default: python]",
  "      --to <TO>        Language to convert to [default: java]",
  "      --json           Treat the input as a JSON conversion request and answer with a JSON response",
  "      --list           Print the supported language pairs and exit",
  "  -v, --verbose        Enable debug logging",
  "  -h, --help           Print help",
  "  -V, --version        Print version"]

/-- What the help option prints. -/
def helpText : Text := helpLines.flatMap fun l => l ++ ['\n']

/-- The status of a command whose arguments make no sense. -/
def misuseStatus : Nat := 2

/-- A command line run in a directory with the bytes of its standard input. -/
def Invocation.run (i : Invocation) (r : Registry) (d : Directory) (input : ByteArray) : Outcome :=
  match i with
  | .version => ⟨0, versionText, none, d⟩
  | .help => ⟨0, helpText, none, d⟩
  | .misuse => ⟨misuseStatus, [], none, d⟩
  | .proceed o => o.run r d input

end Offside

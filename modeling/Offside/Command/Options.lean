/-
# Command lines

The arguments are read from left to right. `--version` and `--help` take
effect where they stand if nothing before them was wrong. An option takes its
value from the same argument or from the next one, which must not look like an
option; a lone `-` looks like none. After `--` every argument is a file.

Key definitions: `Options`, `Invocation`, `Draft.read`,
`Invocation.ofArguments`.
-/
import Offside.Text.Basic

namespace Offside

/-- What a command line asks for. -/
structure Options where
  /-- The file to convert, standard input if there is none. -/
  input : Option Text
  /-- The file to write, standard output if there is none. -/
  output : Option Text
  /-- The language of the input. -/
  source : Text
  /-- The language to convert to. -/
  target : Text
  /-- Whether the input is a request document. -/
  json : Bool
  /-- Whether to list the language pairs and do nothing else. -/
  list : Bool
  /-- Whether to log more than warnings. -/
  verbose : Bool
  deriving DecidableEq, Repr

/-- What to do for a list of arguments. -/
inductive Invocation where
  | version
  | help
  /-- The arguments make no sense. -/
  | misuse
  | proceed (options : Options)
  deriving DecidableEq, Repr

/-- The options that take a value. -/
inductive Valued where
  | output
  | source
  | target
  deriving DecidableEq, Repr

/-- The options that stand alone. -/
inductive Flag where
  | json
  | list
  | verbose
  | version
  | help
  deriving DecidableEq, Repr

/-- The options of a command line read so far. -/
structure Draft where
  input : Option Text := none
  output : Option Text := none
  source : Option Text := none
  target : Option Text := none
  json : Bool := false
  list : Bool := false
  verbose : Bool := false
  deriving DecidableEq, Repr

namespace Draft

/-- The options, with the languages that are taken when none are given. -/
def options (d : Draft) : Options where
  input := d.input
  output := d.output
  source := d.source.getD "python"
  target := d.target.getD "java"
  json := d.json
  list := d.list
  verbose := d.verbose

/-- A field that must not be filled yet, filled. -/
def fill (old : Option Text) (value : Text) : Option (Option Text) :=
  if old.isSome then none else some (some value)

/-- A field that must not be filled yet, filled with a path, which is not
empty. -/
def fillPath (old : Option Text) (path : Text) : Option (Option Text) :=
  if path = [] then none else fill old path

/-- The draft with the value of an option. -/
def set? (d : Draft) (option : Valued) (value : Text) : Option Draft :=
  match option with
  | .output => (fillPath d.output value).map fun v => { d with output := v }
  | .source => (fill d.source value).map fun v => { d with source := v }
  | .target => (fill d.target value).map fun v => { d with target := v }

/-- The draft with the file to convert. -/
def addFile? (d : Draft) (path : Text) : Option Draft :=
  (fillPath d.input path).map fun v => { d with input := v }

/-- How reading goes on after an argument. -/
inductive Next where
  /-- With the argument after it. -/
  | more (draft : Draft)
  /-- With the value of an option in the argument after it. -/
  | value (draft : Draft) (option : Valued)
  /-- Not at all. -/
  | stop (invocation : Invocation)

/-- What reading goes on with after a change of the draft. -/
def go : Option Draft → Next
  | some d => .more d
  | none => .stop .misuse

/-- What a flag comes to. No flag may be given twice. -/
def raise (d : Draft) : Flag → Next
  | .json => if d.json then .stop .misuse else .more { d with json := true }
  | .list => if d.list then .stop .misuse else .more { d with list := true }
  | .verbose => if d.verbose then .stop .misuse else .more { d with verbose := true }
  | .version => .stop .version
  | .help => .stop .help

/-- The flags by their long names. -/
def longFlags : List (Text × Flag) := [
  ("json", .json), ("list", .list), ("verbose", .verbose), ("version", .version), ("help", .help)]

/-- The options with a value by their long names. -/
def longValued : List (Text × Valued) := [
  ("output", .output), ("from", .source), ("to", .target)]

/-- What an argument after `--` comes to; `value` is what follows its equals
sign, if it has one. -/
def long (d : Draft) (name : Text) (value : Option Text) : Next :=
  match longFlags.lookup name, longValued.lookup name, value with
  | some flag, _, none => d.raise flag
  | none, some option, none => .value d option
  | none, some option, some v => go (d.set? option v)
  | _, _, _ => .stop .misuse

/-- What the letters of an argument after `-` come to. A letter that takes a
value takes the rest of the argument, without an equals sign at its start. -/
def letters (d : Draft) : Text → Next
  | [] => .more d
  | 'v' :: rest =>
    match d.raise .verbose with
    | .more d => letters d rest
    | stopped => stopped
  | 'V' :: _ => .stop .version
  | 'h' :: _ => .stop .help
  | 'o' :: [] => .value d .output
  | 'o' :: '=' :: path => go (d.set? .output path)
  | 'o' :: path => go (d.set? .output path)
  | _ :: _ => .stop .misuse

/-- What an argument comes to that is not the value of an option. -/
def argument (d : Draft) : Text → Next
  | '-' :: '-' :: rest =>
    match Text.cut? "=" rest with
    | some (name, value) => d.long name (some value)
    | none => d.long rest none
  | '-' :: c :: cs => d.letters (c :: cs)
  | path => go (d.addFile? path)

/-- The arguments after `--`: files only. -/
def readFiles (d : Draft) : List Text → Invocation
  | [] => .proceed d.options
  | path :: more =>
    match d.addFile? path with
    | some d => d.readFiles more
    | none => .misuse

/-- Whether an argument cannot be the value of an option that stands before
it. -/
def looksLikeOption : Text → Bool
  | '-' :: _ :: _ => true
  | _ => false

/-- The arguments after a draft, where `option` still needs a value. -/
def read (d : Draft) (option : Option Valued) : List Text → Invocation
  | [] => if option.isSome then .misuse else .proceed d.options
  | a :: more =>
    match option with
    | some o =>
      if looksLikeOption a then .misuse
      else
        match d.set? o a with
        | some d => d.read none more
        | none => .misuse
    | none =>
      if a = "--" then d.readFiles more
      else
        match d.argument a with
        | .more d => d.read none more
        | .value d o => d.read (some o) more
        | .stop invocation => invocation

end Draft

/-- What to do for a list of arguments. -/
def Invocation.ofArguments (arguments : List Text) : Invocation := Draft.read {} none arguments

end Offside

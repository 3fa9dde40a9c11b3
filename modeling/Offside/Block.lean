/-
# Reading blocks

An outline is read section by section. A line says what it is by itself; a
header takes the first section under it as its body; a conditional goes on
through the `elif` and `else` lines that follow it at its indentation. Lines
that belong to no body are reported where they stand.

A line made by hand may end before the keyword that its kind promises. Reading
such a line yields nothing, for the whole list of lines. Lines that are passed
over are not read.

Key definitions: `Line.sentence?`, `Entry.step`, `readSection`,
`Block.ofLines?`.
-/
import Offside.Outline
import Offside.Tree

namespace Offside

/-- What a line says by itself. -/
inductive Sentence where
  /-- A statement that needs no body. -/
  | whole (tree : Tree)
  /-- A line that cannot be read; what is under it is passed over. -/
  | refused (problem : Problem)
  /-- The header of a `while` loop. -/
  | loop (condition : Text)
  /-- The header of a `for` loop. -/
  | range (loop : RangeLoop)
  /-- The header of a conditional. -/
  | branch (condition : Text)

/-- The statement that an assigning line makes. -/
def Line.assignment (l : Line) : Tree :=
  match Assignment.ofText? l.text with
  | some ⟨target, some operator, value⟩ => .update l.number target operator value
  | some ⟨target, none, value⟩ => .assignment l.number target value
  | none => .malformed l.number (.unsupportedStatement l.text)

/-- What a line says by itself, where it continues no conditional. -/
def Line.sentence? (l : Line) : Option Sentence :=
  match l.kind with
  | .definition =>
    match Signature.ofText? l.text with
    | some s => some (.refused (.nestedDefinition s.name))
    | none => some (.refused (.malformedDefinition l.text))
  | .ifHeader => (readHeader? "if" l.text).map fun
    | .ok condition => .branch condition
    | .error p => .refused p
  | .elifHeader => some (.refused (.danglingBranch "elif"))
  | .elseHeader => some (.refused (.danglingBranch "else"))
  | .whileHeader => (readHeader? "while" l.text).map fun
    | .ok condition => .loop condition
    | .error p => .refused p
  | .forHeader => (RangeLoop.ofText? l.text).map fun
    | .ok loop => .range loop
    | .error p => .refused p
  | .returned => (afterKeyword? "return" l.text).map fun rest =>
    .whole (.returned l.number (if Text.trim rest = [] then none else some (Text.trim rest)))
  | .print =>
    match callArguments? "print" l.text with
    | some arguments => some (.whole (.print l.number (splitArguments arguments)))
    | none => some (.whole (.malformed l.number (.unsupportedStatement l.text)))
  | .pass => some (.whole (.pass l.number))
  | .breakLoop => some (.whole (.breakLoop l.number))
  | .continueLoop => some (.whole (.continueLoop l.number))
  | .call => some (.whole (.call l.number l.text))
  | .assignment | .update => some (.whole l.assignment)
  | .collection kind => some (.whole (.malformed l.number (.unsupportedCollection kind)))
  | .unknown => some (.whole (.malformed l.number (.unsupportedStatement l.text)))

/-- A conditional that may still go on. -/
structure Chain where
  /-- The number of its first line. -/
  line : Nat
  /-- The indentation of its first body. -/
  inner : Nat
  branches : List (Text × Block)

namespace Chain

/-- The conditional, with its last branch if it has one. -/
def close (c : Chain) (otherwise : Option Block) : Tree :=
  .conditional c.line c.branches otherwise

/-- The conditional with one more branch. -/
def add (c : Chain) (condition : Text) (body : Block) : Chain :=
  { c with branches := c.branches ++ [(condition, body)] }

end Chain

/-- The statements left to make of a conditional that does not go on. -/
def closeChain : Option Chain → Block
  | none => []
  | some c => [c.close none]

/-- The reports of lines that belong to no body. The first one is a dedent
that fits no block if the line is shallower than the body, at indentation
`inner`, that it leaves. -/
def strays (inner : Option Nat) : List Line → Block
  | [] => []
  | l :: ls =>
    .malformed l.number (if inner.any (l.indent < ·) then .inconsistentDedent else .unexpectedIndent)
      :: strays none ls

namespace Entry

/-- The lines at the indentations of the sections `o`. -/
def heads (o : Outline) : List Line := o.flatten.map line

/-- The lines under an entry that its body leaves over. -/
def leftover (e : Entry) : List Line := heads (e.under.drop 1)

/-- The indentation of the body of an entry. -/
def inner (e : Entry) : Option Nat := e.under.head?.bind Section.indent?

/-- What an entry comes to: statements, and the conditional that may go on
after it. -/
abbrev Step := Block × Option Chain

/-- An entry that comes to one problem. -/
def fault (e : Entry) (p : Problem) : Step := ([.malformed e.line.number p], none)

/-- An entry whose header needs the body `body`. -/
def withBody (e : Entry) (body : Option Block) (make : Block → Step) : Step :=
  match body with
  | none => e.fault (.missingBody e.line.text)
  | some b => make b

/-- A statement with a body, and the lines that the body leaves over. -/
def finish (e : Entry) (inner : Option Nat) (tree : Tree) : Step :=
  (tree :: strays inner e.leftover, none)

/-- A conditional after the body of the entry's branch: it may go on unless
the body leaves lines over. -/
def goOn (e : Entry) (c : Chain) : Step :=
  match e.leftover with
  | [] => ([], some c)
  | _ :: _ => e.finish (some c.inner) (c.close none)

/-- An entry that starts a statement. Its body is `none` if a line of it
cannot be read, and `some none` if nothing is under the entry. -/
def start (e : Entry) (body : Option (Option Block)) : Option Step :=
  e.line.sentence?.bind fun
    | .whole tree => some (tree :: strays none (heads e.under), none)
    | .refused p => some (e.fault p)
    | .loop condition => body.map (e.withBody · fun b =>
        e.finish e.inner (.whileLoop e.line.number condition b))
    | .range loop => body.map (e.withBody · fun b =>
        e.finish e.inner (.forLoop e.line.number loop b))
    | .branch condition => body.map (e.withBody · fun b =>
        e.goOn ⟨e.line.number, e.inner.getD 0, [(condition, b)]⟩)

/-- An entry that continues the conditional `c` with a condition. -/
def elseIf (e : Entry) (c : Chain) (body : Option (Option Block)) : Option Step :=
  (readHeader? "elif" e.line.text).bind fun
    | .error p => some (e.fault p)
    | .ok condition => body.map (e.withBody · fun b => e.goOn (c.add condition b))

/-- An entry that ends the conditional `c`. -/
def orElse (e : Entry) (c : Chain) (body : Option (Option Block)) : Option Step :=
  (afterKeyword? "else" e.line.text).bind fun rest =>
    if Text.trim rest = [':'] then
      body.map (e.withBody · fun b => e.finish (some c.inner) (c.close (some b)))
    else some (e.fault (.missingColon "else"))

/-- What an entry comes to after the conditional `chain`, if one may go on. -/
def step (chain : Option Chain) (e : Entry) (body : Option (Option Block)) : Option Step :=
  match chain, e.line.kind with
  | some c, .elifHeader => e.elseIf c body
  | some c, .elseHeader => e.orElse c body
  | _, _ => (e.start body).map fun (trees, next) => (closeChain chain ++ trees, next)

end Entry

mutual

/-- The body of an entry: its first section, if it has one. -/
def Entry.body : Entry → Option (Option Block)
  | .mk _ [] => some none
  | .mk _ (s :: _) => (readSection none s).map some

/-- The statements of a section after the conditional `chain`, if one may
go on. -/
def readSection (chain : Option Chain) : List Entry → Option Block
  | [] => some (closeChain chain)
  | e :: es => do
    let (trees, next) ← e.step chain e.body
    return trees ++ (← readSection next es)

end

/-- The statements of further sections, each of which is a dedent that fits no
block. -/
def readDedents : Outline → Option Block
  | [] => some []
  | s :: more => do
    let dedent := s.head?.toList.map fun e => Tree.malformed e.line.number .inconsistentDedent
    return dedent ++ (← readSection none s) ++ (← readDedents more)

/-- The statements of an outline. -/
def Outline.read? : Outline → Option Block
  | [] => some []
  | s :: more => do return (← readSection none s) ++ (← readDedents more)

/-- The statements of a list of lines, unless one that is read ends before its
keyword. -/
def Block.ofLines? (ls : List Line) : Option Block := (Outline.ofLines ls).read?

end Offside

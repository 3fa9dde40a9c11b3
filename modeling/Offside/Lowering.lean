/-
# Lowering

A block becomes Java statements in a scope of its own inside the scope around
it. The first assignment of a name that is not visible declares it; a `for`
loop introduces its counter into the block that the loop stands in. Every
statement is lowered, also after one has failed, so that all problems of a
program are reported together.

What a block introduces (`introduce`), what it is lowered to (`lowerTree`),
the types it returns (`returnTypes`) and what lowering it writes to the log
(`Tree.records`) are separate recursions over the same scopes.

Key definitions: `introduce`, `lowerTree`, `lowerBlock`, `returnTypes`,
`Function.lower`, `Program.lower`.
-/
import Offside.Block
import Offside.Expression
import Offside.Generated
import Offside.Java.Render
import Offside.Program
import Offside.Typing

namespace Offside

/-- An expression on a line as the generated code writes it. -/
def translateOn (line : Nat) (expression : Text) : Generated Text :=
  match translate? expression with
  | some t => .ok t
  | none => Generated.fault line (.unterminatedString expression)

/-- The scope after a statement. -/
def introduce (scope : Scope) : Tree → Scope
  | .forLoop line loop _ => scope.declare ⟨loop.counter, .int, line⟩
  | .assignment line name value =>
    match translate? value with
    | some t => if scope.sees name then scope else scope.declare ⟨name, typeOf scope t, line⟩
    | none => scope
  | _ => scope

/-- The statements that a block's statements come to. A `pass` comes to
none. -/
def gather (gs : List (Generated (Option Java.Statement))) : Generated (List Java.Statement) :=
  (Generated.all gs).map fun ss => ss.filterMap id

/-- An assignment of the translated value `t`. -/
def assign (scope : Scope) (name t : Text) : Java.Statement :=
  if scope.sees name then .assignment name "=" t else .declaration (typeOf scope t) name t

/-- The printed value of several arguments: their texts with a space between
each two. -/
def printed (arguments : List Text) : Text :=
  List.intercalate " + \" \" + ".toList arguments

mutual

/-- What a statement comes to in a scope. Outside a function nothing can be
returned. -/
def lowerTree (inFunction : Bool) (scope : Scope) : Tree → Generated (Option Java.Statement)
  | .conditional line branches otherwise =>
    ((Generated.all (lowerBranches inFunction scope line branches)).both
        (lowerElse inFunction scope otherwise)).map
      fun (bs, body) => some (.conditional bs body)
  | .whileLoop line condition body =>
    ((translateOn line condition).both (gather (lowerTrees inFunction ([] :: scope) body))).map
      fun (c, b) => some (.whileLoop c b)
  | .forLoop line loop body =>
    let inner := scope.declare ⟨loop.counter, .int, line⟩
    (((translateOn line loop.start).both (translateOn line loop.stop)).both
        ((translateOn line loop.step).both (gather (lowerTrees inFunction ([] :: inner) body)))).map
      fun ((start, stop), step, b) => some (.forLoop loop.counter start stop step b)
  | .returned line value =>
    if inFunction then
      match value with
      | some v => (translateOn line v).map fun t => some (.returned (some t))
      | none => .ok (some (.returned none))
    else Generated.fault line .returnOutsideFunction
  | .print line arguments =>
    (Generated.all (arguments.map (translateOn line))).map fun ts => some (.println (printed ts))
  | .call _ text => .ok (some (.call text))
  | .assignment line name value => (translateOn line value).map fun t => some (assign scope name t)
  | .update line name operator value =>
    if scope.sees name then
      (translateOn line value).map fun t => some (.assignment name [operator, '='] t)
    else Generated.fault line (.undefinedVariable name)
  | .pass _ => .ok none
  | .breakLoop _ => .ok (some .breakLoop)
  | .continueLoop _ => .ok (some .continueLoop)
  | .malformed line problem => Generated.fault line problem

/-- What the statements of a block come to, each in the scope that those
before it leave. -/
def lowerTrees (inFunction : Bool) (scope : Scope) :
    List Tree → List (Generated (Option Java.Statement))
  | [] => []
  | t :: ts => lowerTree inFunction scope t :: lowerTrees inFunction (introduce scope t) ts

/-- What the branches of a conditional come to. -/
def lowerBranches (inFunction : Bool) (scope : Scope) (line : Nat) :
    List (Text × List Tree) → List (Generated (Text × List Java.Statement))
  | [] => []
  | (condition, body) :: more =>
    (translateOn line condition).both (gather (lowerTrees inFunction ([] :: scope) body))
      :: lowerBranches inFunction scope line more

/-- What the last branch of a conditional comes to, if it has one. -/
def lowerElse (inFunction : Bool) (scope : Scope) :
    Option (List Tree) → Generated (Option (List Java.Statement))
  | none => .ok none
  | some body => (gather (lowerTrees inFunction ([] :: scope) body)).map some

end

/-- What a block comes to inside a scope. -/
def lowerBlock (inFunction : Bool) (scope : Scope) (b : Block) : Generated (List Java.Statement) :=
  gather (lowerTrees inFunction ([] :: scope) b)

mutual

/-- The types of the values that a statement returns, in order. -/
def Tree.returnTypes (scope : Scope) : Tree → List ValueType
  | .conditional _ branches otherwise =>
    returnTypesOfBranches scope branches ++ returnTypesOfElse scope otherwise
  | .whileLoop _ _ body => returnTypes ([] :: scope) body
  | .forLoop line loop body => returnTypes ([] :: scope.declare ⟨loop.counter, .int, line⟩) body
  | .returned _ (some value) => ((translate? value).map (typeOf scope)).toList
  | _ => []

/-- The types of the values that statements return, each in the scope that
those before it leave. -/
def returnTypes (scope : Scope) : List Tree → List ValueType
  | [] => []
  | t :: ts => t.returnTypes scope ++ returnTypes (introduce scope t) ts

/-- The types of the values that the branches of a conditional return. -/
def returnTypesOfBranches (scope : Scope) : List (Text × List Tree) → List ValueType
  | [] => []
  | (_, body) :: more => returnTypes ([] :: scope) body ++ returnTypesOfBranches scope more

/-- The types of the values that the last branch of a conditional returns. -/
def returnTypesOfElse (scope : Scope) : Option (List Tree) → List ValueType
  | none => []
  | some body => returnTypes ([] :: scope) body

end

mutual

/-- What lowering a statement writes to the log. -/
def Tree.records (scope : Scope) : Tree → List Record
  | .conditional _ branches otherwise =>
    recordsOfBranches scope branches ++ recordsOfElse scope otherwise
  | .whileLoop _ _ body => blockRecords ([] :: scope) body
  | .forLoop line loop body =>
    let counter : Symbol := ⟨loop.counter, .int, line⟩
    scope.records counter ++ blockRecords ([] :: scope.declare counter) body
  | _ => []

/-- What lowering statements writes to the log. -/
def blockRecords (scope : Scope) : List Tree → List Record
  | [] => []
  | t :: ts => t.records scope ++ blockRecords (introduce scope t) ts

/-- What lowering the branches of a conditional writes to the log. -/
def recordsOfBranches (scope : Scope) : List (Text × List Tree) → List Record
  | [] => []
  | (_, body) :: more => blockRecords ([] :: scope) body ++ recordsOfBranches scope more

/-- What lowering the last branch of a conditional writes to the log. -/
def recordsOfElse (scope : Scope) : Option (List Tree) → List Record
  | none => []
  | some body => blockRecords ([] :: scope) body

end

namespace Function

/-- The frame of a function's parameters, which are whole numbers, added to
`f`. -/
def declareParameters (line : Nat) (f : Frame) (parameters : List Text) : Frame :=
  parameters.foldl (fun f p => f.declare ⟨p, .int, line⟩) f

/-- What introducing the parameters writes to the log. -/
def parameterRecords (line : Nat) (f : Frame) : List Text → List Record
  | [] => []
  | p :: ps =>
    let parameter : Symbol := ⟨p, .int, line⟩
    f.records parameter ++ parameterRecords line (f.declare parameter) ps

/-- The method that a block of statements makes of a function. -/
def method (f : Function) (b : Block) : Generated Java.Method :=
  let scope : Scope := [declareParameters f.line [] f.signature.parameters]
  (lowerBlock true scope b).map fun body =>
    ⟨f.signature.name, ValueType.highest (returnTypes ([] :: scope) b), f.signature.parameters, body⟩

/-- What making a method of a function writes to the log. -/
def methodRecords (f : Function) (b : Block) : List Record :=
  let scope : Scope := [declareParameters f.line [] f.signature.parameters]
  blockRecords ([] :: scope) b ++
    match f.method b with
    | .ok m => [⟨.debug, "Resolved return type of '" ++ f.signature.name ++ "' to " ++ m.returns.name⟩]
    | .error _ => []

/-- A function as a method. A function of no lines lacks its body. -/
def lower (f : Function) : Run (Generated Java.Method) :=
  if f.body = [] then
    pure (Generated.fault f.line (.missingBody f.signature.header))
  else do
    Run.tellAll (parameterRecords f.line [] f.signature.parameters)
    let b ← Run.ofOption (Block.ofLines? f.body)
    Run.tellAll (f.methodRecords b)
    return f.method b

end Function

namespace Program

/-- The statements of the main method. -/
def lowerEntryPoint (p : Program) : Run (Generated (List Java.Statement)) := do
  let b ← Run.ofOption (Block.ofLines? p.entryPoint)
  Run.tellAll (blockRecords [[]] b)
  return lowerBlock false [] b

/-- A program as a class: its functions in order, then the entry point. -/
def lower (p : Program) : Run (Generated Java.Class) := do
  let methods ← Run.sequence (p.functions.values.map Function.lower)
  let main ← p.lowerEntryPoint
  return ((Generated.all methods).both main).map fun (ms, body) => ⟨ms, body⟩

end Program
end Offside

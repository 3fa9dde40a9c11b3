/-
# Log records and runs

A run yields the log records it wrote, in order, and its value, unless it
stopped on the way. Records have a level, and a reader who asks for a level
gets it and the more severe ones.

Key definitions: `Level`, `Record`, `Run`, `Run.tell`, `Run.ofOption`.
-/
import Offside.Text.Basic

namespace Offside

/-- How severe a log record is. -/
inductive Level where
  | error
  | warn
  | info
  | debug
  | trace
  deriving DecidableEq, Repr

namespace Level

/-- The place of a level, the most severe first. -/
def rank : Level → Nat
  | error => 0
  | warn => 1
  | info => 2
  | debug => 3
  | trace => 4

/-- A level as a record shows it. -/
def name : Level → Text
  | error => "ERROR"
  | warn => "WARN"
  | info => "INFO"
  | debug => "DEBUG"
  | trace => "TRACE"

end Level

/-- A log record. -/
structure Record where
  level : Level
  message : Text
  deriving DecidableEq, Repr

namespace Record

/-- The records that are at least as severe as `level`. -/
def upTo (level : Level) (rs : List Record) : List Record :=
  rs.filter fun r => r.level.rank ≤ level.rank

end Record

/-- What a run wrote to the log and what it yields; one that stopped on the
way yields nothing. -/
structure Run (α : Type) where
  records : List Record
  value : Option α

namespace Run

variable {α β : Type}

/-- A run that writes one record. -/
def tell (level : Level) (message : Text) : Run Unit := ⟨[⟨level, message⟩], some ()⟩

/-- A run that writes records. -/
def tellAll (rs : List Record) : Run Unit := ⟨rs, some ()⟩

/-- A run that yields a value if there is one, and stops otherwise. -/
def ofOption (value : Option α) : Run α := ⟨[], value⟩

/-- One run and then the next, unless the first one stopped. -/
def bind (x : Run α) (f : α → Run β) : Run β :=
  match x.value with
  | none => ⟨x.records, none⟩
  | some a => ⟨x.records ++ (f a).records, (f a).value⟩

instance : Monad Run where
  pure a := ⟨[], some a⟩
  bind := bind

/-- The runs of a list one after the other, up to the first that stops. -/
def sequence : List (Run α) → Run (List α)
  | [] => pure []
  | x :: xs => do
    let a ← x
    let as ← sequence xs
    return a :: as

end Run
end Offside

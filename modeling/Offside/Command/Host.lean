/-
# The hosts of commands

A command reads one place and writes one place, and a place is a file or a
standard stream. A host is what carries that out, in a monad of its own: the
process that a command runs in, or a `Desk`, which is a directory with the
standard streams as plain data.

Key definitions: `Host`, `Desk`, `Desk.host`.
-/
import Offside.Command.Directory
import Offside.Log

namespace Offside

/-- What a command asks of its surroundings. A place is a path or, without one,
a standard stream. -/
structure Host (m : Type → Type) where
  /-- The bytes at a place, if it can be read. -/
  read : Option Text → m (Option ByteArray)
  /-- Writes a text to a place, and tells whether that went well. A standard
  output with a buffer may take the text before it comes out. -/
  write : Option Text → Text → m Bool
  /-- Writes records to the log. -/
  log : List Record → m Unit

/-- The bytes of a text. -/
def Text.bytes (t : Text) : ByteArray := (String.ofList t).toUTF8

/-- A directory with standard input and what has come out on standard output. -/
structure Desk where
  directory : Directory
  input : ByteArray
  output : Text

namespace Desk

/-- The bytes at a place. -/
def read? (d : Desk) : Option Text → Option ByteArray
  | some path => d.directory.read? path
  | none => some d.input

/-- The desk after a text is written to a place, if that is a file or standard
output. -/
def write? (d : Desk) (t : Text) : Option Text → Option Desk
  | some path => (d.directory.write? path t.bytes).map fun files => { d with directory := files }
  | none => some { d with output := d.output ++ t }

/-- The host that works on a desk. It keeps no log. -/
def host : Host (StateM Desk) where
  read place := return (← get).read? place
  write place t := do
    match (← get).write? t place with
    | some d => set d; return true
    | none => return false
  log _ := return ()

end Desk
end Offside

/-
# Directories

The files that a command sees, by name. A path with a directory in it leads
nowhere, because the directory holds files only; `./` leads to itself.

Key definitions: `Directory`, `Directory.nameOf?`, `Directory.read?`,
`Directory.write?`.
-/
import Offside.OrderedMap
import Offside.Text.Basic

namespace Offside

/-- Files by name, with the bytes in them. -/
abbrev Directory := OrderedMap Text ByteArray

namespace Directory

/-- The path as the name of a file: no slashes, and not the name of a
directory. -/
def plainName? (path : Text) : Option Text :=
  if path = [] ∨ path = "." ∨ path = ".." ∨ path.contains '/' then none else some path

/-- The name of the file that a path stands for after `./`, which may come
again, with any number of slashes. -/
def nameInside? : Text → Option Text
  | '/' :: rest => nameInside? rest
  | '.' :: '/' :: rest => nameInside? rest
  | path => plainName? path

/-- The name of the file that a path stands for. -/
def nameOf? : Text → Option Text
  | '.' :: '/' :: rest => nameInside? rest
  | path => plainName? path

/-- The bytes of the file that a path stands for. -/
def read? (d : Directory) (path : Text) : Option ByteArray := do d.lookup (← nameOf? path)

/-- The directory after a file is written, if the path stands for one. -/
def write? (d : Directory) (path : Text) (bytes : ByteArray) : Option Directory :=
  (nameOf? path).map fun name => d.insert name bytes

end Directory
end Offside

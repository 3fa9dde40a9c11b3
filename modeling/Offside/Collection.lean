/-
# Collection literals

Lists, dictionaries and tuples have no counterpart in the generated code. One
is recognised by its opening bracket and, later, its closing bracket, both
outside every quoted literal.

Key definitions: `Collection`, `Collection.find?`.
-/
import Offside.Quote

namespace Offside

/-- The kinds of collection literal. -/
inductive Collection where
  | list
  | dictionary
  | tuple
  deriving DecidableEq, Repr

namespace Collection

/-- What a collection is called in a report. -/
def name : Collection → Text
  | .list => "List"
  | .dictionary => "Dictionary"
  | .tuple => "Tuple"

/-- The bracket that opens a collection. -/
def opener : Collection → Char
  | .list => '['
  | .dictionary => '\x7b'
  | .tuple => '('

/-- The bracket that closes a collection. -/
def closer : Collection → Char
  | .list => ']'
  | .dictionary => '\x7d'
  | .tuple => ')'

/-- Whether a text holds the opening bracket and, after it, the closing one. -/
def occursIn (k : Collection) (t : Text) : Bool :=
  (t.dropWhile (· ≠ k.opener)).contains k.closer

/-- The first kind of collection, lists before dictionaries before tuples,
that occurs in a text outside its quoted literals. -/
def find? (t : Text) : Option Collection :=
  [list, dictionary, tuple].find? (·.occursIn (mask t))

end Collection
end Offside

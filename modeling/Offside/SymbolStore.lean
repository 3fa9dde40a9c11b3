/-
# Symbol stores

A store numbers tables of symbols in the order of their creation. A table may
name another one as its parent, and it may be dropped. The scope of a table is
its own frame, then those of the tables above it, up to the first that has no
parent or whose parent was dropped.

Key definitions: `Table`, `SymbolStore`, `SymbolStore.scope`.
-/
import Offside.Typing

namespace Offside

/-- A table of a store. -/
structure Table where
  frame : Frame
  /-- The number of the table around it. -/
  parent : Option Nat
  /-- Whether it has not been dropped. -/
  alive : Bool

/-- Tables by number. -/
abbrev SymbolStore := List Table

namespace SymbolStore

/-- A table that has not been dropped. -/
def live? (s : SymbolStore) (i : Nat) : Option Table := s[i]?.filter Table.alive

/-- The frames from table `i` upwards, over at most `limit` tables. -/
def scopeWithin (s : SymbolStore) : Nat → Nat → Scope
  | 0, _ => []
  | limit + 1, i =>
    match s.live? i with
    | none => []
    | some t =>
      t.frame ::
        match t.parent with
        | none => []
        | some j => scopeWithin s limit j

/-- The frames from table `i` upwards. A chain without repetition is no longer
than the store. -/
def scope (s : SymbolStore) (i : Nat) : Scope := s.scopeWithin s.length i

/-- The store with a table more, whose number is the former size. -/
def create (s : SymbolStore) (parent : Option Nat) : SymbolStore := s ++ [⟨[], parent, true⟩]

/-- The store after a table is dropped. -/
def drop (s : SymbolStore) (i : Nat) : SymbolStore :=
  s.modify i fun t => { t with alive := false }

/-- The store after a symbol is introduced into a table. -/
def declare (s : SymbolStore) (i : Nat) (symbol : Symbol) : SymbolStore :=
  s.modify i fun t => { t with frame := t.frame.declare symbol }

/-- The store after a table is put inside another one, or inside none. -/
def reparent (s : SymbolStore) (i : Nat) (parent : Option Nat) : SymbolStore :=
  s.modify i fun t => { t with parent := parent.filter fun j => (s.live? j).isSome }

end SymbolStore
end Offside

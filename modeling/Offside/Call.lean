/-
# Calls

A call is a name, an opening parenthesis, and a closing parenthesis at the
very end of the text. Nothing is asked of what stands between the two.

Key definitions: `startsWithWord`, `callArguments?`, `isCall`.
-/
import Offside.Name
import Offside.Text.Blank

namespace Offside

/-- Whether a text begins with `word` and the word ends there. -/
def startsWithWord (word t : Text) : Bool :=
  match word.isPrefixOf? t with
  | some rest => !rest.head?.any isNameChar
  | none => false

/-- The text between the parentheses of a call of `name` that takes up the
whole text. -/
def callArguments? (name t : Text) : Option Text :=
  match name.isPrefixOf? t with
  | some rest =>
    if rest.head?.any isNameChar then none
    else
      match Text.trimStart rest with
      | '(' :: inner => Text.dropEnd? ')' inner
      | _ => none
  | none => none

/-- Whether a text is one call, whatever it calls. -/
def isCall (t : Text) : Bool :=
  match Text.cut? "(" t with
  | some (name, inner) => isName (Text.trimEnd name) && inner.getLast? == some ')'
  | none => false

theorem startsWithWord_of_callArguments {name t args : Text} (h : callArguments? name t = some args) :
    startsWithWord name t = true := by
  unfold callArguments? at h
  unfold startsWithWord
  split at h
  · split at h <;> simp_all
  · simp at h

end Offside

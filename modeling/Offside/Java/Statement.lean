/-
# Java classes

The generated class: static methods whose parameters are whole numbers, and a
main method. Expressions are kept as texts.

Key definitions: `Java.Statement`, `Java.Method`, `Java.Class`.
-/
import Offside.ValueType

namespace Offside
namespace Java

/-- A statement of the generated code. -/
inductive Statement where
  | declaration (type : ValueType) (name value : Text)
  | assignment (name operator value : Text)
  | conditional (branches : List (Text × List Statement)) (otherwise : Option (List Statement))
  | whileLoop (condition : Text) (body : List Statement)
  | forLoop (counter start stop step : Text) (body : List Statement)
  | returned (value : Option Text)
  | println (value : Text)
  | call (text : Text)
  | breakLoop
  | continueLoop

/-- A static method. -/
structure Method where
  name : Text
  returns : ValueType
  parameters : List Text
  body : List Statement

/-- The generated class. -/
structure Class where
  methods : List Method
  main : List Statement

end Java
end Offside

/-
Type tables: which primitive type name goes with which boxed type name.

A table is a list of pairs with distinct primitive names. Where two primitives
share a boxed name, the later pair decides which primitive the boxed name stands
for.
-/

namespace Formulary

/-- Pairs of a primitive type name and its boxed type name. -/
structure TypeTable where
  pairs : List (List Char × List Char)
deriving DecidableEq, Repr

namespace TypeTable

/-- The six kinds of result with an entry point of their own. -/
def standard : TypeTable where
  pairs :=
    [("double".toList, "Double".toList), ("float".toList, "Float".toList),
      ("int".toList, "Integer".toList), ("long".toList, "Long".toList),
      ("boolean".toList, "Boolean".toList), ("short".toList, "Short".toList)]

/-- The boxed name of a primitive. -/
def boxedName? (table : TypeTable) (primitive : List Char) :
    Option (List Char) :=
  (table.pairs.find? fun pair => pair.1 == primitive).map Prod.snd

/-- The primitive that a boxed name stands for: the last one paired with it. -/
def primitiveName? (table : TypeTable) (boxed : List Char) :
    Option (List Char) :=
  (table.pairs.reverse.find? fun pair => pair.2 == boxed).map Prod.fst

/-- Whether the table has `name` as a primitive. -/
def isPrimitive (table : TypeTable) (name : List Char) : Bool :=
  (table.boxedName? name).isSome

/-- Whether the table has `name` as a boxed type. -/
def isBoxed (table : TypeTable) (name : List Char) : Bool :=
  (table.primitiveName? name).isSome

end TypeTable

end Formulary

/-
Putting accesses to the argument array in the place of parameter names.

Every declaration makes one pass over the body, in declaration order, and a
later pass runs over what the earlier ones have written. A repeated name makes a
pass of its own with its own index.
-/

import Formulary.Signature
import Formulary.Text.FreeStanding
import Formulary.TypeTable

namespace Formulary.Substitution

/-- The text that reads the argument of a declaration: a cast of the array slot,
unboxed where the table knows the type as boxed. -/
def access (table : TypeTable) (argsName : List Char) (declaration : Declaration) :
    List Char :=
  let slot :=
    argsName ++ '[' :: (Nat.toDigits 10 declaration.index ++ [']'])
  let cast := '(' :: declaration.typeName ++ ") ".toList ++ slot
  match table.primitiveName? declaration.typeName with
  | some primitive => "((".toList ++ cast ++ ").".toList ++ primitive ++ "Value())".toList
  | none => '(' :: cast ++ [')']

/-- Writes the access of each declaration for the free-standing occurrences of
its name. -/
def substitute (table : TypeTable) (argsName : List Char)
    (declarations : List Declaration) (body : List Char) : List Char :=
  declarations.foldl
    (fun body declaration =>
      Text.replaceFree declaration.name (access table argsName declaration) body)
    body

end Formulary.Substitution

/-
What names stand for.

A name is looked up among the primitive types, then in the namespace that the
caller gives, then among the built-in types and at last among the modules of the
host. Dotted names lead into a module and on from member to member.
-/

import Formulary.Host.Member
import Formulary.Kind
import Formulary.Text.Blank

namespace Formulary

/-- The host objects that the caller gives names to. -/
abbrev Namespace := List (String × Value)

namespace Kind

/-- The kind that a host object stands for under a name. A built-in type stands for
itself. -/
def ofHost (name : String) (target : Value) : Kind :=
  match target with
  | .type type => .core type
  | target => .host name target false

/-- An abstract class as a kind. -/
def view (name : String) (type : HostClass) : Kind :=
  .host name (.hostClass type) true

/-- A class as a kind. -/
def ofClass (name : String) (type : HostClass) : Kind :=
  .host name (.hostClass type) false

/-- The built-in types of the language. -/
def languageTypes : List (String × Kind) :=
  [("Object", .core .object), ("String", .core .string), ("Number", .number),
    ("Math", view "Math" .math), ("Iterable", view "Iterable" .iterable)] ++
    Primitive.all.map fun type => (type.boxedName, .core (.boxed type))

/-- The built-in containers. -/
def containerTypes : List (String × Kind) :=
  [("Collection", view "Collection" .collection), ("List", view "List" .sequence),
    ("ArrayList", ofClass "ArrayList" .list), ("Iterator", view "Iterator" .iterator),
    ("Map", view "Map" .mapping), ("HashMap", ofClass "HashMap" .map),
    ("Set", view "Set" .setView), ("HashSet", ofClass "HashSet" .set)]

/-- All built-in types, under their plain names and under those with their
packages. -/
def builtins : List (String × Kind) :=
  languageTypes ++ containerTypes ++
    languageTypes.map (fun entry => ("java.lang." ++ entry.1, entry.2)) ++
    containerTypes.map (fun entry => ("java.util." ++ entry.1, entry.2))

end Kind

namespace Resolver

/-- The pieces of a dotted name. -/
def pieces (name : String) : List String :=
  (Text.pieces '.' name.toList).map String.ofList

/-- What a chain of members leads to. -/
def follow (store : Store) : Value → List String → Option Value
  | value, [] => some value
  | value, name :: rest => (store.member? value name).bind (follow store · rest)

/-- What a dotted name leads to among the modules of the host. -/
def imported? (store : Store) (name : String) : Option Value :=
  match pieces name with
  | "hostlib" :: "geom" :: members => follow store (.hostModule .geom) members
  | "hostlib" :: "LIMIT" :: members => follow store (.int 7) members
  | _ => none

/-- What a name stands for. -/
def resolve (store : Store) (names : Namespace) (name : String) : Option Kind :=
  match Primitive.ofName? name with
  | some type => some (.core (.primitive type))
  | none =>
    match names.lookup name with
    | some target => some (.ofHost name target)
    | none =>
      match Kind.builtins.lookup name with
      | some kind => some kind
      | none =>
        if name.contains '.' then (imported? store name).map (.ofHost name) else none

/-- What a name stands for that need not be a name of the body language: one that
begins with a dot leads nowhere that could be asked for. -/
def resolveAny (store : Store) (names : Namespace) (name : String) :
    Except Fault (Option Kind) :=
  match resolve store names name with
  | some kind => .ok (some kind)
  | none => if name.startsWith "." then .error .wrongType else .ok none

end Resolver

end Formulary

/-
Members of values.

`Store.member?` finds what a value has under a name: a member that was set on it,
a method, or what its class provides. A function that a class provides becomes a
method when it is reached through an instance; the functions of `Math` do not.
-/

import Formulary.Store

namespace Formulary

/-- The names of the functions of the class `Math`. -/
def MathFunction.names : List (String × MathFunction) :=
  [("sqrt", .sqrt), ("cbrt", .cbrt), ("exp", .exp), ("log", .log), ("log10", .log10),
    ("sin", .sin), ("cos", .cos), ("tan", .tan), ("asin", .asin), ("acos", .acos),
    ("atan", .atan), ("atan2", .atan2), ("hypot", .hypot), ("floor", .floor),
    ("ceil", .ceil), ("rint", .rint), ("toRadians", .toRadians),
    ("toDegrees", .toDegrees), ("pow", .pow), ("abs", .abs), ("max", .max),
    ("min", .min), ("round", .round), ("signum", .signum), ("floorDiv", .floorDiv),
    ("floorMod", .floorMod), ("random", .random)]

/-- The circumference of a circle over its diameter, to the nearest double. -/
def Double.pi : Double := .ofIndex false 0x400921FB54442D18

/-- The base of the natural logarithm, to the nearest double. -/
def Double.e : Double := .ofIndex false 0x4005BF0A8B145769

/-- What a class provides under a name. -/
def HostClass.member? (type : HostClass) (name : String) : Option Value :=
  match type with
  | .math =>
    match name with
    | "PI" => some (.double .pi)
    | "E" => some (.double .e)
    | _ => (MathFunction.names.lookup name).map fun f => .hostFunction (.math f)
  | .limits => if name = "CEILING" then some (.int 10) else none
  | .label =>
    match name with
    | "toString" => some (.hostFunction .labelText)
    | "join" => some (.hostFunction .labelJoin)
    | _ => none
  | _ => none

/-- What a module provides under a name. -/
def HostModule.member? (module : HostModule) (name : String) : Option Value :=
  match module, name with
  | .geom, "Vec" => some (.hostClass .point)
  | .geom, "UNIT" => some (.double (.ofRat false (3 / 2)))
  | .geom, "twice" => some (.hostFunction .twice)
  | .geom, _ => none

/-- The methods of a kind of object. -/
def ObjectKind.methods : ObjectKind → List String
  | .list =>
    ["append", "clear", "count", "extend", "index", "insert", "pop", "remove",
      "reverse", "sort"]
  | .tuple => ["count", "index"]
  | .map => ["get", "pop", "clear", "keys"]
  | .set => ["add", "discard", "remove"]
  | .iterator => ["hasNext", "next"]
  | .keys | .bare | .record _ => []

/-- The methods of texts. -/
def textMethods : List String :=
  ["count", "find", "index", "isdigit", "join", "lower", "upper", "replace", "split",
    "startswith", "strip"]

/-- What a number has under a name. -/
def numberMember? (value : Value) (name : String) : Option Value :=
  match value with
  | .bool b =>
    match name with
    | "real" | "numerator" => some (.int (if b then 1 else 0))
    | "imag" => some (.int 0)
    | "denominator" => some (.int 1)
    | "bit_length" => some (.method value name)
    | _ => none
  | .int i | .long i =>
    match name with
    | "real" | "numerator" => some (.int i)
    | "imag" => some (.int 0)
    | "denominator" => some (.int 1)
    | "bit_length" => some (.method value name)
    | _ => none
  | .double x | .single x =>
    match name with
    | "real" => some (.double x)
    | "imag" => some (.double (.zero false))
    | "is_integer" => some (.method value name)
    | _ => none
  | .fraction q =>
    match name with
    | "real" => some value
    | "imag" => some (.int 0)
    | "numerator" => some (.int q.num)
    | "denominator" => some (.int q.den)
    | _ => none
  | _ => none

namespace Store

/-- What a class provides under a name, set on it or its own. -/
def classMember? (store : Store) (type : HostClass) (name : String) : Option Value :=
  store.setting? (.hostClass type) name <|> type.member? name

/-- What a class provides to an instance. -/
def boundMember? (store : Store) (type : HostClass) (owner : Value)
    (name : String) : Option Value :=
  match store.setting? (.hostClass type) name with
  | some (.hostFunction _) => some (.method owner name)
  | some value => some value
  | none =>
    match type.member? name with
    | some (.hostFunction (.math f)) => some (.hostFunction (.math f))
    | some (.hostFunction _) => some (.method owner name)
    | other => other

/-- What a value has under a name. -/
def member? (store : Store) (value : Value) (name : String) : Option Value :=
  match value with
  | .object (.record type) ref =>
    (store.members ref).lookup name <|> store.boundMember? type value name
  | .object kind _ =>
    store.setting? value name <|>
      (if kind.methods.contains name then some (.method value name) else none)
  | .hostClass type => store.classMember? type name
  | .hostModule module => store.setting? value name <|> module.member? name
  | .hostFunction _ | .type _ => store.setting? value name
  | .str _ | .char _ =>
    if textMethods.contains name then some (.method value name) else none
  | value => numberMember? value name

end Store

/-- Whether members can be set on a shared thing. -/
def Value.isOpen : Value → Bool
  | .object .iterator _ | .hostFunction _ | .hostModule _ | .type .object
  | .type .string => true
  | .hostClass c => c != .list && c != .map && c != .set
  | _ => false

/-- Whether a thing refuses members as a whole instead of one by one. -/
def Value.isSealed : Value → Bool
  | .hostClass c => c == .list || c == .map || c == .set
  | _ => false

/-- Puts a value under a key, at the place of the entry that is there. -/
def assign (name : String) (value : Value) :
    List (String × Value) → List (String × Value)
  | [] => [(name, value)]
  | (other, old) :: rest =>
    if other = name then (name, value) :: rest
    else (other, old) :: assign name value rest

namespace Member

/-- Reads a field of a value. -/
def read (receiver : Value) (name : String) : Action Value := do
  let store ← get
  match receiver, name with
  | .null, _ => Action.fail (.nullFieldRead name)
  | .object .list ref, "length" | .object .tuple ref, "length" =>
    return .int (store.items ref).size
  | _, _ =>
    match store.member? receiver name with
    | some value => return value
    | none => Action.fail (.noField name receiver.typeName)

/-- Sets a field of a value. -/
def write (receiver : Value) (name : String) (value : Value) : Action Unit := do
  match receiver with
  | .null => Action.fail (.nullFieldWrite name)
  | .object (.record _) ref =>
    let members := (← get).members ref
    Action.write ref (.record (assign name value members))
  | _ =>
    if receiver.isOpen then modify fun store => store.set receiver name value
    else if receiver.isSealed then Action.refuse .wrongType
    else Action.fail (.fixedField name receiver.typeName)

end Member

end Formulary

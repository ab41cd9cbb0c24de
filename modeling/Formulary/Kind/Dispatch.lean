/-
What a kind does when a body asks it.

The types `Object` and `String` are open: a body can set members on them, and a
member that bears the name of an operation of types stands in its place from then
on. All other types are fixed, so that an operation of theirs is their own.

An operation is looked up before its operands are evaluated, and so comes in two
parts where a body has operands in between.
-/

import Formulary.Kind.Static

namespace Formulary

namespace Store

/-- Whether the host takes a value for true: what is not `null`, zero or empty. -/
def isTruthy (store : Store) : Value → Bool
  | .null => false
  | .bool b => b
  | .int i | .long i => i != 0
  | .double x | .single x => !x.isZero
  | .fraction q => q != 0
  | .char codes | .str codes => !codes.isEmpty
  | .object .list ref | .object .tuple ref => !(store.items ref).isEmpty
  | .object .map ref => !(store.entries ref).isEmpty
  | .object .set ref => !(store.elements ref).isEmpty
  | .object .keys ref => !(store.entries (store.viewed ref)).isEmpty
  | _ => true

end Store

/-- The operations of types that a body asks for. -/
inductive KindOperation where
  | isInstance
  | cast
  | convert
  | getStatic
  | callStatic
  | instantiate
  | invoke
  | asValue
deriving DecidableEq, Repr

/-- The name of a member that stands in the place of an operation. -/
def KindOperation.name : KindOperation → String
  | .isInstance => "is_instance"
  | .cast => "cast"
  | .convert => "convert"
  | .getStatic => "get_static"
  | .callStatic => "call_static"
  | .instantiate => "instantiate"
  | .invoke => "invoke"
  | .asValue => "as_value"

namespace Kind

/-- Whether a body can set members on a kind that its operations are looked up
in. -/
def isOpen : Kind → Bool
  | .core .object | .core .string => true
  | _ => false

/-- The member that stands in the place of an operation of a kind. -/
def override? (store : Store) (kind : Kind) (operation : KindOperation) :
    Option Value :=
  if kind.isOpen then store.setting? kind.toValue operation.name else none

end Kind

namespace Dispatch

/-- Looks an operation of a kind up: the member that stands in its place. -/
def find (kind : Kind) (operation : KindOperation) : Action (Option Value) :=
  Action.read fun store => kind.override? store operation

/-- Does what has been looked up: calls the member, or does the operation of the
kind itself. -/
def perform (found : Option Value) (args : Action (List Value))
    (own : Action Value) : Action Value := do
  match found with
  | some member => Host.call member (← args)
  | none => own

/-- What a kind says to whether a value is an instance of it. -/
def isInstance (kind : Kind) (value : Value) : Action Value := do
  perform (← find kind .isInstance) (pure [value])
    (Action.ofExcept do return .bool (← kind.isInstance value))

/-- The cast of a kind itself. One that is open asks what stands in the place of
its test of instances. -/
def ownCast (kind : Kind) (value : Value) : Action Value := do
  match ← find kind .isInstance with
  | none => Action.ofResult (kind.cast value)
  | some member =>
    if value = .null then return value
    else
      let answer ← Host.call member [value]
      if (← get).isTruthy answer then return value
      else Action.fail (.classCast value.typeName kind.name)

/-- Casts a value to a kind. -/
def cast (found : Option Value) (kind : Kind) (value : Value) : Action Value :=
  perform found (pure [value]) (ownCast kind value)

/-- Takes a value over into a variable of a kind. -/
def convert (found : Option Value) (kind : Kind) (value : Value) : Action Value :=
  perform found (pure [value]) (Action.ofResult (kind.convert value))

/-- Takes a value over as the result of a body of a kind. -/
def convertResult (kind : Kind) (value : Value) : Action Value := do
  match kind with
  | .core (.primitive _) | .core (.boxed _) => Action.ofResult (kind.convert value)
  | kind => cast (← find kind .cast) kind value

/-- A kind as a value. -/
def asValue (kind : Kind) : Action Value := do
  perform (← find kind .asValue) (pure []) (pure kind.toValue)

/-- The constant or the member that a kind has under a name. -/
def getStatic (kind : Kind) (name : String) : Action Value := do
  perform (← find kind .getStatic) (pure [.str (codesOfString name)])
    (Action.consult fun store => kind.getStatic store name)

/-- Arguments as one value. -/
def packed (args : List Value) : Action Value :=
  Action.newList args.toArray

/-- Calls a static method of a kind. -/
def callStatic (kind : Kind) (name : String) (args : List Value) : Action Value := do
  perform (← find kind .callStatic)
    (do return [.str (codesOfString name), ← packed args])
    (kind.callStatic name args)

/-- A new instance of a kind. -/
def instantiate (found : Option Value) (kind : Kind) (args : List Value) :
    Action Value :=
  perform found (do return [← packed args]) (kind.instantiate args)

/-- Calls what a kind stands for. -/
def invoke (found : Option Value) (kind : Kind) (args : List Value) : Action Value :=
  perform found (do return [← packed args]) (kind.invoke args)

end Dispatch

end Formulary

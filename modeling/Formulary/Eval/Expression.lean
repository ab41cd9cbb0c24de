/-
Evaluating expressions.

Operands are evaluated from left to right. A compound assignment reads its target
first, and it casts its result to the declared kind of a variable, where a plain
assignment converts.
-/

import Formulary.Check
import Formulary.Eval.Machine
import Formulary.Kind.Dispatch
import Formulary.Method
import Formulary.Operation

namespace Formulary.Eval

/-- What can be assigned to. -/
inductive Location where
  | variable (name : String) (kind : Kind)
  | field (receiver : Value) (name : String)
  | element (container index : Value)
deriving DecidableEq, Repr

namespace Location

/-- The value at a location. -/
def read : Location → Machine Value
  | .variable name _ => Machine.valueOf name
  | .field receiver name => Machine.act (Member.read receiver name)
  | .element container index => Machine.act (Place.load container index)

/-- Puts a value at a location. -/
def write (value : Value) : Location → Machine Unit
  | .variable name _ => Machine.changeEnvironment (·.setValue name value)
  | .field receiver name => Machine.act (Member.write receiver name value)
  | .element container index => Machine.act (Place.store container index value)

/-- The value as a location takes it: cast or converted to the declared kind of a
variable, and as it is anywhere else. -/
def adapt (narrowing : Bool) (value : Value) : Location → Machine Value
  | .variable _ kind => Machine.act do
    if narrowing then Dispatch.cast (← Dispatch.find kind .cast) kind value
    else Dispatch.convert (← Dispatch.find kind .convert) kind value
  | _ => pure value

/-- Assigns a value to a location; the value as it was taken. -/
def assign (narrowing : Bool) (value : Value) (location : Location) :
    Machine Value := do
  let value ← location.adapt narrowing value
  location.write value
  return value

end Location

mutual

/-- The value of an expression. -/
def expression : CheckedExpr → Machine Value
  | .literal _ value => pure value
  | .name _ ident => Machine.valueOf ident
  | .typeName _ type => Machine.act (Dispatch.asValue type.resolved)
  | .field _ (.typeName _ type) member =>
    Machine.act (Dispatch.getStatic type.resolved member)
  | .field _ receiver member => do
    Machine.act (Member.read (← expression receiver) member)
  | .methodCall _ (.typeName _ type) method args => do
    let args ← expressions args
    Machine.act (Dispatch.callStatic type.resolved method args)
  | .methodCall _ receiver method args => do
    let receiver ← expression receiver
    Machine.act (Method.invoke receiver method (← expressions args))
  | .call _ callee args => do
    let found ← Machine.act (Dispatch.find callee.resolved .invoke)
    Machine.act (Dispatch.invoke found callee.resolved (← expressions args))
  | .index _ container place => do
    let container ← expression container
    Machine.act (Place.load container (← expression place))
  | .unary _ op operand => do Machine.act (Operation.unary op (← expression operand))
  | .step _ op target before => do
    let location ← locate target
    let old ← location.read
    let result ← Machine.act (Operation.binary op.toBinary old (.int 1))
    let new ← location.assign true result
    return if before then new else old
  | .binary _ op left right => do
    let left ← expression left
    Machine.act (Operation.binary op left (← expression right))
  | .logical _ op left right => do
    let first ← Machine.ofExcept (Arithmetic.truth (← expression left))
    match op, first with
    | .and, false => return .bool false
    | .or, true => return .bool true
    | _, _ =>
      return .bool (← Machine.ofExcept (Arithmetic.truth (← expression right)))
  | .conditional _ condition thenValue elseValue => do
    if ← Machine.ofExcept (Arithmetic.truth (← expression condition)) then
      expression thenValue
    else expression elseValue
  | .assign _ none target value => do
    let location ← locate target
    location.assign false (← expression value)
  | .assign _ (some op) target value => do
    let location ← locate target
    let old ← location.read
    let result ← Machine.act (Operation.binary op old (← expression value))
    location.assign true result
  | .cast _ type operand => do
    let found ← Machine.act (Dispatch.find type.resolved .cast)
    Machine.act (Dispatch.cast found type.resolved (← expression operand))
  | .instanceOf _ value type => do
    let value ← expression value
    if value = .null then return .bool false
    else Machine.act (Dispatch.isInstance type.resolved value)
  | .new _ type args => do
    let found ← Machine.act (Dispatch.find type.resolved .instantiate)
    Machine.act (Dispatch.instantiate found type.resolved (← expressions args))

/-- The values of expressions, the first one first. -/
def expressions : List CheckedExpr → Machine (List Value)
  | [] => pure []
  | expr :: rest => do
    let value ← expression expr
    return value :: (← expressions rest)

/-- The location that an expression stands for. -/
def locate : CheckedExpr → Machine Location
  | .name _ ident => do return .variable ident (← Machine.binding ident).kind
  | .field _ (.typeName _ type) member => do
    return .field (← Machine.act (Dispatch.asValue type.resolved)) member
  | .field _ receiver member => do return .field (← expression receiver) member
  | .index _ container place => do
    let container ← expression container
    return .element container (← expression place)
  | _ => Machine.stop .notVariable

end

/-- The truth value of a condition. -/
def condition (expr : CheckedExpr) : Machine Bool := do
  Machine.ofExcept (Arithmetic.truth (← expression expr))

/-- Evaluates expressions for what they change. -/
def effects : List CheckedExpr → Machine Unit
  | [] => pure ()
  | expr :: rest => do
    let _ ← expression expr
    effects rest

end Formulary.Eval

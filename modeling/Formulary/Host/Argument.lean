/-
Arguments of host methods.

Where a host method asks for a place it takes integers and truth values; places
in a text or a list may be left out.
-/

import Formulary.Store

namespace Formulary.Argument

/-- The integer that a place is given by. -/
def integer? : Value → Option Int
  | .bool b => some (if b then 1 else 0)
  | .int i | .long i => some i
  | _ => none

/-- A place; a wrong type where it is none. -/
def integer (value : Value) : Except Fault Int :=
  match integer? value with
  | some i => .ok i
  | none => .error .wrongType

/-- A place that the machine can count to. -/
def machineInteger (value : Value) : Except Fault Int := do
  let i ← integer value
  if -0x8000000000000000 ≤ i && i < 0x8000000000000000 then return i else throw (.host .overflow)

/-- A place that may be `null` for a value that stands for it. -/
def integerOr (otherwise : Int) (value : Value) : Except Fault Int :=
  if value = .null then .ok otherwise else integer value

/-- A text; a wrong type where there is none. -/
def text (value : Value) : Except Fault Codes :=
  match value.text? with
  | some codes => .ok codes
  | none => .error .wrongType

/-- All texts of a list. -/
def texts : List Value → Except Fault (List Codes)
  | [] => .ok []
  | value :: rest => do return (← text value) :: (← texts rest)

/-- The place from where and the place up to which something is asked for, where
both may be left out. -/
def stretch (length : Nat) : List Value → Except Fault (Int × Int)
  | [] => .ok (0, length)
  | [start] => do return (← integerOr 0 start, length)
  | [start, stop] => do return (← integerOr 0 start, ← integerOr length stop)
  | _ => .error .wrongType

end Formulary.Argument

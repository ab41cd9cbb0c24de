/-
Variables while a body runs.

An environment is a list of frames, the innermost one first. A variable belongs to
the innermost frame that has its name; it has a declared kind, and a value once it
has been set.
-/

import Formulary.Kind

namespace Formulary

/-- A variable: its declared kind, and its value if it has been set. -/
structure Binding where
  kind : Kind
  value : Option Value
deriving DecidableEq, Repr

/-- The variables of one block. -/
abbrev Frame := List (String × Binding)

/-- The variables in reach, the innermost block first. -/
abbrev Environment := List Frame

namespace Frame

/-- Sets the value of a variable of a frame. -/
def setValue (name : String) (value : Value) : Frame → Frame
  | [] => []
  | (other, binding) :: rest =>
    if other = name then (other, { binding with value := some value }) :: rest
    else (other, binding) :: setValue name value rest

/-- Whether a frame has a variable. -/
def has (frame : Frame) (name : String) : Bool :=
  (frame.lookup name).isSome

/-- Adds a variable, in the place of one of the same name. -/
def define (name : String) (binding : Binding) : Frame → Frame
  | [] => [(name, binding)]
  | (other, old) :: rest =>
    if other = name then (name, binding) :: rest
    else (other, old) :: define name binding rest

end Frame

namespace Environment

/-- The variable of a name. -/
def find? : Environment → String → Option Binding
  | [], _ => none
  | frame :: rest, name => frame.lookup name <|> find? rest name

/-- Sets the value of a variable. -/
def setValue (name : String) (value : Value) : Environment → Environment
  | [] => []
  | frame :: rest =>
    if frame.has name then frame.setValue name value :: rest
    else frame :: setValue name value rest

/-- Adds a variable to the innermost block. -/
def define (name : String) (binding : Binding) : Environment → Environment
  | [] => [[(name, binding)]]
  | frame :: rest => frame.define name binding :: rest

end Environment

end Formulary

/-
The methods of texts.
-/

import Formulary.Host.Argument
import Formulary.Host.Iteration
import Formulary.Text.Case
import Formulary.Text.Search

namespace Formulary.TextMethod

open Text (Search.find? Search.count Search.stretch? Search.replace Search.joined)

/-- The place of a text in another one, if it is there. -/
def place? (text : Codes) (args : List Value) : Except Fault (Option Nat) := do
  match args with
  | part :: bounds =>
    let part ← Argument.text part
    let (start, stop) ← Argument.stretch text.length bounds
    return (Search.stretch? text start stop).bind fun (first, stretch) =>
      (Search.find? part stretch).map (first + ·)
  | [] => throw .wrongType

/-- How often a text occurs in another one. -/
def occurrences (text : Codes) (args : List Value) : Except Fault Nat := do
  match args with
  | part :: bounds =>
    let part ← Argument.text part
    let (start, stop) ← Argument.stretch text.length bounds
    match Search.stretch? text start stop with
    | some (_, stretch) => return Search.count part stretch
    | none => return 0
  | [] => throw .wrongType

/-- The texts that a text may begin or end with: one, or those of a tuple. -/
def alternatives (store : Store) (value : Value) : Except Fault (List Codes) :=
  match value with
  | .object .tuple ref => Argument.texts (store.items ref).toList
  | value => do return [← Argument.text value]

/-- Whether a stretch of a text begins with a text. -/
def begins (store : Store) (text : Codes) (args : List Value) :
    Except Fault Bool := do
  match args with
  | value :: bounds =>
    let parts ← alternatives store value
    let (start, stop) ← Argument.stretch text.length bounds
    match Search.stretch? text start stop with
    | some (_, stretch) => return parts.any fun part => part.isPrefixOf stretch
    | none => return false
  | [] => throw .wrongType

/-- Whether a text ends with a text. -/
def ends (store : Store) (text : Codes) (value : Value) : Except Fault Bool := do
  return (← alternatives store value).any fun part => part.isSuffixOf text

/-- How many pieces are cut off or replaced at most; a negative limit is none. -/
def limit (text : Codes) (value : Value) : Except Fault Nat := do
  let i ← Argument.machineInteger value
  return if i < 0 then text.length + 1 else i.toNat

/-- How many bytes the widest character of a text takes. -/
def width (text : Codes) : Nat :=
  if text.all (· < 0x100) then 1 else if text.all (· < 0x10000) then 2 else 4

/-- The pieces of a text: its words, or what stands between separators. A text that
is too short or too narrow for its separator is left as it is. -/
def pieces (receiver : Value) (text : Codes) (args : List Value) :
    Except Fault (List Value) := do
  let (separator, most) ←
    match args with
    | [] => pure (Value.null, text.length + 1)
    | [separator] => pure (separator, text.length + 1)
    | [separator, most] => do pure (separator, ← limit text most)
    | _ => throw .wrongType
  if separator = .null then
    return (Text.Search.wordsUpTo (text.length + 1) most text).map .str
  else
    let separator ← Argument.text separator
    if separator.isEmpty then throw .wrongValue
    else if text.length < separator.length || width text < width separator then
      return [receiver]
    else return (Text.Search.piecesFrom separator [] most 0 text).map .str

/-- A text with one text replaced by another. -/
def replaced (text : Codes) (args : List Value) : Except Fault Codes := do
  match args with
  | [part, replacement] =>
    return Search.replace (← Argument.text part) (← Argument.text replacement)
      (text.length + 1) text
  | [part, replacement, most] =>
    let part ← Argument.text part
    let replacement ← Argument.text replacement
    return Search.replace part replacement (← limit text most) text
  | _ => throw .wrongType

/-- A text without blanks, or without the characters of another text, at both
ends. -/
def stripped (text : Codes) (args : List Value) : Except Fault Codes := do
  match args with
  | [] | [.null] => return Text.Search.stripWhere Text.Search.isBlankCode text
  | [characters] =>
    let characters ← Argument.text characters
    return Text.Search.stripWhere characters.contains text
  | _ => throw .wrongType

/-- The result of a method of a text. -/
def call (receiver : Value) (text : Codes) (name : String) (args : List Value) :
    Action Value := do
  match name, args with
  | "count", args => return .int (← Action.ofExcept (occurrences text args))
  | "find", args =>
    match ← Action.ofExcept (place? text args) with
    | some place => return .int place
    | none => return .int (-1)
  | "index", args =>
    match ← Action.ofExcept (place? text args) with
    | some place => return .int place
    | none => Action.refuse .wrongValue
  | "isdigit", [] => return .bool (Text.Search.isDigits text)
  | "join", [values] =>
    let texts ← Action.ofExcept (Argument.texts (← Iteration.all values))
    return .str (Search.joined text texts)
  | "lower", [] => return .str (Text.toLower text)
  | "upper", [] => return .str (Text.toUpper text)
  | "replace", args => return .str (← Action.ofExcept (replaced text args))
  | "split", args =>
    Action.newList (← Action.ofExcept (pieces receiver text args)).toArray
  | "startswith", args =>
    return .bool (← Action.consult fun store => begins store text args)
  | "strip", args => return .str (← Action.ofExcept (stripped text args))
  | _, _ => Action.refuse .wrongType

end Formulary.TextMethod

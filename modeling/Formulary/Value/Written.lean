/-
The written form of values, as containers show their elements.

Texts stand in quotes, with what is not printable escaped; numbers are written
with the layout `Layout.plain`. A container that is met again inside itself is
shown as dots.
-/

import Formulary.Number.Decimal
import Formulary.Text.Printable
import Formulary.Value.Constant
import Formulary.Value.Equality

namespace Formulary

namespace Written

/-! ### Texts -/

/-- A number in hexadecimal digits, at least `width` of them. -/
def hexCodes (width n : Nat) : Codes :=
  let digits := Nat.toDigits 16 n
  codesOf (List.replicate (width - digits.length) '0' ++ digits)

/-- The code points of a text. -/
def plain (text : String) : Codes :=
  codesOfString text

/-- A code point between quotes. -/
def escaped (quote : Nat) (code : Nat) : Codes :=
  if code = quote || code = 92 then [92, code]
  else if code = 9 then plain "\\t"
  else if code = 10 then plain "\\n"
  else if code = 13 then plain "\\r"
  else if Text.isPrintable code then [code]
  else if code < 0x100 then plain "\\x" ++ hexCodes 2 code
  else if code < 0x10000 then plain "\\u" ++ hexCodes 4 code
  else plain "\\U" ++ hexCodes 8 code

/-- A text in quotes: single ones, or double ones where only those are not in the
text. -/
def quoted (codes : Codes) : Codes :=
  let quote := if codes.contains 39 && !codes.contains 34 then 34 else 39
  quote :: codes.flatMap (escaped quote) ++ [quote]

/-! ### Values -/

/-- The decimal text of an integer, unless it is too long. -/
def integer (i : Int) : Except Fault Codes :=
  if isTooLong i then .error .wrongValue else .ok (codesOf (intChars i))

/-- Texts with commas between them. -/
def separated : List Codes → Codes
  | [] => []
  | [text] => text
  | text :: rest => text ++ plain ", " ++ separated rest

/-- The written forms of all values of a list. -/
def each (write : Value → Except Fault Codes) :
    List Value → Except Fault (List Codes)
  | [] => .ok []
  | value :: rest => do return (← write value) :: (← each write rest)

/-- The written forms of the entries of a map. -/
def eachEntry (write : Value → Except Fault Codes) :
    List (Value × Value) → Except Fault (List Codes)
  | [] => .ok []
  | (key, value) :: rest => do
    let entry := (← write key) ++ plain ": " ++ (← write value)
    return entry :: (← eachEntry write rest)

/-- The written form of a container that holds itself. -/
def dots : ObjectKind → Codes
  | .list => plain "[...]"
  | .tuple => plain "(...)"
  | .map => plain "\x7b...\x7d"
  | _ => plain "..."

/-- The name of a class with the package it is in. -/
def className (type : HostClass) : Codes :=
  match type with
  | .number => plain "numbers.Number"
  | .iterable | .collection | .sequence | .iterator | .mapping | .setView =>
    plain ("collections.abc." ++ type.name)
  | type => plain type.name

/-- The written form of a primitive type. -/
def primitiveType (type : Primitive) : Codes :=
  plain "PrimitiveType(name=" ++ quoted (plain type.name) ++ plain ")"

/-- The written form of a boxed type, given those of its constants. -/
def boxedType (type : Primitive) (constants : Codes) : Codes :=
  plain "BoxedType(name=" ++ quoted (plain type.boxedName) ++ plain ", primitive=" ++
    primitiveType type ++ plain ", constants=\x7b" ++ constants ++ plain "\x7d)"

/-- The written form of a value inside the containers of `path`. Objects that have
an identity only are shown by the names of their kinds. -/
def writeUpTo : (fuel : Nat) → Store → (path : List Ref) → Value → Except Fault Codes
  | 0, _, _, _ => .error (.host .endlessNesting)
  | fuel + 1, store, path, value =>
    match value with
    | .null => .ok (plain "None")
    | .bool b => .ok (plain (if b then "True" else "False"))
    | .int i | .long i => integer i
    | .double x | .single x => .ok (codesOf (Layout.plain.write x))
    | .fraction q => do
      return plain "Fraction(" ++ (← integer q.num) ++ plain ", " ++
        (← integer q.den) ++ plain ")"
    | .char codes | .str codes => .ok (quoted codes)
    | .object kind ref =>
      if path.contains ref then .ok (dots kind)
      else
        let write := writeUpTo fuel store (ref :: path)
        match kind with
        | .list => do
          let texts ← each write (store.items ref).toList
          return plain "[" ++ separated texts ++ plain "]"
        | .tuple => do
          match ← each write (store.items ref).toList with
          | [text] => return plain "(" ++ text ++ plain ",)"
          | texts => return plain "(" ++ separated texts ++ plain ")"
        | .map => do
          let texts ← eachEntry write (store.entries ref)
          return plain "\x7b" ++ separated texts ++ plain "\x7d"
        | .set => do
          match ← each write (store.elements ref) with
          | [] => return plain "set()"
          | texts => return plain "\x7b" ++ separated texts ++ plain "\x7d"
        | .keys => do
          let texts ← each write (store.elementsOfView kind ref)
          return plain "dict_keys([" ++ separated texts ++ plain "])"
        | .record .point => do
          match ← each write (store.coordinates ref) with
          | [x, y] => return plain "Point(x=" ++ x ++ plain ", y=" ++ y ++ plain ")"
          | _ => return plain "Point()"
        | kind => .ok (plain ("<" ++ kind.name ++ " object>"))
    | .type (.primitive type) => .ok (primitiveType type)
    | .type (.boxed type) => do
      let entries := type.constants.map fun entry =>
        (Value.str (codesOfString entry.1), entry.2)
      let texts ← eachEntry (writeUpTo fuel store path) entries
      return boxedType type (separated texts)
    | .hostClass type => .ok (plain "<class '" ++ className type ++ plain "'>")
    | .hostModule module => .ok (plain ("<module '" ++ module.name ++ "'>"))
    | value => .ok (plain ("<" ++ value.typeName ++ ">"))

end Written

namespace Store

/-- The written form of a value. -/
def written (store : Store) (value : Value) : Except Fault Codes :=
  Written.writeUpTo nestingLimit store [] value

/-- The text of a value: a text itself, a fraction with a stroke, anything else as
it is written. -/
def plainText (store : Store) (value : Value) : Except Fault Codes :=
  match value with
  | .char codes | .str codes => .ok codes
  | .fraction q => do
    if q.den = 1 then Written.integer q.num
    else
      return (← Written.integer q.num) ++ Written.plain "/" ++
        (← Written.integer q.den)
  | value => store.written value

end Store

end Formulary

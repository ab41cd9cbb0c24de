/-
Searching, cutting and replacing in texts.

Texts are lists of code points. A stretch from `start` to `stop` is given by two
places that may be counted from the end and are brought into the text first.
-/

import Formulary.Text.Blank
import Formulary.Text.Digit

namespace Formulary.Text.Search

/-- A blank, by its code point. -/
def isBlankCode (code : Nat) : Bool :=
  isBlank (Char.ofNat code)

/-- A place in a text of some length, counted from the end if it is negative. -/
def placeIn (length : Nat) (place : Int) : Nat :=
  if place < 0 then (place + length).toNat else place.toNat

/-- The stretch from one place to another; nothing where they are in the wrong
order. -/
def stretch? (text : List Nat) (start stop : Int) : Option (Nat × List Nat) :=
  let first := placeIn text.length start
  let last := min (placeIn text.length stop) text.length
  if last < first then none else some (first, (text.drop first).take (last - first))

/-- The place of the first occurrence of a text in another one. -/
def find? (part : List Nat) : List Nat → Option Nat
  | [] => if part.isEmpty then some 0 else none
  | code :: rest =>
    if part.isPrefixOf (code :: rest) then some 0
    else (find? part rest).map (· + 1)

/-- How often a text occurs in another one, occurrences not overlapping; `skip`
code points still belong to the occurrence found last. -/
def countFrom (part : List Nat) : (skip : Nat) → List Nat → Nat
  | _, [] => 0
  | skip + 1, _ :: rest => countFrom part skip rest
  | 0, code :: rest =>
    if part.isPrefixOf (code :: rest) then countFrom part (part.length - 1) rest + 1
    else countFrom part 0 rest

/-- How often a text occurs in another one. The empty text occurs everywhere. -/
def count (part text : List Nat) : Nat :=
  if part.isEmpty then text.length + 1 else countFrom part 0 text

/-- Replaces the first `limit` occurrences of a text that is not empty. -/
def replaceFrom (part replacement : List Nat) :
    (limit : Nat) → (skip : Nat) → List Nat → List Nat
  | _, _, [] => []
  | limit, skip + 1, _ :: rest => replaceFrom part replacement limit skip rest
  | 0, 0, text => text
  | limit + 1, 0, code :: rest =>
    if part.isPrefixOf (code :: rest) then
      replacement ++ replaceFrom part replacement limit (part.length - 1) rest
    else code :: replaceFrom part replacement (limit + 1) 0 rest

/-- Puts a text in front of the first `limit` places of another one, its end
included. -/
def interleave (insertion : List Nat) : (limit : Nat) → List Nat → List Nat
  | 0, text => text
  | _ + 1, [] => insertion
  | limit + 1, code :: rest => insertion ++ code :: interleave insertion limit rest

/-- Replaces the first `limit` occurrences of a text. -/
def replace (part replacement : List Nat) (limit : Nat) (text : List Nat) : List Nat :=
  if part.isEmpty then interleave replacement limit text
  else replaceFrom part replacement limit 0 text

/-- The pieces between the first `limit` occurrences of a separator, with the
piece under way in front. -/
def piecesFrom (separator : List Nat) (current : List Nat) :
    (limit : Nat) → (skip : Nat) → List Nat → List (List Nat)
  | _, _, [] => [current.reverse]
  | limit, skip + 1, _ :: rest => piecesFrom separator current limit skip rest
  | 0, 0, text => [current.reverse ++ text]
  | limit + 1, 0, code :: rest =>
    if separator.isPrefixOf (code :: rest) then
      current.reverse :: piecesFrom separator [] limit (separator.length - 1) rest
    else piecesFrom separator (code :: current) (limit + 1) 0 rest

/-- The words of a text. Behind the first `limit` words the rest of the text is
one piece. The fuel bounds the number of words. -/
def wordsUpTo : (fuel : Nat) → (limit : Nat) → List Nat → List (List Nat)
  | 0, _, _ => []
  | fuel + 1, limit, text =>
    let text := text.dropWhile isBlankCode
    if text.isEmpty then []
    else
      match limit with
      | 0 => [text]
      | limit + 1 =>
        text.takeWhile (!isBlankCode ·) ::
          wordsUpTo fuel limit (text.dropWhile (!isBlankCode ·))

/-- Drops code points of a class at both ends. -/
def stripWhere (drop : Nat → Bool) (text : List Nat) : List Nat :=
  ((text.dropWhile drop).reverse.dropWhile drop).reverse

/-- Texts with a separator between them. -/
def joined (separator : List Nat) : List (List Nat) → List Nat
  | [] => []
  | [text] => text
  | text :: rest => text ++ separator ++ joined separator rest

/-- Whether a text is not empty and has digits only. -/
def isDigits (text : List Nat) : Bool :=
  !text.isEmpty && text.all isDigitSign

end Formulary.Text.Search

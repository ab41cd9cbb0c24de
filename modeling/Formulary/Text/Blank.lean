/-
Blank characters, and the two ways a declaration is cut up with them.

`isBlank` is the white space of the Unicode standard together with the four
information separators. `strip` drops blanks at both ends of a text and `words`
splits a text at its blanks.
-/

namespace Formulary.Text

/-- The white space of the Unicode standard and the separators U+001C to
U+001F. -/
def isBlank (c : Char) : Bool :=
  let n := c.toNat
  (9 ≤ n && n ≤ 13) || (28 ≤ n && n ≤ 32) || n == 0x85 || n == 0xA0 ||
    n == 0x1680 || (0x2000 ≤ n && n ≤ 0x200A) || n == 0x2028 || n == 0x2029 ||
    n == 0x202F || n == 0x205F || n == 0x3000

/-- Drops the blanks at the end of a text. -/
def stripEnd : List Char → List Char
  | [] => []
  | c :: rest =>
    match stripEnd rest with
    | [] => if isBlank c then [] else [c]
    | kept => c :: kept

/-- Drops the blanks at both ends of a text. -/
def strip (text : List Char) : List Char :=
  stripEnd (text.dropWhile isBlank)

/-- Nothing but blanks. -/
def isAllBlank (text : List Char) : Bool :=
  text.all isBlank

/-- The maximal blank-free stretches, with the stretch under way in front. -/
def wordsAfter (current : List Char) : List Char → List (List Char)
  | [] => if current.isEmpty then [] else [current]
  | c :: rest =>
    if isBlank c then
      if current.isEmpty then wordsAfter [] rest
      else current :: wordsAfter [] rest
    else wordsAfter (current ++ [c]) rest

/-- The maximal blank-free stretches of a text, in order. -/
def words (text : List Char) : List (List Char) :=
  wordsAfter [] text

/-- The pieces between the occurrences of a separator; one more than there are
separators. -/
def pieces (separator : Char) : List Char → List (List Char)
  | [] => [[]]
  | c :: rest =>
    if c = separator then [] :: pieces separator rest
    else
      match pieces separator rest with
      | [] => [[c]]
      | first :: others => (c :: first) :: others

/-- The text before and the text after the first occurrence of a mark. -/
def cut? (mark : List Char) : List Char → Option (List Char × List Char)
  | [] => if mark.isEmpty then some ([], []) else none
  | c :: rest =>
    if mark.isPrefixOf (c :: rest) then some ([], (c :: rest).drop mark.length)
    else (cut? mark rest).map fun (before, after) => (c :: before, after)

end Formulary.Text

/-
Free-standing words.

A word stands free in a text where the characters on both sides of it are
boundary characters or the ends of the text. `occurrences` lists the starts of
the free-standing words from left to right, skipping over each word it has
found, and `replace` puts another text in their places.

The boundary set is deliberately narrow: a name is left alone before `[`, `=`,
`<` and `>`.
-/

namespace Formulary.Text

/-- The characters that may touch a free-standing word. -/
def boundaryChars : List Char :=
  ['(', ')', '.', '*', '+', '-', '/', '%', '?', ';', '{', '}', ',',
    ' ', '\t', '\n', '\x0b', '\x0c', '\r']

/-- Whether a free-standing word may touch `c`. -/
def isBoundary (c : Char) : Bool :=
  boundaryChars.contains c

/-- An end of the text, or a boundary character. -/
def bounds : Option Char → Bool
  | none => true
  | some c => isBoundary c

/-- Whether `word` stands free at the start of `text`, `before` being the
character in front of `text`. -/
def standsFree (word : List Char) (before : Option Char) (text : List Char) :
    Bool :=
  word.isPrefixOf text && bounds before && bounds (text.drop word.length).head?

/-- The starts of the free-standing words, where `skip` characters still belong
to the word found last and `offset` characters are behind. -/
def occurrencesFrom (word : List Char) :
    (skip : Nat) → (before : Option Char) → (offset : Nat) → List Char → List Nat
  | _, _, _, [] => []
  | skip + 1, _, offset, c :: rest =>
    occurrencesFrom word skip (some c) (offset + 1) rest
  | 0, before, offset, c :: rest =>
    if standsFree word before (c :: rest) then
      offset :: occurrencesFrom word (word.length - 1) (some c) (offset + 1) rest
    else occurrencesFrom word 0 (some c) (offset + 1) rest

/-- The starts of the free-standing, non-overlapping occurrences of `word`. The
empty word has none. -/
def occurrences (word text : List Char) : List Nat :=
  if word.isEmpty then [] else occurrencesFrom word 0 none 0 text

/-- Whether `word` stands free anywhere in `text`. -/
def containsFree (word text : List Char) : Bool :=
  !(occurrences word text).isEmpty

/-- Puts `replacement` for the free-standing words, where `skip` characters
still belong to the word replaced last. -/
def replaceFrom (word replacement : List Char) :
    (skip : Nat) → (before : Option Char) → List Char → List Char
  | _, _, [] => []
  | skip + 1, _, c :: rest => replaceFrom word replacement skip (some c) rest
  | 0, before, c :: rest =>
    if standsFree word before (c :: rest) then
      replacement ++ replaceFrom word replacement (word.length - 1) (some c) rest
    else c :: replaceFrom word replacement 0 (some c) rest

/-- Puts `replacement` for every occurrence of `word` that `occurrences`
lists. -/
def replaceFree (word replacement text : List Char) : List Char :=
  if word.isEmpty then text else replaceFrom word replacement 0 none text

end Formulary.Text

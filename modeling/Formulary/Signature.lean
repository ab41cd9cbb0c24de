/-
Signatures of function strings.

A function string has the shape `returnType(Type a, b, Other c) -> body`. The
parameter list lies between the first opening parenthesis and the first closing
one after it, the body begins behind the first arrow after that, and what stands
between the two is ignored. A parameter without a type takes the type of the
nearest parameter before it that has one.
-/

import Formulary.Text.Blank

namespace Formulary

/-- Why a text is no signature. -/
inductive SignatureError where
  | missing (mark : List Char) (text : List Char)
  | nestedParenthesis (text : List Char)
  | emptyParameter (text : List Char)
  | missingType (token : List Char)
  | tooManyWords (token : List Char)
deriving DecidableEq, Repr

/-- The report of a signature error. -/
def SignatureError.message : SignatureError → List Char
  | .missing mark text =>
    "Missing '".toList ++ mark ++ "' in '".toList ++ text ++ "'".toList
  | .nestedParenthesis text =>
    "Nested parentheses are not supported in the parameter list of '".toList ++
      text ++ "'".toList
  | .emptyParameter text => "Empty parameter in '".toList ++ text ++ "'".toList
  | .missingType token =>
    "No parameter type found in '".toList ++ token ++ "'".toList
  | .tooManyWords token => "Too many tokens near '".toList ++ token ++ "'".toList

/-- The parts of a function string. -/
structure Signature where
  returnType : List Char
  parameters : List (List Char)
  /-- What stands between the parameter list and the arrow, blanks dropped. -/
  ignored : List Char
  body : List Char
deriving DecidableEq, Repr

/-- A parameter: its place among the arguments, its name and its type. -/
structure Declaration where
  index : Nat
  name : List Char
  typeName : List Char
deriving DecidableEq, Repr

namespace Signature

/-- What a function returns that declares no return type. -/
def defaultReturnType : List Char := "Object".toList

def openMark : List Char := ['(']
def closeMark : List Char := [')']
def arrow : List Char := ['-', '>']

/-- The parameters of a list, blanks around them dropped. A blank list has the
empty parameter alone. -/
def parametersOf (list text : List Char) :
    Except SignatureError (List (List Char)) :=
  if Text.isAllBlank list then .ok [[]]
  else
    let parameters := (Text.pieces ',' list).map Text.strip
    if parameters.any List.isEmpty then .error (.emptyParameter text)
    else .ok parameters

/-- The declared return type, or the default where the text in front of the
parameter list is blank. -/
def returnTypeOf (front : List Char) : List Char :=
  match Text.strip front with
  | [] => defaultReturnType
  | name => name

/-- Splits a function string into its parts. -/
def split (text : List Char) : Except SignatureError Signature :=
  match Text.cut? openMark text with
  | none => .error (.missing openMark text)
  | some (front, afterOpen) =>
    match Text.cut? closeMark afterOpen with
    | none => .error (.missing closeMark text)
    | some (list, afterClose) =>
      if list.contains '(' then .error (.nestedParenthesis text)
      else
        match Text.cut? arrow afterClose with
        | none => .error (.missing arrow text)
        | some (between, body) =>
          match parametersOf list text with
          | .error error => .error error
          | .ok parameters =>
            .ok { returnType := returnTypeOf front, parameters,
                  ignored := Text.strip between, body }

/-! ### Declarations and bindings -/

/-- The words of a parameter; a blank parameter counts as one word. -/
def wordsOf (token : List Char) : List (List Char) :=
  match Text.words token with
  | [] => [token]
  | words => words

/-- The declarations of the parameters from place `index` on, where `type?` is
the type of the nearest typed parameter before them. -/
def declareFrom (type? : Option (List Char)) (index : Nat) :
    List (List Char) → Except SignatureError (List Declaration)
  | [] => .ok []
  | token :: rest =>
    match wordsOf token with
    | [name] =>
      match type? with
      | none => .error (.missingType token)
      | some typeName =>
        (declareFrom (some typeName) (index + 1) rest).map
          ({ index, name, typeName } :: ·)
    | [typeName, name] =>
      (declareFrom (some typeName) (index + 1) rest).map
        ({ index, name, typeName } :: ·)
    | _ => .error (.tooManyWords token)

/-- One declaration for each parameter, counted from zero. -/
def declare (parameters : List (List Char)) :
    Except SignatureError (List Declaration) :=
  declareFrom none 0 parameters

/-- The declarations whose name is not among `taken` nor declared before. -/
def bindFresh (taken : List (List Char)) : List Declaration → List Declaration
  | [] => []
  | declaration :: rest =>
    if taken.contains declaration.name then bindFresh taken rest
    else declaration :: bindFresh (declaration.name :: taken) rest

/-- The bindings of a parameter list: the first declaration of each name, in
order. -/
def bind (declarations : List Declaration) : List Declaration :=
  bindFresh [] declarations

/-- How many warnings splitting a signature gives: one for ignored text. -/
def warnings (signature : Signature) : Nat :=
  if signature.ignored.isEmpty then 0 else 1

/-- How many warnings binding gives: one for each repeated name. -/
def repeats (declarations : List Declaration) : Nat :=
  declarations.length - (bind declarations).length

end Signature

end Formulary

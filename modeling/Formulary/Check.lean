/-
Checking bodies.

A check resolves every type name, finds out which dotted names begin with a type or
a host object, and refuses statements that stand where they make no sense and
bodies that may end without a `return`. Variables are in scope from their
declarations to the end of the block around them, and none may take the name of
another one in scope.

What is known of the types before a check is a parameter: nothing in a body that
has only been read, everything in one that has been checked.
-/

import Formulary.Check.CheckError
import Formulary.Check.Completion
import Formulary.Kind

namespace Formulary

/-- An expression whose types are resolved. -/
abbrev CheckedExpr := Expr Value Kind

/-- A statement whose types are resolved. -/
abbrev CheckedStmt := Stmt Value Kind

/-- The variables in scope with their declared types, the latest one first. -/
abbrev Scope := List (String × Kind)

namespace Check

/-- The words that no variable may be named by. -/
def reservedWords : List String :=
  ["abstract", "assert", "case", "catch", "class", "const", "default", "enum",
    "extends", "final", "finally", "goto", "implements", "import", "interface",
    "native", "package", "private", "protected", "public", "static", "strictfp",
    "super", "switch", "synchronized", "this", "throw", "throws", "transient", "try",
    "void", "volatile"]

/-- What a check looks names and types up with. -/
structure Context (τ : Type) where
  resolve : String → Option Kind
  known : τ → Option Kind

variable {τ : Type} (context : Context τ)

/-- The failure at a position. -/
def fail {α : Type} (position : Position) (fault : CheckFault) : Except CheckError α :=
  .error ⟨position, fault⟩

/-- Whether a name is that of a variable in scope. -/
def inScope (scope : Scope) (name : String) : Bool :=
  (scope.lookup name).isSome

/-- Brings a variable into scope. -/
def define (scope : Scope) (name : String) (kind : Kind) (position : Position) :
    Except CheckError Scope :=
  if inScope scope name then fail position (.alreadyDefined name)
  else if reservedWords.contains name then fail position (.reserved name)
  else .ok ((name, kind) :: scope)

/-! ### Types -/

/-- Resolves a type name. -/
def typeName (type : TypeName τ) : Except CheckError (TypeName Kind) :=
  match context.known type.resolved <|> context.resolve type.name with
  | some kind => .ok ⟨type.position, type.name, kind⟩
  | none => fail type.position (.unknownClass type.name)

/-- What a name stands for other than a primitive type. -/
def reference? (name : String) : Option Kind :=
  (context.resolve name).filter fun kind => !kind.isPrimitive

/-! ### Dotted names -/

/-- The parts of a dotted name with their positions, the first one first. -/
def chain? : Expr Value τ → Option (List (String × Position))
  | .name position ident => some [(ident, position)]
  | .field position receiver member =>
    (chain? receiver).map fun parts => parts ++ [(member, position)]
  | _ => none

/-- The name that parts write. -/
def dotted (parts : List (String × Position)) : String :=
  ".".intercalate (parts.map Prod.fst)

/-- The longest beginning of at most `count` parts that stands for a type or a
host object: how many parts it has, and what it stands for. -/
def longest? (parts : List (String × Position)) : (count : Nat) → Option (Nat × Kind)
  | 0 => none
  | count + 1 =>
    match reference? context (dotted (parts.take (count + 1))) with
    | some kind => some (count + 1, kind)
    | none => longest? parts count

/-- The members of an expression, one after the other. -/
def fields (expr : CheckedExpr) (parts : List (String × Position)) : CheckedExpr :=
  parts.foldl (fun receiver part => .field part.2 receiver part.1) expr

/-- A dotted name that does not begin with a variable: members of a type or of a
host object. -/
def staticChain (parts : List (String × Position)) : Except CheckError CheckedExpr :=
  match parts with
  | [] => fail Position.outside .notVariable
  | (first, position) :: _ =>
    match longest? context parts parts.length with
    | some (count, kind) =>
      let type := ⟨position, dotted (parts.take count), kind⟩
      .ok (fields (.typeName position type) (parts.drop count))
    | none => fail position (.unknownVariable first)

/-- The parts of a dotted name whose first part is no variable in scope. -/
def freeChain? (scope : Scope) (expr : Expr Value τ) :
    Option (List (String × Position)) :=
  (chain? expr).filter fun parts =>
    match parts with
    | (first, _) :: _ => !inScope scope first
    | [] => false

/-! ### Expressions -/

/-- Whether an expression can be assigned to. -/
def isVariable : CheckedExpr → Bool
  | .name .. | .field .. | .index .. => true
  | _ => false

mutual

/-- Checks an expression. -/
def expression (scope : Scope) : Expr Value τ → Except CheckError CheckedExpr
  | .literal position value => .ok (.literal position value)
  | .name position ident =>
    match freeChain? scope (.name position ident : Expr Value τ) with
    | some parts => staticChain context parts
    | none => .ok (.name position ident)
  | .typeName position type => do
    return .typeName position (← typeName context type)
  | .field position receiver member =>
    match freeChain? scope (.field position receiver member) with
    | some parts => staticChain context parts
    | none => do return .field position (← expression scope receiver) member
  | .methodCall position receiver method args => do
    return .methodCall position (← expression scope receiver) method
      (← expressions scope args)
  | .call position callee args => do
    if inScope scope callee.name then
      fail position (.calledVariable callee.name)
    else
      match reference? context callee.name with
      | none => fail position (.unknownMethod callee.name)
      | some kind =>
        return .call position ⟨callee.position, callee.name, kind⟩
          (← expressions scope args)
  | .index position container place => do
    return .index position (← expression scope container) (← expression scope place)
  | .unary position op operand => do
    return .unary position op (← expression scope operand)
  | .step position op target before => do
    let checked ← expression scope target
    if isVariable checked then return .step position op checked before
    else fail target.position .notVariable
  | .binary position op left right => do
    return .binary position op (← expression scope left) (← expression scope right)
  | .logical position op left right => do
    return .logical position op (← expression scope left) (← expression scope right)
  | .conditional position condition thenValue elseValue => do
    return .conditional position (← expression scope condition)
      (← expression scope thenValue) (← expression scope elseValue)
  | .assign position op target value => do
    let checked ← expression scope target
    if isVariable checked then
      return .assign position op checked (← expression scope value)
    else fail target.position .notVariable
  | .cast position type operand => do
    return .cast position (← typeName context type) (← expression scope operand)
  | .instanceOf position value type => do
    let value ← expression scope value
    let type ← typeName context type
    if type.resolved.isPrimitive then fail position (.primitiveTest type.name)
    else return .instanceOf position value type
  | .new position type args => do
    let type ← typeName context type
    if type.resolved.isPrimitive then fail position (.primitiveInstance type.name)
    else return .new position type (← expressions scope args)

/-- Checks expressions, the first one first. -/
def expressions (scope : Scope) :
    List (Expr Value τ) → Except CheckError (List CheckedExpr)
  | [] => .ok []
  | expr :: rest => do
    return (← expression scope expr) :: (← expressions scope rest)

end

/-- Checks an optional expression. -/
def expression? (scope : Scope) :
    Option (Expr Value τ) → Except CheckError (Option CheckedExpr)
  | none => .ok none
  | some expr => do return some (← expression context scope expr)

/-! ### Declarations -/

/-- Checks declared names. Each comes into scope behind its initial value. -/
def declarators (kind : Kind) (scope : Scope) :
    List (Declarator Value τ) →
      Except CheckError (List (Declarator Value Kind) × Scope)
  | [] => .ok ([], scope)
  | declarator :: rest => do
    let value ← expression? context scope declarator.value
    let scope ← define scope declarator.name kind declarator.position
    let (others, scope) ← declarators kind scope rest
    return (⟨declarator.position, declarator.name, value⟩ :: others, scope)

/-- Checks what a `for` loop starts with. -/
def forInit (scope : Scope) :
    ForInit Value τ → Except CheckError (ForInit Value Kind × Scope)
  | .none => .ok (.none, scope)
  | .declaration position type names => do
    let type ← typeName context type
    let (names, scope) ← declarators context type.resolved scope names
    return (.declaration position type names, scope)
  | .expressions values => do
    let values ← values.mapM fun value => do
      return (value.1, ← expression context scope value.2)
    return (.expressions values, scope)

/-! ### Statements -/

/-- Whether an expression can stand as a statement. -/
def isStatement : Expr Value τ → Bool
  | .assign .. | .step .. | .methodCall .. | .call .. | .new .. => true
  | _ => false

/-- Refuses a declaration where only a statement may stand. -/
def refuseDeclaration : Stmt Value τ → Except CheckError Unit
  | .declaration position _ _ => fail position .misplacedDeclaration
  | _ => .ok ()

mutual

/-- Checks a statement, inside a loop if `inLoop` holds; the scope behind it. -/
def statement (scope : Scope) (inLoop : Bool) :
    Stmt Value τ → Except CheckError (CheckedStmt × Scope)
  | .block position inner => do
    return (.block position (← statements scope inLoop inner), scope)
  | .empty position => .ok (.empty position, scope)
  | .declaration position type names => do
    let type ← typeName context type
    let (names, scope) ← declarators context type.resolved scope names
    return (.declaration position type names, scope)
  | .expression position value => do
    if isStatement value then
      return (.expression position (← expression context scope value), scope)
    else fail position .notStatement
  | .ifThen position condition thenBranch => do
    let condition ← expression context scope condition
    return (.ifThen position condition (← nested scope inLoop thenBranch), scope)
  | .ifThenElse position condition thenBranch elseBranch => do
    let condition ← expression context scope condition
    let thenBranch ← nested scope inLoop thenBranch
    return (.ifThenElse position condition thenBranch
      (← nested scope inLoop elseBranch), scope)
  | .whileLoop position condition body => do
    let condition ← expression context scope condition
    return (.whileLoop position condition (← nested scope true body), scope)
  | .doLoop position body condition => do
    let body ← nested scope true body
    return (.doLoop position body (← expression context scope condition), scope)
  | .forLoop position init condition update body => do
    let (init, inner) ← forInit context scope init
    let condition ← expression? context inner condition
    let update ← expressions context inner update
    return (.forLoop position init condition update (← nested inner true body), scope)
  | .forEach position type name iterable body => do
    let iterable ← expression context scope iterable
    let type ← typeName context type
    let inner ← define scope name type.resolved position
    return (.forEach position type name iterable (← nested inner true body), scope)
  | .returns position none => fail position .missingValue
  | .returns position (some value) => do
    return (.returns position (some (← expression context scope value)), scope)
  | .breaks position =>
    if inLoop then .ok (.breaks position, scope) else fail position .breakOutside
  | .continues position =>
    if inLoop then .ok (.continues position, scope) else fail position .continueOutside

/-- Checks a statement that stands under another one. -/
def nested (scope : Scope) (inLoop : Bool) (inner : Stmt Value τ) :
    Except CheckError CheckedStmt := do
  refuseDeclaration inner
  let (checked, _) ← statement scope inLoop inner
  return checked

/-- Checks statements in a row. -/
def statements (scope : Scope) (inLoop : Bool) :
    List (Stmt Value τ) → Except CheckError (List CheckedStmt)
  | [] => .ok []
  | first :: rest => do
    let (checked, scope) ← statement scope inLoop first
    return checked :: (← statements scope inLoop rest)

end

/-! ### Bodies -/

/-- The position of the last statement of a body. -/
def lastPosition (body : List (Stmt Value τ)) : Position :=
  match body.getLast? with
  | some statement => statement.position
  | none => Position.start

/-- Checks a body whose arguments have a name. -/
def body (argsName : String) (statements : List (Stmt Value τ)) :
    Except CheckError (List CheckedStmt) := do
  let scope ← define [] argsName (.core .object) Position.outside
  let checked ← Check.statements context scope false statements
  if Stmt.allComplete checked then fail (lastPosition statements) .missingReturn
  else return checked

end Check

end Formulary

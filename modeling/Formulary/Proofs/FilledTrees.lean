/-
The trees of filled rows.

Rows that are filled with two names are read as tokens that differ in their positions and in these
names alone, as long as no string has a slot. Around a slot nothing but a variable can be written,
so that the trees differ in the same way.

* `exchange` — the exchange of two names.
* `Unquoted` — names that no string holds.
* `Apart`, `Apart.tokens` — rows whose tokens with the other name are those with the one, moved.
* `Apart.parseSource`, `Apart.readBody` — and so are the bodies that they are read as.
-/

import Formulary.Proofs.FilledTokens
import Formulary.Proofs.Parsing
import Formulary.Proofs.RelabeledChecking
import Formulary.Proofs.RelabeledFolding
import Formulary.Proofs.WrittenNames

namespace Formulary

open Grammar

/-! ### Names behind folding -/

/-- Folding writes no names. -/
theorem Fold.foldFrom_name {tokens : List Token} {token : Token} {text : String}
    (isName : token.lexeme = .name text) (skip : Nat) (previous : Option Token)
    (isIn : token ∈ foldFrom skip previous tokens) : token ∈ tokens := by
  induction tokens generalizing skip previous with
  | nil => cases skip <;> cases isIn
  | cons first rest ih =>
    cases skip with
    | succ skip => exact List.mem_cons_of_mem _ (ih skip _ isIn)
    | zero =>
      rw [foldFrom] at isIn
      split at isIn
      · next folded count found =>
        rcases List.mem_cons.mp isIn with rfl | isIn
        · rw [Option.orElse_eq_orElse, Option.orElse_eq_or, Option.or_eq_some_iff] at found
          rcases found with isCast | ⟨-, isDeclared⟩
          · obtain ⟨name, isType⟩ := castAt_lexeme isCast
            cases isType.symm.trans isName
          · obtain ⟨name, isType⟩ := declaredAt_lexeme isDeclared
            cases isType.symm.trans isName
        · exact List.mem_cons_of_mem _ (ih _ _ isIn)
      · rcases List.mem_cons.mp isIn with rfl | isIn
        · exact List.mem_cons_self
        · exact List.mem_cons_of_mem _ (ih _ _ isIn)

namespace Slots

open Lexer

/-! ### Parts and their neighbours -/

/-- Parts next to each other: around the name stand a parenthesis and a bracket. -/
structure Beside (before after : Part) : Prop where
  behind : after = .name → before = .fixed (.symbol .rightParen)
  front : before = .name → after = .fixed (.symbol .leftBracket)

theorem Beside.of_ne {before after : Part} (noName : before ≠ .name) (noName' : after ≠ .name) :
    Beside before after :=
  ⟨fun isName => absurd isName noName', fun isName => absurd isName noName⟩

namespace Reads

variable {cells : List Cell} {parts : List Part}

/-- The name stands nowhere but in slots. -/
theorem beside (reads : Reads cells parts) :
    parts.IsChain Beside ∧ ∀ part, parts.head? = some part → part ≠ .name := by
  -- What is no name can be put in front of parts that do not begin with one.
  have ahead {part : Part} {parts : List Part} (noName : part ≠ .name)
      (chain : parts.IsChain Beside) (first : ∀ part, parts.head? = some part → part ≠ .name) :
      (part :: parts).IsChain Beside := by
    cases parts with
    | nil => exact List.IsChain.singleton part
    | cons next parts => exact .cons_cons (.of_ne noName (first next rfl)) chain
  induction reads with
  | nil => exact ⟨List.IsChain.nil, fun part found => nomatch found⟩
  | @part part? front back parts covers rest ih =>
    obtain ⟨chain, first⟩ := ih
    cases part? with
    | none => exact ⟨chain, first⟩
    | some part =>
      have noName : part ≠ .name := by
        rintro rfl
        exact covers .name rfl
      refine ⟨ahead noName chain first, ?_⟩
      rintro _ ⟨⟩
      exact noName
  | slot rest ih =>
    obtain ⟨chain, first⟩ := ih
    have noName : Part.fixed (.symbol .leftBracket) ≠ .name := nofun
    have last := ahead noName chain first
    refine ⟨.cons_cons ⟨fun _ => rfl, nofun⟩ (.cons_cons ⟨nofun, fun _ => rfl⟩ last), ?_⟩
    rintro _ ⟨⟩
    exact nofun

/-- A name that is a part of its own is written in the row. -/
theorem written (reads : Reads cells parts) {text : String}
    (isIn : .fixed (.name text) ∈ parts) : plain text.toList <:+: cells := by
  induction reads with
  | nil => cases isIn
  | @part part? front back parts covers rest ih =>
    rcases List.mem_append.mp isIn with isPart | isIn
    · have whole : front = plain text.toList := covers _ (Option.mem_toList.mp isPart) text rfl
      exact whole ▸ (List.prefix_append front back).isInfix
    · exact (ih isIn).trans (List.suffix_append front back).isInfix
  | slot rest ih =>
    simp only [List.mem_cons, Part.fixed.injEq, reduceCtorEq, false_or] at isIn
    exact (ih isIn).trans (List.suffix_cons _ _).isInfix

end Reads

/-! ### Two names -/

/-- The exchange of two names of the arguments. -/
def exchange (first second : List Char) : String → String :=
  Equiv.swap (String.ofList first) (String.ofList second)

section Exchange

variable (first second : List Char)

theorem exchange_injective : Function.Injective (exchange first second) :=
  Equiv.injective _

@[simp]
theorem exchange_first : exchange first second (String.ofList first) = String.ofList second :=
  Equiv.swap_apply_left _ _

theorem exchange_other {text : String} (other : text ≠ String.ofList first)
    (other' : text ≠ String.ofList second) : exchange first second text = text :=
  Equiv.swap_apply_of_ne_of_ne other other'

end Exchange

/-- A text whose lexemes are known has tokens. -/
theorem exists_tokens {text : List Char} {lexemes : List Lexeme}
    (lexes : lexemesFrom Position.start text = .ok lexemes) :
    ∃ raw, Lexer.tokens text = .ok raw ∧ raw.map Token.lexeme = lexemes := by
  unfold lexemesFrom at lexes
  cases scanned : tokensFrom 0 Position.start text with
  | error e =>
    rw [scanned] at lexes
    cases lexes
  | ok raw =>
    rw [scanned] at lexes
    exact ⟨raw, scanned, Except.ok.inj lexes⟩

/-- A text without lexemes has no tokens. -/
theorem tokens_error {text : List Char} {e : IllegalCharacter}
    (fails : lexemesFrom Position.start text = .error e) : Lexer.tokens text = .error e := by
  unfold lexemesFrom at fails
  cases scanned : tokensFrom 0 Position.start text with
  | error other =>
    rw [scanned] at fails
    obtain rfl := Except.error.inj fails
    exact scanned
  | ok tokens =>
    rw [scanned] at fails
    cases fails

/-- No string of a text holds a name. -/
def Unquoted (name text : List Char) : Prop :=
  ∀ tokens, Lexer.tokens text = .ok tokens → ∀ token ∈ tokens, ∀ literal,
    token.lexeme = .string literal → ¬name <:+: literal

/-- A row outside of whose slots neither of two names is written, and the parts that it is read
as with either name; none of them is a string with a slot. -/
structure Apart (first second : List Char) (cells : List Cell) (parts : List Part) : Prop where
  reads : Reads cells parts
  unquoted : ∀ inner, .quoted inner ∈ parts → .slot ∉ inner
  absent : ¬plain first <:+: cells
  absent' : ¬plain second <:+: cells
  lexes : lexemesFrom Position.start (fill first cells) = .ok (parts.map (Part.toLexeme first))
  lexes' : lexemesFrom Position.start (fill second cells) = .ok (parts.map (Part.toLexeme second))

theorem fill_kept {cells : List Cell} (noSlot : .slot ∉ cells) (name other : List Char) :
    fill name cells = fill other cells := by
  refine List.flatMap_congr fun cell isIn => ?_
  cases cell with
  | char c => rfl
  | slot => exact absurd isIn noSlot

/-- Filling a slot writes the name. -/
theorem infix_fill {cells : List Cell} (isIn : .slot ∈ cells) (name : List Char) :
    name <:+: fill name cells := by
  obtain ⟨front, back, rfl⟩ := List.append_of_mem isIn
  refine ⟨fill name front ++ [')', ' '], '[' :: fill name back, ?_⟩
  simp

/-- In a row that is filled with a name which no string holds, no string has a slot. -/
theorem Unquoted.no_slot {name : List Char} {cells inner : List Cell} {parts : List Part}
    (unquoted : Unquoted name (fill name cells))
    (lexes : lexemesFrom Position.start (fill name cells) = .ok (parts.map (Part.toLexeme name)))
    (isIn : .quoted inner ∈ parts) : .slot ∉ inner := by
  intro hasSlot
  obtain ⟨raw, scanned, lexemes⟩ := exists_tokens lexes
  have isString : .string (fill name inner) ∈ raw.map Token.lexeme :=
    lexemes ▸ List.mem_map_of_mem (f := Part.toLexeme name) isIn
  obtain ⟨token, isToken, isLiteral⟩ := List.mem_map.mp isString
  exact unquoted raw scanned token isToken _ isLiteral (infix_fill hasSlot name)

namespace Apart

variable {first second : List Char} {cells : List Cell} {parts : List Part}

theorem symm (apart : Apart first second cells parts) : Apart second first cells parts :=
  ⟨apart.reads, apart.unquoted, apart.absent', apart.absent, apart.lexes', apart.lexes⟩

/-- A name among the parts stays what it is. -/
theorem kept (apart : Apart first second cells parts) {text : String}
    (isIn : .fixed (.name text) ∈ parts) : exchange first second text = text := by
  have written := apart.reads.written isIn
  refine exchange_other first second ?_ ?_
  · rintro rfl
    rw [String.toList_ofList] at written
    exact apart.absent written
  · rintro rfl
    rw [String.toList_ofList] at written
    exact apart.absent' written

/-- The lexeme of a part with the other name. -/
theorem toLexeme (apart : Apart first second cells parts) {part : Part} (isIn : part ∈ parts) :
    part.toLexeme second = (part.toLexeme first).rename (exchange first second) := by
  cases part with
  | fixed lexeme =>
    cases lexeme with
    | name text => exact congrArg Lexeme.name (apart.kept isIn).symm
    | _ => rfl
  | quoted inner => exact congrArg Lexeme.string (fill_kept (apart.unquoted inner isIn) _ _)
  | name => exact congrArg Lexeme.name (exchange_first first second).symm

/-- Of the names of variables none but the one in the slots is exchanged. -/
theorem changed (apart : Apart first second cells parts) {part : Part} (isIn : part ∈ parts)
    {text : String} (isName : part.toLexeme first = .name text)
    (changed : exchange first second text ≠ text) : part = .name := by
  cases part with
  | fixed lexeme =>
    obtain rfl : lexeme = .name text := isName
    exact absurd (apart.kept isIn) changed
  | quoted inner => cases isName
  | name => rfl

/-- Tokens that a row is read as have exchanged names only where these may stand. -/
theorem seated (apart : Apart first second cells parts) {raw : List Token}
    (lexemes : raw.map Token.lexeme = parts.map (Part.toLexeme first)) :
    AllSeated (exchange first second) raw := by
  let place (lexeme : Lexeme) : Token := ⟨lexeme, Position.start⟩
  have chain : (parts.map (Part.toLexeme first)).IsChain fun before after =>
      Seated (exchange first second) (place before) (place after) := by
    rw [List.isChain_map]
    refine apart.reads.beside.1.imp_of_mem_imp fun before after inBefore inAfter beside => ?_
    refine ⟨fun text isName changed => .inl ?_, fun text isName changed => ?_⟩
    · exact congrArg (Part.toLexeme first) (beside.behind (apart.changed inAfter isName changed))
    · exact congrArg (Part.toLexeme first) (beside.front (apart.changed inBefore isName changed))
  rw [← lexemes, List.isChain_map] at chain
  exact chain.imp fun before after seated => ⟨seated.behind, seated.front⟩

/-- **The tokens of a row with the other name** are those with the one name, moved. -/
theorem tokens (apart : Apart first second cells parts) : ∃ raw place,
    Lexer.tokens (fill first cells) = .ok raw ∧
      Lexer.tokens (fill second cells) = .ok (raw.map (Token.moved place (exchange first second))) ∧
      AllSeated (exchange first second) raw ∧ ∀ token ∈ raw, ∀ text, token.lexeme = .name text →
        text = String.ofList first ∨ exchange first second text = text := by
  obtain ⟨raw, scanned, lexemes⟩ := exists_tokens apart.lexes
  obtain ⟨raw', scanned', lexemes'⟩ := exists_tokens apart.lexes'
  have renamed : raw'.map Token.lexeme =
      raw.map fun token => token.lexeme.rename (exchange first second) := by
    have each : parts.map (Part.toLexeme second) =
        (parts.map (Part.toLexeme first)).map (Lexeme.rename (exchange first second)) := by
      rw [List.map_map]
      exact List.map_congr_left fun part isIn => apart.toLexeme isIn
    rw [lexemes', each, ← lexemes, List.map_map]
    rfl
  have distinct := (tokensFrom_inOrder scanned).imp Position.Before.ne
  obtain ⟨place, rfl⟩ := exists_moved distinct renamed
  refine ⟨raw, place, scanned, scanned', apart.seated lexemes, fun token isIn text isName => ?_⟩
  have among : .name text ∈ parts.map (Part.toLexeme first) :=
    lexemes ▸ isName ▸ List.mem_map_of_mem isIn
  obtain ⟨part, isPart, isLexeme⟩ := List.mem_map.mp among
  by_cases kept : exchange first second text = text
  · exact .inr kept
  · obtain rfl := apart.changed isPart isLexeme kept
    exact .inl (Lexeme.name.inj isLexeme).symm

end Apart

/-! ### Trees -/

/-- A text whose tokens are those of another one, moved, is parsed as the same body, but for its
labels. -/
theorem parseSource_moved {text text' : List Char} {raw : List Token}
    {place : Position → Position} {ident : String → String} (scanned : Lexer.tokens text = .ok raw)
    (scanned' : Lexer.tokens text' = .ok (raw.map (Token.moved place ident)))
    (seated : AllSeated ident raw) {body : List SourceStmt}
    (parsed : parseSource text = .ok body) :
    parseSource text' = .ok (Stmt.relabelAll (treeLabels place ident) body) := by
  obtain ⟨written, nearest⟩ := ((Parser.parseSource_grammar scanned).1 body).mp parsed
  have folded : Fold.fold (raw.map (Token.moved place ident)) =
      (Fold.fold raw).map (Token.moved place ident) :=
    Fold.foldFrom_moved place seated 0 none
  refine ((Parser.parseSource_grammar scanned').1 _).mpr ⟨?_, ?_⟩
  · rw [folded]
    exact written.moved place (Fold.fold_seated seated)
  · exact (nearestElseAll_relabel _ body).mpr nearest

/-- A name of a tree that is the one in the slots or is not exchanged; what is called is not. -/
def Stays (first second : List Char) : Mention → Prop
  | .variable text => text = String.ofList first ∨ exchange first second text = text
  | .callee text => exchange first second text = text

/-- What the exchange of two names does to runs: it moves positions and changes these names. -/
def exchanging (first second : List Char) (place : Position → Position) (margin : Margin) :
    Transfer :=
  ⟨.identity, margin, place, exchange first second, exchange_injective first second, []⟩

namespace Apart

variable {first second : List Char} {cells : List Cell} {parts : List Part}

/-- A body that is read with the one name is read with the other one, but for its labels. -/
theorem parseSource_ok (apart : Apart first second cells parts) {body : List SourceStmt}
    (parsed : parseSource (fill first cells) = .ok body) :
    (∃ place, parseSource (fill second cells) =
      .ok (Stmt.relabelAll (treeLabels place (exchange first second)) body)) ∧
        ∀ m ∈ Stmt.mentionsOfAll body, Stays first second m := by
  obtain ⟨raw, place, scanned, scanned', seated, names⟩ := apart.tokens
  obtain ⟨written, -⟩ := ((Parser.parseSource_grammar scanned).1 body).mp parsed
  refine ⟨⟨place, parseSource_moved scanned scanned' seated parsed⟩, fun m isIn => ?_⟩
  have named := written.names m isIn
  cases m with
  | «variable» text =>
    obtain ⟨p, isName⟩ := named
    exact names _ (Fold.foldFrom_name rfl 0 none isName) text rfl
  | callee text =>
    obtain ⟨p, q, front, back, same⟩ := named
    rw [List.append_assoc] at same
    exact (same ▸ Fold.fold_seated seated).neighbours.kept_front nofun

/-- **The body that a row is read as with the other name** is that with the one name, but for its
labels. -/
theorem parseSource (apart : Apart first second cells parts) :
    (∃ body place, parseSource (fill first cells) = .ok body ∧ parseSource (fill second cells) =
      .ok (Stmt.relabelAll (treeLabels place (exchange first second)) body) ∧
        ∀ m ∈ Stmt.mentionsOfAll body, Stays first second m) ∨
      ∃ e e', parseSource (fill first cells) = .error e ∧
        parseSource (fill second cells) = .error e' := by
  cases parsed : Formulary.parseSource (fill first cells) with
  | ok body =>
    obtain ⟨⟨place, parsed'⟩, stay⟩ := apart.parseSource_ok parsed
    exact .inl ⟨body, place, rfl, parsed', stay⟩
  | error e =>
    cases parsed' : Formulary.parseSource (fill second cells) with
    | ok body =>
      obtain ⟨⟨place, same⟩, -⟩ := apart.symm.parseSource_ok parsed'
      cases parsed.symm.trans same
    | error e' => exact .inr ⟨e, e', rfl, rfl⟩

/-- **Reading a row with the other name.** -/
theorem readBody (apart : Apart first second cells parts) (margin : Margin) :
    (∃ body place, readBody (fill first cells) = .ok body ∧ readBody (fill second cells) =
      .ok (Stmt.relabelAll (exchanging first second place margin).parsedLabels body) ∧
        ∀ m ∈ Stmt.mentionsOfAll body, Stays first second m) ∨
      ∃ e e', readBody (fill first cells) = .error e ∧
        readBody (fill second cells) = .error e' := by
  unfold Formulary.readBody
  rcases apart.parseSource with ⟨body, place, parsed, parsed', stay⟩ | ⟨e, e', parsed, parsed'⟩
  · rw [parsed, parsed']
    simp only [Stmt.depth_relabelAll]
    split
    · exact .inr ⟨_, _, rfl, rfl⟩
    · have literals : Stmt.mapAllLiterals Literal.value
          (Stmt.relabelAll (treeLabels place (exchange first second)) body) =
            Stmt.relabelAll (exchanging first second place margin).parsedLabels <$>
              Stmt.mapAllLiterals Literal.value body :=
        Stmt.mapAllLiterals_relabel (Literal.value_rename .identity) body
      rw [literals]
      cases read : Stmt.mapAllLiterals Literal.value body with
      | error e => exact .inr ⟨_, _, rfl, rfl⟩
      | ok values =>
        refine .inl ⟨values, place, rfl, rfl, ?_⟩
        rwa [Stmt.mentions_mapAllLiterals body values read]
  · rw [parsed, parsed']
    exact .inr ⟨_, _, rfl, rfl⟩

end Apart

end Slots

end Formulary

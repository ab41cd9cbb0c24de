/-
What literals denote.

The lexer says how a literal may be spelled, and the value is read off the spelling by rules of its
own. The two agree on escapes except for octal ones that begin with too great a digit, and neither
of them bounds a character or a decimal numeral.

* `CharacterSpelling`, `Finds.character_spelling` — how the lexer lets characters be spelled.
* `quoted_single`, `quoted_overfull` — which of them stand for one code of 16 bits.
* `integer_long` — which numbers a long literal stands for.
* `readBody_denotes` — every literal of a body denotes what its spelling says.
-/

import Formulary.Proofs.Closings
import Formulary.Proofs.Conversion
import Formulary.Proofs.Numeral
import Formulary.Proofs.Returns
import Formulary.Proofs.WrittenLiterals

namespace Formulary

open Formulary.Lexer (isHexDigit isOctalDigit)

namespace Literal

/-! ### Spellings of characters -/

/-- The spellings of characters that the lexer finds: a character as it is, and escapes. -/
inductive CharacterSpelling : List Char → Prop
  | plain {c : Char} : c ≠ '\\' → CharacterSpelling ['\'', c, '\'']
  | unicode {digits : List Char} : digits.length = 4 → (∀ c ∈ digits, isHexDigit c = true) →
      CharacterSpelling ('\'' :: '\\' :: 'u' :: (digits ++ ['\'']))
  | octal {digits : List Char} : digits ≠ [] → digits.length ≤ 3 →
      (∀ c ∈ digits, isOctalDigit c = true) →
      CharacterSpelling ('\'' :: '\\' :: (digits ++ ['\'']))
  | single (c : Char) : CharacterSpelling ['\'', '\\', c, '\'']

/-- The spellings of characters that stand for more than 16 bits hold: a character of another plane
than the basic one, and three octal digits that write more than 255. -/
inductive Overfull : List Char → Prop
  | plane {c : Char} : 0xFFFF < c.toNat → Overfull ['\'', c, '\'']
  | octal {a b c : Char} : '3' < a → (∀ d ∈ [a, b, c], isOctalDigit d = true) →
      Overfull ['\'', '\\', a, b, c, '\'']

end Literal

namespace Lexer

open Literal (CharacterSpelling)

theorem escapedRest_spelling {text : List Char} {length : Nat}
    (h : escapedRest? text = some length) :
    CharacterSpelling ('\'' :: '\\' :: text.take length) := by
  rw [escapedRest_eq] at h
  simp only [Option.orElse_eq_orElse, Option.orElse_eq_or, Option.or_eq_some_iff] at h
  rcases h with unicode | ⟨-, octal | ⟨-, single⟩⟩
  · unfold unicodeRest? at unicode
    split at unicode
    · next rest =>
      split at unicode
      · next four =>
        obtain ⟨rfl, closed⟩ := closedAfter_quoted unicode
        have digits : rest.take 4 = (rest.takeWhile isHexDigit).take 4 := by
          conv_lhs => rw [← List.takeWhile_append_dropWhile (p := isHexDigit) (l := rest)]
          exact List.take_append_of_le_length four
        rw [closed, List.take_succ_cons, List.cons_append, digits]
        refine .unicode (List.length_take_of_le four) fun c isIn => ?_
        exact List.mem_takeWhile_imp (List.mem_of_mem_take isIn)
      · cases unicode
    · cases unicode
  · unfold octalRest? at octal
    dsimp only at octal
    split at octal
    · cases octal
    · next some =>
      obtain ⟨rfl, closed⟩ := closedAfter_quoted octal
      have digits : text.take ((text.take 3).takeWhile isOctalDigit).length =
          (text.take 3).takeWhile isOctalDigit :=
        (List.prefix_iff_eq_take.mp
          ((List.takeWhile_prefix _).trans (List.take_prefix 3 text))).symm
      rw [closed, digits]
      refine .octal (fun empty => some (by rw [empty]; rfl)) ?_ fun c => List.mem_takeWhile_imp
      exact (List.takeWhile_prefix _).length_le.trans (List.length_take_le 3 text)
  · unfold singleRest? at single
    split at single
    · next c rest =>
      split at single
      · cases single
      · obtain ⟨rfl, closed⟩ := closedAfter_quoted single
        rw [closed]
        exact .single c
    · cases single

/-- Characters are spelled in one of four ways. -/
theorem characterLength_spelling {text : List Char} {length : Nat}
    (h : characterLength? text = some length) : CharacterSpelling (text.take length) := by
  unfold characterLength? at h
  split at h
  · obtain ⟨length, isLength, rfl⟩ := Option.map_eq_some_iff.mp h
    exact escapedRest_spelling isLength
  · next c rest noEscape =>
    split at h
    · cases h
    · obtain ⟨length, isLength, rfl⟩ := Option.map_eq_some_iff.mp h
      obtain ⟨rfl, closed⟩ := closedAfter_quoted isLength
      rw [List.take_succ_cons, closed]
      exact .plain noEscape
  · cases h

theorem Finds.character_spelling {text spelling : List Char} {length : Nat}
    (h : Finds text (some (.character spelling)) length) : CharacterSpelling spelling := by
  generalize same : (some (Lexeme.character spelling)) = lexeme? at h
  cases h with
  | character found =>
    cases same
    exact characterLength_spelling found
  | word =>
    unfold wordLexeme at same
    dsimp only at same
    split at same <;> cases same
  | _ => cases same

/-- A token of a text is found somewhere in it. -/
theorem tokensFrom_finds {text : List Char} {p : Position} {tokens : List Token}
    (h : tokensFrom 0 p text = .ok tokens) {token : Token} (isIn : token ∈ tokens) :
    ∃ rest length, Finds rest (some token.lexeme) length := by
  obtain ⟨pieces, -, scanned, rfl⟩ := scanned_of_tokens h
  obtain ⟨before, piece, after, rfl, isLexeme, -⟩ := mem_placed.mp isIn
  cases scanned.split.2 with
  | cons _ found => exact ⟨_, _, isLexeme ▸ scan_finds found⟩

end Lexer

namespace Literal

/-! ### Digits -/

theorem digitValue_lt {base digit : Nat} {c : Char} (h : digitValue? base c = some digit) :
    digit < base := by
  simpa using (Option.filter_eq_some_iff.mp h).2

/-- Digits write less than the power of the base that they reach. -/
theorem digitsFrom_lt {base value n : Nat} {digits : List Char}
    (h : digitsFrom base value digits = some n) : n < (value + 1) * base ^ digits.length := by
  induction digits generalizing value with
  | nil =>
    cases h
    simp
  | cons c rest ih =>
    obtain ⟨digit, isDigit, others⟩ := Option.bind_eq_some_iff.mp h
    have small := digitValue_lt isDigit
    calc n < (value * base + digit + 1) * base ^ rest.length := ih others
      _ ≤ ((value + 1) * base) * base ^ rest.length := by gcongr; linarith
      _ = (value + 1) * base ^ (c :: rest).length := by
        rw [List.length_cons, Nat.pow_succ', Nat.mul_assoc]

theorem digitsFrom_some {base : Nat} {digits : List Char}
    (each : ∀ c ∈ digits, (digitValue? base c).isSome = true) (value : Nat) :
    ∃ n, digitsFrom base value digits = some n := by
  induction digits generalizing value with
  | nil => exact ⟨value, rfl⟩
  | cons c rest ih =>
    obtain ⟨first, others⟩ := List.forall_mem_cons.mp each
    obtain ⟨digit, isDigit⟩ := Option.isSome_iff_exists.mp first
    obtain ⟨n, isNumber⟩ := ih others (value * base + digit)
    exact ⟨n, by rw [digitsFrom, isDigit, Option.bind_some, isNumber]⟩

theorem hexDigit_code {c : Char} (h : isHexDigit c = true) : c.toNat < 128 := by
  simp only [isHexDigit, Bool.or_eq_true, Bool.and_eq_true, decide_eq_true_eq,
    Lexer.le_iff_toNat] at h
  have : ('9' : Char).toNat = 57 ∧ ('f' : Char).toNat = 102 ∧ ('F' : Char).toNat = 70 := by decide
  omega

theorem hexDigit_value {c : Char} (h : isHexDigit c = true) :
    (digitValue? 16 c).isSome = true := by
  have each : ∀ code < 128, isHexDigit (Char.ofNat code) = true →
      (digitValue? 16 (Char.ofNat code)).isSome = true := by decide +kernel
  have value := each c.toNat (hexDigit_code h)
  rw [Char.ofNat_toNat] at value
  exact value h

theorem octalDigit_value {c : Char} (h : isOctalDigit c = true) :
    (digitValue? 8 c).isSome = true := by
  simp only [isOctalDigit, Bool.and_eq_true, decide_eq_true_eq, Lexer.le_iff_toNat] at h
  have : ('0' : Char).toNat = 48 ∧ ('7' : Char).toNat = 55 := by decide
  rw [digitValue?, decimalValue_ascii (by omega) (by omega)]
  simp only [Option.filter_some, decide_eq_true_eq]
  rw [if_pos (by omega)]
  rfl

/-! ### Escapes -/

theorem codesFrom_past {skip : Nat} {text : List Char} (h : text.length ≤ skip) :
    codesFrom skip text = .ok [] := by
  induction text generalizing skip with
  | nil => cases skip <;> rfl
  | cons c rest ih =>
    obtain ⟨skip, rfl⟩ := Nat.exists_eq_add_of_le' (Nat.lt_of_lt_of_le (Nat.succ_pos _) h)
    exact ih (Nat.succ_le_succ_iff.mp h)

theorem codesFrom_plain {c : Char} (h : c ≠ '\\') : codesFrom 0 [c] = .ok [c.toNat] := by
  rw [codesFrom, if_neg h]
  rfl

/-- An escape as long as the text denotes one code. -/
theorem codesFrom_escape {text : List Char} {code length : Nat}
    (h : escape text = .ok (code, length)) (whole : text.length ≤ length) :
    codesFrom 0 ('\\' :: text) = .ok [code] := by
  rw [codesFrom, if_pos rfl]
  exact Check.bind_ok.mpr ⟨_, h, Check.bind_ok.mpr ⟨_, codesFrom_past whole, rfl⟩⟩

theorem escape_unicode {digits : List Char} (four : digits.length = 4)
    (each : ∀ c ∈ digits, isHexDigit c = true) :
    ∃ code ≤ 0xFFFF, escape ('u' :: digits) = .ok (code, 5) := by
  obtain ⟨code, isCode⟩ := digitsFrom_some (fun c isIn => hexDigit_value (each c isIn)) 0
  have small := digitsFrom_lt isCode
  rw [four] at small
  have letters : (('u' :: digits).takeWhile (· = 'u')).length = 1 := by
    cases digits with
    | nil => rfl
    | cons d rest =>
      have other : d ≠ 'u' := by
        rintro rfl
        exact absurd (each 'u' List.mem_cons_self) (by decide)
      simp [other]
  have taken : (digits.take 4).takeWhile isHexDigit = digits := by
    rw [List.take_of_length_le four.le, List.takeWhile_eq_self_iff]
    exact each
  refine ⟨code, by omega, ?_⟩
  rw [escape, unicodeEscape?]
  simp only [letters, List.drop_one, List.tail_cons, taken, four, isCode]
  rfl

/-- The number of the digits that an octal escape may have, told by the first of them. -/
def octalBound (c : Char) : Nat :=
  if c ≤ '3' then 3 else 2

theorem unicodeEscape_other {c : Char} {rest : List Char} (h : c ≠ 'u') :
    unicodeEscape? (c :: rest) = none := by
  rw [unicodeEscape?, List.takeWhile_cons_of_neg (by simpa using h)]
  rfl

theorem octalEscape_cons (c : Char) (rest : List Char) :
    octalEscape? (c :: rest) =
      let digits := ((c :: rest).take (octalBound c)).takeWhile isOctalDigit
      if digits.isEmpty then none
      else (digitsFrom 8 0 digits).map fun code => (code, digits.length) := rfl

theorem octalEscape_other {c : Char} {rest : List Char} (h : isOctalDigit c = false) :
    octalEscape? (c :: rest) = none := by
  have none : ((c :: rest).take (octalBound c)).takeWhile isOctalDigit = [] := by
    rw [octalBound]
    split <;> simp [h]
  rw [octalEscape_cons, none]
  rfl

/-- Of octal digits an escape has as many as it may. -/
theorem octalEscape_digits {c : Char} {rest : List Char}
    (each : ∀ d ∈ c :: rest, isOctalDigit d = true) :
    ∃ code < 512, octalEscape? (c :: rest) =
      some (code, min (octalBound c) (c :: rest).length) := by
  generalize isTaken : (c :: rest).take (octalBound c) = taken
  have eachTaken : ∀ d ∈ taken, isOctalDigit d = true := by
    rw [← isTaken]
    exact fun d isIn => each d (List.mem_of_mem_take isIn)
  have length : taken.length = min (octalBound c) (c :: rest).length := by
    rw [← isTaken, List.length_take]
  have few : taken.length ≤ 3 := by
    rw [length, octalBound]
    split <;> omega
  have some : taken.isEmpty = false := by
    rw [← isTaken, octalBound]
    split <;> rfl
  obtain ⟨code, isCode⟩ := digitsFrom_some (fun d isIn => octalDigit_value (eachTaken d isIn)) 0
  have small : code < 512 := by
    have power := Nat.pow_le_pow_right (by decide : 0 < 8) few
    have below := digitsFrom_lt isCode
    omega
  refine ⟨code, small, ?_⟩
  rw [octalEscape_cons, isTaken, List.takeWhile_eq_self_iff.mpr eachTaken]
  simp only [some, isCode, length]
  rfl

theorem escape_octal {c : Char} {rest : List Char}
    (each : ∀ d ∈ c :: rest, isOctalDigit d = true) :
    ∃ code < 512, escape (c :: rest) = .ok (code, min (octalBound c) (c :: rest).length) := by
  have other : c ≠ 'u' := by
    rintro rfl
    exact absurd (each 'u' List.mem_cons_self) (by decide)
  obtain ⟨code, small, found⟩ := octalEscape_digits each
  refine ⟨code, small, ?_⟩
  rw [escape, unicodeEscape_other other, found]
  rfl

theorem escapeLetters_code {c : Char} {code : Nat} (h : escapeLetters.lookup c = some code) :
    code ≤ 92 := by
  obtain ⟨before, after, same, -⟩ := List.lookup_eq_some_iff.mp h
  have each : ∀ pair ∈ escapeLetters, pair.2 ≤ 92 := by decide
  exact each (c, code) (by rw [same]; exact List.mem_append_right _ List.mem_cons_self)

/-- An escape of one character denotes one code of 16 bits, if any. -/
theorem escape_single {c : Char} {code length : Nat} (h : escape [c] = .ok (code, length)) :
    code ≤ 0xFFFF ∧ length = 1 := by
  by_cases isOctal : isOctalDigit c = true
  · obtain ⟨found, small, read⟩ := escape_octal (List.forall_mem_singleton.mpr isOctal)
    have one : min (octalBound c) [c].length = 1 := by
      rw [octalBound]
      split <;> rfl
    rw [one, h] at read
    cases read
    exact ⟨by omega, rfl⟩
  · rcases eq_or_ne c 'u' with rfl | other
    · exact nomatch h
    rw [escape, unicodeEscape_other other, octalEscape_other (by simpa using isOctal)] at h
    simp only [Option.orElse_eq_orElse, Option.orElse_eq_or, Option.or_none, if_neg other] at h
    split at h
    · cases isDigit : digitsFrom 8 0 [c] with
      | none => simp [natural, isDigit, Except.map] at h
      | some digit =>
        obtain ⟨rfl, rfl⟩ : digit = code ∧ 1 = length := by
          simpa [natural, isDigit, Except.map] using h
        have below := digitsFrom_lt isDigit
        rw [List.length_singleton] at below
        exact ⟨by omega, rfl⟩
    · split at h
      · next found isFound =>
        cases h
        exact ⟨(escapeLetters_code isFound).trans (by decide), rfl⟩
      · cases h

/-! ### Characters -/

theorem quoted_between (inner : List Char) :
    quoted ('\'' :: (inner ++ ['\''])) = codesFrom 0 inner := by
  simp [quoted]

/-- **A character denotes one code of 16 bits unless its spelling is overfull.** -/
theorem quoted_single {spelling : List Char} {codes : Codes}
    (spells : CharacterSpelling spelling) (fits : ¬Overfull spelling)
    (read : quoted spelling = .ok codes) : ∃ code ≤ 0xFFFF, codes = [code] := by
  cases spells with
  | @plain c noEscape =>
    have value := quoted_between [c]
    rw [codesFrom_plain noEscape] at value
    cases value.symm.trans read
    exact ⟨c.toNat, Nat.le_of_not_lt fun large => fits (.plane large), rfl⟩
  | @unicode digits four each =>
    obtain ⟨code, small, isCode⟩ := escape_unicode four each
    have value := quoted_between ('\\' :: 'u' :: digits)
    rw [codesFrom_escape isCode (by simp [four])] at value
    cases value.symm.trans read
    exact ⟨code, small, rfl⟩
  | @octal digits some few each =>
    obtain ⟨c, rest, rfl⟩ := List.exists_cons_of_ne_nil some
    obtain ⟨code, small, isCode⟩ := escape_octal each
    have within : (c :: rest).length ≤ octalBound c := by
      rw [octalBound]
      split
      · exact few
      · next large =>
        refine Nat.le_of_lt_succ (Nat.lt_of_le_of_ne few fun three => fits ?_)
        obtain ⟨d, e, rfl⟩ := List.length_eq_two.mp (Nat.succ.inj three)
        exact .octal (Char.not_le.mp large) each
    have value := quoted_between ('\\' :: c :: rest)
    rw [codesFrom_escape isCode (Nat.le_min.mpr ⟨within, Nat.le_refl _⟩)] at value
    cases value.symm.trans read
    exact ⟨code, by omega, rfl⟩
  | single c =>
    have value := quoted_between ['\\', c]
    rw [List.cons_append, List.singleton_append] at value
    rw [value, codesFrom, if_pos rfl] at read
    obtain ⟨⟨code, length⟩, isCode, read⟩ := Check.bind_ok.mp read
    obtain ⟨small, rfl⟩ := escape_single isCode
    cases read
    exact ⟨code, small, rfl⟩

/-- An overfull spelling denotes more than one code of 16 bits holds. -/
theorem quoted_overfull {spelling : List Char} {codes : Codes} (overfull : Overfull spelling)
    (read : quoted spelling = .ok codes) : ¬∃ code ≤ 0xFFFF, codes = [code] := by
  cases overfull with
  | @plane c large =>
    have noEscape : c ≠ '\\' := by
      rintro rfl
      exact absurd large (by decide)
    have value := quoted_between [c]
    rw [codesFrom_plain noEscape] at value
    cases value.symm.trans read
    rintro ⟨code, small, same⟩
    rw [List.singleton_inj] at same
    omega
  | @octal a b c large each =>
    obtain ⟨code, -, isCode⟩ := escape_octal each
    have two : min (octalBound a) [a, b, c].length = 2 := by
      rw [octalBound, if_neg (Char.not_le.mpr large)]
      rfl
    have noEscape : c ≠ '\\' := by
      rintro rfl
      exact absurd (each '\\' (by simp)) (by decide)
    have both : codesFrom 0 ['\\', a, b, c] = .ok [code, c.toNat] := by
      rw [codesFrom, if_pos rfl]
      refine Check.bind_ok.mpr ⟨_, isCode, Check.bind_ok.mpr ⟨[c.toNat], ?_, rfl⟩⟩
      rw [two]
      exact codesFrom_plain noEscape
    have value := quoted_between ['\\', a, b, c]
    rw [both] at value
    cases value.symm.trans read
    rintro ⟨_, -, same⟩
    cases same

/-! ### Long numbers -/

/-- The digits of an integer literal, the letters of their base included. -/
def numeral (spelling : List Char) : List Char :=
  spelling.takeWhile fun c => !isLongSuffix c

/-- The number that an integer literal writes with decimal digits. -/
def WritesDecimal (spelling : List Char) (n : Nat) : Prop :=
  (∀ c rest, numeral spelling ≠ '0' :: c :: rest) ∧ decimal (numeral spelling) = .ok n

theorem numeral_shorter {spelling : List Char} (suffixed : spelling.any isLongSuffix = true) :
    (numeral spelling).length < spelling.length := by
  refine Nat.lt_of_le_of_ne (List.takeWhile_prefix _).length_le fun whole => ?_
  obtain ⟨c, isIn, isSuffix⟩ := List.any_eq_true.mp suffixed
  have same : numeral spelling = spelling := (List.takeWhile_prefix _).eq_of_length whole
  have noSuffix := List.takeWhile_eq_self_iff.mp same c isIn
  rw [isSuffix] at noSuffix
  cases noSuffix

/-- What a literal in another base than ten denotes is no decimal number out of range. -/
theorem based_long {spelling rest : List Char} {c : Char}
    (based : numeral spelling = '0' :: c :: rest) {bits : Except LiteralError Nat} {value : Value}
    (read : (bits >>= fun m => .ok (.long (wrap m 64))) = .ok value) :
    ∃ v, value = .long v ∧ -2 ^ 63 ≤ v ∧
      ∀ n : Nat, 2 ^ 63 ≤ n → (v = n ↔ WritesDecimal spelling n) := by
  obtain ⟨m, -, same⟩ := Check.bind_ok.mp read
  cases same
  obtain ⟨lower, upper⟩ := wrap_inBits m (by decide : 0 < 64)
  refine ⟨_, rfl, lower, fun n large => ⟨fun same => ?_, fun writes => ?_⟩⟩
  · have tooLarge : (2 : Int) ^ 63 ≤ n := by exact_mod_cast large
    rw [← same] at tooLarge
    exact absurd upper (Int.not_lt.mpr tooLarge)
  · exact (writes.1 c rest based).elim

/-- **A long literal denotes a number of 64 bits unless it writes a greater one in decimal digits**,
which it denotes then. -/
theorem integer_long {spelling : List Char} {value : Value}
    (suffixed : spelling.any isLongSuffix = true) (read : integer spelling = .ok value) :
    ∃ v, value = .long v ∧ -2 ^ 63 ≤ v ∧
      ∀ n : Nat, 2 ^ 63 ≤ n → (v = n ↔ WritesDecimal spelling n) := by
  have isLong := numeral_shorter suffixed
  unfold integer at read
  rw [show (spelling.takeWhile fun c => !isLongSuffix c) = numeral spelling from rfl] at read
  simp only [isLong, if_true] at read
  split at read
  · next based => exact based_long based read
  · next based => exact based_long based read
  · next based => exact based_long based read
  · next noBase =>
    obtain ⟨m, isDecimal, same⟩ := Check.bind_ok.mp read
    cases same
    refine ⟨m, rfl, by omega, fun n large => ⟨fun same => ⟨noBase, ?_⟩, fun writes => ?_⟩⟩
    · rw [isDecimal, Int.ofNat.inj same]
    · exact congrArg Nat.cast (Except.ok.inj (isDecimal.symm.trans writes.2))

/-! ### Literals of a body -/

/-- What the spelling of a literal says about its value: a character is one code of 16 bits unless
it is overfull, and a long number is one of 64 bits unless it is a greater decimal one. -/
structure Denotes (lexeme : Lexeme) (value : Value) : Prop where
  read : Literal.value lexeme = .ok value
  character : ∀ spelling, lexeme = .character spelling → ∃ codes, value = .char codes ∧
    ((∃ code ≤ 0xFFFF, codes = [code]) ↔ ¬Overfull spelling)
  long : ∀ spelling, lexeme = .integer spelling → spelling.any isLongSuffix = true →
    ∃ v, value = .long v ∧ -2 ^ 63 ≤ v ∧
      ∀ n : Nat, 2 ^ 63 ≤ n → (v = n ↔ WritesDecimal spelling n)

/-- A lexeme that a text may have denotes what its spelling says. -/
theorem denotes_of_finds {text : List Char} {lexeme : Lexeme} {length : Nat} {value : Value}
    (finds : Lexer.Finds text (some lexeme) length) (read : Literal.value lexeme = .ok value) :
    Denotes lexeme value where
  read := read
  character := by
    rintro spelling rfl
    obtain ⟨codes, isQuoted, same⟩ := Check.bind_ok.mp read
    cases same
    exact ⟨codes, rfl, fun single overfull => quoted_overfull overfull isQuoted single,
      fun fits => quoted_single finds.character_spelling fits isQuoted⟩
  long := by
    rintro spelling rfl suffixed
    exact integer_long suffixed read

end Literal

/-- **Every literal of a body denotes what its spelling says.** The literals of a body are those of
its text, in their order and at their places. A character denotes one code of 16 bits exactly if
its spelling is not overfull. A literal with the suffix of long numbers denotes a long number that
is not below the range of 64 bits, and it is above that range only if, and whenever, it writes
that number with decimal digits. -/
theorem readBody_denotes {text : List Char} {body : List ParsedStmt}
    (h : readBody text = .ok body) : ∃ tokens, Lexer.tokens text = .ok tokens ∧
      List.Forall₂ (fun written read => read.1 = written.1 ∧ Literal.Denotes written.2 read.2)
        (literalsOf tokens) (Stmt.literalsOfAll body) := by
  obtain ⟨tokens, scanned, reads⟩ := readBody_literals h
  have each : ∀ written ∈ literalsOf tokens,
      ∃ rest length, Lexer.Finds rest (some written.2) length := fun written isIn =>
    Lexer.tokensFrom_finds scanned (mem_literalsOf.mp isIn).1
  refine ⟨tokens, scanned, ((List.forall₂_and_left _ _).mpr ⟨each, reads⟩).imp ?_⟩
  rintro written read ⟨⟨rest, length, finds⟩, place, value⟩
  exact ⟨place, Literal.denotes_of_finds finds value⟩

/-- A text with an escape and a hexadecimal number. -/
theorem escapedSum_denotes : ∃ body, readBody "return '\\u0041' + 0xFFL;".toList = .ok body ∧
    Stmt.literalsOfAll body = [(⟨1, 8⟩, .char [65]), (⟨1, 19⟩, .long 255)] ∧
    ∃ tokens, Lexer.tokens "return '\\u0041' + 0xFFL;".toList = .ok tokens ∧
      List.Forall₂ (fun written read => read.1 = written.1 ∧ Literal.Denotes written.2 read.2)
        (literalsOf tokens) (Stmt.literalsOfAll body) := by
  have literals : (readBody "return '\\u0041' + 0xFFL;".toList).map Stmt.literalsOfAll =
      .ok [(⟨1, 8⟩, .char [65]), (⟨1, 19⟩, .long 255)] := by decide +kernel
  cases isBody : readBody "return '\\u0041' + 0xFFL;".toList with
  | error error =>
    rw [isBody] at literals
    cases literals
  | ok body =>
    rw [isBody] at literals
    exact ⟨body, rfl, Except.ok.inj literals, readBody_denotes isBody⟩

/-- Characters of two codes and of too great a code, and long numbers of more than 64 bits, are
read like any others. -/
theorem overfull_read :
    (readBody "return '\\477';".toList).map Stmt.literalsOfAll =
        .ok [(⟨1, 8⟩, .char [39, 55])] ∧
      (readBody "return '😀';".toList).map Stmt.literalsOfAll = .ok [(⟨1, 8⟩, .char [128512])] ∧
      (readBody "return 9223372036854775808L;".toList).map Stmt.literalsOfAll =
        .ok [(⟨1, 8⟩, .long (2 ^ 63))] ∧
      (readBody "return 99999999999999999999L;".toList).map Stmt.literalsOfAll =
        .ok [(⟨1, 8⟩, .long 99999999999999999999)] := by
  decide +kernel

end Formulary

/-
Host methods under a renaming.

What a host method makes of values alone is the same for renamed values, up to the
renaming where it answers with a value.
-/

import Formulary.Method
import Formulary.Proofs.RenamedNumbers

namespace Formulary

variable (σ : Renaming)

/-! ### Arguments -/

namespace Argument

@[simp]
theorem integer_rename (value : Value) : integer (value.rename σ) = integer value := by
  simp [integer]

@[simp]
theorem machineInteger_rename (value : Value) :
    machineInteger (value.rename σ) = machineInteger value := by
  simp [machineInteger]

@[simp]
theorem integerOr_rename (otherwise : Int) (value : Value) :
    integerOr otherwise (value.rename σ) = integerOr otherwise value := by
  simp [integerOr]

@[simp]
theorem text_rename (value : Value) : text (value.rename σ) = text value := by
  simp [text]

@[simp]
theorem texts_rename (values : List Value) :
    texts (values.map (·.rename σ)) = texts values := by
  induction values with
  | nil => rfl
  | cons value rest ih => simp [texts, ih]

@[simp]
theorem stretch_rename (length : Nat) (values : List Value) :
    stretch length (values.map (·.rename σ)) = stretch length values := by
  match values with
  | [] | _ :: _ :: _ :: _ => rfl
  | [start] => simp [stretch]
  | [start, stop] => simp [stretch]

end Argument

/-! ### Texts -/

namespace TextMethod

@[simp]
theorem place?_rename (text : Codes) (args : List Value) :
    place? text (args.map (·.rename σ)) = place? text args := by
  cases args <;> simp [place?]

@[simp]
theorem occurrences_rename (text : Codes) (args : List Value) :
    occurrences text (args.map (·.rename σ)) = occurrences text args := by
  cases args <;> simp [occurrences]

@[simp]
theorem limit_rename (text : Codes) (value : Value) :
    limit text (value.rename σ) = limit text value := by
  simp [limit]

@[simp]
theorem replaced_rename (text : Codes) (args : List Value) :
    replaced text (args.map (·.rename σ)) = replaced text args := by
  match args with
  | [] | [_] | _ :: _ :: _ :: _ :: _ => rfl
  | [part, replacement] => simp [replaced]
  | [part, replacement, most] => simp [replaced]

@[simp]
theorem stripped_rename (text : Codes) (args : List Value) :
    stripped text (args.map (·.rename σ)) = stripped text args := by
  match args with
  | [] => rfl
  | [characters] => cases characters <;> rfl
  | first :: _ :: _ => cases first <;> rfl

theorem rename_comp_str : (fun value => Value.rename σ value) ∘ Value.str = Value.str := rfl

theorem pieces_rename (receiver : Value) (text : Codes) (args : List Value) :
    pieces (receiver.rename σ) text (args.map (·.rename σ)) =
      List.map (·.rename σ) <$> pieces receiver text args := by
  have cut (separator : Value) (most : Nat) :
      (if separator.rename σ = .null then
          pure ((Text.Search.wordsUpTo (text.length + 1) most text).map .str)
        else do
          let separator ← Argument.text (separator.rename σ)
          if separator.isEmpty then throw .wrongValue
          else if text.length < separator.length || width text < width separator then
            pure [receiver.rename σ]
          else pure ((Text.Search.piecesFrom separator [] most 0 text).map .str) :
        Except Fault (List Value)) =
      List.map (·.rename σ) <$>
        (if separator = .null then
          pure ((Text.Search.wordsUpTo (text.length + 1) most text).map .str)
        else do
          let separator ← Argument.text separator
          if separator.isEmpty then throw .wrongValue
          else if text.length < separator.length || width text < width separator then
            pure [receiver]
          else pure ((Text.Search.piecesFrom separator [] most 0 text).map .str)) := by
    simp only [Value.rename_eq_null, Argument.text_rename]
    split
    · simp [rename_comp_str]
    · rw [map_bind]
      refine bind_congr fun separator => ?_
      split
      · rfl
      · split <;> simp [rename_comp_str]
  rcases args with _ | ⟨separator, _ | ⟨most, _ | ⟨_, _⟩⟩⟩
  · simp [pieces, rename_comp_str]
  · exact cut separator _
  · simp only [pieces, List.map_cons, List.map_nil, limit_rename, pure_bind, map_bind]
    exact bind_congr fun most => cut separator most
  · rfl

end TextMethod

/-! ### Numbers from texts -/

namespace Primitive

theorem parse_rename (type : Primitive) (value : Value) :
    type.parse (value.rename σ) = Value.rename σ <$> type.parse value := by
  have whole (i : Int) :
      type.castNumber (.integer i false) =
        Value.rename σ <$> type.castNumber (.integer i false) :=
    castNumber_rename σ type (.integer i false)
  unfold parse
  simp only [Value.text?_rename, Value.typeName_rename]
  cases value.text? with
  | none => rfl
  | some codes =>
    cases type with
    | boolean | char => rfl
    | double | float =>
      have read := Double.rename_ofText? σ
        (Text.Search.stripWhere Text.Search.isBlankCode codes)
      simp only
      cases found : Double.ofText? _ with
      | none => rfl
      | some x =>
        rw [found, Option.map_some, Option.some_inj] at read
        simp only [← castNumber_rename, Number.rename_floating, read]
    | long | int | short | byte =>
      simp only
      split
      · split
        · exact whole _
        · rfl
      · rfl

theorem isOfSort_rename (sort : Double → Bool)
    (blind : ∀ x : Double, sort (x.rename σ) = sort x) (value : Value) :
    isOfSort sort (value.rename σ) = Value.rename σ <$> isOfSort sort value := by
  simp only [isOfSort, Number.ofValue_rename, map_bind, bind_map_left,
    Number.toDouble_rename, blind, map_pure, Value.rename]

theorem ofTwo_rename (type : Primitive) (name : String) (left right : Value) :
    type.ofTwo name (left.rename σ) (right.rename σ) =
      Value.rename σ <$> type.ofTwo name left right := by
  simp only [ofTwo, convert_rename, map_bind, bind_map_left]
  refine bind_congr fun left => bind_congr fun right => ?_
  split <;> simp only [Number.ofValue_rename, map_bind, bind_map_left,
    Arithmetic.numbers_rename, cast_rename, Arithmetic.extremum_rename]

theorem constants_rename (type : Primitive) :
    type.constants.map (renameMember σ) = type.constants := by
  cases type <;> simp [constants, floatingConstants, integralConstants, renameMember,
    greatest, least]

theorem constant?_rename (type : Primitive) (name : String) :
    (type.constant? name).map (·.rename σ) = type.constant? name := by
  rw [constant?, ← lookup_rename, constants_rename]

end Primitive

/-! ### Sums, products and methods of numbers -/

namespace Host

@[simp]
theorem floatingNumber?_rename (value : Value) :
    floatingNumber? (value.rename σ) = (floatingNumber? value).map (·.rename σ) := by
  cases value <;> simp [floatingNumber?, apply_ite (Double.rename σ)]

theorem asDouble_rename (value : Value) :
    asDouble (value.rename σ) = Double.rename σ <$> asDouble value := by
  unfold asDouble
  simp only [floatingNumber?_rename, Value.exactValue?_rename]
  cases floatingNumber? value with
  | some x => rfl
  | none =>
    cases value.exactValue? with
    | none => rfl
    | some q =>
      simp only [Option.map_none]
      split
      · exact congrArg Except.ok (Double.rename_ofRat σ _ _).symm
      · rfl

theorem combine_rename (onInt : Int → Int → Int) (onRat : Rat → Rat → Rat)
    (onDouble : Double → Double → Double)
    (natural : ∀ x y : Double, onDouble (x.rename σ) (y.rename σ) = (onDouble x y).rename σ)
    (a b : Value) :
    combine onInt onRat onDouble (a.rename σ) (b.rename σ) =
      Value.rename σ <$> combine onInt onRat onDouble a b := by
  unfold combine
  simp only [Value.isQuantity_rename, wholeNumber?, Argument.integer?_rename,
    floatingNumber?_rename, Value.exactValue?_rename, Option.isSome_map, asDouble_rename,
    bind_map_left, natural]
  split
  · rfl
  · cases Argument.integer? a <;> cases Argument.integer? b <;> simp only <;>
      first
      | rfl
      | (split
         · simp
         · cases a.exactValue? <;> cases b.exactValue? <;> rfl)

theorem callNumber_rename (receiver : Value) (name : String) (args : List Value) :
    callNumber (receiver.rename σ) name (args.map (·.rename σ)) =
      Value.rename σ <$> callNumber receiver name args := by
  by_cases bits : name = "bit_length" ∧ args = []
  · obtain ⟨rfl, rfl⟩ := bits
    simp only [List.map_nil, callNumber, wholeNumber?, Argument.integer?_rename]
    cases Argument.integer? receiver <;> rfl
  · by_cases whole : name = "is_integer" ∧ args = []
    · obtain ⟨rfl, rfl⟩ := whole
      simp only [List.map_nil, callNumber, Value.exactValue?_rename]
      rfl
    · cases args with
      | nil => 
        simp_all [callNumber, Functor.map, Except.map]
      | cons arg rest => simp_all [callNumber, Functor.map, Except.map]

end Host

/-! ### Operators -/

/-- The case of two values of which none is null, true or false. -/
theorem Store.sameKind_rename (a b : Value) :
    (if (a.rename σ).isNumeric && (b.rename σ).isNumeric then do
        let x ← Number.ofValue (a.rename σ)
        let y ← Number.ofValue (b.rename σ)
        pure (x.compare? y == some .eq)
      else
        match (a.rename σ).text?, (b.rename σ).text? with
        | some s, some t => .ok (s == t)
        | _, _ => .ok (a.rename σ = b.rename σ) : Except Fault Bool) =
    (if a.isNumeric && b.isNumeric then do
        let x ← Number.ofValue a
        let y ← Number.ofValue b
        pure (x.compare? y == some .eq)
      else
        match a.text?, b.text? with
        | some s, some t => .ok (s == t)
        | _, _ => .ok (a = b)) := by
  simp [Number.ofValue_rename]

theorem Store.sameValue_rename (a b : Value) :
    Store.sameValue (a.rename σ) (b.rename σ) = Store.sameValue a b := by
  have general := sameKind_rename σ a b
  cases a <;> cases b <;> first | rfl | exact general

namespace Operation

theorem onNumbers_rename (op : BinaryOp) (left right : Value) :
    onNumbers op (left.rename σ) (right.rename σ) =
      Value.rename σ <$> onNumbers op left right := by
  simp only [onNumbers, Arithmetic.operands_rename, map_bind, bind_map_left]
  exact bind_congr fun _ => Arithmetic.numbers_rename σ op _ _

theorem onValues_rename (op : BinaryOp) (left right : Value) :
    onValues op (left.rename σ) (right.rename σ) =
      Value.rename σ <$> onValues op left right := by
  have numbers := onNumbers_rename σ op left right
  cases op with
  | eq | ne =>
    simp only [onValues, Store.sameValue_rename, map_bind, map_pure, Value.rename]
  | _ =>
    cases left <;> cases right <;> first | exact numbers | rfl

end Operation

/-! ### Places -/

@[simp]
theorem Place.check_rename (outOfRange : Int → Nat → EvaluationError) (length : Nat)
    (index : Value) :
    Place.check outOfRange length (index.rename σ) = Place.check outOfRange length index := by
  simp [Place.check]

namespace Method

@[simp]
theorem atMost_rename (a b : Value) : atMost (a.rename σ) (b.rename σ) = atMost a b := by
  simp [atMost]

@[simp]
theorem cutPlace_rename (value : Value) : cutPlace (value.rename σ) = cutPlace value := by
  simp [cutPlace]

@[simp]
theorem order_rename (receiver other : Value) :
    order (receiver.rename σ) (other.rename σ) = order receiver other := by
  simp [order, Number.ofValue_rename]

end Method

/-! ### Members of numbers, classes and modules -/

theorem numberMember?_rename (value : Value) (name : String) :
    numberMember? (value.rename σ) name = (numberMember? value name).map (·.rename σ) := by
  cases value <;> simp only [numberMember?, Value.rename] <;> first | rfl | (split <;> rfl)

theorem HostClass.member?_rename (type : HostClass) (name : String) :
    (type.member? name).map (·.rename σ) = type.member? name := by
  cases type <;> simp only [HostClass.member?] <;> try rfl
  case math =>
    split
    · rfl
    · rfl
    · simp [Function.comp_def]
  case label => split <;> rfl
  case limits => split <;> rfl

theorem HostModule.member?_rename (module : HostModule) (name : String) :
    (module.member? name).map (·.rename σ) = module.member? name := by
  cases module
  unfold HostModule.member?
  split <;> simp

/-! ### Values in templates -/

namespace Template

@[simp]
theorem cutOff_rename (value : Value) : cutOff (value.rename σ) = cutOff value := by
  cases value <;> simp [cutOff]

theorem toDouble_rename (value : Value) :
    toDouble (value.rename σ) = Double.rename σ <$> toDouble value := by
  have numeric : (do (← Number.ofValue (value.rename σ)).toDouble) =
      Double.rename σ <$> (do (← Number.ofValue value).toDouble) := by
    simp only [Number.ofValue_rename, map_bind, bind_map_left, Number.toDouble_rename]
  unfold toDouble
  rw [Value.isQuantity_rename]
  split
  · cases value with
    | bool b => exact Number.toDouble_rename σ (.integer _ false)
    | _ => exact numeric
  · rfl

@[simp]
theorem character_rename (value : Value) : character (value.rename σ) = character value := by
  simp [character]

@[simp]
theorem floating_rename (directive : Directive) (letter : Char) (capitals : Bool)
    (x : Double) :
    floating directive letter capitals (x.rename σ) = floating directive letter capitals x := by
  simp [floating, magnitude]

end Template

end Formulary

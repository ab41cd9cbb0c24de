/-
Numbers under a renaming.

No operation on numbers looks at a mark, and a result that is no number is a
constant, a fresh one, or one of the operands as it is. So every operation takes
renamed operands to the renamed result.
-/

import Formulary.Host.Math
import Formulary.Kind.Static
import Formulary.Operation
import Formulary.Proofs.Renaming

namespace Formulary

variable (σ : Renaming)

/-! ### Doubles -/

namespace Double

@[simp]
theorem neg_rename (x : Double) : (x.rename σ).neg = x.neg.rename σ := by
  cases x <;> simp [neg]

@[simp]
theorem abs_rename (x : Double) : (x.rename σ).abs = x.abs.rename σ := by
  cases x <;> simp [abs]

@[simp]
theorem copySign_rename (x y : Double) :
    (x.rename σ).copySign (y.rename σ) = (x.copySign y).rename σ := by
  cases x <;> simp [copySign]

@[simp]
theorem add_rename (x y : Double) : (x.rename σ).add (y.rename σ) = (x.add y).rename σ := by
  simp only [add, toRat?_rename, isNegative_rename, isNaN_rename, isInfinite_rename]
  cases x.toRat? <;> cases y.toRat? <;> simp [apply_ite (rename σ)]

@[simp]
theorem sub_rename (x y : Double) : (x.rename σ).sub (y.rename σ) = (x.sub y).rename σ := by
  simp [sub, apply_ite (rename σ)]

@[simp]
theorem mul_rename (x y : Double) : (x.rename σ).mul (y.rename σ) = (x.mul y).rename σ := by
  simp only [mul, toRat?_rename, isNegative_rename, isNaN_rename, isZero_rename]
  cases x.toRat? <;> cases y.toRat? <;> simp [apply_ite (rename σ)]

@[simp]
theorem div_rename (x y : Double) : (x.rename σ).div (y.rename σ) = (x.div y).rename σ := by
  simp only [div, toRat?_rename, isNegative_rename, isNaN_rename, isZero_rename]
  cases x.toRat? <;> cases y.toRat? <;> simp [apply_ite (rename σ)]

@[simp]
theorem rem?_rename (x y : Double) :
    (x.rename σ).rem? (y.rename σ) = (x.rem? y).map (rename σ) := by
  simp only [rem?, toRat?_rename, isNegative_rename, isNaN_rename, isInfinite_rename,
    isZero_rename]
  cases x.toRat? <;> cases y.toRat? <;> simp [apply_ite (Option.map (rename σ))]

@[simp]
theorem sqrt?_rename (x : Double) : (x.rename σ).sqrt? = x.sqrt?.map (rename σ) := by
  cases x with
  | nan mark => simp [sqrt?]
  | signed negative index =>
    simp only [rename_signed, sqrt?]
    cases (signed negative index).toRat? <;> simp [apply_ite (Option.map (rename σ))]

@[simp]
theorem toRats?_rename (xs : List Double) : toRats? (xs.map (rename σ)) = toRats? xs := by
  induction xs with
  | nil => rfl
  | cons x rest ih => simp [toRats?, ih]

@[simp]
theorem hypot_rename (xs : List Double) :
    hypot (xs.map (rename σ)) = (hypot xs).rename σ := by
  have infinite : (xs.map (rename σ)).any isInfinite = xs.any isInfinite := by
    simp [List.any_map, Function.comp_def]
  simp only [hypot, infinite, toRats?_rename]
  cases toRats? xs <;> simp [apply_ite (rename σ)]

@[simp]
theorem toSingle_rename (x : Double) : (x.rename σ).toSingle = x.toSingle.rename σ := by
  simp only [toSingle, toRat?_rename, isNaN_rename, isNegative_rename]
  cases x.toRat? <;> simp [apply_ite (rename σ)]

@[simp]
theorem ofFloat_rename (x : Float) : (ofFloat x).rename σ = ofFloat x := by
  simp [ofFloat, apply_ite (rename σ)]

@[simp]
theorem viaFloat_rename (f : Float → Float) (x : Double) :
    viaFloat f (x.rename σ) = (viaFloat f x).rename σ := by
  simp [viaFloat]

@[simp]
theorem atan2_rename (x y : Double) :
    (x.rename σ).atan2 (y.rename σ) = (x.atan2 y).rename σ := by
  simp [atan2]

@[simp]
theorem pow_rename (x y : Double) : (x.rename σ).pow (y.rename σ) = (x.pow y).rename σ := by
  simp [pow]

@[simp]
theorem rename_ofDecimal (negative : Bool) (decimal : Decimal) :
    (ofDecimal negative decimal).rename σ = ofDecimal negative decimal := by
  simp [ofDecimal, apply_ite (rename σ)]

/-- What a text writes has no mark of its own. -/
theorem rename_ofText? (codes : List Nat) :
    (ofText? codes).map (rename σ) = ofText? codes := by
  simp [ofText?, apply_ite (Option.map (rename σ)), Option.map_bind, Function.comp_def]

end Double

@[simp]
theorem Layout.write_rename (layout : Layout) (x : Double) :
    layout.write (x.rename σ) = layout.write x := by
  cases x <;> rfl

@[simp]
theorem writeSingle_rename (x : Double) : writeSingle (x.rename σ) = writeSingle x := by
  simp [writeSingle]

/-! ### Operands -/

namespace Number

/-- A number with its mark renamed. -/
def rename : Number → Number
  | .integer i isLong => .integer i isLong
  | .floating x isSingle => .floating (x.rename σ) isSingle

@[simp]
theorem rename_integer (i : Int) (isLong : Bool) :
    (integer i isLong).rename σ = integer i isLong := rfl

@[simp]
theorem rename_floating (x : Double) (isSingle : Bool) :
    (floating x isSingle).rename σ = floating (x.rename σ) isSingle := rfl

theorem ofValue_rename (value : Value) :
    ofValue (value.rename σ) = rename σ <$> ofValue value := by
  cases value with
  | char codes =>
    match codes with
    | [] => rfl
    | [_] => rfl
    | _ :: _ :: _ => rfl
  | fraction q =>
    simp only [Value.rename, ofValue]
    split <;> simp [Functor.map, Except.map]
  | method receiver name =>
    have typeName := Value.typeName_rename σ (.method receiver name)
    simp only [Value.rename] at typeName
    simp [ofValue, Functor.map, Except.map, typeName]
  | _ => rfl

@[simp]
theorem toValue_rename (number : Number) :
    (number.rename σ).toValue = number.toValue.rename σ := by
  cases number with
  | integer i isLong => cases isLong <;> rfl
  | floating x isSingle => cases isSingle <;> rfl

@[simp]
theorem isFloating_rename (number : Number) :
    (number.rename σ).isFloating = number.isFloating := by
  cases number <;> rfl

@[simp]
theorem isDouble_rename (number : Number) :
    (number.rename σ).isDouble = number.isDouble := by
  cases number with
  | integer i isLong => rfl
  | floating x isSingle => cases isSingle <;> rfl

@[simp]
theorem isWide_rename (number : Number) : (number.rename σ).isWide = number.isWide := by
  cases number <;> rfl

theorem toDouble_rename (number : Number) :
    (number.rename σ).toDouble = Double.rename σ <$> number.toDouble := by
  cases number with
  | integer i isLong =>
    have kept (x : Double) : Double.ofInt? i = some x → x.rename σ = x := by
      simp only [Double.ofInt?]
      split
      · rintro ⟨⟩
        simp
      · simp
    simp only [rename, toDouble]
    cases converted : Double.ofInt? i with
    | none => rfl
    | some x => simp [Functor.map, Except.map, kept x converted]
  | floating x isSingle =>
    cases isSingle
    · rfl
    · simp [toDouble, Functor.map, Except.map, apply_ite (Double.rename σ)]

@[simp]
theorem compareMixed?_rename (i : Int) (x : Double) :
    compareMixed? i (x.rename σ) = compareMixed? i x := by
  simp [compareMixed?]

@[simp]
theorem compare?_rename (a b : Number) :
    (a.rename σ).compare? (b.rename σ) = a.compare? b := by
  cases a <;> cases b <;> simp [compare?]

end Number

@[simp]
theorem rename_integral (i : Int) (wide : Bool) :
    (integral i wide).rename σ = integral i wide := by
  cases wide <;> rfl

@[simp]
theorem floatingValue_rename (x : Double) (single : Bool) :
    floatingValue (x.rename σ) single = (floatingValue x single).rename σ := by
  cases single <;> simp [floatingValue]

/-! ### Operators -/

namespace Arithmetic

theorem rename_integers (op : BinaryOp) (i j : Int) (wide : Bool) :
    Value.rename σ <$> integers op i j wide = integers op i j wide := by
  cases op <;> simp only [integers] <;>
    first
    | rfl
    | exact congrArg Except.ok (rename_integral σ _ wide)
    | (split
       · rfl
       · exact congrArg Except.ok (rename_integral σ _ wide))

@[simp]
theorem rename_bits (op : BinaryOp) (i j : Int) (wide : Bool) :
    (bits op i j wide).rename σ = bits op i j wide :=
  rename_integral σ _ wide

@[simp]
theorem rename_shift (op : BinaryOp) (i count : Int) (wide : Bool) :
    (shift op i count wide).rename σ = shift op i count wide := by
  cases op <;> exact rename_integral σ _ wide

@[simp]
theorem quotient_rename (x y : Double) :
    quotient (x.rename σ) (y.rename σ) = (quotient x y).rename σ := by
  simp [quotient, apply_ite (Double.rename σ)]

@[simp]
theorem remainder_rename (x y : Double) :
    remainder (x.rename σ) (y.rename σ) = (remainder x y).rename σ := by
  simp only [remainder, Double.rem?_rename]
  cases x.rem? y <;> simp

theorem doubles_rename (op : BinaryOp) (x y : Double) :
    doubles op (x.rename σ) (y.rename σ) = Double.rename σ <$> doubles op x y := by
  cases op <;> simp [doubles, Functor.map, Except.map]

theorem promoted_rename (op : BinaryOp) (a b : Number) :
    promoted op (a.rename σ) (b.rename σ) = Value.rename σ <$> promoted op a b := by
  have floating (a b : Number) :
      (do
        let x ← (a.rename σ).toDouble
        let y ← (b.rename σ).toDouble
        return floatingValue (← doubles op x y)
          !((a.rename σ).isDouble || (b.rename σ).isDouble)) =
      Value.rename σ <$> (do
        let x ← a.toDouble
        let y ← b.toDouble
        return floatingValue (← doubles op x y) !(a.isDouble || b.isDouble)) := by
    simp only [Number.toDouble_rename, map_bind, bind_map_left, doubles_rename, map_pure,
      floatingValue_rename, Number.isDouble_rename]
  cases a with
  | integer i isLong =>
    cases b with
    | integer j isLong' =>
      simp only [promoted, Number.rename_integer]
      exact (rename_integers σ op i j _).symm
    | floating y isSingle => exact floating _ _
  | floating x isSingle => exact floating _ _

theorem numbers_rename (op : BinaryOp) (a b : Number) :
    numbers op (a.rename σ) (b.rename σ) = Value.rename σ <$> numbers op a b := by
  cases op with
  | lt | gt | le | ge => simp [numbers, Functor.map, Except.map]
  | bitAnd | bitOr | bitXor | shiftLeft | shiftRight | shiftRightUnsigned =>
    cases a <;> cases b <;> simp [numbers, Functor.map, Except.map, Number.isWide]
  | _ => exact promoted_rename σ _ a b

theorem operands_rename (symbol : String) (left right : Value) :
    operands symbol (left.rename σ) (right.rename σ) =
      Prod.map (Number.rename σ) (Number.rename σ) <$> operands symbol left right := by
  simp only [operands, Value.rename_eq_null, Value.isNumeric_rename,
    Value.typeName_rename, Number.ofValue_rename]
  split
  · rfl
  · split
    · rfl
    · simp only [bind_map_left, map_bind, map_pure]
      rfl

@[simp]
theorem truth_rename (value : Value) : truth (value.rename σ) = truth value := by
  cases value with
  | method receiver name =>
    have typeName := Value.typeName_rename σ (.method receiver name)
    simp only [Value.rename] at typeName
    simp [truth, typeName]
  | _ => rfl

@[simp]
theorem negate_rename (number : Number) :
    negate (number.rename σ) = (negate number).rename σ := by
  cases number <;> simp [negate]

theorem complement_rename (number : Number) :
    complement (number.rename σ) = Value.rename σ <$> complement number := by
  cases number with
  | integer i isLong => exact congrArg Except.ok (rename_integral σ _ _).symm
  | floating x isSingle => rfl

theorem unary_rename (op : UnaryOp) (value : Value) :
    unary op (value.rename σ) = Value.rename σ <$> unary op value := by
  cases op <;> simp only [unary, truth_rename, Number.ofValue_rename, map_bind,
    bind_map_left, map_pure, negate_rename, Number.toValue_rename, complement_rename,
    Value.rename]

theorem extremum_rename (larger : Bool) (left right : Value) :
    extremum larger (left.rename σ) (right.rename σ) =
      Value.rename σ <$> extremum larger left right := by
  simp only [extremum, Number.ofValue_rename, map_bind, bind_map_left]
  refine bind_congr fun a => bind_congr fun b => ?_
  let takeRight (order : Option Ordering) : Bool :=
    order == some (if larger then .lt else .gt)
  have floating (a b : Number) :
      (do
        let x ← (a.rename σ).toDouble
        let y ← (b.rename σ).toDouble
        if x.isNaN || y.isNaN then
          pure (floatingValue .notANumber !((a.rename σ).isDouble || (b.rename σ).isDouble))
        else pure (floatingValue (if takeRight (x.compare? y) then y else x)
          !((a.rename σ).isDouble || (b.rename σ).isDouble)) : Except Fault Value) =
      Value.rename σ <$> (do
        let x ← a.toDouble
        let y ← b.toDouble
        if x.isNaN || y.isNaN then
          pure (floatingValue .notANumber !(a.isDouble || b.isDouble))
        else pure (floatingValue (if takeRight (x.compare? y) then y else x)
          !(a.isDouble || b.isDouble))) := by
    simp only [Number.toDouble_rename, map_bind, bind_map_left, Double.isNaN_rename,
      Double.compare?_rename, Number.isDouble_rename]
    refine bind_congr fun x => bind_congr fun y => ?_
    rw [← apply_ite (Double.rename σ), floatingValue_rename]
    split
    · rw [map_pure, ← floatingValue_rename, Double.rename_notANumber]
    · rfl
  cases a with
  | integer i isLong =>
    cases b with
    | integer j isLong' =>
      simp only [Number.rename_integer, map_pure, rename_integral]
    | floating y isSingle => exact floating (.integer i isLong) (.floating y isSingle)
  | floating x isSingle => exact floating (.floating x isSingle) b

@[simp]
theorem toIntegral_rename (x : Double) (bits : Nat) :
    toIntegral (x.rename σ) bits = toIntegral x bits := by
  simp only [toIntegral, Double.toRat?_rename, Double.isNaN_rename, Double.isNegative_rename]

end Arithmetic

/-! ### The functions of `Math` -/

namespace MathFunction

theorem doubles_rename (args : List Value) :
    doubles (args.map (·.rename σ)) = List.map (Double.rename σ) <$> doubles args := by
  induction args with
  | nil => rfl
  | cons value rest ih =>
    simp only [List.map_cons, doubles, Number.ofValue_rename, ih, map_bind, bind_map_left,
      Number.toDouble_rename, map_pure]

@[simp]
theorem whole_rename (rule : Rat → Int) (x : Double) :
    whole rule (x.rename σ) = (whole rule x).rename σ := by
  simp only [whole, Double.toRat?_rename]
  cases x.toRat? <;> simp

@[simp]
theorem sign_rename (x : Double) : sign (x.rename σ) = (sign x).rename σ := by
  have one := Double.copySign_rename σ (.ofRat false 1) x
  rw [Double.rename_ofRat] at one
  simp [sign, one, apply_ite (Double.rename σ)]

@[simp]
theorem power_rename (x y : Double) :
    power (x.rename σ) (y.rename σ) = (power x y).rename σ := by
  simp [power, apply_ite (Double.rename σ)]

theorem cubeRoot_rename (x : Double) : cubeRoot (x.rename σ) = (cubeRoot x).rename σ := by
  have third := Double.pow_rename σ x.abs (.ofRat false (1 / 3))
  rw [Double.rename_ofRat] at third
  rw [cubeRoot, Double.abs_rename, third, Double.copySign_rename, cubeRoot]

theorem rename_perDegree : perDegree.rename σ = perDegree := by
  rw [perDegree, ← Double.div_rename, Double.rename_ofRat]
  rfl

theorem rename_perRadian : perRadian.rename σ = perRadian := by
  rw [perRadian, ← Double.div_rename, Double.rename_ofRat]
  rfl

/-- A function of one double takes a renamed double to the renamed result. -/
theorem onDouble?_rename (function : MathFunction) (f : Double → Double)
    (found : function.onDouble? = some f) (x : Double) :
    f (x.rename σ) = (f x).rename σ := by
  have degrees := Double.mul_rename σ x perDegree
  have radians := Double.mul_rename σ x perRadian
  rw [rename_perDegree] at degrees
  rw [rename_perRadian] at radians
  cases function <;> simp only [onDouble?, Option.some.injEq, reduceCtorEq] at found <;>
    subst found
  case sqrt =>
    simp only [Double.sqrt?_rename]
    cases x.sqrt? <;> simp
  case cbrt => exact cubeRoot_rename σ x
  case exp => simp [bounded, Double.exp, apply_ite (Double.rename σ)]
  case log => simp [logarithm, Double.log, apply_ite (Double.rename σ)]
  case log10 => simp [logarithm, Double.log10, apply_ite (Double.rename σ)]
  case sin => simp [onFinite, Double.sin, apply_ite (Double.rename σ)]
  case cos => simp [onFinite, Double.cos, apply_ite (Double.rename σ)]
  case tan => simp [onFinite, Double.tan, apply_ite (Double.rename σ)]
  case asin =>
    simp only [onUnit, Double.toRat?_rename]
    cases x.toRat? <;> simp [Double.asin, apply_ite (Double.rename σ)]
  case acos =>
    simp only [onUnit, Double.toRat?_rename]
    cases x.toRat? <;> simp [Double.acos, apply_ite (Double.rename σ)]
  case atan => simp [Double.atan]
  case floor | ceil | rint => simp
  case toRadians => exact degrees
  case toDegrees => exact radians

@[simp]
theorem rounded_rename (number : Number) :
    rounded (number.rename σ) = (rounded number).rename σ := by
  cases number with
  | integer i isLong => exact Number.toValue_rename σ (.integer i isLong)
  | floating x isSingle =>
    have half := Double.add_rename σ x (.ofRat false (1 / 2))
    rw [Double.rename_ofRat] at half
    simp only [rounded, Number.rename_floating, rename_integral, half, whole_rename,
      Double.isFinite_rename, ← apply_ite (Double.rename σ), Arithmetic.toIntegral_rename]

theorem floored_rename (f : Int → Int → Int) (left right : Value) :
    floored f (left.rename σ) (right.rename σ) = Value.rename σ <$> floored f left right := by
  simp only [floored, Number.ofValue_rename, map_bind, bind_map_left]
  refine bind_congr fun a => bind_congr fun b => ?_
  have zero : (b.rename σ).compare? (.integer 0 false) = b.compare? (.integer 0 false) := by
    rw [← Number.compare?_rename σ b]
    rfl
  have refused (a b : Number) :
      (do
        let _ ← (a.rename σ).toDouble
        let _ ← (b.rename σ).toDouble
        throw .wrongType : Except Fault Value) =
      Value.rename σ <$> (do
        let _ ← a.toDouble
        let _ ← b.toDouble
        throw .wrongType) := by
    simp only [Number.toDouble_rename, map_bind, bind_map_left]
    rfl
  rw [zero]
  split
  · rfl
  · cases a with
    | integer i isLong =>
      cases b with
      | integer j isLong' => simp
      | floating y isSingle => exact refused (.integer i isLong) (.floating y isSingle)
    | floating x isSingle => exact refused (.floating x isSingle) b

theorem apply_rename (function : MathFunction) (args : List Value) :
    function.apply (args.map (·.rename σ)) = Value.rename σ <$> function.apply args := by
  unfold apply
  cases found : function.onDouble? with
  | some f =>
    simp only [doubles_rename, map_bind, bind_map_left]
    refine bind_congr fun xs => ?_
    match xs with
    | [] => rfl
    | [x] => simp [onDouble?_rename σ function f found x]
    | _ :: _ :: _ => rfl
  | none =>
    cases function <;> simp only [onDouble?, reduceCtorEq] at found
    case atan2 =>
      simp only [doubles_rename, map_bind, bind_map_left]
      refine bind_congr fun xs => ?_
      match xs with
      | [] | [_] | _ :: _ :: _ :: _ => rfl
      | [x, y] => simp
    case hypot =>
      simp only [doubles_rename, map_bind, bind_map_left, Double.hypot_rename, map_pure,
        Value.rename]
    case pow =>
      match args with
      | [] | [_] | _ :: _ :: _ :: _ => rfl
      | [base, exponent] =>
        simp only [List.map_cons, List.map_nil, Number.ofValue_rename, map_bind,
          bind_map_left, Number.toDouble_rename, power_rename, map_pure, Value.rename]
    case abs =>
      match args with
      | [] | _ :: _ :: _ => rfl
      | [value] =>
        simp only [List.map_cons, List.map_nil, Number.ofValue_rename, map_bind,
          bind_map_left]
        refine bind_congr fun number => ?_
        cases number <;> simp
    case max | min =>
      match args with
      | [] | [_] | _ :: _ :: _ :: _ => rfl
      | [left, right] => exact Arithmetic.extremum_rename σ _ left right
    case round =>
      match args with
      | [] | _ :: _ :: _ => rfl
      | [value] =>
        simp only [List.map_cons, List.map_nil, Number.ofValue_rename, map_bind,
          bind_map_left, rounded_rename, map_pure]
    case signum =>
      match args with
      | [] | _ :: _ :: _ => rfl
      | [value] =>
        simp only [List.map_cons, List.map_nil, Number.ofValue_rename, map_bind,
          bind_map_left, Number.toDouble_rename, sign_rename, map_pure, Value.rename]
    case floorDiv | floorMod =>
      match args with
      | [] | [_] | _ :: _ :: _ :: _ => rfl
      | [left, right] => exact floored_rename σ _ left right
    case random =>
      match args with
      | [] => simp [Functor.map, Except.map]
      | _ :: _ => rfl

end MathFunction

/-! ### Kinds -/

namespace Primitive

theorem castNumber_rename (type : Primitive) (number : Number) :
    type.castNumber (number.rename σ) = Value.rename σ <$> type.castNumber number := by
  cases type with
  | double =>
    simp only [castNumber, Number.toDouble_rename, map_bind, bind_map_left, map_pure,
      Value.rename]
  | float =>
    simp only [castNumber, Number.toDouble_rename, map_bind, bind_map_left, map_pure,
      Value.rename, Double.toSingle_rename]
  | boolean =>
    simp only [castNumber, Number.toValue_rename, Value.typeName_rename]
    rfl
  | _ =>
    cases number with
    | integer i isLong => rfl
    | floating x isSingle =>
      simp only [castNumber, Number.rename_floating, Arithmetic.toIntegral_rename]
      rfl

theorem cast_rename (type : Primitive) (value : Value) :
    type.cast (value.rename σ) = Value.rename σ <$> type.cast value := by
  cases type with
  | boolean => simp only [cast, Arithmetic.truth_rename, map_bind, map_pure, Value.rename]
  | char =>
    have numeric : (do castNumber .char (← Number.ofValue (value.rename σ))) =
        Value.rename σ <$> (do castNumber .char (← Number.ofValue value)) := by
      simp only [Number.ofValue_rename, map_bind, bind_map_left, castNumber_rename]
    simp only [cast, Value.text?_rename]
    match value.text? with
    | some [_] => rfl
    | some [] | some (_ :: _ :: _) | none => exact numeric
  | _ =>
    simp only [cast, Number.ofValue_rename, map_bind, bind_map_left, castNumber_rename]

theorem convert_rename (type : Primitive) (value : Value) :
    type.convert (value.rename σ) = Value.rename σ <$> type.convert value := by
  have casts := cast_rename σ type value
  unfold convert
  split
  · cases value with
    | long i =>
      change (if type = .long then _ else _) = _ <$> (if type = .long then _ else _)
      split
      · exact casts
      · rfl
    | double x | single x => rfl
    | _ => exact casts
  · exact casts

@[simp]
theorem boxes_rename (type : Primitive) (value : Value) :
    type.boxes (value.rename σ) = type.boxes value := by
  cases type <;> cases value <;> rfl

end Primitive

@[simp]
theorem HostClass.hasInstance_rename (type : HostClass) (value : Value) :
    type.hasInstance (value.rename σ) = type.hasInstance value := by
  cases value with
  | object kind ref =>
    cases kind with
    | record other => cases type <;> cases other <;> rfl
    | _ => cases type <;> rfl
  | _ => cases type <;> rfl

namespace Kind

@[simp]
theorem isInstance_rename (kind : Kind) (value : Value) :
    (kind.rename σ).isInstance (value.rename σ) = kind.isInstance value := by
  cases kind with
  | core type => cases type <;> simp [isInstance, bne]
  | number => simp [isInstance]
  | host name target isAbstract => cases target <;> simp [isInstance]

theorem castReference_rename (kind : Kind) (value : Value) :
    castReference (kind.rename σ) (value.rename σ) =
      Value.rename σ <$> castReference kind value := by
  simp only [castReference, Value.rename_eq_null, isInstance_rename, Value.typeName_rename,
    name_rename]
  split
  · rfl
  · simp only [map_bind]
    refine bind_congr fun fits => ?_
    cases fits <;> rfl

theorem cast_rename (kind : Kind) (value : Value) :
    (kind.rename σ).cast (value.rename σ) = Value.rename σ <$> kind.cast value := by
  cases kind with
  | core type =>
    have reference := castReference_rename σ (.core type) value
    rw [rename_core] at reference
    cases type with
    | primitive type => exact Primitive.cast_rename σ type value
    | boxed type =>
      simp only [rename_core, cast, reference, map_bind, bind_map_left,
        Value.rename_eq_null]
      refine bind_congr fun kept => ?_
      split
      · rfl
      · exact Primitive.cast_rename σ type kept
    | object | string => exact reference
  | number => exact castReference_rename σ .number value
  | host name target isAbstract =>
    exact castReference_rename σ (.host name target isAbstract) value

theorem convert_rename (kind : Kind) (value : Value) :
    (kind.rename σ).convert (value.rename σ) = Value.rename σ <$> kind.convert value := by
  cases kind with
  | core type =>
    cases type with
    | primitive type => exact Primitive.convert_rename σ type value
    | boxed type =>
      simp only [rename_core, convert, Value.rename_eq_null]
      split
      · rfl
      · exact Primitive.convert_rename σ type value
    | object | string => rfl
  | number | host => rfl

end Kind

end Formulary

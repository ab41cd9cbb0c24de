/-
Renaming references and marks.

References are places in a store, and marks are numbers that tell results apart
that are no numbers. A body can see of both only whether they are the same, so that
a run is carried over by a renaming of them. This module says what a renaming does
to values and to what a store holds, and that what can be asked of a value alone
does not change with it. A renaming keeps the order of references, because chains
of iterators go down along it.
-/

import Formulary.Host.Argument
import Formulary.Host.Iteration
import Formulary.Host.Member
import Formulary.Kind
import Formulary.Value.Equality
import Mathlib

namespace Formulary

/-- A renaming of references and marks. The empty tuple stays where it is, and so
do the marks of the constants and of fresh results. -/
structure Renaming where
  ref : Ref → Ref
  mark : Nat → Nat
  ref_strictMono : StrictMono ref
  ref_zero : ref 0 = 0
  mark_injective : Function.Injective mark
  mark_reserved : ∀ m, m ≤ Double.freshMark → mark m = m

namespace Renaming

/-- The renaming that changes nothing. -/
def identity : Renaming where
  ref := id
  mark := id
  ref_strictMono := strictMono_id
  ref_zero := rfl
  mark_injective := Function.injective_id
  mark_reserved _ _ := rfl

variable (σ : Renaming)

@[simp]
theorem ref_inj {r s : Ref} : σ.ref r = σ.ref s ↔ r = s :=
  σ.ref_strictMono.injective.eq_iff

@[simp]
theorem ref_lt {r s : Ref} : σ.ref r < σ.ref s ↔ r < s :=
  σ.ref_strictMono.lt_iff_lt

theorem le_ref (r : Ref) : r ≤ σ.ref r := σ.ref_strictMono.le_apply

@[simp]
theorem mark_inj {m n : Nat} : σ.mark m = σ.mark n ↔ m = n :=
  σ.mark_injective.eq_iff

@[simp]
theorem mark_constant : σ.mark Double.constantMark = Double.constantMark :=
  σ.mark_reserved _ (by decide)

@[simp]
theorem mark_singleConstant :
    σ.mark Double.singleConstantMark = Double.singleConstantMark :=
  σ.mark_reserved _ (by decide)

@[simp]
theorem mark_fresh : σ.mark Double.freshMark = Double.freshMark :=
  σ.mark_reserved _ (by decide)

@[simp]
theorem mark_eq_fresh {m : Nat} : σ.mark m = Double.freshMark ↔ m = Double.freshMark := by
  constructor
  · intro same
    exact σ.mark_injective (same.trans σ.mark_fresh.symm)
  · rintro rfl
    exact σ.mark_fresh

end Renaming

variable (σ : Renaming)

/-! ### Doubles -/

namespace Double

/-- A double with its mark renamed. -/
def rename : Double → Double
  | .nan mark => .nan (σ.mark mark)
  | .signed negative index => .signed negative index

@[simp]
theorem rename_nan (mark : Nat) : (nan mark).rename σ = nan (σ.mark mark) := rfl

@[simp]
theorem rename_signed (negative : Bool) (index : Fin 0x7FF0000000000001) :
    (signed negative index).rename σ = signed negative index := rfl

@[simp]
theorem rename_inj {x y : Double} : x.rename σ = y.rename σ ↔ x = y := by
  cases x <;> cases y <;> simp

@[simp]
theorem rename_identity (x : Double) : x.rename .identity = x := by
  cases x <;> rfl

@[simp]
theorem rename_freshNaN : freshNaN.rename σ = freshNaN := by
  simp [freshNaN]

@[simp]
theorem rename_notANumber : notANumber.rename σ = notANumber := by
  simp [notANumber]

@[simp]
theorem rename_ofIndex (negative : Bool) (index : Nat) :
    (ofIndex negative index).rename σ = ofIndex negative index := rfl

@[simp]
theorem rename_zero (negative : Bool) : (zero negative).rename σ = zero negative := rfl

@[simp]
theorem rename_infinity (negative : Bool) :
    (infinity negative).rename σ = infinity negative := rfl

@[simp]
theorem rename_ofRat (zeroSign : Bool) (q : Rat) :
    (ofRat zeroSign q).rename σ = ofRat zeroSign q := by
  unfold ofRat
  split
  · rfl
  · split <;> rfl

@[simp]
theorem isNaN_rename (x : Double) : (x.rename σ).isNaN = x.isNaN := by
  cases x <;> rfl

@[simp]
theorem isInfinite_rename (x : Double) : (x.rename σ).isInfinite = x.isInfinite := by
  cases x <;> rfl

@[simp]
theorem isFinite_rename (x : Double) : (x.rename σ).isFinite = x.isFinite := by
  cases x <;> rfl

@[simp]
theorem isZero_rename (x : Double) : (x.rename σ).isZero = x.isZero := by
  cases x <;> rfl

@[simp]
theorem isNegative_rename (x : Double) : (x.rename σ).isNegative = x.isNegative := by
  cases x <;> rfl

@[simp]
theorem toRat?_rename (x : Double) : (x.rename σ).toRat? = x.toRat? := by
  cases x <;> rfl

@[simp]
theorem rank?_rename (x : Double) : (x.rename σ).rank? = x.rank? := by
  cases x <;> rfl

@[simp]
theorem compare?_rename (x y : Double) :
    (x.rename σ).compare? (y.rename σ) = x.compare? y := by
  simp [compare?]

@[simp]
theorem toFloat_rename (x : Double) : (x.rename σ).toFloat = x.toFloat := by
  cases x <;> rfl

end Double

/-! ### Values -/

namespace Value

/-- A value with its references and marks renamed. -/
@[simp]
def rename : Value → Value
  | .null => .null
  | .bool b => .bool b
  | .int i => .int i
  | .long i => .long i
  | .double x => .double (x.rename σ)
  | .single x => .single (x.rename σ)
  | .fraction q => .fraction q
  | .char codes => .char codes
  | .str codes => .str codes
  | .object kind ref => .object kind (σ.ref ref)
  | .type core => .type core
  | .hostClass cls => .hostClass cls
  | .hostFunction function => .hostFunction function
  | .hostModule module => .hostModule module
  | .method receiver name => .method (rename receiver) name

@[simp]
theorem rename_inj {a b : Value} : a.rename σ = b.rename σ ↔ a = b := by
  constructor
  · intro same
    induction a generalizing b with
    | method receiver name ih =>
      cases b with
      | method other otherName =>
        simp only [rename, method.injEq] at same
        rw [ih same.1, same.2]
      | _ => simp at same
    | _ => cases b <;> simp_all
  · rintro rfl
    rfl

theorem rename_injective : Function.Injective (rename σ) := fun _ _ same =>
  (rename_inj σ).mp same

@[simp]
theorem rename_identity (value : Value) : value.rename .identity = value := by
  induction value with
  | method receiver name ih => simp [ih]
  | object kind ref => simp [Renaming.identity]
  | _ => simp

@[simp]
theorem rename_eq_null {value : Value} : value.rename σ = .null ↔ value = .null := by
  cases value <;> simp

@[simp]
theorem typeName_rename (value : Value) : (value.rename σ).typeName = value.typeName := by
  cases value with
  | method receiver name =>
    cases receiver with
    | object kind ref => cases kind <;> rfl
    | _ => rfl
  | type type => cases type <;> rfl
  | _ => rfl

@[simp]
theorem isQuantity_rename (value : Value) :
    (value.rename σ).isQuantity = value.isQuantity := by
  cases value <;> rfl

@[simp]
theorem isTruth_rename (value : Value) : (value.rename σ).isTruth = value.isTruth := by
  cases value <;> rfl

@[simp]
theorem isNumeric_rename (value : Value) :
    (value.rename σ).isNumeric = value.isNumeric := by
  cases value <;> rfl

@[simp]
theorem isString_rename (value : Value) : (value.rename σ).isString = value.isString := by
  cases value <;> rfl

@[simp]
theorem text?_rename (value : Value) : (value.rename σ).text? = value.text? := by
  cases value <;> rfl

@[simp]
theorem integer?_rename (value : Value) : (value.rename σ).integer? = value.integer? := by
  cases value <;> rfl

@[simp]
theorem isCallable_rename (value : Value) :
    (value.rename σ).isCallable = value.isCallable := by
  cases value <;> rfl

@[simp]
theorem isOpen_rename (value : Value) : (value.rename σ).isOpen = value.isOpen := by
  cases value with
  | object kind ref => cases kind <;> rfl
  | type type => cases type <;> rfl
  | _ => rfl

@[simp]
theorem isSealed_rename (value : Value) : (value.rename σ).isSealed = value.isSealed := by
  cases value <;> rfl

@[simp]
theorem exactValue?_rename (value : Value) :
    (value.rename σ).exactValue? = value.exactValue? := by
  cases value <;> simp [exactValue?]

@[simp]
theorem extreme?_rename (value : Value) :
    (value.rename σ).extreme? = value.extreme?.map (·.rename σ) := by
  cases value <;> rfl

@[simp]
theorem compareQuantities?_rename (a b : Value) :
    (a.rename σ).compareQuantities? (b.rename σ) = a.compareQuantities? b := by
  have zero (x : Double) :
      (x.rename σ).compare? (.zero false) = x.compare? (.zero false) := by
    simp [Double.compare?]
  have zero' (x : Double) :
      (Double.zero false).compare? (x.rename σ) = (Double.zero false).compare? x := by
    simp [Double.compare?]
  unfold compareQuantities?
  simp only [exactValue?_rename, extreme?_rename]
  cases a.exactValue? <;> cases b.exactValue? <;> cases a.extreme? <;>
    cases b.extreme? <;> simp [zero, zero']

end Value

@[simp]
theorem Argument.integer?_rename (value : Value) :
    Argument.integer? (value.rename σ) = Argument.integer? value := by
  cases value <;> rfl

/-! ### Kinds -/

/-- A kind with the references and marks of the object behind it renamed. -/
def Kind.rename : Kind → Kind
  | .core type => .core type
  | .number => .number
  | .host name target isAbstract => .host name (target.rename σ) isAbstract

namespace Kind

@[simp]
theorem rename_core (type : CoreType) : (core type).rename σ = core type := rfl

@[simp]
theorem rename_number : number.rename σ = number := rfl

@[simp]
theorem rename_host (name : String) (target : Value) (isAbstract : Bool) :
    (host name target isAbstract).rename σ = host name (target.rename σ) isAbstract := rfl

@[simp]
theorem name_rename (kind : Kind) : (kind.rename σ).name = kind.name := by
  cases kind <;> rfl

@[simp]
theorem toValue_rename (kind : Kind) :
    (kind.rename σ).toValue = kind.toValue.rename σ := by
  cases kind <;> rfl

@[simp]
theorem rename_identity (kind : Kind) : kind.rename .identity = kind := by
  cases kind <;> simp

end Kind

/-! ### What a store holds -/

/-- A cursor over the renamed source. -/
def Cursor.rename (cursor : Cursor) : Cursor :=
  { cursor with source := cursor.source.rename σ }

/-- A pair of values that are both renamed. -/
def renamePair (pair : Value × Value) : Value × Value :=
  (pair.1.rename σ, pair.2.rename σ)

@[simp]
theorem renamePair_mk (a b : Value) : renamePair σ (a, b) = (a.rename σ, b.rename σ) := rfl

/-- A table whose keys and values are renamed. -/
def Table.rename (table : Table) : Table :=
  { table with pairs := table.pairs.map (renamePair σ) }

/-- A member of an instance, with its value renamed. -/
def renameMember (member : String × Value) : String × Value :=
  (member.1, member.2.rename σ)

@[simp]
theorem renameMember_mk (name : String) (value : Value) :
    renameMember σ (name, value) = (name, value.rename σ) := rfl

/-- An object with the references and marks that it holds renamed. -/
def Entity.rename : Entity → Entity
  | .items values => .items (values.map (·.rename σ))
  | .entries table => .entries (table.rename σ)
  | .elements values => .elements (values.map (·.rename σ))
  | .keysOf map => .keysOf (σ.ref map)
  | .iterator cursor ahead => .iterator (cursor.rename σ) (ahead.map (·.rename σ))
  | .record members => .record (members.map (renameMember σ))
  | .bare => .bare

namespace Table

@[simp]
theorem pairs_rename (table : Table) :
    (table.rename σ).pairs = table.pairs.map (renamePair σ) := rfl

@[simp]
theorem rename_empty : empty.rename σ = empty := rfl

@[simp]
theorem rename_ofPairs (pairs : List (Value × Value)) :
    (ofPairs pairs).rename σ = ofPairs (pairs.map (renamePair σ)) := by
  simp [ofPairs, rename]

theorem update_rename (table : Table) (pairs : List (Value × Value)) :
    (table.rename σ).update (pairs.map (renamePair σ)) =
      (table.update pairs).rename σ := by
  unfold update
  simp only [rename, List.length_map]
  split <;> rfl

theorem erase_rename (table : Table) (index : Nat) :
    (table.rename σ).erase index = (table.erase index).rename σ := by
  simp only [erase, rename, List.eraseIdx_map]

theorem keyFrom?_rename (table : Table) (place : Nat) :
    (table.rename σ).keyFrom? place =
      (table.keyFrom? place).map fun found => (found.1.rename σ, found.2) := by
  have keys : (table.rename σ).pairs.map Prod.fst =
      (table.pairs.map Prod.fst).map (·.rename σ) := by
    simp [Function.comp_def, renamePair]
  have places : (table.rename σ).places = table.places := rfl
  unfold keyFrom?
  rw [keys, places, List.zip_map_left, List.find?_map]
  rfl

end Table

theorem assign_rename (name : String) (value : Value) (members : List (String × Value)) :
    assign name (value.rename σ) (members.map (renameMember σ)) =
      (assign name value members).map (renameMember σ) := by
  induction members with
  | nil => rfl
  | cons member rest ih =>
    obtain ⟨other, old⟩ := member
    simp only [List.map_cons, renameMember_mk, assign]
    split
    · rfl
    · rw [ih]
      rfl

theorem lookup_rename (name : String) (members : List (String × Value)) :
    (members.map (renameMember σ)).lookup name =
      (members.lookup name).map (·.rename σ) := by
  induction members with
  | nil => rfl
  | cons member rest ih =>
    obtain ⟨other, value⟩ := member
    simp only [List.map_cons, renameMember_mk, List.lookup_cons, ih]
    split <;> rfl

namespace Cursor

@[simp]
theorem isSized_rename (value : Value) : isSized (value.rename σ) = isSized value := by
  cases value with
  | object kind ref => cases kind <;> rfl
  | _ => rfl

@[simp]
theorem hasKeys_rename (value : Value) : hasKeys (value.rename σ) = hasKeys value := by
  cases value with
  | object kind ref => cases kind <;> rfl
  | _ => rfl

@[simp]
theorem isIterable_rename (value : Value) : isIterable (value.rename σ) = isIterable value := by
  cases value with
  | object kind ref => cases kind <;> rfl
  | _ => rfl

end Cursor

end Formulary

/-
The constants of boxed types.

Numeric types have their least and greatest values and their width, floating ones
also the infinities and the constant that is no number. They are listed in the
order in which the text of a type shows them.
-/

import Formulary.Number.Double
import Formulary.Value

namespace Formulary.Primitive

/-- The greatest finite magnitude of a format. -/
def greatest (format : Format) : Double :=
  .ofRat false (format.magnitude (format.infinity - 1))

/-- The least positive magnitude of a format. -/
def least (format : Format) : Double :=
  .ofRat false (format.magnitude 1)

/-- The constants of a boxed floating type. -/
def floatingConstants (rebuild : Double → Value) (format : Format) (size : Int)
    (mark : Nat) : List (String × Value) :=
  [("MAX_VALUE", rebuild (greatest format)), ("MIN_VALUE", rebuild (least format)),
    ("SIZE", .int size), ("POSITIVE_INFINITY", rebuild (.infinity false)),
    ("NEGATIVE_INFINITY", rebuild (.infinity true)), ("NaN", rebuild (.nan mark))]

/-- The constants of a boxed integral type. -/
def integralConstants (rebuild : Int → Value) (bits : Nat) : List (String × Value) :=
  let bound : Nat := 1 <<< (bits - 1)
  [("MAX_VALUE", rebuild (bound - 1)), ("MIN_VALUE", rebuild (-bound)),
    ("SIZE", .int bits)]

/-- The constants of the boxed type of a primitive. -/
def constants : Primitive → List (String × Value)
  | .double => floatingConstants .double .binary64 64 Double.constantMark
  | .float => floatingConstants .single .binary32 32 Double.singleConstantMark
  | .long => integralConstants .long 64
  | .int => integralConstants .int 32
  | .short => integralConstants .int 16
  | .byte => integralConstants .int 8
  | .char => [("MAX_VALUE", .char [0xFFFF]), ("MIN_VALUE", .char [0])]
  | .boolean => [("TRUE", .bool true), ("FALSE", .bool false)]

/-- The constant of the boxed type of a primitive under a name. -/
def constant? (type : Primitive) (name : String) : Option Value :=
  type.constants.lookup name

end Formulary.Primitive

import ClassLoading.Class.Constant
import ClassLoading.Decimal.Shortest
import ClassLoading.Text.Quoted

/-!
# Constants as text

A number is followed by its type; a text is quoted.
-/

namespace ClassLoading.Constant

def display : Constant → String
  | signed value => s!"{value.toInt}i64"
  | unsigned value => s!"{value.toNat}u64"
  | float bits => Decimal.floatText bits ++ "f64"
  | text value => Quoted.quote value

end ClassLoading.Constant

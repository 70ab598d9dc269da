import ClassLoading.PowerOfTwo
import ClassLoading.Text.Words

/-!
# Huge pages

The size of a huge page, as a machine reports it among other facts about its memory: a line that
names it, with a number and perhaps a unit. The first such line counts, even if it makes no sense.
-/

namespace ClassLoading.HugePages

def label : List Char :=
  "Hugepagesize:".toList

/-- The digits of a decimal number, read after those that make up `value`. -/
def digitsFrom? (value : Nat) : List Char → Option Nat
  | [] => some value
  | c :: rest => if c.isDigit then digitsFrom? (10 * value + (c.toNat - 48)) rest else none

/-- A decimal number that fits 64 bits; a plus sign may stand before it. -/
def number? (word : List Char) : Option Nat :=
  let digits := match word with
    | '+' :: rest => rest
    | _ => word
  if digits.isEmpty then none else (digitsFrom? 0 digits).filter fun n => n < 1 <<< 64

/-- What the unit after a number multiplies it by. -/
def factor? : Option (List Char) → Option Nat
  | none => some 1
  | some unit =>
    if unit = ['k', 'B'] then some 1024
    else if unit = ['M', 'B'] then some (1024 * 1024)
    else none

/-- The size that the words after the label give. -/
def sizeOfWords? : List (List Char) → Option Nat
  | [] => none
  | word :: rest => do
    let value ← number? word
    let factor ← factor? rest.head?
    let size := value * factor
    if size < 1 <<< 64 ∧ isPowerOfTwo size then some size else none

def size? (text : List Char) : Option Nat := do
  let line ← (Text.lines text).find? fun line => label.isPrefixOf line
  sizeOfWords? (Text.words (line.drop label.length))

end ClassLoading.HugePages

import DecAustrum.Models
import Mathlib.Data.Rat.Defs

/-!
# Operators

What Python's comparisons make of two JSON values, and the operators of a condition.
-/
namespace DecAustrum.Python

/-- The number a finite double is. -/
def PyFloat.value (x : PyFloat) : ℚ :=
  let mantissa : Nat := (x.bits.extractLsb 51 0).toNat
  let exponent : Nat := (x.bits.extractLsb 62 52).toNat
  let magnitude : ℚ :=
    if exponent = 0 then mantissa / 2 ^ 1074
    else if exponent < 1075 then (2 ^ 52 + mantissa : Nat) / 2 ^ (1075 - exponent)
    else ((2 ^ 52 + mantissa) * 2 ^ (exponent - 1075) : Nat)
  if x.bits.msb then -magnitude else magnitude

namespace Json

/-- The number a value counts as: `True` is 1 and `False` is 0. -/
def number? : Json → Option ℚ
  | .bool b => some (if b then 1 else 0)
  | .int n => some n
  | .float x => some x.value
  | _ => none

mutual

/-- `v == w`. -/
def equal : Json → Json → Bool
  | .null, .null => true
  | .str s, .str t => s = t
  | .arr items, .arr others => equalItems items others
  | .obj fields, .obj others => fields.length = others.length && equalFields fields others
  | v, w =>
    match number? v, number? w with
    | some m, some n => m = n
    | _, _ => false

def equalItems : List Json → List Json → Bool
  | [], [] => true
  | v :: items, w :: others => equal v w && equalItems items others
  | _, _ => false

/-- Each member equals the member of the other dictionary under its key. -/
def equalFields : List (Str × Json) → List (Str × Json) → Bool
  | [], _ => true
  | (key, v) :: fields, others =>
    (match lookup key others with
      | some w => equal v w
      | none => false) && equalFields fields others

end

/-- The two orders `greater_than` and `less_than` ask for. -/
inductive Order where
  | greater
  | less
  deriving DecidableEq, Repr

def Order.holds {α : Type} [LT α] [DecidableLT α] : Order → α → α → Bool
  | .greater, a, b => b < a
  | .less, a, b => a < b

mutual

/-- `v > w` or `v < w`; `none` is the `TypeError` of values without an order. -/
def compare (order : Order) : Json → Json → Option Bool
  | .str s, .str t => some (order.holds s t)
  | .arr items, .arr others => compareItems order items others
  | v, w =>
    match number? v, number? w with
    | some m, some n => some (order.holds m n)
    | _, _ => none

/-- Lists are ordered by their first items that differ, else by length. -/
def compareItems (order : Order) : List Json → List Json → Option Bool
  | v :: items, w :: others => if equal v w then compareItems order items others else compare order v w
  | items, others => some (order.holds items.length others.length)

end

end Json

end DecAustrum.Python

namespace DecAustrum

open Python

/-- `_values_have_compatible_types`. -/
def valuesHaveCompatibleTypes : Json → Json → Bool
  | .bool _, .bool _ => true
  | .int _, .int _ => true
  | .int _, .float _ => true
  | .float _, .int _ => true
  | .float _, .float _ => true
  | .str _, .str _ => true
  | .arr _, .arr _ => true
  | .obj _, .obj _ => true
  | .null, .null => true
  | _, _ => false

/-- `evaluate_operator`; `none` is a `TypeError`. -/
def evaluateOperator (operator : Operator) (actual expected : Json) : Option Bool :=
  if valuesHaveCompatibleTypes actual expected then
    match operator with
    | .greaterThan => actual.compare .greater expected
    | .lessThan => actual.compare .less expected
    | .equals => some (actual.equal expected)
    | .notEquals => some (!actual.equal expected)
  else none

end DecAustrum

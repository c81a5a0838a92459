/-
Exact decimal numbers, read from the printed text of a JSON number.

`DecimalNumber` is the normal form the evaluator compares: no leading or
trailing zero digit, and zero without sign or scale.  The scale is an `i64`
with saturating arithmetic, as in the source.
-/
import Antiburn.Json
import Mathlib

namespace Antiburn

/-- Least and greatest `i64`. -/
def I64_MIN : Int := -2 ^ 63

@[inherit_doc I64_MIN]
def I64_MAX : Int := 2 ^ 63 - 1

/-- Greatest `usize` of the 64-bit targets. -/
def USIZE_MAX : Nat := 2 ^ 64 - 1

/-- Clamp to the `i64` range: the result of a saturating operation. -/
def saturate (value : Int) : Int := max I64_MIN (min I64_MAX value)

structure DecimalNumber where
  negative : Bool
  digits : List Nat
  scale : Int
  deriving DecidableEq

namespace DecimalNumber

def stripSign : List Char → List Char
  | '-' :: rest | '+' :: rest => rest
  | text => text

/-- The decimal exponent after `e`; out-of-range exponents saturate. -/
def parseExponent (source : List Char) : Option Int :=
  let digits := stripSign source
  if digits.isEmpty || !digits.all Char.isDigit then none
  else
    let magnitude : Int := Number.digitsValue digits
    some (saturate (if source.head? = some '-' then -magnitude else magnitude))

def trimZeros : List Nat → Int → List Nat × Int
  | [], scale => ([], scale)
  | digit :: rest, scale =>
    match trimZeros rest scale with
    -- `scale` already counts the zeros removed behind this digit
    | ([], scale') => if digit = 0 then ([], saturate (scale' - 1)) else ([digit], scale')
    | (kept, scale') => (digit :: kept, scale')

def parse (source : String) : Option DecimalNumber :=
  let text := source.toList
  let mantissa := text.takeWhile fun c => c != 'e' && c != 'E'
  let rest := text.drop mantissa.length
  let exponent := if rest.isEmpty then some 0 else parseExponent (rest.drop 1)
  exponent.bind fun exponent =>
    let unsigned := stripSign mantissa
    let integer := unsigned.takeWhile (· != '.')
    let fraction := (unsigned.drop integer.length).drop 1
    if integer.isEmpty || !integer.all Char.isDigit || !fraction.all Char.isDigit then none
    else
      let digits := (integer ++ fraction).map fun c => c.toNat - '0'.toNat
      match digits.dropWhile (· == 0) with
      | [] => some ⟨false, [0], 0⟩
      | digits =>
        let scale := saturate (saturate fraction.length - exponent)
        let (digits, scale) := trimZeros digits scale
        some ⟨mantissa.head? == some '-', digits, scale⟩

def isZero (number : DecimalNumber) : Bool := number.digits == [0]

/-- Position of the leading digit. -/
def order (number : DecimalNumber) : Int :=
  saturate (saturate number.digits.length - number.scale)

def padded (number : DecimalNumber) (length : Nat) : List Nat :=
  number.digits ++ List.replicate (length - number.digits.length) 0

def compareDigits : List Nat → List Nat → Ordering
  | [], [] => .eq
  | [], _ => .lt
  | _, [] => .gt
  | a :: as, b :: bs => (compare a b).then (compareDigits as bs)

/-- `Ord::cmp`. -/
def cmp (left right : DecimalNumber) : Ordering :=
  match left.isZero, right.isZero with
  | true, true => .eq
  | true, false => if right.negative then .gt else .lt
  | false, true => if left.negative then .lt else .gt
  | false, false =>
    if left.negative != right.negative then (if left.negative then .lt else .gt)
    else
      let length := max left.digits.length right.digits.length
      let magnitude := (compare left.order right.order).then
        (compareDigits (left.padded length) (right.padded length))
      if left.negative then magnitude.swap else magnitude

end DecimalNumber

namespace Number

def decimal (number : Number) : Option DecimalNumber := DecimalNumber.parse number.text

/-- A nonnegative integral number as an index that fits `usize`. -/
def integralIndex (number : Number) : Option Nat :=
  number.decimal.bind fun value =>
    if value.negative || 0 < value.scale then none
    else if value.scale = I64_MIN then none
    else
      let zeros := (-value.scale).toNat
      if value.digits.length + zeros > (toString USIZE_MAX).length then none
      else
        let index := (value.digits ++ List.replicate zeros 0).foldl (fun n d => n * 10 + d) 0
        if index ≤ USIZE_MAX then some index else none

/-- Whether the number differs from zero, as `as_f64` sees it: every nonzero
text that `serde_json` prints is a nonzero `f64`. -/
def isNonzero (number : Number) : Bool := number.decimal.any fun value => !value.isZero

end Number

/-- Test of a printed exponent against the normal form. -/
example : (Number.decimal ⟨"1.50e3"⟩) = some ⟨false, [1, 5], -2⟩ := by decide

end Antiburn

/-
The code the engine calls but does not contain.

Unicode case mapping, `serde_json`'s number and text readers, binary floating
point and SHA-256 live in the standard library and in third-party crates.  They
enter the model as the fields of one class, with no laws: every theorem that
mentions `[Platform]` holds whatever these functions compute.
-/
import Antiburn.Json
import Mathlib

namespace Antiburn

/-- One value that the JSON reader starts to read: its depth below the root,
and whether it is an element of an array or an object. -/
structure JsonVisit where
  depth : Nat
  item : Bool

/-- What `serde_json` makes of a text: the values it starts to read, in order,
and the document, if the whole text is one. -/
structure JsonReading where
  visits : List JsonVisit
  value : Option Json

/-- Standard-library and third-party functions. -/
class Platform where
  /-- `str::to_lowercase`. -/
  lowercase : String → String
  /-- UTF-8 bytes of the characters mapped one by one with `char::to_lowercase`. -/
  lowercaseBytes : String → Nat
  /-- `char::is_whitespace`. -/
  isWhitespace : Char → Bool
  /-- `serde_json::from_str::<Number>`. -/
  parseNumber : String → Option Number
  /-- `serde_json::Deserializer` over a text, up to its end. -/
  readJson : String → JsonReading
  /-- `Sha256::digest`. -/
  sha256 : List UInt8 → Vector UInt8 32
  /-- Binary floating-point numbers. -/
  F64 : Type
  /-- `f64 == f64` on the values results hold, none of them NaN. -/
  f64DecidableEq : DecidableEq F64
  /-- `f64::is_finite`. -/
  isFinite : F64 → Bool
  /-- `f64 <= f64`. -/
  f64Le : F64 → F64 → Bool
  /-- `f64 + f64`. -/
  f64Add : F64 → F64 → F64
  /-- `(f64 - f64).abs()`. -/
  f64AbsDiff : F64 → F64 → F64
  /-- An unsigned decimal literal. -/
  f64OfDecimal : String → F64
  /-- `Number::from_f64`, as the text it prints; `none` when not finite. -/
  f64Number : F64 → Option Number

instance [Platform] : DecidableEq Platform.F64 := Platform.f64DecidableEq

end Antiburn

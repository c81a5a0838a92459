/-
A platform on which the model runs.

The functions agree with the ones the engine calls on plain input: ASCII text,
unsigned integers, JSON string literals without escapes, and numbers that
binary floating point represents exactly.  SHA-256 is the whole function.
-/
import Antiburn.Platform
import Mathlib

namespace Antiburn

/-! ### SHA-256 -/

namespace Sha256

/-- Fractional parts of the cube roots of the first 64 primes. -/
def roundConstants : List UInt32 :=
  [0x428a2f98, 0x71374491, 0xb5c0fbcf, 0xe9b5dba5, 0x3956c25b, 0x59f111f1,
    0x923f82a4, 0xab1c5ed5, 0xd807aa98, 0x12835b01, 0x243185be, 0x550c7dc3,
    0x72be5d74, 0x80deb1fe, 0x9bdc06a7, 0xc19bf174, 0xe49b69c1, 0xefbe4786,
    0x0fc19dc6, 0x240ca1cc, 0x2de92c6f, 0x4a7484aa, 0x5cb0a9dc, 0x76f988da,
    0x983e5152, 0xa831c66d, 0xb00327c8, 0xbf597fc7, 0xc6e00bf3, 0xd5a79147,
    0x06ca6351, 0x14292967, 0x27b70a85, 0x2e1b2138, 0x4d2c6dfc, 0x53380d13,
    0x650a7354, 0x766a0abb, 0x81c2c92e, 0x92722c85, 0xa2bfe8a1, 0xa81a664b,
    0xc24b8b70, 0xc76c51a3, 0xd192e819, 0xd6990624, 0xf40e3585, 0x106aa070,
    0x19a4c116, 0x1e376c08, 0x2748774c, 0x34b0bcb5, 0x391c0cb3, 0x4ed8aa4a,
    0x5b9cca4f, 0x682e6ff3, 0x748f82ee, 0x78a5636f, 0x84c87814, 0x8cc70208,
    0x90befffa, 0xa4506ceb, 0xbef9a3f7, 0xc67178f2]

/-- Fractional parts of the square roots of the first 8 primes. -/
def initial : List UInt32 :=
  [0x6a09e667, 0xbb67ae85, 0x3c6ef372, 0xa54ff53a, 0x510e527f, 0x9b05688c,
    0x1f83d9ab, 0x5be0cd19]

def rotateRight (x n : UInt32) : UInt32 := (x >>> n) ||| (x <<< (32 - n))

/-- The message with its final bit, zeros and bit length. -/
def pad (message : List UInt8) : List UInt8 :=
  message ++ 0x80 :: List.replicate ((119 - message.length % 64) % 64) 0 ++
    (List.range 8).map fun i => UInt8.ofNat (message.length * 8 / 256 ^ (7 - i))

def words : List UInt8 → List UInt32
  | a :: b :: c :: d :: rest =>
    ((a.toUInt32 <<< 24) ||| (b.toUInt32 <<< 16) ||| (c.toUInt32 <<< 8) ||| d.toUInt32) ::
      words rest
  | _ => []

/-- The next word of a message schedule, which is kept newest first. -/
def scheduleWord (schedule : List UInt32) : UInt32 :=
  let w (i : Nat) := schedule.getD (i - 1) 0
  let s0 := rotateRight (w 15) 7 ^^^ rotateRight (w 15) 18 ^^^ (w 15 >>> 3)
  let s1 := rotateRight (w 2) 17 ^^^ rotateRight (w 2) 19 ^^^ (w 2 >>> 10)
  w 16 + s0 + w 7 + s1

def schedule (block : List UInt32) : List UInt32 :=
  ((List.range 48).foldl (fun words _ => scheduleWord words :: words) block.reverse).reverse

def round : List UInt32 → UInt32 × UInt32 → List UInt32
  | [a, b, c, d, e, f, g, h], (k, w) =>
    let s1 := rotateRight e 6 ^^^ rotateRight e 11 ^^^ rotateRight e 25
    let choice := (e &&& f) ^^^ (~~~e &&& g)
    let t1 := h + s1 + choice + k + w
    let s0 := rotateRight a 2 ^^^ rotateRight a 13 ^^^ rotateRight a 22
    let majority := (a &&& b) ^^^ (a &&& c) ^^^ (b &&& c)
    [t1 + (s0 + majority), a, b, c, d + t1, e, f, g]
  | working, _ => working

def compress (hash block : List UInt32) : List UInt32 :=
  List.zipWith (· + ·) hash ((roundConstants.zip (schedule block)).foldl round hash)

def blocks : Nat → List UInt32 → List UInt32 → List UInt32
  | 0, hash, _ => hash
  | n + 1, hash, message => blocks n (compress hash (message.take 16)) (message.drop 16)

def wordBytes (word : UInt32) : List UInt8 :=
  [(word >>> 24).toUInt8, (word >>> 16).toUInt8, (word >>> 8).toUInt8, word.toUInt8]

def digest (message : List UInt8) : Vector UInt8 32 :=
  let message := words (pad message)
  let bytes := ((blocks (message.length / 16) initial message).map wordBytes).flatten
  Vector.ofFn fun i => bytes.getD i 0

end Sha256

/-! ### The platform -/

/-- An unsigned integer below `2^64` in its only spelling. -/
def asciiNumber (text : String) : Option Number :=
  let digits := text.toList
  if digits.all Char.isDigit && !digits.isEmpty && (digits.head? != some '0' || digits.length == 1)
    && Number.digitsValue digits < 2 ^ 64 then some ⟨text⟩ else none

/-- A JSON string literal without escapes, and nothing else. -/
def asciiJson (text : String) : JsonReading :=
  match text.toList with
  | '"' :: rest =>
    let body := rest.dropLast
    if rest.getLast? == some '"' && body.all fun c => c != '"' && c != '\\' && c.toNat > 0x1f then
      ⟨[⟨0, false⟩], some (.string (String.ofList body))⟩
    else ⟨[⟨0, false⟩], none⟩
  | _ => ⟨[⟨0, false⟩], none⟩

@[reducible] def asciiPlatform : Platform where
  lowercase := fun text => String.ofList (text.toList.map Char.toLower)
  lowercaseBytes := String.utf8ByteSize
  isWhitespace := Char.isWhitespace
  parseNumber := asciiNumber
  readJson := asciiJson
  sha256 := Sha256.digest
  F64 := Rat
  f64DecidableEq := inferInstance
  isFinite := fun _ => true
  f64Le := fun x y => x ≤ y
  f64Add := (· + ·)
  f64AbsDiff := fun x y => |x - y|
  f64OfDecimal := fun text =>
    let (whole, fraction) := text.toList.span fun c => c != '.'
    (Number.digitsValue whole : Rat) +
      Number.digitsValue (fraction.drop 1) / 10 ^ (fraction.length - 1)
  f64Number := fun x =>
    if x.den = 1 ∧ 0 ≤ x then some ⟨toString x.num.toNat ++ ".0"⟩ else none

end Antiburn

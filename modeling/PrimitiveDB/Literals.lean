import PrimitiveDB.ScanFilter

/-!
# Numbers in statements

The C library functions with which statements are turned into tuples: `atoi`,
`atof` with the conversion of its result to `float`, and the `snprintf` of
`value_of`. `atof` rounds the decimal or hexadecimal number to a `double` and the
assignment rounds that to a `float`, each to nearest and ties to even.
-/

namespace PrimitiveDB

open ByteMemory

set_option autoImplicit false

namespace Literal

def isSpace (char : Byte) : Bool := char = 32 ∨ (9 ≤ char ∧ char ≤ 13)

def digitValue (base : Nat) (char : Byte) : Option Nat :=
  let value : Option Nat :=
    if 48 ≤ char ∧ char ≤ 57 then some (char.val - 48)
    else if 97 ≤ char ∧ char ≤ 122 then some (char.val - 87)
    else if 65 ≤ char ∧ char ≤ 90 then some (char.val - 55)
    else none
  value.filter (· < base)

def digits (base : Nat) (value count : Nat) : List Byte → Nat × Nat × List Byte
  | [] => (value, count, [])
  | char :: rest =>
      match digitValue base char with
      | some digit => digits base (value * base + digit) (count + 1) rest
      | none => (value, count, char :: rest)

def sign : List Byte → Bool × List Byte
  | [] => (false, [])
  | char :: rest =>
      if char = 45 then (true, rest) else if char = 43 then (false, rest) else (false, char :: rest)

def atoi (text : List Byte) : Int :=
  let (negative, rest) := sign (text.dropWhile isSpace)
  let (value, _, _) := digits 10 0 0 rest
  let exact : Int := if negative then -(value : Int) else value
  toInt (max (-9223372036854775808) (min 9223372036854775807 exact))

def floorLog (num den : Nat) : Int :=
  let guess : Int := (Nat.log2 num : Int) - Nat.log2 den
  let below : Bool := if 0 ≤ guess then num < den * 2 ^ guess.toNat else num * 2 ^ (-guess).toNat < den
  if below then guess - 1 else guess

/-- `num / den` to the nearest integer, ties to even. -/
def roundDiv (num den : Nat) : Nat :=
  let quotient := num / den
  let twice := 2 * (num % den)
  if twice < den then quotient
  else if twice > den then quotient + 1
  else if quotient % 2 = 0 then quotient
  else quotient + 1

/-- `num / den` as `m * 2 ^ e` with `m < 2 ^ precision` and `lowest ≤ e`. -/
def roundBinary (precision : Nat) (lowest : Int) (num den : Nat) : Nat × Int :=
  let exponent := max lowest (floorLog num den - (precision - 1))
  let mantissa :=
    if 0 ≤ exponent then roundDiv num (den * 2 ^ exponent.toNat)
    else roundDiv (num * 2 ^ (-exponent).toNat) den
  if mantissa = 2 ^ precision then (2 ^ (precision - 1), exponent + 1) else (mantissa, exponent)

inductive Number where
  | nan
  | infinity
  /-- `num / den`, not negative -/
  | ratio (num den : Nat)

/-- The `float` of a number, as the bits below the sign. -/
def floatBits : Number → Nat
  | .nan => 0x7fc00000
  | .infinity => 0x7f800000
  | .ratio num den =>
      if num = 0 then 0
      else
        let (wide, exponent) := roundBinary 53 (-1074) num den
        -- what has become infinite as a double stays so
        if exponent + 53 > 1024 then 0x7f800000
        else if wide = 0 then 0
        else
          let (mantissa, exponent) :=
            if 0 ≤ exponent then roundBinary 24 (-149) (wide * 2 ^ exponent.toNat) 1
            else roundBinary 24 (-149) wide (2 ^ (-exponent).toNat)
          if mantissa < 2 ^ 23 then mantissa
          else if exponent + 24 > 128 then 0x7f800000
          else ((exponent + 150) * 2 ^ 23 + (mantissa - 2 ^ 23 : Nat)).toNat

def lowered (text : List Byte) : List Byte :=
  text.map fun char => if 65 ≤ char ∧ char ≤ 90 then char + 32 else char

/-- `mantissa * base ^ (-fraction)`, times ten or two to the exponent behind `mark`. -/
def scaled (base radix : Nat) (mark : Byte) (mantissa fraction : Nat) (rest : List Byte) : Number :=
  let exponent : Int :=
    match rest with
    | char :: more =>
        if char = mark then
          let (negative, more) := sign more
          let (value, count, _) := digits 10 0 0 more
          if count = 0 then 0 else if negative then -(value : Int) else value
        else 0
    | [] => 0
  if 0 ≤ exponent then .ratio (mantissa * radix ^ exponent.toNat) (base ^ fraction)
  else .ratio mantissa (base ^ fraction * radix ^ (-exponent).toNat)

def pointed (base radix : Nat) (mark : Byte) (text : List Byte) : Option Number :=
  let (whole, count, rest) := digits base 0 0 text
  match rest with
  | char :: more =>
      if char = 46 then
        let (mantissa, fraction, rest) := digits base whole 0 more
        if count + fraction = 0 then none else some (scaled base radix mark mantissa fraction rest)
      else if count = 0 then none else some (scaled base radix mark whole 0 rest)
  | [] => if count = 0 then none else some (scaled base radix mark whole 0 [])

def number (text : List Byte) : Number :=
  if text.take 3 = [105, 110, 102] then .infinity
  else if text.take 3 = [110, 97, 110] then .nan
  else
    let hexadecimal :=
      if text.take 2 = [48, 120] then pointed 16 2 112 (text.drop 2) else none
    match hexadecimal with
    | some value => value
    | none => (pointed 10 10 101 text).getD (.ratio 0 1)

/-- The four bytes of a `float` that was assigned `atof(text)`. -/
def atof (text : List Byte) : List Byte :=
  let (negative, rest) := sign (text.dropWhile isSpace)
  let bits := floatBits (number (lowered rest))
  intBytes (if negative then bits + 0x80000000 else bits)

def decimal (value : Nat) : List Byte :=
  (Nat.toDigits 10 value).map fun char => byteOf char.toNat

def printInt (value : Int) : List Byte :=
  if value < 0 then 45 :: decimal value.natAbs else decimal value.natAbs

/-- `snprintf(.., "%f", value)` of the `float` with these bytes: six digits behind
the point. -/
def printFloat (value : List Byte) : List Byte :=
  let shown : List Byte :=
    match ScanFilter.readFloat (ScanFilter.bytesAt value 0) with
    | .nan => [110, 97, 110]
    | .infinity _ => [105, 110, 102]
    | .finite scaled =>
        let millionths := roundDiv (scaled.natAbs * 1000000) (2 ^ 149)
        let fraction := decimal (millionths % 1000000)
        decimal (millionths / 1000000) ++ [46] ++
          List.replicate (6 - fraction.length) 48 ++ fraction
  if 128 ≤ value.getD 3 0 then 45 :: shown else shown

end Literal

end PrimitiveDB

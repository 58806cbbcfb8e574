import PrimitiveDB.SlottedPage

/-!
# The filter of a scan

`HeapFileScan::startScan` and `matchRec`. The source keeps the difference of
attribute and filter in a `float` and then looks only at its sign, so `diff` is
an exact number here, and `none` for NaN: converting an `int` and subtracting
two `float`s both keep the sign.
-/

namespace PrimitiveDB

open ByteMemory

set_option autoImplicit false

inductive Datatype where
  | STRING | INTEGER | FLOAT
  deriving DecidableEq, Repr

inductive Operator where
  | LT | LTE | EQ | GTE | GT | NE
  deriving DecidableEq, Repr

/-- The fields `offset`, `length`, `type`, `filter` and `op` of a scan that has
a filter. `filter` is what the pointer points to. -/
structure ScanFilter where
  offset : Int
  length : Int
  type : Datatype
  filter : List Byte
  op : Operator
  deriving DecidableEq

namespace ScanFilter

/-- The bytes behind a pointer, starting `offset` bytes further. -/
def bytesAt (bytes : List Byte) (offset : Nat) : Memory := fun index => bytes.getD (offset + index) 0

/-- C `strncmp` on the first `count` bytes: the sign of the first difference, or
zero at a common end of string. -/
def strncmp (left right : Memory) : Nat → Nat → Int
  | _, 0 => 0
  | index, count + 1 =>
      if (left index).val ≠ (right index).val then ((left index).val : Int) - (right index).val
      else if (left index).val = 0 then 0
      else strncmp left right (index + 1) count

/-- A single-precision number; a finite one is kept times `2 ^ 149`. -/
inductive FloatValue where
  | nan
  | infinity (negative : Bool)
  | finite (scaled : Int)

def readFloat (memory : Memory) : FloatValue :=
  let bits := (memory 0).val + 256 * (memory 1).val + 65536 * (memory 2).val +
    16777216 * (memory 3).val
  let negative : Bool := bits ≥ 2147483648
  let exponent := bits / 8388608 % 256
  let mantissa := bits % 8388608
  if exponent = 255 then
    if mantissa = 0 then .infinity negative else .nan
  else
    let magnitude : Int :=
      if exponent = 0 then mantissa else (mantissa + 8388608) * 2 ^ (exponent - 1)
    .finite (if negative then -magnitude else magnitude)

def floatDiff : FloatValue → FloatValue → Option Int
  | .nan, _ => none
  | _, .nan => none
  | .infinity left, .infinity right =>
      if left = right then none else some (if left then -1 else 1)
  | .infinity left, .finite _ => some (if left then -1 else 1)
  | .finite _, .infinity right => some (if right then 1 else -1)
  | .finite left, .finite right => some (left - right)

/-- `diff`: negative if the attribute is below the filter. -/
def diff (scan : ScanFilter) (rec : Record) : Option Int :=
  let attr := bytesAt rec scan.offset.toNat
  let fltr := bytesAt scan.filter 0
  match scan.type with
  | .INTEGER => some (toInt (readInt attr 0 - readInt fltr 0))
  | .FLOAT => floatDiff (readFloat attr) (readFloat fltr)
  | .STRING => some (strncmp attr fltr 0 scan.length.toNat)

/-- The second `switch` of `matchRec`. Every comparison with NaN but `!=` fails. -/
def opHolds (op : Operator) : Option Int → Bool
  | none => op = .NE
  | some diff =>
      match op with
      | .LT => diff < 0
      | .LTE => diff ≤ 0
      | .EQ => diff = 0
      | .GTE => diff ≥ 0
      | .GT => diff > 0
      | .NE => diff ≠ 0

def matchRec (filter : Option ScanFilter) (rec : Record) : Bool :=
  match filter with
  -- no filtering requested
  | none => true
  | some scan =>
      -- see if offset + length is beyond end of record
      if scan.offset + scan.length - 1 ≥ rec.length then false
      else opHolds scan.op (scan.diff rec)

/-- `startScan` on a scan whose filter was `old`. -/
def startScan (old : Option ScanFilter) (offset length : Int) (type : Datatype)
    (filter : Option (List Byte)) (op : Operator) : Status × Option ScanFilter :=
  match filter with
  | none => (.OK, none)
  | some bytes =>
      if (offset < 0 ∨ length < 1) ∨
          ((type = .INTEGER ∧ length ≠ 4) ∨ (type = .FLOAT ∧ length ≠ 4)) then
        (.BADSCANPARM, old)
      else (.OK, some { offset, length, type, filter := bytes, op })

end ScanFilter

end PrimitiveDB

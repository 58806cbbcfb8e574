import Mathlib

/-!
# Byte-addressed memory

Flat memory as the C programs of the repository see it: `memcpy`, the
overlapping `bcopy`, and little-endian 16- and 32-bit fields laid over the same
bytes. Nothing here knows about pages; the slotted page and the catalog tuples
use these rules at their own offsets.
-/

namespace PrimitiveDB.ByteMemory

set_option autoImplicit false

abbrev Byte := Fin 256

instance byteCountNeZero : NeZero 256 := ⟨by decide⟩

abbrev Memory := Nat → Byte

def byteOf (value : Int) : Byte := ⟨(value % 256).toNat, by omega⟩

/-- The bytes `[start, start + count)`, in address order. -/
def readBytes (memory : Memory) (start count : Nat) : List Byte :=
  (List.range count).map fun index => memory (start + index)

/-- `memcpy(&memory[start], bytes, bytes.length)`. -/
def writeBytes (memory : Memory) (start : Nat) (bytes : List Byte) : Memory :=
  fun address =>
    if start ≤ address ∧ address < start + bytes.length then
      bytes.getD (address - start) 0
    else memory address

/-- `bcopy(&memory[source], &memory[target], count)`; the ranges may overlap,
so every target byte is read from the memory before the call. -/
def moveBytes (memory : Memory) (source target count : Nat) : Memory :=
  fun address =>
    if target ≤ address ∧ address < target + count then
      memory (source + (address - target))
    else memory address

theorem read_bytes_length (memory : Memory) (start count : Nat) :
    (readBytes memory start count).length = count := by
  simp [readBytes]

theorem read_bytes_congr {left right : Memory} {start shifted count : Nat}
    (same : ∀ index, index < count → left (start + index) = right (shifted + index)) :
    readBytes left start count = readBytes right shifted count := by
  apply List.map_congr_left
  intro index member
  exact same index (List.mem_range.mp member)

theorem read_bytes_write_same (memory : Memory) (start : Nat) (bytes : List Byte) :
    readBytes (writeBytes memory start bytes) start bytes.length = bytes := by
  apply List.ext_getElem
  · exact read_bytes_length _ _ _
  · intro index leftBound rightBound
    simp [readBytes, writeBytes, rightBound]

theorem write_bytes_outside (memory : Memory) (start : Nat) (bytes : List Byte)
    (address : Nat) (outside : address < start ∨ start + bytes.length ≤ address) :
    writeBytes memory start bytes address = memory address := by
  unfold writeBytes
  rw [if_neg (by omega)]

theorem move_bytes_inside (memory : Memory) (source target count index : Nat)
    (inside : index < count) :
    moveBytes memory source target count (target + index) = memory (source + index) := by
  unfold moveBytes
  rw [if_pos (by omega)]
  congr 1
  omega

theorem move_bytes_outside (memory : Memory) (source target count address : Nat)
    (outside : address < target ∨ target + count ≤ address) :
    moveBytes memory source target count address = memory address := by
  unfold moveBytes
  rw [if_neg (by omega)]

/-- The value an `int` keeps when it is stored in a `short`. -/
def toShort (value : Int) : Int := Int.bmod value 65536

theorem to_short_of_range {value : Int} (lower : -32768 ≤ value) (upper : value < 32768) :
    toShort value = value := by
  unfold toShort
  rw [Int.bmod_eq_of_le] <;> omega

def readShort (memory : Memory) (address : Nat) : Int :=
  toShort ((memory address).val + 256 * (memory (address + 1)).val)

def writeShort (memory : Memory) (address : Nat) (value : Int) : Memory :=
  writeBytes memory address [byteOf value, byteOf (value / 256)]

theorem write_short_outside (memory : Memory) (address : Nat) (value : Int) (other : Nat)
    (outside : other < address ∨ address + 2 ≤ other) :
    writeShort memory address value other = memory other :=
  write_bytes_outside memory address _ other (by simpa using outside)

theorem read_short_write_same (memory : Memory) (address : Nat) (value : Int) :
    readShort (writeShort memory address value) address = toShort value := by
  have low : writeShort memory address value address = byteOf value := by
    simp [writeShort, writeBytes]
  have high : writeShort memory address value (address + 1) = byteOf (value / 256) := by
    simp [writeShort, writeBytes]
  have split : value = value % 256 + 256 * (value / 256 % 256) + 65536 * (value / 256 / 256) := by
    omega
  simp only [readShort, low, high, byteOf]
  rw [Int.toNat_of_nonneg (by omega), Int.toNat_of_nonneg (by omega)]
  unfold toShort
  conv_rhs => rw [split]
  exact (Int.add_mul_bmod_self_left _ _ _).symm

theorem read_short_congr {left right : Memory} {address : Nat}
    (low : left address = right address) (high : left (address + 1) = right (address + 1)) :
    readShort left address = readShort right address := by
  simp only [readShort, low, high]

/-- The value a wider integer keeps when it is stored in an `int`. -/
def toInt (value : Int) : Int := Int.bmod value 4294967296

def readInt (memory : Memory) (address : Nat) : Int :=
  toInt ((memory address).val + 256 * (memory (address + 1)).val +
    65536 * (memory (address + 2)).val + 16777216 * (memory (address + 3)).val)

def intBytes (value : Int) : List Byte :=
  [byteOf value, byteOf (value / 256), byteOf (value / 65536), byteOf (value / 16777216)]

def writeInt (memory : Memory) (address : Nat) (value : Int) : Memory :=
  writeBytes memory address (intBytes value)

end PrimitiveDB.ByteMemory

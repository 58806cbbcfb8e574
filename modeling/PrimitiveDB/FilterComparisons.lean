import PrimitiveDB.JoinQueries

/-!
# Filters as comparisons

When `matchRec` decides what its operator says about the attribute and the filter.
Strings are compared exactly. Integers are compared through their difference, which
is an `int` again: it keeps its sign only if it fits.
-/

namespace PrimitiveDB

open ByteMemory ScanFilter

set_option autoImplicit false

theorem Operator.op_holds_iff {α : Type} [LinearOrder α] {left right : α} {diff : Int}
    (below : diff < 0 ↔ left < right) (same : diff = 0 ↔ left = right) (op : Operator) :
    opHolds op (some diff) = true ↔ op.Holds left right := by
  have above : -diff < 0 ↔ right < left := by
    rw [Int.neg_neg_iff_pos, ← not_le, ← not_le, Int.le_iff_lt_or_eq, le_iff_lt_or_eq, below, same]
  have turned : -diff = 0 ↔ right = left := by
    rw [Int.neg_eq_zero, same, eq_comm]
  rw [← mirrored_neg]
  exact Operator.mirrored_holds_iff above turned op

theorem read_int_bounds (memory : Memory) (address : Nat) :
    -2147483648 ≤ readInt memory address ∧ readInt memory address < 2147483648 := by
  unfold readInt toInt
  have lower := Int.le_bmod
    (x := ((memory address).val + 256 * (memory (address + 1)).val +
      65536 * (memory (address + 2)).val + 16777216 * (memory (address + 3)).val : Int))
    (m := 4294967296) (by decide)
  have upper := Int.bmod_lt
    (x := ((memory address).val + 256 * (memory (address + 1)).val +
      65536 * (memory (address + 2)).val + 16777216 * (memory (address + 3)).val : Int))
    (m := 4294967296) (by decide)
  omega

/-- A difference that does not fit has the other sign in an `int`. -/
theorem to_int_of_overflow {value : Int} (bounds : -4294967296 < value ∧ value < 4294967296)
    (overflows : ¬(-2147483648 ≤ value ∧ value < 2147483648)) :
    (toInt value < 0 ↔ 0 < value) ∧ toInt value ≠ 0 := by
  unfold toInt
  rw [Int.bmod_def]
  split <;> omega

def Operator.Equational : Operator → Prop
  | .EQ => True
  | .NE => True
  | _ => False

/-- `attribute op filter` is decided without an overflow that the operator could see. -/
def ComparesExactly : Datatype → Operator → List Byte → List Byte → Prop
  | .INTEGER, op, attr, fltr => op.Equational ∨
      (-2147483648 ≤ intOf attr - intOf fltr ∧ intOf attr - intOf fltr < 2147483648)
  | _, _, _, _ => True

theorem integer_compares_iff (op : Operator) {a f : Int} (left : -2147483648 ≤ a ∧ a < 2147483648)
    (right : -2147483648 ≤ f ∧ f < 2147483648) :
    (opHolds op (some (toInt (a - f))) = true ↔ op.Holds a f) ↔
      op.Equational ∨ (-2147483648 ≤ a - f ∧ a - f < 2147483648) := by
  by_cases fits : -2147483648 ≤ a - f ∧ a - f < 2147483648
  · rw [to_int_of_fits fits.1 fits.2]
    have decides : opHolds op (some (a - f)) = true ↔ op.Holds a f :=
      Operator.op_holds_iff (by omega) (by omega) op
    exact ⟨fun _ => .inr fits, fun _ => decides⟩
  · obtain ⟨turned, nonzero⟩ := to_int_of_overflow (by omega) fits
    have different : a ≠ f := by omega
    cases op with
    | EQ => simp [opHolds, Operator.Holds, Operator.Equational, nonzero, different]
    | NE => simp [opHolds, Operator.Holds, Operator.Equational, nonzero, different]
    | _ =>
        simp only [opHolds, Operator.Holds, Operator.Equational, fits, or_self, iff_false,
          decide_eq_true_eq]
        omega

theorem c_string_padded (bytes : List Byte) (count : Nat) :
    cString (bytes ++ List.replicate count 0) = cString bytes := by
  induction bytes with
  | nil =>
      cases count with
      | zero => rfl
      | succ count => simp [cString, List.replicate_succ]
  | cons byte bytes ih =>
      rw [List.cons_append, c_string_cons, c_string_cons, ih]

theorem bytes_at_padded (bytes : List Byte) (count : Nat) :
    bytesAt (bytes ++ List.replicate count 0) 0 = bytesAt bytes 0 := by
  funext index
  simp only [bytesAt, Nat.zero_add, List.getD_eq_getElem?_getD]
  by_cases inside : index < bytes.length
  · rw [List.getElem?_append_left inside]
  · have beyond : bytes[index]? = none := List.getElem?_eq_none (by omega)
    rw [List.getElem?_append_right (by omega), beyond, List.getElem?_replicate]
    split <;> rfl

theorem bytes_at_take (bytes : List Byte) (offset : Nat) {length index : Nat}
    (inside : index < length) :
    bytesAt bytes offset index = bytesAt ((bytes.drop offset).take length) 0 index := by
  simp only [bytesAt, List.getD_eq_getElem?_getD, List.getElem?_take, List.getElem?_drop,
    Nat.zero_add, if_pos inside]

/-- `strncmp` on `length` bytes compares the C strings that are cut there. -/
theorem strncmp_cut (rec fltr : List Byte) (offset length : Nat)
    (inside : offset + length ≤ rec.length) :
    (strncmp (bytesAt rec offset) (bytesAt fltr 0) 0 length < 0 ↔
        cString ((rec.drop offset).take length) < cString (fltr.take length)) ∧
      (strncmp (bytesAt rec offset) (bytesAt fltr 0) 0 length = 0 ↔
        cString ((rec.drop offset).take length) = cString (fltr.take length)) := by
  have long : ((rec.drop offset).take length).length = length := by
    simp only [List.length_take, List.length_drop]
    omega
  -- the filter may be shorter than the attribute; it then ends with its terminator
  have padded : (fltr.take length ++
      List.replicate (length - (fltr.take length).length) 0).length = length := by
    simp only [List.length_append, List.length_replicate, List.length_take]
    omega
  have compared := strncmp_lex _ _ (long.trans padded.symm)
  rw [long, c_string_padded, bytes_at_padded] at compared
  have same : strncmp (bytesAt rec offset) (bytesAt fltr 0) 0 length =
      strncmp (bytesAt ((rec.drop offset).take length) 0) (bytesAt (fltr.take length) 0) 0
        length := by
    apply strncmp_congr
    · intro index bound
      exact bytes_at_take rec offset (by omega)
    · intro index bound
      exact bytes_at_take fltr 0 (by omega)
  rw [same]
  exact compared

/-- `matchRec` decides `attribute op filter` exactly if the two are strings, or the operator
asks for equality, or the difference of the numbers is an `int`. -/
theorem match_rec_compares_iff (old : Option ScanFilter) (offset length : Int) (type : Datatype)
    (fltr : List Byte) (op : Operator) (scan : ScanFilter)
    (started : startScan old offset length type (some fltr) op = (.OK, some scan)) (rec : Record)
    (inside : offset + length ≤ rec.length) :
    (matchRec (some scan) rec = true ↔
        AttrHolds type op ((rec.drop offset.toNat).take length.toNat) (fltr.take length.toNat)) ↔
      ComparesExactly type op ((rec.drop offset.toNat).take length.toNat)
        (fltr.take length.toNat) := by
  obtain ⟨proper, rfl⟩ : ¬((offset < 0 ∨ length < 1) ∨
      ((type = .INTEGER ∧ length ≠ 4) ∨ (type = .FLOAT ∧ length ≠ 4))) ∧
      scan = { offset, length, type, filter := fltr, op } := by
    unfold startScan at started
    dsimp only at started
    split at started
    · cases started
    · cases started
      exact ⟨‹_›, rfl⟩
  have ends : ¬(offset + length - 1 ≥ rec.length) := by omega
  unfold matchRec
  dsimp only
  rw [if_neg ends]
  have attrBytes : ∀ index < length.toNat, bytesAt rec offset.toNat index =
      bytesAt ((rec.drop offset.toNat).take length.toNat) 0 index :=
    fun index bound => bytes_at_take rec _ bound
  have fltrBytes : ∀ index < length.toNat, bytesAt fltr 0 index =
      bytesAt (fltr.take length.toNat) 0 index :=
    fun index bound => bytes_at_take fltr 0 bound
  cases type with
  | STRING =>
      obtain ⟨below, same⟩ := strncmp_cut rec fltr offset.toNat length.toNat (by omega)
      have decides := Operator.op_holds_iff below same op
      exact ⟨fun _ => trivial, fun _ => decides⟩
  | INTEGER =>
      have exact_ : length = 4 := by
        by_contra other
        exact proper (.inr (.inl ⟨rfl, other⟩))
      have word : length.toNat = 4 := by
        rw [exact_]
        rfl
      rw [word] at attrBytes fltrBytes ⊢
      simp only [diff]
      rw [read_int_congr attrBytes, read_int_congr fltrBytes]
      exact integer_compares_iff op (read_int_bounds _ 0) (read_int_bounds _ 0)
  | FLOAT =>
      have exact_ : length = 4 := by
        by_contra other
        exact proper (.inr (.inr ⟨rfl, other⟩))
      have word : length.toNat = 4 := by
        rw [exact_]
        rfl
      rw [word] at attrBytes fltrBytes ⊢
      simp only [diff]
      rw [read_float_congr attrBytes, read_float_congr fltrBytes]
      exact ⟨fun _ => trivial, fun _ => Iff.rfl⟩

theorem match_rec_compares_iff_small :
    matchRec (some { offset := 1, length := 4, type := .INTEGER, filter := intBytes 9, op := .LT })
        (3 :: intBytes 5) = true ↔
      AttrHolds .INTEGER .LT (intBytes 5) (intBytes 9) :=
  (match_rec_compares_iff none 1 4 .INTEGER (intBytes 9) .LT _ rfl (3 :: intBytes 5)
    (by decide)).mpr (.inr (by decide))

/-- `2147483647 > -1` is decided through a difference of `-2147483648`. -/
theorem match_rec_overflows :
    ¬(matchRec (some { offset := 0, length := 4, type := .INTEGER, filter := intBytes (-1)
                       op := .GT }) (intBytes 2147483647) = true ↔
      AttrHolds .INTEGER .GT (intBytes 2147483647) (intBytes (-1))) := by
  decide

end PrimitiveDB

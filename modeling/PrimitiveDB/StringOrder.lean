import PrimitiveDB.Catalog

/-!
# Comparing attributes

`strncmp` on two attributes of one length compares the C strings in them in
lexicographic order, and the length + 1 comparison that the catalogs make is an
exact test for a name.
-/

namespace PrimitiveDB

open ByteMemory ScanFilter

set_option autoImplicit false

namespace ScanFilter

variable {left right left' right' : Memory}

theorem strncmp_shift (first : ∀ index, left (index + 1) = left' index)
    (second : ∀ index, right (index + 1) = right' index) (count index : Nat) :
    strncmp left right (index + 1) count = strncmp left' right' index count := by
  induction count generalizing index with
  | zero => rfl
  | succ count ih => simp only [strncmp, first, second, ih]

theorem strncmp_cons (x y : Byte) (xs ys : List Byte) (count : Nat) :
    strncmp (bytesAt (x :: xs) 0) (bytesAt (y :: ys) 0) 0 (count + 1) =
      if x.val ≠ y.val then (x.val : Int) - y.val
      else if x.val = 0 then 0
      else strncmp (bytesAt xs 0) (bytesAt ys 0) 0 count := by
  have shift : ∀ (z : Byte) (zs : List Byte) (index : Nat),
      bytesAt (z :: zs) 0 (index + 1) = bytesAt zs 0 index := by
    intro z zs index
    simp [bytesAt]
  rw [strncmp, strncmp_shift (shift x xs) (shift y ys)]
  rfl

end ScanFilter

theorem c_string_cons (byte : Byte) (bytes : List Byte) :
    cString (byte :: bytes) = if byte = 0 then [] else byte :: cString bytes := by
  unfold cString
  rw [List.takeWhile_cons]
  by_cases zero : byte = 0
  · simp [zero]
  · simp [zero]

/-- A C string that fits into the first `length` bytes of the operands. -/
theorem strncmp_lex (xs ys : List Byte) (same : xs.length = ys.length) :
    (strncmp (bytesAt xs 0) (bytesAt ys 0) 0 xs.length < 0 ↔ cString xs < cString ys) ∧
      (strncmp (bytesAt xs 0) (bytesAt ys 0) 0 xs.length = 0 ↔ cString xs = cString ys) := by
  induction xs generalizing ys with
  | nil =>
      have empty : ys = [] := List.length_eq_zero_iff.mp same.symm
      subst empty
      simp [strncmp, cString]
  | cons x xs ih =>
      cases ys with
      | nil => cases same
      | cons y ys =>
          have below : x.val < 256 ∧ y.val < 256 := ⟨x.isLt, y.isLt⟩
          have lengths : xs.length = ys.length := Nat.succ.inj same
          rw [List.length_cons, strncmp_cons, c_string_cons, c_string_cons]
          by_cases equal : x = y
          · subst equal
            rw [if_neg (not_not.mpr rfl)]
            by_cases zero : x = 0
            · simp [zero]
            · have nonzero : x.val ≠ 0 := fun value => zero (Fin.ext value)
              rw [if_neg nonzero, if_neg zero, if_neg zero, List.cons_lt_cons_iff]
              simpa using ih ys lengths
          · have different : x.val ≠ y.val := fun value => equal (Fin.ext value)
            rw [if_pos different]
            by_cases left : x = 0
            · have right : y ≠ 0 := fun zero => equal (left.trans zero.symm)
              have positive : 0 < y.val := Nat.pos_of_ne_zero fun value => right (Fin.ext value)
              rw [if_pos left, if_neg right, left]
              simp only [Fin.val_zero, List.nil_lt_cons, iff_true]
              refine ⟨by omega, ?_⟩
              simp only [reduceCtorEq, iff_false]
              omega
            · rw [if_neg left]
              by_cases right : y = 0
              · rw [if_pos right, right]
                have positive : 0 < x.val := Nat.pos_of_ne_zero fun value => left (Fin.ext value)
                simp only [Fin.val_zero, List.not_lt_nil, iff_false, reduceCtorEq]
                omega
              · rw [if_neg right, List.cons_lt_cons_iff]
                simp only [equal, false_and, or_false, List.cons.injEq, iff_false, Fin.lt_def]
                omega

/-- The comparison that looks for a name at the start of a record. -/
theorem strncmp_name {name rec : List Byte} (terminated : 0 ∉ name)
    (longer : name.length < rec.length) :
    strncmp (bytesAt rec 0) (bytesAt (name ++ [0]) 0) 0 (name.length + 1) = 0 ↔
      cString rec = name := by
  induction name generalizing rec with
  | nil =>
      cases rec with
      | nil => cases longer
      | cons byte rest =>
          rw [List.nil_append, List.length_nil, strncmp_cons, c_string_cons]
          by_cases zero : byte = 0
          · simp [zero]
          · have nonzero : byte.val ≠ 0 := fun value => zero (Fin.ext value)
            simp only [Fin.val_zero, if_pos nonzero, if_neg zero, reduceCtorEq, iff_false]
            omega
  | cons char name ih =>
      cases rec with
      | nil => cases longer
      | cons byte rest =>
          have nonzero : char ≠ 0 := fun zero => terminated (by simp [zero])
          have later : 0 ∉ name := fun member => terminated (List.mem_cons_of_mem _ member)
          have shorter : name.length < rest.length := Nat.lt_of_succ_lt_succ longer
          rw [List.cons_append, List.length_cons, strncmp_cons, c_string_cons]
          by_cases same : byte = char
          · subst same
            have value : byte.val ≠ 0 := fun value => nonzero (Fin.ext value)
            rw [if_neg (not_not.mpr rfl), if_neg value, if_neg nonzero, ih later shorter]
            simp
          · have different : byte.val ≠ char.val := fun value => same (Fin.ext value)
            rw [if_pos different]
            have apart : (byte.val : Int) - char.val ≠ 0 := by omega
            simp only [apart, false_iff]
            split
            · simp
            · simp [same]

end PrimitiveDB

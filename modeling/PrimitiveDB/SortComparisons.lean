import PrimitiveDB.SortedFile
import PrimitiveDB.FilterComparisons

/-!
# The order of sort fields

`reccmp` as the order that `qsort` and the merge of the runs rely on. Strings of one length
are ordered byte by byte. Integers are ordered through their difference, which is an `int`
again, so the order laws hold among numbers that are less than `2 ^ 31` apart and among no
others.
-/

namespace PrimitiveDB

open ByteMemory ScanFilter

set_option autoImplicit false

section Comparators

variable {α κ : Type} [LinearOrder κ] {key : α → κ} {compare : α → α → Int} {items : Set α}

/-- `compare` is a total preorder on `items`, and it is the order of their keys. -/
structure OrdersBy (key : α → κ) (compare : α → α → Int) (items : Set α) : Prop where
  turned : ∀ x ∈ items, ∀ y ∈ items, compare x y = -compare y x
  transitive : ∀ x ∈ items, ∀ y ∈ items, ∀ z ∈ items,
    compare x y ≤ 0 → compare y z ≤ 0 → compare x z ≤ 0
  below : ∀ x ∈ items, ∀ y ∈ items, compare x y < 0 ↔ key x < key y
  same : ∀ x ∈ items, ∀ y ∈ items, compare x y = 0 ↔ key x = key y

/-- A comparator that returns the sign of a difference, and the right one, is an order. -/
theorem orders_by_of_signs {difference : α → α → Int}
    (signs : ∀ x ∈ items, ∀ y ∈ items, compare x y = (difference x y).sign)
    (below : ∀ x ∈ items, ∀ y ∈ items, difference x y < 0 ↔ key x < key y)
    (same : ∀ x ∈ items, ∀ y ∈ items, difference x y = 0 ↔ key x = key y) :
    OrdersBy key compare items := by
  have compareBelow : ∀ x ∈ items, ∀ y ∈ items, compare x y < 0 ↔ key x < key y := by
    intro x left y right
    rw [signs x left y right, Int.sign_neg_iff, below x left y right]
  have compareSame : ∀ x ∈ items, ∀ y ∈ items, compare x y = 0 ↔ key x = key y := by
    intro x left y right
    rw [signs x left y right, Int.sign_eq_zero_iff_zero, same x left y right]
  have notAbove : ∀ x ∈ items, ∀ y ∈ items, compare x y ≤ 0 ↔ key x ≤ key y := by
    intro x left y right
    rw [Int.le_iff_lt_or_eq, compareBelow x left y right, compareSame x left y right,
      ← le_iff_lt_or_eq]
  refine ⟨?_, ?_, compareBelow, compareSame⟩
  · intro x left y right
    rw [signs x left y right, signs y right x left]
    rcases lt_trichotomy (key x) (key y) with less | equal | greater
    · have negative := (below x left y right).mpr less
      have positive : 0 < difference y x := by
        apply lt_of_le_of_ne
        · exact not_lt.mp fun lower => less.asymm ((below y right x left).mp lower)
        · exact fun zero => less.ne' ((same y right x left).mp zero.symm)
      rw [Int.sign_eq_neg_one_of_neg negative, Int.sign_eq_one_of_pos positive]
    · rw [(same x left y right).mpr equal, (same y right x left).mpr equal.symm]
      rfl
    · have negative := (below y right x left).mpr greater
      have positive : 0 < difference x y := by
        apply lt_of_le_of_ne
        · exact not_lt.mp fun lower => greater.asymm ((below x left y right).mp lower)
        · exact fun zero => greater.ne' ((same x left y right).mp zero.symm)
      rw [Int.sign_eq_neg_one_of_neg negative, Int.sign_eq_one_of_pos positive]
      rfl
  · intro x left y middle z right first second
    rw [notAbove x left y middle] at first
    rw [notAbove y middle z right] at second
    rw [notAbove x left z right]
    exact first.trans second

end Comparators

def compareFields (type : Datatype) (length : Int) (left right : List Byte) : Int :=
  reccmp (bytesAt left 0) (bytesAt right 0) length length type

theorem sign_eq (diff : Int) : (if diff < 0 then -1 else if diff > 0 then 1 else 0) = diff.sign := by
  rcases lt_trichotomy diff 0 with negative | zero | positive
  · rw [if_pos negative, Int.sign_eq_neg_one_of_neg negative]
  · subst zero
    rfl
  · rw [if_neg (not_lt.mpr positive.le), if_pos positive, Int.sign_eq_one_of_pos positive]

theorem compare_integers (length : Int) (left right : List Byte) :
    compareFields .INTEGER length left right = (toInt (intOf left - intOf right)).sign := by
  unfold compareFields reccmp intOf
  rw [← sign_eq]

theorem compare_strings (length : Int) (left right : List Byte) :
    compareFields .STRING length left right =
      (memcmp (bytesAt left 0) (bytesAt right 0) 0 length.toNat).sign := by
  unfold compareFields reccmp
  rw [min_self, ← sign_eq]

theorem memcmp_shift {left right left' right' : Memory}
    (first : ∀ index, left (index + 1) = left' index)
    (second : ∀ index, right (index + 1) = right' index) (count index : Nat) :
    memcmp left right (index + 1) count = memcmp left' right' index count := by
  induction count generalizing index with
  | zero => rfl
  | succ count ih => simp only [memcmp, first, second, ih]

theorem memcmp_cons (x y : Byte) (xs ys : List Byte) (count : Nat) :
    memcmp (bytesAt (x :: xs) 0) (bytesAt (y :: ys) 0) 0 (count + 1) =
      if x.val ≠ y.val then (x.val : Int) - y.val
      else memcmp (bytesAt xs 0) (bytesAt ys 0) 0 count := by
  have shift : ∀ (z : Byte) (zs : List Byte) (index : Nat),
      bytesAt (z :: zs) 0 (index + 1) = bytesAt zs 0 index := by
    intro z zs index
    simp [bytesAt]
  rw [memcmp, memcmp_shift (shift x xs) (shift y ys)]
  rfl

/-- `memcmp` on two blocks of one length is their lexicographic order. -/
theorem memcmp_lex (xs ys : List Byte) (lengths : xs.length = ys.length) :
    (memcmp (bytesAt xs 0) (bytesAt ys 0) 0 xs.length < 0 ↔ xs < ys) ∧
      (memcmp (bytesAt xs 0) (bytesAt ys 0) 0 xs.length = 0 ↔ xs = ys) := by
  induction xs generalizing ys with
  | nil =>
      have empty : ys = [] := List.length_eq_zero_iff.mp lengths.symm
      subst empty
      simp [memcmp]
  | cons x xs ih =>
      cases ys with
      | nil => cases lengths
      | cons y ys =>
          have tails : xs.length = ys.length := Nat.succ.inj lengths
          rw [List.length_cons, memcmp_cons, List.cons_lt_cons_iff]
          by_cases equal : x = y
          · subst equal
            rw [if_neg (not_not.mpr rfl)]
            simpa using ih ys tails
          · have different : x.val ≠ y.val := fun value => equal (Fin.ext value)
            rw [if_pos different]
            simp only [equal, false_and, or_false, List.cons.injEq, iff_false, Fin.lt_def]
            omega

/-- Two numbers of the set are less than `2 ^ 31` apart. -/
def CloseIntegers (fields : Set (List Byte)) : Prop :=
  ∀ x ∈ fields, ∀ y ∈ fields, intOf x - intOf y < 2147483648

/-- Among integer fields `reccmp` is the order of the numbers if and only if no two of them
are `2 ^ 31` or more apart; among string fields of one length it is the bytewise order. -/
theorem reccmp_orders_iff_close (length : Nat) (fields : Set (List Byte))
    (sized : ∀ field ∈ fields, field.length = length) :
    (OrdersBy intOf (compareFields .INTEGER length) fields ↔ CloseIntegers fields) ∧
      OrdersBy id (compareFields .STRING length) fields := by
  constructor
  · constructor
    · intro orders x left y right
      by_contra apart
      have leftBounds := read_int_bounds (bytesAt x 0) 0
      have rightBounds := read_int_bounds (bytesAt y 0) 0
      have bounds : -4294967296 < intOf x - intOf y ∧ intOf x - intOf y < 4294967296 := by
        unfold intOf
        omega
      have overflows : ¬(-2147483648 ≤ intOf x - intOf y ∧ intOf x - intOf y < 2147483648) :=
        fun fits => apart fits.2
      have turned := (to_int_of_overflow bounds overflows).1
      have negative : compareFields .INTEGER length x y < 0 := by
        rw [compare_integers, Int.sign_neg_iff, turned]
        omega
      have less := (orders.below x left y right).mp negative
      omega
    · intro close
      have exact_ : ∀ x ∈ fields, ∀ y ∈ fields,
          toInt (intOf x - intOf y) = intOf x - intOf y := by
        intro x left y right
        have below := close x left y right
        have above := close y right x left
        exact to_int_of_fits (by omega) below
      apply orders_by_of_signs fun x _ y _ => compare_integers length x y
      · intro x left y right
        rw [exact_ x left y right]
        omega
      · intro x left y right
        rw [exact_ x left y right]
        omega
  · have lexed : ∀ x ∈ fields, ∀ y ∈ fields, _ ∧ _ := fun x left y right =>
      memcmp_lex x y ((sized x left).trans (sized y right).symm)
    apply orders_by_of_signs fun x _ y _ => compare_strings length x y
    · intro x left y right
      rw [Int.toNat_natCast, ← sized x left]
      exact (lexed x left y right).1
    · intro x left y right
      rw [Int.toNat_natCast, ← sized x left]
      exact (lexed x left y right).2

/-- Of the numbers -3 and 5, and as strings. -/
theorem reccmp_orders_two_numbers :
    OrdersBy intOf (compareFields .INTEGER 4) {intBytes (-3), intBytes 5} ∧
      OrdersBy id (compareFields .STRING 4) {intBytes (-3), intBytes 5} := by
  have laws := reccmp_orders_iff_close 4 {intBytes (-3), intBytes 5}
    (by rintro field (rfl | rfl) <;> rfl)
  refine ⟨laws.1.mpr ?_, laws.2⟩
  rintro x (rfl | rfl) y (rfl | rfl) <;> decide

/-- `2147483647` comes before `-1`. -/
theorem reccmp_is_no_order :
    ¬OrdersBy intOf (compareFields .INTEGER 4) {field | field.length = 4} := by
  intro orders
  have before := (orders.below (intBytes 2147483647) rfl (intBytes (-1)) rfl).mp (by decide)
  revert before
  decide

end PrimitiveDB

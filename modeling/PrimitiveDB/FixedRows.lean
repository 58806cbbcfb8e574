import Mathlib.Data.List.Basic
import Mathlib.Data.List.TakeDrop
import Mathlib.Tactic.Ring

/-!
# Rows of fixed width

A sequence of rows that all have the same width, written one behind the other, and the fields
of one row behind each other. Whoever knows the widths finds rows and fields again, whatever is
left over behind the last whole row.
-/

namespace FixedRows

set_option autoImplicit false

variable {α : Type}

def wholeRows (width : Nat) (data : List α) : List (List α) :=
  (List.range (data.length / width)).map fun index => (data.drop (index * width)).take width

theorem whole_rows_short {width : Nat} {data : List α} (short : data.length < width) :
    wholeRows width data = [] := by
  unfold wholeRows
  rw [Nat.div_eq_of_lt short]
  rfl

theorem whole_rows_cons {width : Nat} {data : List α} (positive : 0 < width)
    (enough : width ≤ data.length) :
    wholeRows width data = data.take width :: wholeRows width (data.drop width) := by
  have count : data.length / width = (data.length - width) / width + 1 :=
    Nat.div_eq_sub_div positive enough
  unfold wholeRows
  rw [count, List.range_succ_eq_map, List.map_cons, List.map_map, Nat.zero_mul, List.drop_zero,
    List.length_drop]
  congr 1
  apply List.map_congr_left
  intro index _
  rw [Function.comp_apply, List.drop_drop, Nat.succ_mul, Nat.add_comm]

theorem whole_rows_flatten {width : Nat} {rows : List (List α)} {rest : List α}
    (sized : ∀ row ∈ rows, row.length = width) (short : rest.length < width) :
    wholeRows width (rows.flatten ++ rest) = rows := by
  induction rows with
  | nil => exact whole_rows_short short
  | cons row rows ih =>
      have length : row.length = width := sized row List.mem_cons_self
      have later := ih fun other member => sized other (List.mem_cons_of_mem row member)
      have enough : width ≤ ((row :: rows).flatten ++ rest).length := by
        simp only [List.flatten_cons, List.length_append, length]
        omega
      rw [whole_rows_cons (by omega) enough, List.flatten_cons, List.append_assoc,
        List.take_left' length, List.drop_left' length, later]

theorem field_of_flatten (before : List (List α)) (field : List α) (behind : List (List α)) :
    ((before ++ field :: behind).flatten.drop (before.map List.length).sum).take field.length =
      field := by
  rw [List.flatten_append, List.flatten_cons, ← List.length_flatten, List.drop_left,
    List.take_left]

end FixedRows

import Mathlib

/-!
# Delimited text

Reading a stream piece by piece with `getline`, and writing pieces with a delimiter between
or behind them. The last piece need not be followed by a delimiter, and nothing follows a
delimiter at the end, so an empty last piece is not read back.
-/

namespace PrimitiveDB.DelimitedText

set_option autoImplicit false

variable {Symbol : Type} [DecidableEq Symbol]

/-- What is read up to the delimiter, and the rest behind it. It fails at the end of the
stream. -/
def getline (delim : Symbol) (stream : List Symbol) : Option (List Symbol × List Symbol) :=
  if stream = [] then none
  else some (stream.takeWhile (· ≠ delim), (stream.dropWhile (· ≠ delim)).drop 1)

def getlines (delim : Symbol) : Nat → List Symbol → List (List Symbol)
  | 0, _ => []
  | fuel + 1, stream =>
      match getline delim stream with
      | none => []
      | some (piece, rest) => piece :: getlines delim fuel rest

def pieces (delim : Symbol) (text : List Symbol) : List (List Symbol) := getlines delim text.length text

omit [DecidableEq Symbol] in
/-- The pieces with the delimiter between them; `first` tells that none has been written. -/
def separated (delim : Symbol) : Bool → List (List Symbol) → List Symbol
  | _, [] => []
  | first, piece :: rest => (if first then [] else [delim]) ++ piece ++ separated delim false rest

omit [DecidableEq Symbol] in
def terminated (delim : Symbol) (written : List (List Symbol)) : List Symbol :=
  written.flatMap (· ++ [delim])

variable {delim : Symbol} {piece rest text : List Symbol} {written : List (List Symbol)}

theorem getline_delimited (clean : delim ∉ piece) :
    getline delim (piece ++ delim :: rest) = some (piece, rest) := by
  have before : ∀ char ∈ piece, decide (char ≠ delim) = true := by
    intro char member
    simp only [ne_eq, decide_not, Bool.not_eq_true', decide_eq_false_iff_not]
    rintro rfl
    exact clean member
  rw [getline, if_neg (by simp), List.takeWhile_append_of_pos before,
    List.dropWhile_append_of_pos before]
  simp

theorem getline_last (clean : delim ∉ piece) (nonempty : piece ≠ []) :
    getline delim piece = some (piece, []) := by
  have before : ∀ char ∈ piece, decide (char ≠ delim) = true := by
    intro char member
    simp only [ne_eq, decide_not, Bool.not_eq_true', decide_eq_false_iff_not]
    rintro rfl
    exact clean member
  rw [getline, if_neg nonempty, List.takeWhile_eq_self_iff.mpr before,
    List.dropWhile_eq_nil_iff.mpr before]
  rfl

theorem getlines_nil (fuel : Nat) : getlines delim fuel [] = [] := by
  cases fuel <;> rfl

theorem getlines_delimited (clean : delim ∉ piece) (fuel : Nat) :
    getlines delim (fuel + 1) (piece ++ delim :: rest) = piece :: getlines delim fuel rest := by
  rw [getlines, getline_delimited clean]

theorem getlines_last (clean : delim ∉ piece) (nonempty : piece ≠ []) (fuel : Nat) :
    getlines delim (fuel + 1) piece = [piece] := by
  rw [getlines, getline_last clean nonempty]
  simp only [getlines_nil]

omit [DecidableEq Symbol] in
theorem separated_cons (nonempty : written ≠ []) :
    separated delim true (piece :: written) = piece ++ delim :: separated delim true written := by
  cases written with
  | nil => exact absurd rfl nonempty
  | cons next written => simp [separated]

/-- What is written with delimiters between the pieces is read back, unless the last piece is
empty. -/
theorem pieces_separated (clean : ∀ piece ∈ written, delim ∉ piece)
    (last : written.getLast? ≠ some []) : pieces delim (separated delim true written) = written := by
  have reads : ∀ fuel, (separated delim true written).length ≤ fuel →
      getlines delim fuel (separated delim true written) = written := by
    induction written with
    | nil => exact fun fuel _ => getlines_nil fuel
    | cons piece written ih =>
        intro fuel enough
        have here := clean piece (by simp)
        by_cases more : written = []
        · subst more
          have nonempty : piece ≠ [] := by simpa using last
          have single : separated delim true [piece] = piece := by simp [separated]
          rw [single] at enough ⊢
          obtain ⟨fuel, rfl⟩ := Nat.exists_eq_succ_of_ne_zero
            (Nat.ne_of_gt (lt_of_lt_of_le (List.length_pos_of_ne_nil nonempty) enough))
          exact getlines_last here nonempty fuel
        · rw [separated_cons more] at enough ⊢
          rw [List.length_append, List.length_cons] at enough
          obtain ⟨fuel, rfl⟩ := Nat.exists_eq_succ_of_ne_zero (n := fuel) (by omega)
          have rest := ih (fun other member => clean other (by simp [member]))
            (by rwa [List.getLast?_cons_of_ne_nil more] at last) fuel (by omega)
          rw [getlines_delimited here, rest]
  exact reads _ (le_refl _)

/-- What is written with delimiters behind the pieces is read back. -/
theorem pieces_terminated (clean : ∀ piece ∈ written, delim ∉ piece) :
    pieces delim (terminated delim written) = written := by
  have reads : ∀ fuel, (terminated delim written).length ≤ fuel →
      getlines delim fuel (terminated delim written) = written := by
    induction written with
    | nil => exact fun fuel _ => getlines_nil fuel
    | cons piece written ih =>
        intro fuel enough
        have split : terminated delim (piece :: written) =
            piece ++ delim :: terminated delim written := by simp [terminated]
        rw [split] at enough ⊢
        rw [List.length_append, List.length_cons] at enough
        obtain ⟨fuel, rfl⟩ := Nat.exists_eq_succ_of_ne_zero (n := fuel) (by omega)
        rw [getlines_delimited (clean piece (by simp)),
          ih (fun other member => clean other (by simp [member])) fuel (by omega)]
  exact reads _ (le_refl _)

end PrimitiveDB.DelimitedText

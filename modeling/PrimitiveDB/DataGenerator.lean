import PrimitiveDB.ByteMemory

/-!
# The data generator

`gen_data.py`. A schema string is split into fields; a field gives the name of a column, the
generator of its values, its part of the row format and its part of the DDL. The rows are packed
one behind the other. What a Python string knows about its characters, what `random` comes up
with and how a `float` is packed are parameters; the random seed, the name of the output file
and the report of the sizes are left out.
-/

namespace PrimitiveDB.DataGenerator

open ByteMemory

set_option autoImplicit false

/-- Which characters `strip` removes, and the values of those that `\d` matches. -/
structure CharTable where
  isSpace : Char → Bool
  decimal : Char → Option (Fin 10)

structure Random where
  /-- `random.shuffle` of so many items -/
  shuffle : (n : Nat) → Equiv.Perm (Fin n)
  /-- a number that is drawn for the row -/
  draw : Nat → Nat

/-- The numbers of a `real` column before they are packed: `float` of a text, or a number drawn
between two of them. -/
inductive RealValue where
  | index (i : Nat)
  | uniform (lo hi : List Char) (drawn : Nat)
  | const (v : List Char)

/-- Why there is no file. The first four end the script with a message. -/
inductive Raise where
  | rows
  | badField (field : List Char)
  | unknownType (typ field : List Char)
  | unknownPattern (pattern : List Char)
  | zeroDivision
  | emptyRange
  | overflow
  | struct
  deriving DecidableEq

def encode (text : List Char) : List Byte :=
  text.flatMap fun char => (String.utf8EncodeChar char).map fun byte => byteOf byte.toNat

def str (value : Nat) : List Char := Nat.toDigits 10 value

def split (sep : Char) : Nat → List Char → List (List Char)
  | 0, text => [text]
  | max + 1, text =>
      if sep ∈ text then
        text.takeWhile (· ≠ sep) :: split sep max ((text.dropWhile (· ≠ sep)).drop 1)
      else [text]

def literal (word text : List Char) : Option (List Char) :=
  if word.isPrefixOf text then some (text.drop word.length) else none

namespace CharTable

variable (table : CharTable)

def strip (text : List Char) : List Char :=
  (text.dropWhile table.isSpace).rdropWhile table.isSpace

def value (num : List Char) : Nat :=
  num.foldl (fun value char => value * 10 + ((table.decimal char).getD 0).val) 0

def digits (text : List Char) : Option (Nat × List Char) :=
  let num := text.takeWhile fun char => (table.decimal char).isSome
  if num = [] then none else some (table.value num, text.drop num.length)

def integer (text : List Char) : Option (Int × List Char) :=
  match literal ['-'] text with
  | some rest => (table.digits rest).map fun found => (-(found.1 : Int), found.2)
  | none => (table.digits text).map fun found => ((found.1 : Int), found.2)

/-- `(-?\d+(?:\.\d+)?)`, the text that it matches and the rest. -/
def decimalFraction (text : List Char) : Option (List Char × List Char) :=
  (table.integer text).map fun whole =>
    let rest := ((literal ['.'] whole.2).bind table.digits).elim whole.2 Prod.snd
    (text.take (text.length - rest.length), rest)

def modPattern (pattern : List Char) : Option Nat := do
  let rest ← literal ['m', 'o', 'd', '('] pattern
  let (k, rest) ← table.digits rest
  if rest = [')'] then some k else none

def randPattern (pattern : List Char) : Option (Int × Int) := do
  let rest ← literal ['r', 'a', 'n', 'd', '('] pattern
  let (lo, rest) ← table.integer rest
  let rest ← literal [','] rest
  let (hi, rest) ← table.integer rest
  if rest = [')'] then some (lo, hi) else none

def constPattern (pattern : List Char) : Option Int := do
  let rest ← literal ['c', 'o', 'n', 's', 't', '('] pattern
  let (v, rest) ← table.integer rest
  if rest = [')'] then some v else none

/-- `rand\((-?\d+(?:\.\d+)?),(-?\d+(?:\.\d+)?)\)` -/
def randRealPattern (pattern : List Char) : Option (List Char × List Char) := do
  let rest ← literal ['r', 'a', 'n', 'd', '('] pattern
  let (lo, rest) ← table.decimalFraction rest
  let rest ← literal [','] rest
  let (hi, rest) ← table.decimalFraction rest
  if rest = [')'] then some (lo, hi) else none

def constRealPattern (pattern : List Char) : Option (List Char) := do
  let rest ← literal ['c', 'o', 'n', 's', 't', '('] pattern
  let (v, rest) ← table.decimalFraction rest
  if rest = [')'] then some v else none

def charType (typ : List Char) : Option Nat := do
  let rest ← literal ['c', 'h', 'a', 'r', '('] typ
  let (width, rest) ← table.digits rest
  if rest = [')'] then some width else none

/-- One character in the loop of `split_fields`. -/
def splitStep (state : List (List Char) × Int × List Char) (ch : Char) :
    List (List Char) × Int × List Char :=
  let (fields, depth, cur) := state
  let depth := if ch = '(' then depth + 1 else if ch = ')' then depth - 1 else depth
  if ch = ',' ∧ depth = 0 then (fields ++ [cur], depth, []) else (fields, depth, cur ++ [ch])

def split_fields (s : List Char) : List (List Char) :=
  let (fields, _, cur) := s.foldl splitStep ([], 0, [])
  if table.strip cur ≠ [] then fields ++ [cur] else fields

end CharTable

inductive Cell where
  | int (value : Int)
  | real (value : RealValue)
  | bytes (text : List Byte)

inductive Format where
  | i
  | f
  | s (count : Nat)

def Format.size : Format → Nat
  | .i => 4
  | .f => 4
  | .s count => count

/-- A column: its name, `value_gen`, and what it adds to `fmt` and to `ddl`. -/
structure Column where
  name : List Char
  gen : Nat → Except Raise Cell
  fmt : Format
  ddl : List Char

section Generators

variable (table : CharTable) (random : Random)

def make_int_gen (pattern : Option (List Char)) (n : Nat) :
    Except Raise (Nat → Except Raise Cell) :=
  match pattern with
  | none => .ok fun i => .ok (.int i)
  | some pattern =>
      if pattern = ['s', 'e', 'q'] then .ok fun i => .ok (.int i)
      else if pattern = ['u', 'n', 'i', 'q'] then
        -- the array holds C integers
        if 2147483648 < n then .error .overflow
        else .ok fun i => if inside : i < n then .ok (.int (random.shuffle n ⟨i, inside⟩).val)
          else .error .overflow
      else
        match table.modPattern pattern with
        | some k => .ok fun i => if k = 0 then .error .zeroDivision else .ok (.int (i % k : Nat))
        | none =>
            match table.randPattern pattern with
            | some (lo, hi) => .ok fun i =>
                if hi < lo then .error .emptyRange
                else .ok (.int (lo + (random.draw i : Int) % (hi - lo + 1)))
            | none =>
                match table.constPattern pattern with
                | some v => .ok fun _ => .ok (.int v)
                | none => .error (.unknownPattern pattern)

def make_real_gen (pattern : Option (List Char)) : Except Raise (Nat → Except Raise Cell) :=
  match pattern with
  | none => .ok fun i => .ok (.real (.index i))
  | some pattern =>
      if pattern = ['s', 'e', 'q'] then .ok fun i => .ok (.real (.index i))
      else
        match table.randRealPattern pattern with
        | some (lo, hi) => .ok fun i => .ok (.real (.uniform lo hi (random.draw i)))
        | none =>
            match table.constRealPattern pattern with
            | some v => .ok fun _ => .ok (.real (.const v))
            | none => .error (.unknownPattern pattern)

def slice (text : List Byte) (stop : Int) : List Byte :=
  if 0 ≤ stop then text.take stop.toNat else text.take (text.length - stop.natAbs)

def make_char_gen (n : Nat) : Nat → Except Raise Cell :=
  let width := max (n - 1) 1
  fun i =>
    let shown := str (i % 10 ^ width)
    .ok (.bytes (slice (encode (List.replicate (width - shown.length) '0' ++ shown))
      ((n : Int) - 1)))

def parseField (n : Nat) (field : List Char) : Except Raise Column :=
  match split ':' 2 (table.strip field) with
  | name :: typ :: pattern =>
      let name := table.strip name
      let typ := table.strip typ
      let pattern := pattern.head?.map table.strip
      if typ = ['i', 'n', 't'] ∨ typ = ['i', 'n', 't', 'e', 'g', 'e', 'r'] then do
        let gen ← make_int_gen table random pattern n
        pure { name, gen, fmt := .i, ddl := name ++ [' ', 'i', 'n', 't'] }
      else if typ = ['r', 'e', 'a', 'l'] ∨ typ = ['f', 'l', 'o', 'a', 't'] then do
        let gen ← make_real_gen table random pattern
        pure { name, gen, fmt := .f, ddl := name ++ [' ', 'r', 'e', 'a', 'l'] }
      else
        match table.charType typ with
        | none => .error (.unknownType typ field)
        | some width => .ok
            { name, gen := make_char_gen width, fmt := .s width
              ddl := name ++ [' ', 'c', 'h', 'a', 'r', '('] ++ str width ++ [')'] }
  | _ => .error (.badField field)

end Generators

/-- The loop of `parse_schema`, from the column with this number on. -/
def parseFields (table : CharTable) (random : Nat → Random) (n : Nat) :
    Nat → List (List Char) → Except Raise (List Column)
  | _, [] => .ok []
  | number, field :: fields => do
      let column ← parseField table (random number) n field
      let columns ← parseFields table random n (number + 1) fields
      pure (column :: columns)

def parse_schema (table : CharTable) (random : Nat → Random) (s : List Char) (n : Nat) :
    Except Raise (List Column) :=
  parseFields table random n 0 (table.split_fields s)

/-- The bytes of a `float`, or none if it is out of range. -/
abbrev PackFloat := RealValue → Option (Vector Byte 4)

def packCell (packFloat : PackFloat) : Format → Cell → Except Raise (List Byte)
  | .i, .int value =>
      if -2147483648 ≤ value ∧ value < 2147483648 then .ok (intBytes value) else .error .struct
  | .f, .real value => (packFloat value).elim (.error .overflow) fun bytes => .ok bytes.toList
  | .s count, .bytes text => .ok (text.take count ++ List.replicate (count - text.length) 0)
  | _, _ => .error .struct

def packRow (packFloat : PackFloat) (columns : List Column) (i : Nat) :
    Except Raise (List Byte) := do
  let cells ← columns.mapM fun column => column.gen i
  let parts ← (columns.zip cells).mapM fun (column, cell) => packCell packFloat column.fmt cell
  pure parts.flatten

/-- The loop of `main` over the rows from `i` on: what has been written to the file, and what is
in the buffer. -/
def writeRows (packFloat : PackFloat) (columns : List Column) :
    Nat → Nat → List Byte → List Byte → Except Raise (List Byte)
  | 0, _, written, buf => .ok (written ++ buf)
  | count + 1, i, written, buf => do
      let row ← packRow packFloat columns i
      let buf := buf ++ row
      if 1048576 ≤ buf.length then writeRows packFloat columns count (i + 1) (written ++ buf) []
      else writeRows packFloat columns count (i + 1) written buf

structure Args where
  rows : Int
  schema : List Char
  table : List Char

structure Output where
  file : List Byte
  ddl : List Char
  deriving DecidableEq

/-- `f"create table {args.table} ({', '.join(ddl)});"` -/
def ddlStr (relation : List Char) (ddl : List (List Char)) : List Char :=
  ['c', 'r', 'e', 'a', 't', 'e', ' ', 't', 'a', 'b', 'l', 'e', ' '] ++ relation ++ [' ', '('] ++
    [',', ' '].intercalate ddl ++ [')', ';']

def main (table : CharTable) (random : Nat → Random) (packFloat : PackFloat) (args : Args) :
    Except Raise Output :=
  if args.rows ≤ 0 then .error .rows
  else do
    let columns ← parse_schema table random args.schema args.rows.toNat
    let file ← writeRows packFloat columns args.rows.toNat 0 [] []
    pure { file, ddl := ddlStr args.table (columns.map Column.ddl) }

theorem except_bind_ok {α β ε : Type} {first : Except ε α} {next : α → Except ε β} {value : β}
    (run : first >>= next = .ok value) : ∃ middle, first = .ok middle ∧ next middle = .ok value := by
  cases first with
  | error raised => cases run
  | ok middle => exact ⟨middle, rfl, run⟩

theorem map_m_ok_forall₂ {α β ε : Type} {f : α → Except ε β} {items : List α} {values : List β}
    (run : items.mapM f = .ok values) :
    List.Forall₂ (fun item value => f item = .ok value) items values := by
  induction items generalizing values with
  | nil =>
      cases run
      exact .nil
  | cons item items ih =>
      rw [List.mapM_cons] at run
      obtain ⟨value, here, run⟩ := except_bind_ok run
      obtain ⟨values', later, run⟩ := except_bind_ok run
      cases run
      exact .cons here (ih later)

section Rows

variable {packFloat : PackFloat} {columns : List Column}

def Column.Encodes (packFloat : PackFloat) (i : Nat) (column : Column) (part : List Byte) : Prop :=
  ∃ cell, column.gen i = .ok cell ∧ packCell packFloat column.fmt cell = .ok part

theorem pack_cell_length {fmt : Format} {cell : Cell} {part : List Byte}
    (packed : packCell packFloat fmt cell = .ok part) : part.length = fmt.size := by
  unfold packCell at packed
  split at packed
  · split at packed
    · cases packed
      rfl
    · cases packed
  · rename_i value
    cases found : packFloat value with
    | none =>
        rw [found] at packed
        cases packed
    | some bytes =>
        rw [found] at packed
        cases packed
        exact bytes.length_toList
  · cases packed
    rw [List.length_append, List.length_take, List.length_replicate, Format.size]
    omega
  · cases packed

theorem Column.Encodes.length {i : Nat} {column : Column} {part : List Byte}
    (encodes : column.Encodes packFloat i part) : part.length = column.fmt.size := by
  obtain ⟨cell, _, packed⟩ := encodes
  exact pack_cell_length packed

theorem encodes_of_packed {i : Nat} {cells : List Cell} {parts : List (List Byte)}
    (generated : List.Forall₂ (fun column cell => column.gen i = .ok cell) columns cells)
    (packed : List.Forall₂ (fun entry part => packCell packFloat entry.1.fmt entry.2 = .ok part)
      (columns.zip cells) parts) :
    List.Forall₂ (Column.Encodes packFloat i) columns parts := by
  induction generated generalizing parts with
  | nil =>
      cases packed
      exact .nil
  | cons here _ ih =>
      cases packed with
      | cons packed packeds => exact .cons ⟨_, here, packed⟩ (ih packeds)

/-- A row is made of the encoded values of its columns, in their order. -/
theorem pack_row_ok {i : Nat} {row : List Byte} (packed : packRow packFloat columns i = .ok row) :
    ∃ parts, List.Forall₂ (Column.Encodes packFloat i) columns parts ∧ row = parts.flatten := by
  unfold packRow at packed
  obtain ⟨cells, generated, packed⟩ := except_bind_ok packed
  obtain ⟨parts, encoded, packed⟩ := except_bind_ok packed
  cases packed
  exact ⟨parts, encodes_of_packed (map_m_ok_forall₂ generated) (map_m_ok_forall₂ encoded), rfl⟩

theorem write_rows_ok {count i : Nat} {written buf file : List Byte}
    (ran : writeRows packFloat columns count i written buf = .ok file) :
    ∃ rows, List.Forall₂ (fun i row => packRow packFloat columns i = .ok row)
      (List.range' i count) rows ∧ file = written ++ buf ++ rows.flatten := by
  induction count generalizing i written buf with
  | zero =>
      cases ran
      exact ⟨[], .nil, by simp⟩
  | succ count ih =>
      rw [writeRows] at ran
      obtain ⟨row, packed, ran⟩ := except_bind_ok ran
      rw [List.range'_succ]
      dsimp only at ran
      split at ran
      · obtain ⟨rows, generated, rfl⟩ := ih ran
        exact ⟨row :: rows, .cons packed generated, by simp⟩
      · obtain ⟨rows, generated, rfl⟩ := ih ran
        exact ⟨row :: rows, .cons packed generated, by simp⟩

/-- The file holds the rows one behind the other, and the DDL names the columns. -/
theorem main_ok {table : CharTable} {random : Nat → Random} {args : Args} {output : Output}
    (ran : main table random packFloat args = .ok output) :
    ∃ columns rows, parse_schema table random args.schema args.rows.toNat = .ok columns ∧
      List.Forall₂ (fun i row => packRow packFloat columns i = .ok row)
        (List.range' 0 args.rows.toNat) rows ∧
      output.file = rows.flatten ∧ output.ddl = ddlStr args.table (columns.map Column.ddl) := by
  unfold main at ran
  split at ran
  · cases ran
  · obtain ⟨columns, parsed, ran⟩ := except_bind_ok ran
    obtain ⟨file, wrote, ran⟩ := except_bind_ok ran
    obtain ⟨rows, generated, rfl⟩ := write_rows_ok wrote
    cases ran
    exact ⟨columns, rows, parsed, generated, rfl, rfl⟩

end Rows

end PrimitiveDB.DataGenerator

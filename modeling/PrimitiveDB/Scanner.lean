import PrimitiveDB.ParseTrees
import PrimitiveDB.Catalog
import PrimitiveDB.CatalogUpdates

/-!
# The scanner's strings

The helpers of `scanhelp.C`. Strings live in a pool of `MAXCHAR` characters that is emptied
between statements; a pool that is full ends the process. Identifiers are first copied in lower
case into an array of their own, of which every index that is written to is noted.
-/

namespace PrimitiveDB

open ByteMemory

set_option autoImplicit false

/-- The C string at an address of an array of `size` characters. -/
def stringAt (size : Nat) (memory : Memory) (address : Nat) : Text :=
  cString (readBytes memory address (size - address))

/-- `strncpy(copy, s, count)`: the string is cut at `count` or followed by zeros up to there. -/
def strncpy (memory : Memory) (copy : Nat) (s : Text) (count : Nat) : Memory :=
  let copied := (cString s).take count
  writeBytes memory copy (copied ++ List.replicate (count - copied.length) 0)

structure Scanner where
  charpool : Memory
  charptr : Nat

namespace Scanner

def MAXCHAR : Nat := 5000

/-- The maximum token length, by the name it has in `scanhelp.C`. -/
def MAXSTRINGLEN : Nat := 50

def string (scanner : Scanner) (address : Nat) : Text :=
  stringAt MAXCHAR scanner.charpool address

def string_alloc (scanner : Scanner) (len : Nat) : Option (Nat × Scanner) :=
  if scanner.charptr + len > MAXCHAR then none
  else some (scanner.charptr, { scanner with charptr := scanner.charptr + len })

def mk_string (scanner : Scanner) (s : Text) (len : Nat) : Option (Nat × Scanner) := do
  let (copy, scanner) ← scanner.string_alloc (len + 1)
  some (copy, { scanner with charpool := strncpy scanner.charpool copy s (len + 1) })

/-- The ending quote is replaced by a terminator, and everything following the beginning quote
is copied. -/
def get_qstring (scanner : Scanner) (qstring : List Byte) (len : Nat) : Option (Nat × Scanner) :=
  scanner.mk_string ((qstring.set (len - 1) 0).drop 1) (len - 2)

def scanAll : List Text → Scanner → Option Scanner
  | [], scanner => some scanner
  | s :: later, scanner => do
      let (_, scanner) ← scanner.mk_string s s.length
      scanAll later scanner

/-- A string with its terminator lies at the address, in front of `charptr`. -/
structure Keeps (scanner : Scanner) (address : Nat) (text : Text) : Prop where
  bytes : readBytes scanner.charpool address (text.length + 1) = text ++ [0]
  below : address + text.length + 1 ≤ scanner.charptr
  inside : scanner.charptr ≤ MAXCHAR

section Pool

variable {scanner scanner' : Scanner} {address copy len : Nat} {s text : Text}

theorem mk_string_some (made : scanner.mk_string s len = some (copy, scanner')) :
    copy = scanner.charptr ∧ scanner.charptr + (len + 1) ≤ MAXCHAR ∧
      scanner' = { charptr := scanner.charptr + (len + 1)
                   charpool := strncpy scanner.charpool scanner.charptr s (len + 1) } := by
  unfold mk_string string_alloc at made
  split at made
  · cases made
  · cases made
    exact ⟨rfl, by omega, rfl⟩

theorem mk_string_room (scanner : Scanner) (s : Text) {len : Nat}
    (room : scanner.charptr + (len + 1) ≤ MAXCHAR) :
    ∃ scanner', scanner.mk_string s len = some (scanner.charptr, scanner') := by
  unfold mk_string string_alloc
  rw [if_neg (by omega)]
  exact ⟨_, rfl⟩

theorem read_bytes_add (memory : Memory) (start count more : Nat) :
    readBytes memory start (count + more) =
      readBytes memory start count ++ readBytes memory (start + count) more := by
  unfold readBytes
  rw [List.range_add, List.map_append, List.map_map]
  simp [Function.comp_def, Nat.add_assoc]

theorem c_string_ended (text rest : List Byte) (terminated : 0 ∉ text) :
    cString (text ++ 0 :: rest) = text := by
  unfold cString
  rw [List.takeWhile_append_of_pos]
  · simp
  · intro byte member
    simp only [ne_eq, decide_not, Bool.not_eq_true', decide_eq_false_iff_not]
    rintro rfl
    exact terminated member

theorem c_string_whole {text : List Byte} (terminated : 0 ∉ text) : cString text = text := by
  unfold cString
  apply List.takeWhile_eq_self_iff.mpr
  intro byte member
  simp only [ne_eq, decide_not, Bool.not_eq_true', decide_eq_false_iff_not]
  rintro rfl
  exact terminated member

theorem Keeps.string (keeps : scanner.Keeps address text) (terminated : 0 ∉ text) :
    scanner.string address = text := by
  have below := keeps.below
  have inside := keeps.inside
  have split : MAXCHAR - address = (text.length + 1) + (MAXCHAR - address - (text.length + 1)) := by
    omega
  unfold Scanner.string stringAt
  rw [split, read_bytes_add, keeps.bytes, List.append_assoc, List.singleton_append]
  exact c_string_ended text _ terminated

theorem Keeps.mk_string (keeps : scanner.Keeps address text)
    (made : scanner.mk_string s len = some (copy, scanner')) : scanner'.Keeps address text := by
  obtain ⟨_, room, rfl⟩ := mk_string_some made
  have below := keeps.below
  refine ⟨?_, by dsimp only; omega, room⟩
  rw [← keeps.bytes]
  apply read_bytes_congr
  intro index bound
  apply write_bytes_outside
  left
  omega

theorem Keeps.scan_all (later : List Text) (keeps : scanner.Keeps address text)
    (scanned : scanAll later scanner = some scanner') : scanner'.Keeps address text := by
  induction later generalizing scanner with
  | nil =>
      cases scanned
      exact keeps
  | cons s later ih =>
      unfold scanAll at scanned
      cases made : scanner.mk_string s s.length with
      | none =>
          rw [made] at scanned
          cases scanned
      | some result =>
          obtain ⟨copy, scanner₁⟩ := result
          rw [made] at scanned
          exact ih (keeps.mk_string made) scanned

theorem mk_string_keeps (read : cString s = text)
    (made : scanner.mk_string s text.length = some (copy, scanner')) :
    scanner'.Keeps copy text := by
  obtain ⟨rfl, room, rfl⟩ := mk_string_some made
  refine ⟨?_, by dsimp only; omega, room⟩
  have copied : (cString s).take (text.length + 1) = text := by
    rw [read, List.take_of_length_le (by omega)]
  have written : text ++ List.replicate (text.length + 1 - text.length) 0 = text ++ [0] := by simp
  unfold strncpy
  dsimp only
  rw [copied, written]
  have length : text.length + 1 = (text ++ [0]).length := by simp
  rw [length]
  exact read_bytes_write_same _ _ _

theorem get_qstring_eq (scanner : Scanner) (lit : Text) :
    scanner.get_qstring (34 :: lit ++ [34]) (lit.length + 2) =
      scanner.mk_string (lit ++ [0]) lit.length := by
  unfold get_qstring
  congr 1
  have last : lit.length + 2 - 1 = lit.length + 1 := by omega
  rw [last, List.cons_append, List.set_cons_succ, List.drop_one, List.tail_cons,
    List.set_append_right _ _ (Nat.le_refl _), Nat.sub_self]
  rfl

end Pool

structure Scratch where
  memory : Memory
  written : List Nat

def Scratch.put (array : Scratch) (index : Nat) (byte : Byte) : Scratch :=
  { memory := Function.update array.memory index byte, written := array.written ++ [index] }

def lowerCase (byte : Byte) : Byte := if 65 ≤ byte ∧ byte ≤ 90 then byte + 32 else byte

def lower (max : Nat) : Nat → Text → Scratch → Nat × Scratch
  | len, [], dst => (len, dst.put len 0)
  | len, byte :: src, dst =>
      if len < max then lower max (len + 1) src (dst.put len (lowerCase byte))
      else (len, dst.put len 0)

def reservedWords : List Text :=
  ["select", "insert", "delete", "create", "destroy", "buildindex", "rebuildindex", "dropindex",
    "load", "print", "help", "quit", "into", "where", "primary", "numbuckets", "all", "from", "as",
    "table", "and", "or", "not", "values", "int", "real", "char"].map fun word =>
      word.toList.map fun char => byteOf char.toNat

inductive Identifier where
  | NOTOKEN
  | reserved (word : Text)
  | T_STRING (address : Nat)

def get_id (scanner : Scanner) (string : Scratch) (s : Text) :
    Scratch × Option (Identifier × Scanner) :=
  let (len, string) := lower MAXSTRINGLEN 0 s string
  (string,
    if len = MAXSTRINGLEN then some (.NOTOKEN, scanner)
    else
      match reservedWords.find? fun word => stringAt MAXSTRINGLEN string.memory 0 = word with
      | some word => some (.reserved word, scanner)
      | none => do
          let (address, scanner) ← scanner.mk_string s len
          some (.T_STRING address, scanner))

/-- The array is written to up to the terminator, which has its place in it exactly if the
identifier is shorter than the array. -/
theorem lower_inside_iff {max : Nat} (src : Text) {len : Nat} {dst : Scratch} (begun : len ≤ max)
    (inside : ∀ index ∈ dst.written, index < max) :
    (∀ index ∈ (lower max len src dst).2.written, index < max) ↔ len + src.length < max := by
  induction src generalizing len dst with
  | nil =>
      simp only [lower, Scratch.put, List.forall_mem_append, List.forall_mem_singleton,
        List.length_nil, Nat.add_zero]
      exact and_iff_right inside
  | cons byte src ih =>
      unfold lower
      by_cases more : len < max
      · have next : ∀ index ∈ (dst.put len (lowerCase byte)).written, index < max := by
          rw [Scratch.put, List.forall_mem_append, List.forall_mem_singleton]
          exact ⟨inside, more⟩
        rw [if_pos more, ih (by omega) next, List.length_cons]
        omega
      · rw [if_neg more]
        apply iff_of_false
        · intro all
          have last := all len (List.mem_append_right _ List.mem_cons_self)
          exact more last
        · omega

theorem get_id_inside_iff (scanner : Scanner) (memory : Memory) (s : Text) :
    (∀ index ∈ (scanner.get_id ⟨memory, []⟩ s).1.written, index < MAXSTRINGLEN) ↔
      s.length < MAXSTRINGLEN := by
  have inside : (∀ index ∈ (lower MAXSTRINGLEN 0 s ⟨memory, []⟩).2.written,
      index < MAXSTRINGLEN) ↔ 0 + s.length < MAXSTRINGLEN :=
    lower_inside_iff s (Nat.zero_le _) (by simp)
  rw [Nat.zero_add] at inside
  exact inside

end Scanner

end PrimitiveDB

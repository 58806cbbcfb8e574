import PrimitiveDB.NodePool

/-!
# Column types

A column type travels from the grammar to the interpreter as one `int`: one value stands
for `int`, one for `real`, and the others for the length of a string. The length is what
`sscanf` makes of the literal between the parentheses, so the statement decides which of
the three is meant only as far as the values are kept apart.
-/

namespace PrimitiveDB

open Grammar ByteMemory

set_option autoImplicit false

/-- `s_num` of the scanner: digits behind an optional sign, `true` for a minus. -/
structure IntLiteral where
  sign : Option Bool
  num : List (Fin 10)
  nonempty : num ≠ []

namespace IntLiteral

def digit (value : Fin 10) : Byte := ⟨48 + value.val, by omega⟩

def text (literal : IntLiteral) : Text :=
  (literal.sign.map fun negative => if negative then (45 : Byte) else 43).toList ++
    literal.num.map digit

/-- The number that the digits write behind those of `value`. -/
def magnitude (num : List (Fin 10)) (value : Nat) : Nat :=
  num.foldl (fun value digit => value * 10 + digit.val) value

def value (literal : IntLiteral) : Int :=
  if literal.sign = some true then -(magnitude literal.num 0 : Int) else magnitude literal.num 0

/-- `yylval.ival`: `sscanf` with `%d` converts as `atoi` does. -/
def ival (literal : IntLiteral) : Int := Literal.atoi literal.text

theorem digit_value (value : Fin 10) : Literal.digitValue 10 (digit value) = some value.val := by
  revert value
  decide

theorem digits_num (num : List (Fin 10)) (value count : Nat) :
    Literal.digits 10 value count (num.map digit) =
      (magnitude num value, count + num.length, []) := by
  induction num generalizing value count with
  | nil => rfl
  | cons first num ih =>
      rw [List.map_cons, Literal.digits, digit_value]
      simp only [ih, magnitude, List.foldl_cons, List.length_cons]
      rw [Nat.add_assoc, Nat.add_comm 1]

theorem digit_plain (value : Fin 10) :
    Literal.isSpace (digit value) = false ∧ digit value ≠ 45 ∧ digit value ≠ 43 := by
  revert value
  decide

theorem sign_text (literal : IntLiteral) :
    Literal.sign (literal.text.dropWhile Literal.isSpace) =
      (decide (literal.sign = some true), literal.num.map digit) := by
  obtain ⟨sign, num, nonempty⟩ := literal
  rcases sign with _ | _ | _
  · cases num with
    | nil => exact absurd rfl nonempty
    | cons first num =>
        obtain ⟨plain, minus, plus⟩ := digit_plain first
        simp [text, plain, Literal.sign, minus, plus]
  · have plain : Literal.isSpace 43 = false := by decide
    simp [text, plain, Literal.sign]
  · have plain : Literal.isSpace 45 = false := by decide
    simp [text, plain, Literal.sign]

/-- The number that is read: cut to a `long` at its ends, and to an `int` by its lower half. -/
theorem ival_eq (literal : IntLiteral) : literal.ival =
    toInt (max (-9223372036854775808) (min 9223372036854775807 literal.value)) := by
  unfold ival Literal.atoi
  rw [sign_text]
  simp only [digits_num, decide_eq_true_eq, value]

theorem ival_of_int (literal : IntLiteral) (lower : -2147483648 ≤ literal.value)
    (upper : literal.value ≤ 2147483647) : literal.ival = literal.value := by
  rw [ival_eq, min_eq_right (by omega), max_eq_right (by omega)]
  exact Int.bmod_eq_of_le (by omega) (by omega)

end IntLiteral

/-- A column of `create table` as it is written. The length of a string may be any value. -/
inductive Column where
  | int (attrname : Text)
  | real (attrname : Text)
  | char (attrname : Text) (length : IntLiteral)
  | charReal (attrname : Text) (length : List Byte)
  | charString (attrname : Text) (length : Text)
  | charDefault (attrname : Text)

namespace Column

def scanned : Column → Attrtype
  | int attrname => .int attrname
  | real attrname => .real attrname
  | char attrname length => .char attrname (.INTEGER length.ival)
  | charReal attrname length => .char attrname (.FLOAT length)
  | charString attrname length => .char attrname (.STRING length)
  | charDefault attrname => .charDefault attrname

/-- The type and the length that are written; of a length that is no integer, what the code
takes it for. -/
def declared (address : Text → Int) : Column → Option (Datatype × Int)
  | int _ => some (.INTEGER, 4)
  | real _ => some (.FLOAT, 4)
  | char _ length =>
      if 1 ≤ length.value ∧ length.value ≤ 255 then some (.STRING, length.value) else none
  | charReal attrname length =>
      parse_format_string ((charReal attrname length).scanned.format address)
  | charString attrname length =>
      parse_format_string ((charString attrname length).scanned.format address)
  | charDefault _ => some (.STRING, 2)

/-- A length that is read as one of the two codes, or as the length of another string. -/
def Misread : Column → Prop
  | char _ length => length.ival = 105 - 128 ∨ length.ival = 102 - 128 ∨
      1 ≤ length.ival ∧ length.ival ≤ 255 ∧ length.ival ≠ length.value
  | _ => False

def Refused (address : Text → Int) (column : Column) : Prop :=
  column.scanned.format address ≠ 105 - 128 ∧ column.scanned.format address ≠ 102 - 128 ∧
    ¬(1 ≤ column.scanned.format address ∧ column.scanned.format address ≤ 255)

theorem refused_iff (address : Text → Int) (column : Column) :
    column.Refused address ↔ parse_format_string (column.scanned.format address) = none := by
  unfold Refused parse_format_string
  generalize column.scanned.format address = format
  constructor
  · intro ⟨notInt, notReal, notLength⟩
    rw [if_neg notInt, if_neg notReal, if_neg (by omega)]
  · intro refused
    split at refused
    · cases refused
    · split at refused
      · cases refused
      · split at refused
        · cases refused
        · omega

/-- A column that is refused has been declared with an impossible length. -/
theorem declared_of_refused {address : Text → Int} {column : Column}
    (refused : column.Refused address) : column.declared address = none := by
  have undecoded := (refused_iff address column).mp refused
  cases column with
  | int attrname => exact absurd rfl refused.1
  | real attrname => exact absurd rfl refused.2.1
  | charDefault attrname =>
      have outside : ¬((1 : Int) ≤ 2 ∧ (2 : Int) ≤ 255) := refused.2.2
      exact absurd (by decide) outside
  | charReal attrname length => exact undecoded
  | charString attrname length => exact undecoded
  | char attrname length =>
      have outside : ¬(1 ≤ length.ival ∧ length.ival ≤ 255) := refused.2.2
      apply if_neg
      intro ⟨lower, upper⟩
      rw [length.ival_of_int (by omega) (by omega)] at outside
      exact outside ⟨lower, upper⟩

/-- A column that is not refused is taken for what it was declared as, unless its length is
misread. -/
theorem decoded_iff {address : Text → Int} {column : Column}
    (accepted : ¬column.Refused address) :
    parse_format_string (column.scanned.format address) = column.declared address ↔
      ¬column.Misread := by
  cases column with
  | int attrname => simp [Misread, declared, scanned, Attrtype.format, parse_format_string]
  | real attrname => simp [Misread, declared, scanned, Attrtype.format, parse_format_string]
  | charDefault attrname =>
      simp [Misread, declared, scanned, Attrtype.format, parse_format_string]
  | charReal attrname length => simp [Misread, declared]
  | charString attrname length => simp [Misread, declared]
  | char attrname length =>
      have codes : length.ival = 105 - 128 ∨ length.ival = 102 - 128 ∨
          1 ≤ length.ival ∧ length.ival ≤ 255 := by
        by_contra none_
        simp only [not_or] at none_
        exact accepted none_
      change parse_format_string length.ival = (if _ then _ else _) ↔ ¬(_ ∨ _ ∨ _)
      unfold parse_format_string
      rcases codes with code | code | ⟨lower, upper⟩
      · rw [if_pos code]
        split <;> simp [code]
      · rw [if_neg (by omega), if_pos code]
        split <;> simp [code]
      · rw [if_neg (by omega), if_neg (by omega), if_pos ⟨upper, lower⟩]
        by_cases same : length.ival = length.value
        · rw [if_pos (by omega), same]
          constructor
          · omega
          · exact fun _ => rfl
        · constructor
          · intro decoded
            split at decoded
            · exact absurd (congrArg Prod.snd (Option.some.inj decoded)) same
            · cases decoded
          · omega

def described (address : Text → Int) (column : Column) : Option (Text × Datatype × Int) :=
  (column.declared address).map fun declared => (column.scanned.attrname, declared)

theorem descr_eq_iff {address : Text → Int} {column : Column}
    (accepted : ¬column.Refused address) :
    column.scanned.descr address = column.described address ↔ ¬column.Misread := by
  rw [← decoded_iff accepted]
  unfold Attrtype.descr described
  constructor
  · intro same
    exact Option.map_injective (Prod.mk_right_injective column.scanned.attrname) same
  · intro same
    rw [same]

end Column

section Lists

variable {α β : Type} {f g : α → Option β} {items : List α}

theorem map_m_eq_none {item : α} (member : item ∈ items) (missing : f item = none) :
    items.mapM f = none := by
  induction items with
  | nil => cases member
  | cons first items ih =>
      rw [List.mapM_cons]
      rcases List.mem_cons.mp member with rfl | later
      · rw [missing]
        rfl
      · rw [ih later]
        cases f first <;> rfl

theorem map_m_cons_eq_some {first : α} {values : List β} :
    (first :: items).mapM f = some values ↔
      ∃ value rest, f first = some value ∧ items.mapM f = some rest ∧ values = value :: rest := by
  rw [List.mapM_cons]
  rcases f first with _ | value
  · simp
  · rcases items.mapM f with _ | rest
    · simp
    · simp [eq_comm]

theorem map_m_some (total : ∀ item ∈ items, ∃ value, f item = some value) :
    ∃ values, items.mapM f = some values := by
  induction items with
  | nil => exact ⟨[], rfl⟩
  | cons first items ih =>
      obtain ⟨value, found⟩ := total first (by simp)
      obtain ⟨rest, founds⟩ := ih fun item member => total item (by simp [member])
      exact ⟨value :: rest, map_m_cons_eq_some.mpr ⟨value, rest, found, founds, rfl⟩⟩

theorem map_m_congr_iff (total : ∀ item ∈ items, ∃ value, f item = some value) :
    items.mapM f = items.mapM g ↔ ∀ item ∈ items, f item = g item := by
  induction items with
  | nil => simp
  | cons first items ih =>
      have later : ∀ item ∈ items, ∃ value, f item = some value :=
        fun item member => total item (by simp [member])
      obtain ⟨value, found⟩ := total first (by simp)
      obtain ⟨rest, founds⟩ := map_m_some later
      have here := map_m_cons_eq_some.mpr ⟨value, rest, found, founds, rfl⟩
      rw [here, eq_comm, map_m_cons_eq_some, List.forall_mem_cons, found, ← ih later, founds]
      constructor
      · rintro ⟨value', rest', found', founds', same⟩
        obtain ⟨rfl, rfl⟩ := List.cons.inj same
        exact ⟨found'.symm, founds'.symm⟩
      · rintro ⟨found', founds'⟩
        exact ⟨value, rest, found'.symm, founds'.symm, rfl⟩

end Lists

/-- What `mk_attr_descrs` has to make of the columns: each as it is declared, and nothing if
one cannot be or there are too many. -/
def declaredAll (address : Text → Int) (columns : CommaList Column) :
    Option (List (Text × Datatype × Int)) :=
  if columns.toList.length < MAXATTRS then columns.toList.mapM (Column.described address)
  else none

/-- The columns of a statement that has been parsed are described as they are declared exactly
if none of them has a length that is misread, or the list is refused anyway. -/
theorem mk_attr_descrs_declared_iff (address : Text → Int) (relname : Text)
    (columns : CommaList Column) (primary : Option (Text × Int)) {relname' : Text}
    {attrlist primattr : NODE} {taken : Nat}
    (parsed : (Command.create relname (columns.map Column.scanned) primary).action address 0 =
      .ok (.CREATE relname' attrlist primattr, taken)) :
    attrDescrs attrlist 0 = .ok (declaredAll address columns) ↔
      (∀ column ∈ columns.toList, ¬column.Misread) ∨
        MAXATTRS ≤ columns.toList.length ∨ ∃ column ∈ columns.toList, column.Refused address := by
  have tree := (Command.create_takes address relname _ primary).value_eq parsed
  obtain ⟨_, rfl, _⟩ := NODE.CREATE.inj tree
  rw [attr_descrs_node address _ (by decide), CommaList.to_list_map, List.length_map, Nat.zero_add,
    List.mapM_map]
  unfold declaredAll
  by_cases few : columns.toList.length < MAXATTRS
  · rw [if_pos few, if_pos few, Except.ok.injEq]
    by_cases accepted : ∀ column ∈ columns.toList, ¬column.Refused address
    · -- every column is decoded, so the lists agree if the columns do
      have decoded : ∀ column ∈ columns.toList, ∃ descr,
          (Attrtype.descr address ∘ Column.scanned) column = some descr := by
        intro column member
        have found := mt (Column.refused_iff address column).mpr (accepted column member)
        obtain ⟨format, found⟩ := Option.ne_none_iff_exists'.mp found
        exact ⟨(column.scanned.attrname, format), by simp [Attrtype.descr, found]⟩
      rw [map_m_congr_iff decoded]
      constructor
      · intro same
        exact .inl fun column member =>
          (Column.descr_eq_iff (accepted column member)).mp (same column member)
      · rintro (read | many | ⟨column, member, refused⟩) other present
        · exact (Column.descr_eq_iff (accepted other present)).mpr (read other present)
        · omega
        · exact absurd refused (accepted column member)
    · simp only [not_forall, not_not] at accepted
      obtain ⟨column, member, refused⟩ := accepted
      have undecoded : (Attrtype.descr address ∘ Column.scanned) column = none := by
        simp [Attrtype.descr, (Column.refused_iff address column).mp refused]
      have undeclared : column.described address = none := by
        simp [Column.described, Column.declared_of_refused refused]
      rw [map_m_eq_none member undecoded, map_m_eq_none member undeclared]
      exact ⟨fun _ => .inr (.inr ⟨column, member, refused⟩), fun _ => rfl⟩
  · rw [if_neg few, if_neg few]
    exact ⟨fun _ => .inr (.inl (by omega)), fun _ => rfl⟩

theorem zero_lt_ten : 0 < 10 := by decide

theorem two_lt_ten : 2 < 10 := by decide

theorem three_lt_ten : 3 < 10 := by decide

def twenty : IntLiteral :=
  { sign := none, num := [⟨2, two_lt_ten⟩, ⟨0, zero_lt_ten⟩], nonempty := List.cons_ne_nil _ _ }

def sampleColumns : CommaList Column := .cons (.int [97]) (.single (.char [98] twenty))

theorem mk_attr_descrs_declared_iff_sample :
    attrDescrs ((sampleColumns.map Column.scanned).node (Attrtype.node fun _ => 0)) 0 =
      .ok (some [([97], .INTEGER, 4), ([98], .STRING, 20)]) := by
  have parsed := (Command.create_takes (fun _ => 0) [116] (sampleColumns.map Column.scanned)
    none).run
  rw [if_pos (by decide)] at parsed
  have declared := mk_attr_descrs_declared_iff (fun _ => 0) [116] sampleColumns none parsed
  have read : ∀ column ∈ sampleColumns.toList, ¬column.Misread := by
    have value : twenty.value = 20 := rfl
    have ival : twenty.ival = 20 := twenty.ival_of_int (by decide) (by decide)
    simp [sampleColumns, CommaList.toList, Column.Misread, value, ival]
  exact declared.mpr (.inl read)

def minusTwentyThree : IntLiteral :=
  { sign := some true, num := [⟨2, two_lt_ten⟩, ⟨3, three_lt_ten⟩]
    nonempty := List.cons_ne_nil _ _ }

/-- `a char(-23)` makes a column of type `int`. -/
theorem negative_length_taken_for_int :
    ∃ attrlist taken,
      (Command.create [116] (CommaList.map Column.scanned (.single (.char [97] minusTwentyThree)))
        none).action (fun _ => 0) 0 = .ok (.CREATE [116] attrlist .NULL, taken) ∧
      attrDescrs attrlist 0 = .ok (some [([97], .INTEGER, 4)]) ∧
      declaredAll (fun _ => 0) (.single (.char [97] minusTwentyThree)) = none :=
  ⟨_, _, rfl, rfl, rfl⟩

end PrimitiveDB

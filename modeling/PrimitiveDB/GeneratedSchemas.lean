import PrimitiveDB.DataGenerator
import PrimitiveDB.Lexer
import PrimitiveDB.TypeFormats

/-!
# What a printed DDL says

The DDL of a schema is read by the scanner of the database. If its names are identifiers, the
tokens are those of the columns, and the only `create table` that has them declares exactly the
columns of the schema.
-/

namespace PrimitiveDB

open ByteMemory Grammar Lexer

set_option autoImplicit false

namespace DataGenerator

def IsIdentifier (name : List Char) : Prop :=
  ∃ first rest, name = first :: rest ∧ first.isAlpha = true ∧
    ∀ char ∈ rest, char.isAlphanum = true ∨ char = '_'

theorem encode_append (left right : List Char) :
    encode (left ++ right) = encode left ++ encode right :=
  List.flatMap_append

theorem encode_ascii {text : List Char} (ascii : ∀ char ∈ text, char.toNat < 128) :
    encode text = text.map fun char => byteOf char.toNat := by
  induction text with
  | nil => rfl
  | cons char text ih =>
      have small := ascii char List.mem_cons_self
      have single : String.utf8EncodeChar char = [char.val.toUInt8] := by
        apply String.utf8EncodeChar_eq_singleton
        rw [Char.utf8Size_eq_one_iff, UInt32.le_iff_toNat_le]
        exact Nat.le_of_lt_succ small
      have byte : char.val.toUInt8.toNat = char.toNat := by
        rw [UInt32.toNat_toUInt8]
        exact Nat.mod_eq_of_lt (small.trans (by decide))
      rw [← List.singleton_append, encode_append, List.map_append,
        ih fun other member => ascii other (List.mem_cons_of_mem char member)]
      simp only [encode, List.flatMap_cons, single, List.map_cons, List.map_nil, byte,
        List.flatMap_nil, List.append_nil]

theorem byte_of_ascii {char : Char} (ascii : char.toNat < 128) :
    (byteOf char.toNat).val = char.toNat := by
  simp only [byteOf]
  omega

theorem alpha_letter {char : Char} (alpha : char.isAlpha = true) :
    char.toNat < 128 ∧ isLetter (byteOf char.toNat) = true := by
  simp only [Char.isAlpha, Char.isUpper, Char.isLower, Bool.or_eq_true, Bool.and_eq_true,
    decide_eq_true_eq, UInt32.le_iff_toNat_le] at alpha
  have bounds : (65 ≤ char.toNat ∧ char.toNat ≤ 90) ∨ (97 ≤ char.toNat ∧ char.toNat ≤ 122) := by
    rcases alpha with upper | lower
    · exact .inl upper
    · exact .inr lower
  have ascii : char.toNat < 128 := by omega
  refine ⟨ascii, ?_⟩
  simp only [isLetter, decide_eq_true_eq, Fin.le_def, byte_of_ascii ascii]
  exact bounds

theorem digit_digit {char : Char} (digit : char.isDigit = true) :
    char.toNat < 128 ∧ isDigit (byteOf char.toNat) = true := by
  simp only [Char.isDigit, Bool.and_eq_true, decide_eq_true_eq, UInt32.le_iff_toNat_le] at digit
  have bounds : 48 ≤ char.toNat ∧ char.toNat ≤ 57 := digit
  have ascii : char.toNat < 128 := by omega
  refine ⟨ascii, ?_⟩
  simp only [isDigit, decide_eq_true_eq, Fin.le_def, byte_of_ascii ascii]
  exact bounds

theorem id_char {char : Char} (allowed : char.isAlphanum = true ∨ char = '_') :
    char.toNat < 128 ∧ isIdChar (byteOf char.toNat) = true := by
  unfold isIdChar
  rcases allowed with alphanum | rfl
  · rcases (Bool.or_eq_true _ _).mp alphanum with alpha | digit
    · obtain ⟨ascii, letter⟩ := alpha_letter alpha
      simp [ascii, letter]
    · obtain ⟨ascii, digit⟩ := digit_digit digit
      simp [ascii, digit]
  · decide

theorem IsIdentifier.encoded {name : List Char} (named : IsIdentifier name) :
    ∃ first word, encode name = first :: word ∧ isLetter first = true ∧
      ∀ char ∈ word, isIdChar char = true := by
  obtain ⟨first, rest, rfl, alpha, chars⟩ := named
  obtain ⟨ascii, letter⟩ := alpha_letter alpha
  have small : ∀ char ∈ first :: rest, char.toNat < 128 := by
    rw [List.forall_mem_cons]
    exact ⟨ascii, fun char member => (id_char (chars char member)).1⟩
  refine ⟨byteOf first.toNat, rest.map fun char => byteOf char.toNat, ?_, letter, ?_⟩
  · rw [encode_ascii small, List.map_cons]
  · rw [List.forall_mem_map]
    exact fun char member => (id_char (chars char member)).2

theorem id_char_ne_zero {char : Byte} (allowed : isIdChar char = true) : char ≠ 0 := by
  rintro rfl
  exact absurd allowed (by decide)

theorem IsIdentifier.terminated {name : List Char} (named : IsIdentifier name) :
    0 ∉ encode name := by
  obtain ⟨first, word, encoded, letter, chars⟩ := named.encoded
  rw [encoded]
  intro member
  rcases List.mem_cons.mp member with same | later
  · rw [← same] at letter
    exact absurd letter (by decide)
  · exact id_char_ne_zero (chars 0 later) rfl

theorem IsIdentifier.encode_ne_nil {name : List Char} (named : IsIdentifier name) :
    encode name ≠ [] := by
  obtain ⟨first, word, encoded, _⟩ := named.encoded
  rw [encoded]
  exact List.cons_ne_nil _ _

theorem digits_shown {chars : List Char} (digits : ∀ char ∈ chars, char.isDigit = true)
    (value count : Nat) :
    Literal.digits 10 value count (chars.map fun char => byteOf char.toNat) =
      (Nat.ofDigitChars 10 chars value, count + chars.length, []) := by
  induction chars generalizing value count with
  | nil => rfl
  | cons char chars ih =>
      have digit := digits char List.mem_cons_self
      obtain ⟨ascii, _⟩ := digit_digit digit
      simp only [Char.isDigit, Bool.and_eq_true, decide_eq_true_eq, UInt32.le_iff_toNat_le] at digit
      have bounds : 48 ≤ char.toNat ∧ char.toNat ≤ 57 := digit
      have value' : Literal.digitValue 10 (byteOf char.toNat) = some (char.toNat - 48) := by
        have lower : (48 : Byte) ≤ byteOf char.toNat := by
          rw [Fin.le_def, byte_of_ascii ascii]
          exact bounds.1
        have upper : byteOf char.toNat ≤ (57 : Byte) := by
          rw [Fin.le_def, byte_of_ascii ascii]
          exact bounds.2
        unfold Literal.digitValue
        rw [if_pos ⟨lower, upper⟩, byte_of_ascii ascii]
        simp only [Option.filter_some, decide_eq_true_eq]
        rw [if_pos (by omega)]
      rw [List.map_cons, Literal.digits, value']
      simp only [ih fun other member => digits other (List.mem_cons_of_mem char member),
        Nat.ofDigitChars_cons, List.length_cons, Nat.mul_comm value 10, Prod.mk.injEq, and_true]
      exact ⟨rfl, by omega⟩

theorem str_digits (value : Nat) : ∀ char ∈ str value, char.isDigit = true :=
  fun _ member => Nat.isDigit_of_mem_toDigits (by decide) (by decide) member

theorem encode_str (value : Nat) :
    ∃ first digits, encode (str value) = first :: digits ∧ isDigit first = true ∧
      (∀ char ∈ digits, isDigit char = true) ∧
      (value < 2147483648 → Literal.atoi (first :: digits) = value) := by
  have encoded : encode (str value) = (str value).map fun char => byteOf char.toNat :=
    encode_ascii fun char member => (digit_digit (str_digits value char member)).1
  have read := digits_shown (str_digits value) 0 0
  have all : ∀ char ∈ encode (str value), isDigit char = true := by
    rw [encoded, List.forall_mem_map]
    exact fun char member => (digit_digit (str_digits value char member)).2
  rw [← encoded] at read
  cases shown : encode (str value) with
  | nil =>
      rw [encoded, List.map_eq_nil_iff] at shown
      exact absurd shown Nat.toDigits_ne_nil
  | cons first digits =>
      rw [shown] at read all
      obtain ⟨digit, digits'⟩ := List.forall_mem_cons.mp all
      refine ⟨first, digits, rfl, digit, digits', ?_⟩
      intro small
      obtain ⟨_, _, _, _, plus, minus⟩ := digit_plain digit
      have noSpace : Literal.isSpace first = false := by
        clear read all shown encoded minus plus
        revert first
        decide +kernel
      unfold Literal.atoi
      rw [List.dropWhile_cons_of_neg (by simp [noSpace]), Literal.sign, if_neg minus, if_neg plus]
      simp only [read, str, Nat.ofDigitChars_ten_toDigits]
      rw [if_neg (by decide), min_eq_right (by omega), max_eq_right (by omega)]
      exact Int.bmod_eq_of_le (by omega) (by omega)

def Format.typeText : Format → List Char
  | .i => ['i', 'n', 't']
  | .f => ['r', 'e', 'a', 'l']
  | .s width => ['c', 'h', 'a', 'r', '('] ++ str width ++ [')']

theorem parse_field_ddl {table : CharTable} {random : Random} {n : Nat} {field : List Char}
    {column : Column} (parsed : parseField table random n field = .ok column) :
    column.ddl = column.name ++ ' ' :: column.fmt.typeText := by
  unfold parseField at parsed
  split at parsed
  · dsimp only at parsed
    split_ifs at parsed
    · obtain ⟨gen, _, made⟩ := except_bind_ok parsed
      cases made
      rfl
    · obtain ⟨gen, _, made⟩ := except_bind_ok parsed
      cases made
      rfl
    · split at parsed
      · cases parsed
      · cases parsed
        simp [Format.typeText]
  · cases parsed

theorem parse_fields_ddl {table : CharTable} {random : Nat → Random} {n : Nat}
    {fields : List (List Char)} {number : Nat} {columns : List Column}
    (parsed : parseFields table random n number fields = .ok columns) :
    ∀ column ∈ columns, column.ddl = column.name ++ ' ' :: column.fmt.typeText := by
  induction fields generalizing number columns with
  | nil =>
      cases parsed
      simp
  | cons field fields ih =>
      rw [parseFields] at parsed
      obtain ⟨column, here, parsed⟩ := except_bind_ok parsed
      obtain ⟨columns', later, parsed⟩ := except_bind_ok parsed
      cases parsed
      rw [List.forall_mem_cons]
      exact ⟨parse_field_ddl here, ih later⟩

def Format.typeTokens : Format → List Token
  | .i => [.INT_TYPE]
  | .f => [.REAL_TYPE]
  | .s width => [.CHAR_TYPE, .lparen, .T_INT (Literal.atoi (encode (str width))), .rparen]

def Column.tokens (column : Column) : List (Option Token) :=
  identifier (encode column.name) :: column.fmt.typeTokens.map some

section Tokens

variable {toFloat : List Byte → List Byte} {stop : Byte}

theorem yylex_name {name : List Char} (named : IsIdentifier name)
    (stops : isIdChar stop = false) (rest : List Byte) :
    yylex toFloat .INITIAL (encode name ++ stop :: rest) =
      identifier (encode name) :: yylex toFloat .INITIAL (stop :: rest) := by
  obtain ⟨first, word, encoded, letter, chars⟩ := named.encoded
  rw [encoded]
  exact yylex_word letter chars stops

theorem yylex_type (fmt : Format) (stops : isIdChar stop = false) (rest : List Byte) :
    yylex toFloat .INITIAL (encode fmt.typeText ++ stop :: rest) =
      fmt.typeTokens.map some ++ yylex toFloat .INITIAL (stop :: rest) := by
  cases fmt with
  | i =>
      have word : yylex toFloat .INITIAL ([105, 110, 116] ++ stop :: rest) = _ :=
        yylex_word (by decide) (by decide +kernel) stops
      exact word
  | f =>
      have word : yylex toFloat .INITIAL ([114, 101, 97, 108] ++ stop :: rest) = _ :=
        yylex_word (by decide) (by decide +kernel) stops
      exact word
  | s width =>
      obtain ⟨first, digits, encoded, digit, all, _⟩ := encode_str width
      have text : encode (Format.s width).typeText ++ stop :: rest =
          [99, 104, 97, 114] ++ 40 :: (first :: digits ++ 41 :: stop :: rest) := by
        unfold Format.typeText
        rw [encode_append, encode_append, encoded, List.append_assoc, List.append_assoc]
        rfl
      have word : yylex toFloat .INITIAL
          ([99, 104, 97, 114] ++ 40 :: (first :: digits ++ 41 :: stop :: rest)) = _ :=
        yylex_word (by decide) (by decide +kernel) (by decide)
      rw [text, word, yylex_lparen, yylex_number digit all (by decide) (by decide), yylex_rparen]
      simp only [Format.typeTokens, encoded]
      rfl

theorem yylex_column {column : Column}
    (ddl : column.ddl = column.name ++ ' ' :: column.fmt.typeText)
    (named : IsIdentifier column.name) (stops : isIdChar stop = false) (rest : List Byte) :
    yylex toFloat .INITIAL (encode column.ddl ++ stop :: rest) =
      column.tokens ++ yylex toFloat .INITIAL (stop :: rest) := by
  have text : encode column.ddl ++ stop :: rest =
      encode column.name ++ 32 :: (encode column.fmt.typeText ++ stop :: rest) := by
    rw [ddl, encode_append, List.append_assoc]
    rfl
  rw [text, yylex_name named (by decide), yylex_blank, yylex_type _ stops]
  rfl

theorem yylex_columns {columns : List Column}
    (ddl : ∀ column ∈ columns, column.ddl = column.name ++ ' ' :: column.fmt.typeText)
    (named : ∀ column ∈ columns, IsIdentifier column.name) (rest : List Byte) :
    yylex toFloat .INITIAL
        (encode ([',', ' '].intercalate (columns.map Column.ddl)) ++ 41 :: rest) =
      [some .comma].intercalate (columns.map Column.tokens) ++
        yylex toFloat .INITIAL (41 :: rest) := by
  induction columns with
  | nil => rfl
  | cons column columns ih =>
      obtain ⟨ddl₁, ddls⟩ := List.forall_mem_cons.mp ddl
      obtain ⟨named₁, nameds⟩ := List.forall_mem_cons.mp named
      cases columns with
      | nil =>
          simp only [List.map_cons, List.map_nil, List.intercalate_singleton]
          exact yylex_column ddl₁ named₁ (by decide) rest
      | cons next columns =>
          have later := ih ddls nameds
          simp only [List.map_cons, List.intercalate_cons_cons, encode_append,
            List.append_assoc] at later ⊢
          have text : ∀ behind, encode [',', ' '] ++ behind = 44 :: 32 :: behind := fun _ => rfl
          rw [text, yylex_column ddl₁ named₁ (by decide), yylex_comma, yylex_blank, later]
          rfl

theorem yylex_ddl {relation : List Char} {columns : List Column}
    (relationNamed : IsIdentifier relation)
    (ddl : ∀ column ∈ columns, column.ddl = column.name ++ ' ' :: column.fmt.typeText)
    (named : ∀ column ∈ columns, IsIdentifier column.name) :
    yylex toFloat .INITIAL (encode (ddlStr relation (columns.map Column.ddl))) =
      some .RW_CREATE :: some .RW_TABLE :: identifier (encode relation) :: some .lparen ::
        ([some .comma].intercalate (columns.map Column.tokens) ++
          [some .rparen, some .semicolon]) := by
  have text : encode (ddlStr relation (columns.map Column.ddl)) =
      [99, 114, 101, 97, 116, 101] ++ 32 :: ([116, 97, 98, 108, 101] ++ 32 ::
        (encode relation ++ 32 :: 40 ::
          (encode ([',', ' '].intercalate (columns.map Column.ddl)) ++ [41, 59]))) := by
    unfold ddlStr
    rw [encode_append, encode_append, encode_append, encode_append]
    simp only [List.append_assoc]
    rfl
  have create : ∀ rest, yylex toFloat .INITIAL ([99, 114, 101, 97, 116, 101] ++ 32 :: rest) = _ :=
    fun rest => yylex_word (by decide) (by decide +kernel) (by decide)
  have tableWord : ∀ rest, yylex toFloat .INITIAL ([116, 97, 98, 108, 101] ++ 32 :: rest) = _ :=
    fun rest => yylex_word (by decide) (by decide +kernel) (by decide)
  rw [text, create, yylex_blank, tableWord, yylex_blank, yylex_name relationNamed (by decide),
    yylex_blank, yylex_lparen, yylex_columns ddl named, yylex_rparen, yylex_semicolon]
  rfl

end Tokens

def Column.attrtype (column : Column) : Attrtype :=
  match column.fmt with
  | .i => .int (encode column.name)
  | .f => .real (encode column.name)
  | .s width => .char (encode column.name) (.INTEGER (Literal.atoi (encode (str width))))

theorem keyword_not_string {keyword : Text × Option Token} (member : keyword ∈ keywords)
    (s : Text) : keyword.2 ≠ some (.T_STRING s) := by
  intro same
  have listed := (List.of_mem_zip (a := keyword.1) (b := keyword.2) member).2
  rw [same] at listed
  simp at listed

theorem identifier_string {s name : Text} (read : some (.T_STRING name) = identifier s) :
    name = s := by
  unfold identifier at read
  split_ifs at read
  split at read
  · exact absurd read.symm (keyword_not_string (List.mem_of_find?_eq_some ‹_›) name)
  · cases read
    rfl

section Unique

variable {attr : Attrtype} {column : Column} {stop stop' : Option Token}
  {rest rest' : List (Option Token)}

theorem column_unique (plain : stop ≠ some .lparen)
    (same : attr.tokens.map some ++ stop :: rest = column.tokens ++ stop' :: rest') :
    attr = column.attrtype ∧ stop = stop' ∧ rest = rest' := by
  obtain ⟨name, gen, fmt, ddl⟩ := column
  cases attr with
  | int attrname =>
      cases fmt <;> simp [Attrtype.tokens, Column.tokens, Format.typeTokens] at same
      obtain ⟨named, stops, rests⟩ := same
      exact ⟨congrArg Attrtype.int (identifier_string named), stops, rests⟩
  | real attrname =>
      cases fmt <;> simp [Attrtype.tokens, Column.tokens, Format.typeTokens] at same
      obtain ⟨named, stops, rests⟩ := same
      exact ⟨congrArg Attrtype.real (identifier_string named), stops, rests⟩
  | charDefault attrname =>
      cases fmt <;> simp [Attrtype.tokens, Column.tokens, Format.typeTokens] at same
      exact absurd same.2.1 plain
  | char attrname length =>
      cases fmt <;> simp [Attrtype.tokens, Column.tokens, Format.typeTokens] at same
      obtain ⟨named, read, stops, rests⟩ := same
      cases length <;> simp [Grammar.value] at read
      subst read
      exact ⟨by rw [identifier_string named]; rfl, stops, rests⟩

theorem columns_unique {attrs : CommaList Attrtype} {columns : List Column}
    (same : (attrs.tokens Attrtype.tokens).map some ++ some .rparen :: rest =
      [some .comma].intercalate (columns.map Column.tokens) ++ some .rparen :: rest') :
    attrs.toList = columns.map Column.attrtype ∧ rest = rest' := by
  induction attrs generalizing columns with
  | single only =>
      cases columns with
      | nil => cases only <;> simp [CommaList.tokens, Attrtype.tokens] at same
      | cons column columns =>
          cases columns with
          | nil =>
              simp only [List.map_cons, List.map_nil, List.intercalate_singleton,
                CommaList.tokens] at same
              obtain ⟨rfl, _, rests⟩ := column_unique (by simp) same
              exact ⟨rfl, rests⟩
          | cons next columns =>
              simp only [List.map_cons, List.intercalate_cons_cons, List.append_assoc,
                List.singleton_append, CommaList.tokens] at same
              obtain ⟨_, stops, _⟩ := column_unique (by simp) same
              cases stops
  | cons attr attrs ih =>
      cases columns with
      | nil => cases attr <;> simp [CommaList.tokens, Attrtype.tokens] at same
      | cons column columns =>
          simp only [CommaList.tokens, List.map_append, List.map_cons, List.append_assoc,
            List.cons_append] at same
          cases columns with
          | nil =>
              simp only [List.map_nil, List.intercalate_singleton] at same
              obtain ⟨_, stops, _⟩ := column_unique (by simp) same
              cases stops
          | cons next columns =>
              rw [List.map_cons, List.intercalate_cons_cons, List.append_assoc,
                List.append_assoc, List.singleton_append] at same
              obtain ⟨rfl, _, later⟩ := column_unique (by simp) same
              obtain ⟨listed, rests⟩ := @ih (next :: columns) later
              exact ⟨congrArg _ listed, rests⟩

end Unique

/-- A `create table` with the tokens of the DDL creates the table of the schema. -/
theorem ddl_statement {toFloat : List Byte → List Byte} {relation : List Char}
    {columns : List Column} (relationNamed : IsIdentifier relation)
    (ddl : ∀ column ∈ columns, column.ddl = column.name ++ ' ' :: column.fmt.typeText)
    (named : ∀ column ∈ columns, IsIdentifier column.name) {relname : Text}
    {attrs : CommaList Attrtype} {primary : Option (Text × Int)}
    (read : yylex toFloat .INITIAL (encode (ddlStr relation (columns.map Column.ddl))) =
      ((Command.create relname attrs primary).tokens ++ [Token.semicolon]).map some) :
    relname = encode relation ∧ attrs.toList = columns.map Column.attrtype ∧ primary = none := by
  rw [yylex_ddl relationNamed ddl named] at read
  simp only [Command.tokens, List.map_append, List.map_cons, List.map_nil, List.cons_append,
    List.append_assoc, List.nil_append, List.cons.injEq, true_and] at read
  obtain ⟨relationRead, rest⟩ := read
  obtain ⟨listed, behind⟩ := columns_unique rest.symm
  refine ⟨identifier_string relationRead.symm, listed, ?_⟩
  cases primary with
  | none => rfl
  | some primary => simp at behind

def Format.datatype : Format → Datatype
  | .i => .INTEGER
  | .f => .FLOAT
  | .s _ => .STRING

def Column.info (relation : FileName) (column : Column) : AttrInfo :=
  { relName := relation, attrName := encode column.name, attrType := column.fmt.datatype.code
    attrLen := column.fmt.size, attrValue := none }

theorem attrtype_descr {address : Text → Int} {column : Column} {descr : Text × Datatype × Int}
    (narrow : column.fmt.size ≤ 1000)
    (described : column.attrtype.descr address = some descr) :
    descr = (encode column.name, column.fmt.datatype, (column.fmt.size : Int)) ∧
      1 ≤ column.fmt.size := by
  obtain ⟨name, gen, fmt, ddl⟩ := column
  cases fmt with
  | i =>
      cases described
      exact ⟨rfl, (by decide : 1 ≤ 4)⟩
  | f =>
      cases described
      exact ⟨rfl, (by decide : 1 ≤ 4)⟩
  | s width =>
      have bound : width ≤ 1000 := narrow
      obtain ⟨first, digits, encoded, _, _, read⟩ := encode_str width
      have format : (Column.attrtype ⟨name, gen, .s width, ddl⟩).format address = width := by
        simp only [Column.attrtype, Attrtype.format, Attrtype.ival, encoded]
        exact read (by omega)
      unfold Attrtype.descr parse_format_string at described
      rw [format, if_neg (by omega), if_neg (by omega)] at described
      split at described
      · rename_i inside
        cases described
        exact ⟨rfl, by exact_mod_cast inside.2⟩
      · cases described

/-- `create table` goes through for a text: it is one statement, the statement is parsed,
`mk_attr_descrs` takes its attributes over and `createRel` succeeds. -/
def Accepts (toFloat : List Byte → List Byte) (address : Text → Int) (mem : Uninit) (tmpRid : RID)
    (text : List Byte) (w w' : World) : Prop :=
  ∃ relname attrs primary attrlist primattr taken descrs,
    yylex toFloat .INITIAL text =
        ((Command.create relname attrs primary).tokens ++ [Token.semicolon]).map some ∧
      (Command.create relname attrs primary).action address 0 =
        .ok (.CREATE relname attrlist primattr, taken) ∧
      attrDescrs attrlist 0 = .ok (some descrs) ∧
      RelCatalog.createRel mem tmpRid relname (createAttrs relname descrs) w = (.ok .OK, w')

theorem described_columns {address : Text → Int} {columns : List Column}
    (narrow : ∀ column ∈ columns, column.fmt.size ≤ 1000) {descrs : List (Text × Datatype × Int)}
    (described : (columns.map Column.attrtype).mapM (Attrtype.descr address) = some descrs)
    (relation : FileName) : createAttrs relation descrs = columns.map (Column.info relation) ∧
      ∀ column ∈ columns, 1 ≤ column.fmt.size := by
  induction columns generalizing descrs with
  | nil =>
      cases described
      exact ⟨rfl, by simp⟩
  | cons column columns ih =>
      obtain ⟨narrow₁, narrows⟩ := List.forall_mem_cons.mp narrow
      rw [List.map_cons] at described
      obtain ⟨descr, rest, first, later, rfl⟩ := map_m_cons_eq_some.mp described
      obtain ⟨rfl, positive⟩ := attrtype_descr narrow₁ first
      obtain ⟨infos, positives⟩ := ih narrows later
      refine ⟨?_, List.forall_mem_cons.mpr ⟨positive, positives⟩⟩
      rw [List.map_cons, ← infos]
      rfl

theorem Accepts.creates {toFloat : List Byte → List Byte} {address : Text → Int} {mem : Uninit}
    {tmpRid : RID} {w w' : World} {relation : List Char} {columns : List Column}
    (accepts : Accepts toFloat address mem tmpRid
      (encode (ddlStr relation (columns.map Column.ddl))) w w')
    (relationNamed : IsIdentifier relation)
    (ddl : ∀ column ∈ columns, column.ddl = column.name ++ ' ' :: column.fmt.typeText)
    (named : ∀ column ∈ columns, IsIdentifier column.name)
    (narrow : ∀ column ∈ columns, column.fmt.size ≤ 1000) :
    RelCatalog.createRel mem tmpRid (encode relation)
        (columns.map (Column.info (encode relation))) w = (.ok .OK, w') ∧
      ∀ column ∈ columns, 1 ≤ column.fmt.size := by
  obtain ⟨relname, attrs, primary, attrlist, primattr, taken, descrs, read, parsed, described,
    created⟩ := accepts
  obtain ⟨rfl, listed, _⟩ := ddl_statement relationNamed ddl named read
  have tree := (Command.create_takes address (encode relation) attrs primary).value_eq parsed
  obtain ⟨_, rfl, _⟩ := NODE.CREATE.inj tree
  rw [attr_descrs_node address attrs (by decide), listed] at described
  split at described
  · obtain ⟨infos, positive⟩ :=
      described_columns narrow (Except.ok.inj described) (encode relation)
    rw [infos] at created
    exact ⟨created, positive⟩
  · cases described

end DataGenerator

end PrimitiveDB

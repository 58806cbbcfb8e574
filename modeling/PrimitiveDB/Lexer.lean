import PrimitiveDB.Scanner

/-!
# The tokens of a text

`scan.l`. At every place the rule with the longest match is taken, and of several the first
one. A token that no production of the grammar has is `none`; what `sscanf` makes of a number
with a point is a parameter. The token for the end of the input follows those that are listed.
-/

namespace PrimitiveDB

open ByteMemory

set_option autoImplicit false

deriving instance DecidableEq for Token

namespace Lexer

inductive Condition where
  | INITIAL | comment | shell_cmd

structure Lexeme where
  /-- how many characters are matched behind the first one -/
  more : Nat
  tokens : List (Option Token)
  condition : Condition

def isLetter (char : Byte) : Bool := (65 ≤ char ∧ char ≤ 90) ∨ (97 ≤ char ∧ char ≤ 122)

def isDigit (char : Byte) : Bool := 48 ≤ char ∧ char ≤ 57

def isIdChar (char : Byte) : Bool := isLetter char || isDigit char || char = 95

/-- How long the longest match of `{num}` is, and zero if there is none. -/
def num (text : List Byte) : Nat := (text.takeWhile isDigit).length

def s_num (text : List Byte) : Nat :=
  let sign := if text.head? = some 43 ∨ text.head? = some 45 then 1 else 0
  if num (text.drop sign) = 0 then 0 else sign + num (text.drop sign)

def fraction (text : List Byte) : Nat :=
  if text.head? = some 46 ∧ num (text.drop 1) ≠ 0 then 1 + num (text.drop 1) else 0

def exponent (text : List Byte) : Nat :=
  if (text.head? = some 69 ∨ text.head? = some 101) ∧ s_num (text.drop 1) ≠ 0 then
    1 + s_num (text.drop 1)
  else 0

/-- The longest match of the two rules for strings behind the opening quote: how long it is, and
whether it ends with a newline. `closed` says that the last character may be the closing quote
or the first one of a pair. -/
def quoted : Option (Nat × Bool) → Bool → Nat → List Byte → Option (Nat × Bool)
  | best, _, _, [] => best
  | best, closed, count, char :: rest =>
      if char = 34 then
        if closed then quoted best false (count + 1) rest
        else quoted (some (count + 1, false)) true (count + 1) rest
      else if closed then best
      else if char = 10 then some (count + 1, true)
      else quoted best false (count + 1) rest

/-- The words that `get_id` compares with, and their tokens. -/
def keywords : List (Text × Option Token) :=
  Scanner.reservedWords.zip
    [some .RW_SELECT, some .RW_INSERT, some .RW_DELETE, some .RW_CREATE, some .RW_DESTROY,
      some .RW_BUILD, none, some .RW_DROP, some .RW_LOAD, some .RW_PRINT, some .RW_HELP,
      some .RW_QUIT, some .RW_INTO, some .RW_WHERE, some .RW_PRIMARY, some .RW_NUMBUCKETS, none,
      some .RW_FROM, none, some .RW_TABLE, none, none, none, some .RW_VALUES, some .INT_TYPE,
      some .REAL_TYPE, some .CHAR_TYPE]

/-- `get_id`, with the string itself for its copy in the pool. -/
def identifier (s : Text) : Option Token :=
  if Scanner.MAXSTRINGLEN ≤ s.length then none
  else
    match keywords.find? fun keyword => keyword.1 = s.map Scanner.lowerCase with
    | some keyword => keyword.2
    | none => some (.T_STRING s)

/-- Single characters that are returned as they are, and the token for each of them. -/
def punctuation : List (Byte × Option Token) :=
  [(42, some .T_STAR), (61, some .T_EQ), (40, some .lparen), (41, some .rparen),
    (44, some .comma), (46, some .dot), (59, some .semicolon), (47, none), (43, none), (45, none),
    (39, none), (58, none), (124, none), (38, none)]

/-- The rules for `<` and `>`, with the tokens of the two characters. -/
def comparison (rest : List Byte) (plain equal : Token) (other : Option Token) : Lexeme :=
  if rest.head? = some 61 then ⟨1, [some equal], .INITIAL⟩
  else if rest.head? = some 62 ∧ other.isSome then ⟨1, [other], .INITIAL⟩
  else ⟨0, [some plain], .INITIAL⟩

def number (toFloat : List Byte → List Byte) (text : List Byte) : Lexeme :=
  let whole := s_num text
  let part := fraction (text.drop whole)
  if part = 0 then ⟨whole - 1, [some (.T_INT (Literal.atoi (text.take whole)))], .INITIAL⟩
  else
    let length := whole + part + exponent (text.drop (whole + part))
    ⟨length - 1, [some (.T_REAL (toFloat (text.take length)))], .INITIAL⟩

def qstring (rest : List Byte) : Lexeme :=
  match quoted none false 0 rest with
  | some (count, false) =>
      ⟨count, [some (.T_QSTRING (cString (rest.take (count - 1))))], .INITIAL⟩
  | some (count, true) => ⟨count, [], .INITIAL⟩
  | none => ⟨0, [], .INITIAL⟩

def initialRule (toFloat : List Byte → List Byte) (char : Byte) (rest : List Byte) : Lexeme :=
  if char = 47 ∧ rest.head? = some 42 then ⟨1, [], .comment⟩
  else if char = 32 ∨ char = 10 ∨ char = 9 then ⟨0, [], .INITIAL⟩
  else if s_num (char :: rest) ≠ 0 then number toFloat (char :: rest)
  else if char = 34 then qstring rest
  else if isLetter char then
    let more := rest.takeWhile isIdChar
    ⟨more.length, [identifier (char :: more)], .INITIAL⟩
  else if char = 60 then comparison rest .T_LT .T_LE (some .T_NE)
  else if char = 62 then comparison rest .T_GT .T_GE none
  else if char = 33 then
    if rest.head? = some 61 then ⟨1, [some .T_NE], .INITIAL⟩ else ⟨0, [], .shell_cmd⟩
  else ⟨0, ((punctuation.lookup char).toList), .INITIAL⟩

def commentRule (char : Byte) (rest : List Byte) : Lexeme :=
  if char = 42 ∧ rest.head? = some 47 then ⟨1, [], .INITIAL⟩ else ⟨0, [], .comment⟩

def shellRule (char : Byte) (rest : List Byte) : Lexeme :=
  if char = 10 then ⟨0, [], .INITIAL⟩
  else
    let more := rest.takeWhile (· ≠ 10)
    ⟨more.length, [some (.T_SHELL_CMD (cString (char :: more)))], .shell_cmd⟩

def Condition.rule (toFloat : List Byte → List Byte) : Condition → Byte → List Byte → Lexeme
  | INITIAL => initialRule toFloat
  | comment => commentRule
  | shell_cmd => shellRule

def scanFrom (toFloat : List Byte → List Byte) : Nat → Condition → List Byte → List (Option Token)
  | 0, _, _ => []
  | _ + 1, _, [] => []
  | fuel + 1, condition, char :: rest =>
      let lexeme := condition.rule toFloat char rest
      lexeme.tokens ++ scanFrom toFloat fuel lexeme.condition (rest.drop lexeme.more)

def yylex (toFloat : List Byte → List Byte) (condition : Condition) (text : List Byte) :
    List (Option Token) :=
  scanFrom toFloat text.length condition text

section Steps

variable {toFloat : List Byte → List Byte}

theorem drop_shorter (count : Nat) (text : List Byte) : (text.drop count).length ≤ text.length := by
  rw [List.length_drop]
  exact Nat.sub_le _ _

theorem scan_from_enough {fuel fuel' : Nat} (condition : Condition) {text : List Byte}
    (enough : text.length ≤ fuel) (enough' : text.length ≤ fuel') :
    scanFrom toFloat fuel condition text = scanFrom toFloat fuel' condition text := by
  induction fuel generalizing fuel' condition text with
  | zero =>
      obtain rfl := List.eq_nil_of_length_eq_zero (Nat.le_zero.mp enough)
      cases fuel' <;> rfl
  | succ fuel ih =>
      cases text with
      | nil => cases fuel' <;> rfl
      | cons char rest =>
          cases fuel' with
          | zero => exact absurd enough' (Nat.not_succ_le_zero _)
          | succ fuel' =>
              have shorter := drop_shorter (condition.rule toFloat char rest).more rest
              rw [scanFrom, scanFrom]
              congr 1
              exact ih _ (shorter.trans (Nat.le_of_succ_le_succ enough))
                (shorter.trans (Nat.le_of_succ_le_succ enough'))

theorem yylex_cons (condition : Condition) (char : Byte) (rest : List Byte) :
    yylex toFloat condition (char :: rest) = (condition.rule toFloat char rest).tokens ++
      yylex toFloat (condition.rule toFloat char rest).condition
        (rest.drop (condition.rule toFloat char rest).more) := by
  conv_lhs => unfold yylex
  rw [List.length_cons, scanFrom]
  congr 1
  exact scan_from_enough _ (drop_shorter _ _) (Nat.le_refl _)

theorem yylex_blank (rest : List Byte) :
    yylex toFloat .INITIAL (32 :: rest) = yylex toFloat .INITIAL rest := by
  rw [yylex_cons]
  rfl

theorem yylex_lparen (rest : List Byte) :
    yylex toFloat .INITIAL (40 :: rest) = some .lparen :: yylex toFloat .INITIAL rest := by
  rw [yylex_cons]
  rfl

theorem yylex_rparen (rest : List Byte) :
    yylex toFloat .INITIAL (41 :: rest) = some .rparen :: yylex toFloat .INITIAL rest := by
  rw [yylex_cons]
  rfl

theorem yylex_comma (rest : List Byte) :
    yylex toFloat .INITIAL (44 :: rest) = some .comma :: yylex toFloat .INITIAL rest := by
  rw [yylex_cons]
  rfl

theorem yylex_semicolon (rest : List Byte) :
    yylex toFloat .INITIAL (59 :: rest) = some .semicolon :: yylex toFloat .INITIAL rest := by
  rw [yylex_cons]
  rfl

theorem take_while_stops {p : Byte → Bool} {front : List Byte}
    (all : ∀ char ∈ front, p char = true) {stop : Byte} (stops : p stop = false)
    (rest : List Byte) :
    (front ++ stop :: rest).takeWhile p = front := by
  rw [List.takeWhile_append_of_pos all, List.takeWhile_cons_of_neg (by simp [stops]),
    List.append_nil]

theorem letter_plain {char : Byte} (letter : isLetter char = true) :
    char ≠ 47 ∧ char ≠ 32 ∧ char ≠ 10 ∧ char ≠ 9 ∧ char ≠ 34 ∧ char ≠ 43 ∧ char ≠ 45 ∧
      isDigit char = false := by
  revert char
  decide +kernel

theorem digit_plain {char : Byte} (digit : isDigit char = true) :
    char ≠ 47 ∧ char ≠ 32 ∧ char ≠ 10 ∧ char ≠ 9 ∧ char ≠ 43 ∧ char ≠ 45 := by
  revert char
  decide +kernel

theorem yylex_word {first : Byte} {word rest : List Byte} (letter : isLetter first = true)
    (chars : ∀ char ∈ word, isIdChar char = true) {stop : Byte} (stops : isIdChar stop = false) :
    yylex toFloat .INITIAL (first :: word ++ stop :: rest) =
      identifier (first :: word) :: yylex toFloat .INITIAL (stop :: rest) := by
  obtain ⟨slash, blank, newline, tab, quote, plus, minus, digit⟩ := letter_plain letter
  have noNumber : s_num (first :: (word ++ stop :: rest)) = 0 := by
    simp [s_num, num, plus, minus, digit]
  have taken := take_while_stops chars stops rest
  have rule : initialRule toFloat first (word ++ stop :: rest) =
      ⟨word.length, [identifier (first :: word)], .INITIAL⟩ := by
    simp [initialRule, slash, blank, newline, tab, quote, letter, noNumber, taken]
  rw [List.cons_append, yylex_cons]
  simp only [Condition.rule, rule, List.drop_left, List.cons_append, List.nil_append]

theorem yylex_number {first : Byte} {digits rest : List Byte} (digit : isDigit first = true)
    (all : ∀ char ∈ digits, isDigit char = true) {stop : Byte} (stops : isDigit stop = false)
    (noPoint : stop ≠ 46) :
    yylex toFloat .INITIAL (first :: digits ++ stop :: rest) =
      some (.T_INT (Literal.atoi (first :: digits))) ::
        yylex toFloat .INITIAL (stop :: rest) := by
  obtain ⟨slash, blank, newline, tab, plus, minus⟩ := digit_plain digit
  have taken := take_while_stops all stops rest
  have whole : s_num (first :: (digits ++ stop :: rest)) = digits.length + 1 := by
    simp [s_num, num, plus, minus, digit, taken]
  have noFraction : fraction (stop :: rest) = 0 := by simp [fraction, noPoint]
  have rule : initialRule toFloat first (digits ++ stop :: rest) =
      ⟨digits.length, [some (.T_INT (Literal.atoi (first :: digits)))], .INITIAL⟩ := by
    simp [initialRule, slash, blank, newline, tab, number, whole, noFraction]
  rw [List.cons_append, yylex_cons]
  simp only [Condition.rule, rule, List.drop_left, List.cons_append, List.nil_append]

end Steps

end Lexer

end PrimitiveDB

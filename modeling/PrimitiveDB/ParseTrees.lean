import PrimitiveDB.ScanFilter
import PrimitiveDB.Literals
import PrimitiveDB.StorageState

/-!
# Statements and their parse trees

`parse.h`, `nodes.C` and the grammar of `parse.y`. A derivation of the grammar is a
value with one constructor for each production; `tokens` is the sequence of tokens
that it derives, and `action` the tree that the semantic actions build for it. A
node is read only through the members of its union, and reading another member
than the one of its kind is a fault. Messages are left out.
-/

namespace PrimitiveDB

open ByteMemory

set_option autoImplicit false

abbrev Text := List Byte

inductive NODEKIND where
  | N_QUERY | N_INSERT | N_DELETE | N_CREATE | N_DESTROY | N_BUILD | N_REBUILD | N_DROP
  | N_LOAD | N_PRINT | N_HELP | N_SELECT | N_JOIN | N_PRIMATTR | N_QUALATTR | N_ATTRVAL
  | N_ATTRTYPE | N_VALUE | N_LIST | N_ALIAS | N_STAR
  deriving DecidableEq

/-- What a `VALUE` node holds: its type, and the member of the inner union that
belongs to the type. A `float` is kept as its four bytes. -/
inductive Value where
  | INTEGER (ival : Int)
  | FLOAT (rval : List Byte)
  | STRING (sval : Text)

/-- A `NODE*`: `NULL`, or the node it points to with the members of its kind. -/
inductive NODE where
  | NULL
  | QUERY (relname : Option Text) (attrlist qual : NODE)
  | INSERT (relname : Text) (attrlist : NODE)
  | DELETE (relname : Text) (qual : NODE)
  | CREATE (relname : Text) (attrlist primattr : NODE)
  | DESTROY (relname : Text)
  | BUILD (relname attrname : Text) (nbuckets : Int)
  | REBUILD (relname attrname : Text) (nbuckets : Int)
  | DROP (relname : Text) (attrname : Option Text)
  | LOAD (relname filename : Text)
  | PRINT (relname : Text)
  | HELP (relname : Option Text)
  | SELECT (selattr : NODE) (op : Operator) (value : NODE)
  | JOIN (joinattr1 : NODE) (op : Operator) (joinattr2 : NODE)
  | PRIMATTR (attrname : Text) (nbuckets : Int)
  | QUALATTR (relname : Option Text) (attrname : Text)
  | ATTRVAL (attrname : Text) (value : NODE)
  | ATTRTYPE (attrname : Text) (type : Int)
  | VALUE (value : Value)
  | LIST (self next : NODE)
  | ALIAS (relname : Text) (alias_ : Option Text)
  | STAR (relname : Text)

inductive Fault where
  /-- a `NULL` node is dereferenced -/
  | null
  /-- a member of the union is read that does not belong to the kind of the node -/
  | member
  /-- `assert(0)` -/
  | assertion
  /-- a `char*` that is `NULL` is handed to the C library -/
  | string
  deriving DecidableEq

namespace NODE

def kind : NODE → Except Fault NODEKIND
  | NULL => .error .null
  | QUERY .. => .ok .N_QUERY
  | INSERT .. => .ok .N_INSERT
  | DELETE .. => .ok .N_DELETE
  | CREATE .. => .ok .N_CREATE
  | DESTROY .. => .ok .N_DESTROY
  | BUILD .. => .ok .N_BUILD
  | REBUILD .. => .ok .N_REBUILD
  | DROP .. => .ok .N_DROP
  | LOAD .. => .ok .N_LOAD
  | PRINT .. => .ok .N_PRINT
  | HELP .. => .ok .N_HELP
  | SELECT .. => .ok .N_SELECT
  | JOIN .. => .ok .N_JOIN
  | PRIMATTR .. => .ok .N_PRIMATTR
  | QUALATTR .. => .ok .N_QUALATTR
  | ATTRVAL .. => .ok .N_ATTRVAL
  | ATTRTYPE .. => .ok .N_ATTRTYPE
  | VALUE .. => .ok .N_VALUE
  | LIST .. => .ok .N_LIST
  | ALIAS .. => .ok .N_ALIAS
  | STAR .. => .ok .N_STAR

def asSELECT : NODE → Except Fault (NODE × Operator × NODE)
  | NULL => .error .null
  | SELECT selattr op value => .ok (selattr, op, value)
  | _ => .error .member

def asJOIN : NODE → Except Fault (NODE × Operator × NODE)
  | NULL => .error .null
  | JOIN joinattr1 op joinattr2 => .ok (joinattr1, op, joinattr2)
  | _ => .error .member

def asPRIMATTR : NODE → Except Fault (Text × Int)
  | NULL => .error .null
  | PRIMATTR attrname nbuckets => .ok (attrname, nbuckets)
  | _ => .error .member

/-- `n->u.QUALATTR.relname`, which a `STAR` node has as well. -/
def qualattrRelname : NODE → Except Fault (Option Text)
  | NULL => .error .null
  | QUALATTR relname _ => .ok relname
  | STAR relname => .ok (some relname)
  | _ => .error .member

def qualattrAttrname : NODE → Except Fault Text
  | NULL => .error .null
  | QUALATTR _ attrname => .ok attrname
  | _ => .error .member

def asATTRVAL : NODE → Except Fault (Text × NODE)
  | NULL => .error .null
  | ATTRVAL attrname value => .ok (attrname, value)
  | _ => .error .member

def asATTRTYPE : NODE → Except Fault (Text × Int)
  | NULL => .error .null
  | ATTRTYPE attrname type => .ok (attrname, type)
  | _ => .error .member

def asVALUE : NODE → Except Fault Value
  | NULL => .error .null
  | VALUE value => .ok value
  | _ => .error .member

def asLIST : NODE → Except Fault (NODE × NODE)
  | NULL => .error .null
  | LIST self next => .ok (self, next)
  | _ => .error .member

def asALIAS : NODE → Except Fault (Text × Option Text)
  | NULL => .error .null
  | ALIAS relname alias_ => .ok (relname, alias_)
  | _ => .error .member

def isNode : NODE → Bool
  | NULL => false
  | _ => true

end NODE

def MAXNODE : Nat := 100

inductive Stop where
  /-- the process ends -/
  | exit
  | fault (fault : Fault)

abbrev ParseM := StateT Nat (Except Stop)

namespace ParseM

def reading {α : Type} : Except Fault α → ParseM α
  | .ok value => pure value
  | .error fault => throw (.fault fault)

end ParseM

/-- `newnode`, which ends the process if the pool is used up. -/
def newnode (node : NODE) : ParseM NODE := do
  let nodeptr ← get
  if nodeptr = MAXNODE then throw .exit
  else do
    set (nodeptr + 1)
    pure node

def query_node (relname : Option Text) (attrlist qual : NODE) : ParseM NODE :=
  newnode (.QUERY relname attrlist qual)

def insert_node (relname : Text) (attrlist : NODE) : ParseM NODE :=
  newnode (.INSERT relname attrlist)

def delete_node (relname : Text) (qual : NODE) : ParseM NODE := newnode (.DELETE relname qual)

def create_node (relname : Text) (attrlist primattr : NODE) : ParseM NODE :=
  newnode (.CREATE relname attrlist primattr)

def destroy_node (relname : Text) : ParseM NODE := newnode (.DESTROY relname)

def build_node (relname attrname : Text) (nbuckets : Int) : ParseM NODE :=
  newnode (.BUILD relname attrname nbuckets)

def drop_node (relname : Text) (attrname : Option Text) : ParseM NODE :=
  newnode (.DROP relname attrname)

def load_node (relname filename : Text) : ParseM NODE := newnode (.LOAD relname filename)

def print_node (relname : Text) : ParseM NODE := newnode (.PRINT relname)

def help_node (relname : Option Text) : ParseM NODE := newnode (.HELP relname)

def select_node (selattr : NODE) (op : Operator) (value : NODE) : ParseM NODE :=
  newnode (.SELECT selattr op value)

def join_node (joinattr1 : NODE) (op : Operator) (joinattr2 : NODE) : ParseM NODE :=
  newnode (.JOIN joinattr1 op joinattr2)

def primattr_node (attrname : Text) (nbuckets : Int) : ParseM NODE :=
  newnode (.PRIMATTR attrname nbuckets)

def qualattr_node (relname : Option Text) (attrname : Text) : ParseM NODE :=
  newnode (.QUALATTR relname attrname)

def attrval_node (attrname : Text) (value : NODE) : ParseM NODE :=
  newnode (.ATTRVAL attrname value)

def attrtype_node (attrname : Text) (type : Int) : ParseM NODE := newnode (.ATTRTYPE attrname type)

def value_node (value : Value) : ParseM NODE := newnode (.VALUE value)

def list_node (n : NODE) : ParseM NODE := newnode (.LIST n .NULL)

def prepend (n list : NODE) : ParseM NODE := newnode (.LIST n list)

def alias_node (relname : Text) (alias_ : Option Text) : ParseM NODE :=
  newnode (.ALIAS relname alias_)

/-- `merge_attr_value_list`, which stores the values into the nodes of the first list.
There is no result if the lists do not have the same length. -/
def merge_attr_value_list : NODE → NODE → Except Fault (Option NODE)
  | .NULL, value_ptr => .ok (if value_ptr.isNode then none else some .NULL)
  | .LIST _ _, .NULL => .ok none
  | .LIST self next, .LIST value nextValue => do
      let (attrname, _) ← self.asATTRVAL
      match ← merge_attr_value_list next nextValue with
      | none => pure none
      | some rest => pure (some (.LIST (.ATTRVAL attrname value) rest))
  | _, _ => .error .member

def find_match_in_alias : NODE → Text → Except Fault (Option Text)
  | .NULL, _ => .ok none
  | .LIST self next, rel_alias => do
      let (relname, alias_) ← self.asALIAS
      if relname = rel_alias then pure (some rel_alias)
      else if alias_ = some rel_alias then pure (some relname)
      else find_match_in_alias next rel_alias
  | _, _ => .error .member

/-- The part of the two `replace_alias` functions that treats one attribute: the
relation it belongs to, or nothing if the qualifier is missing or unknown. -/
def replace_alias (alias_ : NODE) (relname : Option Text) : Except Fault (Option Text) :=
  match relname with
  | none => do
      let (self, next) ← alias_.asLIST
      if next.isNode then pure none
      else do
        -- one table in query
        let (relname, _) ← self.asALIAS
        pure (some relname)
  | some s => find_match_in_alias alias_ s

def replace_alias_in_qualattr (alias_ n : NODE) : Except Fault (Option NODE) := do
  let relname ← n.qualattrRelname
  let attrname ← n.qualattrAttrname
  match ← replace_alias alias_ relname with
  | none => pure none
  | some relname => pure (some (.QUALATTR (some relname) attrname))

/-- `replace_alias_in_qualattr_list`; the list is not empty, and `none` is the `NULL` that
reports an error. -/
def replace_alias_in_qualattr_list (alias_ : NODE) : NODE → Except Fault (Option NODE)
  | .NULL => .ok (some .NULL)
  | .LIST self next => do
      match ← replace_alias_in_qualattr alias_ self with
      | none => pure none
      | some attr => do
          match ← replace_alias_in_qualattr_list alias_ next with
          | none => pure none
          | some rest => pure (some (.LIST attr rest))
  | _ => .error .member

/-- `replace_alias_in_condition` of a condition that is not `NULL`. -/
def replace_alias_in_condition (alias_ where_ : NODE) : Except Fault (Option NODE) := do
  if (← where_.kind) = .N_SELECT then do
    let (selattr, op, value) ← where_.asSELECT
    match ← replace_alias_in_qualattr alias_ selattr with
    | none => pure none
    | some selattr => pure (some (.SELECT selattr op value))
  else do
    let (joinattr1, op, joinattr2) ← where_.asJOIN
    match ← replace_alias_in_qualattr alias_ joinattr1 with
    | none => pure none
    | some joinattr1 => do
        match ← replace_alias_in_qualattr alias_ joinattr2 with
        | none => pure none
        | some joinattr2 => pure (some (.JOIN joinattr1 op joinattr2))

def star_node (tables : NODE) : ParseM NODE := do
  let (self, next) ← ParseM.reading tables.asLIST
  if next.isNode then pure .NULL
  else do
    let (relname, _) ← ParseM.reading self.asALIAS
    newnode (.STAR relname)

inductive Token where
  | RW_CREATE | RW_BUILD | RW_DROP | RW_DESTROY | RW_PRINT | RW_LOAD | RW_HELP | RW_QUIT
  | RW_SELECT | RW_INTO | RW_WHERE | RW_INSERT | RW_DELETE | RW_PRIMARY | RW_NUMBUCKETS | RW_FROM
  | RW_TABLE | RW_VALUES | INT_TYPE | REAL_TYPE | CHAR_TYPE
  | T_EQ | T_LT | T_LE | T_GT | T_GE | T_NE | T_EOF | T_STAR
  | lparen | rparen | comma | dot | semicolon
  | T_INT (ival : Int)
  | T_REAL (rval : List Byte)
  | T_STRING (sval : Text)
  | T_QSTRING (sval : Text)
  | T_SHELL_CMD (sval : Text)

namespace Grammar

def op : Operator → Token
  | .LT => .T_LT
  | .LTE => .T_LE
  | .GT => .T_GT
  | .GTE => .T_GE
  | .EQ => .T_EQ
  | .NE => .T_NE

def value : Value → Token
  | .INTEGER ival => .T_INT ival
  | .FLOAT rval => .T_REAL rval
  | .STRING sval => .T_QSTRING sval

/-- `list : item ',' list | item`, as in `attrib_list`, `value_list` and
`non_mt_attrtype_list`. -/
inductive CommaList (α : Type) where
  | cons (first : α) (rest : CommaList α)
  | single (item : α)

namespace CommaList

variable {α : Type}

def tokens (item : α → List Token) : CommaList α → List Token
  | cons first rest => item first ++ .comma :: tokens item rest
  | single only => item only

def action (item : α → ParseM NODE) : CommaList α → ParseM NODE
  | cons first rest => do
      let n ← item first
      let list ← action item rest
      prepend n list
  | single only => do
      let n ← item only
      list_node n

end CommaList

/-- `list : '(' list ')' | item ',' list | item`, as in `table_list` and
`non_mt_qualattr_list`. -/
inductive ParenList (α : Type) where
  | parens (inner : ParenList α)
  | cons (first : α) (rest : ParenList α)
  | single (item : α)

namespace ParenList

variable {α : Type}

def tokens (item : α → List Token) : ParenList α → List Token
  | parens inner => .lparen :: tokens item inner ++ [.rparen]
  | cons first rest => item first ++ .comma :: tokens item rest
  | single only => item only

def action (item : α → ParseM NODE) : ParenList α → ParseM NODE
  | parens inner => action item inner
  | cons first rest => do
      let n ← item first
      let list ← action item rest
      prepend n list
  | single only => do
      let n ← item only
      list_node n

def several : ParenList α → Bool
  | parens inner => several inner
  | cons _ _ => true
  | single _ => false

end ParenList

structure Table where
  relname : Text
  alias_ : Option Text

namespace Table

def tokens (table : Table) : List Token :=
  .T_STRING table.relname :: (table.alias_.map Token.T_STRING).toList

def action (table : Table) : ParseM NODE := alias_node table.relname table.alias_

end Table

structure Qualattr where
  relname : Option Text
  attrname : Text

namespace Qualattr

def tokens (attr : Qualattr) : List Token :=
  match attr.relname with
  | some relname => [.T_STRING relname, .dot, .T_STRING attr.attrname]
  | none => [.T_STRING attr.attrname]

def action (attr : Qualattr) : ParseM NODE := qualattr_node attr.relname attr.attrname

end Qualattr

inductive Qual where
  | selection (attr : Qualattr) (op : Operator) (value : Value)
  | join (attr1 : Qualattr) (op : Operator) (attr2 : Qualattr)

namespace Qual

def tokens : Qual → List Token
  | selection attr op value => attr.tokens ++ [Grammar.op op, Grammar.value value]
  | join attr1 op attr2 => attr1.tokens ++ Grammar.op op :: attr2.tokens

def action : Qual → ParseM NODE
  | selection attr op value => do
      let selattr ← attr.action
      let value ← value_node value
      select_node selattr op value
  | join attr1 op attr2 => do
      let joinattr1 ← attr1.action
      let joinattr2 ← attr2.action
      join_node joinattr1 op joinattr2

def optTokens : Option Qual → List Token
  | some qual => .RW_WHERE :: qual.tokens
  | none => []

def optAction : Option Qual → ParseM NODE
  | some qual => qual.action
  | none => pure .NULL

end Qual

/-- `attrtype : string INT_TYPE | string REAL_TYPE | string CHAR_TYPE '(' value ')'
| string CHAR_TYPE` -/
inductive Attrtype where
  | int (attrname : Text)
  | real (attrname : Text)
  | char (attrname : Text) (length : Value)
  | charDefault (attrname : Text)

namespace Attrtype

def tokens : Attrtype → List Token
  | int attrname => [.T_STRING attrname, .INT_TYPE]
  | real attrname => [.T_STRING attrname, .REAL_TYPE]
  | char attrname length =>
      [.T_STRING attrname, .CHAR_TYPE, .lparen, Grammar.value length, .rparen]
  | charDefault attrname => [.T_STRING attrname, .CHAR_TYPE]

/-- The action reads `ival`, whatever the type of the value is; `address` gives the lower
half of the address of a string. -/
def ival (address : Text → Int) : Value → Int
  | .INTEGER ival => ival
  | .FLOAT rval => readInt (ScanFilter.bytesAt rval 0) 0
  | .STRING sval => address sval

def action (address : Text → Int) : Attrtype → ParseM NODE
  | int attrname => attrtype_node attrname (105 - 128)
  | real attrname => attrtype_node attrname (102 - 128)
  | char attrname length => do
      let value ← value_node length
      let value ← ParseM.reading value.asVALUE
      attrtype_node attrname (ival address value)
  | charDefault attrname => attrtype_node attrname 2

end Attrtype

/-- `opt_into_relname` and `opt_relname` behind their keyword. -/
def optName (keyword : Token) : Option Text → List Token
  | some relname => [keyword, .T_STRING relname]
  | none => []

inductive Command where
  | selectStar (into : Option Text) (tables : ParenList Table) (where_ : Option Qual)
  | select (attrs : ParenList Qualattr) (into : Option Text) (tables : ParenList Table)
      (where_ : Option Qual)
  | insert (relname : Text) (attribs : CommaList Text) (values : CommaList Value)
  | delete (relname : Text) (where_ : Option Qual)
  | create (relname : Text) (attrs : CommaList Attrtype) (primary : Option (Text × Int))
  | destroy (relname : Text)
  | build (relname attrname : Text)
  | drop (relname : Text) (attrname : Option Text)
  | load (relname filename : Text)
  | print (relname : Text)
  | help (relname : Option Text)
  | quit
  | nothing

namespace Command

def tokens : Command → List Token
  | selectStar into tables where_ =>
      [.RW_SELECT, .T_STAR] ++ optName .RW_INTO into ++ .RW_FROM :: tables.tokens Table.tokens ++
        Qual.optTokens where_
  | select attrs into tables where_ =>
      .RW_SELECT :: attrs.tokens Qualattr.tokens ++ optName .RW_INTO into ++
        .RW_FROM :: tables.tokens Table.tokens ++ Qual.optTokens where_
  | insert relname attribs values =>
      [.RW_INSERT, .RW_INTO, .T_STRING relname, .lparen] ++
        attribs.tokens (fun attrname => [.T_STRING attrname]) ++
        [.rparen, .RW_VALUES, .lparen] ++ values.tokens (fun val => [Grammar.value val]) ++
        [.rparen]
  | delete relname where_ =>
      [.RW_DELETE, .RW_FROM, .T_STRING relname] ++ Qual.optTokens where_
  | create relname attrs primary =>
      [.RW_CREATE, .RW_TABLE, .T_STRING relname, .lparen] ++ attrs.tokens Attrtype.tokens ++
        .rparen :: (match primary with
          | some (attrname, nbuckets) =>
              [.RW_PRIMARY, .T_STRING attrname, .RW_NUMBUCKETS, .T_EQ, .T_INT nbuckets]
          | none => [])
  | destroy relname => [.RW_DESTROY, .RW_TABLE, .T_STRING relname]
  | build relname attrname =>
      [.RW_BUILD, .T_STRING relname, .lparen, .T_STRING attrname, .rparen]
  | drop relname attrname =>
      [.RW_DROP, .T_STRING relname] ++ (match attrname with
        | some attrname => [.lparen, .T_STRING attrname, .rparen]
        | none => [])
  | load relname filename =>
      [.RW_LOAD, .RW_TABLE, .T_STRING relname, .RW_FROM, .lparen, .T_QSTRING filename, .rparen]
  | print relname => [.RW_PRINT, .RW_TABLE, .T_STRING relname]
  | help relname => .RW_HELP :: optName .RW_TABLE relname
  | quit => [.RW_QUIT, .semicolon]
  | nothing => []

def optPrimary : Option (Text × Int) → ParseM NODE
  | some (attrname, nbuckets) => primattr_node attrname nbuckets
  | none => pure .NULL

/-- The condition with its aliases replaced. There is none if something is wrong with it. -/
def replacedWhere (tables : NODE) (where_ : NODE) : ParseM (Option NODE) :=
  if where_.isNode then ParseM.reading (replace_alias_in_condition tables where_)
  else pure (some .NULL)

/-- The tree of a command; `NULL` if something is wrong in it. -/
def action (address : Text → Int) : Command → ParseM NODE
  | selectStar into tables where_ => do
      let tables ← tables.action Table.action
      let where_ ← Qual.optAction where_
      match ← replacedWhere tables where_ with
      | none => pure .NULL
      | some where_ => do
          let star ← star_node tables
          query_node into star where_
  | select attrs into tables where_ => do
      let attrs ← attrs.action Qualattr.action
      let tables ← tables.action Table.action
      let where_ ← Qual.optAction where_
      match ← ParseM.reading (replace_alias_in_qualattr_list tables attrs) with
      | none => pure .NULL
      | some qualattr_list => do
          match ← replacedWhere tables where_ with
          | none => pure .NULL
          | some where_ => query_node into qualattr_list where_
  | insert relname attribs values => do
      let attribs ← attribs.action fun attrname => attrval_node attrname .NULL
      let values ← values.action value_node
      match ← ParseM.reading (merge_attr_value_list attribs values) with
      | none => pure .NULL
      | some list => insert_node relname list
  | delete relname where_ => do
      let where_ ← Qual.optAction where_
      delete_node relname where_
  | create relname attrs primary => do
      let attrs ← attrs.action (Attrtype.action address)
      let primattr ← optPrimary primary
      create_node relname attrs primattr
  | destroy relname => destroy_node relname
  | build relname attrname => build_node relname attrname 0
  | drop relname attrname => drop_node relname attrname
  | load relname filename => load_node relname filename
  | print relname => print_node relname
  | help relname => help_node relname
  | quit => throw .exit
  | nothing => pure .NULL

end Command

inductive Start where
  | command (body : Command)
  | shell (line : Text)
  | eof

namespace Start

def tokens : Start → List Token
  | command body => body.tokens ++ [.semicolon]
  | shell line => [.T_SHELL_CMD line]
  | eof => [.T_EOF]

def action (address : Text → Int) : Start → ParseM NODE
  | command body => body.action address
  | shell _ => pure .NULL
  | eof => throw .exit

end Start

end Grammar

end PrimitiveDB

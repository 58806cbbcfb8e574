import PrimitiveDB.ParseTrees
import PrimitiveDB.Catalog

/-!
# The interpreter of parse trees

`interp` and `echo_query` of `interp.C`, with their helpers. The functions of the
database that `interp` calls are parameters, so that what it does with a tree can
be told from what they do with the database. Text that is only printed is left
out; so are the types and lengths that no modelled call reads.
-/

namespace PrimitiveDB

open ByteMemory

set_option autoImplicit false

def MAXATTRS : Nat := 40

def MAXSTRINGLEN : Nat := 255

def TMPRESULT : FileName :=
  [84, 109, 112, 95, 77, 105, 110, 105, 114, 101, 108, 95, 82, 101, 115, 117, 108, 116]

structure Calls (m : Type → Type) where
  attrGetRelInfo : FileName → m (Except Status (List AttrDesc))
  relGetInfo : FileName → m (Except Status RelDesc)
  attrGetInfo : FileName → FileName → m (Except Status AttrDesc)
  createRel : FileName → List AttrInfo → m Status
  destroyRel : FileName → m Status
  QU_Select : FileName → List AttrInfo → Option AttrInfo → Operator → Text → m Status
  QU_Join : FileName → List AttrInfo → AttrInfo → Operator → AttrInfo → m Status
  QU_Insert : FileName → List AttrInfo → m Status
  QU_Delete : FileName → FileName → Operator → Datatype → Text → m Status
  UT_Load : FileName → FileName → m Status
  UT_Print : FileName → m Status
  help : FileName → m Status

/-- A relation name that is `NULL` is printed as `(null)`. -/
def print_qualattr (n : NODE) : Except Fault Unit := do
  let _ ← n.qualattrRelname
  let _ ← n.qualattrAttrname
  pure ()

def print_val (n : NODE) : Except Fault Unit := do
  let _ ← n.asVALUE
  pure ()

def print_attrnames : NODE → Except Fault Unit
  | .NULL => pure ()
  | .LIST self next => do
      print_qualattr self
      print_attrnames next
  | _ => .error .member

def print_attrvals : NODE → Except Fault Unit
  | .NULL => pure ()
  | .LIST self next => do
      let (_, value) ← self.asATTRVAL
      print_val value
      print_attrvals next
  | _ => .error .member

def print_attrdescrs : NODE → Except Fault Unit
  | .NULL => pure ()
  | .LIST self next => do
      let _ ← self.asATTRTYPE
      print_attrdescrs next
  | _ => .error .member

def print_primattr (n : NODE) : Except Fault Unit :=
  if n.isNode then do
    let _ ← n.asPRIMATTR
    pure ()
  else pure ()

def print_qual (n : NODE) : Except Fault Unit :=
  if n.isNode then do
    if (← n.kind) = .N_SELECT then do
      let (selattr, _, value) ← n.asSELECT
      print_qualattr selattr
      print_val value
    else do
      let (joinattr1, _, joinattr2) ← n.asJOIN
      print_qualattr joinattr1
      print_qualattr joinattr2
  else pure ()

def echo_query : NODE → Except Fault Unit
  | .NULL => .error .null
  | .QUERY _ attrlist qual => do
      print_attrnames attrlist
      print_qual qual
  | .INSERT _ attrlist => print_attrvals attrlist
  | .DELETE _ qual => print_qual qual
  | .CREATE _ attrlist primattr => do
      print_attrdescrs attrlist
      print_primattr primattr
  | .DESTROY _ => pure ()
  | .BUILD .. => pure ()
  | .REBUILD .. => pure ()
  | .DROP .. => pure ()
  | .LOAD .. => pure ()
  | .PRINT _ => pure ()
  | .HELP _ => pure ()
  | _ => .error .assertion

def readString : Option Text → Except Fault Text
  | some text => .ok text
  | none => .error .string

/-- The loop of `mk_attrnames` from attribute number `i` on: the names and the
relation, or nothing if the attributes do not fit together. -/
def attrnames : NODE → Nat → Option Text → Except Fault (Option (List Text × Option Text))
  | .NULL, i, relname => .ok (if i = MAXATTRS then none else some ([], relname))
  | n, i, relname =>
      if i = MAXATTRS then .ok none
      else
        match n with
        | .LIST self next => do
            let other ← self.qualattrRelname
            -- remember the first relation, and compare the others with it
            let relname ← (match relname with
              | none => pure (some other)
              | some relname => do
                  let other ← readString other
                  pure (if relname = other then some (some relname) else none)
              : Except Fault (Option (Option Text)))
            match relname with
            | none => pure none
            | some relname => do
                let attrname ← self.qualattrAttrname
                match ← attrnames next (i + 1) relname with
                | none => pure none
                | some (names, relname) => pure (some (attrname :: names, relname))
        | _ => .error .member

/-- `mk_qual_attrs` from attribute number `i` on. -/
def qualAttrs (relname1 relname2 : Option Text) :
    NODE → Nat → Except Fault (Option (List (Text × Text)))
  | .NULL, i => .ok (if i = MAXATTRS then none else some [])
  | n, i =>
      if i = MAXATTRS then .ok none
      else
        match n with
        | .LIST self next => do
            let relname ← readString (← self.qualattrRelname)
            let first ← readString relname1
            let fits ← (if relname = first then pure true
              else do
                let second ← readString relname2
                pure (decide (relname = second)) : Except Fault Bool)
            if fits then do
              let attrname ← self.qualattrAttrname
              match ← qualAttrs relname1 relname2 next (i + 1) with
              | none => pure none
              | some attrs => pure (some ((relname, attrname) :: attrs))
            else pure none
        | _ => .error .member

def parse_format_string (format : Int) : Option (Datatype × Int) :=
  if format = 105 - 128 then some (.INTEGER, 4)
  else if format = 102 - 128 then some (.FLOAT, 4)
  else if format ≤ 255 ∧ format ≥ 1 then some (.STRING, format)
  else none

/-- `mk_attr_descrs` from attribute number `i` on. -/
def attrDescrs : NODE → Nat → Except Fault (Option (List (Text × Datatype × Int)))
  | .NULL, i => .ok (if i = MAXATTRS then none else some [])
  | n, i =>
      if i = MAXATTRS then .ok none
      else
        match n with
        | .LIST self next => do
            let (attrname, format) ← self.asATTRTYPE
            match parse_format_string format with
            | none => pure none
            | some (type, len) => do
                match ← attrDescrs next (i + 1) with
                | none => pure none
                | some descrs => pure (some ((attrname, type, len) :: descrs))
        | _ => .error .member

def Value.type : Value → Datatype
  | INTEGER _ => .INTEGER
  | FLOAT _ => .FLOAT
  | STRING _ => .STRING

def Value.len : Value → Nat
  | INTEGER _ => 0
  | FLOAT _ => 0
  | STRING sval => sval.length

/-- `value_of`: the value in string form, in a buffer of 255 characters. -/
def Value.text (value : Value) : Text :=
  let shown : Text :=
    match value with
    | INTEGER ival => Literal.printInt ival
    | FLOAT rval => Literal.printFloat rval
    | STRING sval => sval
  shown.take 254

/-- `mk_ins_attrs` from attribute number `i` on. -/
def insAttrs : NODE → Nat → Except Fault (Option (List (Text × Value)))
  | .NULL, i => .ok (if i = MAXATTRS then none else some [])
  | n, i =>
      if i = MAXATTRS then .ok none
      else
        match n with
        | .LIST self next => do
            let (attrname, value) ← self.asATTRVAL
            let value ← value.asVALUE
            if value.type = .STRING ∧ value.len > MAXSTRINGLEN then pure none
            else do
              match ← insAttrs next (i + 1) with
              | none => pure none
              | some attrs => pure (some ((attrname, value) :: attrs))
        | _ => .error .member

section Interp

variable {m : Type → Type} [Monad m] (calls : Calls m)

def reading {α : Type} (read : Except Fault α) : ExceptT Fault m α := ExceptT.mk (pure read)

def calling {α : Type} (call : m α) : ExceptT Fault m α := ExceptT.lift call

def mk_attrnames (list : NODE) (relname : Option Text) :
    ExceptT Fault m (Option (List Text × Option Text)) := do
  if (← reading list.kind) = .N_STAR then do
    let relname ← reading list.qualattrRelname
    let name ← reading (readString relname)
    match ← calling (calls.attrGetRelInfo name) with
    | .error _ => pure none
    | .ok attrs =>
        if attrs.length ≥ MAXATTRS then pure none
        else pure (some (attrs.map AttrDesc.attrName, relname))
  else reading (attrnames list 0 relname)

/-- The name of an attribute of the result; a join gives numbers to names that are
there already. The source does so by an `snprintf` of the name onto itself, whose
result is undefined; here it formats the name as it was. -/
def resultAttrName (rename : Bool) (done : List AttrInfo) (attrName : Text) (counter : Int) :
    Text × Int :=
  if rename ∧ attrName ∈ done.map AttrInfo.attrName then
    ((attrName ++ [95] ++ Literal.printInt counter).take (MAXNAME - 1), counter + 1)
  else (attrName, counter)

/-- The loop that fills `createAttrInfo`. It ends the statement if an attribute is
not in the catalog. -/
def createAttrInfo (resultName : FileName) (rename : Bool) :
    List AttrInfo → List AttrInfo → Int → m (Option (List AttrInfo) × Int)
  | [], done, counter => pure (some done, counter)
  | attr :: attrs, done, counter => do
      let (attrName, counter) := resultAttrName rename done attr.attrName counter
      match ← calls.attrGetInfo attr.relName attr.attrName with
      | .error _ => pure (none, counter)
      | .ok desc =>
          createAttrInfo resultName rename attrs (done ++
            [{ relName := resultName, attrName, attrType := desc.attrType, attrLen := desc.attrLen
               attrValue := none }]) counter

def typesMatch : List AttrInfo → List AttrDesc → m Bool
  | attr :: attrs, desc :: descs => do
      match ← calls.attrGetInfo attr.relName attr.attrName with
      | .error _ => pure false
      | .ok attrDesc =>
          if attrDesc.attrType ≠ desc.attrType ∨ attrDesc.attrLen ≠ desc.attrLen then pure false
          else typesMatch attrs descs
  | _, _ => pure true

/-- The result relation is created, or `attrs` describes it and has to fit. -/
def prepareResult (resultName : FileName) (existing : Option (List AttrDesc)) (rename : Bool)
    (attrList : List AttrInfo) (counter : Int) : m (Bool × Int) := do
  match existing with
  | none => do
      match ← createAttrInfo calls resultName rename attrList [] counter with
      | (none, counter) => pure (false, counter)
      | (some infos, counter) => do
          let status ← calls.createRel resultName infos
          pure (status = .OK, counter)
  | some attrs =>
      if attrList.length ≠ attrs.length then pure (false, counter)
      else do
        let fits ← typesMatch calls attrList attrs
        pure (fits, counter)

def queryAttr (relName attrName : Text) : AttrInfo :=
  { relName, attrName, attrType := -1, attrLen := -1, attrValue := none }

def finishQuery (resultName : FileName) : m Unit :=
  if resultName = TMPRESULT then do
    let _ ← calls.UT_Print resultName
    let _ ← calls.destroyRel resultName
    pure ()
  else pure ()

/-- `select`, with or without a condition on one attribute. -/
def interpSelect (resultName : FileName) (existing : Option (List AttrDesc)) (attrlist : NODE)
    (cond : Option (NODE × Operator × NODE)) (counter : Int) : ExceptT Fault m Int := do
  let relname ← (match cond with
    | none => pure none
    | some (selattr, _, _) => reading selattr.qualattrRelname : ExceptT Fault m (Option Text))
  match ← mk_attrnames calls attrlist relname with
  | none => pure counter
  | some (names, relname) => do
      let relName ← reading (readString relname)
      let attrList := names.map (queryAttr relName)
      let filter ← (match cond with
        | none => pure (none, .LT, [])
        | some (selattr, op, value) => do
            let attrname ← reading selattr.qualattrAttrname
            let value ← reading value.asVALUE
            pure (some { queryAttr relName attrname with
              attrType := value.type.code, attrValue := some value.text }, op, value.text)
        : ExceptT Fault m (Option AttrInfo × Operator × Text))
      let (attr, op, text) := filter
      let (ready, counter) ←
        calling (prepareResult calls resultName existing false attrList counter)
      if ready then do
        let _ ← calling (calls.QU_Select resultName attrList attr op text)
        calling (finishQuery calls resultName)
        pure counter
      else pure counter

def interpJoin (resultName : FileName) (existing : Option (List AttrDesc))
    (attrlist joinattr1 : NODE) (op : Operator) (joinattr2 : NODE) (counter : Int) :
    ExceptT Fault m Int := do
  let relname1 ← reading joinattr1.qualattrRelname
  let relname2 ← reading joinattr2.qualattrRelname
  match ← reading (qualAttrs relname1 relname2 attrlist 0) with
  | none => pure counter
  | some attrs => do
      let attrList := attrs.map fun attr => queryAttr attr.1 attr.2
      let attr1 := queryAttr (← reading (readString relname1))
        (← reading joinattr1.qualattrAttrname)
      let attr2 := queryAttr (← reading (readString relname2))
        (← reading joinattr2.qualattrAttrname)
      let (ready, counter) ←
        calling (prepareResult calls resultName existing true attrList counter)
      if ready then do
        let _ ← calling (calls.QU_Join resultName attrList attr1 op attr2)
        calling (finishQuery calls resultName)
        pure counter
      else pure counter

/-- The result relation of a query and its attributes if it exists; nothing if the
query ends here. -/
def resultRelation (relname : Option Text) : m (Option (FileName × Option (List AttrDesc))) :=
  match relname with
  | some resultName => do
      match ← calls.attrGetRelInfo resultName with
      | .ok attrs => pure (some (resultName, some attrs))
      | .error status => pure (if status = .RELNOTFOUND then some (resultName, none) else none)
  | none => do
      match ← calls.relGetInfo TMPRESULT with
      | .ok _ => pure none
      | .error status => pure (if status = .RELNOTFOUND then some (TMPRESULT, none) else none)

def interpQuery (relname : Option Text) (attrlist qual : NODE) (counter : Int) :
    ExceptT Fault m Int := do
  match ← calling (resultRelation calls relname) with
  | none => pure counter
  | some (resultName, existing) =>
      -- if no qualification then this is a simple select
      if ¬qual.isNode then interpSelect calls resultName existing attrlist none counter
      else if (← reading qual.kind) = .N_SELECT then do
        let cond ← reading qual.asSELECT
        interpSelect calls resultName existing attrlist (some cond) counter
      else do
        let (joinattr1, op, joinattr2) ← reading qual.asJOIN
        interpJoin calls resultName existing attrlist joinattr1 op joinattr2 counter

def interpInsert (relname : Text) (attrlist : NODE) : ExceptT Fault m Unit := do
  match ← reading (insAttrs attrlist 0) with
  | none => pure ()
  | some attrs => do
      let attrList := attrs.map fun attr =>
        { queryAttr relname attr.1 with
          attrType := attr.2.type.code, attrValue := some attr.2.text }
      let _ ← calling (calls.QU_Insert relname attrList)
      pure ()

def interpDelete (relname : Text) (qual : NODE) : ExceptT Fault m Unit := do
  if ¬qual.isNode then do
    let _ ← calling (calls.QU_Delete relname [] .LT .STRING [])
    pure ()
  -- qualification must be a select, not a join
  else if (← reading qual.kind) ≠ .N_SELECT then pure ()
  else do
    let (selattr, op, value) ← reading qual.asSELECT
    let attrname ← reading selattr.qualattrAttrname
    let value ← reading value.asVALUE
    let _ ← calling (calls.QU_Delete relname attrname op value.type value.text)
    pure ()

def interpCreate (relname : Text) (attrlist primattr : NODE) : ExceptT Fault m Unit := do
  match ← reading (attrDescrs attrlist 0) with
  | none => pure ()
  | some descrs => do
      -- what the statement says about a primary attribute is read and not used
      if primattr.isNode then do
        let _ ← reading primattr.asPRIMATTR
      let attrList := descrs.map fun descr =>
        { relName := relname, attrName := descr.1, attrType := descr.2.1.code
          attrLen := descr.2.2, attrValue := none }
      let _ ← calling (calls.createRel relname attrList)
      pure ()

/-- `interp`; `counter` is its static variable, before and after the statement. -/
def interp (counter : Int) : NODE → ExceptT Fault m Int
  | .NULL => reading (.error .null)
  | .QUERY relname attrlist qual => interpQuery calls relname attrlist qual counter
  | .INSERT relname attrlist => do
      interpInsert calls relname attrlist
      pure counter
  | .DELETE relname qual => do
      interpDelete calls relname qual
      pure counter
  | .CREATE relname attrlist primattr => do
      interpCreate calls relname attrlist primattr
      pure counter
  | .DESTROY relname => do
      let _ ← calling (calls.destroyRel relname)
      pure counter
  | .LOAD relname filename => do
      let _ ← calling (calls.UT_Load relname filename)
      pure counter
  | .PRINT relname => do
      let _ ← calling (calls.UT_Print relname)
      pure counter
  | .HELP relname => do
      let _ ← calling (calls.help (relname.getD []))
      pure counter
  -- so that compiler won't complain
  | _ => reading (.error .assertion)

end Interp

end PrimitiveDB

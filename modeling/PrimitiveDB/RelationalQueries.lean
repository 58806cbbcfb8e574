import PrimitiveDB.JoinStatements
import PrimitiveDB.RelationalTables

/-!
# Queries on tables

Selections, joins, insertions, deletions and loads as functions of the tables. A selection keeps
the tuples in which the comparison holds, a join the pairs, and both put what they project next
to the tuples of the result.
-/

namespace PrimitiveDB

open ByteMemory FixedRows

set_option autoImplicit false

instance (op : Operator) : Decidable op.Equational := by
  cases op <;> unfold Operator.Equational <;> infer_instance

instance (type : Datatype) (op : Operator) (attr value : List Byte) :
    Decidable (ComparesExactly type op attr value) :=
  match type with
  | .STRING => inferInstanceAs (Decidable True)
  | .INTEGER => inferInstanceAs (Decidable (_ ∨ _))
  | .FLOAT => inferInstanceAs (Decidable True)

namespace Relational

def MAXTUPLE : Int := 1000

/-- `desc op value`; as much of the value is compared as the attribute is long. -/
def Satisfies (desc : AttrDesc) (type : Datatype) (op : Operator) (value : List Byte)
    (rec : Record) : Prop :=
  AttrHolds type op (desc.bytes rec) ((literalBytes type value).take desc.attrLen.toNat)

instance (desc : AttrDesc) (type : Datatype) (op : Operator) (value : List Byte) :
    DecidablePred (Satisfies desc type op value) :=
  fun _ => inferInstanceAs (Decidable (AttrHolds _ _ _ _))

/-- The attribute is one of the table and has this type, and no comparison of its values with
this one overflows. -/
def Table.Comparable (table : Table) (desc : AttrDesc) (type : Datatype) (op : Operator)
    (value : List Byte) : Prop :=
  desc ∈ table.descs ∧ Datatype.ofCode desc.attrType = some type ∧
    ∀ rec ∈ table.rows, ComparesExactly type op (desc.bytes rec)
      ((literalBytes type value).take desc.attrLen.toNat)

instance (table : Table) (desc : AttrDesc) (type : Datatype) (op : Operator)
    (value : List Byte) : Decidable (table.Comparable desc type op value) :=
  inferInstanceAs (Decidable (_ ∧ _ ∧ _))

def lookUpAttrs : List AttrInfo → Query (Except Status (List AttrDesc))
  | [] => pure (.ok [])
  | attr :: attrs => do
      match ← attrGetInfo attr.relName attr.attrName with
      | .error status => pure (.error status)
      | .ok desc => do
          match ← lookUpAttrs attrs with
          | .error status => pure (.error status)
          | .ok descs => pure (.ok (desc :: descs))

def putProjections (result : FileName) (projNames : List AttrDesc) (rows : Multiset Record)
    (db : Database) : Option (Status × Database) := do
  let db' ← db.addRows result (rows.map fun rec => projected (fun _ => rec) projNames)
  some (.OK, db')

def ScanSelect (result : FileName) (projNames : List AttrDesc) (attrDesc : Option AttrDesc)
    (op : Operator) (filter : List Byte) : Query Status := fun db => do
  let first ← projNames.head?
  let source ← db.table first.relName
  if first.relName ≠ result ∧ (∀ desc ∈ projNames, desc ∈ source.descs) ∧
      width projNames ≤ MAXTUPLE then
    match attrDesc with
    | none => putProjections result projNames source.rows db
    | some attr => do
        let type ← Datatype.ofCode attr.attrType
        if source.Comparable attr type op filter then
          putProjections result projNames (source.rows.filter (Satisfies attr type op filter)) db
        else none
  else none

def QU_Select (result : FileName) (projNames : List AttrInfo) (attr : Option AttrInfo)
    (op : Operator) (attrValue : List Byte) : Query Status := do
  match ← lookUpAttrs projNames with
  | .error status => pure status
  | .ok descs =>
  match attr with
  | none => ScanSelect result descs none op attrValue
  | some attr => do
  match ← attrGetInfo attr.relName attr.attrName with
  | .error status => pure status
  | .ok attrDesc => ScanSelect result descs (some attrDesc) op attrValue

/-- The pairs in which the comparison holds, with each attribute taken from the tuple of its
relation. A relation that is joined with itself has only the outer tuple. -/
def joined (descs : List AttrDesc) (desc1 desc2 : AttrDesc) (type : Datatype) (op : Operator)
    (outer inner : Multiset Record) : Multiset Record :=
  outer.bind fun outerRec =>
    (inner.filter fun innerRec =>
      AttrHolds type op (desc1.bytes outerRec) (desc2.bytes innerRec)).map fun innerRec =>
        projected (joinSide desc1 outerRec innerRec) descs

def joinScans (result : FileName) (descs : List AttrDesc) (desc1 desc2 : AttrDesc)
    (op : Operator) : Query Status := fun db => do
  let outer ← db.table desc1.relName
  let inner ← db.table desc2.relName
  let type ← Datatype.ofCode desc2.attrType
  if desc1.relName ≠ result ∧ desc2.relName ≠ result ∧ desc1 ∈ outer.descs ∧
      desc2 ∈ inner.descs ∧ descs ≠ [] ∧
      (∀ desc ∈ descs, desc ∈ outer.descs ∨ desc ∈ inner.descs) ∧ width descs ≤ MAXTUPLE ∧
      desc1.attrLen = desc2.attrLen ∧
      ∀ outerRec ∈ outer.rows, ∀ innerRec ∈ inner.rows,
        DifferenceFits type (desc1.bytes outerRec) (desc2.bytes innerRec) then do
    let db' ← db.addRows result (joined descs desc1 desc2 type op outer.rows inner.rows)
    some (.OK, db')
  else none

def QU_NL_Join (result : FileName) (projNames : List AttrInfo) (attr1 : AttrInfo)
    (op : Operator) (attr2 : AttrInfo) : Query Status :=
  if TypesDiffer attr1 attr2 then pure .ATTRTYPEMISMATCH
  else do
  match ← lookUpAttrs projNames with
  | .error status => pure status
  | .ok descs => do
  match ← attrGetInfo attr1.relName attr1.attrName with
  | .error status => pure status
  | .ok desc1 => do
  match ← attrGetInfo attr2.relName attr2.attrName with
  | .error status => pure status
  | .ok desc2 => joinScans result descs desc1 desc2 op

def QU_Join (joinMethod : JoinType) (result : FileName) (projNames : List AttrInfo)
    (attr1 : AttrInfo) (op : Operator) (attr2 : AttrInfo) : Query Status :=
  if joinMethod = .NLJoin ∨ joinMethod = .HashJoin ∧ op ≠ .EQ then
    QU_NL_Join result projNames attr1 op attr2
  else fun _ => none

def QU_Insert (data : Memory) (relation : FileName) (attrList : List (AttrInfo × Memory)) :
    Query Status := fun db =>
  if relation = [] then some (.BADCATPARM, db)
  else if UserName relation then
    match db.table relation with
    | none => some (.RELNOTFOUND, db)
    | some table =>
        if attrList.length = table.descs.length ∧ Known table.descs (attrList.map Prod.fst) then
          if width table.descs ≤ MAXTUPLE then do
            let db' ← db.addRows relation {builtRecord table.descs data attrList}
            some (.OK, db')
          else none
        else some (.BADCATPARM, db)
  else none

def QU_Delete (relation attrName : FileName) (op : Operator) (type : Datatype)
    (attrValue : List Byte) : Query Status := fun db => do
  let table ← db.table relation
  if attrName = [] then do
    let db' ← db.keepRows relation fun _ => False
    some (.OK, db')
  else
    match table.descs.find? fun desc => desc.attrName = attrName with
    | none => some (.ATTRNOTFOUND, db)
    | some desc =>
        if table.Comparable desc type op attrValue then do
          let db' ← db.keepRows relation fun rec => ¬Satisfies desc type op attrValue rec
          some (.OK, db')
        else none

def UT_Load (files : FileName → Option DataFile) (relation fileName : FileName) :
    Query Status := fun db =>
  if relation = [] ∨ fileName = [] ∨ relation = RELCATNAME ∨ relation = ATTRCATNAME then
    some (.BADCATPARM, db)
  else
  match files fileName with
  | none => some (.UNIXERR, db)
  | some fd =>
      if UserName relation then
        match db.table relation with
        | none => some (.RELNOTFOUND, db)
        | some table =>
            if width table.descs ≤ MAXTUPLE then do
              let db' ← db.addRows relation (wholeRows (width table.descs).toNat fd.bytes)
              some (if fd.closes then .OK else .UNIXERR, db')
            else none
      else none

/-- What is shown: the attributes and the tuples of a relation, where nothing is said of the
tuples of a catalog; the attributes alone; the status of a call that has failed. -/
inductive Shown where
  | tuples (relName : FileName) (attrs : List AttrDesc) (rows : Option (Multiset Record))
  | attributes (relation : RelDesc) (attrs : List AttrDesc)
  | failure (status : Status)
deriving DecidableEq

def scanAll (relation : FileName) (attrs : List AttrDesc) : Query (Status × List Shown) :=
  fun db =>
    if db.describe relation = [] then none
    else some ((.OK, [.tuples relation attrs ((db.table relation).map Table.rows)]), db)

def printUtility (relation : FileName) : Query (Status × List Shown) := do
  let relation := if relation = [] then RELCATNAME else relation
  match ← relGetInfo relation with
  | .error status => pure (status, [])
  | .ok rd => do
  match ← attrGetRelInfo rd.relName with
  | .error status => pure (status, [])
  | .ok attrs => scanAll rd.relName attrs

def UT_Print (relation : FileName) : Query Status := do
  let (status, _) ← printUtility relation
  pure status

def helpUtility (relation : FileName) : Query (Status × List Shown) := do
  if relation = [] then printUtility RELCATNAME
  else
  match ← relGetInfo relation with
  | .error status => pure (status, [])
  | .ok rd => do
  match ← attrGetRelInfo relation with
  | .error status => pure (status, [])
  | .ok attrs => pure (.OK, [.attributes rd attrs])

def help (relation : FileName) : Query Status := do
  let (status, _) ← helpUtility relation
  pure status

def tableCalls (joinMethod : JoinType) (data behind : Memory)
    (files : FileName → Option DataFile) : Calls Query where
  attrGetRelInfo := attrGetRelInfo
  relGetInfo := relGetInfo
  attrGetInfo := attrGetInfo
  createRel := createRel
  destroyRel := destroyRel
  QU_Select := QU_Select
  QU_Join := QU_Join joinMethod
  QU_Insert := fun relation attrList =>
    QU_Insert data relation (attrList.map fun attr => (attr, behind))
  QU_Delete := QU_Delete
  UT_Load := UT_Load files
  UT_Print := UT_Print
  help := help

end Relational

end PrimitiveDB

import PrimitiveDB.Catalog
import PrimitiveDB.Literals

/-!
# Queries

`insert.C`, `delete.C`, `select.C` and the nested-loops join of `join.C`. Scans and inserters
are automatic objects, so every `return` runs their destructors; the destructor
of an object whose file could not be opened follows a dangling `File*`. Messages
and performance counters are left out.
-/

namespace PrimitiveDB

open ByteMemory

set_option autoImplicit false

/-- `startScan` on attribute `attr`, with the value converted as `type` says. -/
def HeapFileScan.startLiteral (scan : HeapFileScan) (attr : AttrDesc) (type : Int)
    (value : List Byte) (op : Operator) : Status × HeapFileScan :=
  match Datatype.ofCode type with
  | some .INTEGER => scan.startScan attr.attrOffset attr.attrLen .INTEGER
      (some (intBytes (Literal.atoi value))) op
  | some .FLOAT => scan.startScan attr.attrOffset attr.attrLen .FLOAT
      (some (Literal.atof value)) op
  | some .STRING => scan.startScan attr.attrOffset attr.attrLen .STRING
      (some (value ++ [0])) op
  | none => (.BADSCANPARM, scan)

def HeapFileScan.startAll (scan : HeapFileScan) : Status × HeapFileScan :=
  scan.startScan 0 0 .STRING none .EQ

/-- `while (scan.scanNext(rid) == OK) { ... deleteRecord ... }`. -/
def deleteLoop (tmpRid : RID) : Nat → HeapFileScan → DbM (Status × HeapFileScan)
  | 0, _ => DbM.crash
  | fuel + 1, scan => do
      match ← scan.scanNext tmpRid with
      | (.error _, scan) => pure (.OK, scan)
      | (.ok _, scan) => do
          let (status, scan) ← scan.deleteRecord
          if status ≠ .OK then pure (status, scan) else deleteLoop tmpRid fuel scan

/-- The loop of `QU_Delete`. It ends after as many rounds as the file has
records; the model allows for as many as its pages can hold. -/
def deleteMatching (tmpRid : RID) (scan : HeapFileScan) : DbM (Status × HeapFileScan) := do
  let fuel ← DbM.read (HeapFileScan.scanFuel · scan.filePtr)
  deleteLoop tmpRid fuel scan

def QU_Delete (mem : Uninit) (tmpRid : RID) (relation attrName : FileName) (op : Operator)
    (type : Datatype) (attrValue : List Byte) : DbM Status := do
  match ← HeapFileScan.new mem relation with
  | .error _ => DbM.crash
  | .ok scan => do
  let started ← (
    if attrName = [] then pure scan.startAll
    else do
      match ← AttrCatalog.getInfo mem tmpRid relation attrName with
      | .error status => pure (status, scan)
      | .ok attrdesc => pure (scan.startLiteral attrdesc type.code attrValue op)
    : DbM (Status × HeapFileScan))
  let (status, scan) := started
  if status ≠ .OK then do
    scan.delete
    pure status
  else
  let (status, scan) ← deleteMatching tmpRid scan
  scan.delete
  pure status

def copyAttr (rec : Record) (attr : AttrDesc) : DbM (List Byte) :=
  if 0 ≤ attr.attrOffset ∧ 0 ≤ attr.attrLen ∧ attr.attrOffset + attr.attrLen ≤ rec.length then
    pure ((rec.drop attr.attrOffset.toNat).take attr.attrLen.toNat)
  else DbM.crash

/-- The loop that copies the projected attributes into `outputData`; `source` is
the tuple that an attribute comes from. -/
def copyAttrs (source : AttrDesc → Record) : List AttrDesc → DbM Record
  | [] => pure []
  | attr :: attrs => do
      let bytes ← copyAttr (source attr) attr
      let more ← copyAttrs source attrs
      pure (bytes ++ more)

/-- `resultRel.insertRecord(outputRec, outRID); ASSERT(status == OK)`. -/
def insertOutput (resultRel : InsertFileScan) (outputRec : Record) : DbM InsertFileScan := do
  match ← resultRel.insertRecord outputRec with
  | (.ok _, resultRel) => pure resultRel
  | (.error _, _) => DbM.crash

/-- `scan.getRecord(rec); ASSERT(status == OK)`. -/
def currentRecord (scan : HeapFileScan) : DbM Record := do
  match ← scan.current with
  | .ok rec => pure rec
  | .error _ => DbM.crash

/-- The scan loop of `ScanSelect` and of the inner relation of the join; `source`
gives the tuple that an attribute of the projection list is copied from. -/
def emitLoop (tmpRid : RID) (projNames : List AttrDesc) (source : Record → AttrDesc → Record) :
    Nat → HeapFileScan → InsertFileScan → DbM (HeapFileScan × InsertFileScan)
  | 0, _, _ => DbM.crash
  | fuel + 1, scan, resultRel => do
      match ← scan.scanNext tmpRid with
      | (.error _, scan) => pure (scan, resultRel)
      | (.ok _, scan) => do
          let tuple ← currentRecord scan
          -- we have a match, copy data into the output record
          let outputRec ← copyAttrs (source tuple) projNames
          -- add the new record to the output relation
          let resultRel ← insertOutput resultRel outputRec
          emitLoop tmpRid projNames source fuel scan resultRel

def selectLoop (tmpRid : RID) (projNames : List AttrDesc) :
    Nat → HeapFileScan → InsertFileScan → DbM (HeapFileScan × InsertFileScan) :=
  emitLoop tmpRid projNames fun tuple _ => tuple

/-- Opens the result relation and hands it to `body`; a failed constructor ends
the query. -/
def withResult (mem : Uninit) (result : FileName) (body : InsertFileScan → DbM Status) :
    DbM Status := do
  let (status, resultRel) ← InsertFileScan.new mem result
  match resultRel with
  | none => DbM.crash
  | some resultRel =>
      if status ≠ .OK then do
        resultRel.delete
        pure status
      else body resultRel

def HeapFileScan.startSelect (scan : HeapFileScan) (attrDesc : Option AttrDesc) (op : Operator)
    (filter : List Byte) : Status × HeapFileScan :=
  match attrDesc with
  | some attr => scan.startLiteral attr attr.attrType filter op
  | none => scan.startAll

def ScanSelect (mem : Uninit) (tmpRid : RID) (result : FileName) (projNames : List AttrDesc)
    (attrDesc : Option AttrDesc) (op : Operator) (filter : List Byte) : DbM Status :=
  withResult mem result fun resultRel => do
  -- start scan on table
  match projNames with
  | [] => DbM.crash
  | first :: _ => do
  match ← HeapFileScan.new mem first.relName with
  | .error _ => DbM.crash
  | .ok scan => do
  let (status, scan) := scan.startSelect attrDesc op filter
  if status ≠ .OK then do
    scan.delete
    resultRel.delete
    pure status
  else
  -- scan table; a scan that goes on for longer reads what it has inserted
  let fuel ← DbM.read (HeapFileScan.scanFuel · scan.filePtr)
  let (scan, resultRel) ← selectLoop tmpRid projNames fuel scan resultRel
  scan.delete
  resultRel.delete
  pure .OK

def lookUpAttrs (mem : Uninit) (tmpRid : RID) :
    List AttrInfo → DbM (Except Status (List AttrDesc))
  | [] => pure (.ok [])
  | attr :: attrs => do
      match ← AttrCatalog.getInfo mem tmpRid attr.relName attr.attrName with
      | .error status => pure (.error status)
      | .ok desc => do
          match ← lookUpAttrs mem tmpRid attrs with
          | .error status => pure (.error status)
          | .ok descs => pure (.ok (desc :: descs))

def QU_Select (mem : Uninit) (tmpRid : RID) (result : FileName) (projNames : List AttrInfo)
    (attr : Option AttrInfo) (op : Operator) (attrValue : List Byte) : DbM Status := do
  match ← lookUpAttrs mem tmpRid projNames with
  | .error status => pure status
  | .ok attrDescArray => do
  match attr with
  | none => ScanSelect mem tmpRid result attrDescArray none op attrValue
  | some attr => do
  -- get AttrDesc structure for the attribute
  match ← AttrCatalog.getInfo mem tmpRid attr.relName attr.attrName with
  | .error status => pure status
  | .ok attrDesc => ScanSelect mem tmpRid result attrDescArray (some attrDesc) op attrValue

/-- What `attrValue` points to: a text with its terminator, and behind it whatever lies there. -/
def valueMemory (behind : Memory) (text : List Byte) : Memory := writeBytes behind 0 (text ++ [0])

def convertValue (attrType : Int) (text : List Byte) (value : Memory) : Memory :=
  match Datatype.ofCode attrType with
  | some .INTEGER => writeBytes value 0 (intBytes (Literal.atoi text))
  | some .FLOAT => writeBytes value 0 (Literal.atof text)
  | _ => value

/-- `infoMap`; a name that occurs twice stands for its last description. -/
def infoMap (relAttrDesc : List AttrDesc) (name : List Byte) : Option AttrDesc :=
  relAttrDesc.reverse.find? fun desc => desc.attrName = name

/-- The loop that copies the values into `data`. -/
def placeValues (relAttrDesc : List AttrDesc) (len : Int) :
    Memory → List (AttrInfo × Memory) → DbM (Except Status Memory)
  | data, [] => pure (.ok data)
  | data, (attr, behind) :: attrs => do
      match attr.attrValue with
      -- if there is no value associated with the var
      | none => pure (.error .BADCATPARM)
      | some text => do
      match infoMap relAttrDesc (cString attr.attrName) with
      -- if the key doesn't exist
      | none => pure (.error .BADCATPARM)
      | some info =>
          let value := convertValue info.attrType text (valueMemory behind text)
          if 0 ≤ info.attrOffset ∧ 0 ≤ info.attrLen ∧ info.attrOffset + info.attrLen ≤ len then
            placeValues relAttrDesc len
              (writeBytes data info.attrOffset.toNat (readBytes value 0 info.attrLen.toNat)) attrs
          else DbM.crash

/-- `insertFS.insertRecord(rec, out)`, behind which `insertFS` goes out of scope. -/
def insertOnce (rec : Record) (insertFS : InsertFileScan) : DbM Status := do
  let (result, insertFS) ← insertFS.insertRecord rec
  insertFS.delete
  match result with
  | .ok _ => pure .OK
  | .error status => pure status

/-- `QU_Insert`. `attrList` comes with the memory behind each value and `data` is what the
array of that name holds before it is written to. -/
def QU_Insert (mem : Uninit) (tmpRid : RID) (data : Memory) (relation : FileName)
    (attrList : List (AttrInfo × Memory)) : DbM Status := do
  match ← AttrCatalog.getRelInfo mem tmpRid relation with
  | .error status => pure status
  | .ok relAttrDesc => do
  -- if the attr # != # expected in rel, return bad status
  if attrList.length ≠ relAttrDesc.length then pure .BADCATPARM
  else
  let len := (relAttrDesc.map AttrDesc.attrLen).sum
  match ← placeValues relAttrDesc len data attrList with
  | .error status => pure status
  | .ok data => withResult mem relation (insertOnce (readBytes data 0 len.toNat))

/-- `myop`: the inner scan has the operands the other way round. -/
def mirrored : Operator → Operator
  | .EQ => .EQ
  | .GT => .LT
  | .GTE => .LTE
  | .LT => .GT
  | .LTE => .GTE
  | .NE => .NE

def joinSide (attrDesc1 : AttrDesc) (outerRec innerRec : Record) (attr : AttrDesc) : Record :=
  if attr.relName = attrDesc1.relName then outerRec else innerRec

def innerLoop (tmpRid : RID) (attrDescArray : List AttrDesc) (attrDesc1 : AttrDesc)
    (outerRec : Record) :
    Nat → HeapFileScan → InsertFileScan → DbM (HeapFileScan × InsertFileScan) :=
  emitLoop tmpRid attrDescArray (joinSide attrDesc1 outerRec)

/-- The `startScan` of the inner scan, whose filter points into the outer tuple. -/
def HeapFileScan.startJoin (innerScan : HeapFileScan) (attrDesc1 attrDesc2 : AttrDesc)
    (myop : Operator) (outerRec : Record) : Status × HeapFileScan :=
  match Datatype.ofCode attrDesc2.attrType with
  | some type => innerScan.startScan attrDesc2.attrOffset attrDesc2.attrLen type
      (some (outerRec.drop attrDesc1.attrOffset.toNat)) myop
  | none => (.BADSCANPARM, innerScan)

/-- The body of the outer loop: the inner scan is constructed, used and
destroyed. -/
def joinWith (mem : Uninit) (tmpRid : RID) (attrDescArray : List AttrDesc)
    (attrDesc1 attrDesc2 : AttrDesc) (myop : Operator) (outerRec : Record)
    (resultRel : InsertFileScan) : DbM (Status × InsertFileScan) := do
  match ← HeapFileScan.new mem attrDesc2.relName with
  | .error _ => DbM.crash
  | .ok innerScan => do
  let (status, innerScan) := innerScan.startJoin attrDesc1 attrDesc2 myop outerRec
  if status ≠ .OK then do
    innerScan.delete
    pure (status, resultRel)
  else
  let fuel ← DbM.read (HeapFileScan.scanFuel · innerScan.filePtr)
  let (innerScan, resultRel) ←
    innerLoop tmpRid attrDescArray attrDesc1 outerRec fuel innerScan resultRel
  innerScan.delete
  pure (.OK, resultRel)

def outerLoop (mem : Uninit) (tmpRid : RID) (attrDescArray : List AttrDesc)
    (attrDesc1 attrDesc2 : AttrDesc) (myop : Operator) :
    Nat → HeapFileScan → InsertFileScan → DbM (Status × HeapFileScan × InsertFileScan)
  | 0, _, _ => DbM.crash
  | fuel + 1, outerScan, resultRel => do
      match ← outerScan.scanNext tmpRid with
      | (.error _, outerScan) => pure (.OK, outerScan, resultRel)
      | (.ok _, outerScan) => do
          let outerRec ← currentRecord outerScan
          let (status, resultRel) ←
            joinWith mem tmpRid attrDescArray attrDesc1 attrDesc2 myop outerRec resultRel
          if status ≠ .OK then pure (status, outerScan, resultRel)
          else outerLoop mem tmpRid attrDescArray attrDesc1 attrDesc2 myop fuel outerScan resultRel

/-- The outer scan ends after as many rounds as its relation has tuples, and after as many more
as there are pairs if the result is that relation. A join that goes on for longer works on
tuples of its own; the model stops there. -/
def joinFuel (w : World) (outer : FilePtr) (innerRel : FileName) : Nat :=
  match w.disk innerRel with
  | some contents => HeapFileScan.scanFuel w outer * (contents.size * 40000 + 1)
  | none => HeapFileScan.scanFuel w outer

def joinScans (mem : Uninit) (tmpRid : RID) (result : FileName) (attrDescArray : List AttrDesc)
    (attrDesc1 attrDesc2 : AttrDesc) (op : Operator) : DbM Status :=
  withResult mem result fun resultRel => do
  -- start scan on outer table
  match ← HeapFileScan.new mem attrDesc1.relName with
  | .error _ => DbM.crash
  | .ok outerScan => do
  let (status, outerScan) := outerScan.startAll
  if status ≠ .OK then do
    outerScan.delete
    resultRel.delete
    pure status
  else
  let fuel ← DbM.read (joinFuel · outerScan.filePtr attrDesc2.relName)
  let (status, outerScan, resultRel) ←
    outerLoop mem tmpRid attrDescArray attrDesc1 attrDesc2 (mirrored op) fuel outerScan resultRel
  outerScan.delete
  resultRel.delete
  pure status

def QU_NL_Join (mem : Uninit) (tmpRid : RID) (result : FileName) (projNames : List AttrInfo)
    (attr1 : AttrInfo) (op : Operator) (attr2 : AttrInfo) : DbM Status := do
  if attr1.attrType ≠ attr2.attrType ∨ attr1.attrLen ≠ attr2.attrLen then pure .ATTRTYPEMISMATCH
  else
  match ← lookUpAttrs mem tmpRid projNames with
  | .error status => pure status
  | .ok attrDescArray => do
  -- get AttrDesc structure for the join attributes
  match ← AttrCatalog.getInfo mem tmpRid attr1.relName attr1.attrName with
  | .error status => pure status
  | .ok attrDesc1 => do
  match ← AttrCatalog.getInfo mem tmpRid attr2.relName attr2.attrName with
  | .error status => pure status
  | .ok attrDesc2 => joinScans mem tmpRid result attrDescArray attrDesc1 attrDesc2 op

end PrimitiveDB

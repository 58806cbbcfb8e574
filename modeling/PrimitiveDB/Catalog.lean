import PrimitiveDB.HeapFile

/-!
# The catalogs

`catalog.C`, `create.C`, `destroy.C` and the `main` of `dbcreate.C`. Relations are
described by tuples in two ordinary heap files, `relcat` and `attrcat`. Every
method opens a scan of its own on the heap file of its catalog. Some error paths
return without destroying that scan; then its pins and its open count stay.

`mem` is what the constructors find in memory and `tmpRid` is the uninitialised
local of `scanNext`.
-/

namespace PrimitiveDB

open ByteMemory

set_option autoImplicit false

def RELCATNAME : FileName := [114, 101, 108, 99, 97, 116]

def ATTRCATNAME : FileName := [97, 116, 116, 114, 99, 97, 116]

def MAXNAME : Nat := 32

def cString (bytes : List Byte) : List Byte := bytes.takeWhile (· ≠ 0)

/-- A `char[MAXNAME]` that holds a C string and is zero behind it. -/
def nameField (name : List Byte) : List Byte := name ++ List.replicate (MAXNAME - name.length) 0

namespace Datatype

def code : Datatype → Int
  | STRING => 0
  | INTEGER => 1
  | FLOAT => 2

def ofCode (code : Int) : Option Datatype :=
  if code = 0 then some STRING
  else if code = 1 then some INTEGER
  else if code = 2 then some FLOAT
  else none

end Datatype

/-- `RelDesc`; the name is the C string in the array. -/
structure RelDesc where
  relName : List Byte
  attrCnt : Int
  deriving DecidableEq

namespace RelDesc

def size : Nat := 36

def toRecord (desc : RelDesc) : Record := nameField desc.relName ++ intBytes desc.attrCnt

def ofRecord (rec : Record) : RelDesc :=
  { relName := cString rec
    attrCnt := readInt (ScanFilter.bytesAt rec 32) 0 }

end RelDesc

structure AttrDesc where
  relName : List Byte
  attrName : List Byte
  attrOffset : Int
  attrType : Int
  attrLen : Int
  deriving DecidableEq

namespace AttrDesc

def size : Nat := 76

def toRecord (desc : AttrDesc) : Record :=
  nameField desc.relName ++ nameField desc.attrName ++ intBytes desc.attrOffset ++
    intBytes desc.attrType ++ intBytes desc.attrLen

def ofRecord (rec : Record) : AttrDesc :=
  { relName := cString rec
    attrName := cString (rec.drop 32)
    attrOffset := readInt (ScanFilter.bytesAt rec 64) 0
    attrType := readInt (ScanFilter.bytesAt rec 68) 0
    attrLen := readInt (ScanFilter.bytesAt rec 72) 0 }

end AttrDesc

/-- `attrInfo`: what a statement says about an attribute. -/
structure AttrInfo where
  relName : List Byte
  attrName : List Byte
  attrType : Int
  attrLen : Int
  attrValue : Option (List Byte)
  deriving DecidableEq

/-- `hfs->startScan(0, relation.length() + 1, STRING, relation.c_str(), EQ)`. -/
def HeapFileScan.startByName (hfs : HeapFileScan) (relation : FileName) : Status × HeapFileScan :=
  hfs.startScan 0 (relation.length + 1) .STRING (some (relation ++ [0])) .EQ

/-- `endScan` and `delete`: the end of most catalog lookups. -/
def HeapFileScan.finish (hfs : HeapFileScan) : DbM Status := do
  let (status, hfs) ← hfs.endScan
  hfs.delete
  pure status

/-- The body of both `addInfo`s, behind the padding of the names: insert one tuple
through an inserter of its own. -/
def addTuple (mem : Uninit) (catalog : FileName) (rec : Record) : DbM Status := do
  let (status, ifs) ← InsertFileScan.new mem catalog
  match ifs with
  | none => pure status
  | some ifs =>
      if status ≠ .OK then pure status
      else do
        let (result, ifs) ← ifs.insertRecord rec
        ifs.delete
        match result with
        | .ok _ => pure .OK
        | .error status => pure status

namespace RelCatalog

def getInfo (mem : Uninit) (tmpRid : RID) (relation : FileName) : DbM (Except Status RelDesc) := do
  if relation = [] then pure (.error .BADCATPARM)
  else
  match ← HeapFileScan.new mem RELCATNAME with
  | .error status => pure (.error status)
  | .ok hfs => do
  let (status, hfs) := hfs.startByName relation
  if status ≠ .OK then do
    hfs.delete
    pure (.error status)
  else
  match ← hfs.scanNext tmpRid with
  | (.error status, hfs) => do
      let _ ← hfs.finish
      pure (.error (if status = .FILEEOF then .RELNOTFOUND else status))
  | (.ok _, hfs) => do
      match ← hfs.current with
      | .error status => pure (.error status)
      | .ok rec =>
          if rec.length ≠ RelDesc.size then DbM.crash
          else do
            let nextStatus ← hfs.finish
            if nextStatus = .OK then pure (.ok (RelDesc.ofRecord rec))
            else pure (.error nextStatus)

def addInfo (mem : Uninit) (record : RelDesc) : DbM Status :=
  addTuple mem RELCATNAME record.toRecord

/-- The source calls `hfs->endScan()` once more on the deleted scan, whose
`curPage` its destructor has set to `NULL`. -/
def removeInfo (mem : Uninit) (tmpRid : RID) (relation : FileName) : DbM Status := do
  if relation = [] then pure .BADCATPARM
  else
  match ← HeapFileScan.new mem RELCATNAME with
  | .error status => pure status
  | .ok hfs => do
  let (status, hfs) := hfs.startByName relation
  if status ≠ .OK then do
    hfs.delete
    pure status
  else
  match ← hfs.scanNext tmpRid with
  | (.error status, hfs) => do
      hfs.delete
      let status := if status = .FILEEOF then .RELNOTFOUND else status
      pure (if status = .NORECORDS then .OK else status)
  | (.ok _, hfs) => do
      let (status, hfs) ← hfs.deleteRecord
      hfs.delete
      pure (if status = .NORECORDS then .OK else status)

end RelCatalog

namespace AttrCatalog

/-- How the loop over the tuples of a relation ends: the function returns at
once, `scanNext` has stopped, or the tuple of the attribute is found. -/
inductive Search where
  | gone (status : Status)
  | stopped (status : Status) (hfs : HeapFileScan)
  | found (record : AttrDesc) (hfs : HeapFileScan)

def search (tmpRid : RID) (attrName : FileName) : Nat → HeapFileScan → DbM Search
  | 0, _ => DbM.crash
  | fuel + 1, hfs => do
      match ← hfs.scanNext tmpRid with
      | (.error status, hfs) => pure (.stopped status hfs)
      | (.ok _, hfs) => do
          match ← hfs.current with
          | .error status => pure (.gone status)
          | .ok rec =>
              if rec.length ≠ AttrDesc.size then DbM.crash
              else
                let record := AttrDesc.ofRecord rec
                if record.attrName = attrName then pure (.found record hfs)
                else search tmpRid attrName fuel hfs

/-- A scan returns no RID twice, so it ends before it has visited more records
than the pages of its file can have. -/
def searchFuel (hfs : HeapFileScan) : DbM Nat := DbM.read (HeapFileScan.scanFuel · hfs.filePtr)

def getInfo (mem : Uninit) (tmpRid : RID) (relation attrName : FileName) :
    DbM (Except Status AttrDesc) := do
  if relation = [] ∨ attrName = [] then pure (.error .BADCATPARM)
  else
  match ← HeapFileScan.new mem ATTRCATNAME with
  | .error status => pure (.error status)
  | .ok hfs => do
  let (status, hfs) := hfs.startByName relation
  if status ≠ .OK then do
    hfs.delete
    pure (.error status)
  else
  let fuel ← searchFuel hfs
  match ← search tmpRid attrName fuel hfs with
  | .gone status => pure (.error status)
  | .stopped status hfs => do
      let _ ← hfs.finish
      pure (.error (if status = .FILEEOF then .ATTRNOTFOUND else status))
  | .found record hfs => do
      let nextStatus ← hfs.finish
      if nextStatus = .OK then pure (.ok record) else pure (.error nextStatus)

def addInfo (mem : Uninit) (record : AttrDesc) : DbM Status :=
  addTuple mem ATTRCATNAME record.toRecord

def removeInfo (mem : Uninit) (tmpRid : RID) (relation attrName : FileName) : DbM Status := do
  if relation = [] ∨ attrName = [] then pure .BADCATPARM
  else
  match ← HeapFileScan.new mem ATTRCATNAME with
  | .error status => pure status
  | .ok hfs => do
  let (status, hfs) := hfs.startByName relation
  if status ≠ .OK then do
    hfs.delete
    pure status
  else
  let fuel ← searchFuel hfs
  match ← search tmpRid attrName fuel hfs with
  | .gone status => pure status
  | .stopped status hfs => do
      let _ ← hfs.finish
      let status := if status = .FILEEOF then .RELNOTFOUND else status
      pure (if status = .NORECORDS then .OK else status)
  | .found _ hfs => do
      let (status, hfs) ← hfs.deleteRecord
      let _ ← hfs.finish
      pure (if status = .NORECORDS then .OK else status)

/-- The loop of `getRelInfo`: the tuples in scan order, and the status and the
scan with which it stops. -/
def collect (tmpRid : RID) : Nat → List AttrDesc → HeapFileScan →
    DbM (List AttrDesc × Except Status (Status × HeapFileScan))
  | 0, _, _ => DbM.crash
  | fuel + 1, attrs, hfs => do
      match ← hfs.scanNext tmpRid with
      | (.error status, hfs) => pure (attrs, .ok (status, hfs))
      | (.ok _, hfs) => do
          match ← hfs.current with
          | .error status => pure (attrs, .error status)
          | .ok rec =>
              if rec.length ≠ AttrDesc.size then DbM.crash
              else collect tmpRid fuel (attrs ++ [AttrDesc.ofRecord rec]) hfs

/-- `getRelInfo`; `attrCnt` is the length of the list. -/
def getRelInfo (mem : Uninit) (tmpRid : RID) (relation : FileName) :
    DbM (Except Status (List AttrDesc)) := do
  if relation = [] then pure (.error .BADCATPARM)
  else
  match ← HeapFileScan.new mem ATTRCATNAME with
  | .error status => pure (.error status)
  | .ok hfs => do
  let (status, hfs) := hfs.startByName relation
  if status ≠ .OK then do
    hfs.delete
    pure (.error status)
  else
  let fuel ← searchFuel hfs
  match ← collect tmpRid fuel [] hfs with
  | (_, .error status) => pure (.error status)
  | (attrs, .ok (status, hfs)) => do
      let nextStatus ← hfs.finish
      if status = .FILEEOF then
        if attrs = [] then pure (.error .RELNOTFOUND)
        else if nextStatus = .OK then pure (.ok attrs)
        else pure (.error nextStatus)
      else pure (.error status)

def removeAll (mem : Uninit) (tmpRid : RID) (relation : FileName) : List AttrDesc → DbM Status
  | [] => pure .OK
  | attr :: attrs => do
      let status ← removeInfo mem tmpRid relation attr.attrName
      if status ≠ .OK then pure status else removeAll mem tmpRid relation attrs

def dropRelation (mem : Uninit) (tmpRid : RID) (relation : FileName) : DbM Status := do
  if relation = [] then pure .BADCATPARM
  else
  -- get attribute information
  match ← getRelInfo mem tmpRid relation with
  | .error status => pure status
  -- remove entries from catalog
  | .ok attrs => removeAll mem tmpRid relation attrs

end AttrCatalog

namespace RelCatalog

def tupleWidth (attrList : List AttrInfo) : Int :=
  (attrList.map AttrInfo.attrLen).sum % 4294967296

/-- The loop of `createRel` that describes the attributes, from `offset` on. -/
def addAttrs (mem : Uninit) (relation : FileName) : Int → List AttrInfo → DbM Status
  | _, [] => pure .OK
  | offset, attr :: attrs => do
      if (cString attr.attrName).length ≥ MAXNAME then pure .NAMETOOLONG
      else
        let status ← AttrCatalog.addInfo mem
          { relName := cString relation, attrName := cString attr.attrName
            attrOffset := offset, attrType := attr.attrType, attrLen := attr.attrLen }
        if status ≠ .OK then pure status
        else addAttrs mem relation (offset + attr.attrLen) attrs

def createRel (mem : Uninit) (tmpRid : RID) (relation : FileName) (attrList : List AttrInfo) :
    DbM Status := do
  if relation = [] ∨ attrList.length < 1 then pure .BADCATPARM
  else if relation.length ≥ MAXNAME then pure .NAMETOOLONG
  else
  -- make sure the relation doesn't already exist
  match ← getInfo mem tmpRid relation with
  | .ok _ => pure .RELEXISTS
  | .error status => do
  if status ≠ .RELNOTFOUND then pure status
  -- make sure there are no duplicate attribute names
  else if ¬(attrList.map fun attr => cString attr.attrName).Nodup then pure .DUPLATTR
  else if tupleWidth attrList > PAGESIZE then pure .ATTRTOOLONG
  else
  -- insert information about relation
  let status ← addInfo mem { relName := cString relation, attrCnt := attrList.length }
  if status ≠ .OK then pure status
  else
  -- insert information about attributes
  let status ← addAttrs mem relation 0 attrList
  if status ≠ .OK then pure status
  -- now create the actual heapfile to hold the relation
  else createHeapFile relation

def destroyRel (mem : Uninit) (tmpRid : RID) (relation : FileName) : DbM Status := do
  if relation = [] ∨ relation = RELCATNAME ∨ relation = ATTRCATNAME then pure .BADCATPARM
  else
  -- delete attrcat entries
  let status ← AttrCatalog.dropRelation mem tmpRid relation
  if status ≠ .OK then pure status
  else
  -- delete entry from relcat
  let status ← removeInfo mem tmpRid relation
  if status ≠ .OK then pure status
  -- destroy file
  else destroyHeapFile relation

end RelCatalog

def relNameName : List Byte := [114, 101, 108, 78, 97, 109, 101]

def attrCntName : List Byte := [97, 116, 116, 114, 67, 110, 116]

def attrNameName : List Byte := [97, 116, 116, 114, 78, 97, 109, 101]

def attrOffsetName : List Byte := [97, 116, 116, 114, 79, 102, 102, 115, 101, 116]

def attrTypeName : List Byte := [97, 116, 116, 114, 84, 121, 112, 101]

def attrLenName : List Byte := [97, 116, 116, 114, 76, 101, 110]

def relCatDesc : RelDesc := { relName := RELCATNAME, attrCnt := 2 }

def relCatAttrs : List AttrDesc :=
  [{ relName := RELCATNAME, attrName := relNameName, attrOffset := 0
     attrType := Datatype.STRING.code, attrLen := 32 },
   { relName := RELCATNAME, attrName := attrCntName, attrOffset := 32
     attrType := Datatype.INTEGER.code, attrLen := 4 }]

def attrCatDesc : RelDesc := { relName := ATTRCATNAME, attrCnt := 5 }

def attrCatAttrs : List AttrDesc :=
  [{ relName := ATTRCATNAME, attrName := relNameName, attrOffset := 0
     attrType := Datatype.STRING.code, attrLen := 32 },
   { relName := ATTRCATNAME, attrName := attrNameName, attrOffset := 32
     attrType := Datatype.STRING.code, attrLen := 32 },
   { relName := ATTRCATNAME, attrName := attrOffsetName, attrOffset := 64
     attrType := Datatype.INTEGER.code, attrLen := 4 },
   { relName := ATTRCATNAME, attrName := attrTypeName, attrOffset := 68
     attrType := Datatype.INTEGER.code, attrLen := 4 },
   { relName := ATTRCATNAME, attrName := attrLenName, attrOffset := 72
     attrType := Datatype.INTEGER.code, attrLen := 4 }]

/-- `CALL(c)`: the program exits if the call fails. -/
def callOrExit (call : DbM Status) : DbM Unit := do
  let status ← call
  if status ≠ .OK then DbM.fail status else pure ()

def addAll (mem : Uninit) : List AttrDesc → DbM Unit
  | [] => pure ()
  | attr :: attrs => do
      callOrExit (AttrCatalog.addInfo mem attr)
      addAll mem attrs

/-- The `main` of `dbcreate.C`, in the new directory. -/
def dbcreate (mem : Uninit) : DbM Unit := do
  callOrExit (createHeapFile RELCATNAME)
  callOrExit (createHeapFile ATTRCATNAME)
  -- open relation and attribute catalogs
  match ← HeapFile.new mem RELCATNAME with
  | .error status => DbM.fail status
  | .ok relCat => do
  match ← HeapFile.new mem ATTRCATNAME with
  | .error status => DbM.fail status
  | .ok attrCat => do
  -- add tuples describing relcat and attrcat
  callOrExit (RelCatalog.addInfo mem relCatDesc)
  addAll mem relCatAttrs
  callOrExit (RelCatalog.addInfo mem attrCatDesc)
  addAll mem attrCatAttrs
  relCat.delete
  attrCat.delete

end PrimitiveDB

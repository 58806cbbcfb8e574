import PrimitiveDB.HeapFile
import PrimitiveDB.Literals

/-!
# Sorting a heap file

`class SortedFile` of `sort.C`: the source is read in pieces of at most `maxItems` records,
each piece is sorted in memory and written to a run file, and `next` merges the runs. `qsort`
is a parameter, since the order in which it leaves equal items is not specified. A record is
its own bytes here, so a sort field that reaches beyond the record reads as zeros there.
-/

namespace PrimitiveDB

open ByteMemory ScanFilter

set_option autoImplicit false

/-- C `memcmp`: the sign of the first difference. -/
def memcmp (left right : Memory) : Nat → Nat → Int
  | _, 0 => 0
  | index, count + 1 =>
      if (left index).val ≠ (right index).val then ((left index).val : Int) - (right index).val
      else memcmp left right (index + 1) count

/-- `reccmp`. The conversion of a NaN to `int` gives the smallest number. -/
def reccmp (p1 p2 : Memory) (p1Len p2Len : Int) (type : Datatype) : Int :=
  let diff : Option Int :=
    match type with
    | .INTEGER => some (toInt (readInt p1 0 - readInt p2 0))
    | .FLOAT => floatDiff (readFloat p1) (readFloat p2)
    | .STRING => some (memcmp p1 p2 0 (min p1Len p2Len).toNat)
  match diff with
  | none => -2147483648
  | some diff => if diff < 0 then -1 else if diff > 0 then 1 else 0

/-- `SORTREC`: the sort field of a record and where the record is. -/
structure SortRec where
  rid : RID
  field : List Byte
  length : Int
  deriving DecidableEq

def fieldcmp (type : Datatype) (left right : SortRec) : Int :=
  reccmp (bytesAt left.field 0) (bytesAt right.field 0) left.length right.length type

def intcmp : SortRec → SortRec → Int := fieldcmp .INTEGER

def floatcmp : SortRec → SortRec → Int := fieldcmp .FLOAT

def stringcmp : SortRec → SortRec → Int := fieldcmp .STRING

abbrev Qsort := (SortRec → SortRec → Int) → List SortRec → List SortRec

/-- `RUN`. The scans are `none` as long as the pointers have not been set. -/
structure Run where
  name : FileName
  inFile : Option HeapFileScan
  outFile : Option InsertFileScan
  valid : Bool
  record : Record
  rid : RID
  mark : RID
  deriving DecidableEq

/-- `class SortedFile`. The pointers to the source are not used after the constructor. -/
structure SortedFile where
  runs : List Run
  fileName : FileName
  type : Datatype
  offset : Int
  length : Int
  maxItems : Int
  deriving DecidableEq

namespace SortedFile

/-- The name of a run file. `ends` adds a NUL that ends the string for the system calls. -/
def runName (fileName : FileName) (number : Nat) : FileName :=
  fileName ++ [46, 115, 111, 114, 116, 46] ++ Literal.decimal number

/-- The inner loop of `sortFile`: up to `maxItems` records of the source. -/
def fillBuffer (tmpRid : RID) (offset length : Int) :
    Nat → HeapFileScan → DbM (Except Status (List SortRec) × HeapFileScan)
  | 0, hfs => pure (.ok [], hfs)
  | room + 1, hfs => do
      -- fetch next record from source file, check if end of file
      let (next, hfs) ← hfs.scanNext tmpRid
      match next with
      | .error status => pure (if status = .FILEEOF then .ok [] else .error status, hfs)
      | .ok rid => do
          match ← hfs.current with
          | .error status => pure (.error status, hfs)
          | .ok rec => do
              let field := (List.range length.toNat).map (bytesAt rec offset.toNat)
              let (items, hfs) ← fillBuffer tmpRid offset length room hfs
              pure (items.map ({ rid, field, length } :: ·), hfs)

/-- The loop of `generateRun` that writes the records in the order of the items. -/
def writeRun : List SortRec → HeapFile → InsertFileScan →
    DbM (Status × HeapFile × InsertFileScan)
  | [], hfile, outFile => pure (.OK, hfile, outFile)
  | item :: items, hfile, outFile => do
      let (record, hfile) ← hfile.getRecord item.rid
      match record with
      | .error status => pure (status, hfile, outFile)
      | .ok record => do
          let (inserted, outFile) ← outFile.insertRecord record
          match inserted with
          | .error status => pure (status, hfile, outFile)
          | .ok _ => writeRun items hfile outFile

def comparison (type : Datatype) : SortRec → SortRec → Int :=
  match type with
  | .INTEGER => intcmp
  | .FLOAT => floatcmp
  | .STRING => stringcmp

/-- `generateRun`: the status, and the object with one run more. -/
def generateRun (mem : Uninit) (qsort : Qsort) (buffer : List SortRec) (file : SortedFile) :
    DbM (Status × SortedFile) := do
  let items := qsort (comparison file.type) buffer
  let run : Run :=
    { name := runName file.fileName (file.runs.length + 1), inFile := none, outFile := none
      valid := false, record := [], rid := mem.markedRec, mark := mem.markedRec }
  let file := { file with runs := file.runs ++ [run] }
  -- make sure temporary file does not exist already
  match ← DbM.attempt (DB.createFile run.name) with
  | .error status => pure (status, file)
  | .ok () =>
  match ← DbM.attempt (DB.destroyFile run.name) with
  | .error status => pure (status, file)
  | .ok () => do
  -- open a heap file; this will also create the temporary file, says the source
  match ← InsertFileScan.new mem run.name with
  | (.OK, some outFile) => do
      match ← HeapFile.new mem file.fileName with
      | .error status => pure (status, file)
      | .ok hfile => do
          let (status, hfile, outFile) ← writeRun items hfile outFile
          if status ≠ .OK then pure (status, file)
          else do
            outFile.delete
            hfile.delete
            pure (.OK, file)
  | (status, _) => pure (status, file)

/-- The outer loop of `sortFile`. It ends after at most as many rounds as the file has
records; the model allows for as many as its pages can hold. -/
def sortLoop (mem : Uninit) (tmpRid : RID) (qsort : Qsort) :
    Nat → HeapFileScan → SortedFile → DbM (Status × HeapFileScan × SortedFile)
  | 0, _, _ => DbM.crash
  | fuel + 1, hfs, file => do
      let (buffer, hfs) ← fillBuffer tmpRid file.offset file.length file.maxItems.toNat hfs
      match buffer with
      | .error status => pure (status, hfs, file)
      | .ok [] => pure (.OK, hfs, file)
      | .ok (item :: items) => do
          let (status, file) ← generateRun mem qsort (item :: items) file
          if status ≠ .OK then pure (status, hfs, file)
          else sortLoop mem tmpRid qsort fuel hfs file

/-- `startScans`: the runs up to the first that cannot be opened have a scan. -/
def startScans (mem : Uninit) : List Run → DbM (Status × List Run)
  | [] => pure (.OK, [])
  | run :: runs => do
      match ← HeapFileScan.new mem run.name with
      | .error status => pure (status, run :: runs)
      | .ok inFile => do
          let (status, inFile) := inFile.startScan 0 0 .STRING none .EQ
          if status ≠ .OK then pure (status, { run with inFile := some inFile } :: runs)
          else do
            let (status, runs) ← startScans mem runs
            pure (status, { run with
              inFile := some inFile, valid := false, rid := ⟨-1, -1⟩ } :: runs)

def sortFile (mem : Uninit) (tmpRid : RID) (qsort : Qsort) (file : SortedFile) :
    DbM (Status × SortedFile) := do
  match ← HeapFileScan.new mem file.fileName with
  | .error status => pure (status, file)
  | .ok hfs => do
  let (status, hfs) := hfs.startScan 0 0 .STRING none .EQ
  if status ≠ .OK then pure (status, file)
  else do
  let fuel ← DbM.read (HeapFileScan.scanFuel · hfs.filePtr)
  let (status, hfs, file) ← sortLoop mem tmpRid qsort (fuel + 1) hfs file
  if status ≠ .OK then pure (status, file)
  else do
  hfs.delete
  let (status, runs) ← startScans mem file.runs
  pure (status, { file with runs })

def BadParameters (offset len : Int) (type : Datatype) : Prop :=
  (offset < 0 ∨ len < 1) ∨ (type = .INTEGER ∧ len ≠ 4) ∨ (type = .FLOAT ∧ len ≠ 4)

instance (offset len : Int) (type : Datatype) : Decidable (BadParameters offset len type) :=
  inferInstanceAs (Decidable (_ ∨ _))

def new (mem : Uninit) (tmpRid : RID) (qsort : Qsort) (fileName : FileName) (offset len : Int)
    (type : Datatype) (maxItems : Int) : DbM (Status × SortedFile) :=
  let file : SortedFile := { runs := [], fileName, type, offset, length := len, maxItems }
  if BadParameters offset len type then pure (.BADSORTPARM, file)
  else if maxItems < 2 then pure (.INSUFMEM, file)
  else file.sortFile mem tmpRid qsort

/-- The part of `next` that fetches the next record of a run, unless it is in memory. -/
def fetch (tmpRid : RID) (run : Run) : DbM (Status × Run) := do
  if run.valid then pure (.OK, run)
  else
    match run.inFile with
    | none => DbM.crash
    | some inFile => do
        let (next, inFile) ← inFile.scanNext tmpRid
        let run := { run with inFile := some inFile }
        match next with
        | .error status =>
            if status = .FILEEOF then
              -- mark end of file
              pure (.OK, { run with rid := { run.rid with pageNo := -1 }, valid := true })
            else pure (status, run)
        | .ok rid => do
            let run := { run with rid }
            match ← inFile.current with
            | .error status => pure (status, run)
            | .ok record => pure (.OK, { run with record, valid := true })

/-- The loop of `next`. `smallest` is the position of the run with the smallest record so far,
and that record. -/
def findSmallest (tmpRid : RID) (file : SortedFile) :
    Nat → Option (Nat × Record) → List Run →
      DbM (Except Status (Option (Nat × Record)) × List Run)
  | _, smallest, [] => pure (.ok smallest, [])
  | index, smallest, run :: runs => do
      let (status, run) ← fetch tmpRid run
      if status ≠ .OK then pure (.error status, run :: runs)
      else
        let smallest :=
          if run.rid.pageNo < 0 then smallest
          else
            match smallest with
            | none => some (index, run.record)
            | some (other, rec) =>
                if reccmp (bytesAt rec file.offset.toNat) (bytesAt run.record file.offset.toNat)
                    file.length file.length file.type > 0 then some (index, run.record)
                else some (other, rec)
        let (found, runs) ← findSmallest tmpRid file (index + 1) smallest runs
        pure (found, run :: runs)

def next (tmpRid : RID) (file : SortedFile) : DbM (Except Status Record × SortedFile) := do
  if file.runs = [] then pure (.error .FILEEOF, file)
  else
    let (found, runs) ← findSmallest tmpRid file 0 none file.runs
    match found with
    | .error status => pure (.error status, { file with runs })
    | .ok none => pure (.error .FILEEOF, { file with runs })
    | .ok (some (index, rec)) =>
        -- must fetch new record next time
        pure (.ok rec, { file with runs := runs.modify index ({ · with valid := false }) })

def setMark (file : SortedFile) : DbM (Status × SortedFile) := do
  let runs ← file.runs.mapM fun run => do
    match run.inFile with
    | none => DbM.crash
    | some inFile => pure { run with inFile := some inFile.markScan, mark := run.rid }
  pure (.OK, { file with runs })

def resetScans : List Run → DbM (Status × List Run)
  | [] => pure (.OK, [])
  | run :: runs => do
      match run.inFile with
      | none => DbM.crash
      | some inFile => do
          let (status, inFile) ← inFile.resetScan
          let run := { run with inFile := some inFile }
          if status ≠ .OK then pure (status, run :: runs)
          else do
            let run := { run with rid := run.mark }
            let (status, run) ← (
              if run.rid.pageNo ≥ 0 then do
                match ← inFile.current with
                | .error status => pure (status, run)
                | .ok record => pure (.OK, { run with record })
              else pure (.OK, run) : DbM (Status × Run))
            if status ≠ .OK then pure (status, run :: runs)
            else do
              let (status, runs) ← resetScans runs
              pure (status, { run with valid := true } :: runs)

def gotoMark (file : SortedFile) : DbM (Status × SortedFile) := do
  let (status, runs) ← resetScans file.runs
  pure (status, { file with runs })

def deleteRuns : List Run → DbM Unit
  | [] => pure ()
  | run :: runs => do
      match run.inFile with
      | none => DbM.crash
      | some inFile => do
          inFile.delete
          let _ ← DbM.attempt (DB.destroyFile run.name)
          deleteRuns runs

def delete (file : SortedFile) : DbM Unit := deleteRuns file.runs

end SortedFile

end PrimitiveDB

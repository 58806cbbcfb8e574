import PrimitiveDB.BufferContracts

/-!
# Opening and closing database files

`File::open`, `File::close` and `class DB` of `db.C`. `new File` may return any
address that is not in use, also one that a deleted object had before; the last
`close` flushes the file and ignores what `flushFile` says.
-/

namespace PrimitiveDB

set_option autoImplicit false

namespace File

/-- Where `new` puts the next object: the allocator's choice if that address is
free, else a new one. -/
def newAddress (w : World) : FilePtr :=
  if w.malloc 0 ≠ 0 ∧ w.files (w.malloc 0) = none then w.malloc 0 else w.brk

def new (fileName : FileName) : DbM FilePtr := fun w =>
  let address := newAddress w
  (.ok address,
    { w.setFile address (some { fileName, openCnt := 0, unixFile := false }) with
      brk := max w.brk (address + 1)
      malloc := fun n => w.malloc (n + 1) })

def delete (file : FilePtr) : DbM Unit := DbM.modify (·.setFile file none)

def open_ (file : FilePtr) : DbM Unit := do
  let object ← deref file
  if object.openCnt = 0 then
    if ← DbM.systemCall then DbM.fail .UNIXERR
    else
      match ← DbM.read (·.disk object.fileName) with
      | none => DbM.fail .UNIXERR
      | some _ =>
          DbM.modify (·.setFile file (some { object with openCnt := 1, unixFile := true }))
  else
    DbM.modify (·.setFile file (some { object with openCnt := object.openCnt + 1 }))

def close (file : FilePtr) : DbM Unit := do
  let object ← deref file
  if object.openCnt ≤ 0 then DbM.fail .FILENOTOPEN
  else
    DbM.modify (·.setFile file (some { object with openCnt := object.openCnt - 1 }))
    -- File actually closed only when open count goes to zero.
    if object.openCnt - 1 = 0 then
      let _ ← DbM.attempt (BufMgr.flushFile file)
      DbM.modify (·.setFile file (some
        { object with openCnt := object.openCnt - 1, unixFile := false }))
      if ← DbM.systemCall then DbM.fail .UNIXERR else pure ()
    else pure ()

end File

namespace DB

def createFile (fileName : FileName) : DbM Unit := do
  if fileName = [] then DbM.fail .BADFILE
  else
    -- First check if the file has already been opened
    match ← DbM.read (·.openFiles.find fileName) with
    | some _ => DbM.fail .FILEEXISTS
    | none => File.create fileName

def destroyFile (fileName : FileName) : DbM Unit := do
  if fileName = [] then DbM.fail .BADFILE
  else
    -- Make sure file is not open currently.
    match ← DbM.read (·.openFiles.find fileName) with
    | some _ => DbM.fail .FILEOPEN
    | none => File.destroy fileName

def openFile (fileName : FileName) : DbM FilePtr := do
  if fileName = [] then DbM.fail .BADFILE
  else
    match ← DbM.read (·.openFiles.find fileName) with
    | some file =>
        File.open_ file
        pure file
    | none =>
        let file ← File.new fileName
        match ← DbM.attempt (File.open_ file) with
        | .error status =>
            File.delete file
            DbM.fail status
        | .ok () =>
            match ← DbM.read fun w => w.openFiles.insert fileName file with
            | none => DbM.fail .HASHTBLERROR
            | some table =>
                DbM.modify fun w => { w with openFiles := table }
                pure file

def closeFile (file : FilePtr) : DbM Unit := do
  if file = 0 then DbM.fail .BADFILEPTR
  else
    let _ ← DbM.attempt (File.close file)
    let object ← File.deref file
    if object.openCnt = 0 then
      match ← DbM.read fun w => w.openFiles.erase object.fileName with
      | none => DbM.fail .BADFILEPTR
      | some table =>
          DbM.modify fun w => { w with openFiles := table }
          File.delete file
    else pure ()

end DB

end PrimitiveDB

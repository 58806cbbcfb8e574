import PrimitiveDB.StorageState

/-!
# Paged Unix files

`class File` of `db.C`: page reads and writes, the page allocator with its free
list, and `create`/`destroy`. Every `lseek` + `read` or `write` pair is one
system call of the world and may fail; a failed call moves no data.
-/

namespace PrimitiveDB

set_option autoImplicit false

/-- Unix `write` of one page at page position `pageNo`; positions skipped past
the old end read as zeros. -/
def UnixFile.writeAt (file : UnixFile) (pageNo : Nat) (image : PageImage) : UnixFile :=
  { size := max file.size (pageNo + 1)
    page := fun position =>
      if position = pageNo then image
      else if position < file.size then file.page position
      else PageImage.zero }

namespace World

def setFile (w : World) (file : FilePtr) (object : Option File) : World :=
  { w with files := Function.update w.files file object }

def setDisk (w : World) (fileName : FileName) (contents : Option UnixFile) : World :=
  { w with disk := Function.update w.disk fileName contents }

def unlink (w : World) (fileName : FileName) : World :=
  { w.setDisk fileName none with given := Function.update w.given fileName fun _ => none }

/-- The Unix file behind a `File` object with an open descriptor. -/
def unixFile (w : World) (file : FilePtr) : Option UnixFile :=
  match w.files file with
  | some object => if object.unixFile then w.disk object.fileName else none
  | none => none

end World

namespace File

/-- `this->...`: a call on a deleted object is a use of freed memory. -/
def deref (file : FilePtr) : DbM File := fun w =>
  match w.files file with
  | some object => (.ok object, w)
  | none => (.crash, w)

def intread (file : FilePtr) (pageNo : Int) : DbM PageImage := do
  let _ ← deref file
  if ← DbM.systemCall then DbM.fail .UNIXERR
  else
    match ← DbM.read (·.unixFile file) with
    | none => DbM.fail .UNIXERR
    | some contents =>
        if 0 ≤ pageNo ∧ pageNo < contents.size then pure (contents.page pageNo.toNat)
        else DbM.fail .UNIXERR

def intwrite (file : FilePtr) (pageNo : Int) (image : PageImage) : DbM Unit := do
  let object ← deref file
  if ← DbM.systemCall then DbM.fail .UNIXERR
  else
    match ← DbM.read (·.unixFile file) with
    | none => DbM.fail .UNIXERR
    | some contents =>
        if 0 ≤ pageNo then
          DbM.modify fun w =>
            w.setDisk object.fileName (some (contents.writeAt pageNo.toNat image))
        else DbM.fail .UNIXERR

def readPage (file : FilePtr) (pageNo : Int) : DbM PageImage :=
  if pageNo < 1 then DbM.fail .BADPAGENO else intread file pageNo

def writePage (file : FilePtr) (pageNo : Int) (image : PageImage) : DbM Unit :=
  if pageNo < 1 then DbM.fail .BADPAGENO else intwrite file pageNo image

def getFirstPage (file : FilePtr) : DbM Int := do
  let header ← intread file 0
  pure header.asDBPage.firstPage

def allocatePage (file : FilePtr) : DbM Int := do
  let header ← intread file 0
  let db := header.asDBPage
  if db.nextFree ≠ -1 then
    -- return the first page on the free list
    let pageNo := db.nextFree
    let firstFree ← intread file pageNo
    intwrite file 0 (header.setDBPage { db with nextFree := firstFree.asDBPage.nextFree })
    pure pageNo
  else
    -- extend the file: its number of pages is the new page number
    let pageNo := db.numPages
    intwrite file pageNo PageImage.zero
    let firstPage := if db.firstPage = -1 then pageNo else db.firstPage
    intwrite file 0 (header.setDBPage
      { db with numPages := db.numPages + 1, firstPage := firstPage })
    pure pageNo

def disposePage (file : FilePtr) (pageNo : Int) : DbM Unit := do
  if pageNo < 1 then DbM.fail .BADPAGENO
  else
    let header ← intread file 0
    let db := header.asDBPage
    if db.firstPage = pageNo ∨ pageNo ≥ db.numPages then DbM.fail .BADPAGENO
    else
      let _ ← intread file pageNo
      let away := PageImage.zero.setDBPage { nextFree := db.nextFree, firstPage := 0, numPages := 0 }
      intwrite file pageNo away
      intwrite file 0 (header.setDBPage { db with nextFree := pageNo })

def emptyHeader : PageImage :=
  PageImage.zero.setDBPage { nextFree := -1, firstPage := -1, numPages := 1 }

def create (fileName : FileName) : DbM Unit := do
  if ← DbM.systemCall then DbM.fail .UNIXERR
  else
    match ← DbM.read (·.disk fileName) with
    | some _ => DbM.fail .FILEEXISTS
    | none =>
        DbM.modify (·.setDisk fileName (some { size := 0, page := fun _ => PageImage.zero }))
        if ← DbM.systemCall then DbM.fail .UNIXERR
        else
          DbM.modify (·.setDisk fileName (some
            (UnixFile.writeAt { size := 0, page := fun _ => PageImage.zero } 0 emptyHeader)))
          if ← DbM.systemCall then DbM.fail .UNIXERR else pure ()

def destroy (fileName : FileName) : DbM Unit := do
  if ← DbM.systemCall then DbM.fail .UNIXERR
  else
    match ← DbM.read (·.disk fileName) with
    | none => DbM.fail .UNIXERR
    | some _ => DbM.modify (·.unlink fileName)

end File

end PrimitiveDB

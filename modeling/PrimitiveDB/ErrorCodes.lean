import PrimitiveDB.ByteMemory

/-!
# Status codes

The `Status` enumeration of `error.h`, in its order and under its names. Every
layer of the engine reports through it.
-/

namespace PrimitiveDB

set_option autoImplicit false

inductive Status where
  | OK | NOTUSED1
  -- File and DB errors
  | BADFILEPTR | BADFILE | FILETABFULL | FILEOPEN | FILENOTOPEN
  | UNIXERR | BADPAGEPTR | BADPAGENO | FILEEXISTS
  -- BufMgr and HashTable errors
  | HASHTBLERROR | HASHNOTFOUND | BUFFEREXCEEDED | PAGENOTPINNED | BADBUFFER | PAGEPINNED
  -- Page errors
  | NOSPACE | NORECORDS | ENDOFPAGE | INVALIDSLOTNO | INVALIDRECLEN
  -- HeapFile errors
  | BADRID | BADRECPTR | BADSCANPARM | BADSCANID | SCANTABFULL | FILEEOF | FILEHDRFULL
  -- Index errors
  | BADINDEXPARM | RECNOTFOUND | BUCKETFULL | DIROVERFLOW | NONUNIQUEENTRY | NOMORERECS
  -- SortedFile errors
  | BADSORTPARM | INSUFMEM
  -- Catalog errors
  | BADCATPARM | RELNOTFOUND | ATTRNOTFOUND | NAMETOOLONG | DUPLATTR | RELEXISTS | NOINDEX
  | INDEXEXISTS | ATTRTOOLONG
  -- Query errors
  | ATTRTYPEMISMATCH | TMP_RES_EXISTS | NOTUSED2
  deriving DecidableEq, Repr

end PrimitiveDB

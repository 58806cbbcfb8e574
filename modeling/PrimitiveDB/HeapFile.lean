import PrimitiveDB.DatabaseFiles
import PrimitiveDB.ScanFilter

/-!
# Heap files

`heapfile.C`: the heap file object with its pinned header page and its cursor,
the scan with filter and mark, and the inserting scan. Page pointers are frame
numbers; `curPage` is `none` for `NULL`. A method returns its status together
with the object, since an early return leaves the fields half updated. What a
constructor leaves uninitialised comes from `Uninit`.
-/

namespace PrimitiveDB

set_option autoImplicit false

/-- `bufMgr->call(...)`: the status is handed to the caller, and a failure is
remembered in the ghost flag of the world. -/
def callBufMgr {α : Type} (call : DbM α) : DbM (Except Status α) := fun w =>
  match call w with
  | (.ok value, w') => (.ok (.ok value), w')
  | (.err status, w') => (.ok (.error status), { w' with bufFailed := true })
  | (.crash, w') => (.crash, w')

def pageAt (frame : Nat) : DbM Page := DbM.read fun w => (w.bufMgr.bufPool frame).asPage

/-- A store through a page pointer. The ghost record of the world notes which
page of which file it goes to. -/
def World.giveImage (w : World) (frame : Nat) (image : PageImage) : World :=
  { w.storeImage frame image with
    given := fun fileName pageNo =>
      if (w.files (w.bufMgr.bufTable frame).file).map File.fileName = some fileName ∧
          pageNo = (w.bufMgr.bufTable frame).pageNo then some image
      else w.given fileName pageNo }

@[simp] theorem World.give_image_buf_failed (w : World) (frame : Nat) (image : PageImage) :
    (w.giveImage frame image).bufFailed = w.bufFailed := rfl

def storePage (frame : Nat) (page : Page) : DbM Unit :=
  DbM.modify fun w => w.giveImage frame (.data page)

def headerAt (frame : Nat) : DbM FileHdrPage :=
  DbM.read fun w => (w.bufMgr.bufPool frame).asFileHdr

def storeHeader (frame : Nat) (hdr : FileHdrPage) : DbM Unit :=
  DbM.modify fun w => w.giveImage frame ((w.bufMgr.bufPool frame).setFileHdr hdr)

def MAXNAMESIZE : Nat := 50

/-- `strncpy(hdrPage->fileName, ..., MAXNAMESIZE)`: cut or padded with zeros. -/
def headerName (fileName : FileName) : List ByteMemory.Byte :=
  (fileName ++ List.replicate MAXNAMESIZE 0).take MAXNAMESIZE

def createHeapFile (fileName : FileName) : DbM Status := do
  -- try to open the file. This should return an error
  match ← DbM.attempt (DB.openFile fileName) with
  | .ok _ => pure .FILEEXISTS
  | .error _ =>
  match ← DbM.attempt (DB.createFile fileName) with
  | .error status => pure status
  | .ok () =>
  match ← DbM.attempt (DB.openFile fileName) with
  | .error status => pure status
  | .ok file =>
  -- allocate and initialize the header page
  match ← callBufMgr (BufMgr.allocPage file) with
  | .error status => pure status
  | .ok (hdrPageNo, hdrFrame) => do
  let hdr ← headerAt hdrFrame
  storeHeader hdrFrame { hdr with fileName := headerName fileName }
  -- allocate an initial empty data page
  match ← callBufMgr (BufMgr.allocPage file) with
  | .error status => pure status
  | .ok (newPageNo, newFrame) => do
  let page ← pageAt newFrame
  storePage newFrame ((page.init newPageNo).setNextPage (-1))
  -- set up header page pointers properly
  let hdr ← headerAt hdrFrame
  storeHeader hdrFrame { hdr with
    recCnt := 0, pageCnt := 1, firstPage := newPageNo, lastPage := newPageNo }
  match ← callBufMgr (BufMgr.unPinPage file newPageNo true) with
  | .error status => pure status
  | .ok () =>
  match ← callBufMgr (BufMgr.unPinPage file hdrPageNo true) with
  | .error status => pure status
  | .ok () =>
  -- flush the pages to disk and close the file
  match ← callBufMgr (BufMgr.flushFile file) with
  | .error status => pure status
  | .ok () =>
  match ← DbM.attempt (DB.closeFile file) with
  | .error status => pure status
  | .ok () => pure .OK

def destroyHeapFile (fileName : FileName) : DbM Status := do
  match ← DbM.attempt (DB.destroyFile fileName) with
  | .error status => pure status
  | .ok () => pure .OK

structure HeapFile where
  filePtr : FilePtr
  headerPage : Nat
  headerPageNo : Int
  hdrDirtyFlag : Bool
  curPage : Option Nat
  curPageNo : Int
  curDirtyFlag : Bool
  curRec : RID
  deriving DecidableEq

/-- What was in memory where an object is constructed. -/
structure Uninit where
  headerPageNo : Int
  curPage : Option Nat
  markedPageNo : Int
  markedRec : RID

namespace HeapFile

/-- The call of `getFirstPage` in the constructor: an error is reported and then
forgotten. -/
def findHeader (mem : Uninit) (filePtr : FilePtr) : DbM Int := do
  match ← DbM.attempt (File.getFirstPage filePtr) with
  | .error _ => pure mem.headerPageNo
  | .ok pageNo => pure pageNo

def new (mem : Uninit) (fileName : FileName) : DbM (Except Status HeapFile) := do
  match ← DbM.attempt (DB.openFile fileName) with
  | .error status => pure (.error status)
  | .ok filePtr => do
      let headerPageNo ← findHeader mem filePtr
      match ← callBufMgr (BufMgr.readPage filePtr headerPageNo) with
      -- headerPage->firstPage is then read through an uninitialised pointer
      | .error _ => DbM.crash
      | .ok headerPage => do
          let hdr ← headerAt headerPage
          let heap : HeapFile :=
            { filePtr, headerPage, headerPageNo, hdrDirtyFlag := false
              curPage := mem.curPage, curPageNo := hdr.firstPage
              curDirtyFlag := false, curRec := NULLRID }
          match ← callBufMgr (BufMgr.readPage filePtr hdr.firstPage) with
          | .error _ => pure (.ok heap)
          | .ok frame => pure (.ok { heap with curPage := some frame })

def release (heap : HeapFile) : DbM Unit := do
  let _ ← callBufMgr (BufMgr.unPinPage heap.filePtr heap.headerPageNo heap.hdrDirtyFlag)
  let _ ← DbM.attempt (DB.closeFile heap.filePtr)
  pure ()

def delete (heap : HeapFile) : DbM Unit := do
  if heap.curPage.isSome then
    let _ ← callBufMgr (BufMgr.unPinPage heap.filePtr heap.curPageNo heap.curDirtyFlag)
    heap.release
  else heap.release

def getRecCnt (heap : HeapFile) : DbM Int := do
  let hdr ← headerAt heap.headerPage
  pure hdr.recCnt

/-- The part of `getRecord` that pins the page of the record. -/
def fetchRecord (heap : HeapFile) (rid : RID) : DbM (Except Status Record × HeapFile) := do
  match ← callBufMgr (BufMgr.readPage heap.filePtr rid.pageNo) with
  | .error status => pure (.error status, heap)
  | .ok frame => do
      let page ← pageAt frame
      pure (page.getRecord rid,
        { heap with curPage := some frame, curPageNo := rid.pageNo, curDirtyFlag := false
                    curRec := rid })

def getRecord (heap : HeapFile) (rid : RID) : DbM (Except Status Record × HeapFile) := do
  match heap.curPage with
  | none => heap.fetchRecord rid
  | some frame =>
      if rid.pageNo = heap.curPageNo then
        -- already have correct page pinned
        let page ← pageAt frame
        pure (page.getRecord rid, { heap with curRec := rid })
      else
        -- wrong page pinned, unpin it
        match ← callBufMgr (BufMgr.unPinPage heap.filePtr heap.curPageNo heap.curDirtyFlag) with
        | .error status =>
            pure (.error status,
              { heap with curPage := none, curPageNo := 0, curDirtyFlag := false })
        | .ok () => heap.fetchRecord rid

end HeapFile

structure HeapFileScan extends HeapFile where
  filter : Option ScanFilter
  markedPageNo : Int
  markedRec : RID
  deriving DecidableEq

namespace HeapFileScan

def new (mem : Uninit) (fileName : FileName) : DbM (Except Status HeapFileScan) := do
  match ← HeapFile.new mem fileName with
  | .error status => pure (.error status)
  | .ok heap =>
      pure (.ok { toHeapFile := heap, filter := none, markedPageNo := mem.markedPageNo
                  markedRec := mem.markedRec })

def startScan (scan : HeapFileScan) (offset length : Int) (type : Datatype)
    (filter : Option (List ByteMemory.Byte)) (op : Operator) : Status × HeapFileScan :=
  let result := ScanFilter.startScan scan.filter offset length type filter op
  (result.1, { scan with filter := result.2 })

def endScan (scan : HeapFileScan) : DbM (Status × HeapFileScan) := do
  if scan.curPage.isSome then
    let ended := { scan with curPage := none, curPageNo := 0, curDirtyFlag := false }
    match ← callBufMgr (BufMgr.unPinPage scan.filePtr scan.curPageNo scan.curDirtyFlag) with
    | .error status => pure (status, ended)
    | .ok () => pure (.OK, ended)
  else pure (.OK, scan)

def delete (scan : HeapFileScan) : DbM Unit := do
  let (_, ended) ← scan.endScan
  ended.toHeapFile.delete

def markScan (scan : HeapFileScan) : HeapFileScan :=
  { scan with markedPageNo := scan.curPageNo, markedRec := scan.curRec }

/-- The part of `resetScan` that pins the marked page. -/
def fetchMarked (scan : HeapFileScan) : DbM (Status × HeapFileScan) := do
  let restored := { scan with curPageNo := scan.markedPageNo, curRec := scan.markedRec }
  match ← callBufMgr (BufMgr.readPage restored.filePtr restored.curPageNo) with
  | .error status => pure (status, restored)
  | .ok frame => pure (.OK, { restored with curPage := some frame, curDirtyFlag := false })

def resetScan (scan : HeapFileScan) : DbM (Status × HeapFileScan) := do
  if scan.markedPageNo ≠ scan.curPageNo then
    if scan.curPage.isSome then
      match ← callBufMgr (BufMgr.unPinPage scan.filePtr scan.curPageNo scan.curDirtyFlag) with
      | .error status => pure (status, scan)
      | .ok () => scan.fetchMarked
    else scan.fetchMarked
  else pure (.OK, { scan with curRec := scan.markedRec })

/-- The loop of `scanNext`. `found` is what the last `nextRecord` or
`firstRecord` returned for the page in `frame`; its error is `ENDOFPAGE` or
`NORECORDS`, and the inner loop goes on to the next page. -/
def scanLoop : Nat → HeapFileScan → Nat → Except Status RID →
    DbM (Except Status RID × HeapFileScan)
  | 0, _, _, _ => DbM.crash
  | fuel + 1, scan, frame, .ok rid => do
      let found := { scan with curRec := rid }
      let page ← pageAt frame
      -- see if record matches predicate
      match page.getRecord rid with
      | .error status => pure (.error status, found)
      | .ok rec =>
          if ScanFilter.matchRec scan.filter rec then pure (.ok rid, found)
          else scanLoop fuel found frame (page.nextRecord rid)
  | fuel + 1, scan, frame, .error _ => do
      let page ← pageAt frame
      let nextPageNo := page.getNextPage
      if nextPageNo = -1 then pure (.error .FILEEOF, scan)
      else
        -- unpin the current page
        match ← callBufMgr (BufMgr.unPinPage scan.filePtr scan.curPageNo scan.curDirtyFlag) with
        | .error status =>
            pure (.error status, { scan with curPage := none, curPageNo := -1 })
        | .ok () => do
            -- read the next page of the file
            let left := { scan with
              curPage := none, curPageNo := nextPageNo, curDirtyFlag := false }
            match ← callBufMgr (BufMgr.readPage scan.filePtr nextPageNo) with
            | .error status => pure (.error status, left)
            | .ok frame => do
                let page ← pageAt frame
                scanLoop fuel { left with curPage := some frame } frame page.firstRecord

/-- The source does not bound the loop of `scanNext`. A scan that visits more
slots than the pages of its file can have is somewhere for the second time and
will not come back; the model stops there. -/
def scanFuel (w : World) (file : FilePtr) : Nat :=
  match w.unixFile file with
  | some contents => contents.size * 40000
  | none => 0

/-- `scanNext`. `tmpRid` is the uninitialised local that ends up in `curRec` if
the first page has no records. -/
def scanNext (tmpRid : RID) (scan : HeapFileScan) :
    DbM (Except Status RID × HeapFileScan) := do
  let fuel ← DbM.read (scanFuel · scan.filePtr)
  if scan.curPageNo < 0 then pure (.error .FILEEOF, scan) -- already at EOF!
  else
    match scan.curPage with
    | some frame => do
        let page ← pageAt frame
        scanLoop fuel scan frame (page.nextRecord scan.curRec)
    | none => do
        -- need to get the first page of the file
        let hdr ← headerAt scan.headerPage
        if hdr.firstPage = -1 then
          pure (.error .FILEEOF, { scan with curPageNo := hdr.firstPage }) -- file is empty
        else
          let started := { scan with
            curPageNo := hdr.firstPage, curDirtyFlag := false, curRec := NULLRID }
          match ← callBufMgr (BufMgr.readPage scan.filePtr hdr.firstPage) with
          | .error status => pure (.error status, started)
          | .ok frame => do
              let pinned := { started with curPage := some frame }
              let page ← pageAt frame
              match page.firstRecord with
              | .ok rid => scanLoop fuel pinned frame (.ok rid)
              | .error _ =>
                  let pinned := { pinned with curRec := tmpRid }
                  match ← callBufMgr (BufMgr.unPinPage pinned.filePtr pinned.curPageNo false) with
                  | .error status => pure (.error status, pinned)
                  | .ok () =>
                      pure (.error .FILEEOF, { pinned with curPage := none, curPageNo := -1 })

def current (scan : HeapFileScan) : DbM (Except Status Record) := do
  match scan.curPage with
  | none => DbM.crash
  | some frame => do
      let page ← pageAt frame
      pure (page.getRecord scan.curRec)

def deleteRecord (scan : HeapFileScan) : DbM (Status × HeapFileScan) := do
  match scan.curPage with
  | none => DbM.crash
  | some frame => do
      let page ← pageAt frame
      let (status, after) := page.deleteRecord scan.curRec
      if status = .OK then storePage frame after
      -- reduce count of number of records in the file
      let hdr ← headerAt scan.headerPage
      storeHeader scan.headerPage { hdr with recCnt := hdr.recCnt - 1 }
      pure (status, { scan with curDirtyFlag := true, hdrDirtyFlag := true })

def markDirty (scan : HeapFileScan) : HeapFileScan := { scan with curDirtyFlag := true }

end HeapFileScan

/-- `class InsertFileScan`, which adds no fields. -/
structure InsertFileScan extends HeapFile
  deriving DecidableEq

namespace InsertFileScan

/-- The constructor moves from the first page to the last one. -/
def moveToLast (heap : HeapFile) (lastPage : Int) : DbM (Status × Option InsertFileScan) := do
  let _ ← callBufMgr (BufMgr.unPinPage heap.filePtr heap.curPageNo heap.curDirtyFlag)
  let moved := { heap with curPageNo := lastPage, curDirtyFlag := false }
  match ← callBufMgr (BufMgr.readPage moved.filePtr moved.curPageNo) with
  | .error status => pure (status, some ⟨moved⟩)
  | .ok frame => pure (.OK, some ⟨{ moved with curPage := some frame }⟩)

def new (mem : Uninit) (fileName : FileName) : DbM (Status × Option InsertFileScan) := do
  match ← HeapFile.new mem fileName with
  | .error status =>
      -- without a file, a non-null curPage sends the test below through headerPage
      if mem.curPage.isSome then DbM.crash else pure (status, none)
  | .ok heap => do
      let hdr ← headerAt heap.headerPage
      if heap.curPage.isSome ∧ heap.curPageNo ≠ hdr.lastPage then moveToLast heap hdr.lastPage
      else pure (.OK, some ⟨heap⟩)

def delete (scan : InsertFileScan) : DbM Unit := do
  if scan.curPage.isSome then
    let _ ← callBufMgr (BufMgr.unPinPage scan.filePtr scan.curPageNo true)
    scan.toHeapFile.release
  else scan.toHeapFile.release

/-- The end of `insertRecord`: the record is on the page in `frame`. -/
def recordInserted (scan : InsertFileScan) (frame : Nat) (after : Page) (rid : RID) :
    DbM (Except Status RID × InsertFileScan) := do
  storePage frame after
  let hdr ← headerAt scan.headerPage
  storeHeader scan.headerPage { hdr with recCnt := hdr.recCnt + 1 }
  pure (.ok rid, ⟨{ scan.toHeapFile with curDirtyFlag := true, hdrDirtyFlag := true }⟩)

/-- The current page was full: append a page and insert there. -/
def insertOnNewPage (scan : InsertFileScan) (frame : Nat) (rec : Record) :
    DbM (Except Status RID × InsertFileScan) := do
  match ← callBufMgr (BufMgr.allocPage scan.filePtr) with
  | .error status => pure (.error status, scan)
  | .ok (newPageNo, newFrame) => do
      -- initialize the empty page
      let newPage ← pageAt newFrame
      storePage newFrame ((newPage.init newPageNo).setNextPage (-1))
      -- modify header page contents properly
      let hdr ← headerAt scan.headerPage
      storeHeader scan.headerPage { hdr with lastPage := newPageNo, pageCnt := hdr.pageCnt + 1 }
      -- link up new page appropriately
      let page ← pageAt frame
      storePage frame (page.setNextPage newPageNo)
      match ← callBufMgr (BufMgr.unPinPage scan.filePtr scan.curPageNo true) with
      | .error _ => do
          let lost : InsertFileScan := ⟨{ scan.toHeapFile with
            hdrDirtyFlag := true, curPage := none, curPageNo := -1, curDirtyFlag := false }⟩
          -- unpin the last page; its status is what the caller gets, also OK
          match ← callBufMgr (BufMgr.unPinPage scan.filePtr newPageNo true) with
          | .error status => pure (.error status, lost)
          | .ok () => pure (.error .OK, lost)
      | .ok () => do
          -- make current page the newly allocated page
          let moved : InsertFileScan := ⟨{ scan.toHeapFile with
            hdrDirtyFlag := true, curPage := some newFrame, curPageNo := newPageNo }⟩
          let page ← pageAt newFrame
          match page.insertRecord rec with
          | (.ok rid, after) => moved.recordInserted newFrame after rid
          | (.error status, _) => pure (.error status, moved)

def insertHere (scan : InsertFileScan) (frame : Nat) (rec : Record) :
    DbM (Except Status RID × InsertFileScan) := do
  let page ← pageAt frame
  match page.insertRecord rec with
  | (.ok rid, after) => scan.recordInserted frame after rid
  | (.error _, _) => scan.insertOnNewPage frame rec

def insertRecord (scan : InsertFileScan) (rec : Record) :
    DbM (Except Status RID × InsertFileScan) := do
  -- check for very large records
  if rec.length > DATASIZE then pure (.error .INVALIDRECLEN, scan)
  else
    match scan.curPage with
    | some frame => scan.insertHere frame rec
    | none => do
        -- make the last page the current page and read it from disk
        let hdr ← headerAt scan.headerPage
        match ← callBufMgr (BufMgr.readPage scan.filePtr hdr.lastPage) with
        | .error status =>
            pure (.error status, ⟨{ scan.toHeapFile with curPageNo := hdr.lastPage }⟩)
        | .ok frame =>
            InsertFileScan.insertHere ⟨{ scan.toHeapFile with
              curPage := some frame, curPageNo := hdr.lastPage }⟩ frame rec

end InsertFileScan

end PrimitiveDB

import PrimitiveDB.FileLayer

/-!
# The buffer manager

`buf.C`: the clock, `readPage`, `unPinPage`, `allocPage`, `flushFile` and
`disposePage`. A `Page*` into the pool is the number of its frame. The order of
the source is kept to the statement: `allocBuf` drops the hash entry of its
victim before it writes the victim back, and the descriptor of the victim stays
as it was until `Set`.
-/

namespace PrimitiveDB

set_option autoImplicit false

namespace BufMgr

/-- The clock loop of `allocBuf`: the result is `found`, `numScanned` and the
pool with the reference bits it cleared. -/
def clockScan : Nat → Nat → BufMgr → Bool × Nat × BufMgr
  | 0, numScanned, pool => (false, numScanned, pool)
  | remaining + 1, numScanned, pool =>
      let advanced := pool.advanceClock
      let desc := advanced.bufTable advanced.clockHand
      -- if invalid, use frame
      if ¬desc.valid then (false, numScanned + 1, advanced)
      else if ¬desc.refbit then
        if desc.pinCnt = 0 then
          -- hasn't been referenced and is not pinned, use it
          (true, numScanned + 1, advanced.removeEntry desc.file desc.pageNo)
        else clockScan remaining (numScanned + 1) advanced
      else
        clockScan remaining (numScanned + 1)
          (advanced.setDesc advanced.clockHand { desc with refbit := false })

def allocBuf : DbM Nat := do
  let (found, numScanned, scanned) ←
    DbM.read fun w => clockScan (2 * w.bufMgr.numBufs) 0 w.bufMgr
  DbM.modifyPool fun _ => scanned
  if found = false ∧ numScanned ≥ 2 * scanned.numBufs then DbM.fail .BUFFEREXCEEDED
  else
    let desc := scanned.bufTable scanned.clockHand
    -- flush any existing changes to disk if necessary
    if desc.dirty then
      File.writePage desc.file desc.pageNo (scanned.bufPool scanned.clockHand)
    pure scanned.clockHand

/-- The end of `readPage` and `allocPage`: set up the descriptor and enter the
page into the hash table. -/
def installPage (file : FilePtr) (pageNo : Int) (frameNo : Nat) : DbM Nat := do
  DbM.modifyPool fun pool => pool.setDesc frameNo (BufDesc.Set file pageNo)
  match ← DbM.read fun w => w.bufMgr.hashTable.insert file pageNo frameNo with
  | none => DbM.fail .HASHTBLERROR
  | some table =>
      DbM.modifyPool fun pool => { pool with hashTable := table }
      pure frameNo

def readPage (file : FilePtr) (pageNo : Int) : DbM Nat := do
  match ← DbM.read fun w => w.bufMgr.hashTable.lookup file pageNo with
  | some frameNo =>
      DbM.modifyPool fun pool =>
        pool.setDesc frameNo { pool.bufTable frameNo with
          refbit := true, pinCnt := (pool.bufTable frameNo).pinCnt + 1 }
      pure frameNo
  | none =>
      let frameNo ← allocBuf
      let image ← File.readPage file pageNo
      DbM.modifyPool fun pool => pool.setImage frameNo image
      installPage file pageNo frameNo

def unPinPage (file : FilePtr) (pageNo : Int) (dirty : Bool) : DbM Unit := do
  match ← DbM.read fun w => w.bufMgr.hashTable.lookup file pageNo with
  | none => DbM.fail .HASHNOTFOUND
  | some frameNo =>
      DbM.modifyPool fun pool =>
        pool.setDesc frameNo { pool.bufTable frameNo with
          dirty := (pool.bufTable frameNo).dirty || dirty }
      let desc ← DbM.read fun w => w.bufMgr.bufTable frameNo
      -- make sure the page is actually pinned
      if desc.pinCnt = 0 then DbM.fail .PAGENOTPINNED
      else DbM.modifyPool fun pool => pool.setDesc frameNo { desc with pinCnt := desc.pinCnt - 1 }

def allocPage (file : FilePtr) : DbM (Int × Nat) := do
  let pageNo ← File.allocatePage file
  let frameNo ← allocBuf
  let frameNo ← installPage file pageNo frameNo
  pure (pageNo, frameNo)

/-- The end of a round of `flushFile`: the frame goes back to the pool. -/
def releaseFrame (file : FilePtr) (frame : Nat) (desc : BufDesc) (pool : BufMgr) : BufMgr :=
  (pool.removeEntry file desc.pageNo).setDesc frame
    { desc with dirty := false, file := 0, pageNo := -1, valid := false }

def flushFrame (file : FilePtr) (frame : Nat) : DbM Unit := do
  let desc ← DbM.read fun w => w.bufMgr.bufTable frame
  if desc.valid ∧ desc.file = file then
    if desc.pinCnt > 0 then DbM.fail .PAGEPINNED
    else
      if desc.dirty then
        let image ← DbM.read fun w => w.bufMgr.bufPool frame
        File.writePage desc.file desc.pageNo image
      DbM.modifyPool (releaseFrame file frame desc)
  else if ¬desc.valid ∧ desc.file = file then DbM.fail .BADBUFFER
  else pure ()

def flushFrames (file : FilePtr) : List Nat → DbM Unit
  | [] => pure ()
  | frame :: rest => do
      flushFrame file frame
      flushFrames file rest

def flushFile (file : FilePtr) : DbM Unit := do
  let numBufs ← DbM.read fun w => w.bufMgr.numBufs
  flushFrames file (List.range numBufs)

def disposePage (file : FilePtr) (pageNo : Int) : DbM Unit := do
  match ← DbM.read fun w => w.bufMgr.hashTable.lookup file pageNo with
  | some frameNo =>
      DbM.modifyPool fun pool => pool.setDesc frameNo (pool.bufTable frameNo).Clear
  | none => pure ()
  DbM.modifyPool fun pool => pool.removeEntry file pageNo
  File.disposePage file pageNo

theorem alloc_buf_eq (w : World) :
    allocBuf w =
      let result := clockScan (2 * w.bufMgr.numBufs) 0 w.bufMgr
      let desc := result.2.2.bufTable result.2.2.clockHand
      if result.1 = false ∧ result.2.1 ≥ 2 * result.2.2.numBufs then
        (.err .BUFFEREXCEEDED, w.setPool result.2.2)
      else if desc.dirty then
        (File.writePage desc.file desc.pageNo (result.2.2.bufPool result.2.2.clockHand) >>=
          fun _ => pure result.2.2.clockHand) (w.setPool result.2.2)
      else (.ok result.2.2.clockHand, w.setPool result.2.2) := by
  simp only [allocBuf, DbM.read_bind, DbM.modify_pool_bind]
  split_ifs <;> rfl

theorem install_page_eq (w : World) (file : FilePtr) (pageNo : Int) (frameNo : Nat) :
    installPage file pageNo frameNo w =
      let installed := w.bufMgr.setDesc frameNo (BufDesc.Set file pageNo)
      match w.bufMgr.hashTable.insert file pageNo frameNo with
      | none => (.err .HASHTBLERROR, w.setPool installed)
      | some table => (.ok frameNo, w.setPool { installed with hashTable := table }) := by
  simp only [installPage, DbM.read_bind, DbM.modify_pool_bind, World.set_pool_pool]
  simp only [BufMgr.setDesc]
  cases w.bufMgr.hashTable.insert file pageNo frameNo <;> rfl

theorem read_page_hit (w : World) (file : FilePtr) (pageNo : Int) (frameNo : Nat)
    (hit : w.bufMgr.hashTable.lookup file pageNo = some frameNo) :
    readPage file pageNo w =
      (.ok frameNo, w.setPool (w.bufMgr.setDesc frameNo
        { w.bufMgr.bufTable frameNo with
          refbit := true, pinCnt := (w.bufMgr.bufTable frameNo).pinCnt + 1 })) := by
  simp only [readPage, DbM.read_bind, hit]
  rfl

theorem read_page_miss (w : World) (file : FilePtr) (pageNo : Int)
    (miss : w.bufMgr.hashTable.lookup file pageNo = none) :
    readPage file pageNo w =
      (do
        let frameNo ← allocBuf
        let image ← File.readPage file pageNo
        DbM.modifyPool fun pool => pool.setImage frameNo image
        installPage file pageNo frameNo : DbM Nat) w := by
  simp only [readPage, DbM.read_bind, miss]

theorem un_pin_page_hit (w : World) (file : FilePtr) (pageNo : Int) (dirty : Bool) (frameNo : Nat)
    (hit : w.bufMgr.hashTable.lookup file pageNo = some frameNo) :
    unPinPage file pageNo dirty w =
      let desc := { w.bufMgr.bufTable frameNo with
        dirty := (w.bufMgr.bufTable frameNo).dirty || dirty }
      if desc.pinCnt = 0 then
        (.err .PAGENOTPINNED, w.setPool (w.bufMgr.setDesc frameNo desc))
      else
        (.ok (), w.setPool (w.bufMgr.setDesc frameNo
          { desc with pinCnt := desc.pinCnt - 1 })) := by
  simp only [unPinPage, DbM.read_bind, DbM.modify_pool_bind, hit, World.set_pool_pool,
    set_desc_self]
  split_ifs
  · rfl
  · simp only [DbM.modifyPool, DbM.modify, World.set_pool_pool, set_desc_twice,
      World.set_pool_twice]

theorem flush_frame_pinned (w : World) (file : FilePtr) (frame : Nat)
    (mine : (w.bufMgr.bufTable frame).valid = true ∧ (w.bufMgr.bufTable frame).file = file)
    (pinned : (w.bufMgr.bufTable frame).pinCnt > 0) :
    flushFrame file frame w = (.err .PAGEPINNED, w) := by
  simp only [flushFrame, DbM.read_bind]
  rw [if_pos mine, if_pos pinned]
  rfl

theorem flush_frame_unpinned (w : World) (file : FilePtr) (frame : Nat)
    (mine : (w.bufMgr.bufTable frame).valid = true ∧ (w.bufMgr.bufTable frame).file = file)
    (unpinned : (w.bufMgr.bufTable frame).pinCnt = 0) :
    flushFrame file frame w =
      if (w.bufMgr.bufTable frame).dirty then
        (File.writePage file (w.bufMgr.bufTable frame).pageNo (w.bufMgr.bufPool frame) >>=
          fun _ => DbM.modifyPool (releaseFrame file frame (w.bufMgr.bufTable frame))) w
      else
        (.ok (), w.setPool (releaseFrame file frame (w.bufMgr.bufTable frame) w.bufMgr)) := by
  simp only [flushFrame, DbM.read_bind]
  rw [if_pos mine, if_neg (by omega)]
  split_ifs
  · simp only [DbM.read_bind, mine.2]
  · rfl

theorem flush_frame_other (w : World) (file : FilePtr) (frame : Nat)
    (other : (w.bufMgr.bufTable frame).file ≠ file) : flushFrame file frame w = (.ok (), w) := by
  simp only [flushFrame, DbM.read_bind]
  rw [if_neg (fun both => other both.2), if_neg (fun both => other both.2)]
  rfl

end BufMgr

end PrimitiveDB

import PrimitiveDB.PinCounts
import PrimitiveDB.StorageContracts

/-!
# What the constructors of a heap file report

The constructor of `HeapFile` makes three calls after it has opened the file. Each of them
writes its error into the status, none of them stops the constructor, and the last line sets
the status to `OK`. So the status is right only if the file could not be opened or all calls
went well. `InsertFileScan` goes on from there, and an error of its own leaves the header page
pinned and the file open.
-/

namespace PrimitiveDB

open World

set_option autoImplicit false

namespace DbM

theorem moves_attempt {α : Type} {relation : World → World → Prop} {call : DbM α}
    (moves : Moves relation call) : Moves relation (attempt call) := by
  intro w
  have here := moves w
  unfold attempt
  rcases run : call w with ⟨value | status | _, w'⟩ <;> rw [run] at here <;> exact here

end DbM

theorem call_buf_mgr_handles {α : Type} {call : DbM α} (moves : DbM.Moves SameHandles call) :
    DbM.Moves SameHandles (callBufMgr call) := by
  intro w
  have here := moves w
  unfold callBufMgr
  rcases run : call w with ⟨value | status | _, w'⟩ <;> rw [run] at here
  · exact here
  · exact ⟨here.files, here.openFiles, here.brk, here.malloc⟩
  · exact here

namespace HeapFile

variable {mem : Uninit} {fileName : FileName} {w w' : World} {heap : HeapFile}

inductive Constructor where
  | heapFile
  | heapFileScan
  | insertFileScan
  deriving DecidableEq

/-- The status a constructor reports, and the part of the object that all of them share. -/
def construct (mem : Uninit) (fileName : FileName) :
    Constructor → DbM (Status × Option HeapFile)
  | .heapFile => do
      match ← HeapFile.new mem fileName with
      | .error status => pure (status, none)
      | .ok heap => pure (.OK, some heap)
  | .heapFileScan => do
      match ← HeapFileScan.new mem fileName with
      | .error status => pure (status, none)
      | .ok scan => pure (.OK, some scan.toHeapFile)
  | .insertFileScan => do
      let (status, scan) ← InsertFileScan.new mem fileName
      pure (status, scan.map InsertFileScan.toHeapFile)

/-- The file is opened, its first page is found, and header page and data page are read. -/
structure BaseCalls (w : World) (fileName : FileName) (heap : HeapFile) (w' : World) : Prop where
  succeed : ∃ w₁ w₂ w₃ frame, DB.openFile fileName w = (.ok heap.filePtr, w₁) ∧
    File.getFirstPage heap.filePtr w₁ = (.ok heap.headerPageNo, w₂) ∧
    BufMgr.readPage heap.filePtr heap.headerPageNo w₂ = (.ok heap.headerPage, w₃) ∧
    heap.curPageNo = (w₃.bufMgr.bufPool heap.headerPage).asFileHdr.firstPage ∧
    BufMgr.readPage heap.filePtr heap.curPageNo w₃ = (.ok frame, w') ∧
    heap = { filePtr := heap.filePtr, headerPage := heap.headerPage
             headerPageNo := heap.headerPageNo, hdrDirtyFlag := false, curPage := some frame
             curPageNo := heap.curPageNo, curDirtyFlag := false, curRec := NULLRID }

def lastPageNo (heap : HeapFile) (w : World) : Int :=
  (w.bufMgr.bufPool heap.headerPage).asFileHdr.lastPage

def CallsSucceed (w : World) (fileName : FileName) : Constructor → Prop
  | .heapFile => ∃ heap w', BaseCalls w fileName heap w'
  | .heapFileScan => ∃ heap w', BaseCalls w fileName heap w'
  | .insertFileScan => ∃ heap w', BaseCalls w fileName heap w' ∧
      (heap.curPageNo ≠ heap.lastPageNo w' →
        ∃ w₁ frame w₂, BufMgr.unPinPage heap.filePtr heap.curPageNo false w' = (.ok (), w₁) ∧
          BufMgr.readPage heap.filePtr (heap.lastPageNo w') w₁ = (.ok frame, w₂))

/-- The object has header page and current page, each in the frame that it points to and each
with a pin of its own. -/
structure Grasps (w : World) (heap : HeapFile) (w' : World) : Prop where
  header : w'.bufMgr.Holds heap.headerPage heap.filePtr heap.headerPageNo
  current : ∃ frame, heap.curPage = some frame ∧
    w'.bufMgr.Holds frame heap.filePtr heap.curPageNo ∧
    ∀ index, w'.pinCount index = w.pinCount index + (if index = heap.headerPage then 1 else 0) +
      if index = frame then 1 else 0

/-- What a constructor should report: `OK` for an object that has its pages, and an error,
with no pin and no open file held, as soon as a call fails. -/
structure TellsTruth (w : World) (mem : Uninit) (fileName : FileName) (kind : Constructor) :
    Prop where
  grasps : ∀ heap w', construct mem fileName kind w = (.ok (.OK, some heap), w') →
    Grasps w heap w'
  reports : ¬CallsSucceed w fileName kind → ∃ status object w',
    construct mem fileName kind w = (.ok (status, object), w') ∧ status ≠ .OK ∧
      (∀ file, (w'.files file).map File.openCnt = (w.files file).map File.openCnt) ∧
      SamePins w w'

theorem new_open_fails {status : Status} (mem : Uninit)
    (fails : DB.openFile fileName w = (.err status, w')) :
    HeapFile.new mem fileName w = (.ok (.error status), w') := by
  unfold HeapFile.new
  rw [DbM.bind_ok (attempt_err fails)]
  rfl

theorem construct_open_fails {status : Status} (kind : Constructor)
    (clean : kind = .insertFileScan → mem.curPage = none)
    (fails : DB.openFile fileName w = (.err status, w')) :
    construct mem fileName kind w = (.ok (status, none), w') := by
  have base := new_open_fails mem fails
  cases kind with
  | heapFile =>
      dsimp only [construct]
      rw [DbM.bind_ok base]
      rfl
  | heapFileScan =>
      have scan : HeapFileScan.new mem fileName w = (.ok (.error status), w') := by
        unfold HeapFileScan.new
        rw [DbM.bind_ok base]
        rfl
      dsimp only [construct]
      rw [DbM.bind_ok scan]
      rfl
  | insertFileScan =>
      have insert : InsertFileScan.new mem fileName w = (.ok (status, none), w') := by
        unfold InsertFileScan.new
        rw [DbM.bind_ok base]
        dsimp only
        rw [clean rfl]
        rfl
      dsimp only [construct]
      rw [DbM.bind_ok insert]
      rfl

theorem get_first_page_moves (file : FilePtr) :
    DbM.Moves SameMemory (File.getFirstPage file) := by
  intro w
  have read := File.intread_moves file 0 w
  unfold File.getFirstPage
  rw [DbM.bind_apply]
  rcases run : File.intread file 0 w with ⟨header | status | _, w'⟩ <;> rw [run] at read <;>
    exact read.1

theorem find_header_handles (mem : Uninit) (file : FilePtr) :
    DbM.Moves SameHandles (findHeader mem file) := by
  apply DbM.moves_bind SameHandles.trans
    (DbM.moves_attempt fun w => (get_first_page_moves file w).same_handles)
  intro result w
  cases result <;> exact SameHandles.refl w

/-- Everything after the open leaves the open files alone, and there is always an object. -/
theorem new_after_open {file : FilePtr} {w₁ : World} {result : Except Status HeapFile}
    (opened : DB.openFile fileName w = (.ok file, w₁))
    (run : HeapFile.new mem fileName w = (.ok result, w')) :
    SameHandles w₁ w' ∧ ∃ heap, result = .ok heap := by
  unfold HeapFile.new at run
  rw [DbM.bind_ok (attempt_ok opened)] at run
  dsimp only at run
  obtain ⟨headerPageNo, w₂, found, run⟩ := DbM.bind_eq_ok_iff.mp run
  have first := find_header_handles mem file w₁
  rw [found] at first
  obtain ⟨header, w₃, read, run⟩ := DbM.bind_eq_ok_iff.mp run
  have second := call_buf_mgr_handles (read_page_handles file headerPageNo) w₂
  rw [read] at second
  cases header with
  | error status => cases run
  | ok headerPage =>
      dsimp only at run
      obtain ⟨hdr, w₄, peek, run⟩ := DbM.bind_eq_ok_iff.mp run
      cases peek
      obtain ⟨data, w₅, readData, run⟩ := DbM.bind_eq_ok_iff.mp run
      have third := call_buf_mgr_handles (read_page_handles file
        (w₃.bufMgr.bufPool headerPage).asFileHdr.firstPage) w₃
      rw [readData] at third
      have whole := SameHandles.trans _ _ _ first (SameHandles.trans _ _ _ second third)
      cases data with
      | error status =>
          cases run
          exact ⟨whole, _, rfl⟩
      | ok frame =>
          cases run
          exact ⟨whole, _, rfl⟩

theorem move_to_last_handles (heap : HeapFile) (lastPage : Int) :
    DbM.Moves SameHandles (InsertFileScan.moveToLast heap lastPage) := by
  apply DbM.moves_bind SameHandles.trans (call_buf_mgr_handles (un_pin_page_handles _ _ _))
  intro _
  apply DbM.moves_bind SameHandles.trans (call_buf_mgr_handles (read_page_handles _ _))
  intro result w
  cases result <;> exact SameHandles.refl w

theorem construct_after_open {file : FilePtr} {w₁ : World} {kind : Constructor}
    {result : Status × Option HeapFile} (opened : DB.openFile fileName w = (.ok file, w₁))
    (run : construct mem fileName kind w = (.ok result, w')) : SameHandles w₁ w' := by
  cases kind with
  | heapFile =>
      dsimp only [construct] at run
      obtain ⟨base, w₂, new, run⟩ := DbM.bind_eq_ok_iff.mp run
      obtain ⟨same, heap, rfl⟩ := new_after_open opened new
      cases run
      exact same
  | heapFileScan =>
      dsimp only [construct, HeapFileScan.new] at run
      obtain ⟨scan, w₂, new, run⟩ := DbM.bind_eq_ok_iff.mp run
      obtain ⟨base, w₃, new, done⟩ := DbM.bind_eq_ok_iff.mp new
      obtain ⟨same, heap, rfl⟩ := new_after_open opened new
      cases done
      cases run
      exact same
  | insertFileScan =>
      dsimp only [construct, InsertFileScan.new] at run
      obtain ⟨⟨status, scan⟩, w₂, new, run⟩ := DbM.bind_eq_ok_iff.mp run
      cases run
      obtain ⟨base, w₃, new, rest⟩ := DbM.bind_eq_ok_iff.mp new
      obtain ⟨same, heap, rfl⟩ := new_after_open opened new
      dsimp only at rest
      obtain ⟨hdr, w₄, peek, rest⟩ := DbM.bind_eq_ok_iff.mp rest
      cases peek
      split_ifs at rest
      · have moved := move_to_last_handles heap
          (w₃.bufMgr.bufPool heap.headerPage).asFileHdr.lastPage w₃
        rw [rest] at moved
        exact SameHandles.trans _ _ _ same moved
      · cases rest
        exact same

theorem BaseCalls.new_ok (calls : BaseCalls w fileName heap w') (mem : Uninit) :
    HeapFile.new mem fileName w = (.ok (.ok heap), w') := by
  obtain ⟨w₁, w₂, w₃, frame, opened, first, header, number, data, whole⟩ := calls.succeed
  have found : findHeader mem heap.filePtr w₁ = (.ok heap.headerPageNo, w₂) := by
    unfold findHeader
    rw [DbM.bind_ok (attempt_ok first)]
    rfl
  unfold HeapFile.new
  rw [DbM.bind_ok (attempt_ok opened)]
  dsimp only
  rw [DbM.bind_ok found, DbM.bind_ok (buf_mgr_ok header)]
  dsimp only
  rw [headerAt, DbM.read_bind]
  rw [number] at data
  rw [DbM.bind_ok (buf_mgr_ok data), whole, number]
  rfl

theorem BaseCalls.grasps (calls : BaseCalls w fileName heap w') (order : w.PoolInOrder)
    (above : w.Unallocated) :
    w'.PoolInOrder ∧ Grasps w heap w' ∧
      ∃ frame, heap.curPage = some frame ∧
        w'.bufMgr.hashTable.lookup heap.filePtr heap.curPageNo = some frame := by
  obtain ⟨w₁, w₂, w₃, frame, opened, first, header, number, data, whole⟩ := calls.succeed
  have opens := open_file_ok above opened
  have quiet := get_first_page_moves heap.filePtr w₁
  rw [first] at quiet
  have headerPins := ((opens.in_order order).quiet quiet).read_page_pins header
  have dataPins := headerPins.inOrder.read_page_pins data
  have cur : heap.curPage = some frame := by
    rw [whole]
  refine ⟨dataPins.inOrder, ⟨?_, frame, cur, dataPins.holds, ?_⟩, frame, cur, dataPins.found⟩
  · apply dataPins.kept _ _ _ headerPins.holds
    rw [headerPins.counts, if_pos rfl]
    omega
  · intro index
    rw [dataPins.counts, headerPins.counts]
    unfold pinCount
    rw [quiet.bufMgr, opens.pool]

/-- The inserting scan gives the pin on the first page back and takes one on the last page. -/
theorem Grasps.move_to_last {w₁ w₂ : World} {frame : Nat} (grasps : Grasps w heap w')
    (order : w'.PoolInOrder)
    (unpin : BufMgr.unPinPage heap.filePtr heap.curPageNo false w' = (.ok (), w₁))
    (found : ∃ known, heap.curPage = some known ∧
      w'.bufMgr.hashTable.lookup heap.filePtr heap.curPageNo = some known)
    (read : BufMgr.readPage heap.filePtr (heap.lastPageNo w') w₁ = (.ok frame, w₂)) :
    Grasps w { heap with curPageNo := heap.lastPageNo w', curDirtyFlag := false
                         curPage := some frame } w₂ := by
  obtain ⟨known, cur, hit⟩ := found
  obtain ⟨unpinned, hit', unpins⟩ := order.un_pin_page_unpins unpin
  obtain ⟨current, cur', holds, counts⟩ := grasps.current
  have sameFrame : unpinned = known := Option.some.inj (hit'.symm.trans hit)
  have sameCurrent : current = known := Option.some.inj (cur'.symm.trans cur)
  subst sameFrame sameCurrent
  have pins := unpins.inOrder.read_page_pins read
  refine ⟨?_, frame, rfl, pins.holds, ?_⟩
  · apply pins.kept _ _ _ (unpins.kept _ _ _ grasps.header)
    have before := counts heap.headerPage
    have after := unpins.counts heap.headerPage
    rw [if_pos rfl] at before
    omega
  · intro index
    have before := counts index
    have between := unpins.counts index
    rw [pins.counts index]
    dsimp only
    omega

/-- If all calls succeed, so does the constructor, and the object has its pages. -/
theorem calls_succeed_grasps {kind : Constructor} (order : w.PoolInOrder) (above : w.Unallocated)
    (calls : CallsSucceed w fileName kind) (mem : Uninit) :
    ∃ heap w', construct mem fileName kind w = (.ok (.OK, some heap), w') ∧ Grasps w heap w' := by
  cases kind with
  | heapFile =>
      obtain ⟨heap, w', base⟩ := calls
      refine ⟨heap, w', ?_, (base.grasps order above).2.1⟩
      dsimp only [construct]
      rw [DbM.bind_ok (base.new_ok mem)]
      rfl
  | heapFileScan =>
      obtain ⟨heap, w', base⟩ := calls
      refine ⟨heap, w', ?_, (base.grasps order above).2.1⟩
      have scan : HeapFileScan.new mem fileName w = (.ok (.ok
          { toHeapFile := heap, filter := none, markedPageNo := mem.markedPageNo
            markedRec := mem.markedRec }), w') := by
        unfold HeapFileScan.new
        rw [DbM.bind_ok (base.new_ok mem)]
        rfl
      dsimp only [construct]
      rw [DbM.bind_ok scan]
      rfl
  | insertFileScan =>
      obtain ⟨heap, w', base, moves⟩ := calls
      obtain ⟨order', grasps, known, cur, hit⟩ := base.grasps order above
      have clean : heap.curDirtyFlag = false := by
        obtain ⟨_, _, _, _, _, _, _, _, _, whole⟩ := base.succeed
        rw [whole]
      have start : InsertFileScan.new mem fileName w =
          (if heap.curPage.isSome ∧ heap.curPageNo ≠ heap.lastPageNo w' then
            InsertFileScan.moveToLast heap (heap.lastPageNo w')
          else pure (.OK, some ⟨heap⟩)) w' := by
        unfold InsertFileScan.new
        rw [DbM.bind_ok (base.new_ok mem)]
        rfl
      by_cases last : heap.curPageNo = heap.lastPageNo w'
      · rw [if_neg fun both => both.2 last] at start
        refine ⟨heap, w', ?_, grasps⟩
        dsimp only [construct]
        rw [DbM.bind_ok start]
        rfl
      · obtain ⟨w₁, frame, w₂, unpin, read⟩ := moves last
        rw [if_pos ⟨by rw [cur]; rfl, last⟩] at start
        refine ⟨_, w₂, ?_, grasps.move_to_last order' unpin ⟨known, cur, hit⟩ read⟩
        have unpin' := unpin
        rw [← clean] at unpin'
        have moved : InsertFileScan.moveToLast heap (heap.lastPageNo w') w' = (.ok (.OK,
            some ⟨{ heap with curPageNo := heap.lastPageNo w', curDirtyFlag := false
                              curPage := some frame }⟩), w₂) := by
          unfold InsertFileScan.moveToLast
          rw [DbM.bind_ok (buf_mgr_ok unpin'), DbM.bind_ok (buf_mgr_ok read)]
          rfl
        rw [moved] at start
        dsimp only [construct]
        rw [DbM.bind_ok start]
        rfl

theorem CallsSucceed.opens {kind : Constructor} (calls : CallsSucceed w fileName kind) :
    ∃ file w₁, DB.openFile fileName w = (.ok file, w₁) := by
  have base : ∃ heap w', BaseCalls w fileName heap w' := by
    cases kind with
    | heapFile => exact calls
    | heapFileScan => exact calls
    | insertFileScan =>
        obtain ⟨heap, w', base, _⟩ := calls
        exact ⟨heap, w', base⟩
  obtain ⟨heap, w', base⟩ := base
  obtain ⟨w₁, _, _, _, opened, _⟩ := base.succeed
  exact ⟨heap.filePtr, w₁, opened⟩

theorem construct_open_crashes (mem : Uninit) (kind : Constructor)
    (crashes : DB.openFile fileName w = (.crash, w')) :
    construct mem fileName kind w = (.crash, w') := by
  have base : HeapFile.new mem fileName w = (.crash, w') := by
    unfold HeapFile.new
    rw [DbM.bind_apply, DbM.attempt, crashes]
  cases kind with
  | heapFile =>
      dsimp only [construct]
      rw [DbM.bind_apply, base]
  | heapFileScan =>
      dsimp only [construct, HeapFileScan.new]
      rw [DbM.bind_apply, DbM.bind_apply, base]
  | insertFileScan =>
      dsimp only [construct, InsertFileScan.new]
      rw [DbM.bind_apply, DbM.bind_apply, base]

/-- Without a file, `InsertFileScan` looks at what happens to be in `curPage`. -/
theorem construct_wild_current {status : Status} {frame : Nat}
    (wild : mem.curPage = some frame) (fails : DB.openFile fileName w = (.err status, w')) :
    construct mem fileName .insertFileScan w = (.crash, w') := by
  dsimp only [construct, InsertFileScan.new]
  rw [DbM.bind_apply, DbM.bind_apply, new_open_fails mem fails]
  dsimp only
  rw [wild]
  rfl

/-- What the constructors get right and when: the status is to be trusted if the file cannot
be opened, or if no call of the constructor fails after that. -/
theorem tells_truth_iff_open_fails_or_calls_succeed (w : World) (mem : Uninit)
    (fileName : FileName) (kind : Constructor) (order : w.PoolInOrder) (above : w.Unallocated) :
    TellsTruth w mem fileName kind ↔
      ((∃ status w', DB.openFile fileName w = (.err status, w')) ∧
        (kind = .insertFileScan → mem.curPage = none)) ∨ CallsSucceed w fileName kind := by
  constructor
  · intro truth
    rcases run : DB.openFile fileName w with ⟨file | status | _, w₁⟩
    · right
      by_contra someFails
      obtain ⟨status, object, w', reported, _, counts, _⟩ := truth.reports someFails
      have handles := construct_after_open run reported
      apply (open_file_ok above run).counted
      rw [← handles.files]
      exact counts file
    · left
      refine ⟨⟨status, w₁, rfl⟩, ?_⟩
      rintro rfl
      by_contra wild
      obtain ⟨frame, wild⟩ := Option.ne_none_iff_exists'.mp wild
      have closed : ¬CallsSucceed w fileName .insertFileScan := by
        intro calls
        obtain ⟨file, w₂, opened⟩ := calls.opens
        rw [run] at opened
        cases opened
      obtain ⟨status', object, w', reported, _⟩ := truth.reports closed
      rw [construct_wild_current wild run] at reported
      cases reported
    · exfalso
      have closed : ¬CallsSucceed w fileName kind := by
        intro calls
        obtain ⟨file, w₂, opened⟩ := calls.opens
        rw [run] at opened
        cases opened
      obtain ⟨status', object, w', reported, _⟩ := truth.reports closed
      rw [construct_open_crashes mem kind run] at reported
      cases reported
  · rintro (⟨⟨status, w₁, fails⟩, clean⟩ | calls)
    · have reported := construct_open_fails kind clean fails
      obtain ⟨bad, files, _, pool, _, _⟩ := open_file_err above fails
      constructor
      · intro heap w' run
        rw [reported] at run
        cases run
      · intro _
        refine ⟨status, none, w₁, reported, bad, ?_, ?_⟩
        · intro file
          rw [files]
        · intro index
          unfold pinCount
          rw [pool]
    · obtain ⟨heap, w', reported, grasps⟩ := calls_succeed_grasps order above calls mem
      constructor
      · intro other w₂ run
        rw [reported] at run
        cases run
        exact grasps
      · intro someFails
        exact absurd calls someFails

/-- The heap file `f` without records on disk, and a pool with so many frames. -/
def storedHeap (bufs : Nat) : World :=
  { BufMgr.onePageWorld with
    disk := fun name =>
      if name = [102] then
        some { size := 3
               page := fun position =>
                 if position = 0 then
                   PageImage.zero.setDBPage { nextFree := -1, firstPage := 1, numPages := 3 }
                 else if position = 1 then
                   PageImage.zero.setFileHdr
                     { fileName := headerName [102], firstPage := 2, lastPage := 2, pageCnt := 1
                       recCnt := 0 }
                 else .data ((PageImage.zero.asPage.init 2).setNextPage (-1)) }
      else none
    files := fun _ => none
    brk := 1
    bufMgr := BufMgr.new bufs }

theorem stored_heap_in_order (bufs : Nat) (positive : 0 < bufs) : (storedHeap bufs).PoolInOrder :=
  ⟨BufMgr.new_orderly bufs positive, rfl⟩

theorem stored_heap_unallocated (bufs : Nat) : (storedHeap bufs).Unallocated :=
  ⟨fun _ _ => rfl, Nat.one_pos⟩

def clearedMemory : Uninit :=
  { headerPageNo := 0, curPage := none, markedPageNo := 0, markedRec := NULLRID }

/-- With two frames nothing fails. -/
theorem tells_truth_two_frames :
    TellsTruth (storedHeap 2) clearedMemory [102] .insertFileScan := by
  apply (tells_truth_iff_open_fails_or_calls_succeed _ clearedMemory _ _
    (stored_heap_in_order 2 (by decide)) (stored_heap_unallocated 2)).mpr
  right
  let heap : HeapFile :=
    { filePtr := 1, headerPage := 0, headerPageNo := 1, hdrDirtyFlag := false, curPage := some 1
      curPageNo := 2, curDirtyFlag := false, curRec := NULLRID }
  let opened := (DB.openFile [102] (storedHeap 2)).2
  let first := (File.getFirstPage 1 opened).2
  let header := (BufMgr.readPage 1 1 first).2
  let data := (BufMgr.readPage 1 2 header).2
  have base : BaseCalls (storedHeap 2) [102] heap data :=
    ⟨opened, first, header, 1, Prod.ext (by decide) rfl, Prod.ext (by decide) rfl,
      Prod.ext (by decide) rfl, by decide, Prod.ext (by decide) rfl, rfl⟩
  have last : heap.curPageNo = heap.lastPageNo data := by decide
  exact ⟨heap, data, base, fun differs => absurd last differs⟩

/-- With one frame the data page cannot be read, and the constructor reports `OK` for an
object whose current page is whatever was in memory. -/
theorem constructor_reports_ok_without_data_page :
    ¬TellsTruth (storedHeap 1) clearedMemory [102] .heapFile := by
  intro truth
  have reported : ∃ heap w', construct clearedMemory [102] .heapFile (storedHeap 1) =
      (.ok (.OK, some heap), w') ∧ heap.curPage = none := ⟨_, _, rfl, rfl⟩
  obtain ⟨heap, w', run, missing⟩ := reported
  obtain ⟨frame, cur, _⟩ := (truth.grasps heap w' run).current
  rw [missing] at cur
  cases cur

end HeapFile

end PrimitiveDB

import PrimitiveDB.HeapFileContracts

/-!
# What the methods of a heap file object do

One theorem for each method of `heapfile.C`, for an object that is in order next
to any other objects. If no buffer call fails, the method does on the logical
file what `LogicalFile.insertRecord` and its companions say and the object is in
order again. After a failed call the theorem says what still has to hold for the
object to be in order.
-/

namespace PrimitiveDB

open BufMgr World

set_option autoImplicit false

theorem page_at_bind {β : Type} (frame : Nat) (next : Page → DbM β) (w : World) :
    (pageAt frame >>= next) w = next (w.bufMgr.bufPool frame).asPage w := rfl

theorem header_at_bind {β : Type} (frame : Nat) (next : FileHdrPage → DbM β) (w : World) :
    (headerAt frame >>= next) w = next (w.bufMgr.bufPool frame).asFileHdr w := rfl

theorem store_page_bind {β : Type} (frame : Nat) (page : Page) (next : Unit → DbM β) (w : World) :
    (storePage frame page >>= next) w = next () (w.giveImage frame (.data page)) := rfl

theorem store_header_bind {β : Type} (frame : Nat) (hdr : FileHdrPage) (next : Unit → DbM β)
    (w : World) :
    (storeHeader frame hdr >>= next) w =
      next () (w.giveImage frame ((w.bufMgr.bufPool frame).setFileHdr hdr)) := rfl

def InsertFileScan.movedTo (scan : InsertFileScan) (newFrame : Nat) (newPageNo : Int) :
    InsertFileScan :=
  ⟨{ scan.toHeapFile with hdrDirtyFlag := true, curPage := some newFrame, curPageNo := newPageNo }⟩

namespace World

variable {w w' : World} {heap : HeapFile} {rest : List Pin} {others : List FilePtr}
  {fileName : FileName} {lf : LogicalFile} {frame : Nat}

theorem Writes.trans {first second third : World} {left right : LogicalFile}
    (before : Writes first second fileName left) (after : Writes second third fileName right) :
    Writes first third fileName right where
  files := after.files.trans before.files
  openFiles := after.openFiles.trans before.openFiles
  logical := by rw [after.logical, before.logical, Function.update_idem]
  given := fun other pageNo earlier => after.given other pageNo (before.given other pageNo earlier)

theorem Writes.unseen {second third : World} {after : LogicalFile}
    (writes : Writes w second fileName after) (same : SameLogical second third) :
    Writes w third fileName after where
  files := same.files.trans writes.files
  openFiles := same.openFiles.trans writes.openFiles
  logical := same.logical.trans writes.logical
  given := by
    rw [same.given]
    exact writes.given

theorem SameLogical.writes {second third : World} {after : LogicalFile}
    (same : SameLogical w second) (writes : Writes second third fileName after) :
    Writes w third fileName after where
  files := writes.files.trans same.files
  openFiles := writes.openFiles.trans same.openFiles
  logical := by rw [writes.logical, same.logical]
  given := by
    rw [← same.given]
    exact writes.given

theorem no_cur_page {heap : HeapFile} (cur : heap.curPage = none) :
    { heap with curPage := none } = heap := by
  cases heap
  simp_all

/-- The part of `getRecord` that pins a page. The object may still have a stale
`curPage` then. -/
theorem Holding.fetch_record
    (holding : w.Holding { heap with curPage := none } rest others fileName lf) (rid : RID) :
    ∃ result heap' w', heap.fetchRecord rid w = (.ok (result, heap'), w') ∧
      heap'.headerPin = heap.headerPin ∧
      ((heap' = heap ∧ w'.bufFailed = true ∧ (lf.Inside rid.pageNo →
          ¬w.HasRoom (heap.headerPin :: rest) heap.filePtr rid.pageNo ∧ SameLogical w w' ∧
            w'.Holding { heap with curPage := none } rest others fileName lf)) ∨
        (w'.bufFailed = w.bufFailed ∧ lf.Inside rid.pageNo ∧ SameLogical w w' ∧
          w'.Holding heap' rest others fileName lf ∧
          result = (lf.data rid.pageNo).getRecord rid ∧ heap'.curPage.isSome ∧
          heap'.curPageNo = rid.pageNo ∧ heap'.curRec = rid)) := by
  obtain ⟨result, w₁, run, outcome⟩ := holding.read rfl rid.pageNo
  unfold HeapFile.fetchRecord
  rcases outcome with ⟨status, rfl, failed, within⟩ |
    ⟨frame, rfl, inside, same, failed, page, held⟩
  · rw [DbM.bind_ok run]
    refine ⟨.error status, heap, w₁, rfl, rfl, .inl ⟨rfl, failed, fun inside => ?_⟩⟩
    obtain ⟨full, same, held⟩ := within inside
    exact ⟨full, same, held _ rfl rfl⟩
  · rw [DbM.bind_ok run]
    refine ⟨_, _, w₁, rfl, ?_, .inr ⟨failed, inside, same, held _ ?_ ?_ ?_, ?_, ?_⟩⟩
    all_goals simp [HeapFile.headerPin, LogicalFile.data, page]

/-- `getRecord`. It unpins first and reads second: if the read fails, the object
still claims the page it has given up. -/
theorem Holding.get_record (holding : w.Holding heap rest others fileName lf) (rid : RID) :
    ∃ result heap' w', heap.getRecord rid w = (.ok (result, heap'), w') ∧
      heap'.headerPin = heap.headerPin ∧
      ((w'.bufFailed = true ∧ (lf.Inside rid.pageNo →
          heap.curPage = none ∨ w.HasRoom (heap.headerPin :: rest) heap.filePtr rid.pageNo →
          SameLogical w w' ∧ w'.Holding heap' rest others fileName lf)) ∨
        (w'.bufFailed = w.bufFailed ∧ lf.Inside rid.pageNo ∧ SameLogical w w' ∧
          w'.Holding heap' rest others fileName lf ∧
          result = (lf.data rid.pageNo).getRecord rid ∧ heap'.curPage.isSome ∧
          heap'.curPageNo = rid.pageNo ∧ heap'.curRec = rid)) := by
  unfold HeapFile.getRecord
  cases cur : heap.curPage with
  | none =>
      obtain ⟨result, heap', w₁, run, header, outcome⟩ :=
        Holding.fetch_record (by rw [no_cur_page cur]; exact holding) rid
      refine ⟨result, heap', w₁, run, header, ?_⟩
      rcases outcome with ⟨rfl, failed, within⟩ | success
      · refine .inl ⟨failed, fun inside _ => ?_⟩
        obtain ⟨_, same, held⟩ := within inside
        rw [no_cur_page cur] at held
        exact ⟨same, held⟩
      · exact .inr success
  | some frame =>
      dsimp only
      by_cases here : rid.pageNo = heap.curPageNo
      · rw [if_pos here, page_at_bind]
        obtain ⟨inside, page⟩ := holding.cur_page cur
        refine ⟨_, _, w, rfl, rfl, .inr ⟨rfl, by rw [here]; exact inside, .refl w, ?_, ?_, ?_⟩⟩
        · exact holding.promise ⟨rfl, rfl, rfl⟩ ⟨cur.symm, rfl⟩ id id
        · rw [page, here]
          rfl
        · simp [here]
      · rw [if_neg here]
        obtain ⟨w₁, unpinned, same₁, failed₁, held₁⟩ := holding.unpin cur heap.curDirtyFlag id
        rw [DbM.bind_ok unpinned]
        obtain ⟨result, heap', w₂, run, header, outcome⟩ :=
          (held₁ { heap with curPage := none } rfl rfl).fetch_record rid
        refine ⟨result, heap', w₂, run, header, ?_⟩
        rcases outcome with ⟨rfl, failed, within⟩ |
          ⟨failed, inside, same, held, found, current⟩
        · refine .inl ⟨failed, fun inside room => ?_⟩
          obtain ⟨full, _⟩ := within inside
          rcases room with none_ | room
          · cases none_
          · rw [HasRoom, same₁.numBufs] at full
            exact absurd room full
        · exact .inr ⟨failed.trans failed₁, inside, same₁.trans same, held, found, current⟩

/-- Everything a destructor does in front of the `closeFile`: the object gives
its last pin back. -/
theorem Holding.release_header (holding : w.Holding heap rest others fileName lf)
    (cur : heap.curPage = none) :
    ∃ w', callBufMgr (BufMgr.unPinPage heap.filePtr heap.headerPageNo heap.hdrDirtyFlag) w =
        (.ok (.ok ()), w') ∧ w'.Storage rest (heap.filePtr :: others) ∧ SameLogical w w' ∧
      w'.bufFailed = w.bufFailed := by
  have storage := holding.storage
  rw [HeapFile.pins_none cur] at storage
  exact storage.un_pin_page heap.hdrDirtyFlag id

theorem Holding.release (holding : w.Holding heap rest others fileName lf)
    (cur : heap.curPage = none) (owned : ∀ pin ∈ rest, pin.file ∈ others) :
    ∃ w₁ w', heap.release w = (.ok (), w') ∧
      callBufMgr (BufMgr.unPinPage heap.filePtr heap.headerPageNo heap.hdrDirtyFlag) w =
        (.ok (.ok ()), w₁) ∧
      w₁.Storage rest (heap.filePtr :: others) ∧ SameLogical w w₁ ∧
      DB.closeFile heap.filePtr w₁ = (.ok (), w') ∧ w'.Storage rest others ∧
      Closes w₁ w' others heap.filePtr ∧ w'.bufFailed = w.bufFailed := by
  obtain ⟨w₁, unpinned, storage₁, same₁, failed₁⟩ := holding.release_header cur
  have apart : heap.filePtr ∉ others → ∀ pin ∈ rest, pin.file ≠ heap.filePtr := by
    intro last pin member equal
    exact last (equal ▸ owned pin member)
  obtain ⟨w₂, closed, storage₂, closes⟩ := storage₁.close_file apart
  refine ⟨w₁, w₂, ?_, unpinned, storage₁, same₁, closed, storage₂, closes,
    closes.bufFailed.trans failed₁⟩
  unfold HeapFile.release
  rw [DbM.bind_ok unpinned, DbM.bind_ok (attempt_ok closed)]
  rfl

theorem Holding.end_scan {scan : HeapFileScan}
    (holding : w.Holding scan.toHeapFile rest others fileName lf) :
    ∃ scan' w', scan.endScan w = (.ok (.OK, scan'), w') ∧ SameLogical w w' ∧
      w'.bufFailed = w.bufFailed ∧ scan'.headerPin = scan.headerPin ∧ scan'.curPage = none ∧
      w'.Holding scan'.toHeapFile rest others fileName lf := by
  unfold HeapFileScan.endScan
  cases cur : scan.curPage with
  | none => exact ⟨scan, w, rfl, .refl w, rfl, rfl, cur, holding⟩
  | some frame =>
      obtain ⟨w₁, unpinned, same, failed, held⟩ := holding.unpin cur scan.curDirtyFlag id
      simp only [Option.isSome_some, if_true]
      rw [DbM.bind_ok unpinned]
      exact ⟨_, w₁, rfl, same, failed, rfl, rfl, held _ rfl rfl⟩

theorem Holding.fetch_marked {scan : HeapFileScan}
    (holding : w.Holding { scan.toHeapFile with curPage := none } rest others fileName lf) :
    ∃ status scan' w', scan.fetchMarked w = (.ok (status, scan'), w') ∧
      scan'.headerPin = scan.headerPin ∧
      ((scan'.curPage = scan.curPage ∧ w'.bufFailed = true ∧ (lf.Inside scan.markedPageNo →
          ¬w.HasRoom (scan.headerPin :: rest) scan.filePtr scan.markedPageNo ∧ SameLogical w w' ∧
            w'.Holding { scan'.toHeapFile with curPage := none } rest others fileName lf)) ∨
        (w'.bufFailed = w.bufFailed ∧ lf.Inside scan.markedPageNo ∧ SameLogical w w' ∧
          w'.Holding scan'.toHeapFile rest others fileName lf)) := by
  obtain ⟨result, w₁, run, outcome⟩ := holding.read rfl scan.markedPageNo
  unfold HeapFileScan.fetchMarked
  rcases outcome with ⟨status, rfl, failed, within⟩ |
    ⟨frame, rfl, inside, same, failed, page, held⟩
  · rw [DbM.bind_ok run]
    refine ⟨status, _, w₁, rfl, rfl, .inl ⟨rfl, failed, fun inside => ?_⟩⟩
    obtain ⟨full, same, held⟩ := within inside
    exact ⟨full, same, held _ rfl rfl⟩
  · rw [DbM.bind_ok run]
    exact ⟨.OK, _, w₁, rfl, rfl, .inr ⟨failed, inside, same, held _ rfl rfl rfl⟩⟩

theorem Holding.reset_scan {scan : HeapFileScan}
    (holding : w.Holding scan.toHeapFile rest others fileName lf) :
    ∃ status scan' w', scan.resetScan w = (.ok (status, scan'), w') ∧
      scan'.headerPin = scan.headerPin ∧
      ((w'.bufFailed = true ∧ (lf.Inside scan.markedPageNo →
          scan.curPage = none ∨ w.HasRoom (scan.headerPin :: rest) scan.filePtr scan.markedPageNo →
          SameLogical w w' ∧ w'.Holding scan'.toHeapFile rest others fileName lf)) ∨
        (w'.bufFailed = w.bufFailed ∧ SameLogical w w' ∧
          w'.Holding scan'.toHeapFile rest others fileName lf)) := by
  unfold HeapFileScan.resetScan
  by_cases moves : scan.markedPageNo ≠ scan.curPageNo
  · rw [if_pos moves]
    cases cur : scan.curPage with
    | none =>
        obtain ⟨status, scan', w₁, run, header, outcome⟩ :=
          Holding.fetch_marked (by rw [no_cur_page cur]; exact holding)
        refine ⟨status, scan', w₁, run, header, ?_⟩
        rcases outcome with ⟨stays, failed, within⟩ | ⟨failed, inside, same, held⟩
        · refine .inl ⟨failed, fun inside _ => ?_⟩
          obtain ⟨_, same, held⟩ := within inside
          rw [no_cur_page (stays.trans cur)] at held
          exact ⟨same, held⟩
        · exact .inr ⟨failed, same, held⟩
    | some frame =>
        obtain ⟨w₁, unpinned, same₁, failed₁, held₁⟩ := holding.unpin cur scan.curDirtyFlag id
        simp only [Option.isSome_some, if_true]
        rw [DbM.bind_ok unpinned]
        obtain ⟨status, scan', w₂, run, header, outcome⟩ :=
          (held₁ { scan.toHeapFile with curPage := none } rfl rfl).fetch_marked
        refine ⟨status, scan', w₂, run, header, ?_⟩
        rcases outcome with ⟨stays, failed, within⟩ | ⟨failed, inside, same, held⟩
        · refine .inl ⟨failed, fun inside room => ?_⟩
          obtain ⟨full, _⟩ := within inside
          rcases room with none_ | room
          · cases none_
          · rw [HasRoom, same₁.numBufs] at full
            exact absurd room full
        · exact .inr ⟨failed.trans failed₁, same₁.trans same, held⟩
  · rw [if_neg moves]
    exact ⟨.OK, _, w, rfl, rfl, .inr ⟨rfl, .refl w,
      holding.promise ⟨rfl, rfl, rfl⟩ ⟨rfl, rfl⟩ id id⟩⟩

theorem Holding.update_header (holding : w.Holding heap rest others fileName lf)
    (flag : heap.hdrDirtyFlag = true) (change : FileHdrPage → FileHdrPage) :
    let w' := w.giveImage heap.headerPage ((w.bufMgr.bufPool heap.headerPage).setFileHdr
      (change (w.bufMgr.bufPool heap.headerPage).asFileHdr))
    w'.Holding heap rest others fileName (lf.updateHeader heap.headerPageNo change) ∧
      Writes w w' fileName (lf.updateHeader heap.headerPageNo change) := by
  obtain ⟨_, page⟩ := holding.header_page
  obtain ⟨held, writes, _⟩ := holding.store_header flag
    ((lf.page heap.headerPageNo).setFileHdr (change (lf.header heap.headerPageNo)))
  rw [page]
  exact ⟨held, writes⟩

theorem Holding.set_next_page (holding : w.Holding heap rest others fileName lf)
    (cur : heap.curPage = some frame) (flag : heap.curDirtyFlag = true) (nextNo : Int) :
    let w' := w.giveImage frame (.data ((w.bufMgr.bufPool frame).asPage.setNextPage nextNo))
    let lf' := lf.setData heap.curPageNo ((lf.data heap.curPageNo).setNextPage nextNo)
    w'.Holding heap rest others fileName lf' ∧ Writes w w' fileName lf' := by
  obtain ⟨_, page⟩ := holding.cur_page cur
  obtain ⟨held, writes, _⟩ := holding.store_page cur flag
    (.data ((lf.data heap.curPageNo).setNextPage nextNo))
  rw [page]
  exact ⟨held, writes⟩

theorem Holding.delete_record {scan : HeapFileScan}
    (holding : w.Holding scan.toHeapFile rest others fileName lf)
    (cur : scan.curPage = some frame) :
    let result := lf.deleteRecord scan.headerPageNo scan.curPageNo scan.curRec
    let scan' := { scan with curDirtyFlag := true, hdrDirtyFlag := true }
    ∃ w', scan.deleteRecord w = (.ok (result.1, scan'), w') ∧
      w'.Holding scan'.toHeapFile rest others fileName result.2 ∧
      Writes w w' fileName result.2 ∧ w'.bufFailed = w.bufFailed := by
  intro result scan'
  have promised : w.Holding scan'.toHeapFile rest others fileName lf :=
    holding.promise ⟨rfl, rfl, rfl⟩ ⟨rfl, rfl⟩ (fun _ => rfl) (fun _ => rfl)
  obtain ⟨_, page⟩ := promised.cur_page cur
  have code : scan.deleteRecord w =
      (do
        if result.1 = Status.OK then
          storePage frame ((lf.data scan.curPageNo).deleteRecord scan.curRec).2
        let hdr ← headerAt scan.headerPage
        storeHeader scan.headerPage { hdr with recCnt := hdr.recCnt - 1 }
        pure (result.1, scan')) w := by
    unfold HeapFileScan.deleteRecord
    simp only [cur, scan']
    rw [page_at_bind, page]
    rfl
  rw [code]
  by_cases removed : result.1 = Status.OK
  · simp only [removed, if_true, store_page_bind, header_at_bind, store_header_bind]
    obtain ⟨held₁, writes₁, _⟩ := promised.store_page cur rfl
      (.data ((lf.data scan.curPageNo).deleteRecord scan.curRec).2)
    obtain ⟨held₂, writes₂⟩ := held₁.update_header rfl
      (fun hdr => { hdr with recCnt := hdr.recCnt + -1 })
    have ends : result.2 = (lf.setData scan.curPageNo
        ((lf.data scan.curPageNo).deleteRecord scan.curRec).2).addRecords
          scan.headerPageNo (-1) := by
      have removed' : ((lf.data scan.curPageNo).deleteRecord scan.curRec).1 = .OK := removed
      simp only [result, LogicalFile.deleteRecord, removed', if_true]
    rw [ends]
    exact ⟨_, rfl, held₂, writes₁.trans writes₂, rfl⟩
  · simp only [removed, if_false, header_at_bind, store_header_bind]
    obtain ⟨held₁, writes₁⟩ := promised.update_header rfl
      (fun hdr => { hdr with recCnt := hdr.recCnt + -1 })
    have ends : result.2 = lf.addRecords scan.headerPageNo (-1) := by
      have removed' : ((lf.data scan.curPageNo).deleteRecord scan.curRec).1 ≠ .OK := removed
      simp only [result, LogicalFile.deleteRecord, removed', if_false]
    rw [ends]
    exact ⟨_, rfl, held₁, writes₁, rfl⟩

theorem insert_on_fresh_page (page : Page) (pageNo : Int) (rec : Record)
    (short : rec.length ≤ 1000) :
    ∃ rid after, ((page.init pageNo).setNextPage (-1)).insertRecord rec = (.ok rid, after) := by
  have fits : ¬(rec.length : Int) + SLOTSIZE > ((page.init pageNo).setNextPage (-1)).freeSpace := by
    have space : ((page.init pageNo).setNextPage (-1)).freeSpace = 1004 := rfl
    rw [space, SLOTSIZE]
    omega
  unfold Page.insertRecord
  simp only [if_neg fits]
  exact ⟨_, _, rfl⟩

theorem Holding.record_inserted {scan : InsertFileScan} (after : Page) (rid : RID)
    (holding : w.Holding { scan.toHeapFile with curDirtyFlag := true, hdrDirtyFlag := true }
      rest others fileName lf) (cur : scan.curPage = some frame) :
    let scan' : InsertFileScan :=
      ⟨{ scan.toHeapFile with curDirtyFlag := true, hdrDirtyFlag := true }⟩
    let lf' := (lf.setData scan.curPageNo after).addRecords scan.headerPageNo 1
    ∃ w', scan.recordInserted frame after rid w = (.ok (.ok rid, scan'), w') ∧
      w'.Holding scan'.toHeapFile rest others fileName lf' ∧ Writes w w' fileName lf' ∧
      w'.bufFailed = w.bufFailed := by
  intro scan' lf'
  obtain ⟨held₁, writes₁, _⟩ := holding.store_page cur rfl (.data after)
  obtain ⟨held₂, writes₂⟩ := held₁.update_header rfl
    (fun hdr => { hdr with recCnt := hdr.recCnt + 1 })
  exact ⟨_, rfl, held₂, writes₁.trans writes₂, rfl⟩

/-- The page is full: a new one is appended and becomes the current page. -/
theorem Holding.append_page {scan : InsertFileScan}
    (holding : w.Holding scan.toHeapFile rest others fileName lf)
    (cur : scan.curPage = some frame) (rec : Record) :
    (∃ status image w', scan.insertOnNewPage frame rec w = (.ok (.error status, scan), w') ∧
        w'.bufFailed = true ∧ w.Exhausted ∧
        w'.Holding scan.toHeapFile rest others fileName (lf.extend image) ∧
        Writes w w' fileName (lf.extend image)) ∨
      ¬w.Exhausted ∧ ∃ newFrame image w',
        let lf' := lf.appendPage scan.headerPageNo scan.curPageNo image
        let moved := scan.movedTo newFrame lf.size
        scan.insertOnNewPage frame rec w =
          (match (lf'.data lf.size).insertRecord rec with
            | (.ok rid, after) => moved.recordInserted newFrame after rid
            | (.error status, _) => pure (.error status, moved)) w' ∧
        w'.bufFailed = w.bufFailed ∧ Writes w w' fileName lf' ∧
        (w'.given fileName lf.size).isSome ∧
        ∀ heap' : HeapFile, heap'.headerPin = moved.headerPin →
          heap'.curPage = some newFrame → heap'.curPageNo = lf.size →
          heap'.curDirtyFlag = true → w'.Holding heap' rest others fileName lf' := by
  unfold InsertFileScan.insertOnNewPage
  obtain ⟨result, w₁, run, outcome⟩ := holding.alloc
  rcases outcome with ⟨status, image, rfl, failed, exhausted, appended⟩ |
    ⟨newFrame, rfl, spare, failed, held, writes⟩
  · rw [DbM.bind_ok run]
    exact .inl ⟨status, image, w₁, rfl, failed, exhausted, appended⟩
  · refine .inr ⟨spare, ?_⟩
    set image := w₁.bufMgr.bufPool newFrame with imageDef
    set flagged : HeapFile :=
      { scan.toHeapFile with curDirtyFlag := true, hdrDirtyFlag := true } with flaggedDef
    have held₁ : w₁.Holding flagged _ others fileName (lf.extend image) :=
      held.promise ⟨rfl, rfl, rfl⟩ ⟨rfl, rfl⟩ (fun _ => rfl) (fun _ => rfl)
    obtain ⟨held₂, writes₂, given₂, _⟩ := held₁.store_beside List.mem_cons_self rfl rfl
      (.data ((image.asPage.init lf.size).setNextPage (-1)))
    obtain ⟨held₃, writes₃⟩ := held₂.update_header rfl
      (fun hdr => { hdr with lastPage := lf.size, pageCnt := hdr.pageCnt + 1 })
    obtain ⟨held₄, writes₄⟩ := held₃.set_next_page cur rfl lf.size
    obtain ⟨w₅, unpinned, same₅, failed₅, held₅⟩ := held₄.unpin cur true (fun _ => rfl)
    have adopted : ∀ heap' : HeapFile,
        heap'.headerPin = (scan.movedTo newFrame lf.size).headerPin →
        heap'.curPage = some newFrame → heap'.curPageNo = lf.size → heap'.curDirtyFlag = true →
        w₅.Holding heap' rest others fileName
          (lf.appendPage scan.headerPageNo scan.curPageNo image) := by
      intro heap' header page number flag
      exact (held₅ { flagged with curPage := none } rfl rfl).adopt rfl header page number rfl
        (fun _ => flag)
    obtain ⟨_, page₅⟩ := (adopted { flagged with curPage := some newFrame, curPageNo := lf.size }
      rfl rfl rfl rfl).cur_page rfl
    refine ⟨newFrame, image, w₅, ?_, ?_, ?_, ?_, adopted⟩
    · rw [DbM.bind_ok run]
      dsimp only
      rw [page_at_bind, store_page_bind, header_at_bind, store_header_bind, page_at_bind,
        store_page_bind, DbM.bind_ok unpinned]
      dsimp only
      rw [page_at_bind, page₅]
      rfl
    · rw [failed₅]
      simpa only [give_image_buf_failed] using failed
    · exact (((writes.trans writes₂).trans writes₃).trans writes₄).unseen same₅
    · rw [same₅.given]
      exact writes₄.given _ _ (writes₃.given _ _ given₂)

/-- `insertRecord` of an object whose current page is `curNo` has done what
`LogicalFile.insertRecord` says. -/
structure Inserts (w w' : World) (scan scan' : InsertFileScan) (rest : List Pin)
    (others : List FilePtr) (fileName : FileName) (lf : LogicalFile) (curNo : Int) (rec : Record)
    (ends : Except Status RID × LogicalFile × Int) : Prop where
  source : ∃ image, ends = lf.insertRecord scan.headerPageNo curNo image rec
  bufFailed : w'.bufFailed = w.bufFailed
  writes : Writes w w' fileName ends.2.1
  pages : ∀ pageNo, ends.2.1.Inside pageNo →
    lf.Inside pageNo ∨ (w'.given fileName pageNo).isSome
  cursor : scan'.curPage.isSome ∧ scan'.curPageNo = ends.2.2
  header : scan'.headerPageNo = scan.headerPageNo ∧ scan'.filePtr = scan.filePtr
  /-- A record that fits on no page leaves behind a page nobody will report. -/
  held : (1000 < rec.length → scan.curDirtyFlag = true) →
    w'.Holding scan'.toHeapFile rest others fileName ends.2.1

theorem Holding.insert_here {scan : InsertFileScan}
    (holding : w.Holding scan.toHeapFile rest others fileName lf)
    (cur : scan.curPage = some frame) (rec : Record) :
    ∃ result scan' w', scan.insertHere frame rec w = (.ok (result, scan'), w') ∧
      ((w'.bufFailed = true ∧ scan' = scan ∧ w.Exhausted ∧ ∃ image,
          Writes w w' fileName (lf.extend image) ∧
          w'.Holding scan.toHeapFile rest others fileName (lf.extend image)) ∨
        ∃ ends, result = ends.1 ∧ (lf.size < ends.2.1.size → ¬w.Exhausted) ∧
          Inserts w w' scan scan' rest others fileName lf scan.curPageNo rec ends) := by
  obtain ⟨insideCur, page⟩ := holding.cur_page cur
  obtain ⟨insideHeader, _⟩ := holding.header_page
  unfold InsertFileScan.insertHere
  rw [page_at_bind, page]
  change ∃ result scan' w', (match (lf.data scan.curPageNo).insertRecord rec with
    | (.ok rid, after) => scan.recordInserted frame after rid
    | (.error _, _) => scan.insertOnNewPage frame rec) w = _ ∧ _
  rcases inserted : (lf.data scan.curPageNo).insertRecord rec with ⟨status | rid, after⟩
  · dsimp only
    rcases holding.append_page cur rec with
      ⟨status, image, w₁, run, failed, exhausted, held, writes⟩ |
      ⟨spare, newFrame, image, w₁, run, failed, writes, given, held⟩
    · exact ⟨_, _, w₁, run, .inl ⟨failed, rfl, exhausted, image, writes, held⟩⟩
    · have grownPages : ∀ pageNo, (lf.appendPage scan.headerPageNo scan.curPageNo image).Inside
          pageNo → lf.Inside pageNo ∨ (w₁.given fileName pageNo).isSome := by
        intro pageNo inside
        by_cases new : pageNo = lf.size
        · right
          rw [new]
          exact given
        · left
          have upper := inside.2
          rw [LogicalFile.append_page_size] at upper
          exact ⟨inside.1, by push_cast at upper; omega⟩
      have fresh := LogicalFile.append_page_new image insideHeader insideCur
      rw [run]
      rcases again : ((lf.appendPage scan.headerPageNo scan.curPageNo image).data
        lf.size).insertRecord rec with ⟨status | rid, after⟩
      · have ends : lf.insertRecord scan.headerPageNo scan.curPageNo image rec =
            (Except.error status, lf.appendPage scan.headerPageNo scan.curPageNo image,
              (lf.size : Int)) := by
          simp only [LogicalFile.insertRecord, inserted, again]
        refine ⟨_, _, w₁, rfl, .inr ⟨_, rfl, fun _ => spare,
          ⟨⟨image, ends.symm⟩, failed, writes, grownPages,
          ⟨rfl, rfl⟩, ⟨rfl, rfl⟩, fun oversized => ?_⟩⟩⟩
        apply held _ rfl rfl rfl
        apply oversized
        by_contra short
        obtain ⟨rid, after', fits⟩ :=
          insert_on_fresh_page image.asPage lf.size rec (by omega)
        rw [fresh, fits] at again
        cases again
      · have ends : lf.insertRecord scan.headerPageNo scan.curPageNo image rec =
            (Except.ok rid, ((lf.appendPage scan.headerPageNo scan.curPageNo image).setData lf.size
              after).addRecords scan.headerPageNo 1, (lf.size : Int)) := by
          simp only [LogicalFile.insertRecord, inserted, again]
        obtain ⟨w₂, run₂, held₂, writes₂, failed₂⟩ :=
          Holding.record_inserted after rid (held { (scan.movedTo newFrame lf.size).toHeapFile with
            curDirtyFlag := true, hdrDirtyFlag := true } rfl rfl rfl rfl) rfl
        refine ⟨_, _, w₂, run₂, .inr ⟨_, rfl, fun _ => spare,
          ⟨⟨image, ends.symm⟩, failed₂.trans failed,
          writes.trans writes₂, ?_, ⟨rfl, rfl⟩, ⟨rfl, rfl⟩, fun _ => held₂⟩⟩⟩
        intro pageNo inside
        exact (grownPages pageNo inside).imp_right (writes₂.given _ _)
  · have ends : lf.insertRecord scan.headerPageNo scan.curPageNo PageImage.zero rec =
        (.ok rid, (lf.setData scan.curPageNo after).addRecords scan.headerPageNo 1,
          scan.curPageNo) := by
      simp only [LogicalFile.insertRecord, inserted]
    have promised : w.Holding
        { scan.toHeapFile with curDirtyFlag := true, hdrDirtyFlag := true }
        rest others fileName lf :=
      holding.promise ⟨rfl, rfl, rfl⟩ ⟨rfl, rfl⟩ (fun _ => rfl) (fun _ => rfl)
    obtain ⟨w₁, run, held, writes, failed⟩ := promised.record_inserted after rid cur
    exact ⟨_, _, w₁, run, .inr ⟨_, rfl, fun larger => absurd larger (lt_irrefl _),
      ⟨⟨_, ends.symm⟩, failed, writes, fun _ inside => .inl inside,
      ⟨by simp [cur], rfl⟩, ⟨rfl, rfl⟩, fun _ => held⟩⟩⟩

def InsertFileScan.insertPageNo (scan : InsertFileScan) (lf : LogicalFile) : Int :=
  if scan.curPage.isSome then scan.curPageNo else (lf.header scan.headerPageNo).lastPage

theorem Holding.insert_record {scan : InsertFileScan}
    (holding : w.Holding scan.toHeapFile rest others fileName lf) (rec : Record) :
    ∃ result scan' w', scan.insertRecord rec w = (.ok (result, scan'), w') ∧
      ((DATASIZE < rec.length ∧ result = .error .INVALIDRECLEN ∧ scan' = scan ∧ w' = w) ∨
        (w'.bufFailed = true ∧ scan'.filePtr = scan.filePtr ∧
          (scan.curPage.isSome ∨ lf.Inside (lf.header scan.headerPageNo).lastPage →
            ((SameLogical w w' ∧ w'.Holding scan'.toHeapFile rest others fileName lf) ∨
              ∃ lf', Writes w w' fileName lf' ∧
                w'.Holding scan'.toHeapFile rest others fileName lf'))) ∨
        (rec.length ≤ DATASIZE ∧ ∃ ends, result = ends.1 ∧
          Inserts w w' scan scan' rest others fileName lf
            (InsertFileScan.insertPageNo scan lf) rec ends)) := by
  unfold InsertFileScan.insertRecord
  by_cases large : rec.length > DATASIZE
  · rw [if_pos large]
    exact ⟨_, _, w, rfl, .inl ⟨large, rfl, rfl, rfl⟩⟩
  · rw [if_neg large]
    have small : rec.length ≤ DATASIZE := Nat.le_of_not_lt large
    cases cur : scan.curPage with
    | some frame =>
        obtain ⟨result, scan', w₁, run, outcome⟩ := holding.insert_here cur rec
        refine ⟨result, scan', w₁, run, ?_⟩
        rcases outcome with ⟨failed, rfl, _, image, writes, held⟩ | ⟨ends, ended, _, inserts⟩
        · exact .inr (.inl ⟨failed, rfl, fun _ => .inr ⟨_, writes, held⟩⟩)
        · refine .inr (.inr ⟨small, ends, ended, ?_⟩)
          rw [InsertFileScan.insertPageNo, cur]
          exact inserts
    | none =>
        obtain ⟨_, header⟩ := holding.header_page
        obtain ⟨result, w₁, read, outcome⟩ :=
          holding.read cur (lf.header scan.headerPageNo).lastPage
        dsimp only
        rw [header_at_bind, header]
        change ∃ result scan' w', (callBufMgr (BufMgr.readPage scan.filePtr
          (lf.header scan.headerPageNo).lastPage) >>= _) w = _ ∧ _
        rw [DbM.bind_ok read]
        rcases outcome with ⟨status, rfl, failed, within⟩ |
          ⟨frame, rfl, inside, same, failed, _, held⟩
        · refine ⟨_, _, w₁, rfl, .inr (.inl ⟨failed, rfl, fun exists_ => ?_⟩)⟩
          rcases exists_ with some_ | inside
          · cases some_
          · obtain ⟨_, same, held⟩ := within inside
            exact .inl ⟨same, held _ rfl cur⟩
        · let moved : InsertFileScan := ⟨{ scan.toHeapFile with
            curPage := some frame, curPageNo := (lf.header scan.headerPageNo).lastPage }⟩
          have movedHeld : w₁.Holding moved.toHeapFile rest others fileName lf :=
            held moved.toHeapFile rfl rfl rfl
          obtain ⟨result, scan', w₂, run, outcome⟩ := movedHeld.insert_here rfl rec
          refine ⟨result, scan', w₂, run, ?_⟩
          rcases outcome with ⟨failed₂, rfl, _, image, writes, held₂⟩ | ⟨ends, ended, _, inserts⟩
          · exact .inr (.inl ⟨failed₂, rfl, fun _ => .inr ⟨_, same.writes writes, held₂⟩⟩)
          · refine .inr (.inr ⟨small, ends, ended, ?_⟩)
            rw [InsertFileScan.insertPageNo, cur]
            exact ⟨inserts.source, inserts.bufFailed.trans failed, same.writes inserts.writes,
              inserts.pages, inserts.cursor, inserts.header, inserts.held⟩

variable {pins : List Pin} {opens : List FilePtr} {file : FilePtr}

theorem Storage.get_first_page (storage : w.Storage pins opens)
    (named : w.nameOf file = some fileName) (logical : w.logical fileName = some lf) :
    File.getFirstPage file w = (.ok lf.firstPage, w) := by
  obtain ⟨object, contents, live, _, _, stored, opened, _, _, first, _⟩ :=
    storage.handle_spec named logical
  have headed := (storage.stored fileName contents stored).header
  have calm : w.faults 0 = false := congrFun storage.reliable 0
  have read := File.intread_ok opened calm (le_refl 0) (by exact_mod_cast headed)
  rw [tick_of_reliable storage.reliable] at read
  unfold File.getFirstPage
  rw [DbM.bind_ok read, first]
  rfl

/-- A constructor has opened one more handle and changed no file. -/
structure Constructs (before after : World) (opens : List FilePtr) : Prop where
  logical : after.logical = before.logical
  names : ∀ other ∈ opens, after.nameOf other = before.nameOf other
  given : after.given = before.given
  numBufs : after.bufMgr.numBufs = before.bufMgr.numBufs

theorem Opens.unseen {second : World} (opened : Opens w w' opens fileName file)
    (same : SameLogical w' second) : Constructs w second opens where
  logical := same.logical.trans opened.logical
  names := by
    intro other member
    rw [same.nameOf, opened.names other member]
  given := same.given.trans opened.given
  numBufs := by rw [same.numBufs, opened.pool]

theorem Constructs.unseen {second : World} (constructs : Constructs w w' opens)
    (same : SameLogical w' second) : Constructs w second opens where
  logical := same.logical.trans constructs.logical
  names := by
    intro other member
    rw [same.nameOf, constructs.names other member]
  given := same.given.trans constructs.given
  numBufs := same.numBufs.trans constructs.numBufs

def PagePinned (w : World) (pins : List Pin) (fileName : FileName) (pageNo : Int) : Prop :=
  ∃ pin ∈ pins, w.nameOf pin.file = some fileName ∧ pin.pageNo = pageNo

def freeFrames (w : World) (pins : List Pin) : List Nat :=
  (List.range w.bufMgr.numBufs).filter fun frame => pinsOn pins frame = 0

/-- A page can be pinned next to `pins` and page `headerNo` of its file. -/
def RoomBeside (w : World) (pins : List Pin) (fileName : FileName) (headerNo pageNo : Int) :
    Prop :=
  w.PagePinned pins fileName pageNo ∨ 2 ≤ (w.freeFrames pins).length ∨
    (1 ≤ (w.freeFrames pins).length ∧ w.PagePinned pins fileName headerNo)

theorem free_frame_apart {pins : List Pin} (two : 2 ≤ (w.freeFrames pins).length)
    (taken : Nat) : ∃ frame ∈ w.freeFrames pins, frame ≠ taken := by
  have distinct : (w.freeFrames pins).Nodup := List.nodup_range.filter _
  generalize w.freeFrames pins = frames at two distinct ⊢
  cases frames with
  | nil => simp at two
  | cons first tail =>
      cases tail with
      | nil => simp at two
      | cons second tail =>
          have different : first ≠ second := fun equal => by simp [equal] at distinct
          by_cases here : first = taken
          · exact ⟨second, by simp, fun equal => different (here.trans equal.symm)⟩
          · exact ⟨first, by simp, here⟩

theorem Holding.has_room (holding : w'.Holding heap pins opens fileName lf)
    (constructs : Constructs w w' opens) (owned : ∀ pin ∈ pins, pin.file ∈ opens)
    {pageNo : Int} (room : w.RoomBeside pins fileName heap.headerPageNo pageNo) :
    w.HasRoom (heap.headerPin :: pins) heap.filePtr pageNo := by
  have sameFile : ∀ pin ∈ pins, w.nameOf pin.file = some fileName → pin.file = heap.filePtr := by
    intro pin member named
    rw [← constructs.names pin.file (owned pin member)] at named
    obtain ⟨_, _, _, _, _, _, _, found, _⟩ := holding.storage.handle_spec named holding.logical
    obtain ⟨_, _, _, _, _, _, _, found', _⟩ :=
      holding.storage.handle_spec holding.named holding.logical
    rw [found'] at found
    exact (Option.some.inj found).symm
  -- an unpinned frame other than the one of the header page
  have spare : (∃ frame ∈ w.freeFrames pins, frame ≠ heap.headerPage) →
      w.HasRoom (heap.headerPin :: pins) heap.filePtr pageNo := by
    rintro ⟨frame, member, different⟩
    simp only [freeFrames, List.mem_filter, List.mem_range, decide_eq_true_eq] at member
    refine .inr ⟨frame, member.1, ?_⟩
    rw [pins_on_cons, member.2]
    simp [HeapFile.headerPin, Ne.symm different]
  rcases room with ⟨pin, member, named, number⟩ | two | ⟨one, pin, member, named, number⟩
  · exact .inl ⟨pin, by simp [member], sameFile pin member named, number⟩
  · exact spare (free_frame_apart two heap.headerPage)
  · apply spare
    have here : pin.frame = heap.headerPage :=
      holding.storage.toHealthy.frame_unique (by simp [member]) heap.header_pin_mem
        (sameFile pin member named) number
    obtain ⟨frame, free⟩ := List.exists_mem_of_length_pos one
    refine ⟨frame, free, ?_⟩
    rintro rfl
    simp only [freeFrames, List.mem_filter, decide_eq_true_eq] at free
    have absent := List.countP_eq_zero.mp free.2 pin member
    simp [here] at absent

/-- The constructor of `HeapFile`. If its second read fails, `curPage` is what
was in memory. -/
theorem Storage.new_heap_file (storage : w.Storage pins opens) (mem : Uninit)
    (fileName : FileName) :
    (∃ status w', HeapFile.new mem fileName w = (.ok (.error status), w') ∧
        w'.Storage pins opens ∧ SameLogical w w' ∧ w'.bufFailed = w.bufFailed) ∨
      (∃ w', HeapFile.new mem fileName w = (.crash, w') ∧ w'.bufFailed = true) ∨
      ∃ lf heap w', HeapFile.new mem fileName w = (.ok (.ok heap), w') ∧
        w.logical fileName = some lf ∧ lf.Inside lf.firstPage ∧
        heap.headerPageNo = lf.firstPage ∧ heap.hdrDirtyFlag = false ∧
        heap.curPageNo = (lf.header lf.firstPage).firstPage ∧ heap.curDirtyFlag = false ∧
        heap.curRec = NULLRID ∧
        ((w'.bufFailed = true ∧ heap.curPage = mem.curPage ∧ (lf.Inside heap.curPageNo →
            ¬w.RoomBeside pins fileName lf.firstPage heap.curPageNo ∧ Constructs w w' opens ∧
              w'.Holding { heap with curPage := none } pins opens fileName lf)) ∨
          (w'.bufFailed = w.bufFailed ∧ heap.curPage.isSome ∧ Constructs w w' opens ∧
            w'.Holding heap pins opens fileName lf)) := by
  unfold HeapFile.new
  by_cases empty : fileName = []
  · left
    subst empty
    exact ⟨.BADFILE, w, rfl, storage, .refl w, rfl⟩
  · cases logical : w.logical fileName with
    | none =>
        left
        obtain ⟨w₁, run, storage₁, same, failed⟩ := storage.open_missing empty logical
        rw [DbM.bind_ok (attempt_err run)]
        exact ⟨_, w₁, rfl, storage₁, same, failed⟩
    | some lf =>
        right
        obtain ⟨file, w₁, run, storage₁, opened⟩ := storage.open_file empty logical
        have logical₁ : w₁.logical fileName = some lf := by rw [opened.logical, logical]
        have first := storage₁.get_first_page opened.name logical₁
        rw [DbM.bind_ok (attempt_ok run)]
        dsimp only
        have header : HeapFile.findHeader mem file w₁ = (.ok lf.firstPage, w₁) := by
          unfold HeapFile.findHeader
          rw [DbM.bind_ok (attempt_ok first)]
          rfl
        rw [DbM.bind_ok header]
        obtain ⟨result, w₂, readHeader, outcome⟩ :=
          storage₁.read_page opened.name logical₁ lf.firstPage
        rw [DbM.bind_ok readHeader]
        rcases outcome with ⟨status, rfl, failed, _⟩ |
          ⟨headerPage, rfl, inside, storage₂, same₂, failed₂, page⟩
        · exact .inl ⟨w₂, rfl, failed⟩
        · right
          dsimp only
          rw [header_at_bind, page]
          let heap : HeapFile :=
            { filePtr := file, headerPage, headerPageNo := lf.firstPage, hdrDirtyFlag := false
              curPage := mem.curPage, curPageNo := (lf.header lf.firstPage).firstPage
              curDirtyFlag := false, curRec := NULLRID }
          have held : w₂.Holding { heap with curPage := none } pins opens fileName lf :=
            ⟨storage₂, by rw [same₂.nameOf]; exact opened.name,
              by rw [same₂.logical]; exact logical₁⟩
          obtain ⟨result, w₃, readCur, outcome⟩ :=
            held.read rfl (lf.header lf.firstPage).firstPage
          change ∃ lf' heap' w', (callBufMgr (BufMgr.readPage file
            (lf.header lf.firstPage).firstPage) >>= _) w₂ = _ ∧ _
          rw [DbM.bind_ok readCur]
          rcases outcome with ⟨status, rfl, failed, within⟩ |
            ⟨frame, rfl, _, same₃, failed₃, _, held₃⟩
          · refine ⟨lf, heap, w₃, rfl, rfl, inside, rfl, rfl, rfl, rfl, rfl,
              .inl ⟨failed, rfl, fun insideCur => ?_⟩⟩
            obtain ⟨full, same₃, held₃⟩ := within insideCur
            have constructs := opened.unseen (same₂.trans same₃)
            refine ⟨fun room => full ?_, constructs, held₃ _ rfl rfl⟩
            rw [HasRoom, same₂.numBufs, opened.pool]
            exact (held₃ _ rfl rfl).has_room constructs (fun _ => storage.pin_open) room
          · exact ⟨lf, { heap with curPage := some frame }, w₃, rfl, rfl, inside, rfl, rfl, rfl,
              rfl, rfl, .inr ⟨(failed₃.trans failed₂).trans opened.bufFailed, rfl,
                opened.unseen (same₂.trans same₃), held₃ _ rfl rfl rfl⟩⟩

def SameFlag (before after : World) : Prop := after.bufFailed = before.bufFailed

theorem SameFlag.trans (first second third : World) (left : SameFlag first second)
    (right : SameFlag second third) : SameFlag first third :=
  Eq.trans right left

def FlagStays (before after : World) : Prop :=
  before.bufFailed = true → after.bufFailed = true

theorem FlagStays.trans (first second third : World) (left : FlagStays first second)
    (right : FlagStays second third) : FlagStays first third :=
  fun set_ => right (left set_)

theorem alloc_buf_flag : DbM.Moves SameFlag allocBuf := by
  intro w
  rw [alloc_buf_eq]
  dsimp only
  split_ifs
  · rfl
  · apply DbM.moves_bind SameFlag.trans
      (fun w => (File.write_page_moves _ _ _ w).1.bufFailed)
    intro _ w
    rfl
  · rfl

theorem install_page_flag (file : FilePtr) (pageNo : Int) (frame : Nat) :
    DbM.Moves SameFlag (installPage file pageNo frame) := by
  intro w
  rw [install_page_eq]
  dsimp only
  split <;> rfl

theorem read_page_flag (file : FilePtr) (pageNo : Int) :
    DbM.Moves SameFlag (BufMgr.readPage file pageNo) := by
  intro w
  cases found : w.bufMgr.hashTable.lookup file pageNo with
  | some frame =>
      rw [read_page_hit w file pageNo frame found]
      rfl
  | none =>
      rw [read_page_miss w file pageNo found]
      apply DbM.moves_bind SameFlag.trans alloc_buf_flag
      intro frame
      apply DbM.moves_bind SameFlag.trans
        (fun w => (File.read_page_moves file pageNo w).1.bufFailed)
      intro image
      refine DbM.moves_bind SameFlag.trans ?_ fun _ => install_page_flag file pageNo frame
      intro w
      rfl

theorem un_pin_page_flag (file : FilePtr) (pageNo : Int) (dirty : Bool) :
    DbM.Moves SameFlag (BufMgr.unPinPage file pageNo dirty) := by
  intro w
  cases found : w.bufMgr.hashTable.lookup file pageNo with
  | some frame =>
      rw [un_pin_page_hit w file pageNo dirty frame found]
      dsimp only
      split_ifs <;> rfl
  | none =>
      unfold BufMgr.unPinPage
      rw [DbM.read_bind, found]
      rfl

theorem call_buf_mgr_flag {α : Type} {call : DbM α} (moves : DbM.Moves SameFlag call) :
    DbM.Moves FlagStays (callBufMgr call) := by
  intro w set_
  have same := moves w
  unfold callBufMgr
  rcases run : call w with ⟨value | status | _, w'⟩ <;> rw [run] at same
  · exact Eq.trans same set_
  · exact Eq.trans same set_

theorem move_to_last_flag (heap : HeapFile) (lastPage : Int) :
    DbM.Moves FlagStays (InsertFileScan.moveToLast heap lastPage) := by
  unfold InsertFileScan.moveToLast
  apply DbM.moves_bind FlagStays.trans (call_buf_mgr_flag (un_pin_page_flag _ _ _))
  intro _
  apply DbM.moves_bind FlagStays.trans (call_buf_mgr_flag (read_page_flag _ _))
  intro result w
  cases result <;> exact id

/-- The constructor of `InsertFileScan`: it moves on to the last page, and if
that fails it still claims the first one. -/
theorem Storage.new_insert_scan (storage : w.Storage pins opens) (mem : Uninit)
    (fileName : FileName) {outcome : Outcome (Status × Option InsertFileScan)}
    (run : InsertFileScan.new mem fileName w = (outcome, w')) :
    outcome = .crash ∨
      (∃ status, outcome = .ok (status, none) ∧ w'.Storage pins opens ∧ SameLogical w w' ∧
        w'.bufFailed = w.bufFailed) ∨
      (w'.bufFailed = true ∧ ∃ lf, w.logical fileName = some lf ∧
        let hdr := lf.header lf.firstPage
        (lf.Inside hdr.firstPage → lf.Inside hdr.lastPage →
        mem.curPage = none ∨ w.RoomBeside pins fileName lf.firstPage hdr.firstPage →
        hdr.firstPage = hdr.lastPage ∨ w.RoomBeside pins fileName lf.firstPage hdr.lastPage →
        ∃ status scan, outcome = .ok (status, some scan) ∧ Constructs w w' opens ∧
          w'.Holding scan.toHeapFile pins opens fileName lf)) ∨
      ∃ lf scan, outcome = .ok (.OK, some scan) ∧ w.logical fileName = some lf ∧
        lf.Inside lf.firstPage ∧ w'.bufFailed = w.bufFailed ∧ Constructs w w' opens ∧
        w'.Holding scan.toHeapFile pins opens fileName lf ∧
        scan.headerPageNo = lf.firstPage ∧ scan.curPage.isSome ∧
        scan.curPageNo = (lf.header lf.firstPage).lastPage ∧ scan.hdrDirtyFlag = false ∧
        scan.curDirtyFlag = false := by
  unfold InsertFileScan.new at run
  rcases storage.new_heap_file mem fileName with ⟨status, w₁, base, storage₁, same, failed⟩ |
    ⟨w₁, base, failed⟩ |
    ⟨lf, heap, w₁, base, logical, inside, headerNo, hdrFlag, curNo, curFlag, _, result⟩
  · rw [DbM.bind_ok base] at run
    dsimp only at run
    split_ifs at run
    · cases run
      exact .inl rfl
    · cases run
      exact .inr (.inl ⟨status, rfl, storage₁, same, failed⟩)
  · rw [DbM.bind_apply, base] at run
    cases run
    exact .inl rfl
  · rw [DbM.bind_ok base] at run
    dsimp only at run
    rw [header_at_bind] at run
    rcases result with ⟨failed, stays, within⟩ | ⟨failed, pinned, constructs, held⟩
    · refine .inr (.inr (.inl ⟨?_, ?_⟩))
      · split_ifs at run
        · have set_ := move_to_last_flag heap
            (w₁.bufMgr.bufPool heap.headerPage).asFileHdr.lastPage w₁ failed
          rw [run] at set_
          exact set_
        · cases run
          exact failed
      · refine ⟨lf, logical, fun insideFirst _ roomFirst _ => ?_⟩
        obtain ⟨full, constructs, held⟩ := within (by rw [curNo]; exact insideFirst)
        rw [curNo] at full
        rcases roomFirst with null | room
        · have cur : heap.curPage = none := stays.trans null
          rw [if_neg (fun both => by simp [cur] at both)] at run
          rw [no_cur_page cur] at held
          cases run
          exact ⟨_, _, rfl, constructs, held⟩
        · exact absurd room full
    · obtain ⟨_, header⟩ := held.header_page
      obtain ⟨frame, cur⟩ := Option.isSome_iff_exists.mp pinned
      rw [header, headerNo] at run
      change (if heap.curPage.isSome ∧ heap.curPageNo ≠ (lf.header lf.firstPage).lastPage then _
        else _ : DbM _) w₁ = _ at run
      by_cases moves : heap.curPageNo ≠ (lf.header lf.firstPage).lastPage
      · rw [if_pos ⟨pinned, moves⟩] at run
        obtain ⟨w₂, unpinned, same₂, failed₂, held₂⟩ := held.unpin cur heap.curDirtyFlag id
        have constructs₂ := constructs.unseen same₂
        have parked := held₂ { heap with curPage := none } rfl rfl
        obtain ⟨result, w₃, read, ended⟩ := parked.read rfl (lf.header lf.firstPage).lastPage
        unfold InsertFileScan.moveToLast at run
        change (callBufMgr _ >>= fun _ => callBufMgr (BufMgr.readPage heap.filePtr
          (lf.header lf.firstPage).lastPage) >>= _) w₁ = _ at run
        rw [DbM.bind_ok unpinned, DbM.bind_ok read] at run
        rcases ended with ⟨status, rfl, failed₃, within⟩ |
          ⟨frame', rfl, _, same₃, failed₃, _, held₃⟩
        · cases run
          refine .inr (.inr (.inl ⟨failed₃, ?_⟩))
          refine ⟨lf, logical, fun _ insideLast _ roomLast => ?_⟩
          obtain ⟨full, _⟩ := within insideLast
          rcases roomLast with equal | room
          · exact absurd (curNo.trans equal) moves
          · have beside : w.RoomBeside pins fileName heap.headerPageNo
                (lf.header lf.firstPage).lastPage := by
              rw [headerNo]
              exact room
            have hasRoom := parked.has_room constructs₂ (fun _ => storage.pin_open) beside
            rw [HasRoom, constructs₂.numBufs] at full
            exact absurd hasRoom full
        · cases run
          exact .inr (.inr (.inr ⟨lf, _, rfl, logical, inside,
            (failed₃.trans failed₂).trans failed, constructs₂.unseen same₃, held₃ _ rfl rfl rfl,
            headerNo, rfl, rfl, hdrFlag, rfl⟩))
      · rw [if_neg (fun both => moves both.2)] at run
        cases run
        exact .inr (.inr (.inr ⟨lf, ⟨heap⟩, rfl, logical, inside, failed, constructs, held, headerNo,
          pinned, not_not.mp moves, hdrFlag, curFlag⟩))

end World

end PrimitiveDB

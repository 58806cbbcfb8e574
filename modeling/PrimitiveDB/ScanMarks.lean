import PrimitiveDB.ScanRuns

/-!
# Mark and reset

`markScan` saves the page number and the current record; `resetScan` goes back to them. On a
file that does not change the two determine all later calls of `scanNext`, whichever page the
scan is on in between: `LogicalFile.stepCursor` is `scanNext` as a function of the cursor
alone. The page itself is pinned again by the reset, in a frame that the clock may choose.
-/

namespace PrimitiveDB

open BufMgr World

set_option autoImplicit false

namespace LogicalFile

/-- A call of `scanNext`, as far as the file and the cursor decide about it: the result, and
the page and the record that the scan has then. -/
def stepCursor (file : LogicalFile) (filter : Option ScanFilter) (cursor : Int × RID) :
    Option (Except Status RID × Int × RID) :=
  file.scanLoop filter (file.size * 40000) cursor.1 cursor.2
    ((file.data cursor.1).nextRecord cursor.2)

def runCursor (file : LogicalFile) (filter : Option ScanFilter) :
    Nat → Int × RID → Option (List (Except Status RID) × Int × RID)
  | 0, cursor => some ([], cursor)
  | count + 1, cursor => do
      let (result, cursor) ← file.stepCursor filter cursor
      let (results, cursor) ← file.runCursor filter count cursor
      pure (result :: results, cursor)

theorem Advances.place {file : LogicalFile} {filter : Option ScanFilter} {chain : List Int}
    {todo : List RID} {computed : Option (Except Status RID × Int × RID)}
    (advances : file.Advances filter chain todo computed) :
    ∃ result pageNo curRec later, computed = some (result, pageNo, curRec) ∧
      file.Stands chain pageNo curRec later := by
  unfold Advances at advances
  split at advances
  · obtain ⟨pageNo, curRec, reached, stands⟩ := advances
    exact ⟨_, pageNo, curRec, [], reached, stands⟩
  · obtain ⟨reached, stands⟩ := advances
    exact ⟨_, _, _, _, reached, stands⟩

end LogicalFile

namespace HeapFileScan

def resetRounds : List (List RID) → HeapFileScan → DbM (List Status × HeapFileScan)
  | [], scan => pure ([], scan)
  | tmpRids :: rounds, scan => do
      let (_, scan) ← scanAll tmpRids scan
      let (status, scan) ← scan.resetScan
      let (statuses, scan) ← resetRounds rounds scan
      pure (status :: statuses, scan)

/-- What neither `scanNext` nor `resetScan` changes in a scan. -/
structure SameMark (before after : HeapFileScan) : Prop where
  headerPin : after.headerPin = before.headerPin
  filter : after.filter = before.filter
  markedPageNo : after.markedPageNo = before.markedPageNo
  markedRec : after.markedRec = before.markedRec

theorem SameMark.trans {first second third : HeapFileScan} (left : SameMark first second)
    (right : SameMark second third) : SameMark first third :=
  ⟨right.1.trans left.1, right.2.trans left.2, right.3.trans left.3, right.4.trans left.4⟩

end HeapFileScan

namespace World

variable {w w' : World} {rest : List Pin} {others : List FilePtr} {fileName : FileName}
  {lf : LogicalFile} {chain : List Int} {scan scan' : HeapFileScan}

def Spare (w : World) (pins : List Pin) : Prop :=
  ∃ frame < w.bufMgr.numBufs, pinsOn pins frame = 0

theorem Spare.same {pins : List Pin} (spare : w.Spare pins) (same : SameLogical w w') :
    w'.Spare pins := by
  obtain ⟨frame, bound, free⟩ := spare
  refine ⟨frame, ?_, free⟩
  rw [same.numBufs]
  exact bound

/-- With such a frame, a page of the file can be pinned in place of the current page. -/
theorem Holding.read_spared {heap : HeapFile}
    (holding : w.Holding heap rest others fileName lf) (cur : heap.curPage = none) {pageNo : Int}
    (inside : lf.Inside pageNo) (spare : w.Spare (heap.headerPin :: rest)) :
    ∃ frame w', callBufMgr (BufMgr.readPage heap.filePtr pageNo) w = (.ok (.ok frame), w') ∧
      SameLogical w w' ∧ w'.bufFailed = w.bufFailed ∧
      ∀ heap' : HeapFile, heap'.headerPin = heap.headerPin → heap'.curPage = some frame →
        heap'.curPageNo = pageNo → w'.Holding heap' rest others fileName lf := by
  obtain ⟨result, w₁, run, outcome⟩ := holding.read cur pageNo
  rcases outcome with ⟨status, rfl, _, within⟩ | ⟨frame, rfl, _, same, flag, _, held⟩
  · exact absurd (.inr spare) (within inside).1
  · exact ⟨frame, w₁, run, same, flag, held⟩

theorem Holding.scan_loop_spared (fuel : Nat) {w : World} {scan : HeapFileScan} {frame : Nat}
    (holding : w.Holding scan.toHeapFile rest others fileName lf)
    (cur : scan.curPage = some frame) (linked : lf.Linked scan.curPageNo)
    (spare : w.Spare (scan.headerPin :: rest)) (found : Except Status RID) :
    (HeapFileScan.scanLoop fuel scan frame found w).2.bufFailed = w.bufFailed := by
  induction fuel generalizing w scan frame found with
  | zero => rfl
  | succ fuel ih =>
      have page := holding.cur_data cur
      cases found with
      | ok rid =>
          have moved : w.Holding { scan.toHeapFile with curRec := rid } rest others fileName lf :=
            holding.promise ⟨rfl, rfl, rfl⟩ ⟨rfl, rfl⟩ id id
          unfold HeapFileScan.scanLoop
          rw [page_at_bind, page]
          cases (lf.data scan.curPageNo).getRecord rid with
          | error status => rfl
          | ok rec =>
              dsimp only
              split_ifs
              · rfl
              · exact @ih w { scan with curRec := rid } frame moved cur linked spare _
      | error status =>
          unfold HeapFileScan.scanLoop
          rw [page_at_bind, page]
          dsimp only
          split_ifs with last
          · rfl
          · obtain ⟨inside, linked'⟩ := linked.next ⟨rfl, last⟩
            obtain ⟨w₁, unpinned, same₁, flag₁, held₁⟩ := holding.unpin cur scan.curDirtyFlag id
            have parked := held₁ { scan.toHeapFile with
              curPage := none, curPageNo := (lf.data scan.curPageNo).getNextPage
              curDirtyFlag := false } rfl rfl
            obtain ⟨frame', w₂, read, same₂, flag₂, held₂⟩ :=
              parked.read_spared rfl inside (spare.same same₁)
            rw [DbM.bind_ok unpinned]
            dsimp only
            rw [DbM.bind_ok read]
            dsimp only
            rw [page_at_bind]
            have later := @ih w₂ { scan with
              curPage := some frame', curPageNo := (lf.data scan.curPageNo).getNextPage
              curDirtyFlag := false } frame' (held₂ _ rfl rfl rfl) rfl linked'
              ((spare.same same₁).same same₂) (w₂.bufMgr.bufPool frame').asPage.firstRecord
            exact later.trans (flag₂.trans flag₁)

/-- A scan on a page of its file, in a pool that has a frame for that page. -/
structure ScansOn (w : World) (scan : HeapFileScan) (rest : List Pin) (others : List FilePtr)
    (fileName : FileName) (lf : LogicalFile) (chain : List Int) : Prop where
  holding : w.Holding scan.toHeapFile rest others fileName lf
  formed : lf.HeapFormed scan.headerPageNo chain
  pinned : scan.curPage.isSome
  stands : ∃ todo, lf.Stands chain scan.curPageNo scan.curRec todo
  spare : w.Spare (scan.headerPin :: rest)
  calm : w.bufFailed = false

theorem ScansOn.page_mem (scans : w.ScansOn scan rest others fileName lf chain) :
    scan.curPageNo ∈ chain := by
  obtain ⟨_, pages, _, suffix, _⟩ := scans.stands
  exact suffix.subset List.mem_cons_self

theorem ScansOn.scan_next (scans : w.ScansOn scan rest others fileName lf chain) (tmpRid : RID) :
    ∃ result scan' w', scan.scanNext tmpRid w = (.ok (result, scan'), w') ∧
      lf.stepCursor scan.filter (scan.curPageNo, scan.curRec) =
        some (result, scan'.curPageNo, scan'.curRec) ∧
      scan.SameMark scan' ∧ SameLogical w w' ∧
      w'.ScansOn scan' rest others fileName lf chain := by
  obtain ⟨todo, stands⟩ := scans.stands
  obtain ⟨frame, cur⟩ := Option.isSome_iff_exists.mp scans.pinned
  have linked := scans.formed.linked scans.page_mem
  have ends := scans.holding.scan_next_here scans.pinned tmpRid
  have advances : lf.Advances scan.filter chain todo
      (lf.stepCursor scan.filter (scan.curPageNo, scan.curRec)) := scans.formed.scan_next stands
  obtain ⟨_, _, _, later, reached, stands'⟩ := advances.place
  have flag : (scan.scanNext tmpRid w).2.bufFailed = false := by
    have inside := (scans.holding.cur_page cur).1
    have lower : ¬scan.curPageNo < 0 := by
      have positive := inside.1
      omega
    unfold HeapFileScan.scanNext
    rw [DbM.read_bind, if_neg lower]
    simp only [cur]
    rw [page_at_bind, scans.holding.scan_loop_spared _ cur linked scans.spare]
    exact scans.calm
  rcases run : scan.scanNext tmpRid w with ⟨value, w'⟩
  rw [run] at ends flag
  cases ends with
  | lost _ endless =>
      unfold LogicalFile.stepCursor at reached
      rw [endless] at reached
      cases reached
  | failed status scan' _ failed =>
      rw [failed] at flag
      cases flag
  | found result scan' _ agrees _ same pinned fields held =>
      have number : scan'.headerPageNo = scan.headerPageNo := congrArg Pin.pageNo fields.1
      refine ⟨result, scan', w', rfl, agrees, ⟨fields.1, fields.2.1, fields.2.2.1, fields.2.2.2⟩,
        same, held, ?_, pinned, ⟨later, ?_⟩, ?_, flag⟩
      · rw [number]
        exact scans.formed
      · unfold LogicalFile.stepCursor at reached
        rw [agrees] at reached
        cases reached
        exact stands'
      · rw [fields.1]
        exact scans.spare.same same

theorem ScansOn.scan_all (tmpRids : List RID)
    (scans : w.ScansOn scan rest others fileName lf chain) :
    ∃ results scan' w', HeapFileScan.scanAll tmpRids scan w = (.ok (results, scan'), w') ∧
      lf.runCursor scan.filter tmpRids.length (scan.curPageNo, scan.curRec) =
        some (results, scan'.curPageNo, scan'.curRec) ∧
      scan.SameMark scan' ∧ w'.ScansOn scan' rest others fileName lf chain := by
  induction tmpRids generalizing w scan with
  | nil => exact ⟨[], scan, w, rfl, rfl, ⟨rfl, rfl, rfl, rfl⟩, scans⟩
  | cons tmpRid tmpRids ih =>
      obtain ⟨result, scan₁, w₁, next, step, mark, _, scans₁⟩ := scans.scan_next tmpRid
      obtain ⟨results, scan₂, w₂, run, steps, mark', scans₂⟩ := ih scans₁
      refine ⟨result :: results, scan₂, w₂, ?_, ?_, mark.trans mark', scans₂⟩
      · unfold HeapFileScan.scanAll
        rw [DbM.bind_ok next]
        dsimp only
        rw [DbM.bind_ok run]
        rfl
      · rw [List.length_cons, LogicalFile.runCursor, step]
        rw [mark.filter] at steps
        simp [steps]

/-- `resetScan` goes back to the mark, if that is a place in the file. -/
theorem ScansOn.reset_scan (scans : w.ScansOn scan rest others fileName lf chain)
    {todo : List RID} (marked : lf.Stands chain scan.markedPageNo scan.markedRec todo) :
    ∃ scan' w', scan.resetScan w = (.ok (.OK, scan'), w') ∧
      (scan'.curPageNo, scan'.curRec) = (scan.markedPageNo, scan.markedRec) ∧
      scan.SameMark scan' ∧ SameLogical w w' ∧
      w'.ScansOn scan' rest others fileName lf chain := by
  unfold HeapFileScan.resetScan
  by_cases moves : scan.markedPageNo ≠ scan.curPageNo
  · rw [if_pos moves]
    obtain ⟨frame, cur⟩ := Option.isSome_iff_exists.mp scans.pinned
    obtain ⟨pages, start, suffix, _⟩ := marked
    have member : scan.markedPageNo ∈ chain := suffix.subset List.mem_cons_self
    have inside := scans.formed.inside _ (List.mem_cons_of_mem _ member)
    obtain ⟨w₁, unpinned, same₁, flag₁, held₁⟩ :=
      scans.holding.unpin cur scan.curDirtyFlag id
    have parked := held₁ { scan.toHeapFile with curPage := none } rfl rfl
    obtain ⟨frame', w₂, read, same₂, flag₂, held₂⟩ :=
      parked.read_spared rfl inside (scans.spare.same same₁)
    rw [if_pos scans.pinned, DbM.bind_ok unpinned]
    dsimp only [HeapFileScan.fetchMarked]
    rw [DbM.bind_ok read]
    refine ⟨_, w₂, rfl, rfl, ⟨rfl, rfl, rfl, rfl⟩, same₁.trans same₂, held₂ _ rfl rfl rfl,
      scans.formed, rfl, ⟨_, pages, start, suffix, ‹_›⟩, (scans.spare.same same₁).same same₂, ?_⟩
    rw [flag₂, flag₁]
    exact scans.calm
  · rw [if_neg moves]
    have here : scan.markedPageNo = scan.curPageNo := by simpa using moves
    refine ⟨_, w, rfl, ?_, ⟨rfl, rfl, rfl, rfl⟩, .refl w, ?_, scans.formed, scans.pinned,
      ⟨todo, ?_⟩, scans.spare, scans.calm⟩
    · rw [here]
    · exact scans.holding.promise ⟨rfl, rfl, rfl⟩ ⟨rfl, rfl⟩ id id
    · rw [here] at marked
      exact marked

theorem ScansOn.reset_rounds (rounds : List (List RID))
    (scans : w.ScansOn scan rest others fileName lf chain) {todo : List RID}
    (marked : lf.Stands chain scan.markedPageNo scan.markedRec todo)
    (here : (scan.curPageNo, scan.curRec) = (scan.markedPageNo, scan.markedRec)) :
    ∃ statuses scan' w', HeapFileScan.resetRounds rounds scan w = (.ok (statuses, scan'), w') ∧
      (∀ status ∈ statuses, status = .OK) ∧
      (scan'.curPageNo, scan'.curRec) = (scan.markedPageNo, scan.markedRec) ∧
      scan.SameMark scan' ∧ w'.ScansOn scan' rest others fileName lf chain := by
  induction rounds generalizing w scan with
  | nil => exact ⟨[], scan, w, rfl, by simp, here, ⟨rfl, rfl, rfl, rfl⟩, scans⟩
  | cons tmpRids rounds ih =>
      obtain ⟨results, scan₁, w₁, run, _, mark₁, scans₁⟩ := scans.scan_all tmpRids
      have marked₁ : lf.Stands chain scan₁.markedPageNo scan₁.markedRec todo := by
        rw [mark₁.markedPageNo, mark₁.markedRec]
        exact marked
      obtain ⟨scan₂, w₂, reset, back, mark₂, _, scans₂⟩ := scans₁.reset_scan marked₁
      have same := mark₁.trans mark₂
      have marked₂ : lf.Stands chain scan₂.markedPageNo scan₂.markedRec todo := by
        rw [same.markedPageNo, same.markedRec]
        exact marked
      rw [← mark₂.markedPageNo, ← mark₂.markedRec] at back
      obtain ⟨statuses, scan₃, w₃, later, fine, back₃, mark₃, scans₃⟩ := ih scans₂ marked₂ back
      refine ⟨.OK :: statuses, scan₃, w₃, ?_, ?_, ?_, same.trans mark₃, scans₃⟩
      · unfold HeapFileScan.resetRounds
        rw [DbM.bind_ok run]
        dsimp only
        rw [DbM.bind_ok reset]
        dsimp only
        rw [DbM.bind_ok later]
        rfl
      · simpa using fine
      · rw [back₃, same.markedPageNo, same.markedRec]

def pagePins (w : World) (file : FilePtr) (pageNo : Int) : Nat :=
  match w.bufMgr.hashTable.lookup file pageNo with
  | some frame => (w.bufMgr.bufTable frame).pinCnt
  | none => 0

theorem Storage.page_pins {pins : List Pin} {opens : List FilePtr} (storage : w.Storage pins opens)
    (file : FilePtr) (pageNo : Int) :
    w.pagePins file pageNo = pins.countP fun pin => pin.file = file ∧ pin.pageNo = pageNo := by
  have mapped := storage.residency.mapped
  unfold pagePins
  cases found : w.bufMgr.hashTable.lookup file pageNo with
  | some frame =>
      have holds := (mapped file pageNo frame).mp found
      dsimp only
      rw [storage.pinned frame holds.1, pinsOn]
      apply List.countP_congr
      intro pin member
      obtain ⟨here, _⟩ := storage.held_by pin member
      simp only [decide_eq_true_eq]
      constructor
      · rintro rfl
        exact ⟨here.2.2.1.symm.trans holds.2.2.1, here.2.2.2.symm.trans holds.2.2.2⟩
      · rintro ⟨rfl, rfl⟩
        have again := (mapped pin.file pin.pageNo pin.frame).mpr here
        rw [found] at again
        exact (Option.some.inj again).symm
  | none =>
      symm
      apply List.countP_eq_zero.mpr
      intro pin member
      obtain ⟨here, _⟩ := storage.held_by pin member
      simp only [decide_eq_true_eq]
      rintro ⟨rfl, rfl⟩
      rw [(mapped pin.file pin.pageNo pin.frame).mpr here] at found
      cases found

/-- Two scans of the same file on the same page have the same pins on every page. -/
theorem ScansOn.page_pins_eq (scans : w.ScansOn scan rest others fileName lf chain)
    (scans' : w'.ScansOn scan' rest others fileName lf chain)
    (header : scan'.headerPin = scan.headerPin) (number : scan'.curPageNo = scan.curPageNo)
    (file : FilePtr) (pageNo : Int) : w'.pagePins file pageNo = w.pagePins file pageNo := by
  obtain ⟨frame, cur⟩ := Option.isSome_iff_exists.mp scans.pinned
  obtain ⟨frame', cur'⟩ := Option.isSome_iff_exists.mp scans'.pinned
  have filePtr : scan'.filePtr = scan.filePtr := congrArg Pin.file header
  rw [scans.holding.storage.page_pins, scans'.holding.storage.page_pins, HeapFile.pins_some cur,
    HeapFile.pins_some cur', header]
  simp only [List.cons_append, List.countP_cons, HeapFile.curPin, filePtr, number]

end World

section Marked

variable {w w₀ : World} {rest : List Pin} {others : List FilePtr} {fileName : FileName}
  {lf : LogicalFile} {chain : List Int} {offset length : Int} {type : Datatype}
  {bytes : Option (List ByteMemory.Byte)} {op : Operator} {scan started : HeapFileScan}

/-- A scan is constructed, given a filter and called any number of times; then it is marked.
The calls that follow return the same and leave the same pins on every page, whether they come
at once or after any number of rounds of scanning on and going back to the mark. -/
theorem marked_scan_resumes (storage : w.Storage rest others)
    (stores : w.Stores fileName lf chain) (nonempty : fileName ≠ []) (mem : Uninit)
    (opened : HeapFileScan.new mem fileName w = (.ok (.ok scan), w₀))
    (calm : w₀.bufFailed = false) (spare : w₀.Spare (scan.headerPin :: rest))
    (accepted : scan.startScan offset length type bytes op = (.OK, started))
    (before : List RID) :
    ∃ earlier marked w₁,
      HeapFileScan.scanAll before started w₀ = (.ok (earlier, marked), w₁) ∧
      ∀ (rounds : List (List RID)) (direct again : List RID), again.length = direct.length →
        ∃ results scan₂ w₂ statuses back w₃ scan₄ w₄,
          HeapFileScan.scanAll direct marked.markScan w₁ = (.ok (results, scan₂), w₂) ∧
          HeapFileScan.resetRounds rounds marked.markScan w₁ = (.ok (statuses, back), w₃) ∧
          (∀ status ∈ statuses, status = .OK) ∧
          HeapFileScan.scanAll again back w₃ = (.ok (results, scan₄), w₄) ∧
          ∀ file pageNo, w₄.pagePins file pageNo = w₂.pagePins file pageNo := by
  have smooth := storage.new_scan stores.logical stores.formed nonempty mem
  obtain ⟨result, w', run, scan', rfl, scanAt, _, _, _⟩ := smooth (by rw [opened]; exact calm)
  rw [opened] at run
  cases run
  have filtered : ∃ filter, started = { scan with filter := filter } :=
    ⟨_, (congrArg Prod.snd accepted).symm⟩
  obtain ⟨filter, rfl⟩ := filtered
  have scans : w₀.ScansOn { scan with filter := filter } rest others fileName lf chain :=
    ⟨scanAt.holding, scanAt.formed, scanAt.pinned, ⟨_, scanAt.stands⟩, spare, calm⟩
  obtain ⟨earlier, marked, w₁, reached, _, _, scans₁⟩ := scans.scan_all before
  refine ⟨earlier, marked, w₁, reached, ?_⟩
  intro rounds direct again lengths
  have atMark : w₁.ScansOn marked.markScan rest others fileName lf chain :=
    ⟨scans₁.holding, scans₁.formed, scans₁.pinned, scans₁.stands, scans₁.spare, scans₁.calm⟩
  obtain ⟨todo, stands⟩ := scans₁.stands
  obtain ⟨results, scan₂, w₂, runDirect, steps, mark₂, scans₂⟩ := atMark.scan_all direct
  obtain ⟨statuses, back, w₃, runRounds, fine, there, mark₃, scans₃⟩ :=
    atMark.reset_rounds rounds stands rfl
  obtain ⟨results', scan₄, w₄, runAgain, steps', mark₄, scans₄⟩ := scans₃.scan_all again
  have same : some (results', scan₄.curPageNo, scan₄.curRec) =
      some (results, scan₂.curPageNo, scan₂.curRec) := by
    rw [← steps', ← steps, mark₃.filter, there, lengths]
    rfl
  obtain ⟨rfl, number, _⟩ := by simpa using same
  refine ⟨results', scan₂, w₂, statuses, back, w₃, scan₄, w₄, runDirect, runRounds, fine, runAgain,
    ?_⟩
  have header : scan₄.headerPin = scan₂.headerPin := by
    rw [(mark₃.trans mark₄).headerPin, mark₂.headerPin]
  exact scans₂.page_pins_eq scans₄ header number

end Marked

open HeapSession (zeroMemory)

/-- A mark behind the first of three records. -/
theorem marked_scan_resumes_three_records :
    ∃ scan w₀ earlier marked w₁ results scan₂ w₂ statuses back w₃ scan₄ w₄,
      HeapFileScan.new zeroMemory [114] threeRecords = (.ok (.ok scan), w₀) ∧
      HeapFileScan.scanAll [NULLRID] { scan with filter := none } w₀ =
        (.ok (earlier, marked), w₁) ∧
      HeapFileScan.scanAll [NULLRID, NULLRID] marked.markScan w₁ = (.ok (results, scan₂), w₂) ∧
      HeapFileScan.resetRounds [[NULLRID, NULLRID, NULLRID], []] marked.markScan w₁ =
        (.ok (statuses, back), w₃) ∧
      HeapFileScan.scanAll [NULLRID, NULLRID] back w₃ = (.ok (results, scan₄), w₄) := by
  have calm : (HeapFileScan.new zeroMemory [114] threeRecords).2.bufFailed = false := by
    decide +kernel
  obtain ⟨_, w₀, run, scan, rfl, _, _, _, constructs⟩ :=
    three_records_storage.new_scan three_records_stored.logical three_records_stored.formed
      (by decide) zeroMemory calm
  have frames : w₀.bufMgr.numBufs = 8 := constructs.numBufs
  have spare : w₀.Spare [scan.headerPin] := by
    by_cases first : scan.headerPage = 0
    · refine ⟨1, by omega, ?_⟩
      simp [pinsOn, HeapFile.headerPin, first]
    · refine ⟨0, by omega, ?_⟩
      simp [pinsOn, HeapFile.headerPin, first]
  have accepted : scan.startScan 0 0 .STRING none .EQ = (.OK, { scan with filter := none }) := rfl
  rw [run] at calm
  obtain ⟨earlier, marked, w₁, reached, resumes⟩ := marked_scan_resumes three_records_storage
    three_records_stored (by decide) zeroMemory run calm spare accepted [NULLRID]
  obtain ⟨results, scan₂, w₂, statuses, back, w₃, scan₄, w₄, direct, rounds, _, again, _⟩ :=
    resumes [[NULLRID, NULLRID, NULLRID], []] [NULLRID, NULLRID] [NULLRID, NULLRID] rfl
  exact ⟨scan, w₀, earlier, marked, w₁, results, scan₂, w₂, statuses, back, w₃, scan₄, w₄, run,
    reached, direct, rounds, again⟩

def framePins (w : World) : List Nat :=
  (List.range w.bufMgr.numBufs).map fun frame => (w.bufMgr.bufTable frame).pinCnt

/-- A scan of a file with three pages is marked on the first page, goes on to the third and is
reset. The pin counts at the mark and after the reset. -/
def markSession : DbM (List Nat × List Nat) := do
  match ← InsertFileScan.new zeroMemory [114] with
  | (.OK, some inserter) => do
      let (_, inserter) ← inserter.insertRecord (List.replicate 600 1)
      let (_, inserter) ← inserter.insertRecord (List.replicate 600 2)
      let (_, inserter) ← inserter.insertRecord (List.replicate 600 3)
      inserter.delete
      match ← HeapFileScan.new zeroMemory [114] with
      | .ok scan => do
          let marked ← DbM.read framePins
          let _ ← HeapFileScan.resetRounds [[NULLRID, NULLRID, NULLRID]] scan.markScan
          let reset ← DbM.read framePins
          pure (marked, reset)
      | .error _ => DbM.crash
  | _ => DbM.crash

/-- Two scans on the first of two pages and a scan of another file, in a pool where they take
all four frames. The call that would go on to the second page has failed. -/
def crowdedScan : DbM HeapFileScan := do
  match ← InsertFileScan.new zeroMemory [114] with
  | (.OK, some inserter) => do
      let (_, inserter) ← inserter.insertRecord (List.replicate 600 1)
      let (_, inserter) ← inserter.insertRecord (List.replicate 600 2)
      inserter.delete
      let _ ← HeapFileScan.new zeroMemory [115]
      let _ ← HeapFileScan.new zeroMemory [114]
      match ← HeapFileScan.new zeroMemory [114] with
      | .ok scan => do
          let (_, scan) ← HeapFileScan.scanAll [NULLRID, NULLRID] scan
          pure scan
      | .error _ => DbM.crash
  | _ => DbM.crash

def crowdedSession : DbM (Outcome (List (Except Status RID)) × List (Except Status RID)) := do
  let scan ← crowdedScan
  let direct ← DbM.read fun w =>
    ((do let (results, _) ← HeapFileScan.scanAll [NULLRID] scan.markScan; pure results) w).1
  let (_, back) ← HeapFileScan.resetRounds [[NULLRID]] scan.markScan
  let (results, _) ← HeapFileScan.scanAll [NULLRID] back
  pure (direct, results)

/-- In a pool with three frames the first page has lost its frame by the time of the reset and
gets another. In a pool without a free frame the reset cannot go back to a scan that has no
page, and leaves it on a page that it has no pin on. -/
theorem reset_is_no_exact_undo :
    (markSession (databaseOf 3 [([114], [])])).1 = .ok ([1, 0, 1], [0, 1, 1]) ∧
      (markSession (databaseOf 3 [([114], [])])).2.bufFailed = false ∧
      (crowdedSession (databaseOf 4 [([114], []), ([115], [])])).1 =
        .ok (.ok [.ok ⟨2, 0⟩], [.error .HASHNOTFOUND]) := by
  decide +kernel

end PrimitiveDB

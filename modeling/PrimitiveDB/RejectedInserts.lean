import PrimitiveDB.FailedCalls
import PrimitiveDB.ScanRuns

/-!
# Rejected insertions

`InsertFileScan::insertRecord` turns away what is longer than `DATASIZE` and appends a
page for everything else that finds no space, before it asks the new page whether the
record fits. Four lengths pass the check and fit on no page. Besides, a buffer call that fails
because a page could not be written back loses what the pool had of that page.
-/

namespace PrimitiveDB

open World DbM

set_option autoImplicit false

namespace LogicalFile

variable {lf lf' : LogicalFile} {headerNo curNo : Int} {chain : List Int} {rec : Record}

/-- The header page and the pages of the chain are what they were. -/
structure SameHeap (lf lf' : LogicalFile) (headerNo : Int) (chain : List Int) : Prop where
  header : lf'.header headerNo = lf.header headerNo
  pages : ∀ pageNo ∈ chain, lf'.page pageNo = lf.page pageNo

theorem HeapFormed.append_page_differs (formed : lf.HeapFormed headerNo chain)
    (member : curNo ∈ chain) (image : PageImage) :
    ¬lf.SameHeap (lf.appendPage headerNo curNo image) headerNo chain := by
  intro same
  have notCur : headerNo ≠ curNo := by
    intro equal
    have distinct := formed.distinct
    rw [equal] at distinct
    exact (List.nodup_cons.mp distinct).1 member
  have last := congrArg FileHdrPage.lastPage same.header
  simp only [appendPage] at last
  rw [header_set_data _ notCur, header_update] at last
  have inside := (formed.inside _ (List.mem_cons_of_mem _ formed.last_mem)).2
  dsimp only at last
  omega

theorem HeapFormed.insert_rejected_iff (formed : lf.HeapFormed headerNo chain)
    (member : curNo ∈ chain) (image : PageImage) {ends : Except Status RID × LogicalFile × Int}
    (source : ends = lf.insertRecord headerNo curNo image rec) :
    (1000 < rec.length ∧ ends.1 = .error .NOSPACE ∧
        ends.2.1 = lf.appendPage headerNo curNo image) ∨
      (rec.length ≤ 1000 ∧ ∃ rid, ends.1 = .ok rid) := by
  have fresh := append_page_new image (formed.inside headerNo (by simp))
    (formed.inside curNo (by simp [member]))
  rw [LogicalFile.insertRecord] at source
  by_cases long : 1000 < rec.length
  · have space := (formed.pages curNo member).1.space
    have used := (formed.pages curNo member).1.freePtr_nonneg
    have full : ¬(rec.length : Int) + SLOTSIZE ≤ (lf.data curNo).freeSpace := by
      rw [space, SLOTSIZE]
      omega
    have fullAgain : ¬(rec.length : Int) + SLOTSIZE ≤
        ((lf.appendPage headerNo curNo image).data lf.size).freeSpace := by
      rw [fresh, fresh_page_space, SLOTSIZE]
      omega
    rw [Page.insert_record_no_space _ _ full] at source
    simp only [Page.insert_record_no_space _ _ fullAgain] at source
    rw [source]
    exact .inl ⟨long, rfl, rfl⟩
  · right
    refine ⟨Nat.le_of_not_lt long, ?_⟩
    rcases here : (lf.data curNo).insertRecord rec with ⟨status | rid, after⟩
    · obtain ⟨rid, after', fits⟩ :=
        insert_on_fresh_page image.asPage lf.size rec (Nat.le_of_not_lt long)
      rw [here] at source
      simp only [fresh, fits] at source
      rw [source]
      exact ⟨rid, rfl⟩
    · rw [here] at source
      rw [source]
      exact ⟨rid, rfl⟩

end LogicalFile

/-- The end of `insertRecord` of an inserter that had no page: the last page, number
`lastPage`, has been read. -/
def InsertFileScan.insertOnceRead (scan : InsertFileScan) (lastPage : Int) (rec : Record)
    (result : Except Status Nat) : DbM (Except Status RID × InsertFileScan) :=
  match result with
  | .error status => pure (.error status, ⟨{ scan.toHeapFile with curPageNo := lastPage }⟩)
  | .ok frame =>
      InsertFileScan.insertHere
        ⟨{ scan.toHeapFile with curPage := some frame, curPageNo := lastPage }⟩ frame rec

namespace World

variable {w w' : World} {scan : InsertFileScan} {rest pins : List Pin}
  {others opens : List FilePtr} {fileName : FileName} {lf : LogicalFile} {chain : List Int}
  {rec : Record} {frame : Nat} {pageNo : Int} {file : FilePtr}

/-- If this is how an insertion ended, the heap file is as it was unless a record was
added. -/
def KeptIfRejected (w' : World) (fileName : FileName) (lf : LogicalFile) (headerNo : Int)
    (chain : List Int) (result : Except Status RID) : Prop :=
  ∀ status, result = .error status →
    ∃ lf', w'.logical fileName = some lf' ∧ lf.SameHeap lf' headerNo chain

/-- `insertRecord` returns, and if it does so with an error the heap file is as it was. -/
def RejectsUnchanged (w : World) (scan : InsertFileScan) (fileName : FileName)
    (lf : LogicalFile) (chain : List Int) (rec : Record) : Prop :=
  ∃ result scan' w', scan.insertRecord rec w = (.ok (result, scan'), w') ∧
    w'.KeptIfRejected fileName lf scan.headerPageNo chain result

/-- A page of the chain has to make room and cannot be written back, by call number `calls` from
now, although the disk has something else. -/
def LosesPage (w : World) (calls : Nat) (file : FilePtr) (chain : List Int) : Prop :=
  ∃ pageNo ∈ chain, w.Unsaved calls file pageNo ∧ w.view file pageNo ≠ w.diskPage file pageNo

/-- The record does not fit on the page at hand, the file gets a page more, and then either the
record does not fit there or the search for a frame loses a page. -/
def AppendSpoils (w : World) (file : FilePtr) (lf : LogicalFile) (chain : List Int) (pageNo : Int)
    (rec : Record) : Prop :=
  (∃ status, ((lf.data pageNo).insertRecord rec).1 = .error status) ∧ w.PageGranted ∧
    (1000 < rec.length ∧ w.FrameGiven 3 ∨ w.LosesPage 3 file chain)

/-- An inserter without a page first reads the last one, which may lose a page too. -/
def InsertSpoils (w : World) (scan : InsertFileScan) (lf : LogicalFile) (chain : List Int)
    (rec : Record) : Prop :=
  match scan.curPage with
  | some _ => w.AppendSpoils scan.filePtr lf chain scan.curPageNo rec
  | none =>
      let lastPage := (lf.header scan.headerPageNo).lastPage
      w.bufMgr.hashTable.lookup scan.filePtr lastPage = none ∧ w.LosesPage 0 scan.filePtr chain ∨
        ∃ frame w₁, BufMgr.readPage scan.filePtr lastPage w = (.ok frame, w₁) ∧
          w₁.AppendSpoils scan.filePtr lf chain lastPage rec

theorem Leaves.kept_iff {heap : HeapFile} {lost : Int → Prop} {status : Status}
    (leaves : Leaves w w' heap.filePtr fileName lf lost)
    (holding : w.calm.Holding heap rest others fileName lf)
    (formed : lf.HeapFormed heap.headerPageNo chain) (header : ¬lost heap.headerPageNo) :
    w'.KeptIfRejected fileName lf heap.headerPageNo chain (.error status) ↔
      ¬∃ pageNo ∈ chain, lost pageNo ∧
        w.view heap.filePtr pageNo ≠ w.diskPage heap.filePtr pageNo := by
  obtain ⟨object, contents, live, _, openFd, stored, opened, found, size, first, pages⟩ :=
    holding.storage.toFiled.handle_spec holding.named holding.logical
  obtain ⟨contents', stored', larger⟩ := leaves.stored contents stored
  have found' : w'.openFiles.find fileName = some heap.filePtr := by
    rw [leaves.openFiles]
    exact found
  have shown : ∀ lf', w'.logical fileName = some lf' → ∀ pageNo, lf.Inside pageNo →
      lf'.page pageNo = w'.view heap.filePtr pageNo := by
    intro lf' logical' pageNo inside
    rw [LogicalFile.Inside, size] at inside
    rw [logical_eq_some stored'] at logical'
    obtain rfl := Option.some.inj logical'
    dsimp only
    rw [if_pos ⟨inside.1, by omega⟩, filePage, found']
  constructor
  · rintro kept ⟨pageNo, member, gone, differs⟩
    obtain ⟨lf', logical', same⟩ := kept status rfl
    have inside := formed.inside pageNo (List.mem_cons_of_mem _ member)
    have equal := same.pages pageNo member
    rw [shown lf' logical' pageNo inside, leaves.lost pageNo inside gone, pages pageNo inside]
      at equal
    exact differs equal.symm
  · intro none_ status' _
    have kept : ∀ pageNo, lf.Inside pageNo → (lost pageNo → pageNo ∈ chain) →
        w'.view heap.filePtr pageNo = lf.page pageNo := by
      intro pageNo inside listed
      rw [pages pageNo inside]
      by_cases gone : lost pageNo
      · rw [leaves.lost pageNo inside gone]
        by_contra differs
        exact none_ ⟨pageNo, listed gone, gone, fun same => differs same.symm⟩
      · exact leaves.kept pageNo inside gone
    refine ⟨_, logical_eq_some stored', ?_, ?_⟩
    · have inside := formed.inside heap.headerPageNo (by simp)
      unfold LogicalFile.header
      rw [shown _ (logical_eq_some stored') _ inside,
        kept _ inside fun gone => absurd gone header]
    · intro pageNo member
      have inside := formed.inside pageNo (List.mem_cons_of_mem _ member)
      rw [shown _ (logical_eq_some stored') _ inside, kept _ inside fun _ => member]

theorem Reliable.calm_self (reliable : w.Reliable) : w.calm = w := by
  unfold Reliable at reliable
  unfold calm
  rw [← reliable]

theorem Storage.exhausted_pinned (storage : w.calm.Storage pins opens)
    (exhausted : w.calm.Exhausted) : w.bufMgr.AllPinned := by
  intro frame bound
  refine ⟨?_, exhausted frame bound⟩
  by_contra invalid
  have free := (storage.orderly.free frame bound (by simpa using invalid)).2.2
  have pinned : 0 < (w.bufMgr.bufTable frame).pinCnt := exhausted frame bound
  omega

theorem Holding.insert_here_eq
    (holding : w.calm.Holding scan.toHeapFile rest others fileName lf)
    (cur : scan.curPage = some frame) (rec : Record) {v : World} (same : v.bufMgr = w.bufMgr) :
    scan.insertHere frame rec v =
      (match (lf.data scan.curPageNo).insertRecord rec with
        | (.ok rid, after) => scan.recordInserted frame after rid
        | (.error _, _) => scan.insertOnNewPage frame rec) v := by
  obtain ⟨_, page⟩ := holding.cur_page cur
  unfold InsertFileScan.insertHere
  rw [page_at_bind, same]
  change (match (w.calm.bufMgr.bufPool frame).asPage.insertRecord rec with
    | (.ok rid, after) => scan.recordInserted frame after rid
    | (.error _, _) => scan.insertOnNewPage frame rec) v = _
  rw [page]
  rfl

theorem Holding.insert_here_kept_iff
    (holding : w.calm.Holding scan.toHeapFile rest others fileName lf)
    (cur : scan.curPage = some frame) (formed : lf.HeapFormed scan.headerPageNo chain)
    (member : scan.curPageNo ∈ chain) (rec : Record) :
    ∃ result scan' w', scan.insertHere frame rec w = (.ok (result, scan'), w') ∧
      (w'.KeptIfRejected fileName lf scan.headerPageNo chain result ↔
        ¬w.AppendSpoils scan.filePtr lf chain scan.curPageNo rec) := by
  have full : ∀ {status after}, (lf.data scan.curPageNo).insertRecord rec = (.error status, after) →
      ∃ status, ((lf.data scan.curPageNo).insertRecord rec).1 = .error status := by
    intro status after inserted
    exact ⟨status, by rw [inserted]⟩
  rw [holding.insert_here_eq cur rec rfl]
  rcases inserted : (lf.data scan.curPageNo).insertRecord rec with ⟨status | rid, after⟩
  swap
  · refine ⟨.ok rid, _, _, rfl, fun _ => ?_, fun _ status rejected => by cases rejected⟩
    rintro ⟨⟨status, failed⟩, _⟩
    rw [inserted] at failed
    cases failed
  have calmly := holding.insert_here_eq (v := w.calm) cur rec rfl
  rw [inserted] at calmly
  dsimp only at calmly ⊢
  rcases alloc_page_outcome holding.storage holding.named holding.logical with
    ⟨newPage, w₁, run, granted, given⟩ | ⟨failure, w₁, run, refused, leaves⟩
  · -- without failures the call would do the same
    obtain ⟨result, scan', w₂, whole, outcome⟩ := holding.insert_here cur rec
    rw [calmly, InsertFileScan.insert_on_new_page_calm run] at whole
    obtain ⟨returned, same⟩ := Prod.mk.inj whole
    refine ⟨result, scan', (scan.insertOnNewPage frame rec w).2, Prod.ext returned rfl, ?_⟩
    rcases outcome with ⟨_, _, exhausted, _⟩ | ⟨ends, rfl, _, inserts⟩
    · exact absurd (holding.storage.exhausted_pinned exhausted) given.1
    have logical : (scan.insertOnNewPage frame rec w).2.logical fileName = some ends.2.1 := by
      change (scan.insertOnNewPage frame rec w).2.calm.logical fileName = _
      rw [same, inserts.writes.logical, Function.update_self]
    obtain ⟨image, source⟩ := inserts.source
    rcases formed.insert_rejected_iff member image source with
      ⟨long, rejected, grown⟩ | ⟨short, rid, added⟩
    · constructor
      · intro kept
        obtain ⟨lf', logical', equal⟩ := kept _ rejected
        rw [logical, grown] at logical'
        cases logical'
        exact absurd equal (formed.append_page_differs member image)
      · intro spared
        exact absurd ⟨full inserted, granted, .inl ⟨long, given⟩⟩ spared
    · constructor
      · rintro _ ⟨_, _, ⟨long, _⟩ | ⟨_, _, unsaved, _⟩⟩
        · omega
        · exact given.saves unsaved
      · intro _ status rejected
        rw [added] at rejected
        cases rejected
  · have failed : scan.insertOnNewPage frame rec w =
        (.ok (.error failure, scan), { w₁ with bufFailed := true }) := by
      unfold InsertFileScan.insertOnNewPage
      rw [DbM.bind_ok (buf_mgr_err run)]
      rfl
    have left : Leaves w { w₁ with bufFailed := true } scan.filePtr fileName lf _ :=
      ⟨leaves.openFiles, leaves.stored, leaves.kept, leaves.lost⟩
    have header : ¬(w.PageGranted ∧ w.Unsaved 3 scan.filePtr scan.headerPageNo) := fun both =>
      holding.storage.pin_saved (HeapFile.header_pin_mem _) both.2
    refine ⟨_, _, _, failed, (left.kept_iff holding formed header).trans (not_congr ?_)⟩
    constructor
    · rintro ⟨pageNo, listed, ⟨granted, unsaved⟩, differs⟩
      exact ⟨full inserted, granted, .inr ⟨pageNo, listed, unsaved, differs⟩⟩
    · rintro ⟨_, granted, ⟨_, given⟩ | ⟨pageNo, listed, unsaved, differs⟩⟩
      · exact absurd ⟨granted, given⟩ refused
      · exact ⟨pageNo, listed, ⟨granted, unsaved⟩, differs⟩

theorem rejects_unchanged_reporting :
    w.RejectsUnchanged scan.reporting fileName lf chain rec ↔
      w.RejectsUnchanged scan fileName lf chain rec := by
  constructor
  · rintro ⟨result, scan₁, w', run, kept⟩
    obtain ⟨scan', run', _⟩ := InsertFileScan.insert_record_of_reporting run
    exact ⟨result, scan', w', run', kept⟩
  · rintro ⟨result, scan₁, w', run, kept⟩
    have same := congrFun (InsertFileScan.insert_record_reporting scan rec) w
    rw [DbM.bind_ok run, bind_apply] at same
    rcases other : scan.reporting.insertRecord rec w with ⟨value | status | _, w''⟩
    · rw [other] at same
      simp only [InsertFileScan.report, pure_apply, Prod.mk.injEq, Outcome.ok.injEq] at same
      obtain ⟨⟨rfl, _⟩, rfl⟩ := same
      exact ⟨_, value.2, _, other, kept⟩
    · rw [other] at same
      cases same
    · rw [other] at same
      cases same

theorem rejects_unchanged_iff {result : Except Status RID} {scan' : InsertFileScan}
    (run : scan.insertRecord rec w = (.ok (result, scan'), w')) :
    w.RejectsUnchanged scan fileName lf chain rec ↔
      w'.KeptIfRejected fileName lf scan.headerPageNo chain result := by
  constructor
  · rintro ⟨_, _, _, run', kept⟩
    rw [run] at run'
    cases run'
    exact kept
  · intro kept
    exact ⟨result, scan', w', run, kept⟩

theorem Holding.insert_record_reads
    (holding : w.calm.Holding scan.toHeapFile rest others fileName lf) (cur : scan.curPage = none)
    (small : ¬rec.length > DATASIZE) :
    scan.insertRecord rec w = (callBufMgr (BufMgr.readPage scan.filePtr
        (lf.header scan.headerPageNo).lastPage) >>=
      scan.insertOnceRead (lf.header scan.headerPageNo).lastPage rec) w := by
  obtain ⟨_, header⟩ := holding.header_page
  change w.bufMgr.bufPool scan.headerPage = _ at header
  unfold InsertFileScan.insertRecord
  rw [if_neg small, cur]
  dsimp only
  rw [header_at_bind, header]
  rfl

theorem Holding.rejects_unchanged_iff
    (holding : w.calm.Holding scan.toHeapFile rest others fileName lf)
    (formed : lf.HeapFormed scan.headerPageNo chain)
    (member : scan.curPage.isSome → scan.curPageNo ∈ chain) (rec : Record) :
    w.RejectsUnchanged scan fileName lf chain rec ↔
      ¬(rec.length ≤ DATASIZE ∧ w.InsertSpoils scan lf chain rec) := by
  by_cases large : rec.length > DATASIZE
  · have run : scan.insertRecord rec w = (.ok (.error .INVALIDRECLEN, scan), w) := by
      unfold InsertFileScan.insertRecord
      rw [if_pos large]
      rfl
    rw [World.rejects_unchanged_iff run]
    constructor
    · intro _ condition
      omega
    · intro _ status _
      exact ⟨lf, holding.logical, rfl, fun _ _ => rfl⟩
  have small : rec.length ≤ DATASIZE := Nat.le_of_not_lt large
  unfold InsertSpoils
  cases cur : scan.curPage with
  | some frame =>
      obtain ⟨result, scan', w', run, kept⟩ :=
        holding.insert_here_kept_iff cur formed (member (by simp [cur])) rec
      have whole : scan.insertRecord rec w = (.ok (result, scan'), w') := by
        unfold InsertFileScan.insertRecord
        rw [if_neg large, cur]
        exact run
      rw [World.rejects_unchanged_iff whole, kept]
      simp [small]
  | none =>
      have steps := holding.insert_record_reads cur large
      have inside := formed.inside _ (List.mem_cons_of_mem _ formed.last_mem)
      rcases read_page_outcome holding.storage holding.named holding.logical inside with
        ⟨frame, w₁, read, given⟩ | ⟨failure, w₁, read, leaves⟩
      · -- the last page is at hand
        rw [DbM.bind_ok (buf_mgr_ok read)] at steps
        let atLast : InsertFileScan := ⟨{ scan.toHeapFile with
          curPage := some frame, curPageNo := (lf.header scan.headerPageNo).lastPage }⟩
        have calmRead := BufMgr.read_page_unhindered _ _ w w₁ frame read
        obtain ⟨result, w₂, called, outcome⟩ :=
          holding.read cur (lf.header scan.headerPageNo).lastPage
        rw [buf_mgr_ok calmRead] at called
        rcases outcome with ⟨status, rfl, _⟩ | ⟨frame', rfl, _, same, _, _, held⟩
        · cases called
        cases called
        have moved : w₁.calm.Holding atLast.toHeapFile rest others fileName lf :=
          held atLast.toHeapFile rfl rfl rfl
        obtain ⟨result, scan', w', run, kept⟩ :=
          moved.insert_here_kept_iff rfl formed formed.last_mem rec
        rw [World.rejects_unchanged_iff (steps.trans run)]
        refine kept.trans (not_congr ?_)
        constructor
        · intro spoils
          exact ⟨small, .inr ⟨frame, w₁, read, spoils⟩⟩
        · rintro ⟨_, ⟨missing, _, _, unsaved, _⟩ | ⟨frame', w₁', read', spoils⟩⟩
          · exact absurd unsaved (given missing).saves
          · rw [read] at read'
            cases read'
            exact spoils
      · rw [DbM.bind_ok (buf_mgr_err read)] at steps
        have left : Leaves w { w₁ with bufFailed := true } scan.filePtr fileName lf _ :=
          ⟨leaves.openFiles, leaves.stored, leaves.kept, leaves.lost⟩
        rw [World.rejects_unchanged_iff steps]
        refine (left.kept_iff holding formed fun both =>
          holding.storage.pin_saved (HeapFile.header_pin_mem _) both.2).trans (not_congr ?_)
        constructor
        · rintro ⟨pageNo, listed, ⟨missing, unsaved⟩, differs⟩
          exact ⟨small, .inl ⟨missing, pageNo, listed, unsaved, differs⟩⟩
        · rintro ⟨_, ⟨missing, pageNo, listed, unsaved, differs⟩ | ⟨frame, w₁', read', _⟩⟩
          · exact ⟨pageNo, listed, ⟨missing, unsaved⟩, differs⟩
          · rw [read] at read'
            cases read'

end World

section Claim

variable {w : World} {scan : InsertFileScan} {rest : List Pin} {others : List FilePtr}
  {fileName : FileName} {lf : LogicalFile} {chain : List Int}

/-- Whatever pages the pool holds and whichever system calls fail, a rejected record changes the
heap file exactly if a page is appended to no avail or a page of the chain is lost. -/
theorem rejected_insert_keeps_heap_iff
    (holding : w.calm.Holding scan.reporting.toHeapFile rest others fileName lf)
    (formed : lf.HeapFormed scan.headerPageNo chain)
    (member : scan.curPage.isSome → scan.curPageNo ∈ chain) (rec : Record) :
    w.RejectsUnchanged scan fileName lf chain rec ↔
      ¬(rec.length ≤ 1004 ∧ w.InsertSpoils scan lf chain rec) := by
  rw [← rejects_unchanged_reporting]
  exact holding.rejects_unchanged_iff formed member rec

end Claim

open HeapSession (zeroMemory)

def onThreeRecords {α : Type} (call : InsertFileScan → DbM α) : DbM α := do
  let (_, some scan) ← InsertFileScan.new zeroMemory [114] | DbM.crash
  call scan

theorem three_records_inserter {α : Type} (call : InsertFileScan → DbM α) :
    ∃ (scan : InsertFileScan) (w : World),
      w.InsertsAt scan [] [] [114] (tableFile [114] [[1], [2], [3]]) [2] ∧
      onThreeRecords call threeRecords = call scan w := by
  obtain ⟨_, w, opened, scan, rfl, insertsAt, _⟩ :=
    three_records_storage.new_inserter three_records_stored.logical three_records_stored.formed
      (by decide) zeroMemory (by decide +kernel)
  refine ⟨scan, w, insertsAt, ?_⟩
  unfold onThreeRecords
  rw [DbM.bind_ok opened]

def World.dead (w : World) : World := { w with faults := fun _ => true }

def oversized : Record := List.replicate 1001 7

/-- The record would bring a page, but the file layer does not give one. -/
theorem rejected_insert_keeps_heap_iff_dead_disk :
    ∃ (scan scan' : InsertFileScan) (w w' : World),
      scan.insertRecord oversized w = (.ok (.error .UNIXERR, scan'), w') ∧
      w.RejectsUnchanged scan [114] (tableFile [114] [[1], [2], [3]]) [2] oversized := by
  obtain ⟨scan, w, insertsAt, same⟩ :=
    three_records_inserter fun scan w =>
      (scan.insertRecord oversized >>= fun ends => pure ends.1) w.dead
  have rejected : (onThreeRecords (fun scan w =>
      (scan.insertRecord oversized >>= fun ends => pure ends.1) w.dead) threeRecords).1 =
        .ok (.error .UNIXERR) := by
    decide +kernel
  rw [same] at rejected
  obtain ⟨⟨result, scan'⟩, w', run, ends⟩ := DbM.run_of_shown rejected
  cases ends
  have reliable : w.dead.calm = w := insertsAt.holding.storage.reliable.calm_self
  have holding := insertsAt.holding
  rw [← reliable] at holding
  refine ⟨scan, _, w.dead, w', run, ?_⟩
  apply (rejected_insert_keeps_heap_iff holding insertsAt.formed
    (fun _ => insertsAt.member) oversized).mpr
  rintro ⟨_, spoils⟩
  obtain ⟨frame, cur⟩ := Option.isSome_iff_exists.mp insertsAt.pinned
  unfold World.InsertSpoils at spoils
  rw [cur] at spoils
  cases spoils.2.1.1

/-- 1001 bytes pass the check of `insertRecord`, and no page can take them. -/
theorem rejected_insert_appends_page :
    ∃ (scan : InsertFileScan) (w : World),
      w.InsertsAt scan [] [] [114] (tableFile [114] [[1], [2], [3]]) [2] ∧
      ¬w.RejectsUnchanged scan [114] (tableFile [114] [[1], [2], [3]]) [2]
        (List.replicate 1001 7) := by
  obtain ⟨scan, w, insertsAt, same⟩ := three_records_inserter fun _ w =>
    (.ok ((List.range w.bufMgr.numBufs).any fun frame => (w.bufMgr.bufTable frame).pinCnt = 0), w)
  have free : (onThreeRecords (fun _ w => (.ok ((List.range w.bufMgr.numBufs).any fun frame =>
      (w.bufMgr.bufTable frame).pinCnt = 0), w)) threeRecords).1 = .ok true := by
    decide +kernel
  rw [same] at free
  obtain ⟨frame, member, unpinned⟩ := List.any_eq_true.mp (Outcome.ok.inj free)
  have reliable : w.calm = w := insertsAt.holding.storage.reliable.calm_self
  have calm : ∀ calls, w.faults calls = false :=
    congrFun insertsAt.holding.storage.reliable
  have holding := insertsAt.holding
  rw [← reliable] at holding
  refine ⟨scan, w, insertsAt, ?_⟩
  rw [← rejects_unchanged_reporting, holding.rejects_unchanged_iff insertsAt.formed
    fun _ => insertsAt.member]
  intro kept
  apply kept
  obtain ⟨cur, here⟩ := Option.isSome_iff_exists.mp insertsAt.pinned
  have space := (insertsAt.formed.pages _ insertsAt.member).1
  have small : (List.replicate 1001 (7 : ByteMemory.Byte)).length ≤ DATASIZE := by
    rw [List.length_replicate]
    decide
  refine ⟨small, ?_⟩
  unfold InsertSpoils
  rw [show scan.reporting.curPage = some cur from here]
  refine ⟨⟨.NOSPACE, ?_⟩, ⟨calm 0, calm 1, calm 2⟩, .inl ⟨?_, ?_, fun _ _ _ => calm 3⟩⟩
  · rw [Page.insert_record_no_space]
    have full := space.space
    have used := space.freePtr_nonneg
    change ¬((List.replicate 1001 (7 : ByteMemory.Byte)).length : Int) + SLOTSIZE ≤
      (LogicalFile.data _ scan.curPageNo).freeSpace
    rw [full, List.length_replicate, SLOTSIZE]
    omega
  · rw [List.length_replicate]
    decide
  · intro pinned
    have some_ := (pinned frame (List.mem_range.mp member)).2
    rw [of_decide_eq_true unpinned] at some_
    cases some_

end PrimitiveDB

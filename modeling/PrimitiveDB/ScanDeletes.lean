import PrimitiveDB.ScanRuns
import PrimitiveDB.SlotAccesses

/-!
# Deleting through a scan

`HeapFileScan::deleteRecord` takes one off the record count before it looks at what
the page has answered. The count stays right exactly as long as the cursor names a
record of the current page whenever `deleteRecord` is called.
-/

namespace PrimitiveDB

open World DbM

set_option autoImplicit false

namespace Page

variable {page : Page} {rid : RID}

theorem WellFormed.slot_cnt_neg (wf : page.WellFormed) (used : 0 < page.freePtr) :
    page.slotCnt < 0 := by
  obtain ⟨number, owns, _⟩ := wf.tiled 0 (le_refl _) used
  have bound := owns.1.1
  have count := wf.count
  omega

/-- Before the first record the cursor names the counters of the page. Deleting there is
reported as a success and leaves a page that is no page. -/
theorem delete_sentinel (wf : page.WellFormed) (before : rid.slotNo = -1)
    (used : 0 < page.freePtr) :
    (page.deleteRecord rid).1 = .OK ∧ (page.deleteRecord rid).2.freePtr = -1 := by
  have negative := wf.slot_cnt_neg used
  have counters : page.slot 1 = { offset := page.slotCnt, length := page.freePtr } := rfl
  unfold deleteRecord
  dsimp only
  rw [before, neg_neg, counters]
  dsimp only
  rw [if_pos ⟨by omega, used⟩, adjust_offsets_slot_cnt, if_neg (by dsimp only; omega)]
  exact ⟨rfl, rfl⟩

theorem delete_sentinel_empty (before : rid.slotNo = -1) (empty : page.freePtr ≤ 0) :
    page.deleteRecord rid = (.INVALIDSLOTNO, page) := by
  have counters : page.slot 1 = { offset := page.slotCnt, length := page.freePtr } := rfl
  unfold deleteRecord
  dsimp only
  rw [before, neg_neg, counters, if_neg]
  rintro ⟨_, positive⟩
  dsimp only at positive
  omega

end Page

namespace HeapFileScan

/-- The RID that `deleteRecord` works on: the slot of the cursor on the current page. -/
def target (scan : HeapFileScan) : RID := { pageNo := scan.curPageNo, slotNo := scan.curRec.slotNo }

def OnRecord (scan : HeapFileScan) (lf : LogicalFile) (chain : List Int) : Prop :=
  (lf.contents chain scan.target).isSome

end HeapFileScan

namespace World

variable {w w' : World} {rest : List Pin} {others : List FilePtr} {fileName : FileName}
  {lf lf' : LogicalFile} {chain : List Int} {todo : List RID} {scan : HeapFileScan}

/-- `deleteRecord` succeeds, and a heap file with one record fewer is left; or it reports an
error and changes nothing. -/
def DeletesOneOrNothing (w : World) (scan : HeapFileScan) (fileName : FileName) (lf : LogicalFile)
    (chain : List Int) : Prop :=
  ∃ status scan' w' lf', scan.deleteRecord w = (.ok (status, scan'), w') ∧
    w'.logical fileName = some lf' ∧
    ((status = .OK ∧ lf'.HeapFormed scan.headerPageNo chain ∧
        (lf'.header scan.headerPageNo).recCnt = (lf.header scan.headerPageNo).recCnt - 1 ∧
        ∃ rid, (lf.contents chain rid).isSome ∧
          lf'.contents chain = Function.update (lf.contents chain) rid none) ∨
      (status ≠ .OK ∧ lf' = lf))

theorem ScanAt.delete_target (scanAt : w.ScanAt scan rest others fileName lf chain todo)
    (onRecord : scan.OnRecord lf chain) :
    ∃ scan' w' lf', scan.deleteRecord w = (.ok (.OK, scan'), w') ∧
      w'.ScanAt scan' rest others fileName lf' chain todo ∧
      scan'.headerPageNo = scan.headerPageNo ∧ w'.logical fileName = some lf' ∧
      lf'.contents chain = Function.update (lf.contents chain) scan.target none ∧
      (lf'.header scan.headerPageNo).recCnt = (lf.header scan.headerPageNo).recCnt - 1 ∧
      w'.bufFailed = w.bufFailed := by
  obtain ⟨frame, cur⟩ := Option.isSome_iff_exists.mp scanAt.pinned
  obtain ⟨lf', deleted, formed', updated⟩ := scanAt.formed.delete_live onRecord
  obtain ⟨w', run, held, writes, flag⟩ := scanAt.holding.delete_record cur
  have result : lf.deleteRecord scan.headerPageNo scan.curPageNo scan.curRec = (.OK, lf') :=
    deleted
  rw [result] at run held writes
  have stands : lf.Stands chain scan.target.pageNo scan.target todo := scanAt.stands
  have counted := LogicalFile.rids_length_delete scanAt.formed.nodup onRecord updated
  refine ⟨_, w', lf', run, ⟨held, formed', scanAt.pinned, ?_⟩, rfl, writes.touches.here, updated,
    ?_, flag⟩
  · exact stands.delete scanAt.formed.nodup updated
  · rw [formed'.recCnt, scanAt.formed.recCnt, counted]
    push_cast
    omega

theorem not_deletes_of_refused
    (holding : w.Holding scan.toHeapFile rest others fileName lf) {frame : Nat}
    (cur : scan.curPage = some frame) {status : Status} (different : status ≠ .OK)
    (refused : (lf.data scan.curPageNo).deleteRecord scan.curRec =
      (status, lf.data scan.curPageNo)) :
    ¬w.DeletesOneOrNothing scan fileName lf chain := by
  obtain ⟨w₁, run, _, writes, _⟩ := holding.delete_record cur
  have result : lf.deleteRecord scan.headerPageNo scan.curPageNo scan.curRec =
      (status, lf.addRecords scan.headerPageNo (-1)) := by
    simp only [LogicalFile.deleteRecord, refused, if_neg different]
  rw [result] at run writes
  rintro ⟨status', scan', w', lf', run', logical, outcome⟩
  rw [run] at run'
  cases run'
  rw [writes.touches.here, Option.some.injEq] at logical
  subst logical
  rcases outcome with ⟨ok, _⟩ | ⟨_, same⟩
  · exact different ok
  · have counts := congrArg (fun file => (file.header scan.headerPageNo).recCnt) same
    simp only [LogicalFile.addRecords, LogicalFile.header_update] at counts
    omega

/-- `deleteRecord` does what it should exactly if the cursor names a record. -/
theorem ScanAt.deletes_iff (scanAt : w.ScanAt scan rest others fileName lf chain todo) :
    w.DeletesOneOrNothing scan fileName lf chain ↔ scan.OnRecord lf chain := by
  obtain ⟨frame, cur⟩ := Option.isSome_iff_exists.mp scanAt.pinned
  obtain ⟨pages, start, suffix, slot, _⟩ := scanAt.stands
  have member : scan.curPageNo ∈ chain := suffix.subset List.mem_cons_self
  have wf := (scanAt.formed.pages scan.curPageNo member).1
  constructor
  · intro deletes
    by_contra elsewhere
    by_cases before : scan.curRec.slotNo = -1
    · by_cases used : 0 < (lf.data scan.curPageNo).freePtr
      · -- the counters of the page have been deleted
        obtain ⟨ok, broken⟩ := Page.delete_sentinel wf before used
        obtain ⟨w₁, run, _, writes, _⟩ := scanAt.holding.delete_record cur
        obtain ⟨status, scan', w', lf', run', logical, outcome⟩ := deletes
        rw [run] at run'
        cases run'
        rw [writes.touches.here, Option.some.injEq] at logical
        subst logical
        rcases outcome with ⟨_, formed', _⟩ | ⟨different, _⟩
        · have nonneg := (formed'.pages scan.curPageNo member).1.freePtr_nonneg
          have apart : scan.curPageNo ≠ scan.headerPageNo :=
            fun same => scanAt.formed.apart (same ▸ member)
          simp only [LogicalFile.deleteRecord, ok, if_true, LogicalFile.addRecords] at nonneg
          rw [LogicalFile.data_update_header _ apart, LogicalFile.data_set_same, broken] at nonneg
          exact absurd nonneg (by decide)
        · exact different ok
      · exact not_deletes_of_refused scanAt.holding cur (by decide)
          (Page.delete_sentinel_empty before (by omega)) deletes
    · obtain ⟨number, named⟩ : ∃ number : Nat, scan.curRec.slotNo = number :=
        ⟨scan.curRec.slotNo.toNat, by omega⟩
      have dead : ¬(lf.data scan.curPageNo).Live number := by
        rw [LogicalFile.live_iff_contents member, ← named]
        exact elsewhere
      have refused := Page.delete_record_dead (lf.data scan.curPageNo) wf.slotCnt_nonpos
        scan.curRec.pageNo number dead
      rw [← named] at refused
      exact not_deletes_of_refused scanAt.holding cur (by decide) refused deletes
  · intro onRecord
    obtain ⟨scan', w', lf', run, at', header, logical, updated, counted, _⟩ :=
      scanAt.delete_target onRecord
    have formed' := at'.formed
    rw [header] at formed'
    exact ⟨.OK, scan', w', lf', run, logical, .inl ⟨rfl, formed', counted, _, onRecord, updated⟩⟩

/-- A call of `scanNext`, or of `deleteRecord` with the cursor on a record. -/
inductive CountedStep (fileName : FileName) (chain : List Int) :
    HeapFileScan × World → HeapFileScan × World → Prop where
  | next {scan scan' : HeapFileScan} {w w' : World} {result : Except Status RID} (tmpRid : RID)
      (run : scan.scanNext tmpRid w = (.ok (result, scan'), w')) (smooth : w'.bufFailed = false) :
      CountedStep fileName chain (scan, w) (scan', w')
  | delete {scan scan' : HeapFileScan} {w w' : World} {status : Status} {lf : LogicalFile}
      (logical : w.logical fileName = some lf) (onRecord : scan.OnRecord lf chain)
      (run : scan.deleteRecord w = (.ok (status, scan'), w')) :
      CountedStep fileName chain (scan, w) (scan', w')

def Scanning (rest : List Pin) (others : List FilePtr) (fileName : FileName) (headerNo : Int)
    (chain : List Int) (state : HeapFileScan × World) : Prop :=
  ∃ lf todo, state.2.ScanAt state.1 rest others fileName lf chain todo ∧
    state.1.headerPageNo = headerNo

theorem CountedStep.scanning {headerNo : Int} {before after : HeapFileScan × World}
    (step : CountedStep fileName chain before after)
    (scanning : Scanning rest others fileName headerNo chain before) :
    Scanning rest others fileName headerNo chain after := by
  obtain ⟨lf, todo, scanAt, header⟩ := scanning
  cases step with
  | @next scan _ _ _ _ tmpRid run smooth =>
      obtain ⟨_, ⟨⟩, _, _, header', _, outcome⟩ := (scanAt.scan_next tmpRid).result run smooth
      cases sought : lf.sought scan.filter todo with
      | nil =>
          rw [sought] at outcome
          exact ⟨lf, [], outcome.2, header'.trans header⟩
      | cons rid later =>
          rw [sought] at outcome
          exact ⟨lf, later, outcome.2.2.2, header'.trans header⟩
  | delete logical onRecord run =>
      have same := scanAt.holding.logical.symm.trans logical
      rw [Option.some.injEq] at same
      subst same
      obtain ⟨scan', w', lf', run', at', header', _⟩ := scanAt.delete_target onRecord
      rw [run] at run'
      cases run'
      exact ⟨lf', todo, at', header'.trans header⟩

theorem scanning_of_reached {headerNo : Int} {before after : HeapFileScan × World}
    (reached : Relation.ReflTransGen (CountedStep fileName chain) before after)
    (scanning : Scanning rest others fileName headerNo chain before) :
    Scanning rest others fileName headerNo chain after := by
  induction reached with
  | refl => exact scanning
  | tail _ step ih => exact step.scanning ih

end World

section Counts

variable {w w₀ w' : World} {rest : List Pin} {others : List FilePtr} {fileName : FileName}
  {lf : LogicalFile} {chain : List Int} {scan₀ scan : HeapFileScan}

/-- A new scan, any calls of `scanNext` and of `deleteRecord` with the cursor on a record: the
header counts the live records, and the next `deleteRecord` removes one record or changes
nothing exactly if the cursor names a record then. -/
theorem scan_deletes_keep_count (storage : w.Storage rest others)
    (stores : w.Stores fileName lf chain) (nonempty : fileName ≠ []) (mem : Uninit)
    (opened : HeapFileScan.new mem fileName w = (.ok (.ok scan₀), w₀))
    (smooth : w₀.bufFailed = false) (filter : Option ScanFilter)
    (reached : Relation.ReflTransGen (CountedStep fileName chain)
      ({ scan₀ with filter := filter }, w₀) (scan, w')) :
    ∃ lf', w'.logical fileName = some lf' ∧ lf'.HeapFormed lf.firstPage chain ∧
      (lf'.header lf.firstPage).recCnt = (lf'.rids chain).length ∧
      (w'.DeletesOneOrNothing scan fileName lf' chain ↔ scan.OnRecord lf' chain) := by
  obtain ⟨_, same, scan₁, equal, scanAt₀, header, _⟩ :=
    (storage.new_scan stores.logical stores.formed nonempty mem).result opened smooth
  rw [Outcome.ok.injEq] at same
  subst same
  cases equal
  obtain ⟨lf', todo, scanAt, header'⟩ := scanning_of_reached reached
    ⟨lf, lf.rids chain, scanAt₀.start filter, header⟩
  have formed : lf'.HeapFormed lf.firstPage chain := by
    have formed := scanAt.formed
    dsimp only at header'
    rwa [header'] at formed
  exact ⟨lf', scanAt.holding.logical, formed, formed.recCnt, scanAt.deletes_iff⟩

end Counts

open HeapSession (zeroMemory)

/-- A new scan is moved to its first record, which it may then delete. -/
theorem scan_deletes_keep_count_first_record :
    ∃ (scan : HeapFileScan) (w : World) (lf' : LogicalFile), w.logical [114] = some lf' ∧
      (lf'.header 1).recCnt = 3 ∧ w.DeletesOneOrNothing scan [114] lf' [2] := by
  obtain ⟨_, w₀, opened, scan₀, rfl, scanAt₀, _, unfiltered, _⟩ :=
    three_records_storage.new_scan three_records_stored.logical three_records_stored.formed
      (by decide) zeroMemory (by decide +kernel)
  have first : ((HeapFileScan.new zeroMemory [114]) threeRecords).2.bufFailed = false := by
    decide +kernel
  have second : ((HeapFileScan.new zeroMemory [114] >>= fun opened =>
      opened.toOption.elim DbM.crash fun scan => scan.scanNext NULLRID)
      threeRecords).2.bufFailed = false := by
    decide +kernel
  rw [opened] at first
  rw [DbM.bind_ok opened] at second
  obtain ⟨⟨result, scan⟩, w, moved, same, _, _, _, outcome⟩ := scanAt₀.scan_next NULLRID second
  have sought : (tableFile [114] [[1], [2], [3]]).sought scan₀.filter
      ((tableFile [114] [[1], [2], [3]]).rids [2]) = [⟨2, 0⟩, ⟨2, 1⟩, ⟨2, 2⟩] := by
    rw [unfiltered]
    decide +kernel
  rw [sought] at outcome
  obtain ⟨_, curRec, curNo, scanAt⟩ := outcome
  have smooth : w.bufFailed = false := by
    have flag : (scan₀.scanNext NULLRID w₀).2.bufFailed = false := second
    rwa [moved] at flag
  obtain ⟨lf', logical, _, counted, deletes⟩ := scan_deletes_keep_count three_records_storage
    three_records_stored (by decide) zeroMemory opened first scan₀.filter
    (.single (.next NULLRID moved smooth))
  have table : lf' = tableFile [114] [[1], [2], [3]] :=
    Option.some.inj (logical.symm.trans scanAt.holding.logical)
  subst table
  refine ⟨scan, w, _, logical, by decide +kernel, deletes.mpr ?_⟩
  dsimp only at curRec curNo
  unfold HeapFileScan.OnRecord HeapFileScan.target
  rw [curRec, curNo]
  decide +kernel

def deleteTwice : DbM (Status × Int × Except Status (List (Except Status RID))) := do
  match ← HeapFileScan.new zeroMemory [114] with
  | .ok scan => do
      let (_, scan) ← scan.scanNext NULLRID
      let (_, scan) ← scan.deleteRecord
      let (status, scan) ← scan.deleteRecord
      let count ← scan.getRecCnt
      let left ← HeapFileScan.scanFresh zeroMemory [114] 0 0 .STRING none .EQ
        [NULLRID, NULLRID, NULLRID]
      pure (status, count, left)
  | .error _ => DbM.crash

theorem second_delete_loses_count :
    (deleteTwice threeRecords).1 = .ok (.INVALIDSLOTNO, 1,
      .ok [.ok ⟨2, 1⟩, .ok ⟨2, 2⟩, .error .FILEEOF]) := by
  decide +kernel

end PrimitiveDB

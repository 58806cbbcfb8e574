import PrimitiveDB.HeapFileCreation
import PrimitiveDB.DatabaseImages

/-!
# Histories of a heap file

A heap file from its creation on, through any number of sessions that follow one another. In a
session one object is open on the file: an inserter, a scan that may delete the record it has
just returned, or a reader. Whatever the history, the file is a chain of pages and a finite map
from RIDs to bytes, and every call does to the map what it reports.
-/

namespace PrimitiveDB

open World DbM

set_option autoImplicit false

/-- The object that is open on the file. A scan comes with the record that its last call has
returned, as long as it has not been deleted. -/
inductive HeapClient where
  | nobody
  | inserter (scan : InsertFileScan)
  | scanner (scan : HeapFileScan) (current : Option RID)
  | reader (heap : HeapFile)

/-- The records by RID, as the calls have reported them. -/
abbrev RecordMap := RID → Option Record

def RecordMap.inserted (records : RecordMap) (rec : Record) : Except Status RID → RecordMap
  | .ok rid => Function.update records rid (some rec)
  | .error _ => records

def RecordMap.deleted (records : RecordMap) (rid : RID) (status : Status) : RecordMap :=
  if status = .OK then Function.update records rid none else records

/-- The clients, reported records and worlds after `createHeapFile` in `start`. No buffer call has
failed. -/
inductive HeapHistory (mem : Uninit) (fileName : FileName) (start : World) :
    HeapClient → RecordMap → World → Prop where
  | created {w : World} (run : createHeapFile fileName start = (.ok .OK, w))
      (calm : w.bufFailed = false) : HeapHistory mem fileName start .nobody (fun _ => none) w
  | openInserter {w w' : World} {scan : InsertFileScan} {records : RecordMap}
      (earlier : HeapHistory mem fileName start .nobody records w)
      (run : InsertFileScan.new mem fileName w = (.ok (.OK, some scan), w'))
      (calm : w'.bufFailed = false) : HeapHistory mem fileName start (.inserter scan) records w'
  | insert {w w' : World} {scan scan' : InsertFileScan} {records : RecordMap} {rec : Record}
      {result : Except Status RID}
      (earlier : HeapHistory mem fileName start (.inserter scan) records w)
      (nonempty : 1 ≤ rec.length)
      (run : scan.insertRecord rec w = (.ok (result, scan'), w')) (calm : w'.bufFailed = false) :
      HeapHistory mem fileName start (.inserter scan') (records.inserted rec result) w'
  | closeInserter {w w' : World} {scan : InsertFileScan} {records : RecordMap}
      (earlier : HeapHistory mem fileName start (.inserter scan) records w)
      (run : scan.delete w = (.ok (), w')) (calm : w'.bufFailed = false) :
      HeapHistory mem fileName start .nobody records w'
  | openScan {w w' : World} {scan scan' : HeapFileScan} {records : RecordMap}
      {offset length : Int} {type : Datatype} {filter : Option (List ByteMemory.Byte)}
      {op : Operator} (earlier : HeapHistory mem fileName start .nobody records w)
      (run : HeapFileScan.new mem fileName w = (.ok (.ok scan), w')) (calm : w'.bufFailed = false)
      (accepted : scan.startScan offset length type filter op = (.OK, scan')) :
      HeapHistory mem fileName start (.scanner scan' none) records w'
  | next {w w' : World} {scan scan' : HeapFileScan} {records : RecordMap} {current : Option RID}
      {tmpRid : RID} {result : Except Status RID}
      (earlier : HeapHistory mem fileName start (.scanner scan current) records w)
      (run : scan.scanNext tmpRid w = (.ok (result, scan'), w')) (calm : w'.bufFailed = false) :
      HeapHistory mem fileName start (.scanner scan' result.toOption) records w'
  | deleteRecord {w w' : World} {scan scan' : HeapFileScan} {records : RecordMap} {rid : RID}
      {status : Status}
      (earlier : HeapHistory mem fileName start (.scanner scan (some rid)) records w)
      (run : scan.deleteRecord w = (.ok (status, scan'), w')) (calm : w'.bufFailed = false) :
      HeapHistory mem fileName start (.scanner scan' none) (records.deleted rid status) w'
  | closeScan {w w' : World} {scan : HeapFileScan} {records : RecordMap} {current : Option RID}
      (earlier : HeapHistory mem fileName start (.scanner scan current) records w)
      (run : scan.delete w = (.ok (), w')) (calm : w'.bufFailed = false) :
      HeapHistory mem fileName start .nobody records w'
  | openReader {w w' : World} {heap : HeapFile} {records : RecordMap}
      (earlier : HeapHistory mem fileName start .nobody records w)
      (run : HeapFile.new mem fileName w = (.ok (.ok heap), w')) (calm : w'.bufFailed = false) :
      HeapHistory mem fileName start (.reader heap) records w'
  | read {w w' : World} {heap heap' : HeapFile} {records : RecordMap} {rid : RID}
      {result : Except Status Record}
      (earlier : HeapHistory mem fileName start (.reader heap) records w)
      (run : heap.getRecord rid w = (.ok (result, heap'), w')) (calm : w'.bufFailed = false) :
      HeapHistory mem fileName start (.reader heap') records w'
  | closeReader {w w' : World} {heap : HeapFile} {records : RecordMap}
      (earlier : HeapHistory mem fileName start (.reader heap) records w)
      (run : heap.delete w = (.ok (), w')) (calm : w'.bufFailed = false) :
      HeapHistory mem fileName start .nobody records w'

theorem LogicalFile.contents_of_no_rids {lf : LogicalFile} {chain : List Int}
    (noRids : lf.rids chain = []) : lf.contents chain = fun _ => none := by
  funext rid
  apply Option.not_isSome_iff_eq_none.mp
  rw [← LogicalFile.mem_rids, noRids]
  exact List.not_mem_nil

theorem LogicalFile.InsertEffect.contents {lf lf' : LogicalFile} {chain chain' : List Int}
    {rec : Record} {result : Except Status RID}
    (effect : LogicalFile.InsertEffect lf lf' chain chain' rec result) :
    lf'.contents chain' = RecordMap.inserted (lf.contents chain) rec result := by
  cases result with
  | ok rid => exact effect.2
  | error status => exact effect

namespace HeapClient

variable {w w' : World} {rest : List Pin} {others : List FilePtr} {fileName : FileName}
  {lf lf' : LogicalFile} {chain chain' : List Int}

inductive On (w : World) (rest : List Pin) (others : List FilePtr) (fileName : FileName)
    (lf : LogicalFile) (chain : List Int) : HeapClient → Prop where
  | nobody (storage : w.Storage rest others) (logical : w.logical fileName = some lf) :
      On w rest others fileName lf chain .nobody
  | inserter {scan : InsertFileScan} (insertsAt : w.InsertsAt scan rest others fileName lf chain)
      (atEnd : InsertFileScan.AtEnd scan lf) (headerNo : scan.headerPageNo = lf.firstPage) :
      On w rest others fileName lf chain (.inserter scan)
  | scanner {scan : HeapFileScan} {current : Option RID} {todo : List RID}
      (scanAt : w.ScanAt scan rest others fileName lf chain todo)
      (headerNo : scan.headerPageNo = lf.firstPage)
      (onto : ∀ rid, current = some rid → scan.curRec = rid ∧ scan.curPageNo = rid.pageNo ∧
        (lf.contents chain rid).isSome) :
      On w rest others fileName lf chain (.scanner scan current)
  | reader {heap : HeapFile} (holding : w.Holding heap rest others fileName lf) :
      On w rest others fileName lf chain (.reader heap)

structure Well (w : World) (rest : List Pin) (others : List FilePtr) (fileName : FileName)
    (lf : LogicalFile) (chain : List Int) (client : HeapClient) : Prop where
  formed : lf.HeapFormed lf.firstPage chain
  on : client.On w rest others fileName lf chain

theorem Well.insert {scan : InsertFileScan} {rec : Record}
    (well : Well w rest others fileName lf chain (.inserter scan)) (nonempty : 1 ≤ rec.length) :
    Smoothly (scan.insertRecord rec) w fun result w' => ∃ lf' chain',
      Well w' rest others fileName lf' chain' (.inserter result.2) ∧
        LogicalFile.InsertEffect lf lf' chain chain' rec result.1 := by
  obtain ⟨formed, on⟩ := well
  cases on with
  | inserter insertsAt atEnd headerNo =>
      apply (insertsAt.insert_record nonempty (.inr atEnd)).mono
      rintro result w' ⟨lf', chain', inserts', header, _, _, _, inserted⟩
      have first := inserted.first headerNo.symm
      refine ⟨lf', chain', ⟨?_, .inserter inserts' ?_ ?_⟩, inserted.effect⟩
      · rw [first]
        exact inserted.formed
      · unfold InsertFileScan.AtEnd at atEnd ⊢
        rw [header]
        exact inserted.atEnd atEnd
      · rw [header, first]

theorem Well.next {scan : HeapFileScan} {current : Option RID}
    (well : Well w rest others fileName lf chain (.scanner scan current)) (tmpRid : RID) :
    Smoothly (scan.scanNext tmpRid) w fun result w' =>
      Well w' rest others fileName lf chain (.scanner result.2 result.1.toOption) ∧
        SameLogical w w' := by
  obtain ⟨formed, on⟩ := well
  cases on with
  | @scanner _ _ todo scanAt headerNo onto =>
      apply (scanAt.scan_next tmpRid).mono
      rintro ⟨result, scan'⟩ w' ⟨same, _, header, _, stopped⟩
      refine ⟨⟨formed, ?_⟩, same⟩
      cases sought : lf.sought scan.filter todo with
      | nil =>
          rw [sought] at stopped
          obtain ⟨rfl, scanAt'⟩ := stopped
          refine .scanner scanAt' (header.trans headerNo) ?_
          intro rid none_
          cases none_
      | cons rid later =>
          rw [sought] at stopped
          obtain ⟨rfl, curRec, curNo, scanAt'⟩ := stopped
          have listed : rid ∈ lf.rids chain := by
            obtain ⟨skipped, split, _⟩ : ∃ skipped, todo = skipped ++ lf.sought scan.filter todo ∧ _ :=
              LogicalFile.sought_split todo
            apply scanAt.stands.sublist.subset
            rw [split, sought]
            simp
          refine .scanner scanAt' (header.trans headerNo) ?_
          intro other some_
          cases some_
          exact ⟨curRec, curNo, LogicalFile.mem_rids.mp listed⟩

/-- The record that the scan has just returned is deleted, and no other. -/
theorem Well.delete_record {scan : HeapFileScan} {rid : RID}
    (well : Well w rest others fileName lf chain (.scanner scan (some rid))) :
    ∃ scan' w' lf', scan.deleteRecord w = (.ok (.OK, scan'), w') ∧
      Well w' rest others fileName lf' chain (.scanner scan' none) ∧
      (lf.contents chain rid).isSome ∧
      lf'.contents chain = Function.update (lf.contents chain) rid none ∧
      w'.bufFailed = w.bufFailed := by
  obtain ⟨formed, on⟩ := well
  cases on with
  | @scanner _ _ todo scanAt headerNo onto =>
      obtain ⟨curRec, curNo, live⟩ := onto rid rfl
      subst curRec
      obtain ⟨scan', w', lf', run, scanAt', removed, _, header, _, _, flag, first⟩ :=
        scanAt.delete_record curNo live
      have headerNo' : scan'.headerPageNo = lf'.firstPage := by
        rw [header, first]
        exact headerNo
      refine ⟨scan', w', lf', run, ⟨?_, .scanner scanAt' headerNo' ?_⟩, live, removed, flag⟩
      · rw [← headerNo']
        exact scanAt'.formed
      · intro rid none_
        cases none_

/-- A reader finds every live record, wherever it has been before. -/
theorem Well.read {heap : HeapFile}
    (well : Well w rest others fileName lf chain (.reader heap)) (rid : RID) :
    Smoothly (heap.getRecord rid) w fun result w' =>
      Well w' rest others fileName lf chain (.reader result.2) ∧ SameLogical w w' ∧
        ∀ rec, lf.contents chain rid = some rec → result.1 = .ok rec := by
  obtain ⟨formed, on⟩ := well
  cases on with
  | reader holding =>
      obtain ⟨result, heap', w', run, _, outcome⟩ := holding.get_record rid
      rcases outcome with ⟨failed, _⟩ | ⟨_, _, same, held, found, _⟩
      · apply smoothly_of_failed
        rw [run]
        exact failed
      · apply smoothly_of_eq run
        refine ⟨⟨formed, .reader held⟩, same, ?_⟩
        intro rec live
        rw [found]
        exact formed.get_contents live

theorem Well.open_inserter (well : Well w rest others fileName lf chain .nobody)
    (nonempty : fileName ≠ []) (mem : Uninit) :
    Smoothly (InsertFileScan.new mem fileName) w fun result w' => ∃ scan,
      result = (.OK, some scan) ∧ Well w' rest others fileName lf chain (.inserter scan) ∧
        w'.logical = w.logical := by
  obtain ⟨formed, on⟩ := well
  cases on with
  | nobody storage logical =>
      apply (storage.new_inserter logical formed nonempty mem).mono
      rintro result w' ⟨scan, rfl, insertsAt, atEnd, headerNo, constructs⟩
      exact ⟨scan, rfl, ⟨formed, .inserter insertsAt atEnd headerNo⟩, constructs.logical⟩

theorem Well.open_scan (well : Well w rest others fileName lf chain .nobody)
    (nonempty : fileName ≠ []) (mem : Uninit) :
    Smoothly (HeapFileScan.new mem fileName) w fun result w' => ∃ scan, result = .ok scan ∧
      (∀ filter, Well w' rest others fileName lf chain
        (.scanner { scan with filter := filter } none)) ∧ w'.logical = w.logical := by
  obtain ⟨formed, on⟩ := well
  cases on with
  | nobody storage logical =>
      apply (storage.new_scan logical formed nonempty mem).mono
      rintro result w' ⟨scan, rfl, scanAt, headerNo, _, constructs⟩
      refine ⟨scan, rfl, fun filter => ⟨formed, .scanner (scanAt.start filter) headerNo ?_⟩,
        constructs.logical⟩
      intro rid none_
      cases none_

theorem Well.open_reader (well : Well w rest others fileName lf chain .nobody)
    (nonempty : fileName ≠ []) (mem : Uninit) :
    Smoothly (HeapFile.new mem fileName) w fun result w' => ∃ heap,
      result = .ok heap ∧ Well w' rest others fileName lf chain (.reader heap) ∧
        w'.logical = w.logical := by
  obtain ⟨formed, on⟩ := well
  cases on with
  | nobody storage logical =>
      apply (storage.new_heap logical nonempty mem).mono
      rintro result w' ⟨heap, rfl, holding, _, _, _, _, constructs⟩
      exact ⟨heap, rfl, ⟨formed, .reader holding⟩, constructs.logical⟩

def delete : HeapClient → DbM Unit
  | .nobody => pure ()
  | .inserter scan => scan.delete
  | .scanner scan _ => scan.delete
  | .reader heap => heap.delete

theorem Well.close {client : HeapClient} (well : Well w rest others fileName lf chain client)
    (owned : ∀ pin ∈ rest, pin.file ∈ others) :
    ∃ w', client.delete w = (.ok (), w') ∧ Well w' rest others fileName lf chain .nobody ∧
      w'.logical = w.logical := by
  obtain ⟨formed, on⟩ := well
  cases on with
  | nobody storage logical => exact ⟨w, rfl, ⟨formed, .nobody storage logical⟩, rfl⟩
  | inserter insertsAt _ _ =>
      obtain ⟨w', run, storage, logical, _⟩ := insertsAt.delete owned
      refine ⟨w', run, ⟨formed, .nobody storage ?_⟩, logical⟩
      rw [logical]
      exact insertsAt.holding.logical
  | scanner scanAt _ _ =>
      obtain ⟨w', run, storage, logical, _⟩ := scanAt.delete owned
      refine ⟨w', run, ⟨formed, .nobody storage ?_⟩, logical⟩
      rw [logical]
      exact scanAt.holding.logical
  | @reader heap holding =>
      have held : w.Holding (HeapObject.heapFile heap).base rest others fileName lf := holding
      obtain ⟨w₁, w', destroys⟩ := held.destroys owned
      have logical := destroys.closes.logical.trans destroys.same.logical
      refine ⟨w', destroys.deletes, ⟨formed, .nobody destroys.storage ?_⟩, logical⟩
      rw [logical]
      exact holding.logical

end HeapClient

section History

variable {mem : Uninit} {fileName : FileName} {start w : World} {rest : List Pin}
  {others : List FilePtr} {client : HeapClient} {records : RecordMap}

theorem HeapHistory.well (history : HeapHistory mem fileName start client records w)
    (storage : start.Storage rest others) (nonempty : fileName ≠ []) :
    ∃ lf chain, client.Well w rest others fileName lf chain ∧ lf.contents chain = records := by
  have owned : ∀ pin ∈ rest, pin.file ∈ others := fun _ => storage.pin_open
  induction history with
  | created run calm =>
      obtain ⟨_, same, creates⟩ := (storage.creates_file nonempty).result run calm
      cases same
      cases creates with
      | @created lf _ storage' _ logical first formed noRids =>
          refine ⟨lf, [2], ⟨?_, .nobody storage' (by rw [logical, Function.update_self])⟩, ?_⟩
          · rw [first]
            exact formed
          · exact LogicalFile.contents_of_no_rids noRids
  | openInserter _ run calm ih =>
      obtain ⟨lf, chain, well, reported⟩ := ih
      obtain ⟨_, same, scan, opened, well', _⟩ := (well.open_inserter nonempty mem).result run calm
      cases same
      cases opened
      exact ⟨lf, chain, well', reported⟩
  | @insert _ _ _ _ _ rec result _ some_ run calm ih =>
      obtain ⟨lf, chain, well, reported⟩ := ih
      obtain ⟨_, same, lf', chain', well', effect⟩ := (well.insert some_).result run calm
      cases same
      refine ⟨lf', chain', well', ?_⟩
      rw [← reported]
      exact effect.contents
  | openScan _ run calm accepted ih =>
      obtain ⟨lf, chain, well, reported⟩ := ih
      obtain ⟨_, same, scan, opened, well', _⟩ := (well.open_scan nonempty mem).result run calm
      cases same
      cases opened
      have filtered := congrArg Prod.snd accepted
      subst filtered
      exact ⟨lf, chain, well' _, reported⟩
  | next _ run calm ih =>
      obtain ⟨lf, chain, well, reported⟩ := ih
      obtain ⟨_, same, well', _⟩ := (well.next _).result run calm
      cases same
      exact ⟨lf, chain, well', reported⟩
  | deleteRecord _ run _ ih =>
      obtain ⟨lf, chain, well, reported⟩ := ih
      obtain ⟨_, _, lf', deleted, well', _, removed, _⟩ := well.delete_record
      rw [deleted] at run
      cases run
      refine ⟨lf', chain, well', ?_⟩
      rw [removed, reported]
      rfl
  | openReader _ run calm ih =>
      obtain ⟨lf, chain, well, reported⟩ := ih
      obtain ⟨_, same, heap, opened, well', _⟩ := (well.open_reader nonempty mem).result run calm
      cases same
      cases opened
      exact ⟨lf, chain, well', reported⟩
  | read _ run calm ih =>
      obtain ⟨lf, chain, well, reported⟩ := ih
      obtain ⟨_, same, well', _⟩ := (well.read _).result run calm
      cases same
      exact ⟨lf, chain, well', reported⟩
  | closeInserter _ run _ ih | closeScan _ run _ ih | closeReader _ run _ ih =>
      obtain ⟨lf, chain, well, reported⟩ := ih
      obtain ⟨_, closed, well', _⟩ := well.close owned
      have same := closed.symm.trans run
      cases same
      exact ⟨lf, chain, well', reported⟩

/-- The file as its clients may use it, at some point of its history. -/
structure HeapContract (mem : Uninit) (w : World) (fileName : FileName) (lf : LogicalFile)
    (chain : List Int) (client : HeapClient) (records : RecordMap) : Prop where
  logical : w.logical fileName = some lf
  /-- The pages from `firstPage` on are distinct, `pageCnt` many, and end with `lastPage`, and
  `recCnt` counts their records. -/
  formed : lf.HeapFormed lf.firstPage chain
  contents : lf.contents chain = records
  openInserter : client = .nobody → Smoothly (InsertFileScan.new mem fileName) w fun result w' =>
    (∃ scan, result = (.OK, some scan)) ∧ w'.logical = w.logical
  openScan : client = .nobody → Smoothly (HeapFileScan.new mem fileName) w fun result w' =>
    (∃ scan, result = .ok scan) ∧ w'.logical = w.logical
  openReader : client = .nobody → Smoothly (HeapFile.new mem fileName) w fun result w' =>
    (∃ heap, result = .ok heap) ∧ w'.logical = w.logical
  insert : ∀ scan rec, client = .inserter scan → 1 ≤ rec.length →
    Smoothly (scan.insertRecord rec) w fun result w' => ∃ lf' chain',
      w'.logical fileName = some lf' ∧ lf'.HeapFormed lf'.firstPage chain' ∧
        LogicalFile.InsertEffect lf lf' chain chain' rec result.1
  next : ∀ scan current tmpRid, client = .scanner scan current →
    Smoothly (scan.scanNext tmpRid) w fun result w' => w'.logical = w.logical ∧
      ∀ rid, result.1 = .ok rid → (lf.contents chain rid).isSome
  deleteRecord : ∀ scan rid, client = .scanner scan (some rid) →
    ∃ scan' w' lf', scan.deleteRecord w = (.ok (.OK, scan'), w') ∧
      w'.logical fileName = some lf' ∧ lf'.HeapFormed lf'.firstPage chain ∧
      lf'.contents chain = Function.update (lf.contents chain) rid none
  read : ∀ heap rid rec, client = .reader heap → lf.contents chain rid = some rec →
    Smoothly (heap.getRecord rid) w fun result w' =>
      result.1 = .ok rec ∧ w'.logical = w.logical
  close : ∃ w', client.delete w = (.ok (), w') ∧ w'.logical = w.logical

theorem HeapClient.On.logical {lf : LogicalFile} {chain : List Int}
    (on : client.On w rest others fileName lf chain) : w.logical fileName = some lf := by
  cases on with
  | nobody _ logical => exact logical
  | inserter insertsAt _ _ => exact insertsAt.holding.logical
  | scanner scanAt _ _ => exact scanAt.holding.logical
  | reader holding => exact holding.logical

/-- A heap file is a finite map from RIDs to bytes, after any history. -/
theorem heap_file_is_finite_map (storage : start.Storage rest others) (nonempty : fileName ≠ [])
    (history : HeapHistory mem fileName start client records w) :
    ∃ lf chain, HeapContract mem w fileName lf chain client records := by
  obtain ⟨lf, chain, well, reported⟩ := history.well storage nonempty
  refine ⟨lf, chain, well.on.logical, well.formed, reported, ?_, ?_, ?_, ?_, ?_, ?_, ?_, ?_⟩
  · rintro rfl
    apply (well.open_inserter nonempty mem).mono
    rintro result w' ⟨scan, opened, _, logical⟩
    exact ⟨⟨scan, opened⟩, logical⟩
  · rintro rfl
    apply (well.open_scan nonempty mem).mono
    rintro result w' ⟨scan, opened, _, logical⟩
    exact ⟨⟨scan, opened⟩, logical⟩
  · rintro rfl
    apply (well.open_reader nonempty mem).mono
    rintro result w' ⟨heap, opened, _, logical⟩
    exact ⟨⟨heap, opened⟩, logical⟩
  · rintro scan rec rfl some_
    apply (well.insert some_).mono
    intro result w' inserted
    obtain ⟨lf', chain', well', effect⟩ := inserted
    exact ⟨lf', chain', well'.on.logical, well'.formed, effect⟩
  · rintro scan current tmpRid rfl
    apply (well.next tmpRid).mono
    intro result w' advanced
    obtain ⟨well', same⟩ := advanced
    refine ⟨same.logical, ?_⟩
    intro rid found
    have on := well'.on
    rw [found] at on
    cases on with
    | scanner _ _ onto => exact (onto rid rfl).2.2
  · rintro scan rid rfl
    obtain ⟨scan', w', lf', run, well', _, removed, _⟩ := well.delete_record
    exact ⟨scan', w', lf', run, well'.on.logical, well'.formed, removed⟩
  · rintro heap rid rec rfl live
    apply (well.read rid).mono
    intro result w' found
    exact ⟨found.2.2 rec live, found.2.1.logical⟩
  · obtain ⟨w', run, _, logical⟩ := well.close fun _ => storage.pin_open
    exact ⟨w', run, logical⟩

end History

open HeapSession (zeroMemory)

def calmly {α : Type} (call : DbM α) : DbM α := do
  let value ← call
  if ← DbM.read World.bufFailed then DbM.crash else pure value

theorem calmly_bind {α β : Type} {call : DbM α} {next : α → DbM β} {result : β} {w w'' : World}
    (run : (calmly call >>= next) w = (.ok result, w'')) :
    ∃ value w', call w = (.ok value, w') ∧ w'.bufFailed = false ∧
      next value w' = (.ok result, w'') := by
  obtain ⟨value, w₁, checked, run⟩ := bind_eq_ok_iff.mp run
  obtain ⟨value₁, w₂, made, checked⟩ := bind_eq_ok_iff.mp checked
  obtain ⟨flag, w₃, read, checked⟩ := bind_eq_ok_iff.mp checked
  cases read
  split at checked
  · cases checked
  · rename_i calm
    cases checked
    exact ⟨value, w₁, made, by simpa using calm, run⟩

/-- Two inserters, between them a scan that deletes the first record, and a reader. -/
def fourSessions : DbM (HeapFile × Except Status Record) := do
  let .OK ← calmly (createHeapFile [114]) | DbM.crash
  let (.OK, some scan) ← calmly (InsertFileScan.new zeroMemory [114]) | DbM.crash
  let (.ok ⟨2, 0⟩, scan) ← calmly (scan.insertRecord [1]) | DbM.crash
  let (.ok ⟨2, 1⟩, scan) ← calmly (scan.insertRecord [2]) | DbM.crash
  calmly scan.delete
  let .ok scan ← calmly (HeapFileScan.new zeroMemory [114]) | DbM.crash
  let (.OK, scan) ← pure (scan.startScan 0 0 .STRING none .EQ) | DbM.crash
  let (.ok ⟨2, 0⟩, scan) ← calmly (scan.scanNext NULLRID) | DbM.crash
  let (.OK, scan) ← calmly scan.deleteRecord | DbM.crash
  let (.ok ⟨2, 1⟩, scan) ← calmly (scan.scanNext NULLRID) | DbM.crash
  calmly scan.delete
  let (.OK, some scan) ← calmly (InsertFileScan.new zeroMemory [114]) | DbM.crash
  let (.ok ⟨2, 0⟩, scan) ← calmly (scan.insertRecord [3]) | DbM.crash
  calmly scan.delete
  let .ok heap ← calmly (HeapFile.new zeroMemory [114]) | DbM.crash
  let (result, heap) ← calmly (heap.getRecord ⟨2, 1⟩)
  pure (heap, result)

theorem four_sessions_return : ∃ ends w, fourSessions (databaseOf 8 []) = (.ok ends, w) := by
  have returned : ((fourSessions >>= fun _ => pure ()) (databaseOf 8 [])).1 = .ok () := by
    decide +kernel
  obtain ⟨ends, w, run, _⟩ := DbM.run_of_shown returned
  exact ⟨ends, w, run⟩

theorem heap_file_is_finite_map_four_sessions :
    ∃ (heap : HeapFile) (records : RecordMap) (w : World) (lf : LogicalFile) (chain : List Int),
      records = ((RecordMap.deleted (RecordMap.inserted (RecordMap.inserted (fun _ => none) [1]
        (.ok ⟨2, 0⟩)) [2] (.ok ⟨2, 1⟩)) ⟨2, 0⟩ .OK).inserted [3] (.ok ⟨2, 0⟩)) ∧
      HeapHistory zeroMemory [114] (databaseOf 8 []) (.reader heap) records w ∧
      HeapContract zeroMemory w [114] lf chain (.reader heap) records := by
  have storage : (databaseOf 8 []).Storage [] [] :=
    (database_just_started (by decide) _).storage
  obtain ⟨⟨heap, result⟩, w, run⟩ := four_sessions_return
  generalize databaseOf 8 [] = start at storage run ⊢
  unfold fourSessions at run
  -- the first inserter
  obtain ⟨_, _, made, calm, run⟩ := calmly_bind run
  split at run
  swap
  · cases run
  have history : HeapHistory zeroMemory [114] start .nobody _ _ := .created made calm
  obtain ⟨_, _, made, calm, run⟩ := calmly_bind run
  split at run
  swap
  · cases run
  replace history := history.openInserter made calm
  obtain ⟨_, _, made, calm, run⟩ := calmly_bind run
  split at run
  swap
  · cases run
  replace history := history.insert (by decide) made calm
  obtain ⟨_, _, made, calm, run⟩ := calmly_bind run
  split at run
  swap
  · cases run
  replace history := history.insert (by decide) made calm
  obtain ⟨_, _, made, calm, run⟩ := calmly_bind run
  replace history := history.closeInserter made calm
  -- the scan
  obtain ⟨_, _, made, calm, run⟩ := calmly_bind run
  split at run
  swap
  · cases run
  obtain ⟨_, _, started, run⟩ := bind_eq_ok_iff.mp run
  split at run
  swap
  · cases run
  obtain ⟨accepted, rfl⟩ := Prod.mk.inj started
  replace history := history.openScan made calm (Outcome.ok.inj accepted)
  obtain ⟨_, _, made, calm, run⟩ := calmly_bind run
  split at run
  swap
  · cases run
  replace history := history.next made calm
  obtain ⟨_, _, made, calm, run⟩ := calmly_bind run
  split at run
  swap
  · cases run
  replace history := history.deleteRecord made calm
  obtain ⟨_, _, made, calm, run⟩ := calmly_bind run
  split at run
  swap
  · cases run
  replace history := history.next made calm
  obtain ⟨_, _, made, calm, run⟩ := calmly_bind run
  replace history := history.closeScan made calm
  -- the second inserter
  obtain ⟨_, _, made, calm, run⟩ := calmly_bind run
  split at run
  swap
  · cases run
  replace history := history.openInserter made calm
  obtain ⟨_, _, made, calm, run⟩ := calmly_bind run
  split at run
  swap
  · cases run
  replace history := history.insert (by decide) made calm
  obtain ⟨_, _, made, calm, run⟩ := calmly_bind run
  replace history := history.closeInserter made calm
  -- the reader
  obtain ⟨_, _, made, calm, run⟩ := calmly_bind run
  split at run
  swap
  · cases run
  replace history := history.openReader made calm
  obtain ⟨_, _, made, calm, run⟩ := calmly_bind run
  replace history := history.read made calm
  obtain ⟨lf, chain, contract⟩ := heap_file_is_finite_map storage (by decide) history
  exact ⟨_, _, _, lf, chain, rfl, history, contract⟩

end PrimitiveDB

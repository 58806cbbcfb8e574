import PrimitiveDB.HeapCursors
import PrimitiveDB.SmoothCalls

/-!
# Heap file objects on well-formed heap files

`ScanAt` and `InsertsAt` say where an open scan or inserter stands in a
well-formed heap file. The rules below give every method its effect on the
finite map, provided that no buffer call fails.
-/

namespace PrimitiveDB

open World DbM

set_option autoImplicit false

/-- The object as its own unpins treat it: whatever the dirty flag says, an
inserter unpins its page as dirty. -/
def InsertFileScan.reporting (scan : InsertFileScan) : InsertFileScan :=
  ⟨{ scan.toHeapFile with curDirtyFlag := true }⟩

namespace InsertFileScan

def report (ends : Except Status RID × InsertFileScan) :
    DbM (Except Status RID × InsertFileScan) := pure (ends.1, ends.2.reporting)

theorem insert_here_reporting (scan : InsertFileScan) (frame : Nat) (rec : Record) :
    scan.reporting.insertHere frame rec >>= report = scan.insertHere frame rec >>= report := by
  unfold insertHere insertOnNewPage
  simp only [DbM.bind_assoc]
  apply DbM.bind_congr
  intro page
  split
  · rfl
  · simp only [DbM.bind_assoc]
    apply DbM.bind_congr
    intro result
    split
    · rfl
    · simp only [DbM.bind_assoc]
      iterate 6 (apply DbM.bind_congr; intro _)
      apply DbM.bind_congr
      intro result
      split
      · simp only [DbM.bind_assoc]
        apply DbM.bind_congr
        intro result
        split <;> rfl
      · simp only [DbM.bind_assoc]
        apply DbM.bind_congr
        intro page
        split <;> rfl

theorem insert_record_reporting (scan : InsertFileScan) (rec : Record) :
    scan.reporting.insertRecord rec >>= report = scan.insertRecord rec >>= report := by
  unfold insertRecord
  split
  · rfl
  · rw [show scan.reporting.curPage = scan.curPage from rfl]
    split
    · exact insert_here_reporting scan _ rec
    · simp only [DbM.bind_assoc]
      apply DbM.bind_congr
      intro hdr
      apply DbM.bind_congr
      intro result
      cases result with
      | error status => rfl
      | ok frame =>
          exact insert_here_reporting ⟨{ scan.toHeapFile with
            curPage := some frame, curPageNo := hdr.lastPage }⟩ frame rec

theorem insert_record_of_reporting {scan scan₁ : InsertFileScan} {rec : Record} {w w' : World}
    {result : Except Status RID}
    (run : scan.reporting.insertRecord rec w = (.ok (result, scan₁), w')) :
    ∃ scan', scan.insertRecord rec w = (.ok (result, scan'), w') ∧
      scan'.reporting = scan₁.reporting := by
  have same := congrFun (insert_record_reporting scan rec) w
  rw [DbM.bind_ok run, bind_apply] at same
  rcases other : scan.insertRecord rec w with ⟨value | status | _, w''⟩
  · rw [other] at same
    simp only [report, pure_apply, Prod.mk.injEq, Outcome.ok.injEq] at same
    obtain ⟨⟨rfl, equal⟩, rfl⟩ := same
    exact ⟨value.2, rfl, equal.symm⟩
  · rw [other] at same
    cases same
  · rw [other] at same
    cases same

end InsertFileScan

namespace World

variable {w w' w'' : World} {rest : List Pin} {others : List FilePtr} {fileName : FileName}
  {lf lf' : LogicalFile} {chain : List Int} {todo : List RID}

/-- One file is different, and every handle names the file it named before. -/
structure Touches (before after : World) (fileName : FileName) (lf' : LogicalFile) : Prop where
  logical : after.logical = Function.update before.logical fileName (some lf')
  names : ∀ file, after.nameOf file = before.nameOf file

theorem Writes.touches (writes : Writes w w' fileName lf') : Touches w w' fileName lf' :=
  ⟨writes.logical, writes.nameOf⟩

theorem SameLogical.touches (same : SameLogical w w') (logical : w.logical fileName = some lf) :
    Touches w w' fileName lf := by
  refine ⟨?_, same.nameOf⟩
  rw [same.logical, ← logical, Function.update_eq_self]

theorem Touches.trans {lf'' : LogicalFile} (first : Touches w w' fileName lf')
    (second : Touches w' w'' fileName lf'') : Touches w w'' fileName lf'' := by
  refine ⟨?_, fun file => (second.names file).trans (first.names file)⟩
  rw [second.logical, first.logical, Function.update_idem]

theorem Touches.here (touches : Touches w w' fileName lf') : w'.logical fileName = some lf' := by
  rw [touches.logical, Function.update_self]

theorem Touches.elsewhere (touches : Touches w w' fileName lf') {other : FileName}
    (different : other ≠ fileName) : w'.logical other = w.logical other := by
  rw [touches.logical, Function.update_of_ne different]

/-- An open scan on a well-formed heap file, with `todo` in front of it. -/
structure ScanAt (w : World) (scan : HeapFileScan) (rest : List Pin) (others : List FilePtr)
    (fileName : FileName) (lf : LogicalFile) (chain : List Int) (todo : List RID) : Prop where
  holding : w.Holding scan.toHeapFile rest others fileName lf
  formed : lf.HeapFormed scan.headerPageNo chain
  pinned : scan.curPage.isSome
  stands : lf.Stands chain scan.curPageNo scan.curRec todo

theorem Storage.new_heap (storage : w.Storage rest others)
    (logical : w.logical fileName = some lf) (nonempty : fileName ≠ []) (mem : Uninit) :
    Smoothly (HeapFile.new mem fileName) w fun result w' =>
      ∃ heap, result = .ok heap ∧ w'.Holding heap rest others fileName lf ∧
        heap.headerPageNo = lf.firstPage ∧ heap.curPage.isSome ∧
        heap.curPageNo = (lf.header lf.firstPage).firstPage ∧ heap.curRec = NULLRID ∧
        Constructs w w' others := by
  rcases storage.new_heap_file mem fileName with ⟨status, w₁, run, _, same, _⟩ |
    ⟨w₁, run, failed⟩ |
    ⟨lf₁, heap, w₁, run, logical₁, _, headerNo, _, curNo, _, curRec, result⟩
  · -- the file exists, so the constructor does not end here
    exfalso
    unfold HeapFile.new at run
    obtain ⟨file, w₂, opened, _⟩ := storage.open_file nonempty logical
    rw [bind_ok (attempt_ok opened)] at run
    dsimp only at run
    obtain ⟨headerNo, w₃, _, run⟩ := bind_eq_ok_iff.mp run
    obtain ⟨read, w₄, _, run⟩ := bind_eq_ok_iff.mp run
    cases read with
    | error status => cases run
    | ok frame =>
        obtain ⟨hdr, w₅, _, run⟩ := bind_eq_ok_iff.mp run
        obtain ⟨second, w₆, _, run⟩ := bind_eq_ok_iff.mp run
        cases second <;> cases run
  · apply smoothly_of_failed
    rw [run]
    exact failed
  · rw [logical] at logical₁
    obtain rfl := Option.some.inj logical₁
    rcases result with ⟨failed, _⟩ | ⟨flag, pinned, constructs, held⟩
    · apply smoothly_of_failed
      rw [run]
      exact failed
    · exact smoothly_of_eq run ⟨heap, rfl, held, headerNo, pinned, curNo, curRec, constructs⟩

theorem Storage.new_scan (storage : w.Storage rest others) (logical : w.logical fileName = some lf)
    (formed : lf.HeapFormed lf.firstPage chain) (nonempty : fileName ≠ []) (mem : Uninit) :
    Smoothly (HeapFileScan.new mem fileName) w fun result w' =>
      ∃ scan, result = .ok scan ∧ w'.ScanAt scan rest others fileName lf chain (lf.rids chain) ∧
        scan.headerPageNo = lf.firstPage ∧ scan.filter = none ∧ Constructs w w' others := by
  unfold HeapFileScan.new
  apply smoothly_bind
  · intro result
    cases result <;> exact keeps_pure _
  · apply (storage.new_heap logical nonempty mem).mono
    rintro result w₁ ⟨heap, rfl, held, headerNo, pinned, curNo, curRec, constructs⟩
    refine smoothly_pure ⟨_, rfl, ⟨held, ?_, pinned, ?_⟩, headerNo, rfl, constructs⟩
    · change lf.HeapFormed heap.headerPageNo chain
      rw [headerNo]
      exact formed
    · change lf.Stands chain heap.curPageNo heap.curRec (lf.rids chain)
      rw [curNo, curRec]
      exact formed.stands_first

theorem ScanAt.start {scan : HeapFileScan}
    (scanAt : w.ScanAt scan rest others fileName lf chain todo) (filter : Option ScanFilter) :
    w.ScanAt { scan with filter := filter } rest others fileName lf chain todo :=
  ⟨scanAt.holding, scanAt.formed, scanAt.pinned, scanAt.stands⟩

theorem ScanEnds.advances {scan : HeapFileScan} {linked : Prop}
    {computed : Option (Except Status RID × Int × RID)}
    {call : DbM (Except Status RID × HeapFileScan)}
    (ends : ScanEnds w scan rest others fileName lf linked computed (call w))
    (formed : lf.HeapFormed scan.headerPageNo chain)
    (advances : lf.Advances scan.filter chain todo computed) :
    Smoothly call w fun result w' =>
      SameLogical w w' ∧ result.2.filePtr = scan.filePtr ∧
      result.2.headerPageNo = scan.headerPageNo ∧ result.2.filter = scan.filter ∧
      match lf.sought scan.filter todo with
      | [] => result.1 = .error .FILEEOF ∧
          w'.ScanAt result.2 rest others fileName lf chain []
      | rid :: later => result.1 = .ok rid ∧ result.2.curRec = rid ∧
          result.2.curPageNo = rid.pageNo ∧
          w'.ScanAt result.2 rest others fileName lf chain later := by
  rcases run : call w with ⟨value, w'⟩
  rw [run] at ends
  cases ends with
  | lost _ endless =>
      exfalso
      rw [endless] at advances
      unfold LogicalFile.Advances at advances
      split at advances
      · obtain ⟨_, _, impossible, _⟩ := advances
        cases impossible
      · cases advances.1
  | failed status scan' _ flag =>
      apply smoothly_of_failed
      rw [run]
      exact flag
  | found result scan' _ agrees flag same pinned fields held =>
      have file : scan'.filePtr = scan.filePtr := congrArg Pin.file fields.1
      have number : scan'.headerPageNo = scan.headerPageNo := congrArg Pin.pageNo fields.1
      apply smoothly_of_eq run
      refine ⟨same, file, number, fields.2.1, ?_⟩
      have formed : lf.HeapFormed scan'.headerPageNo chain := by
        rw [number]
        exact formed
      unfold LogicalFile.Advances at advances
      rw [agrees] at advances
      cases sought : lf.sought scan.filter todo with
      | nil =>
          rw [sought] at advances
          obtain ⟨pageNo, curRec, equal, stands⟩ := advances
          simp only [Option.some.injEq, Prod.mk.injEq] at equal
          obtain ⟨rfl, rfl, rfl⟩ := equal
          exact ⟨rfl, held, formed, pinned, stands⟩
      | cons rid later =>
          rw [sought] at advances
          obtain ⟨equal, stands⟩ := advances
          simp only [Option.some.injEq, Prod.mk.injEq] at equal
          obtain ⟨rfl, curNo, curRec⟩ := equal
          refine ⟨rfl, curRec, curNo, held, formed, pinned, ?_⟩
          rw [curNo, curRec]
          exact stands

theorem ScanAt.scan_next {scan : HeapFileScan}
    (scanAt : w.ScanAt scan rest others fileName lf chain todo) (tmpRid : RID) :
    Smoothly (scan.scanNext tmpRid) w fun result w' =>
      SameLogical w w' ∧ result.2.filePtr = scan.filePtr ∧
      result.2.headerPageNo = scan.headerPageNo ∧ result.2.filter = scan.filter ∧
      match lf.sought scan.filter todo with
      | [] => result.1 = .error .FILEEOF ∧
          w'.ScanAt result.2 rest others fileName lf chain []
      | rid :: later => result.1 = .ok rid ∧ result.2.curRec = rid ∧
          result.2.curPageNo = rid.pageNo ∧
          w'.ScanAt result.2 rest others fileName lf chain later :=
  (scanAt.holding.scan_next_here scanAt.pinned tmpRid).advances scanAt.formed
    (scanAt.formed.scan_next scanAt.stands)

theorem ScanAt.current {scan : HeapFileScan} {rec : Record}
    (scanAt : w.ScanAt scan rest others fileName lf chain todo)
    (onPage : scan.curPageNo = scan.curRec.pageNo)
    (live : lf.contents chain scan.curRec = some rec) :
    scan.current w = (.ok (.ok rec), w) := by
  obtain ⟨frame, cur⟩ := Option.isSome_iff_exists.mp scanAt.pinned
  simp only [HeapFileScan.current, cur]
  rw [page_at_bind, scanAt.holding.cur_data cur, onPage, scanAt.formed.get_contents live]
  rfl

theorem ScanAt.delete_record {scan : HeapFileScan}
    (scanAt : w.ScanAt scan rest others fileName lf chain todo)
    (onPage : scan.curPageNo = scan.curRec.pageNo)
    (live : (lf.contents chain scan.curRec).isSome) :
    ∃ scan' w' lf', scan.deleteRecord w = (.ok (.OK, scan'), w') ∧
      w'.ScanAt scan' rest others fileName lf' chain todo ∧
      lf'.contents chain = Function.update (lf.contents chain) scan.curRec none ∧
      scan'.filePtr = scan.filePtr ∧ scan'.headerPageNo = scan.headerPageNo ∧
      scan'.filter = scan.filter ∧ Touches w w' fileName lf' ∧ w'.bufFailed = w.bufFailed ∧
      lf'.firstPage = lf.firstPage := by
  obtain ⟨frame, cur⟩ := Option.isSome_iff_exists.mp scanAt.pinned
  obtain ⟨lf', deleted, formed', updated⟩ := scanAt.formed.delete_live live
  obtain ⟨w', run, held, writes, flag⟩ := scanAt.holding.delete_record cur
  rw [onPage, deleted] at run held writes
  refine ⟨_, w', lf', run, ⟨held, formed', scanAt.pinned, ?_⟩, updated, rfl, rfl, rfl,
    writes.touches, flag, ?_⟩
  · have stands := scanAt.stands
    rw [onPage] at stands
    exact stands.delete scanAt.formed.nodup updated
  · have first := lf.delete_record_first scan.headerPageNo scan.curRec.pageNo scan.curRec
    rw [deleted] at first
    exact first

theorem ScanAt.delete {scan : HeapFileScan}
    (scanAt : w.ScanAt scan rest others fileName lf chain todo)
    (owned : ∀ pin ∈ rest, pin.file ∈ others) :
    ∃ w', scan.delete w = (.ok (), w') ∧ w'.Storage rest others ∧ w'.logical = w.logical ∧
      (∀ file ∈ others, w'.nameOf file = w.nameOf file) ∧ w'.bufFailed = w.bufFailed := by
  have held : w.Holding (HeapObject.heapFileScan scan).base rest others fileName lf :=
    scanAt.holding
  obtain ⟨w₁, w', destroys⟩ := held.destroys owned
  refine ⟨w', destroys.deletes, destroys.storage,
    destroys.closes.logical.trans destroys.same.logical, ?_, destroys.bufFailed⟩
  intro file member
  rw [destroys.closes.names file member, destroys.same.nameOf]

structure InsertsAt (w : World) (scan : InsertFileScan) (rest : List Pin) (others : List FilePtr)
    (fileName : FileName) (lf : LogicalFile) (chain : List Int) : Prop where
  holding : w.Holding scan.reporting.toHeapFile rest others fileName lf
  formed : lf.HeapFormed scan.headerPageNo chain
  pinned : scan.curPage.isSome
  member : scan.curPageNo ∈ chain

def InsertFileScan.AtEnd (scan : InsertFileScan) (lf : LogicalFile) : Prop :=
  (lf.header scan.headerPageNo).lastPage = scan.curPageNo

theorem Storage.new_inserter (storage : w.Storage rest others)
    (logical : w.logical fileName = some lf) (formed : lf.HeapFormed lf.firstPage chain)
    (nonempty : fileName ≠ []) (mem : Uninit) :
    Smoothly (InsertFileScan.new mem fileName) w fun result w' =>
      ∃ scan, result = (.OK, some scan) ∧ w'.InsertsAt scan rest others fileName lf chain ∧
        InsertFileScan.AtEnd scan lf ∧ scan.headerPageNo = lf.firstPage ∧
        Constructs w w' others := by
  unfold InsertFileScan.new
  apply smoothly_bind
  · intro result
    repeat' first
      | exact keeps_pure _ | exact keeps_crash | exact header_at_keeps _
      | exact InsertFileScan.move_to_last_keeps _ _
      | apply keeps_bind | intro _ | split
  · apply (storage.new_heap logical nonempty mem).mono
    rintro result w₁ ⟨heap, rfl, held, headerNo, pinned, curNo, _, constructs⟩
    obtain ⟨frame, cur⟩ := Option.isSome_iff_exists.mp pinned
    have read : headerAt heap.headerPage w₁ = (.ok (lf.header lf.firstPage), w₁) := by
      rw [← headerNo, ← held.header_data]
      rfl
    apply smoothly_bind_eq read
    by_cases moves : heap.curPageNo ≠ (lf.header lf.firstPage).lastPage
    · rw [if_pos ⟨pinned, moves⟩]
      obtain ⟨w₂, unpinned, same₂, _, held₂⟩ := held.unpin cur heap.curDirtyFlag id
      have parked := held₂ { heap with curPage := none } rfl rfl
      obtain ⟨result, w₃, read, ended⟩ := parked.read rfl (lf.header lf.firstPage).lastPage
      apply smoothly_bind_eq unpinned
      rcases ended with ⟨status, rfl, failed, _⟩ | ⟨frame', rfl, _, same₃, _, _, held₃⟩
      · apply smoothly_of_failed
        rw [DbM.bind_ok read]
        exact failed
      · apply smoothly_bind_eq read
        refine smoothly_pure ⟨_, rfl, ⟨?_, ?_, rfl, formed.last_mem⟩, ?_, headerNo,
          (constructs.unseen same₂).unseen same₃⟩
        · exact (held₃ { heap with
            curPage := some frame', curPageNo := (lf.header lf.firstPage).lastPage
            curDirtyFlag := false } rfl rfl rfl).promise ⟨rfl, rfl, rfl⟩ ⟨rfl, rfl⟩ id fun _ => rfl
        · change lf.HeapFormed heap.headerPageNo chain
          rw [headerNo]
          exact formed
        · change (lf.header heap.headerPageNo).lastPage = _
          rw [headerNo]
    · rw [if_neg fun both => moves both.2]
      have last := not_not.mp moves
      refine smoothly_pure ⟨⟨heap⟩, rfl, ⟨?_, ?_, pinned, ?_⟩, ?_, headerNo, constructs⟩
      · exact held.promise ⟨rfl, rfl, rfl⟩ ⟨rfl, rfl⟩ id fun _ => rfl
      · change lf.HeapFormed heap.headerPageNo chain
        rw [headerNo]
        exact formed
      · change heap.curPageNo ∈ chain
        rw [last]
        exact formed.last_mem
      · change (lf.header heap.headerPageNo).lastPage = heap.curPageNo
        rw [headerNo, last]

theorem InsertsAt.insert_record {scan : InsertFileScan}
    (insertsAt : w.InsertsAt scan rest others fileName lf chain) {rec : Record}
    (nonempty : 1 ≤ rec.length)
    (room : (rec.length : Int) + SLOTSIZE ≤ (lf.data scan.curPageNo).freeSpace ∨
      InsertFileScan.AtEnd scan lf) :
    Smoothly (scan.insertRecord rec) w fun result w' =>
      ∃ lf' chain', w'.InsertsAt result.2 rest others fileName lf' chain' ∧
        result.2.headerPageNo = scan.headerPageNo ∧ result.2.filePtr = scan.filePtr ∧
        Touches w w' fileName lf' ∧
        (rec.length ≤ DATASIZE → ∃ image, lf.insertRecord scan.headerPageNo scan.curPageNo image
          rec = (result.1, lf', result.2.curPageNo)) ∧
        lf.Inserted lf' scan.headerPageNo scan.curPageNo result.2.curPageNo chain chain' rec
          result.1 := by
  obtain ⟨result, scan₁, w', run, outcome⟩ := insertsAt.holding.insert_record rec
  obtain ⟨scan', run', same⟩ := InsertFileScan.insert_record_of_reporting run
  have bases : scan'.reporting.toHeapFile = scan₁.reporting.toHeapFile :=
    congrArg InsertFileScan.toHeapFile same
  have curNo : scan'.reporting.curPageNo = scan₁.reporting.curPageNo := by rw [same]
  have cur : scan'.reporting.curPage = scan₁.reporting.curPage := by rw [same]
  have headerNo : scan'.reporting.headerPageNo = scan₁.reporting.headerPageNo := by rw [same]
  have file : scan'.reporting.filePtr = scan₁.reporting.filePtr := by rw [same]
  change scan'.curPageNo = scan₁.curPageNo at curNo
  change scan'.curPage = scan₁.curPage at cur
  change scan'.headerPageNo = scan₁.headerPageNo at headerNo
  rcases outcome with ⟨large, rfl, rfl, rfl⟩ | ⟨failed, _⟩ | ⟨small, ends, rfl, inserts⟩
  · apply smoothly_of_eq run'
    refine ⟨lf, chain, ⟨?_, ?_, ?_, ?_⟩, headerNo, file,
      (SameLogical.refl _).touches insertsAt.holding.logical,
      fun small => absurd large (Nat.not_lt_of_le small), ?_⟩
    · rw [bases]
      exact insertsAt.holding
    · rw [headerNo]
      exact insertsAt.formed
    · rw [cur]
      exact insertsAt.pinned
    · rw [curNo]
      exact insertsAt.member
    · rw [curNo]
      exact .refused insertsAt.formed insertsAt.member large
  · apply smoothly_of_failed
    rw [run']
    exact failed
  · apply smoothly_of_eq run'
    obtain ⟨image, source⟩ := inserts.source
    have onPage : InsertFileScan.insertPageNo scan.reporting lf = scan.curPageNo := by
      rw [InsertFileScan.insertPageNo, if_pos (show scan.reporting.curPage.isSome from
        insertsAt.pinned)]
      rfl
    rw [onPage] at source
    obtain ⟨result, lf', curNo', chain', inserted, effect⟩ :=
      insertsAt.formed.insert_record insertsAt.member nonempty room image
    have ended : ends = (result, lf', curNo') := source.trans inserted
    subst ended
    have stopped : scan'.curPageNo = curNo' := curNo.trans inserts.cursor.2
    have kept : scan'.headerPageNo = scan.headerPageNo := headerNo.trans inserts.header.1
    refine ⟨lf', chain', ⟨?_, ?_, ?_, ?_⟩, kept, file.trans inserts.header.2,
      inserts.writes.touches, fun _ => ⟨image, ?_⟩, ?_⟩
    · rw [bases]
      exact (inserts.held fun _ => rfl).promise ⟨rfl, rfl, rfl⟩ ⟨rfl, rfl⟩ id fun _ => rfl
    · rw [kept]
      exact effect.formed
    · rw [cur]
      exact inserts.cursor.1
    · rw [stopped]
      exact effect.member
    · rw [stopped]
      exact inserted
    · rw [stopped]
      exact effect

theorem InsertsAt.delete {scan : InsertFileScan}
    (insertsAt : w.InsertsAt scan rest others fileName lf chain)
    (owned : ∀ pin ∈ rest, pin.file ∈ others) :
    ∃ w', scan.delete w = (.ok (), w') ∧ w'.Storage rest others ∧ w'.logical = w.logical ∧
      (∀ file ∈ others, w'.nameOf file = w.nameOf file) ∧ w'.bufFailed = w.bufFailed := by
  have held : w.Holding (HeapObject.insertFileScan scan.reporting).base rest others fileName lf :=
    insertsAt.holding
  obtain ⟨w₁, w', destroys⟩ := held.destroys owned
  refine ⟨w', destroys.deletes, destroys.storage,
    destroys.closes.logical.trans destroys.same.logical, ?_, destroys.bufFailed⟩
  intro file member
  rw [destroys.closes.names file member, destroys.same.nameOf]

end World

end PrimitiveDB

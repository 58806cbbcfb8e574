import PrimitiveDB.CatalogLookups
import PrimitiveDB.HeapFilePins

/-!
# Database images

Databases written down as tables: a Unix file for every relation, with its tuples
on one data page, and a process that has just been started on them. These are the
worlds on which the statements about queries are tried out.
-/

namespace PrimitiveDB

open World

set_option autoImplicit false

def pageOf (records : List Record) : Page :=
  records.foldl (fun page rec => (page.insertRecord rec).2) (Page.zeroPage.init 2)

def heapImage (fileName : FileName) (records : List Record) : UnixFile :=
  { size := 3
    page := fun pageNo =>
      if pageNo = 0 then
        PageImage.zero.setDBPage { nextFree := -1, firstPage := 1, numPages := 3 }
      else if pageNo = 1 then
        PageImage.zero.setFileHdr
          { fileName := headerName fileName, firstPage := 2, lastPage := 2, pageCnt := 1
            recCnt := ((pageOf records).liveFrom 0).length }
      else .data (pageOf records) }

def tableFile (fileName : FileName) (records : List Record) : LogicalFile :=
  { size := 3
    firstPage := 1
    page := fun pageNo =>
      if 1 ≤ pageNo ∧ pageNo < 3 then (heapImage fileName records).page pageNo.toNat
      else PageImage.zero }

abbrev Table := FileName × List Record

def databaseOf (bufs : Nat) (tables : List Table) : World :=
  let disk (fileName : FileName) : Option UnixFile :=
    (tables.lookup fileName).map (heapImage fileName)
  { disk
    files := fun _ => none
    brk := 1
    malloc := fun _ => 0
    openFiles := { ht := ChainedTable.empty }
    bufMgr := BufMgr.new bufs
    faults := fun _ => false
    bufFailed := false
    given := fun fileName pageNo =>
      match disk fileName with
      | some contents =>
          if 1 ≤ pageNo ∧ pageNo < contents.size then some (contents.page pageNo.toNat) else none
      | none => none }

theorem DbM.run_of_value {α : Type} {call : DbM α} {w : World} {value : α}
    (result : (call w).1 = .ok value) : call w = (.ok value, (call w).2) :=
  Prod.ext result rfl

/-- Enough of the result to decide what it is shows that there is one. -/
theorem DbM.run_of_shown {α β : Type} {call : DbM α} {w : World} {look : α → β} {shown : β}
    (result : ((call >>= fun value => pure (look value)) w).1 = .ok shown) :
    ∃ value w', call w = (.ok value, w') ∧ look value = shown := by
  obtain ⟨value, w', run, ends⟩ := bind_eq_ok_iff.mp (run_of_value result)
  exact ⟨value, w', run, Outcome.ok.inj (congrArg Prod.fst ends)⟩

theorem database_just_started {bufs : Nat} (positive : 0 < bufs) (tables : List Table) :
    (databaseOf bufs tables).JustStarted where
  reliable := rfl
  pool := ⟨bufs, positive, rfl⟩
  files := rfl
  openFiles := rfl
  brk := Nat.one_pos
  stored := by
    intro fileName contents stored
    simp only [databaseOf, Option.map_eq_some_iff] at stored
    obtain ⟨records, _, rfl⟩ := stored
    exact ⟨Nat.succ_le_succ (Nat.zero_le _), rfl, rfl, List.nodup_nil⟩
  flag := rfl
  given := rfl

theorem page_of_well_formed {records : List Record} (nonempty : ∀ rec ∈ records, 1 ≤ rec.length)
    (page : Page) (wf : page.WellFormed) :
    let after := records.foldl (fun page rec => (page.insertRecord rec).2) page
    after.WellFormed ∧ after.nextPage = page.nextPage ∧ after.curPage = page.curPage := by
  induction records generalizing page with
  | nil => exact ⟨wf, rfl, rfl⟩
  | cons rec records ih =>
      have later := fun rec member => nonempty rec (List.mem_cons_of_mem _ member)
      rw [List.foldl_cons]
      by_cases fits : (rec.length : Int) + SLOTSIZE ≤ page.freeSpace
      · obtain ⟨_, after, inserted, wf', _, _, _, _, next, cur⟩ :=
          Page.insert_record_spec page wf rec (nonempty rec (by simp)) fits
        obtain ⟨wf'', next', cur'⟩ := ih later after wf'
        rw [inserted]
        exact ⟨wf'', next'.trans next, cur'.trans cur⟩
      · rw [Page.insert_record_no_space page rec fits]
        exact ih later page wf

theorem table_file_formed (fileName : FileName) {records : List Record}
    (nonempty : ∀ rec ∈ records, 1 ≤ rec.length) :
    (tableFile fileName records).HeapFormed 1 [2] := by
  have page : (tableFile fileName records).data 2 = pageOf records := rfl
  obtain ⟨wf, next, cur⟩ :=
    page_of_well_formed nonempty (Page.zeroPage.init 2) (Page.init_well_formed _ _)
  constructor
  · intro pageNo member
    simp only [List.mem_cons, List.not_mem_nil, or_false] at member
    rcases member with rfl | rfl
    · exact ⟨by decide, Int.lt_of_sub_pos (by decide : (0 : Int) < 3 - 1)⟩
    · exact ⟨by decide, Int.lt_of_sub_pos (by decide : (0 : Int) < 3 - 2)⟩
  · decide
  · change ((tableFile fileName records).data 2).getNextPage = -1
    rw [page]
    exact next
  · rfl
  · rfl
  · rfl
  · change (((pageOf records).liveFrom 0).length : Int) = _
    rw [LogicalFile.rids_singleton, LogicalFile.ridsFrom, List.length_map, page]
  · intro pageNo member
    obtain rfl := List.mem_singleton.mp member
    rw [page]
    exact ⟨wf, cur⟩

theorem database_stores (bufs : Nat) {tables : List Table} {fileName : FileName}
    {records : List Record} (listed : tables.lookup fileName = some records)
    (nonempty : ∀ rec ∈ records, 1 ≤ rec.length) :
    (databaseOf bufs tables).Stores fileName (tableFile fileName records) [2] := by
  refine ⟨?_, table_file_formed fileName nonempty⟩
  have stored : (databaseOf bufs tables).disk fileName = some (heapImage fileName records) := by
    simp [databaseOf, listed]
  rw [logical_eq_some stored]
  congr 1
  have closed : (databaseOf bufs tables).openFiles.find fileName = none :=
    ChainedTable.find_empty _
  have pages : ∀ pageNo, (databaseOf bufs tables).filePage fileName pageNo =
      (heapImage fileName records).page pageNo.toNat := by
    intro pageNo
    simp only [filePage, closed, stored]
  simp only [pages]
  rfl

def threeRecords : World := databaseOf 8 [([114], [[1], [2], [3]])]

theorem three_records_storage : threeRecords.Storage [] [] :=
  (database_just_started (by decide) _).storage

theorem three_records_stored :
    threeRecords.Stores [114] (tableFile [114] [[1], [2], [3]]) [2] :=
  database_stores 8 rfl (by decide)

end PrimitiveDB

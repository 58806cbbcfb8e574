import PrimitiveDB.FixedRows
import PrimitiveDB.InsertQueries
import PrimitiveDB.ScanRuns

/-!
# `UT_Load`

`load.C`. A file of binary rows is read row by row, and every row becomes a record of the
relation. `read` returns as many bytes as it is asked for until the file ends, so a row that is
cut off at the end is not loaded. Early returns leave the inserter and the file open. The
message is left out.
-/

namespace PrimitiveDB

open World DbM FixedRows

set_option autoImplicit false

/-- A Unix file that can be opened, and whether `close` succeeds. -/
structure DataFile where
  bytes : List ByteMemory.Byte
  closes : Bool

/-- The loop of `UT_Load`. Records of no bytes are read and inserted for ever. -/
def loadRows (width : Nat) : Nat → List ByteMemory.Byte → InsertFileScan →
    DbM (Except Status InsertFileScan)
  | 0, _, _ => DbM.crash
  | fuel + 1, data, iFile => do
      let record := data.take width
      if record.length ≠ width then pure (.ok iFile)
      else do
        match ← iFile.insertRecord record with
        | (.error status, _) => pure (.error status)
        | (.ok _, iFile) => loadRows width fuel (data.drop width) iFile

def UT_Load (mem : Uninit) (tmpRid : RID) (files : FileName → Option DataFile)
    (relation fileName : FileName) : DbM Status := do
  if relation = [] ∨ fileName = [] ∨ relation = RELCATNAME ∨ relation = ATTRCATNAME then
    pure .BADCATPARM
  else
  -- open Unix data file
  match files fileName with
  | none => pure .UNIXERR
  | some fd => do
  -- get relation data
  match ← RelCatalog.getInfo mem tmpRid relation with
  | .error status => pure status
  | .ok rd => do
  -- get attribute data
  match ← AttrCatalog.getRelInfo mem tmpRid rd.relName with
  | .error status => pure status
  | .ok attrs => do
  let (status, iFile) ← InsertFileScan.new mem rd.relName
  match iFile with
  | none => pure status
  | some iFile =>
  if status ≠ .OK then pure status
  else
  -- compute width of tuple
  let width := (attrs.map AttrDesc.attrLen).sum
  if width < 0 then DbM.crash
  else do
  match ← loadRows width.toNat (fd.bytes.length + 1) fd.bytes iFile with
  | .error status => pure status
  | .ok iFile => do
      iFile.delete
      pure (if fd.closes then .OK else .UNIXERR)

namespace HeapFileScan

/-- The calls of a client that reads all records: `scanNext` and `getRecord` until the end of
the file. -/
def readAll (tmpRid : RID) : Nat → List Record → HeapFileScan →
    DbM (Except Status (List Record))
  | 0, _, _ => DbM.crash
  | fuel + 1, recs, hfs => do
      match ← hfs.scanNext tmpRid with
      | (.error status, hfs) => do
          let _ ← hfs.finish
          pure (if status = .FILEEOF then .ok recs else .error status)
      | (.ok _, hfs) => do
          match ← hfs.current with
          | .error status => pure (.error status)
          | .ok rec => readAll tmpRid fuel (recs ++ [rec]) hfs

def readRecords (mem : Uninit) (tmpRid : RID) (fileName : FileName) :
    DbM (Except Status (List Record)) := do
  match ← HeapFileScan.new mem fileName with
  | .error status => pure (.error status)
  | .ok hfs => do
      let (status, hfs) := hfs.startScan 0 0 .STRING none .EQ
      if status ≠ .OK then pure (.error status)
      else do
        let fuel ← AttrCatalog.searchFuel hfs
        readAll tmpRid fuel [] hfs

theorem read_all_keeps (tmpRid : RID) (fuel : Nat) (recs : List Record) (hfs : HeapFileScan) :
    KeepsFlag (readAll tmpRid fuel recs hfs) := by
  induction fuel generalizing recs hfs with
  | zero => exact keeps_crash
  | succ fuel ih =>
      unfold readAll
      repeat' first
        | exact keeps_pure _ | exact scan_next_keeps _ _ | exact current_keeps _
        | exact finish_keeps _ | exact ih _ _
        | apply keeps_bind | intro _ | split

theorem read_records_keeps (mem : Uninit) (tmpRid : RID) (fileName : FileName) :
    KeepsFlag (readRecords mem tmpRid fileName) := by
  unfold readRecords
  repeat' first
    | exact keeps_pure _ | exact keeps_read _ | exact HeapFileScan.new_keeps _ _
    | exact read_all_keeps _ _ _ _
    | apply keeps_bind | intro _ | split

end HeapFileScan

section Reading

variable {w : World} {rest : List Pin} {others : List FilePtr} {fileName : FileName}
  {lf : LogicalFile} {chain : List Int}

theorem World.ScanAt.read_all (fuel : Nat) {hfs : HeapFileScan} {todo : List RID}
    (scanAt : w.ScanAt hfs rest others fileName lf chain todo)
    (owned : ∀ pin ∈ rest, pin.file ∈ others) (tmpRid : RID) (recs : List Record)
    (enough : todo.length < fuel) :
    Smoothly (HeapFileScan.readAll tmpRid fuel recs hfs) w fun result w' =>
      result = .ok (recs ++ (lf.recordsAt todo).filter (ScanFilter.matchRec hfs.filter)) ∧
        ∃ w₁, SameLogical w w₁ ∧ Undisturbed w₁ w' rest others := by
  induction fuel generalizing w hfs todo recs with
  | zero => exact absurd enough (Nat.not_lt_zero _)
  | succ fuel ih =>
      unfold HeapFileScan.readAll
      apply smoothly_bind
      · intro result
        repeat' first
          | exact keeps_pure _ | exact HeapFileScan.current_keeps _
          | exact HeapFileScan.finish_keeps _ | exact HeapFileScan.read_all_keeps _ _ _ _
          | apply keeps_bind | intro _ | split
      · apply (scanAt.next_record tmpRid).mono
        rintro ⟨result, hfs₁⟩ w₁ ⟨same, filter, _, _, outcome⟩
        rcases outcome with ⟨rfl, scanAt₁, none_⟩ |
          ⟨rid, rec, later, rfl, _, scanAt₁, live, current, _, shorter, split⟩
        · obtain ⟨w₂, finishes, undisturbed⟩ := scanAt₁.finish owned
          dsimp only
          apply smoothly_bind_eq finishes
          apply smoothly_pure
          rw [none_, List.append_nil, if_pos rfl]
          exact ⟨rfl, w₁, same, undisturbed⟩
        · rw [split]
          dsimp only at filter scanAt₁ current
          apply smoothly_bind_eq current
          dsimp only
          apply (ih scanAt₁ (recs ++ [rec]) (by omega)).mono
          rintro result w₂ ⟨rfl, w₃, same₃, undisturbed⟩
          rw [filter, List.append_assoc, List.singleton_append]
          exact ⟨rfl, w₃, same.trans same₃, undisturbed⟩

theorem filter_unfiltered (recs : List Record) :
    recs.filter (ScanFilter.matchRec none) = recs :=
  List.filter_eq_self.mpr fun _ _ => rfl

theorem World.Storage.read_records (storage : w.Storage rest others)
    (owned : ∀ pin ∈ rest, pin.file ∈ others) (stores : w.Stores fileName lf chain)
    (named : fileName ≠ []) (mem : Uninit) (tmpRid : RID) :
    Smoothly (HeapFileScan.readRecords mem tmpRid fileName) w fun result w' =>
      result = .ok (lf.tuples chain) ∧ Undisturbed w w' rest others := by
  unfold HeapFileScan.readRecords
  apply smoothly_bind
  · intro result
    repeat' first
      | exact keeps_pure _ | exact keeps_read _ | exact HeapFileScan.read_all_keeps _ _ _ _
      | apply keeps_bind | intro _ | split
  · apply (storage.new_scan stores.logical stores.formed named mem).mono
    rintro result w₁ ⟨hfs, rfl, scanAt, _, unfiltered, constructs⟩
    have started : hfs.startScan 0 0 .STRING none .EQ = (.OK, { hfs with filter := none }) := by
      unfold HeapFileScan.startScan
      rw [unfiltered]
      rfl
    have scanAt' := scanAt.start none
    dsimp only
    rw [started]
    dsimp only
    rw [if_neg (not_not.mpr rfl)]
    apply smoothly_bind_eq scanAt'.search_fuel
    apply (scanAt'.read_all _ owned tmpRid [] scanAt'.formed.rids_lt).mono
    rintro result w₂ ⟨rfl, w₃, same, undisturbed⟩
    refine ⟨?_, constructs.between same undisturbed⟩
    rw [List.nil_append, filter_unfiltered]
    rfl

end Reading

theorem AttrCatalog.get_rel_info_keeps (mem : Uninit) (tmpRid : RID) (relation : FileName) :
    KeepsFlag (AttrCatalog.getRelInfo mem tmpRid relation) := by
  unfold AttrCatalog.getRelInfo
  repeat' first
    | exact keeps_pure _ | exact keeps_read _ | exact HeapFileScan.new_keeps _ _
    | exact HeapFileScan.delete_keeps _ | exact AttrCatalog.collect_keeps _ _ _ _
    | exact HeapFileScan.finish_keeps _
    | apply keeps_bind | intro _ | split

theorem RelCatalog.get_info_keeps (mem : Uninit) (tmpRid : RID) (relation : FileName) :
    KeepsFlag (RelCatalog.getInfo mem tmpRid relation) := by
  unfold RelCatalog.getInfo
  repeat' first
    | exact keeps_pure _ | exact keeps_crash | exact HeapFileScan.new_keeps _ _
    | exact HeapFileScan.scan_next_keeps _ _
    | exact HeapFileScan.current_keeps _ | exact HeapFileScan.finish_keeps _
    | exact HeapFileScan.delete_keeps _
    | apply keeps_bind | intro _ | split

theorem load_rows_keeps (width fuel : Nat) (data : List ByteMemory.Byte) (iFile : InsertFileScan) :
    KeepsFlag (loadRows width fuel data iFile) := by
  induction fuel generalizing data iFile with
  | zero => exact keeps_crash
  | succ fuel ih =>
      unfold loadRows
      repeat' first
        | exact keeps_pure _ | exact InsertFileScan.insert_record_keeps _ _ | exact ih _ _
        | apply keeps_bind | intro _ | split | dsimp only

theorem ut_load_keeps (mem : Uninit) (tmpRid : RID) (files : FileName → Option DataFile)
    (relation fileName : FileName) : KeepsFlag (UT_Load mem tmpRid files relation fileName) := by
  unfold UT_Load
  repeat' first
    | exact keeps_pure _ | exact keeps_crash | exact RelCatalog.get_info_keeps _ _ _
    | exact AttrCatalog.get_rel_info_keeps _ _ _ | exact InsertFileScan.new_keeps _ _
    | exact load_rows_keeps _ _ _ _ | exact InsertFileScan.delete_keeps _
    | apply keeps_bind | intro _ | split | dsimp only

section Loading

variable {w : World} {pins : List Pin} {opens : List FilePtr} {relation : FileName}
  {lf : LogicalFile} {chain : List Int}

/-- The loop inserts the whole rows of the file one behind the other. -/
theorem World.InsertsAt.load_rows {width : Nat} (positive : 0 < width) (narrow : width ≤ 1000)
    (fuel : Nat) {scan : InsertFileScan} {data : List ByteMemory.Byte}
    (insertsAt : w.InsertsAt scan pins opens relation lf chain)
    (atEnd : InsertFileScan.AtEnd scan lf) (first : lf.firstPage = scan.headerPageNo)
    (enough : data.length < fuel) :
    Smoothly (loadRows width fuel data scan) w fun result w' =>
      ∃ scan' lf' chain', result = .ok scan' ∧
        w'.InsertsAt scan' pins opens relation lf' chain' ∧
        scan'.headerPageNo = scan.headerPageNo ∧ lf'.firstPage = scan.headerPageNo ∧
        Touches w w' relation lf' ∧
        lf.Appended lf' scan.headerPageNo chain chain' (wholeRows width data) := by
  induction fuel generalizing w scan data lf chain with
  | zero => exact absurd enough (Nat.not_lt_zero _)
  | succ fuel ih =>
      unfold loadRows
      by_cases whole : width ≤ data.length
      · have length : (data.take width).length = width := by
          rw [List.length_take]
          omega
        dsimp only
        rw [if_neg (not_not.mpr length)]
        apply smoothly_bind
        · intro result
          repeat' first
            | exact keeps_pure _ | exact load_rows_keeps _ _ _ _ | split
        · apply (insertsAt.insert_record (by omega) (.inr atEnd)).mono
          rintro ⟨result, scan₁⟩ w₁ ⟨lf₁, chain₁, insertsAt₁, headerNo, _, touches, _, inserted⟩
          have fits : (data.take width).length + SLOTSIZE ≤ DATASIZE := by
            rw [length]
            exact (Nat.add_le_add_right narrow _).trans (by decide)
          obtain ⟨rid, rfl⟩ := inserted.accepts fits
          dsimp only at headerNo insertsAt₁ ⊢
          have atEnd₁ : InsertFileScan.AtEnd scan₁ lf₁ := by
            unfold InsertFileScan.AtEnd
            rw [headerNo]
            exact inserted.atEnd atEnd
          have first₁ : lf₁.firstPage = scan₁.headerPageNo := by
            rw [headerNo]
            exact inserted.first first
          have shorter : (data.drop width).length < fuel := by
            rw [List.length_drop]
            omega
          apply (ih insertsAt₁ atEnd₁ first₁ shorter).mono
          rintro result w₂ ⟨scan₂, lf₂, chain₂, rfl, insertsAt₂, headerNo₂, first₂, touches₂,
            appended₂⟩
          rw [headerNo] at headerNo₂ first₂ appended₂
          refine ⟨scan₂, lf₂, chain₂, rfl, insertsAt₂, headerNo₂, first₂, touches.trans touches₂, ?_⟩
          rw [whole_rows_cons positive whole]
          exact (inserted.appended insertsAt.formed atEnd).trans appended₂
      · -- what is left is shorter than a row
        have short : data.length < width := Nat.lt_of_not_le whole
        have length : (data.take width).length ≠ width := by
          rw [List.length_take]
          omega
        dsimp only
        rw [if_pos length, whole_rows_short short]
        apply smoothly_pure
        exact ⟨scan, lf, chain, rfl, insertsAt, rfl, first,
          (SameLogical.refl w).touches insertsAt.holding.logical, .refl lf _ chain⟩

structure Loadable (w : World) (relLf attrLf : LogicalFile) (relChain attrChain : List Int)
    (relation : FileName) (lf : LogicalFile) (chain : List Int) (width : Nat) : Prop where
  relStores : w.Stores RELCATNAME relLf relChain
  attrStores : w.Stores ATTRCATNAME attrLf attrChain
  relSized : ∀ rec ∈ relLf.tuples relChain, rec.length = RelDesc.size
  attrSized : ∀ rec ∈ attrLf.tuples attrChain, rec.length = AttrDesc.size
  proper : ProperName relation
  user : relation ≠ RELCATNAME ∧ relation ≠ ATTRCATNAME
  listed : ∃ rec ∈ relLf.tuples relChain, cString rec = relation
  stores : w.Stores relation lf chain
  summed : ((AttrCatalog.describe (attrLf.tuples attrChain) relation).map AttrDesc.attrLen).sum =
    (width : Int)
  positive : 0 < width
  narrow : width ≤ 1000

theorem World.Storage.ut_load_ends (storage : w.Storage pins opens)
    (owned : ∀ pin ∈ pins, pin.file ∈ opens) {relLf attrLf : LogicalFile}
    {relChain attrChain : List Int} {width : Nat}
    (loadable : Loadable w relLf attrLf relChain attrChain relation lf chain width)
    {files : FileName → Option DataFile} {fileName : FileName} {fd : DataFile}
    (named : fileName ≠ []) (found : files fileName = some fd) (mem : Uninit) (tmpRid : RID) :
    Smoothly (UT_Load mem tmpRid files relation fileName) w fun status w' =>
      status = (if fd.closes then .OK else .UNIXERR) ∧ w'.Storage pins opens ∧
        (∀ file ∈ opens, w'.nameOf file = w.nameOf file) ∧
        ∃ lf' chain', w'.logical = Function.update w.logical relation (some lf') ∧
          w'.Stores relation lf' chain' ∧
          lf.Appended lf' lf.firstPage chain chain' (wholeRows width fd.bytes) := by
  have proper := loadable.proper
  unfold UT_Load
  rw [if_neg (by simp [proper.nonempty, named, loadable.user]), found]
  dsimp only
  apply smoothly_bind
  · intro result
    repeat' first
      | exact keeps_pure _ | exact keeps_crash | exact AttrCatalog.get_rel_info_keeps _ _ _
      | exact InsertFileScan.new_keeps _ _ | exact load_rows_keeps _ _ _ _
      | exact InsertFileScan.delete_keeps _
      | apply keeps_bind | intro _ | split
  apply (storage.rel_get_info owned loadable.relStores loadable.relSized proper mem tmpRid).mono
  rintro result w₁ ⟨undisturbed₁, rfl⟩
  obtain ⟨listing, member, equal⟩ := loadable.listed
  cases described : (relLf.tuples relChain).find? fun rec => cString rec = relation with
  | none =>
      have different := List.find?_eq_none.mp described listing member
      simp [equal] at different
  | some rec =>
      have same : (RelDesc.ofRecord rec).relName = relation := by
        simpa [RelDesc.ofRecord] using List.find?_some described
      dsimp only
      rw [same]
      apply smoothly_bind
      · intro result
        repeat' first
          | exact keeps_pure _ | exact keeps_crash | exact InsertFileScan.new_keeps _ _
          | exact load_rows_keeps _ _ _ _ | exact InsertFileScan.delete_keeps _
          | apply keeps_bind | intro _ | split
      apply (undisturbed₁.storage.attr_get_rel_info owned
        (undisturbed₁.stores loadable.attrStores) loadable.attrSized proper mem tmpRid).mono
      rintro result w₂ ⟨undisturbed₂, rfl⟩
      have nonempty : AttrCatalog.describe (attrLf.tuples attrChain) relation ≠ [] := by
        intro empty
        have summed := loadable.summed
        have positive := loadable.positive
        rw [empty, List.map_nil, List.sum_nil] at summed
        omega
      rw [if_neg nonempty]
      dsimp only
      have stores₂ := undisturbed₂.stores (undisturbed₁.stores loadable.stores)
      apply smoothly_bind
      · intro result
        repeat' first
          | exact keeps_pure _ | exact keeps_crash | exact load_rows_keeps _ _ _ _
          | exact InsertFileScan.delete_keeps _
          | apply keeps_bind | intro _ | split
      apply (undisturbed₂.storage.new_inserter stores₂.logical stores₂.formed proper.nonempty
        mem).mono
      rintro result w₃ ⟨scan, rfl, insertsAt, atEnd, headerNo, constructs⟩
      dsimp only
      rw [if_neg (not_not.mpr rfl), loadable.summed, if_neg (by omega)]
      apply smoothly_bind
      · intro result
        repeat' first
          | exact keeps_pure _ | exact InsertFileScan.delete_keeps _
          | apply keeps_bind | intro _ | split
      apply (insertsAt.load_rows loadable.positive loadable.narrow _ atEnd headerNo.symm
        (Nat.lt_succ_self _)).mono
      rintro result w₄ ⟨scan', lf', chain', rfl, insertsAt', headerNo', first, touches, appended⟩
      obtain ⟨w₅, run, storage₅, logical, names, _⟩ := insertsAt'.delete owned
      dsimp only
      apply smoothly_bind_eq run
      have changed : w₅.logical = Function.update w.logical relation (some lf') := by
        rw [logical, touches.logical, constructs.logical, undisturbed₂.logical,
          undisturbed₁.logical]
      rw [headerNo] at appended first
      refine smoothly_pure ⟨rfl, storage₅, ?_, lf', chain', changed, ⟨?_, ?_⟩, appended⟩
      · intro file member
        rw [names file member, touches.names, constructs.names file member,
          undisturbed₂.names file member, undisturbed₁.names file member]
      · rw [changed, Function.update_self]
      · have formed := insertsAt'.formed
        rw [headerNo', headerNo, ← first] at formed
        exact formed

theorem World.Storage.ut_load (storage : w.Storage pins opens)
    (owned : ∀ pin ∈ pins, pin.file ∈ opens) {relLf attrLf : LogicalFile}
    {relChain attrChain : List Int} {width : Nat}
    (loadable : Loadable w relLf attrLf relChain attrChain relation lf chain width)
    {files : FileName → Option DataFile} {fileName : FileName} {fd : DataFile}
    (named : fileName ≠ []) (found : files fileName = some fd) (mem : Uninit) (tmpRid : RID) :
    Smoothly (UT_Load mem tmpRid files relation fileName) w fun status w' =>
      status = (if fd.closes then .OK else .UNIXERR) ∧ w'.Storage pins opens ∧
        ∃ lf' chain', w'.logical = Function.update w.logical relation (some lf') ∧
          w'.Stores relation lf' chain' ∧
          lf.Appended lf' lf.firstPage chain chain' (wholeRows width fd.bytes) := by
  apply (storage.ut_load_ends owned loadable named found mem tmpRid).mono
  rintro status w' ⟨answer, storage', _, stored⟩
  exact ⟨answer, storage', stored⟩

end Loading

end PrimitiveDB

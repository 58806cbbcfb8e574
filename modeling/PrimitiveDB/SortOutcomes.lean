import PrimitiveDB.SortedFile
import PrimitiveDB.ScanMarks
import PrimitiveDB.CreationFailures
import PrimitiveDB.BrokenScans

/-!
# What the sort returns

A run file is created and destroyed again to make sure that it does not exist, and then opened
by `InsertFileScan`, which does not create files. So no run is ever generated: the constructor
reports `OK` only for a file without records.
-/

namespace PrimitiveDB

open BufMgr World

set_option autoImplicit false

namespace World

variable {w w' : World} {fileName : FileName}

theorem create_file_inv {outcome : Outcome Unit} (run : DB.createFile fileName w = (outcome, w')) :
    (∃ status, outcome = .err status ∧ status ≠ .OK) ∨
      (outcome = .ok () ∧ fileName ≠ [] ∧ w'.openFiles.find fileName = none) := by
  by_cases makes : w.MakesFile fileName
  · by_cases fault : w.faults 1 = true ∨ w.faults 2 = true
    · obtain ⟨status, w₁, failed, bad, _⟩ := makes.create_file_fails fault
      rw [failed] at run
      cases run
      exact .inl ⟨status, rfl, bad⟩
    · push Not at fault
      obtain ⟨w₁, made, same, _⟩ := makes.create_file_ok (by simpa using fault.1)
        (by simpa using fault.2)
      rw [made] at run
      cases run
      refine .inr ⟨rfl, makes.nonempty, ?_⟩
      rw [same.openFiles]
      exact makes.unopened
  · obtain ⟨status, w₁, failed, bad, _⟩ := create_file_refused makes
    rw [failed] at run
    cases run
    exact .inl ⟨status, rfl, bad⟩

theorem destroy_eq (w : World) (fileName : FileName) :
    File.destroy fileName w =
      if w.faults 0 = true ∨ w.disk fileName = none then (.err .UNIXERR, w.tick)
      else (.ok (), w.tick.unlink fileName) := by
  have disk : w.tick.disk fileName = w.disk fileName := rfl
  cases fault : w.faults 0 <;> cases stored : w.disk fileName <;>
    simp [File.destroy, DbM.bind_apply, DbM.systemCall, fault, DbM.fail, DbM.read, disk, stored,
      DbM.modify]

theorem destroy_file_inv {outcome : Outcome Unit}
    (run : DB.destroyFile fileName w = (outcome, w')) :
    (∃ status, outcome = .err status ∧ status ≠ .OK) ∨
      (outcome = .ok () ∧ w'.disk fileName = none ∧ w'.openFiles = w.openFiles) := by
  unfold DB.destroyFile at run
  split_ifs at run
  · cases run
    exact .inl ⟨.BADFILE, rfl, by simp⟩
  · rw [DbM.read_bind] at run
    cases found : w.openFiles.find fileName with
    | some file =>
        rw [found] at run
        cases run
        exact .inl ⟨.FILEOPEN, rfl, by simp⟩
    | none =>
        rw [found] at run
        dsimp only at run
        rw [destroy_eq] at run
        split_ifs at run
        · cases run
          exact .inl ⟨.UNIXERR, rfl, by simp⟩
        · cases run
          exact .inr ⟨rfl, by simp [unlink, setDisk], rfl⟩

end World

namespace SortedFile

variable {w w' : World} {mem : Uninit} {tmpRid : RID} {qsort : Qsort}

theorem insert_scan_missing {fileName : FileName} {status : Status}
    {object : Option InsertFileScan} (nonempty : fileName ≠ [])
    (closed : w.openFiles.find fileName = none) (missing : w.disk fileName = none)
    (run : InsertFileScan.new mem fileName w = (.ok (status, object), w')) : status ≠ .OK := by
  have fails : DB.openFile fileName w = (.err .UNIXERR, w.withObject none) := by
    rw [open_file_first nonempty closed, if_pos (.inr missing)]
  unfold InsertFileScan.new at run
  rw [DbM.bind_ok (HeapFile.new_open_fails mem fails)] at run
  dsimp only at run
  split_ifs at run
  · cases run
  · cases run
    simp

theorem generate_run_fails {buffer : List SortRec} {file file' : SortedFile} {status : Status}
    (run : file.generateRun mem qsort buffer w = (.ok (status, file'), w')) : status ≠ .OK := by
  unfold generateRun at run
  dsimp only at run
  obtain ⟨created, w₁, create, run⟩ := DbM.bind_eq_ok_iff.mp run
  rcases made : DB.createFile (runName file.fileName (file.runs.length + 1)) w with ⟨outcome, w₂⟩
  rw [DbM.attempt, made] at create
  rcases create_file_inv made with ⟨refused, rfl, bad⟩ | ⟨rfl, nonempty, unopened⟩
  · cases create
    cases run
    exact bad
  cases create
  dsimp only at run
  obtain ⟨destroyed, w₃, destroy, run⟩ := DbM.bind_eq_ok_iff.mp run
  rcases removed : DB.destroyFile (runName file.fileName (file.runs.length + 1)) w₁ with
    ⟨outcome, w₄⟩
  rw [DbM.attempt, removed] at destroy
  rcases destroy_file_inv removed with ⟨refused, rfl, bad⟩ | ⟨rfl, missing, openFiles⟩
  · cases destroy
    cases run
    exact bad
  cases destroy
  dsimp only at run
  obtain ⟨⟨opened, object⟩, w₅, insert, run⟩ := DbM.bind_eq_ok_iff.mp run
  have bad : opened ≠ .OK := by
    apply insert_scan_missing nonempty _ missing insert
    rw [openFiles]
    exact unopened
  cases opened with
  | OK => exact absurd rfl bad
  | _ =>
      cases run
      exact bad

/-- With a record in front of the scan, the buffer does not stay empty. -/
theorem fill_buffer_nonempty {offset length : Int} {room : Nat} {hfs next hfs' : HeapFileScan}
    {rid : RID} {w₁ : World} {items : List SortRec}
    (found : hfs.scanNext tmpRid w = (.ok (.ok rid, next), w₁))
    (run : fillBuffer tmpRid offset length (room + 1) hfs w = (.ok (.ok items, hfs'), w')) :
    items ≠ [] := by
  unfold fillBuffer at run
  rw [DbM.bind_ok found] at run
  dsimp only at run
  obtain ⟨current, w₂, read, run⟩ := DbM.bind_eq_ok_iff.mp run
  cases current with
  | error status => cases run
  | ok rec =>
      dsimp only at run
      obtain ⟨⟨rest, last⟩, w₃, filled, run⟩ := DbM.bind_eq_ok_iff.mp run
      cases rest with
      | error status => cases run
      | ok rest =>
          cases run
          simp

theorem current_code {hfs : HeapFileScan} {status : Status}
    (run : hfs.current w = (.ok (.error status), w')) : status ∈ faultCodes := by
  unfold HeapFileScan.current at run
  cases cur : hfs.curPage with
  | none =>
      rw [cur] at run
      cases run
  | some frame =>
      rw [cur] at run
      dsimp only at run
      rw [page_at_bind] at run
      have refused : (w.bufMgr.bufPool frame).asPage.getRecord hfs.curRec = .error status := by
        have returned := congrArg Prod.fst run
        exact Outcome.ok.inj returned
      exact HeapFileScan.code_get_record refused

theorem fill_buffer_status {offset length : Int} {room : Nat} {hfs hfs' : HeapFileScan}
    {status : Status}
    (run : fillBuffer tmpRid offset length room hfs w = (.ok (.error status, hfs'), w')) :
    status ≠ .OK := by
  have codes : Status.OK ∉ faultCodes := by decide
  induction room generalizing w hfs with
  | zero => cases run
  | succ room ih =>
      unfold fillBuffer at run
      obtain ⟨⟨next, scan⟩, w₁, called, run⟩ := DbM.bind_eq_ok_iff.mp run
      cases next with
      | error stopped =>
          dsimp only at run
          split_ifs at run with ended
          · cases run
          · cases run
            rintro rfl
            rcases HeapFileScan.scan_next_tells called with ⟨_, code, listed, same⟩ |
              ⟨_, same | ⟨_, same⟩⟩
            · cases same
              exact codes listed
            · cases same
            · cases same
      | ok rid =>
          dsimp only at run
          obtain ⟨current, w₂, read, run⟩ := DbM.bind_eq_ok_iff.mp run
          cases current with
          | error refused =>
              cases run
              rintro rfl
              exact codes (current_code read)
          | ok rec =>
              dsimp only at run
              obtain ⟨⟨rest, last⟩, w₃, filled, run⟩ := DbM.bind_eq_ok_iff.mp run
              cases rest with
              | error stopped =>
                  cases run
                  exact ih filled
              | ok rest => cases run

theorem sort_loop_ok {fuel : Nat} {hfs hfs' : HeapFileScan} {file file' : SortedFile}
    (run : sortLoop mem tmpRid qsort fuel hfs file w = (.ok (.OK, hfs', file'), w')) :
    fillBuffer tmpRid file.offset file.length file.maxItems.toNat hfs w =
      (.ok (.ok [], hfs'), w') ∧ file' = file := by
  cases fuel with
  | zero => cases run
  | succ fuel =>
      unfold sortLoop at run
      obtain ⟨⟨buffer, scan⟩, w₁, filled, run⟩ := DbM.bind_eq_ok_iff.mp run
      dsimp only at run
      match buffer with
      | .error status =>
          cases run
          exact absurd rfl (fill_buffer_status filled)
      | .ok [] =>
          cases run
          exact ⟨filled, rfl⟩
      | .ok (item :: items) =>
          dsimp only at run
          obtain ⟨⟨status, more⟩, w₂, generated, run⟩ := DbM.bind_eq_ok_iff.mp run
          have bad := generate_run_fails generated
          dsimp only at run
          rw [if_pos bad] at run
          cases run
          exact absurd rfl bad

end SortedFile

namespace World

variable {w : World} {rest : List Pin} {others : List FilePtr} {fileName : FileName}
  {lf : LogicalFile} {chain : List Int}

theorem spare_of_free {frame : Nat} {pins : List Pin} (pin : Pin)
    (member : frame ∈ w.freeFrames pins) (different : frame ≠ pin.frame) :
    w.Spare (pin :: pins) := by
  simp only [freeFrames, List.mem_filter, List.mem_range, decide_eq_true_eq] at member
  refine ⟨frame, member.1, ?_⟩
  rw [pins_on_cons, member.2]
  simp [Ne.symm different]

theorem spare_of_two {pins : List Pin} (frames : 2 ≤ (w.freeFrames pins).length) (pin : Pin) :
    w.Spare (pin :: pins) := by
  obtain ⟨frame, member, different⟩ := free_frame_apart frames pin.frame
  exact spare_of_free pin member different

theorem Storage.new_heap_returns (storage : w.Storage rest others)
    (stores : w.Stores fileName lf chain) (nonempty : fileName ≠ [])
    (frames : 2 ≤ (w.freeFrames rest).length) (mem : Uninit) (w' : World) :
    HeapFile.new mem fileName w ≠ (.crash, w') := by
  intro crashes
  obtain ⟨file, w₁, opened, storage₁, opens⟩ := storage.open_file nonempty stores.logical
  have logical₁ : w₁.logical fileName = some lf := by
    rw [opens.logical]
    exact stores.logical
  have first := storage₁.get_first_page opens.name logical₁
  have header : HeapFile.findHeader mem file w₁ = (.ok lf.firstPage, w₁) := by
    unfold HeapFile.findHeader
    rw [DbM.bind_ok (attempt_ok first)]
    rfl
  have inside : lf.Inside lf.firstPage := stores.formed.inside _ List.mem_cons_self
  have room : w₁.HasRoom rest file lf.firstPage := by
    obtain ⟨frame, member⟩ := List.exists_mem_of_length_pos (Nat.zero_lt_of_lt frames)
    simp only [freeFrames, List.mem_filter, List.mem_range, decide_eq_true_eq] at member
    refine .inr ⟨frame, ?_, member.2⟩
    rw [opens.pool]
    exact member.1
  unfold HeapFile.new at crashes
  rw [DbM.bind_ok (attempt_ok opened)] at crashes
  dsimp only at crashes
  rw [DbM.bind_ok header] at crashes
  obtain ⟨result, w₂, read, outcome⟩ := storage₁.read_page opens.name logical₁ lf.firstPage
  rw [DbM.bind_ok read] at crashes
  rcases outcome with ⟨status, rfl, _, within⟩ | ⟨frame, rfl, _, storage₂, same₂, _, _⟩
  · exact (within inside).2.2 room
  · dsimp only at crashes
    rw [header_at_bind] at crashes
    have named : w₂.nameOf file = some fileName := by
      rw [same₂.nameOf]
      exact opens.name
    have logical₂ : w₂.logical fileName = some lf := by
      rw [same₂.logical]
      exact logical₁
    obtain ⟨data, w₃, readData, _⟩ := storage₂.read_page named logical₂
      (w₂.bufMgr.bufPool frame).asFileHdr.firstPage
    rw [DbM.bind_ok readData] at crashes
    cases data <;> cases crashes

theorem Storage.new_scan_spared (storage : w.Storage rest others)
    (stores : w.Stores fileName lf chain) (nonempty : fileName ≠ [])
    (frames : 2 ≤ (w.freeFrames rest).length) (calm : w.bufFailed = false) (mem : Uninit) :
    ∃ scan w', HeapFileScan.new mem fileName w = (.ok (.ok scan), w') ∧
      scan.filter = none ∧ w'.ScanAt scan rest others fileName lf chain (lf.rids chain) ∧
      w'.Spare (scan.headerPin :: rest) ∧ w'.bufFailed = false ∧ w'.logical = w.logical := by
  have flag : (HeapFileScan.new mem fileName w).2.bufFailed = false := by
    unfold HeapFileScan.new
    rw [DbM.bind_apply]
    rcases storage.new_heap_file mem fileName with ⟨status, w₁, run, _, _, flag⟩ | ⟨w₁, run, _⟩ |
      ⟨lf', heap, w₁, run, logical, _, headerNo, _, curNo, _, _, ⟨_, _, full⟩ | ⟨flag, _⟩⟩
    · rw [run]
      exact flag.trans calm
    · exact absurd run (storage.new_heap_returns stores nonempty frames mem w₁)
    · exfalso
      rw [stores.logical] at logical
      cases logical
      obtain ⟨pages, split⟩ := stores.formed.chain_cons
      have inside : lf.Inside heap.curPageNo := by
        rw [curNo]
        apply stores.formed.inside
        rw [split]
        simp
      exact (full inside).1 (.inr (.inl frames))
    · rw [run]
      exact flag.trans calm
  obtain ⟨_, w', run, scan, rfl, scanAt, _, filter, constructs⟩ :=
    storage.new_scan stores.logical stores.formed nonempty mem flag
  rw [run] at flag
  refine ⟨scan, w', run, filter, scanAt, ?_, flag, constructs.logical⟩
  obtain ⟨frame, bound, free⟩ := spare_of_two frames scan.headerPin
  refine ⟨frame, ?_, free⟩
  rw [constructs.numBufs]
  exact bound

end World

namespace SortedFile

open ScanFilter ByteMemory

variable {w : World} {rest : List Pin} {others : List FilePtr} {fileName : FileName}
  {lf : LogicalFile} {chain : List Int} {offset length maxItems : Int} {type : Datatype}

def nextAll (tmpRid : RID) : Nat → SortedFile → DbM (List (Except Status Record) × SortedFile)
  | 0, file => pure ([], file)
  | count + 1, file => do
      let (result, file) ← file.next tmpRid
      let (results, file) ← nextAll tmpRid count file
      pure (result :: results, file)

def FieldLe (type : Datatype) (offset length : Int) (left right : Record) : Prop :=
  let p1 := bytesAt left offset.toNat
  let p2 := bytesAt right offset.toNat
  match type with
  | .INTEGER => toInt (readInt p1 0) ≤ toInt (readInt p2 0)
  | .STRING => memcmp p1 p2 0 length.toNat ≤ 0
  | .FLOAT => reccmp p1 p2 length length .FLOAT ≤ 0

/-- The constructor reports `OK`, the calls of `next` return the records of the file in order
and then the end, and the destructor leaves the file and no run. -/
def Sorts (w : World) (mem : Uninit) (tmpRid : RID) (qsort : Qsort) (fileName : FileName)
    (offset length : Int) (type : Datatype) (maxItems : Int) (lf : LogicalFile)
    (chain : List Int) : Prop :=
  ∃ (sorted : SortedFile) (w₁ : World) (records : List Record),
    SortedFile.new mem tmpRid qsort fileName offset length type maxItems w =
      (.ok (.OK, sorted), w₁) ∧
    records.Perm ((lf.rids chain).filterMap lf.record) ∧
    records.Pairwise (FieldLe type offset length) ∧
    ∀ further, ∃ sorted' w₂ w₃,
      nextAll tmpRid (records.length + further) sorted w₁ =
        (.ok (records.map .ok ++ List.replicate further (.error .FILEEOF), sorted'), w₂) ∧
      w₂.logical fileName = some lf ∧ sorted'.delete w₂ = (.ok (), w₃) ∧
      w₃.logical fileName = some lf ∧ ∀ number, w₃.disk (runName fileName number) = none

theorem next_all_nothing (tmpRid : RID) (count : Nat) {file : SortedFile} (nothing : file.runs = [])
    (w : World) :
    nextAll tmpRid count file w = (.ok (List.replicate count (.error .FILEEOF), file), w) := by
  have ends : file.next tmpRid w = (.ok (.error .FILEEOF, file), w) := by
    unfold next
    rw [if_pos nothing]
    rfl
  induction count with
  | zero => rfl
  | succ count ih =>
      unfold nextAll
      rw [DbM.bind_ok ends]
      dsimp only
      rw [DbM.bind_ok ih]
      rfl

theorem sought_unfiltered {todo : List RID} (live : ∀ rid ∈ todo, (lf.record rid).isSome) :
    lf.sought none todo = todo := by
  cases todo with
  | nil => rfl
  | cons rid later =>
      obtain ⟨rec, record⟩ := Option.isSome_iff_exists.mp (live rid List.mem_cons_self)
      apply LogicalFile.sought_cons_wanted
      rw [LogicalFile.wanted_of_record record]
      rfl

theorem rids_live (rid : RID) (member : rid ∈ lf.rids chain) : (lf.record rid).isSome := by
  have contents := LogicalFile.mem_rids.mp member
  rw [LogicalFile.record_of_contents (LogicalFile.contents_number contents).1] at contents
  exact contents

/-- The first call of `scanNext`, by whether the file has records. -/
theorem first_record {hfs : HeapFileScan} (tmpRid : RID)
    (scans : w.ScansOn hfs rest others fileName lf chain) (unfiltered : hfs.filter = none)
    (stands : lf.Stands chain hfs.curPageNo hfs.curRec (lf.rids chain)) :
    ∃ result hfs' w', hfs.scanNext tmpRid w = (.ok (result, hfs'), w') ∧
      hfs.SameMark hfs' ∧ SameLogical w w' ∧ w'.ScansOn hfs' rest others fileName lf chain ∧
      (lf.rids chain = [] → result = .error .FILEEOF) ∧
      (lf.rids chain ≠ [] → ∃ rid, result = .ok rid) := by
  obtain ⟨result, hfs', w', run, step, mark, same, scans'⟩ := scans.scan_next tmpRid
  refine ⟨result, hfs', w', run, mark, same, scans', ?_⟩
  have advances : lf.Advances hfs.filter chain (lf.rids chain)
      (lf.stepCursor hfs.filter (hfs.curPageNo, hfs.curRec)) := scans.formed.scan_next stands
  unfold LogicalFile.Advances at advances
  rw [step, unfiltered, sought_unfiltered rids_live] at advances
  cases listed : lf.rids chain with
  | nil =>
      rw [listed] at advances
      obtain ⟨_, _, reached, _⟩ := advances
      cases reached
      exact ⟨fun _ => rfl, fun some_ => absurd rfl some_⟩
  | cons rid later =>
      rw [listed] at advances
      have reached := advances.1
      simp only [Option.some.injEq, Prod.mk.injEq] at reached
      exact ⟨fun none_ => absurd none_ (List.cons_ne_nil rid later), fun _ => ⟨rid, reached.1⟩⟩

def unsorted (fileName : FileName) (offset length : Int) (type : Datatype) (maxItems : Int) :
    SortedFile :=
  { runs := [], fileName, type, offset, length, maxItems }

/-- The parameters are accepted, and the source is opened and scanned. -/
theorem new_eq_loop {hfs : HeapFileScan} {w₁ : World} (mem : Uninit) (tmpRid : RID) (qsort : Qsort)
    (lower : 0 ≤ offset)
    (accepted : type = .INTEGER ∧ length = 4 ∨ type = .STRING ∧ 1 ≤ length)
    (items : 2 ≤ maxItems) (opened : HeapFileScan.new mem fileName w = (.ok (.ok hfs), w₁))
    (unfiltered : hfs.filter = none) :
    SortedFile.new mem tmpRid qsort fileName offset length type maxItems w =
      (do
        let (status, hfs, file) ← sortLoop mem tmpRid qsort
          (HeapFileScan.scanFuel w₁ hfs.filePtr + 1) hfs
          (unsorted fileName offset length type maxItems)
        if status ≠ Status.OK then pure (status, file)
        else do
          hfs.delete
          let (status, runs) ← startScans mem file.runs
          pure (status, { file with runs })) w₁ := by
  have good : ¬BadParameters offset length type := by
    unfold BadParameters
    rcases accepted with ⟨rfl, rfl⟩ | ⟨rfl, positive⟩
    · simp [lower]
    · simp only [reduceCtorEq, false_and, or_false, not_or]
      omega
  have same : { hfs with filter := none } = hfs := by
    rw [← unfiltered]
  have started : hfs.startScan 0 0 .STRING none .EQ = (.OK, hfs) := by
    change (Status.OK, { hfs with filter := none }) = _
    rw [same]
  unfold SortedFile.new
  rw [if_neg good, if_neg (by omega)]
  unfold sortFile
  dsimp only
  rw [DbM.bind_ok opened]
  dsimp only
  rw [started]
  rfl

/-- The sort is right if and only if there is nothing to sort. -/
theorem sorts_iff_no_records (storage : w.Storage rest others)
    (stores : w.Stores fileName lf chain) (nonempty : fileName ≠ [])
    (frames : 2 ≤ (w.freeFrames rest).length) (calm : w.bufFailed = false)
    (absent : ∀ number, w.disk (runName fileName number) = none) (lower : 0 ≤ offset)
    (accepted : type = .INTEGER ∧ length = 4 ∨ type = .STRING ∧ 1 ≤ length)
    (items : 2 ≤ maxItems) (mem : Uninit) (tmpRid : RID) (qsort : Qsort) :
    Sorts w mem tmpRid qsort fileName offset length type maxItems lf chain ↔
      lf.rids chain = [] := by
  obtain ⟨hfs, w₁, opened, unfiltered, scanAt, spare, calm₁, logical₁⟩ :=
    storage.new_scan_spared stores nonempty frames calm mem
  have scans : w₁.ScansOn hfs rest others fileName lf chain :=
    ⟨scanAt.holding, scanAt.formed, scanAt.pinned, ⟨_, scanAt.stands⟩, spare, calm₁⟩
  obtain ⟨result, hfs', w₂, next, mark, same, scans', empty, some_⟩ :=
    first_record tmpRid scans unfiltered scanAt.stands
  have loop := new_eq_loop mem tmpRid qsort lower accepted items opened unfiltered
  obtain ⟨room, roomEq⟩ : ∃ room, maxItems.toNat = room + 1 := ⟨maxItems.toNat - 1, by omega⟩
  constructor
  · rintro ⟨sorted, w', records, run, _⟩
    by_contra records
    obtain ⟨rid, rfl⟩ := some_ records
    rw [loop] at run
    obtain ⟨⟨status, hfs₃, file⟩, w₃, looped, run⟩ := DbM.bind_eq_ok_iff.mp run
    dsimp only at run
    by_cases bad : status = .OK
    · subst bad
      obtain ⟨filled, _⟩ := sort_loop_ok looped
      change fillBuffer tmpRid offset length maxItems.toNat hfs w₁ = _ at filled
      rw [roomEq] at filled
      exact fill_buffer_nonempty next filled rfl
    · rw [if_pos bad] at run
      cases run
      exact bad rfl
  · intro nothing
    rw [empty nothing] at next
    have filled : fillBuffer tmpRid offset length maxItems.toNat hfs w₁ =
        (.ok (.ok [], hfs'), w₂) := by
      rw [roomEq]
      unfold fillBuffer
      rw [DbM.bind_ok next]
      rfl
    have looped : sortLoop mem tmpRid qsort (HeapFileScan.scanFuel w₁ hfs.filePtr + 1) hfs
        (unsorted fileName offset length type maxItems) w₁ =
          (.ok (.OK, hfs', unsorted fileName offset length type maxItems), w₂) := by
      unfold sortLoop
      change (fillBuffer tmpRid offset length maxItems.toNat hfs >>= _) w₁ = _
      rw [DbM.bind_ok filled]
      rfl
    obtain ⟨todo, stands'⟩ := scans'.stands
    have scanAt' : w₂.ScanAt hfs' rest others fileName lf chain todo :=
      ⟨scans'.holding, scans'.formed, scans'.pinned, stands'⟩
    obtain ⟨w₃, deleted, _, logical₃, _⟩ := scanAt'.delete fun _ => storage.pin_open
    have logical : w₃.logical = w.logical :=
      logical₃.trans (same.logical.trans logical₁)
    have unchanged : w₃.logical fileName = some lf := by
      rw [logical]
      exact stores.logical
    refine ⟨unsorted fileName offset length type maxItems, w₃, [], ?_, ?_, List.Pairwise.nil, ?_⟩
    · rw [loop, DbM.bind_ok looped]
      dsimp only
      rw [if_neg (not_not.mpr rfl), DbM.bind_ok deleted]
      rfl
    · rw [nothing]
      exact List.Perm.nil
    · intro further
      refine ⟨unsorted fileName offset length type maxItems, w₃, w₃, ?_, unchanged, rfl, unchanged,
        ?_⟩
      · simpa using next_all_nothing tmpRid further (rfl : (unsorted fileName offset length type
          maxItems).runs = []) w₃
      · intro number
        apply logical_eq_none_iff.mp
        rw [logical]
        exact logical_eq_none_iff.mpr (absent number)

open HeapSession (zeroMemory)

def insertionQsort : Qsort := fun compare items =>
  items.insertionSort fun left right => compare left right ≤ 0

/-- A file without records is sorted. -/
theorem sorts_empty_file :
    Sorts (databaseOf 8 [([114], [])]) zeroMemory NULLRID insertionQsort [114] 0 1 .STRING 2
      (tableFile [114] []) [2] := by
  have storage : (databaseOf 8 [([114], [])]).Storage [] [] :=
    (database_just_started (by decide) _).storage
  have stores : (databaseOf 8 [([114], [])]).Stores [114] (tableFile [114] []) [2] :=
    database_stores 8 rfl (by decide)
  have absent : ∀ number, (databaseOf 8 [([114], [])]).disk (runName [114] number) = none := by
    intro number
    simp [databaseOf, runName]
  exact (sorts_iff_no_records storage stores (by decide) (by decide) rfl absent (by decide)
    (.inr ⟨rfl, by decide⟩) (by decide) zeroMemory NULLRID insertionQsort).mpr (by decide +kernel)

/-- Three records of one byte each: the run file that has just been destroyed cannot be
opened. -/
theorem three_records_not_sorted :
    ¬Sorts threeRecords zeroMemory NULLRID insertionQsort [114] 0 1 .STRING 2
      (tableFile [114] [[1], [2], [3]]) [2] := by
  rintro ⟨sorted, w₁, records, run, _⟩
  have status : ((SortedFile.new zeroMemory NULLRID insertionQsort [114] 0 1 .STRING 2 >>=
      fun made => pure made.1 : DbM Status) threeRecords).1 = .ok .UNIXERR := by
    decide +kernel
  rw [DbM.bind_ok run] at status
  cases status

end SortedFile

end PrimitiveDB

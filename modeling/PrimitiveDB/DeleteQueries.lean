import PrimitiveDB.HeapMaps
import PrimitiveDB.Queries
import PrimitiveDB.DatabaseImages

/-!
# Deleting the records that match

The loop of `QU_Delete` alternates `scanNext` and `deleteRecord`. Every deletion
compacts the page under the scan, but what is in front of the scan stays as it
is; so the loop visits every record once and removes those that match.
-/

namespace PrimitiveDB

open World DbM

set_option autoImplicit false

theorem delete_loop_keeps (tmpRid : RID) (fuel : Nat) (scan : HeapFileScan) :
    KeepsFlag (deleteLoop tmpRid fuel scan) := by
  induction fuel generalizing scan with
  | zero => exact keeps_crash
  | succ fuel ih =>
      unfold deleteLoop
      repeat' first
        | exact keeps_pure _ | exact HeapFileScan.scan_next_keeps _ _
        | exact HeapFileScan.delete_record_keeps _ | exact ih _
        | apply keeps_bind | intro _ | split

namespace LogicalFile

variable {file file' : LogicalFile} {headerNo : Int} {chain : List Int} {rid : RID}
  {filter : Option ScanFilter}

/-- The records of `todo` that the filter accepts are gone. -/
def Purged (file file' : LogicalFile) (filter : Option ScanFilter) (chain : List Int)
    (todo : List RID) : Prop :=
  ∀ rid, file'.contents chain rid =
    if rid ∈ todo ∧ file.wanted filter rid = true then none else file.contents chain rid

theorem purged_nothing {todo : List RID} (none_wanted : file.sought filter todo = []) :
    Purged file file filter chain todo := by
  obtain ⟨skipped, split, refused⟩ := @sought_split file filter todo
  intro rid
  rw [if_neg]
  intro both
  rw [none_wanted, List.append_nil] at split
  rw [split] at both
  exact absurd both.2 (by simp [refused rid both.1])

theorem Purged.step {file₁ : LogicalFile} {todo later : List RID}
    (listed : todo.Sublist (file.rids chain)) (distinct : chain.Nodup)
    (stopped : file.sought filter todo = rid :: later)
    (updated : file₁.contents chain = Function.update (file.contents chain) rid none)
    (purged : Purged file₁ file' filter chain later) : Purged file file' filter chain todo := by
  obtain ⟨skipped, split, refused⟩ := @sought_split file filter todo
  rw [stopped] at split
  have accepted := wanted_of_sought stopped
  have once : todo.Nodup := (rids_nodup distinct).sublist listed
  rw [split] at once
  have fresh : rid ∉ later := (List.nodup_cons.mp (List.nodup_append.mp once).2.1).1
  have live : ∀ other ∈ todo, other.pageNo ∈ chain := fun other member =>
    (contents_number (mem_rids.mp (listed.subset member))).1
  intro other
  rw [purged other, updated]
  by_cases same : other = rid
  · subst same
    have member : other ∈ todo := by
      rw [split]
      simp
    rw [if_neg (fun both => fresh both.1), if_pos ⟨member, accepted⟩, Function.update_self]
  · rw [Function.update_of_ne same]
    by_cases member : other ∈ later
    · have inTodo : other ∈ todo := by
        rw [split]
        simp [member]
      have unchanged : file₁.record other = file.record other := by
        rw [← record_of_contents (live other inTodo), ← record_of_contents (live other inTodo),
          updated, Function.update_of_ne same]
      rw [wanted_congr unchanged]
      simp only [member, inTodo, true_and]
    · rw [if_neg (fun both => member both.1), if_neg]
      rintro ⟨inTodo, wanted⟩
      rw [split] at inTodo
      rcases List.mem_append.mp inTodo with early | late
      · rw [refused other early] at wanted
        cases wanted
      · rcases List.mem_cons.mp late with equal | late
        · exact same equal
        · exact member late

theorem HeapFormed.purged_count (formed : file.HeapFormed headerNo chain)
    (formed' : file'.HeapFormed headerNo chain)
    (purged : Purged file file' filter chain (file.rids chain)) :
    (file'.header headerNo).recCnt = (file.header headerNo).recCnt -
      ((file.rids chain).filter fun rid => file.wanted filter rid).length := by
  have perm : (file'.rids chain).Perm
      ((file.rids chain).filter fun rid => !file.wanted filter rid) := by
    apply (List.perm_ext_iff_of_nodup (rids_nodup formed.nodup)
      ((rids_nodup formed.nodup).filter _)).mpr
    intro rid
    rw [mem_rids, purged rid, List.mem_filter]
    by_cases accepted : file.wanted filter rid = true
    · by_cases live : rid ∈ file.rids chain
      · simp [accepted, live]
      · have dead := mt mem_rids.mpr live
        simp only [Option.not_isSome_iff_eq_none] at dead
        simp [dead, live]
    · simp [accepted, mem_rids]
  have total : (file.rids chain).length =
      ((file.rids chain).filter fun rid => file.wanted filter rid).length +
        ((file.rids chain).filter fun rid => !file.wanted filter rid).length := by
    rw [← List.countP_eq_length_filter, ← List.countP_eq_length_filter,
      List.length_eq_countP_add_countP fun rid => file.wanted filter rid]
    simp
  rw [formed'.recCnt, formed.recCnt, perm.length_eq, total]
  push_cast
  omega

end LogicalFile

namespace World

variable {w : World} {rest : List Pin} {others : List FilePtr} {fileName : FileName}
  {lf : LogicalFile} {chain : List Int} {todo : List RID}

/-- The loop removes exactly the matching records in front of the scan. -/
theorem ScanAt.delete_loop (fuel : Nat) {w : World} {scan : HeapFileScan} {lf : LogicalFile}
    {todo : List RID} (scanAt : w.ScanAt scan rest others fileName lf chain todo) (tmpRid : RID)
    (enough : todo.length < fuel) :
    Smoothly (deleteLoop tmpRid fuel scan) w fun result w' =>
      ∃ lf', result.1 = .OK ∧ w'.ScanAt result.2 rest others fileName lf' chain [] ∧
        result.2.filePtr = scan.filePtr ∧ result.2.headerPageNo = scan.headerPageNo ∧
        Touches w w' fileName lf' ∧ lf.Purged lf' scan.filter chain todo ∧
        lf'.firstPage = lf.firstPage := by
  induction fuel generalizing w scan lf todo with
  | zero => exact absurd enough (Nat.not_lt_zero _)
  | succ fuel ih =>
      have listed := scanAt.stands.sublist
      unfold deleteLoop
      apply smoothly_bind
      · intro result
        repeat' first
          | exact keeps_pure _ | exact HeapFileScan.delete_record_keeps _
          | exact delete_loop_keeps _ _ _
          | apply keeps_bind | intro _ | split
      · apply (scanAt.scan_next tmpRid).mono
        rintro ⟨result, scan₁⟩ w₁ ⟨same, file, headerNo, filter, outcome⟩
        cases sought : lf.sought scan.filter todo with
        | nil =>
            rw [sought] at outcome
            obtain ⟨rfl, scanAt₁⟩ := outcome
            exact smoothly_pure ⟨lf, rfl, scanAt₁, file, headerNo,
              same.touches scanAt.holding.logical, LogicalFile.purged_nothing sought, rfl⟩
        | cons rid later =>
            rw [sought] at outcome
            obtain ⟨rfl, curRec, curNo, scanAt₁⟩ := outcome
            dsimp only at curRec curNo scanAt₁ file headerNo filter
            have inTodo : rid ∈ todo := by
              obtain ⟨skipped, split, _⟩ := @LogicalFile.sought_split lf scan.filter todo
              rw [split, sought]
              simp
            have live : (lf.contents chain scan₁.curRec).isSome := by
              rw [curRec, ← LogicalFile.mem_rids]
              exact listed.subset inTodo
            obtain ⟨scan₂, w₂, lf₂, run, scanAt₂, updated, file₂, headerNo₂, filter₂, touches, _,
              first₂⟩ := scanAt₁.delete_record (curNo.trans (by rw [curRec])) live
            rw [curRec] at updated
            apply smoothly_bind_eq run
            dsimp only
            rw [if_neg (not_not.mpr rfl)]
            have shorter : later.length < fuel := by
              have bound : (rid :: later).length ≤ todo.length := by
                rw [← sought]
                exact List.length_dropWhile_le _ _
              simp only [List.length_cons] at bound
              omega
            apply (ih scanAt₂ shorter).mono
            rintro ⟨status, scan₃⟩ w₃ ⟨lf₃, ok, scanAt₃, file₃, headerNo₃, touches₃, purged, first₃⟩
            rw [filter₂, filter] at purged
            exact ⟨lf₃, ok, scanAt₃, file₃.trans (file₂.trans file),
              headerNo₃.trans (headerNo₂.trans headerNo),
              ((same.touches scanAt.holding.logical).trans touches).trans touches₃,
              purged.step listed scanAt.formed.nodup sought updated, first₃.trans first₂⟩

theorem delete_matching_keeps (tmpRid : RID) (scan : HeapFileScan) :
    KeepsFlag (deleteMatching tmpRid scan) :=
  keeps_bind (keeps_read _) fun _ => delete_loop_keeps _ _ _

theorem ScanAt.delete_all {scan : HeapFileScan}
    (scanAt : w.ScanAt scan rest others fileName lf chain (lf.rids chain)) (tmpRid : RID) :
    Smoothly (deleteMatching tmpRid scan) w fun result w' =>
      ∃ lf', result.1 = .OK ∧ w'.ScanAt result.2 rest others fileName lf' chain [] ∧
        result.2.filePtr = scan.filePtr ∧ result.2.headerPageNo = scan.headerPageNo ∧
        Touches w w' fileName lf' ∧ lf.Purged lf' scan.filter chain (lf.rids chain) ∧
        lf'.firstPage = lf.firstPage := by
  unfold deleteMatching
  apply smoothly_bind_eq rfl
  dsimp only
  rw [scanAt.holding.scan_fuel]
  exact scanAt.delete_loop _ tmpRid scanAt.formed.rids_lt

theorem ScanAt.delete_matching {scan : HeapFileScan}
    (scanAt : w.ScanAt scan rest others fileName lf chain (lf.rids chain)) (tmpRid : RID) :
    Smoothly (deleteMatching tmpRid scan) w fun result w' =>
      ∃ lf', result.1 = .OK ∧ w'.ScanAt result.2 rest others fileName lf' chain [] ∧
        result.2.filePtr = scan.filePtr ∧ result.2.headerPageNo = scan.headerPageNo ∧
        Touches w w' fileName lf' ∧ lf.Purged lf' scan.filter chain (lf.rids chain) := by
  apply (scanAt.delete_all tmpRid).mono
  rintro result w' ⟨lf', ok, scanAt', file, headerNo, touches, purged, _⟩
  exact ⟨lf', ok, scanAt', file, headerNo, touches, purged⟩

end World

def survivors (filter : Option ScanFilter) (before : Option Record) : Option Record :=
  before.filter fun rec => !ScanFilter.matchRec filter rec

theorem LogicalFile.Purged.survive {file file' : LogicalFile} {filter : Option ScanFilter}
    {chain : List Int} (purged : file.Purged file' filter chain (file.rids chain)) (rid : RID) :
    file'.contents chain rid = survivors filter (file.contents chain rid) := by
  rw [purged rid]
  cases record : file.contents chain rid with
  | none => simp [survivors]
  | some rec =>
      have live : (file.contents chain rid).isSome := Option.isSome_of_eq_some record
      have listed : rid ∈ file.rids chain := LogicalFile.mem_rids.mpr live
      have stored : file.record rid = some rec := by
        rw [← LogicalFile.record_of_contents (LogicalFile.contents_number live).1, record]
      have decides : file.wanted filter rid = ScanFilter.matchRec filter rec :=
        LogicalFile.wanted_of_record stored
      rw [decides]
      by_cases accepted : ScanFilter.matchRec filter rec = true
      · rw [if_pos ⟨listed, accepted⟩, survivors, Option.filter_some, accepted]
        rfl
      · simp only [Bool.not_eq_true] at accepted
        rw [if_neg (by simp [accepted]), survivors, Option.filter_some, accepted]
        rfl

/-- The loop of `QU_Delete` on a newly constructed scan of any heap file, with any
filter or none: it ends, the records that do not match are where they were, and
the others are gone and no longer counted. -/
theorem delete_removes_exactly_the_matching {w w₀ : World} {pins : List Pin}
    {opens : List FilePtr} {fileName : FileName} {lf : LogicalFile} {chain : List Int}
    (storage : w.Storage pins opens) (stored : w.logical fileName = some lf)
    (formed : lf.HeapFormed lf.firstPage chain) (mem : Uninit) (tmpRid : RID)
    {scan scan₁ : HeapFileScan}
    (constructed : HeapFileScan.new mem fileName w = (.ok (.ok scan), w₀))
    (offset length : Int) (type : Datatype) (value : Option (List ByteMemory.Byte))
    (op : Operator) (started : scan.startScan offset length type value op = (.OK, scan₁))
    (succeeds : (deleteMatching tmpRid scan₁ w₀).2.bufFailed = false) :
    ∃ scan' w' lf', deleteMatching tmpRid scan₁ w₀ = (.ok (.OK, scan'), w') ∧
      w'.logical fileName = some lf' ∧ lf'.HeapFormed lf.firstPage chain ∧
      (∀ rid, lf'.contents chain rid = survivors scan₁.filter (lf.contents chain rid)) ∧
      (lf'.header lf.firstPage).recCnt = (lf.header lf.firstPage).recCnt -
        ((lf.rids chain).filter fun rid => lf.wanted scan₁.filter rid).length := by
  have nonempty : fileName ≠ [] := by
    rintro rfl
    have refused : HeapFileScan.new mem [] w = (.ok (.error .BADFILE), w) := rfl
    rw [refused] at constructed
    cases constructed
  have flag : w₀.bufFailed = false := (World.delete_matching_keeps tmpRid scan₁).early succeeds
  obtain ⟨result, equal, scan₀, rfl, scanAt, headerNo, _, _⟩ :=
    (storage.new_scan stored formed nonempty mem).result constructed flag
  obtain rfl := Except.ok.inj (Outcome.ok.inj equal)
  have filtered : { scan with filter := scan₁.filter } = scan₁ := by
    rw [← show _ = scan₁ from congrArg Prod.snd started]
    rfl
  have scanAt₁ := scanAt.start scan₁.filter
  rw [filtered] at scanAt₁
  have headerNo₁ : scan₁.headerPageNo = lf.firstPage := by
    rw [← filtered]
    exact headerNo
  obtain ⟨⟨status, scan'⟩, w', run, lf', ok, scanAt', _, headerNo', touches, purged⟩ :=
    scanAt₁.delete_matching tmpRid succeeds
  subst ok
  have formed' : lf'.HeapFormed lf.firstPage chain := by
    have there := scanAt'.formed
    rw [headerNo', headerNo₁] at there
    exact there
  exact ⟨scan', w', lf', run, touches.here, formed', purged.survive,
    formed.purged_count formed' purged⟩

open HeapSession (zeroMemory)

/-- Of the records 1, 2 and 3 those that differ from 2 go. -/
theorem delete_removes_exactly_the_matching_two_of_three :
    ∃ scan scan₁ w₀ scan' w' lf',
      HeapFileScan.new zeroMemory [114] threeRecords = (.ok (.ok scan), w₀) ∧
      scan.startScan 0 1 .STRING (some [2]) .NE = (.OK, scan₁) ∧
      deleteMatching NULLRID scan₁ w₀ = (.ok (.OK, scan'), w') ∧
      w'.logical [114] = some lf' ∧ lf'.HeapFormed 1 [2] ∧ (lf'.header 1).recCnt = 1 ∧
      lf'.contents [2] ⟨2, 0⟩ = none ∧ lf'.contents [2] ⟨2, 1⟩ = some [2] ∧
      lf'.contents [2] ⟨2, 2⟩ = none := by
  obtain ⟨_, w₀, constructed, scan, rfl, _⟩ :=
    three_records_storage.new_scan three_records_stored.logical three_records_stored.formed
      (by decide) zeroMemory (by decide +kernel)
  let scan₁ := (scan.startScan 0 1 .STRING (some [2]) .NE).2
  have started : scan.startScan 0 1 .STRING (some [2]) .NE = (.OK, scan₁) := rfl
  have succeeds : (deleteMatching NULLRID scan₁ w₀).2.bufFailed = false := by
    have whole : (((HeapFileScan.new zeroMemory [114] >>= fun result =>
        match result with
        | .ok scan => deleteMatching NULLRID (scan.startScan 0 1 .STRING (some [2]) .NE).2
        | .error _ => DbM.crash) : DbM (Status × HeapFileScan)) threeRecords).2.bufFailed =
          false := by decide +kernel
    rw [bind_ok constructed] at whole
    exact whole
  obtain ⟨scan', w', lf', run, logical', formed', contents', count⟩ :=
    delete_removes_exactly_the_matching three_records_storage three_records_stored.logical
      three_records_stored.formed zeroMemory NULLRID constructed 0 1 .STRING (some [2]) .NE
      started succeeds
  have filter : scan₁.filter = (ScanFilter.startScan none 0 1 .STRING (some [2]) .NE).2 := rfl
  rw [filter] at contents' count
  refine ⟨scan, scan₁, w₀, scan', w', lf', constructed, started, run, logical', formed', ?_, ?_,
    ?_, ?_⟩
  · exact count.trans (by decide +kernel)
  · exact (contents' _).trans (by decide +kernel)
  · exact (contents' _).trans (by decide +kernel)
  · exact (contents' _).trans (by decide +kernel)

end PrimitiveDB

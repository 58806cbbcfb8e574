import PrimitiveDB.StorageContracts

/-!
# Contracts of the open-file table

Opening a file adds a handle, closing it takes one away, and the last close
leaves no frame of the file behind. None of them changes a logical file; only
creating and destroying a file do.
-/

namespace PrimitiveDB.World

open BufMgr

set_option autoImplicit false

variable {w w' : World} {pins : List Pin} {opens : List FilePtr} {file : FilePtr}
  {fileName : FileName} {lf : LogicalFile} {object : File} {contents : UnixFile}

theorem Healthy.same_pages (healthy : w.Healthy pins) (pool : w'.bufMgr = w.bufMgr)
    (reliable : w'.Reliable) (sound : w'.FilesSound)
    (kept : ∀ frame other pageNo, w.bufMgr.Holds frame other pageNo →
      w'.unixFile other = w.unixFile other) : w'.Healthy pins where
  reliable := reliable
  files := sound
  held := by
    intro frame other pageNo use holds
    rw [pool] at holds
    have page := healthy.held frame other pageNo use holds
    simp only [HasPage, kept frame other pageNo holds]
    exact page
  pinned := by rw [pool]; exact healthy.pinned
  held_by := by rw [pool]; exact healthy.held_by
  clean := by
    intro frame other pageNo use holds clean settled
    rw [pool] at holds clean ⊢
    rw [healthy.clean frame other pageNo use holds clean settled]
    simp only [diskPage, kept frame other pageNo holds]
  residency := by rw [pool]; exact healthy.residency

theorem Filed.unopened (filed : w.Filed) (absent : w.disk fileName = none) :
    w.openFiles.find fileName = none := by
  cases found : w.openFiles.find fileName with
  | none => rfl
  | some file =>
      obtain ⟨object, live, rfl⟩ := (filed.table _ _).mp found
      obtain ⟨contents, stored⟩ := filed.present file object live
      rw [absent] at stored
      cases stored

theorem logical_eq_none_iff : w.logical fileName = none ↔ w.disk fileName = none := by
  simp [logical]

theorem logical_congr (disk : w'.disk = w.disk)
    (pages : ∀ fileName pageNo, w'.filePage fileName pageNo = w.filePage fileName pageNo) :
    w'.logical = w.logical := by
  funext fileName
  simp only [logical, disk, pages]

theorem Filed.new_address (filed : w.Filed) :
    File.newAddress w ≠ 0 ∧ w.files (File.newAddress w) = none := by
  unfold File.newAddress
  split_ifs with chosen
  · exact chosen
  · exact ⟨Nat.pos_iff_ne_zero.mp filed.brk, filed.above w.brk (le_refl _)⟩

/-- The world in which `new File` has been called and the object set to `state`. -/
def withNewFile (w : World) (state : Option File) : World :=
  { w.setFile (File.newAddress w) state with
    brk := max w.brk (File.newAddress w + 1)
    malloc := fun n => w.malloc (n + 1) }

theorem set_file_with_new_file (w : World) (first second : Option File) :
    (w.withNewFile first).setFile (File.newAddress w) second = w.withNewFile second := by
  simp [withNewFile, setFile]

theorem open_new_file (reliable : w.Reliable) (fileName : FileName) :
    let closed : File := { fileName, openCnt := 0, unixFile := false }
    File.open_ (File.newAddress w) (w.withNewFile (some closed)) =
      match w.disk fileName with
      | none => (.err .UNIXERR, w.withNewFile (some closed))
      | some _ =>
          (.ok (), w.withNewFile (some { fileName, openCnt := 1, unixFile := true })) := by
  intro closed
  have live : (w.withNewFile (some closed)).files (File.newAddress w) = some closed := by
    simp [withNewFile, setFile]
  have calm : (w.withNewFile (some closed)).faults 0 = false := congrFun reliable 0
  have still : (w.withNewFile (some closed)).tick = w.withNewFile (some closed) :=
    tick_of_reliable (w := w.withNewFile (some closed)) reliable
  have disk : (w.withNewFile (some closed)).disk = w.disk := rfl
  simp only [File.open_, File.deref, DbM.bind_apply, live, DbM.systemCall, calm, still, DbM.read,
    disk, closed, if_true, Bool.false_eq_true, if_false]
  cases w.disk fileName with
  | none => rfl
  | some contents =>
      simp only [DbM.modify]
      rw [set_file_with_new_file]

theorem Storage.open_missing (storage : w.Storage pins opens) (nonempty : fileName ≠ [])
    (missing : w.logical fileName = none) :
    ∃ w', DB.openFile fileName w = (.err .UNIXERR, w') ∧ w'.Storage pins opens ∧
      SameLogical w w' ∧ w'.bufFailed = w.bufFailed := by
  have absent := logical_eq_none_iff.mp missing
  have unopened := storage.toFiled.unopened absent
  obtain ⟨nonnull, free⟩ := storage.toFiled.new_address
  have run := open_new_file storage.reliable fileName
  simp only [absent] at run
  have restored : (w.withNewFile none).files = w.files := by
    simp [withNewFile, setFile, ← free]
  have opened : ∀ other, (w.withNewFile none).unixFile other = w.unixFile other := by
    intro other
    simp only [World.unixFile, restored]
    rfl
  have unchanged : (w.withNewFile none).logical = w.logical := by
    refine logical_congr rfl ?_
    intro other pageNo
    simp only [filePage, view, diskPage, opened]
    rfl
  refine ⟨w.withNewFile none, ?_, ?_, ⟨restored, unchanged, rfl, rfl, rfl⟩, rfl⟩
  · unfold DB.openFile
    rw [if_neg nonempty, DbM.read_bind, unopened]
    dsimp only
    have created : File.new fileName w =
      (.ok (File.newAddress w), w.withNewFile
        (some { fileName, openCnt := 0, unixFile := false })) := rfl
    rw [DbM.bind_ok created, DbM.bind_ok (attempt_err run)]
    simp only [File.delete, DbM.bind_apply, DbM.modify, set_file_with_new_file, DbM.fail]
  · refine ⟨storage.toHealthy.same_pages rfl storage.reliable ⟨?_, ?_⟩
      (fun _ other _ _ => opened other), ⟨storage.stored, ?_, ?_, ?_, storage.distinct, ?_, ?_, ?_⟩,
      storage.kept.congr unchanged rfl, ?_, ?_⟩
    · rw [restored]
      exact storage.files.apart
    · intro other contents
      rw [opened]
      exact storage.files.formed other contents
    · rw [restored]; exact storage.opened
    · rw [restored]; exact storage.present
    · rw [restored]; exact storage.table
    · rw [restored]; exact storage.null
    · exact lt_of_lt_of_le storage.brk (le_max_left _ _)
    · rw [restored]
      exact fun other bound => storage.above other ((le_max_left _ _).trans bound)
    · rw [restored]; exact storage.counted
    · rw [restored]; exact storage.live

structure Opens (before after : World) (opens : List FilePtr) (fileName : FileName)
    (file : FilePtr) : Prop where
  logical : after.logical = before.logical
  name : after.nameOf file = some fileName
  names : ∀ other ∈ opens, after.nameOf other = before.nameOf other
  bufFailed : after.bufFailed = before.bufFailed
  given : after.given = before.given
  pool : after.bufMgr = before.bufMgr

structure NextHandle (before after : World) (file : FilePtr) (object : File) : Prop where
  live : before.files file = some object
  self : after.files file = some { object with openCnt := object.openCnt + 1 }
  others : ∀ other, other ≠ file → after.files other = before.files other
  disk : after.disk = before.disk
  openFiles : after.openFiles = before.openFiles
  pool : after.bufMgr = before.bufMgr
  brk : after.brk = before.brk

theorem NextHandle.was (next : NextHandle w w' file object) {other : FilePtr}
    {otherObject : File} (live : w'.files other = some otherObject) :
    ∃ before, w.files other = some before ∧ otherObject.fileName = before.fileName ∧
      otherObject.unixFile = before.unixFile ∧
      otherObject.openCnt = before.openCnt + if other = file then 1 else 0 := by
  by_cases same : other = file
  · subst same
    rw [next.self] at live
    obtain rfl := Option.some.inj live
    exact ⟨object, next.live, rfl, rfl, by simp⟩
  · rw [next.others other same] at live
    exact ⟨otherObject, live, rfl, rfl, by simp [same]⟩

theorem NextHandle.unix_file (next : NextHandle w w' file object) (other : FilePtr) :
    w'.unixFile other = w.unixFile other := by
  by_cases same : other = file
  · subst same
    simp only [World.unixFile, next.self, next.live, next.disk]
  · simp only [World.unixFile, next.others other same, next.disk]

theorem NextHandle.named (next : NextHandle w w' file object) (other : FilePtr)
    (name : FileName) : (∃ otherObject, w'.files other = some otherObject ∧
      otherObject.fileName = name) ↔
      ∃ before, w.files other = some before ∧ before.fileName = name := by
  by_cases same : other = file
  · subst same
    simp [next.self, next.live]
  · rw [next.others other same]

theorem NextHandle.logical (next : NextHandle w w' file object) : w'.logical = w.logical := by
  refine logical_congr next.disk ?_
  intro other pageNo
  simp only [filePage, view, diskPage, next.unix_file, next.openFiles, next.pool, next.disk]

theorem NextHandle.files_sound (next : NextHandle w w' file object) (sound : w.FilesSound) :
    w'.FilesSound where
  apart := by
    intro left right leftObject rightObject leftLive rightLive leftFd rightFd sameName
    obtain ⟨before, beforeLive, name, fd, _⟩ := next.was leftLive
    obtain ⟨before', beforeLive', name', fd', _⟩ := next.was rightLive
    exact sound.apart left right before before' beforeLive beforeLive'
      (by rw [← fd, leftFd]) (by rw [← fd', rightFd]) (by rw [← name, ← name', sameName])
  formed := by
    intro other otherContents
    rw [next.unix_file]
    exact sound.formed other otherContents

theorem NextHandle.filed (next : NextHandle w w' file object) (filed : w.Filed) : w'.Filed where
  stored := by rw [next.disk]; exact filed.stored
  opened := by
    intro other otherObject live
    obtain ⟨before, beforeLive, _, fd, _⟩ := next.was live
    rw [fd]
    exact filed.opened other before beforeLive
  present := by
    intro other otherObject live
    obtain ⟨before, beforeLive, name, _, _⟩ := next.was live
    rw [name, next.disk]
    exact filed.present other before beforeLive
  table := by
    intro name other
    rw [next.named, next.openFiles]
    exact filed.table name other
  distinct := by rw [next.openFiles]; exact filed.distinct
  null := by
    have nonnull : 0 ≠ file := by
      rintro rfl
      have live := next.live
      rw [filed.null] at live
      cases live
    rw [next.others 0 nonnull]
    exact filed.null
  brk := by rw [next.brk]; exact filed.brk
  above := by
    intro other bound
    rw [next.brk] at bound
    have none_ := filed.above other bound
    have different : other ≠ file := by
      rintro rfl
      rw [next.live] at none_
      cases none_
    rw [next.others other different]
    exact none_

theorem NextHandle.storage (next : NextHandle w w' file object) (storage : w.Storage pins opens)
    (reliable : w'.Reliable) (given : w'.given = w.given) : w'.Storage pins (file :: opens) := by
  refine ⟨storage.toHealthy.same_pages next.pool reliable (next.files_sound storage.files)
    (fun _ other _ _ => next.unix_file other), next.filed storage.toFiled,
    storage.kept.congr next.logical given, ?_, ?_⟩
  · intro other otherObject live
    obtain ⟨before, beforeLive, _, _, count⟩ := next.was live
    rw [count, storage.counted other before beforeLive, List.count_cons]
    by_cases same : other = file
    · simp [same]
    · simp [same, Ne.symm same]
  · intro other
    by_cases same : other = file
    · subst same
      simp [next.self]
    · rw [next.others other same, ← storage.live]
      simp [same]

theorem Storage.open_again (storage : w.Storage pins opens) (nonempty : fileName ≠ [])
    (found : w.openFiles.find fileName = some file) :
    ∃ w', DB.openFile fileName w = (.ok file, w') ∧ w'.Storage pins (file :: opens) ∧
      Opens w w' opens fileName file := by
  obtain ⟨object, live, rfl⟩ := (storage.table _ _).mp found
  have positive := List.count_pos_iff.mpr ((storage.live file).mpr ⟨object, live⟩)
  have count := storage.counted file object live
  set w₁ := w.setFile file (some { object with openCnt := object.openCnt + 1 }) with w₁Def
  have next : NextHandle w w₁ file object :=
    { live
      self := by simp [w₁Def, setFile]
      others := fun other different => by simp [w₁Def, setFile, different]
      disk := rfl
      openFiles := rfl
      pool := rfl
      brk := rfl }
  refine ⟨w₁, ?_, next.storage storage storage.reliable rfl, next.logical, ?_, ?_, rfl, rfl, rfl⟩
  · unfold DB.openFile
    rw [if_neg nonempty, DbM.read_bind, found]
    dsimp only
    have run : File.open_ file w = (.ok (), w₁) := by
      simp only [File.open_, File.deref, DbM.bind_apply, live]
      rw [if_neg (by rw [count]; omega)]
      rfl
    rw [DbM.bind_ok run]
    rfl
  · simp [nameOf, next.self]
  · intro other _
    by_cases same : other = file
    · subst same
      simp [nameOf, next.self, live]
    · simp [nameOf, next.others other same]

/-- `after` has one object more, which is the first on its file. -/
structure FirstHandle (before after : World) (fileName : FileName) (file : FilePtr) : Prop where
  nonnull : file ≠ 0
  free : before.files file = none
  self : after.files file = some { fileName, openCnt := 1, unixFile := true }
  others : ∀ other, other ≠ file → after.files other = before.files other
  unopened : before.openFiles.find fileName = none
  table : ∀ name, after.openFiles.find name =
    if name = fileName then some file else before.openFiles.find name
  distinct : ChainedTable.DistinctKeys after.openFiles.ht
  disk : after.disk = before.disk
  pool : after.bufMgr = before.bufMgr
  brk : before.brk ≤ after.brk ∧ file < after.brk

theorem FirstHandle.unix_other (first : FirstHandle w w' fileName file) {other : FilePtr}
    (different : other ≠ file) : w'.unixFile other = w.unixFile other := by
  simp only [World.unixFile, first.others other different, first.disk]

theorem FirstHandle.unix_self (first : FirstHandle w w' fileName file)
    (stored : w.disk fileName = some contents) : w'.unixFile file = some contents := by
  simp only [World.unixFile, first.self, first.disk, if_true]
  exact stored

theorem FirstHandle.fresh (first : FirstHandle w w' fileName file)
    (storage : w.Storage pins opens) : file ∉ opens := by
  intro member
  obtain ⟨object, live⟩ := (storage.live file).mp member
  rw [first.free] at live
  cases live

theorem FirstHandle.unheld (first : FirstHandle w w' fileName file)
    (storage : w.Storage pins opens) (frame : Nat) (pageNo : Int) :
    ¬w.bufMgr.Holds frame file pageNo := by
  intro holds
  obtain ⟨held, heldOpen, _⟩ := storage.held frame file pageNo trivial holds
  obtain ⟨object, live, _⟩ := unix_file_live heldOpen
  rw [first.free] at live
  cases live

theorem FirstHandle.logical (first : FirstHandle w w' fileName file)
    (storage : w.Storage pins opens) (stored : w.disk fileName = some contents) :
    w'.logical = w.logical := by
  refine logical_congr first.disk ?_
  intro other pageNo
  rw [filePage, first.table]
  split_ifs with here
  · subst here
    have absent : w'.bufMgr.hashTable.lookup file pageNo = none := by
      rw [first.pool]
      cases found : w.bufMgr.hashTable.lookup file pageNo with
      | none => rfl
      | some frame =>
          exact absurd ((storage.residency.mapped _ _ _).mp found) (first.unheld storage _ _)
    simp only [view, absent, disk_page_of_open (first.unix_self stored), filePage,
      first.unopened, stored]
  · cases openOther : w.openFiles.find other with
    | none => simp only [filePage, openOther, first.disk]
    | some otherFile =>
        have different : otherFile ≠ file := by
          rintro rfl
          obtain ⟨object, live, _⟩ := (storage.table other _).mp openOther
          rw [first.free] at live
          cases live
        simp only [filePage, openOther, view, diskPage, first.unix_other different, first.pool]

/-- No other object has the new file's name, since the table had no such entry. -/
theorem FirstHandle.files_sound (first : FirstHandle w w' fileName file)
    (storage : w.Storage pins opens) (stored : w.disk fileName = some contents) :
    w'.FilesSound where
  apart := by
    intro left right leftObject rightObject leftLive rightLive leftFd rightFd sameName
    have alone : ∀ other otherObject, other ≠ file → w'.files other = some otherObject →
        otherObject.fileName ≠ fileName := by
      intro other otherObject different otherLive equal
      rw [first.others other different] at otherLive
      have listed := (storage.table fileName other).mpr ⟨otherObject, otherLive, equal⟩
      rw [first.unopened] at listed
      cases listed
    by_cases leftNew : left = file
    · by_cases rightNew : right = file
      · rw [leftNew, rightNew]
      · rw [leftNew, first.self] at leftLive
        obtain rfl := Option.some.inj leftLive
        exact absurd sameName.symm (alone right rightObject rightNew rightLive)
    · by_cases rightNew : right = file
      · rw [rightNew, first.self] at rightLive
        obtain rfl := Option.some.inj rightLive
        exact absurd sameName (alone left leftObject leftNew leftLive)
      · rw [first.others left leftNew] at leftLive
        rw [first.others right rightNew] at rightLive
        exact storage.files.apart left right leftObject rightObject leftLive rightLive leftFd
          rightFd sameName
  formed := by
    intro other otherContents otherOpened
    by_cases same : other = file
    · subst same
      rw [first.unix_self stored] at otherOpened
      obtain rfl := Option.some.inj otherOpened
      exact ⟨[], storage.stored fileName contents stored⟩
    · rw [first.unix_other same] at otherOpened
      exact storage.files.formed other otherContents otherOpened

theorem FirstHandle.table_iff (first : FirstHandle w w' fileName file) (filed : w.Filed)
    (name : FileName) (other : FilePtr) : w'.openFiles.find name = some other ↔
      ∃ object, w'.files other = some object ∧ object.fileName = name := by
  rw [first.table]
  by_cases same : other = file
  · rw [same, first.self]
    split_ifs with here
    · simp [here]
    · simp only [Option.some.injEq, exists_eq_left', Ne.symm here, iff_false]
      intro found
      obtain ⟨object, live, _⟩ := (filed.table name file).mp found
      rw [first.free] at live
      cases live
  · rw [first.others other same, ← filed.table]
    split_ifs with here
    · rw [here, first.unopened]
      simp [Ne.symm same]
    · rfl

theorem FirstHandle.filed (first : FirstHandle w w' fileName file) (filed : w.Filed)
    (stored : w.disk fileName = some contents) : w'.Filed where
  stored := by rw [first.disk]; exact filed.stored
  opened := by
    intro other object live
    by_cases same : other = file
    · subst same
      rw [first.self] at live
      obtain rfl := Option.some.inj live
      rfl
    · rw [first.others other same] at live
      exact filed.opened other object live
  present := by
    intro other object live
    rw [first.disk]
    by_cases same : other = file
    · subst same
      rw [first.self] at live
      obtain rfl := Option.some.inj live
      exact ⟨contents, stored⟩
    · rw [first.others other same] at live
      exact filed.present other object live
  table := first.table_iff filed
  distinct := first.distinct
  null := by
    rw [first.others 0 (Ne.symm first.nonnull)]
    exact filed.null
  brk := lt_of_lt_of_le filed.brk first.brk.1
  above := by
    intro other bound
    rw [first.others other (Nat.ne_of_gt (lt_of_lt_of_le first.brk.2 bound))]
    exact filed.above other (first.brk.1.trans bound)

theorem FirstHandle.storage (first : FirstHandle w w' fileName file)
    (storage : w.Storage pins opens) (stored : w.disk fileName = some contents)
    (reliable : w'.Reliable) (given : w'.given = w.given) : w'.Storage pins (file :: opens) := by
  have unchanged := first.logical storage stored
  refine ⟨storage.toHealthy.same_pages first.pool reliable (first.files_sound storage stored) ?_,
    first.filed storage.toFiled stored, storage.kept.congr unchanged given, ?_, ?_⟩
  · intro frame other pageNo holds
    refine first.unix_other ?_
    rintro rfl
    exact first.unheld storage frame pageNo holds
  · intro other object live
    by_cases same : other = file
    · subst same
      rw [first.self] at live
      obtain rfl := Option.some.inj live
      simp [List.count_eq_zero.mpr (first.fresh storage)]
    · rw [first.others other same] at live
      rw [storage.counted other object live]
      simp [Ne.symm same]
  · intro other
    by_cases same : other = file
    · subst same
      simp [first.self]
    · rw [first.others other same, ← storage.live]
      simp [same]

theorem Storage.open_first (storage : w.Storage pins opens) (nonempty : fileName ≠ [])
    (stored : w.disk fileName = some contents) (unopened : w.openFiles.find fileName = none) :
    ∃ file w', DB.openFile fileName w = (.ok file, w') ∧ w'.Storage pins (file :: opens) ∧
      file ∉ opens ∧ Opens w w' opens fileName file := by
  obtain ⟨nonnull, free⟩ := storage.toFiled.new_address
  have run := open_new_file storage.reliable fileName
  simp only [stored] at run
  set file := File.newAddress w with fileDef
  obtain ⟨buckets, inserted⟩ : ∃ buckets, ChainedTable.insert OpenFileHashTbl.hash
      w.openFiles.ht fileName file = some buckets := ⟨_, ChainedTable.insert_of_absent file unopened⟩
  set opened : File := { fileName, openCnt := 1, unixFile := true } with openedDef
  set w₁ : World := { w.withNewFile (some opened) with openFiles := ⟨buckets⟩ } with w₁Def
  have first : FirstHandle w w₁ fileName file :=
    { nonnull, free, unopened
      self := by simp [w₁Def, withNewFile, setFile, ← fileDef, openedDef]
      others := fun other different => by
        simp [w₁Def, withNewFile, setFile, ← fileDef, different]
      table := ChainedTable.find_insert inserted
      distinct := ChainedTable.distinct_keys_insert storage.distinct inserted
      disk := rfl
      pool := rfl
      brk := ⟨le_max_left _ _, lt_of_lt_of_le (Nat.lt_succ_self _) (le_max_right _ _)⟩ }
  refine ⟨file, w₁, ?_, first.storage storage stored storage.reliable rfl, first.fresh storage,
    first.logical storage stored, ?_, ?_, rfl, rfl, rfl⟩
  · unfold DB.openFile
    rw [if_neg nonempty, DbM.read_bind, unopened]
    dsimp only
    have created : File.new fileName w =
      (.ok file, w.withNewFile (some { fileName, openCnt := 0, unixFile := false })) := rfl
    rw [DbM.bind_ok created, DbM.bind_ok (attempt_ok run)]
    simp only [DbM.read_bind]
    have entered : (w.withNewFile (some opened)).openFiles.insert fileName file =
        some ⟨buckets⟩ := congrArg (Option.map OpenFileHashTbl.mk) inserted
    rw [entered]
    rfl
  · simp [nameOf, first.self]
  · intro other member
    have different : other ≠ file := fun equal => first.fresh storage (equal ▸ member)
    simp [nameOf, first.others other different]

theorem Storage.open_file (storage : w.Storage pins opens) (nonempty : fileName ≠ [])
    (logical : w.logical fileName = some lf) :
    ∃ file w', DB.openFile fileName w = (.ok file, w') ∧ w'.Storage pins (file :: opens) ∧
      Opens w w' opens fileName file := by
  simp only [World.logical, Option.map_eq_some_iff] at logical
  obtain ⟨contents, stored, _⟩ := logical
  cases found : w.openFiles.find fileName with
  | some file => exact ⟨file, storage.open_again nonempty found⟩
  | none =>
      obtain ⟨file, w', run, storage', _, opens⟩ :=
        storage.open_first nonempty stored found
      exact ⟨file, w', run, storage', opens⟩

structure Closes (before after : World) (opens : List FilePtr) (file : FilePtr) : Prop where
  logical : after.logical = before.logical
  names : ∀ other ∈ opens, after.nameOf other = before.nameOf other
  bufFailed : after.bufFailed = before.bufFailed
  given : after.given = before.given
  /-- Nothing of a file that is closed for good stays in the pool. -/
  gone : file ∉ opens → ∀ frame pageNo, ¬after.bufMgr.Holds frame file pageNo

theorem unix_file_set_count (live : w.files file = some object) (count : Int) (other : FilePtr) :
    (w.setFile file (some { object with openCnt := count })).unixFile other =
      w.unixFile other := by
  by_cases same : other = file
  · subst same
    simp only [World.unixFile, setFile, Function.update_self, live]
  · simp only [World.unixFile, setFile, Function.update_of_ne same]

theorem Healthy.set_count (healthy : w.Healthy pins) (live : w.files file = some object)
    (count : Int) : (w.setFile file (some { object with openCnt := count })).Healthy pins := by
  have opened := unix_file_set_count live count
  refine healthy.same_pages rfl healthy.reliable ⟨?_, ?_⟩ (fun _ other _ _ => opened other)
  · -- names and descriptors are those of the objects as they were
    have was : ∀ other otherObject,
        (w.setFile file (some { object with openCnt := count })).files other = some otherObject →
        ∃ before, w.files other = some before ∧ otherObject.fileName = before.fileName ∧
          otherObject.unixFile = before.unixFile := by
      intro other otherObject otherLive
      by_cases same : other = file
      · subst same
        simp only [setFile, Function.update_self, Option.some.injEq] at otherLive
        subst otherLive
        exact ⟨object, live, rfl, rfl⟩
      · simp only [setFile, Function.update_of_ne same] at otherLive
        exact ⟨otherObject, otherLive, rfl, rfl⟩
    intro first second left right firstLive secondLive firstFd secondFd sameName
    obtain ⟨before, beforeLive, name, fd⟩ := was first left firstLive
    obtain ⟨before', beforeLive', name', fd'⟩ := was second right secondLive
    exact healthy.files.apart first second before before' beforeLive beforeLive'
      (by rw [← fd, firstFd]) (by rw [← fd', secondFd]) (by rw [← name, ← name', sameName])
  · intro other otherContents
    rw [opened]
    exact healthy.files.formed other otherContents

theorem Filed.set_count (filed : w.Filed) (live : w.files file = some object) (count : Int) :
    (w.setFile file (some { object with openCnt := count })).Filed := by
  have named : ∀ other name,
      (∃ otherObject, (w.setFile file (some { object with openCnt := count })).files other =
        some otherObject ∧ otherObject.fileName = name) ↔
      ∃ before, w.files other = some before ∧ before.fileName = name := by
    intro other name
    by_cases same : other = file
    · subst same
      simp [setFile, live]
    · simp [setFile, Function.update_of_ne same]
  refine ⟨filed.stored, ?_, ?_, ?_, filed.distinct, ?_, filed.brk, ?_⟩
  · intro other otherObject otherLive
    by_cases same : other = file
    · subst same
      simp only [setFile, Function.update_self, Option.some.injEq] at otherLive
      subst otherLive
      exact filed.opened other object live
    · simp only [setFile, Function.update_of_ne same] at otherLive
      exact filed.opened other otherObject otherLive
  · intro other otherObject otherLive
    obtain ⟨before, beforeLive, name⟩ := (named other otherObject.fileName).mp
      ⟨otherObject, otherLive, rfl⟩
    rw [← name]
    exact filed.present other before beforeLive
  · intro name other
    rw [named]
    exact filed.table name other
  · have different : (0 : FilePtr) ≠ file := by
      rintro rfl
      rw [filed.null] at live
      cases live
    simp only [setFile, Function.update_of_ne different, filed.null]
  · intro other bound
    have none_ := filed.above other bound
    have different : other ≠ file := by
      rintro rfl
      rw [none_] at live
      cases live
    simp only [setFile, Function.update_of_ne different, none_]

theorem logical_set_count (live : w.files file = some object) (count : Int) :
    (w.setFile file (some { object with openCnt := count })).logical = w.logical := by
  refine logical_congr rfl ?_
  intro other pageNo
  simp only [filePage, view, diskPage, unix_file_set_count live count]
  rfl

theorem Storage.close_again (storage : w.Storage pins (file :: opens)) (again : file ∈ opens) :
    ∃ w', DB.closeFile file w = (.ok (), w') ∧ w'.Storage pins opens ∧
      Closes w w' opens file := by
  obtain ⟨object, live⟩ := (storage.live file).mp List.mem_cons_self
  have count := storage.counted file object live
  have positive := List.count_pos_iff.mpr again
  rw [List.count_cons_self] at count
  push_cast at count
  have nonnull : file ≠ 0 := by
    rintro rfl
    rw [storage.null] at live
    cases live
  set w₁ := w.setFile file (some { object with openCnt := object.openCnt - 1 }) with w₁Def
  have self : w₁.files file = some { object with openCnt := object.openCnt - 1 } := by
    simp [w₁Def, setFile]
  have others : ∀ other, other ≠ file → w₁.files other = w.files other :=
    fun other different => by simp [w₁Def, setFile, different]
  have close : File.close file w = (.ok (), w₁) := by
    simp only [File.close, File.deref, DbM.bind_apply, live]
    rw [if_neg (by omega)]
    simp only [DbM.bind_apply, DbM.modify]
    rw [if_neg (by omega)]
    rfl
  have unchanged := logical_set_count live (object.openCnt - 1)
  refine ⟨w₁, ?_, ⟨storage.toHealthy.set_count live _, storage.toFiled.set_count live _,
    storage.kept.congr unchanged rfl, ?_, ?_⟩, unchanged, ?_, rfl, rfl,
    fun fresh => absurd again fresh⟩
  · unfold DB.closeFile
    rw [if_neg nonnull, DbM.bind_ok (attempt_ok close)]
    simp only [File.deref, DbM.bind_apply, self]
    rw [if_neg (by omega)]
    rfl
  · intro other otherObject otherLive
    by_cases same : other = file
    · subst same
      rw [self] at otherLive
      obtain rfl := Option.some.inj otherLive
      dsimp only
      omega
    · rw [others other same] at otherLive
      rw [storage.counted other otherObject otherLive, List.count_cons]
      simp [Ne.symm same]
  · intro other
    by_cases same : other = file
    · subst same
      simp [self, again]
    · rw [others other same, ← storage.live]
      simp [same]
  · intro other _
    by_cases same : other = file
    · subst same
      simp [nameOf, self, live]
    · simp [nameOf, others other same]

/-- The flush inside the last `File::close`: nothing is pinned, so it succeeds
and writes out everything the pool still has of the file. -/
theorem Storage.last_flush (storage : w.Storage pins opens) (live : w.files file = some object)
    (unpinned : ∀ pin ∈ pins, pin.file ≠ file) :
    let closing := w.setFile file (some { object with openCnt := 0 })
    ∃ w', BufMgr.flushFile file closing = (.ok (), w') ∧ w'.Healthy pins ∧
      Steady closing w' ∧ SameView closing w' ∧
      ∀ frame pageNo, ¬w'.bufMgr.Holds frame file pageNo := by
  intro closing
  obtain ⟨outcome, w', run, healthy, steady, same, result⟩ :=
    flush_file_spec (storage.toHealthy.set_count live 0) file
  rcases result with ⟨rfl, gone, _⟩ | ⟨status, _, null | ⟨pin, member, mine⟩⟩
  · exact ⟨w', run, healthy, steady, same, gone⟩
  · rw [null, storage.null] at live
    cases live
  · exact absurd mine (unpinned pin member)

theorem Healthy.forget (healthy : w.Healthy pins) (filed : w.Filed)
    (live : w.files file = some object)
    (gone : ∀ frame pageNo, ¬w.bufMgr.Holds frame file pageNo) {table : OpenFileHashTbl}
    (erased : w.openFiles.erase object.fileName = some table) :
    let w' : World := { w.setFile file none with openFiles := table }
    w'.Healthy pins ∧ w'.Filed ∧ w'.logical = w.logical := by
  intro w'
  have self : w'.files file = none := by simp [w', setFile]
  have others : ∀ other, other ≠ file → w'.files other = w.files other :=
    fun other different => by simp [w', setFile, different]
  have still : ∀ other otherObject, w'.files other = some otherObject →
      other ≠ file ∧ w.files other = some otherObject := by
    intro other otherObject otherLive
    have different : other ≠ file := by
      rintro rfl
      rw [self] at otherLive
      cases otherLive
    rw [others other different] at otherLive
    exact ⟨different, otherLive⟩
  have unixOther : ∀ other, other ≠ file → w'.unixFile other = w.unixFile other := by
    intro other different
    simp only [World.unixFile, others other different]
    rfl
  have tableFind : ∀ other, table.find other =
      if other = object.fileName then none else w.openFiles.find other := by
    intro other
    simp only [OpenFileHashTbl.erase, Option.map_eq_some_iff] at erased
    obtain ⟨buckets, removed, rfl⟩ := erased
    exact ChainedTable.find_remove filed.distinct removed other
  have tableDistinct : ChainedTable.DistinctKeys table.ht := by
    simp only [OpenFileHashTbl.erase, Option.map_eq_some_iff] at erased
    obtain ⟨buckets, removed, rfl⟩ := erased
    exact ChainedTable.distinct_keys_remove filed.distinct removed
  have mine := (filed.table object.fileName file).mpr ⟨object, live, rfl⟩
  refine ⟨healthy.same_pages rfl healthy.reliable ⟨?_, ?_⟩ ?_,
    ⟨filed.stored, ?_, ?_, ?_, tableDistinct, ?_, filed.brk, ?_⟩, ?_⟩
  · intro first second left right firstLive secondLive
    exact healthy.files.apart first second left right (still first left firstLive).2
      (still second right secondLive).2
  · intro other otherContents otherOpened
    obtain ⟨otherObject, otherLive, _⟩ := unix_file_live otherOpened
    rw [unixOther other (still other otherObject otherLive).1] at otherOpened
    exact healthy.files.formed other otherContents otherOpened
  · intro frame other pageNo holds
    refine unixOther other ?_
    rintro rfl
    exact gone frame pageNo holds
  · exact fun other otherObject otherLive =>
      filed.opened other otherObject (still other otherObject otherLive).2
  · exact fun other otherObject otherLive =>
      filed.present other otherObject (still other otherObject otherLive).2
  · intro name other
    change table.find name = some other ↔ _
    rw [tableFind]
    by_cases same : other = file
    · rw [same, self]
      split_ifs with here
      · simp
      · simp only [false_and, exists_false, iff_false]
        intro found
        obtain ⟨object', live', name'⟩ := (filed.table name file).mp found
        rw [live] at live'
        obtain rfl := Option.some.inj live'
        exact here name'.symm
    · rw [others other same, ← filed.table]
      split_ifs with here
      · rw [here, mine]
        simp [Ne.symm same]
      · rfl
  · by_cases same : (0 : FilePtr) = file
    · rw [same, self]
    · rw [others 0 same, filed.null]
  · intro other bound
    by_cases same : other = file
    · rw [same, self]
    · rw [others other same]
      exact filed.above other bound
  · refine logical_congr rfl ?_
    intro other pageNo
    have now : w'.openFiles.find other = _ := tableFind other
    rw [filePage, now]
    split_ifs with here
    · -- the pages are where they are read from now on
      subst here
      obtain ⟨contents, stored, opened⟩ := filed.unix_file live
      have absent : w.bufMgr.hashTable.lookup file pageNo = none := by
        cases found : w.bufMgr.hashTable.lookup file pageNo with
        | none => rfl
        | some frame => exact absurd ((healthy.residency.mapped _ _ _).mp found) (gone _ _)
      have sameDisk : w'.disk = w.disk := rfl
      simp only [filePage, mine, view, absent, disk_page_of_open opened, sameDisk, stored]
    · cases openOther : w.openFiles.find other with
      | none =>
          simp only [filePage, openOther]
          rfl
      | some otherFile =>
          have different : otherFile ≠ file := by
            rintro rfl
            obtain ⟨object', live', name'⟩ := (filed.table other _).mp openOther
            rw [live] at live'
            obtain rfl := Option.some.inj live'
            exact here name'.symm
          simp only [filePage, openOther, view, diskPage, unixOther otherFile different]
          rfl

/-- The last handle goes: the file is flushed, closed and forgotten. -/
theorem Storage.close_last (storage : w.Storage pins (file :: opens)) (last : file ∉ opens)
    (unpinned : ∀ pin ∈ pins, pin.file ≠ file) :
    ∃ w', DB.closeFile file w = (.ok (), w') ∧ w'.Storage pins opens ∧
      Closes w w' opens file := by
  obtain ⟨object, live⟩ := (storage.live file).mp List.mem_cons_self
  have count : object.openCnt = 1 := by
    rw [storage.counted file object live, List.count_cons_self, List.count_eq_zero.mpr last]
    rfl
  have nonnull : file ≠ 0 := by
    rintro rfl
    rw [storage.null] at live
    cases live
  obtain ⟨w₁, flush, healthy₁, steady₁, same₁, gone⟩ := storage.last_flush live unpinned
  have filed₀ := storage.toFiled.set_count live 0
  have filed₁ := filed₀.steady steady₁
  have kept := filed₀.same_logical steady₁ same₁
  have live₁ : w₁.files file = some { object with openCnt := 0 } := by
    rw [steady₁.files]
    simp [setFile]
  obtain ⟨table, erased⟩ : ∃ table, w₁.openFiles.erase object.fileName = some table := by
    cases erased : w₁.openFiles.erase object.fileName with
    | some table => exact ⟨table, rfl⟩
    | none =>
        simp only [OpenFileHashTbl.erase, Option.map_eq_none_iff] at erased
        have absent := ChainedTable.remove_eq_none_iff.mp erased
        have found := (filed₁.table object.fileName file).mpr ⟨_, live₁, rfl⟩
        simp only [OpenFileHashTbl.find, absent] at found
        cases found
  obtain ⟨healthy₂, filed₂, logical₂⟩ := healthy₁.forget filed₁ live₁ gone erased
  set w₂ : World := { w₁.setFile file none with openFiles := table } with w₂Def
  have others : ∀ other, other ≠ file → w₂.files other = w.files other := by
    intro other different
    simp [w₂Def, setFile, different, steady₁.files]
  have self : w₂.files file = none := by simp [w₂Def, setFile]
  have unchanged : w₂.logical = w.logical := by
    rw [logical₂, kept.logical, logical_set_count live 0]
  have given : w₂.given = w.given := steady₁.given
  refine ⟨w₂, ?_, ⟨healthy₂, filed₂, storage.kept.congr unchanged given, ?_, ?_⟩, unchanged, ?_,
    steady₁.bufFailed, given, fun _ => gone⟩
  · have closed : File.close file w = (.ok (), w₁.setFile file
        (some { object with openCnt := 0, unixFile := false })) := by
      simp only [File.close, File.deref, DbM.bind_apply, live, count]
      rw [if_neg (by decide)]
      simp only [DbM.bind_apply, DbM.modify, Int.sub_self, if_true]
      rw [attempt_ok flush]
      have calm : (w₁.setFile file (some { object with openCnt := 0, unixFile := false })).faults
        0 = false := congrFun healthy₁.reliable 0
      have still := tick_of_reliable (w := w₁.setFile file
        (some { object with openCnt := 0, unixFile := false })) healthy₁.reliable
      simp only [DbM.systemCall, calm, still, Bool.false_eq_true, if_false]
      rfl
    unfold DB.closeFile
    rw [if_neg nonnull, DbM.bind_ok (attempt_ok closed)]
    have derefed : (w₁.setFile file
        (some { object with openCnt := 0, unixFile := false })).files file =
      some { object with openCnt := 0, unixFile := false } := by simp [setFile]
    simp only [File.deref, DbM.bind_apply, derefed, if_true, DbM.read]
    have sameTable : (w₁.setFile file
      (some { object with openCnt := 0, unixFile := false })).openFiles = w₁.openFiles := rfl
    rw [sameTable, erased]
    simp only [DbM.modify, File.delete, DbM.bind_apply, w₂Def, setFile, Function.update_idem]
  · intro other otherObject otherLive
    have different : other ≠ file := by
      rintro rfl
      rw [self] at otherLive
      cases otherLive
    rw [others other different] at otherLive
    rw [storage.counted other otherObject otherLive, List.count_cons]
    simp [Ne.symm different]
  · intro other
    by_cases same : other = file
    · subst same
      simp [self, last]
    · rw [others other same, ← storage.live]
      simp [same]
  · intro other member
    have different : other ≠ file := fun equal => last (equal ▸ member)
    simp [nameOf, others other different]

theorem Storage.close_file (storage : w.Storage pins (file :: opens))
    (unpinned : file ∉ opens → ∀ pin ∈ pins, pin.file ≠ file) :
    ∃ w', DB.closeFile file w = (.ok (), w') ∧ w'.Storage pins opens ∧
      Closes w w' opens file := by
  by_cases again : file ∈ opens
  · exact storage.close_again again
  · exact storage.close_last again (unpinned again)

theorem Storage.set_disk (storage : w.Storage pins opens)
    (unopened : w.openFiles.find fileName = none) (after : Option UnixFile)
    (formed : ∀ contents, after = some contents → contents.FreeList [])
    (ungiven : ∀ pageNo, w.given fileName pageNo = none) :
    (w.setDisk fileName after).Storage pins opens ∧
      ∀ other, other ≠ fileName → (w.setDisk fileName after).logical other = w.logical other := by
  have named : ∀ file object, w.files file = some object → object.fileName ≠ fileName := by
    intro file object live equal
    rw [(storage.table fileName file).mpr ⟨object, live, equal⟩] at unopened
    cases unopened
  have opened : ∀ file, (w.setDisk fileName after).unixFile file = w.unixFile file := by
    intro file
    simp only [World.unixFile, setDisk]
    cases live : w.files file with
    | none => rfl
    | some object =>
        dsimp only
        rw [Function.update_of_ne (named file object live)]
  have others : ∀ other, other ≠ fileName →
      (w.setDisk fileName after).logical other = w.logical other := by
    intro other different
    have pages : ∀ pageNo, (w.setDisk fileName after).filePage other pageNo =
        w.filePage other pageNo := by
      intro pageNo
      simp only [filePage, view, diskPage, opened]
      simp only [setDisk, Function.update_of_ne different]
    simp only [World.logical, pages]
    simp only [setDisk, Function.update_of_ne different]
  refine ⟨⟨storage.toHealthy.same_pages rfl storage.reliable ⟨storage.files.apart, ?_⟩
    (fun _ other _ _ => opened other), ⟨?_, storage.opened, ?_, storage.table, storage.distinct,
    storage.null, storage.brk, storage.above⟩, ?_, storage.counted, storage.live⟩, others⟩
  · intro file contents
    rw [opened]
    exact storage.files.formed file contents
  · intro other contents stored
    by_cases same : other = fileName
    · subst same
      simp only [setDisk, Function.update_self] at stored
      exact formed contents stored
    · simp only [setDisk, Function.update_of_ne same] at stored
      exact storage.stored other contents stored
  · intro file object live
    obtain ⟨contents, stored⟩ := storage.present file object live
    exact ⟨contents, by simp [setDisk, named file object live, stored]⟩
  · intro other pageNo image recorded
    have recorded' : w.given other pageNo = some image := recorded
    have different : other ≠ fileName := by
      rintro rfl
      rw [ungiven pageNo] at recorded'
      cases recorded'
    rw [others other different]
    exact storage.kept other pageNo image recorded'

theorem Storage.create_file (storage : w.Storage pins opens) (nonempty : fileName ≠ [])
    (absent : w.logical fileName = none) :
    ∃ w', DB.createFile fileName w = (.ok (), w') ∧ w'.Storage pins opens ∧
      Writes w w' fileName LogicalFile.empty ∧ w'.bufFailed = w.bufFailed := by
  have missing := logical_eq_none_iff.mp absent
  have unopened := storage.toFiled.unopened missing
  set created := UnixFile.writeAt { size := 0, page := fun _ => PageImage.zero } 0
    File.emptyHeader with createdDef
  have formed : created.FreeList [] :=
    ⟨by simp [createdDef, UnixFile.writeAt],
      by simp [createdDef, UnixFile.writeAt, File.emptyHeader],
      by simp [createdDef, UnixFile.writeAt, File.emptyHeader, UnixFile.FreeChain],
      List.nodup_nil⟩
  have ungiven : ∀ pageNo, w.given fileName pageNo = none := by
    intro pageNo
    by_contra some_
    obtain ⟨image, recorded⟩ := Option.ne_none_iff_exists'.mp some_
    obtain ⟨lf, logical, _⟩ := storage.kept fileName pageNo image recorded
    rw [absent] at logical
    cases logical
  obtain ⟨storage', others⟩ := storage.set_disk unopened (some created)
    (fun contents equal => Option.some.inj equal ▸ formed) ungiven
  refine ⟨w.setDisk fileName (some created), ?_, storage',
    ⟨rfl, rfl, ?_, fun _ _ before => before⟩, rfl⟩
  · have calm : ∀ n, w.faults n = false := fun n => congrFun storage.reliable n
    have still := tick_of_reliable storage.reliable
    have stillDisk : ∀ now, (w.setDisk fileName now).tick = w.setDisk fileName now :=
      fun now => tick_of_reliable (w := w.setDisk fileName now) storage.reliable
    have calmDisk : ∀ now, (w.setDisk fileName now).faults 0 = false := fun _ => calm 0
    unfold DB.createFile
    rw [if_neg nonempty, DbM.read_bind, unopened]
    simp only [File.create, DbM.bind_apply, DbM.systemCall, calm, still, DbM.read, missing,
      DbM.modify, Bool.false_eq_true, if_false, calmDisk, stillDisk, set_disk_twice]
    rfl
  · funext other
    by_cases same : other = fileName
    · subst same
      have stored : (w.setDisk other (some created)).disk other = some created := by
        simp [setDisk]
      rw [Function.update_self, logical_eq_some stored]
      simp only [LogicalFile.empty, Option.some.injEq, LogicalFile.mk.injEq]
      refine ⟨rfl, by simp [createdDef, UnixFile.writeAt, File.emptyHeader], ?_⟩
      funext pageNo
      rw [if_neg]
      rintro ⟨lower, upper⟩
      have one : created.size = 1 := rfl
      rw [one] at upper
      omega
    · rw [Function.update_of_ne same, others other same]

theorem Storage.forget_given (storage : w.Storage pins opens) (fileName : FileName) :
    ({ w with given := Function.update w.given fileName fun _ => none } : World).Storage
      pins opens := by
  refine ⟨⟨⟨storage.reliable, ⟨storage.files.apart, storage.files.formed⟩, storage.held,
    storage.pinned, storage.held_by, storage.clean⟩, storage.residency⟩,
    ⟨storage.stored, storage.opened, storage.present, storage.table, storage.distinct,
      storage.null, storage.brk, storage.above⟩, ?_, storage.counted, storage.live⟩
  intro other pageNo image recorded
  by_cases same : other = fileName
  · subst same
    simp at recorded
  · simp only [Function.update_of_ne same] at recorded
    exact storage.kept other pageNo image recorded

theorem Storage.destroy_file (storage : w.Storage pins opens) (nonempty : fileName ≠ [])
    (exists_ : w.logical fileName = some lf) (unopened : w.openFiles.find fileName = none) :
    ∃ w', DB.destroyFile fileName w = (.ok (), w') ∧ w'.Storage pins opens ∧
      w'.files = w.files ∧ w'.openFiles = w.openFiles ∧
      w'.logical = Function.update w.logical fileName none ∧ w'.bufFailed = w.bufFailed := by
  simp only [World.logical, Option.map_eq_some_iff] at exists_
  obtain ⟨contents, stored, _⟩ := exists_
  obtain ⟨storage', others⟩ := (storage.forget_given fileName).set_disk unopened none
    (fun _ none_ => by cases none_) (fun pageNo => by simp)
  have calm : w.faults 0 = false := congrFun storage.reliable 0
  refine ⟨w.unlink fileName, ?_, storage', rfl, rfl, ?_, rfl⟩
  · unfold DB.destroyFile
    rw [if_neg nonempty, DbM.read_bind, unopened]
    simp only [File.destroy, DbM.bind_apply, DbM.systemCall, calm,
      tick_of_reliable storage.reliable, DbM.read, stored, Bool.false_eq_true, if_false]
    rfl
  · funext other
    by_cases same : other = fileName
    · subst same
      rw [Function.update_self, logical_eq_none_iff]
      simp [unlink, setDisk]
    · rw [Function.update_of_ne same]
      exact others other same

theorem destroy_open (nonempty : fileName ≠ []) (found : w.openFiles.find fileName = some file) :
    DB.destroyFile fileName w = (.err .FILEOPEN, w) := by
  unfold DB.destroyFile
  rw [if_neg nonempty, DbM.read_bind, found]
  rfl

theorem Storage.destroy_missing (storage : w.Storage pins opens) (nonempty : fileName ≠ [])
    (absent : w.logical fileName = none) :
    DB.destroyFile fileName w = (.err .UNIXERR, w) := by
  have missing := logical_eq_none_iff.mp absent
  have unopened := storage.toFiled.unopened missing
  have calm : w.faults 0 = false := congrFun storage.reliable 0
  unfold DB.destroyFile
  rw [if_neg nonempty, DbM.read_bind, unopened]
  simp only [File.destroy, DbM.bind_apply, DbM.systemCall, calm,
    tick_of_reliable storage.reliable, DbM.read, missing, Bool.false_eq_true, if_false]
  rfl

end PrimitiveDB.World

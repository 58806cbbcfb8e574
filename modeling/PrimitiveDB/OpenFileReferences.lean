import PrimitiveDB.OpenFileContracts
import PrimitiveDB.PageAllocation

/-!
# Counting the opens of a file

The open count of a file is kept in its `File` object and is implied by the
open-file table. Clients that create, open, close and destroy files under any
names see both agree with the opens and closes they made. Nothing is assumed
about the disk or the buffer pool, except that no system call fails.
-/

namespace PrimitiveDB

set_option autoImplicit false

namespace World

/-- The objects and the table are the same, and system calls still succeed. -/
structure SameObjects (before after : World) : Prop where
  files : after.files = before.files
  openFiles : after.openFiles = before.openFiles
  brk : after.brk = before.brk
  reliable : before.Reliable → after.Reliable

theorem SameObjects.refl (w : World) : SameObjects w w := ⟨rfl, rfl, rfl, id⟩

theorem SameObjects.trans {first second third : World} (left : SameObjects first second)
    (right : SameObjects second third) : SameObjects first third :=
  ⟨right.files.trans left.files, right.openFiles.trans left.openFiles, right.brk.trans left.brk,
    fun reliable => right.reliable (left.reliable reliable)⟩

theorem same_objects_tick (w : World) : SameObjects w w.tick := by
  refine ⟨rfl, rfl, rfl, fun reliable => ?_⟩
  rw [tick_of_reliable reliable]
  exact reliable

end World

open World

theorem DbM.modify_bind {β : Type} (update : World → World) (next : Unit → DbM β) (w : World) :
    (DbM.modify update >>= next) w = next () (update w) := rfl

theorem File.write_page_objects {w : World} {file : FilePtr} {object : File}
    (live : w.files file = some object) (pageNo : Int) (image : PageImage) :
    (File.writePage file pageNo image w).1 ≠ .crash ∧
      SameObjects w (File.writePage file pageNo image w).2 := by
  unfold File.writePage
  split
  · exact ⟨by simp [DbM.fail], SameObjects.refl w⟩
  · rcases File.intwrite_cases file pageNo image w with ⟨dead, _⟩ | run | ⟨_, _, _, _, _, _, run⟩
    · rw [live] at dead
      cases dead
    · rw [run]
      exact ⟨by simp, same_objects_tick w⟩
    · rw [run]
      exact ⟨by simp, (same_objects_tick w).trans ⟨rfl, rfl, rfl, id⟩⟩

namespace BufMgr

variable {file : FilePtr} {object : File}

theorem flush_frame_objects {w : World} (live : w.files file = some object) (frame : Nat) :
    (flushFrame file frame w).1 ≠ .crash ∧ SameObjects w (flushFrame file frame w).2 := by
  by_cases mine : (w.bufMgr.bufTable frame).file = file
  · cases valid : (w.bufMgr.bufTable frame).valid with
    | false =>
        have run : flushFrame file frame w = (.err .BADBUFFER, w) := by
          simp only [flushFrame, DbM.read_bind]
          rw [if_neg (by simp [valid]), if_pos (by simp [valid, mine])]
          rfl
        rw [run]
        exact ⟨by simp, SameObjects.refl w⟩
    | true =>
        by_cases pinned : (w.bufMgr.bufTable frame).pinCnt > 0
        · rw [flush_frame_pinned w file frame ⟨valid, mine⟩ pinned]
          exact ⟨by simp, SameObjects.refl w⟩
        · rw [flush_frame_unpinned w file frame ⟨valid, mine⟩ (by omega)]
          split
          · have written := File.write_page_objects live (w.bufMgr.bufTable frame).pageNo
              (w.bufMgr.bufPool frame)
            rw [DbM.bind_apply]
            rcases run : File.writePage file (w.bufMgr.bufTable frame).pageNo
              (w.bufMgr.bufPool frame) w with ⟨value | status | _, w'⟩ <;> rw [run] at written
            · exact ⟨by simp [DbM.modifyPool, DbM.modify], written.2.trans ⟨rfl, rfl, rfl, id⟩⟩
            · exact ⟨by simp, written.2⟩
            · exact absurd rfl written.1
          · exact ⟨by simp, ⟨rfl, rfl, rfl, id⟩⟩
  · rw [flush_frame_other w file frame mine]
    exact ⟨by simp, SameObjects.refl w⟩

theorem flush_frames_objects (frames : List Nat) {w : World} (live : w.files file = some object) :
    (flushFrames file frames w).1 ≠ .crash ∧ SameObjects w (flushFrames file frames w).2 := by
  induction frames generalizing w with
  | nil => exact ⟨by simp [flushFrames, DbM.pure_apply], SameObjects.refl w⟩
  | cons frame frames ih =>
      have first := flush_frame_objects live frame
      rw [flushFrames, DbM.bind_apply]
      rcases run : flushFrame file frame w with ⟨value | status | _, w'⟩ <;> rw [run] at first
      · have later := ih (first.2.files ▸ live)
        exact ⟨later.1, first.2.trans later.2⟩
      · exact ⟨by simp, first.2⟩
      · exact absurd rfl first.1

end BufMgr

/-- Without faults `close` takes one off the open count, whatever the flush says. -/
theorem File.close_run {w : World} {file : FilePtr} {object : File} (reliable : w.Reliable)
    (live : w.files file = some object) (positive : 0 < object.openCnt) :
    ∃ w' openFd, File.close file w = (.ok (), w') ∧ w'.Reliable ∧ w'.openFiles = w.openFiles ∧
      w'.brk = w.brk ∧ w'.files = Function.update w.files file
        (some { object with openCnt := object.openCnt - 1, unixFile := openFd }) := by
  unfold File.close
  rw [DbM.bind_ok (show File.deref file w = (.ok object, w) by simp [File.deref, live]),
    if_neg (by omega), DbM.modify_bind]
  split
  · set w₁ := w.setFile file (some { object with openCnt := object.openCnt - 1 }) with first
    have live₁ : w₁.files file = some { object with openCnt := object.openCnt - 1 } :=
      Function.update_self _ _ _
    have flushed := BufMgr.flush_frames_objects (List.range w₁.bufMgr.numBufs) live₁
    obtain ⟨result, w₂, run, same⟩ : ∃ result w₂,
        DbM.attempt (BufMgr.flushFile file) w₁ = (.ok result, w₂) ∧ SameObjects w₁ w₂ := by
      unfold DbM.attempt BufMgr.flushFile
      rw [DbM.read_bind]
      rcases done : BufMgr.flushFrames file (List.range w₁.bufMgr.numBufs) w₁
        with ⟨value | status | _, w₂⟩ <;> rw [done] at flushed
      · exact ⟨_, _, rfl, flushed.2⟩
      · exact ⟨_, _, rfl, flushed.2⟩
      · exact absurd rfl flushed.1
    have reliable₂ := same.reliable reliable
    rw [DbM.bind_ok run, DbM.modify_bind]
    set w₃ := w₂.setFile file
      (some { object with openCnt := object.openCnt - 1, unixFile := false }) with third
    have calm : w₃.faults 0 = false := congrFun reliable₂ 0
    rw [DbM.bind_ok (show DbM.systemCall w₃ = (.ok false, w₃) by
      rw [DbM.systemCall, calm, tick_of_reliable (w := w₃) reliable₂]), if_neg Bool.false_ne_true]
    refine ⟨w₃, false, rfl, reliable₂, same.openFiles, same.brk, ?_⟩
    rw [third, setFile, same.files, first, setFile]
    exact Function.update_idem _ _ _
  · exact ⟨_, object.unixFile, rfl, reliable, rfl, rfl, rfl⟩

inductive FileCall where
  | createFile (fileName : FileName)
  | openFile (fileName : FileName)
  | closeFile (file : FilePtr)
  | destroyFile (fileName : FileName)

structure FileClient where
  world : World
  /-- The number of successful opens of each name. -/
  opened : FileName → Nat
  closed : FileName → Nat
  /-- The results of the opens that are not closed yet. -/
  handles : List (FileName × FilePtr)

namespace FileClient

def call (client : FileClient) : FileCall → FileClient
  | .createFile fileName => { client with world := (DB.createFile fileName client.world).2 }
  | .openFile fileName =>
      match DB.openFile fileName client.world with
      | (.ok file, w) =>
          { client with
            world := w
            opened := Function.update client.opened fileName (client.opened fileName + 1)
            handles := (fileName, file) :: client.handles }
      | (_, w) => { client with world := w }
  | .closeFile file =>
      let w := (DB.closeFile file client.world).2
      match client.handles.find? fun handle => handle.2 = file with
      | some handle =>
          { client with
            world := w
            closed := Function.update client.closed handle.1 (client.closed handle.1 + 1)
            handles := client.handles.erase handle }
      | none => { client with world := w }
  | .destroyFile fileName => { client with world := (DB.destroyFile fileName client.world).2 }

/-- A `File*` is closed while an open that returned it is not closed. -/
def Permits (client : FileClient) : FileCall → Prop
  | .closeFile file => ∃ handle ∈ client.handles, handle.2 = file
  | _ => True

def Step (client client' : FileClient) : Prop :=
  ∃ call, client.Permits call ∧ client' = client.call call

structure Starts (client : FileClient) : Prop where
  reliable : client.world.Reliable
  files : client.world.files = fun _ => none
  openFiles : client.world.openFiles = { ht := ChainedTable.empty }
  brk : 0 < client.world.brk
  opened : client.opened = fun _ => 0
  closed : client.closed = fun _ => 0
  handles : client.handles = []

end FileClient

namespace World

variable {w w' : World} {handles : List (FileName × FilePtr)} {file : FilePtr}
  {fileName : FileName} {object : File}

/-- The objects and the table agree with the handles that are open. -/
structure Referenced (w : World) (handles : List (FileName × FilePtr)) : Prop where
  reliable : w.Reliable
  table : ∀ fileName file, w.openFiles.find fileName = some file ↔
    ∃ object, w.files file = some object ∧ object.fileName = fileName
  distinct : ChainedTable.DistinctKeys w.openFiles.ht
  null : w.files 0 = none
  brk : 0 < w.brk
  above : ∀ file, w.brk ≤ file → w.files file = none
  counted : ∀ file object, w.files file = some object →
    object.openCnt = handles.count (object.fileName, file)
  live : ∀ fileName file, (fileName, file) ∈ handles ↔
    ∃ object, w.files file = some object ∧ object.fileName = fileName
  named : ∀ handle ∈ handles, handle.1 ≠ []

theorem Referenced.found_iff (referenced : w.Referenced handles) (fileName : FileName)
    (file : FilePtr) :
    w.openFiles.find fileName = some file ↔ (fileName, file) ∈ handles := by
  rw [referenced.table, referenced.live]

theorem Referenced.congr (referenced : w.Referenced handles) (reliable : w'.Reliable)
    (files : w'.files = w.files) (openFiles : w'.openFiles = w.openFiles)
    (brk : w.brk ≤ w'.brk) : w'.Referenced handles where
  reliable := reliable
  table := by rw [openFiles, files]; exact referenced.table
  distinct := by rw [openFiles]; exact referenced.distinct
  null := by rw [files]; exact referenced.null
  brk := lt_of_lt_of_le referenced.brk brk
  above := by
    rw [files]
    exact fun file bound => referenced.above file (brk.trans bound)
  counted := by rw [files]; exact referenced.counted
  live := by rw [files]; exact referenced.live
  named := referenced.named

theorem Referenced.new_address (referenced : w.Referenced handles) :
    File.newAddress w ≠ 0 ∧ w.files (File.newAddress w) = none := by
  unfold File.newAddress
  split_ifs with chosen
  · exact chosen
  · exact ⟨Nat.pos_iff_ne_zero.mp referenced.brk, referenced.above w.brk (le_refl _)⟩

/-- The open count of one object changes along with the handles on it. -/
theorem Referenced.set_count (referenced : w.Referenced handles)
    {handles' : List (FileName × FilePtr)} (live : w.files file = some object)
    (object' : File) (name : object'.fileName = object.fileName) (reliable : w'.Reliable)
    (files : w'.files = Function.update w.files file (some object'))
    (openFiles : w'.openFiles = w.openFiles) (brk : w'.brk = w.brk)
    (count : object'.openCnt = handles'.count (object.fileName, file))
    (others : ∀ handle, handle ≠ (object.fileName, file) →
      handles'.count handle = handles.count handle)
    (still : (object.fileName, file) ∈ handles') : w'.Referenced handles' := by
  have self : w'.files file = some object' := by rw [files, Function.update_self]
  have other : ∀ address, address ≠ file → w'.files address = w.files address := by
    intro address different
    rw [files, Function.update_of_ne different]
  have member : ∀ handle, handle ≠ (object.fileName, file) →
      (handle ∈ handles' ↔ handle ∈ handles) := by
    intro handle different
    rw [← List.count_pos_iff, ← List.count_pos_iff, others handle different]
  have objects : ∀ address fileName, (∃ found, w'.files address = some found ∧
      found.fileName = fileName) ↔
      ∃ found, w.files address = some found ∧ found.fileName = fileName := by
    intro address fileName
    by_cases same : address = file
    · subst same
      simp [self, live, name]
    · rw [other address same]
  have before : (object.fileName, file) ∈ handles :=
    (referenced.live _ _).mpr ⟨object, live, rfl⟩
  refine ⟨reliable, ?_, ?_, ?_, ?_, ?_, ?_, ?_, ?_⟩
  · intro fileName address
    rw [openFiles, objects]
    exact referenced.table fileName address
  · rw [openFiles]
    exact referenced.distinct
  · rw [other 0 (by rintro rfl; rw [referenced.null] at live; cases live)]
    exact referenced.null
  · rw [brk]
    exact referenced.brk
  · intro address bound
    have free := referenced.above address (brk ▸ bound)
    rw [other address (by rintro rfl; rw [free] at live; cases live)]
    exact free
  · intro address found foundLive
    by_cases same : address = file
    · subst same
      rw [self] at foundLive
      obtain rfl := Option.some.inj foundLive
      rw [name]
      exact count
    · rw [other address same] at foundLive
      rw [others _ (fun equal => same (congrArg Prod.snd equal))]
      exact referenced.counted address found foundLive
  · intro fileName address
    rw [objects, ← referenced.live]
    by_cases same : (fileName, address) = (object.fileName, file)
    · rw [same]
      exact ⟨fun _ => before, fun _ => still⟩
    · exact member _ same
  · intro handle listed
    by_cases same : handle = (object.fileName, file)
    · exact referenced.named handle (same ▸ before)
    · exact referenced.named handle ((member handle same).mp listed)

theorem Referenced.open_again (referenced : w.Referenced handles) (nonempty : fileName ≠ [])
    (found : w.openFiles.find fileName = some file) :
    ∃ w', DB.openFile fileName w = (.ok file, w') ∧
      w'.Referenced ((fileName, file) :: handles) ∧ w'.openFiles = w.openFiles := by
  obtain ⟨object, live, rfl⟩ := (referenced.table _ _).mp found
  have count := referenced.counted file object live
  have positive := List.count_pos_iff.mpr ((referenced.live _ _).mpr ⟨object, live, rfl⟩)
  have run : File.open_ file w =
      (.ok (), w.setFile file (some { object with openCnt := object.openCnt + 1 })) := by
    simp only [File.open_, File.deref, DbM.bind_apply, live]
    rw [if_neg (by rw [count]; omega)]
    rfl
  refine ⟨w.setFile file (some { object with openCnt := object.openCnt + 1 }), ?_,
    referenced.set_count live { object with openCnt := object.openCnt + 1 } rfl
      referenced.reliable rfl rfl rfl ?_ ?_ (List.mem_cons_self ..), rfl⟩
  · unfold DB.openFile
    rw [if_neg nonempty, DbM.read_bind, found]
    dsimp only
    rw [DbM.bind_ok run]
    rfl
  · dsimp only
    rw [List.count_cons_self, count]
    push_cast
    rfl
  · intro handle different
    rw [List.count_cons_of_ne (Ne.symm different)]

theorem Referenced.open_first (referenced : w.Referenced handles) (nonempty : fileName ≠ [])
    (unopened : w.openFiles.find fileName = none) (stored : (w.disk fileName).isSome) :
    ∃ file w', DB.openFile fileName w = (.ok file, w') ∧
      w'.Referenced ((fileName, file) :: handles) ∧ w.files file = none ∧
      ∀ other, w'.openFiles.find other =
        if other = fileName then some file else w.openFiles.find other := by
  obtain ⟨contents, stored⟩ := Option.isSome_iff_exists.mp stored
  obtain ⟨nonnull, free⟩ := referenced.new_address
  have run := open_new_file referenced.reliable fileName
  simp only [stored] at run
  set file := File.newAddress w with fileDef
  obtain ⟨buckets, inserted⟩ : ∃ buckets,
      ChainedTable.insert OpenFileHashTbl.hash w.openFiles.ht fileName file = some buckets :=
    ⟨_, ChainedTable.insert_of_absent file unopened⟩
  have tableFind : ∀ other, (OpenFileHashTbl.mk buckets).find other =
      if other = fileName then some file else w.openFiles.find other :=
    fun other => ChainedTable.find_insert inserted other
  set opened : File := { fileName, openCnt := 1, unixFile := true } with openedDef
  set w' : World := { w.withNewFile (some opened) with openFiles := ⟨buckets⟩ } with w'Def
  have self : w'.files file = some opened := Function.update_self _ _ _
  have others : ∀ address, address ≠ file → w'.files address = w.files address :=
    fun address different => Function.update_of_ne different _ _
  have fresh : ∀ name, (name, file) ∉ handles := by
    intro name member
    obtain ⟨object, live, _⟩ := (referenced.live _ _).mp member
    rw [free] at live
    cases live
  refine ⟨file, w', ?_, ⟨referenced.reliable, ?_, ?_, ?_, ?_, ?_, ?_, ?_, ?_⟩, free, tableFind⟩
  · unfold DB.openFile
    rw [if_neg nonempty, DbM.read_bind, unopened]
    dsimp only
    have created : File.new fileName w = (.ok file,
      w.withNewFile (some { fileName, openCnt := 0, unixFile := false })) := rfl
    rw [DbM.bind_ok created, DbM.bind_ok (attempt_ok run)]
    dsimp only
    rw [DbM.read_bind]
    have entered : (w.withNewFile (some opened)).openFiles.insert fileName file =
        some ⟨buckets⟩ := by
      change Option.map _ (ChainedTable.insert OpenFileHashTbl.hash w.openFiles.ht fileName file) = _
      rw [inserted]
      rfl
    rw [entered]
    rfl
  · intro name address
    rw [tableFind]
    by_cases same : address = file
    · subst same
      rw [self]
      by_cases named : name = fileName
      · simp [named, openedDef]
      · have absent : w.openFiles.find name ≠ some file := fun found =>
          fresh name ((referenced.found_iff _ _).mp found)
        simp [named, Ne.symm named, openedDef, absent]
    · rw [others address same, ← referenced.table]
      by_cases named : name = fileName
      · subst named
        simp [unopened, Ne.symm same]
      · rw [if_neg named]
  · exact ChainedTable.distinct_keys_insert referenced.distinct inserted
  · rw [others 0 (Ne.symm nonnull)]
    exact referenced.null
  · exact lt_of_lt_of_le referenced.brk (le_max_left _ _)
  · intro address bound
    have above : max w.brk (file + 1) ≤ address := bound
    have later : file < address := (le_max_right _ _).trans above
    rw [others address (Nat.ne_of_gt later)]
    exact referenced.above address ((le_max_left _ _).trans above)
  · intro address object live
    by_cases same : address = file
    · subst same
      rw [self] at live
      obtain rfl := Option.some.inj live
      rw [List.count_cons_self, List.count_eq_zero.mpr (fresh _)]
      rfl
    · rw [others address same] at live
      rw [List.count_cons_of_ne (fun equal => same (congrArg Prod.snd equal).symm)]
      exact referenced.counted address object live
  · intro name address
    rw [List.mem_cons]
    by_cases same : address = file
    · subst same
      simp [self, fresh, openedDef, eq_comm]
    · rw [others address same, ← referenced.live]
      simp [same]
  · intro handle member
    rcases List.mem_cons.mp member with rfl | earlier
    · exact nonempty
    · exact referenced.named handle earlier

theorem Referenced.open_missing (referenced : w.Referenced handles) (nonempty : fileName ≠ [])
    (unopened : w.openFiles.find fileName = none) (absent : w.disk fileName = none) :
    ∃ w', DB.openFile fileName w = (.err .UNIXERR, w') ∧ w'.Referenced handles ∧
      w'.openFiles = w.openFiles := by
  have run := open_new_file referenced.reliable fileName
  simp only [absent] at run
  have restored : (w.withNewFile none).files = w.files := by
    simp [withNewFile, setFile, ← referenced.new_address.2]
  refine ⟨w.withNewFile none, ?_, referenced.congr referenced.reliable restored rfl
    (le_max_left _ _), rfl⟩
  unfold DB.openFile
  rw [if_neg nonempty, DbM.read_bind, unopened]
  dsimp only
  have created : File.new fileName w =
    (.ok (File.newAddress w), w.withNewFile
      (some { fileName, openCnt := 0, unixFile := false })) := rfl
  rw [DbM.bind_ok created, DbM.bind_ok (attempt_err run)]
  simp only [File.delete, DbM.bind_apply, DbM.modify, set_file_with_new_file, DbM.fail]

theorem Referenced.forget (referenced : w.Referenced handles)
    {handles' : List (FileName × FilePtr)} (live : w.files file = some object)
    (reliable : w'.Reliable) (files : w'.files = Function.update w.files file none)
    (tableFind : ∀ other, w'.openFiles.find other =
      if other = object.fileName then none else w.openFiles.find other)
    (distinct : ChainedTable.DistinctKeys w'.openFiles.ht) (brk : w'.brk = w.brk)
    (others : ∀ handle, handle ≠ (object.fileName, file) →
      handles'.count handle = handles.count handle)
    (gone : (object.fileName, file) ∉ handles') : w'.Referenced handles' := by
  have self : w'.files file = none := by rw [files, Function.update_self]
  have other : ∀ address, address ≠ file → w'.files address = w.files address := by
    intro address different
    rw [files, Function.update_of_ne different]
  have member : ∀ handle, handle ≠ (object.fileName, file) →
      (handle ∈ handles' ↔ handle ∈ handles) := by
    intro handle different
    rw [← List.count_pos_iff, ← List.count_pos_iff, others handle different]
  have named : ∀ fileName, (fileName, file) ∈ handles → fileName = object.fileName := by
    intro fileName listed
    obtain ⟨found, foundLive, rfl⟩ := (referenced.live _ _).mp listed
    rw [live] at foundLive
    rw [Option.some.inj foundLive]
  have mine : w.openFiles.find object.fileName = some file :=
    (referenced.table _ _).mpr ⟨object, live, rfl⟩
  refine ⟨reliable, ?_, distinct, ?_, ?_, ?_, ?_, ?_, ?_⟩
  · intro fileName address
    rw [tableFind]
    by_cases same : address = file
    · subst same
      simp only [self, reduceCtorEq, false_and, exists_false, iff_false]
      by_cases name : fileName = object.fileName
      · simp [name]
      · rw [if_neg name, referenced.found_iff]
        exact fun listed => name (named fileName listed)
    · rw [other address same, ← referenced.table]
      by_cases name : fileName = object.fileName
      · rw [if_pos name, name, mine]
        simp [Ne.symm same]
      · rw [if_neg name]
  · by_cases same : (0 : FilePtr) = file
    · rw [same]
      exact self
    · rw [other 0 same]
      exact referenced.null
  · rw [brk]
    exact referenced.brk
  · intro address bound
    by_cases same : address = file
    · rw [same]
      exact self
    · rw [other address same]
      exact referenced.above address (brk ▸ bound)
  · intro address found foundLive
    have same : address ≠ file := by
      rintro rfl
      rw [self] at foundLive
      cases foundLive
    rw [other address same] at foundLive
    rw [others _ (fun equal => same (congrArg Prod.snd equal))]
    exact referenced.counted address found foundLive
  · intro fileName address
    by_cases same : address = file
    · subst same
      simp only [self, reduceCtorEq, false_and, exists_false, iff_false]
      intro listed
      by_cases name : fileName = object.fileName
      · exact gone (name ▸ listed)
      · exact name (named fileName
          ((member _ (fun equal => name (congrArg Prod.fst equal))).mp listed))
    · rw [other address same, ← referenced.live]
      exact member _ (fun equal => same (congrArg Prod.snd equal))
  · intro handle listed
    have different : handle ≠ (object.fileName, file) := by
      rintro rfl
      exact gone listed
    exact referenced.named handle ((member handle different).mp listed)

theorem Referenced.close (referenced : w.Referenced handles)
    (member : (fileName, file) ∈ handles) :
    ∃ w', DB.closeFile file w = (.ok (), w') ∧ w'.Referenced (handles.erase (fileName, file)) ∧
      ∀ other, other ≠ fileName → w'.openFiles.find other = w.openFiles.find other := by
  obtain ⟨object, live, rfl⟩ := (referenced.live _ _).mp member
  have count := referenced.counted file object live
  have positive := List.count_pos_iff.mpr member
  have nonnull : file ≠ 0 := by
    rintro rfl
    rw [referenced.null] at live
    cases live
  obtain ⟨w₁, openFd, run, reliable, openFiles, brk, files⟩ :=
    File.close_run referenced.reliable live (by rw [count]; omega)
  set object' : File := { object with openCnt := object.openCnt - 1, unixFile := openFd }
    with objectDef
  have self : w₁.files file = some object' := by rw [files, Function.update_self]
  have less : ∀ handle, handle ≠ (object.fileName, file) →
      (handles.erase (object.fileName, file)).count handle = handles.count handle :=
    fun handle different => List.count_erase_of_ne different
  have here : (handles.erase (object.fileName, file)).count (object.fileName, file) =
      handles.count (object.fileName, file) - 1 := List.count_erase_self
  unfold DB.closeFile
  rw [if_neg nonnull, DbM.bind_ok (attempt_ok run),
    DbM.bind_ok (show File.deref file w₁ = (.ok object', w₁) by simp [File.deref, self])]
  by_cases last : object'.openCnt = 0
  · rw [if_pos last, DbM.read_bind]
    have found : w₁.openFiles.find object.fileName = some file := by
      rw [openFiles]
      exact (referenced.found_iff _ _).mpr member
    obtain ⟨buckets, removed⟩ : ∃ buckets,
        ChainedTable.remove OpenFileHashTbl.hash w₁.openFiles.ht object.fileName = some buckets := by
      apply Option.ne_none_iff_exists'.mp
      intro none_
      have absent : w₁.openFiles.find object.fileName = none :=
        ChainedTable.remove_eq_none_iff.mp none_
      rw [found] at absent
      cases absent
    have erased : w₁.openFiles.erase object'.fileName = some ⟨buckets⟩ := by
      change Option.map _ (ChainedTable.remove _ _ object.fileName) = _
      rw [removed]
      rfl
    rw [openFiles] at removed
    have tableFind : ∀ other, (OpenFileHashTbl.mk buckets).find other =
        if other = object.fileName then none else w.openFiles.find other :=
      fun other => ChainedTable.find_remove referenced.distinct removed other
    have none_ : (object.fileName, file) ∉ handles.erase (object.fileName, file) := by
      rw [← List.count_pos_iff, here]
      have zero : object.openCnt - 1 = 0 := last
      omega
    rw [erased]
    refine ⟨_, rfl, referenced.forget live reliable ?_ tableFind
      (ChainedTable.distinct_keys_remove referenced.distinct removed) brk less none_, ?_⟩
    · change Function.update w₁.files file none = _
      rw [files, Function.update_idem]
    · intro other different
      change (OpenFileHashTbl.mk buckets).find other = _
      rw [tableFind, if_neg different]
  · rw [if_neg last]
    refine ⟨w₁, rfl, referenced.set_count live object' rfl reliable files openFiles brk ?_
      less ?_, fun other _ => by rw [openFiles]⟩
    · rw [here, objectDef]
      dsimp only
      rw [count]
      omega
    · rw [← List.count_pos_iff, here]
      have more : object.openCnt - 1 ≠ 0 := last
      omega

end World

namespace FileClient

variable {client client' : FileClient} {fileName : FileName} {file : FilePtr}

/-- The counts of a client and the objects behind them. -/
structure InStep (client : FileClient) : Prop where
  referenced : client.world.Referenced client.handles
  balance : ∀ fileName, client.closed fileName + (client.handles.map Prod.fst).count fileName =
    client.opened fileName

theorem starts_in_step (starts : client.Starts) : client.InStep := by
  have found : ∀ fileName, client.world.openFiles.find fileName = none := by
    intro fileName
    rw [starts.openFiles]
    rfl
  refine ⟨⟨starts.reliable, ?_, ?_, ?_, starts.brk, ?_, ?_, ?_, ?_⟩, ?_⟩
  · intro fileName file
    simp [found, starts.files]
  · rw [starts.openFiles]
    exact ChainedTable.distinct_keys_empty
  · rw [starts.files]
  · rw [starts.files]
    exact fun _ _ => rfl
  · simp [starts.files]
  · simp [starts.files, starts.handles]
  · simp [starts.handles]
  · simp [starts.handles, starts.opened, starts.closed]

theorem InStep.count_names (inStep : client.InStep)
    (found : client.world.openFiles.find fileName = some file) :
    (client.handles.map Prod.fst).count fileName = client.handles.count (fileName, file) := by
  rw [List.count, List.count, List.countP_map]
  apply List.countP_congr
  intro handle member
  simp only [Function.comp_apply, beq_iff_eq]
  constructor
  · rintro rfl
    have same := (inStep.referenced.found_iff handle.1 handle.2).mpr member
    rw [found] at same
    rw [Option.some.inj same]
  · rintro rfl
    rfl

theorem InStep.found_iff (inStep : client.InStep) :
    (∃ file, client.world.openFiles.find fileName = some file) ↔
      client.closed fileName < client.opened fileName := by
  have balance := inStep.balance fileName
  have positive : 0 < (client.handles.map Prod.fst).count fileName ↔
      ∃ file, client.world.openFiles.find fileName = some file := by
    rw [List.count_pos_iff, List.mem_map]
    constructor
    · rintro ⟨handle, member, rfl⟩
      exact ⟨handle.2, (inStep.referenced.found_iff _ _).mpr member⟩
    · rintro ⟨file, found⟩
      exact ⟨(fileName, file), (inStep.referenced.found_iff _ _).mp found, rfl⟩
  rw [← positive]
  omega

theorem InStep.open_count (inStep : client.InStep)
    (found : client.world.openFiles.find fileName = some file) :
    ∃ object, client.world.files file = some object ∧ object.fileName = fileName ∧
      object.openCnt = client.opened fileName - client.closed fileName := by
  obtain ⟨object, live, rfl⟩ := (inStep.referenced.table _ _).mp found
  have balance := inStep.balance object.fileName
  rw [inStep.count_names found] at balance
  refine ⟨object, live, rfl, ?_⟩
  rw [inStep.referenced.counted file object live]
  omega

theorem InStep.same_objects (inStep : client.InStep) {w : World}
    (same : SameObjects client.world w) : InStep { client with world := w } :=
  ⟨inStep.referenced.congr (same.reliable inStep.referenced.reliable) same.files same.openFiles
    (le_of_eq same.brk.symm), inStep.balance⟩

theorem InStep.open_file (inStep : client.InStep) (fileName : FileName) :
    (client.call (.openFile fileName)).InStep ∧
      ∀ other file, client.world.openFiles.find other = some file →
        (client.call (.openFile fileName)).world.openFiles.find other = some file := by
  have referenced := inStep.referenced
  have opens : ∀ file w', DB.openFile fileName client.world = (.ok file, w') →
      w'.Referenced ((fileName, file) :: client.handles) →
      (client.call (.openFile fileName)).InStep := by
    intro file w' run referenced'
    simp only [call, run]
    refine ⟨referenced', fun other => ?_⟩
    have balance := inStep.balance other
    by_cases same : other = fileName
    · subst same
      simp only [Function.update_self, List.map_cons, List.count_cons_self]
      omega
    · simp only [Function.update_of_ne same, List.map_cons, List.count_cons_of_ne (Ne.symm same)]
      exact balance
  by_cases empty : fileName = []
  · have run : DB.openFile fileName client.world = (.err .BADFILE, client.world) := by
      unfold DB.openFile
      rw [if_pos empty]
      rfl
    simp only [call, run]
    exact ⟨inStep, fun _ _ found => found⟩
  · cases found : client.world.openFiles.find fileName with
    | some file =>
        obtain ⟨w', run, referenced', table⟩ := referenced.open_again empty found
        refine ⟨opens file w' run referenced', ?_⟩
        simp only [call, run, table]
        exact fun _ _ found => found
    | none =>
        cases stored : client.world.disk fileName with
        | none =>
            obtain ⟨w', run, referenced', table⟩ := referenced.open_missing empty found stored
            simp only [call, run, table]
            exact ⟨⟨referenced', inStep.balance⟩, fun _ _ found => found⟩
        | some contents =>
            obtain ⟨file, w', run, referenced', free, table⟩ :=
              referenced.open_first empty found (Option.isSome_of_eq_some stored)
            refine ⟨opens file w' run referenced', ?_⟩
            intro other address before
            simp only [call, run, table]
            rw [if_neg, before]
            rintro rfl
            rw [found] at before
            cases before

theorem InStep.close_file (inStep : client.InStep)
    (held : ∃ handle ∈ client.handles, handle.2 = file) :
    (DB.closeFile file client.world).1 = .ok () ∧ (client.call (.closeFile file)).InStep ∧
      ∀ other address, client.world.openFiles.find other = some address → ∀ address',
        (client.call (.closeFile file)).world.openFiles.find other = some address' →
          address' = address := by
  obtain ⟨⟨fileName, address⟩, member, rfl⟩ := held
  obtain ⟨w', run, referenced', table⟩ := inStep.referenced.close member
  obtain ⟨handle, listed⟩ : ∃ handle,
      client.handles.find? (fun handle => handle.2 = address) = some handle := by
    rw [← Option.isSome_iff_exists, List.find?_isSome]
    exact ⟨_, member, by simp⟩
  have mine : handle = (fileName, address) := by
    have points : handle.2 = address := by simpa using List.find?_some listed
    have first := (inStep.referenced.live handle.1 address).mp
      (points ▸ List.mem_of_find?_eq_some listed)
    obtain ⟨object, live, name⟩ := first
    obtain ⟨object', live', name'⟩ := (inStep.referenced.live _ _).mp member
    rw [live] at live'
    rw [← name', ← Option.some.inj live', name, ← points]
  subst mine
  change DB.closeFile address client.world = (.ok (), w') at run
  have called : client.call (.closeFile address) =
      { client with
        world := w'
        closed := Function.update client.closed fileName (client.closed fileName + 1)
        handles := client.handles.erase (fileName, address) } := by
    simp only [call, listed, run]
  rw [called, run]
  refine ⟨rfl, ⟨referenced', fun other => ?_⟩, ?_⟩
  · have balance := inStep.balance other
    have counts : ((fileName, address) :: client.handles.erase (fileName, address)).Perm
        client.handles := (List.perm_cons_erase member).symm
    have names := (counts.map Prod.fst).count_eq other
    rw [List.map_cons, List.count_cons] at names
    by_cases same : other = fileName
    · subst same
      simp only [Function.update_self]
      simp only [beq_self_eq_true, if_true] at names
      omega
    · simp only [Function.update_of_ne same]
      simp only [beq_iff_eq, Ne.symm same, if_false] at names
      omega
  · intro other before found after found'
    by_cases same : other = fileName
    · subst same
      have there := (inStep.referenced.found_iff _ _).mpr member
      rw [there] at found
      obtain rfl := Option.some.inj found
      have kept := (referenced'.found_iff _ _).mp found'
      have earlier := (inStep.referenced.found_iff _ _).mpr (List.mem_of_mem_erase kept)
      rw [there] at earlier
      exact (Option.some.inj earlier).symm
    · dsimp only at found'
      rw [table other same, found] at found'
      exact (Option.some.inj found').symm

theorem create_file_objects (fileName : FileName) :
    DbM.Moves SameObjects (DB.createFile fileName) := by
  unfold DB.createFile File.create
  repeat' first
    | exact fun w => SameObjects.refl w | exact same_objects_tick | exact SameObjects.refl _
    | exact fun w => ⟨rfl, rfl, rfl, id⟩ | exact ⟨rfl, rfl, rfl, id⟩
    | apply DbM.moves_bind @SameObjects.trans | intro _ | split

theorem destroy_file_objects (fileName : FileName) :
    DbM.Moves SameObjects (DB.destroyFile fileName) := by
  unfold DB.destroyFile File.destroy
  repeat' first
    | exact fun w => SameObjects.refl w | exact same_objects_tick | exact SameObjects.refl _
    | exact fun w => ⟨rfl, rfl, rfl, id⟩ | exact ⟨rfl, rfl, rfl, id⟩
    | apply DbM.moves_bind @SameObjects.trans | intro _ | split

theorem InStep.step (inStep : client.InStep) (step : Step client client') : client'.InStep := by
  obtain ⟨call, permitted, rfl⟩ := step
  cases call with
  | createFile fileName => exact inStep.same_objects (create_file_objects fileName client.world)
  | openFile fileName => exact (inStep.open_file fileName).1
  | closeFile file => exact (inStep.close_file permitted).2.1
  | destroyFile fileName => exact inStep.same_objects (destroy_file_objects fileName client.world)

theorem InStep.run (inStep : client.InStep) (run : Relation.ReflTransGen Step client client') :
    client'.InStep := by
  induction run with
  | refl => exact inStep
  | tail _ step ih => exact ih.step step

theorem InStep.stays (inStep : client.InStep) {call : FileCall} (permitted : client.Permits call)
    {file' : FilePtr} (found : client.world.openFiles.find fileName = some file)
    (found' : (client.call call).world.openFiles.find fileName = some file') : file' = file := by
  have unchanged : (client.call call).world.openFiles = client.world.openFiles → file' = file := by
    intro same
    rw [same, found] at found'
    exact (Option.some.inj found').symm
  cases call with
  | createFile other => exact unchanged (create_file_objects other client.world).openFiles
  | openFile other =>
      rw [(inStep.open_file other).2 fileName file found] at found'
      exact (Option.some.inj found').symm
  | closeFile other => exact (inStep.close_file permitted).2.2 fileName file found file' found'
  | destroyFile other => exact unchanged (destroy_file_objects other client.world).openFiles

theorem InStep.open_result (inStep : client.InStep) {w' : World}
    (run : DB.openFile fileName client.world = (.ok file, w')) :
    (∀ file', client.world.openFiles.find fileName = some file' → file' = file) ∧
      (∀ other, other ≠ fileName → client.world.openFiles.find other ≠ some file) := by
  have nonempty : fileName ≠ [] := by
    rintro rfl
    cases run
  have referenced := inStep.referenced
  cases found : client.world.openFiles.find fileName with
  | some file' =>
      obtain ⟨w₁, again, _⟩ := referenced.open_again nonempty found
      rw [again] at run
      cases run
      refine ⟨fun _ same => (Option.some.inj same).symm, ?_⟩
      intro other different same
      obtain ⟨object, live, name⟩ := (referenced.table _ _).mp found
      obtain ⟨object', live', name'⟩ := (referenced.table _ _).mp same
      rw [live] at live'
      exact different (by rw [← name', ← Option.some.inj live', name])
  | none =>
      refine ⟨by simp, ?_⟩
      intro other _ same
      obtain ⟨object, live, _⟩ := (referenced.table _ _).mp same
      cases stored : client.world.disk fileName with
      | none =>
          obtain ⟨w₁, missing, _⟩ := referenced.open_missing nonempty found stored
          rw [missing] at run
          cases run
      | some contents =>
          obtain ⟨file₁, w₁, first, _, free, _⟩ :=
            referenced.open_first nonempty found (Option.isSome_of_eq_some stored)
          rw [first] at run
          cases run
          rw [free] at live
          cases live

structure Counts (client : FileClient) : Prop where
  /-- A name is in the table iff its opens outnumber its closes. -/
  listed : ∀ fileName, (∃ file, client.world.openFiles.find fileName = some file) ↔
    client.closed fileName < client.opened fileName
  /-- The open count of the object is the difference. -/
  openCnt : ∀ fileName file, client.world.openFiles.find fileName = some file →
    ∃ object, client.world.files file = some object ∧ object.fileName = fileName ∧
      object.openCnt = client.opened fileName - client.closed fileName
  /-- Every open of a name that is open returns the same object, also after further calls;
  and it is the object of no other name. -/
  shared : ∀ fileName file w', DB.openFile fileName client.world = (.ok file, w') →
    (∀ file', client.world.openFiles.find fileName = some file' → file' = file) ∧
      ∀ other, other ≠ fileName → client.world.openFiles.find other ≠ some file
  stays : ∀ call, client.Permits call → ∀ fileName file file',
    client.world.openFiles.find fileName = some file →
    (client.call call).world.openFiles.find fileName = some file' → file' = file
  held : ∀ fileName file, (fileName, file) ∈ client.handles ↔
    client.world.openFiles.find fileName = some file
  /-- A file that exists can be opened, and what was opened can be closed. -/
  opens : ∀ fileName, fileName ≠ [] → (client.world.disk fileName).isSome →
    ∃ file w', DB.openFile fileName client.world = (.ok file, w')
  closes : ∀ fileName file, (fileName, file) ∈ client.handles →
    (DB.closeFile file client.world).1 = .ok ()
  /-- Open files are neither created nor destroyed. -/
  refused : ∀ fileName file, client.world.openFiles.find fileName = some file →
    DB.createFile fileName client.world = (.err .FILEEXISTS, client.world) ∧
      DB.destroyFile fileName client.world = (.err .FILEOPEN, client.world)

theorem InStep.counts (inStep : client.InStep) : client.Counts where
  listed := fun _ => inStep.found_iff
  openCnt := fun _ _ found => inStep.open_count found
  shared := fun _ _ _ run => inStep.open_result run
  stays := fun _ permitted _ _ _ found found' => inStep.stays permitted found found'
  held := fun fileName file => (inStep.referenced.found_iff fileName file).symm
  opens := by
    intro fileName nonempty stored
    cases found : client.world.openFiles.find fileName with
    | some file =>
        obtain ⟨w', run, _⟩ := inStep.referenced.open_again nonempty found
        exact ⟨file, w', run⟩
    | none =>
        obtain ⟨file, w', run, _⟩ := inStep.referenced.open_first nonempty found stored
        exact ⟨file, w', run⟩
  closes := fun fileName file member => (inStep.close_file ⟨_, member, rfl⟩).1
  refused := by
    intro fileName file found
    have nonempty := inStep.referenced.named _ ((inStep.referenced.found_iff _ _).mp found)
    refine ⟨?_, destroy_open nonempty found⟩
    unfold DB.createFile
    rw [if_neg nonempty, DbM.read_bind, found]
    rfl

end FileClient

/-- The table, the objects and the clients agree on the open files in every state that
creating, opening, closing and destroying files can reach. -/
theorem open_files_are_counted {start client : FileClient} (starts : start.Starts)
    (run : Relation.ReflTransGen FileClient.Step start client) : client.Counts :=
  ((FileClient.starts_in_step starts).run run).counts

namespace FileClient

def newDatabase : FileClient :=
  { world :=
      { disk := fun _ => none
        files := fun _ => none
        brk := 1
        malloc := fun _ => 0
        openFiles := { ht := ChainedTable.empty }
        bufMgr := BufMgr.new 1
        faults := fun _ => false
        bufFailed := false
        given := fun _ _ => none }
    opened := fun _ => 0
    closed := fun _ => 0
    handles := [] }

/-- The file `f` is created, opened twice and closed once. -/
def openedTwice : FileClient :=
  (((newDatabase.call (.createFile [102])).call (.openFile [102])).call (.openFile [102])).call
    (.closeFile 1)

end FileClient

open FileClient in
theorem open_files_are_counted_opened_twice :
    openedTwice.Counts ∧ openedTwice.opened [102] = 2 ∧ openedTwice.closed [102] = 1 := by
  refine ⟨?_, by decide, by decide⟩
  have starts : newDatabase.Starts := ⟨rfl, rfl, rfl, by decide, rfl, rfl, rfl⟩
  have created : Relation.ReflTransGen Step newDatabase (newDatabase.call (.createFile [102])) :=
    .single ⟨.createFile [102], trivial, rfl⟩
  have first := created.tail ⟨.openFile [102], trivial, rfl⟩
  have second := first.tail ⟨.openFile [102], trivial, rfl⟩
  apply open_files_are_counted starts
  exact second.tail ⟨.closeFile 1, ⟨([102], 1), by decide, rfl⟩, rfl⟩

end PrimitiveDB

import PrimitiveDB.ClosingFiles

/-!
# Pins and open files under any outcome

What the calls of the buffer manager do to the pin counts of the frames and to the open files,
in every pool that its calls can lead to: a successful `readPage` or `allocPage` adds one pin
on the frame it returns, `unPinPage` takes one away, `flushFile` leaves the counts alone, and
none of them touches a `File` object or the table of open files. Opening a file either adds
one to its count or leaves everything as it was.
-/

namespace PrimitiveDB

open World

set_option autoImplicit false

namespace World

variable {w w' : World} {file : FilePtr} {pageNo : Int} {frame : Nat}

/-- The open files, and where the next `File` object would go. -/
structure SameHandles (before after : World) : Prop where
  files : after.files = before.files
  openFiles : after.openFiles = before.openFiles
  brk : after.brk = before.brk
  malloc : after.malloc = before.malloc

theorem SameHandles.refl (w : World) : SameHandles w w := ⟨rfl, rfl, rfl, rfl⟩

theorem SameHandles.trans (first second third : World) (left : SameHandles first second)
    (right : SameHandles second third) : SameHandles first third :=
  ⟨right.1.trans left.1, right.2.trans left.2, right.3.trans left.3, right.4.trans left.4⟩

theorem SameMemory.same_handles (same : SameMemory w w') : SameHandles w w' :=
  ⟨same.files, same.openFiles, same.brk, same.malloc⟩

theorem write_page_handles (file : FilePtr) (pageNo : Int) (image : PageImage) :
    DbM.Moves SameHandles (File.writePage file pageNo image) :=
  fun w => (File.write_page_moves file pageNo image w).1.same_handles

theorem alloc_buf_handles : DbM.Moves SameHandles BufMgr.allocBuf := by
  intro w
  rw [BufMgr.alloc_buf_eq]
  dsimp only
  split_ifs
  · exact ⟨rfl, rfl, rfl, rfl⟩
  · have scanned : SameHandles w
        (w.setPool (BufMgr.clockScan (2 * w.bufMgr.numBufs) 0 w.bufMgr).2.2) := ⟨rfl, rfl, rfl, rfl⟩
    apply SameHandles.trans _ _ _ scanned
    apply DbM.moves_bind SameHandles.trans (write_page_handles _ _ _)
    exact fun _ w => SameHandles.refl w
  · exact ⟨rfl, rfl, rfl, rfl⟩

theorem install_page_handles (file : FilePtr) (pageNo : Int) (frame : Nat) :
    DbM.Moves SameHandles (BufMgr.installPage file pageNo frame) := by
  intro w
  rw [BufMgr.install_page_eq]
  dsimp only
  split <;> exact ⟨rfl, rfl, rfl, rfl⟩

theorem read_page_handles (file : FilePtr) (pageNo : Int) :
    DbM.Moves SameHandles (BufMgr.readPage file pageNo) := by
  intro w
  cases found : w.bufMgr.hashTable.lookup file pageNo with
  | some frame =>
      rw [BufMgr.read_page_hit w file pageNo frame found]
      exact ⟨rfl, rfl, rfl, rfl⟩
  | none =>
      rw [BufMgr.read_page_miss w file pageNo found]
      apply DbM.moves_bind SameHandles.trans alloc_buf_handles
      intro frame
      apply DbM.moves_bind SameHandles.trans
        (fun w => (File.read_page_moves file pageNo w).1.same_handles)
      intro image
      refine DbM.moves_bind SameHandles.trans ?_ fun _ => install_page_handles file pageNo frame
      exact fun w => ⟨rfl, rfl, rfl, rfl⟩

theorem un_pin_page_handles (file : FilePtr) (pageNo : Int) (dirty : Bool) :
    DbM.Moves SameHandles (BufMgr.unPinPage file pageNo dirty) := by
  intro w
  cases found : w.bufMgr.hashTable.lookup file pageNo with
  | some frame =>
      rw [BufMgr.un_pin_page_hit w file pageNo dirty frame found]
      dsimp only
      split_ifs <;> exact ⟨rfl, rfl, rfl, rfl⟩
  | none =>
      unfold BufMgr.unPinPage
      rw [DbM.read_bind, found]
      exact SameHandles.refl w

theorem alloc_page_handles (file : FilePtr) :
    DbM.Moves SameHandles (BufMgr.allocPage file) := by
  apply DbM.moves_bind SameHandles.trans
    (fun w => (File.allocate_page_moves file w).1.same_handles)
  intro pageNo
  apply DbM.moves_bind SameHandles.trans alloc_buf_handles
  intro frame
  apply DbM.moves_bind SameHandles.trans (install_page_handles file pageNo frame)
  exact fun _ w => SameHandles.refl w

theorem flush_frame_handles (file : FilePtr) (frame : Nat) :
    DbM.Moves SameHandles (BufMgr.flushFrame file frame) := by
  intro w
  simp only [BufMgr.flushFrame, DbM.read_bind]
  split_ifs
  · exact SameHandles.refl w
  · simp only [DbM.read_bind]
    apply DbM.moves_bind SameHandles.trans (write_page_handles _ _ _)
    exact fun _ w => ⟨rfl, rfl, rfl, rfl⟩
  · exact ⟨rfl, rfl, rfl, rfl⟩
  · exact SameHandles.refl w
  · exact SameHandles.refl w

theorem flush_frames_handles (file : FilePtr) (frames : List Nat) :
    DbM.Moves SameHandles (BufMgr.flushFrames file frames) := by
  induction frames with
  | nil => exact fun w => SameHandles.refl w
  | cons frame rest ih =>
      exact DbM.moves_bind SameHandles.trans (flush_frame_handles file frame) fun _ => ih

theorem flush_file_handles (file : FilePtr) : DbM.Moves SameHandles (BufMgr.flushFile file) := by
  intro w
  exact flush_frames_handles file _ w

def pinCount (w : World) (frame : Nat) : Nat := (w.bufMgr.bufTable frame).pinCnt

structure Pins (w : World) (file : FilePtr) (pageNo : Int) (frame : Nat) (w' : World) : Prop where
  inOrder : w'.PoolInOrder
  holds : w'.bufMgr.Holds frame file pageNo
  found : w'.bufMgr.hashTable.lookup file pageNo = some frame
  counts : ∀ index, w'.pinCount index = w.pinCount index + if index = frame then 1 else 0
  /-- A pinned frame keeps its page. -/
  kept : ∀ index other otherNo, w.bufMgr.Holds index other otherNo → 0 < w.pinCount index →
    w'.bufMgr.Holds index other otherNo
  /-- No entry of the table is bent to another frame. -/
  table : ∀ other otherNo index, (other, otherNo) ≠ (file, pageNo) →
    w'.bufMgr.hashTable.lookup other otherNo = some index →
    w.bufMgr.hashTable.lookup other otherNo = some index

theorem PoolInOrder.install_pins {w₁ w₂ : World} (order : w.PoolInOrder)
    (choose : BufMgr.allocBuf w = (.ok frame, w₁)) (pool : w₂.bufMgr.bufTable = w₁.bufMgr.bufTable)
    (table : w₂.bufMgr.hashTable = w₁.bufMgr.hashTable)
    (numBufs : w₂.bufMgr.numBufs = w₁.bufMgr.numBufs)
    {result : Nat} (install : BufMgr.installPage file pageNo frame w₂ = (.ok result, w'))
    (inOrder : w'.PoolInOrder) : result = frame ∧ w.Pins file pageNo frame w' := by
  obtain ⟨scanned, same, kept, scannedPool, _, took⟩ := order.orderly.alloc_buf_pool
  rw [choose] at scannedPool took
  dsimp only at scannedPool
  obtain ⟨rfl, unpinned, fresh⟩ := took frame rfl
  rw [BufMgr.install_page_eq] at install
  dsimp only at install
  cases inserted : w₂.bufMgr.hashTable.insert file pageNo scanned.clockHand with
  | none =>
      rw [inserted] at install
      cases install
  | some after =>
      rw [inserted] at install
      cases install
      have lookups := BufHashTbl.lookup_insert inserted
      have self : ((w₂.bufMgr.setDesc scanned.clockHand (BufDesc.Set file pageNo)).bufTable
          scanned.clockHand) = BufDesc.Set file pageNo := BufMgr.set_desc_self _ _ _
      have others : ∀ index, index ≠ scanned.clockHand →
          ((w₂.bufMgr.setDesc scanned.clockHand (BufDesc.Set file pageNo)).bufTable index).unref =
            (w.bufMgr.bufTable index).unref := by
        intro index different
        rw [BufMgr.set_desc_other _ _ _ different, pool, scannedPool]
        exact same.descs index
      have bound : scanned.clockHand < w₂.bufMgr.numBufs := by
        rw [numBufs, scannedPool]
        exact kept.hand
      have found : after.lookup file pageNo = some scanned.clockHand := by
        rw [lookups, if_pos rfl]
      refine ⟨rfl, inOrder, ?_, found, ?_, ?_, ?_⟩
      · refine ⟨bound, ?_⟩
        change ((w₂.bufMgr.setDesc scanned.clockHand (BufDesc.Set file pageNo)).bufTable
          scanned.clockHand).valid = true ∧ _
        rw [self]
        exact ⟨rfl, congrArg BufDesc.file self, congrArg BufDesc.pageNo self⟩
      · intro index
        unfold pinCount
        by_cases here : index = scanned.clockHand
        · subst here
          rw [if_pos rfl, unpinned]
          exact congrArg BufDesc.pinCnt self
        · rw [if_neg here]
          have sameCount := congrArg BufDesc.pinCnt (others index here)
          exact sameCount
      · intro index other otherNo holds pinned
        have different : index ≠ scanned.clockHand := by
          rintro rfl
          unfold pinCount at pinned
          omega
        have desc := others index different
        refine ⟨?_, ?_, ?_, ?_⟩
        · change index < w₂.bufMgr.numBufs
          rw [numBufs, scannedPool, same.numBufs]
          exact holds.1
        · exact (congrArg BufDesc.valid desc).trans holds.2.1
        · exact (congrArg BufDesc.file desc).trans holds.2.2.1
        · exact (congrArg BufDesc.pageNo desc).trans holds.2.2.2
      · intro other otherNo index different seen
        change after.lookup other otherNo = some index at seen
        rw [lookups, if_neg different, table] at seen
        have evicted := order.orderly.alloc_buf_table
        rw [choose] at evicted
        dsimp only at evicted
        rw [evicted] at seen
        exact order.orderly.lookup_evicted_fewer seen

theorem PoolInOrder.read_page_pins (order : w.PoolInOrder)
    (run : BufMgr.readPage file pageNo w = (.ok frame, w')) : w.Pins file pageNo frame w' := by
  have inOrder := order.read_page file pageNo
  rw [run] at inOrder
  cases hit : w.bufMgr.hashTable.lookup file pageNo with
  | some known =>
      rw [BufMgr.read_page_hit w file pageNo known hit] at run
      cases run
      have holds := order.orderly.mapped file pageNo frame hit
      have self := BufMgr.set_desc_self w.bufMgr frame { w.bufMgr.bufTable frame with
        refbit := true, pinCnt := (w.bufMgr.bufTable frame).pinCnt + 1 }
      have same : ∀ index other otherNo, w.bufMgr.Holds index other otherNo →
          (w.bufMgr.setDesc frame { w.bufMgr.bufTable frame with
            refbit := true, pinCnt := (w.bufMgr.bufTable frame).pinCnt + 1 }).Holds index other
            otherNo := by
        intro index other otherNo was
        unfold BufMgr.Holds at was ⊢
        by_cases here : index = frame
        · subst here
          rw [self]
          exact was
        · rw [BufMgr.set_desc_other _ _ _ here]
          exact was
      refine ⟨inOrder, same _ _ _ holds, hit, ?_, fun index other otherNo was _ =>
        same index other otherNo was, fun _ _ _ _ => id⟩
      intro index
      unfold pinCount
      by_cases here : index = frame
      · subst here
        rw [if_pos rfl, set_pool_pool, self]
      · rw [if_neg here, set_pool_pool, BufMgr.set_desc_other _ _ _ here]
        rfl
  | none =>
      rw [BufMgr.read_page_miss w file pageNo hit] at run
      obtain ⟨chosen, w₁, choose, run⟩ := DbM.bind_eq_ok_iff.mp run
      obtain ⟨image, w₂, fetch, run⟩ := DbM.bind_eq_ok_iff.mp run
      have quiet := File.read_page_moves file pageNo w₁
      rw [fetch] at quiet
      have pool : w₂.bufMgr = w₁.bufMgr := quiet.1.bufMgr
      rw [DbM.modify_pool_bind] at run
      obtain ⟨rfl, pins⟩ := order.install_pins choose
        (show (w₂.setPool (w₂.bufMgr.setImage chosen image)).bufMgr.bufTable = _ by
          rw [set_pool_pool, BufMgr.set_image_descs, pool])
        (by rw [set_pool_pool, BufMgr.set_image_hash_table, pool])
        (by rw [set_pool_pool, BufMgr.set_image_num_bufs, pool]) run inOrder
      exact pins

theorem PoolInOrder.alloc_page_pins (order : w.PoolInOrder)
    (run : BufMgr.allocPage file w = (.ok (pageNo, frame), w')) :
    w.Pins file pageNo frame w' := by
  have inOrder := order.alloc_page file
  rw [run] at inOrder
  unfold BufMgr.allocPage at run
  obtain ⟨number, w₁, allocate, run⟩ := DbM.bind_eq_ok_iff.mp run
  obtain ⟨chosen, w₂, choose, run⟩ := DbM.bind_eq_ok_iff.mp run
  obtain ⟨result, w₃, install, done⟩ := DbM.bind_eq_ok_iff.mp run
  cases done
  have quiet := File.allocate_page_moves file w
  rw [allocate] at quiet
  have order₁ : w₁.PoolInOrder := order.quiet quiet.1
  obtain ⟨rfl, pins⟩ := order₁.install_pins choose rfl rfl rfl install inOrder
  have pool : w₁.bufMgr = w.bufMgr := quiet.1.bufMgr
  refine ⟨pins.inOrder, pins.holds, pins.found, ?_, ?_, ?_⟩
  · intro index
    rw [pins.counts]
    unfold pinCount
    rw [pool]
  · intro index other otherNo holds pinned
    apply pins.kept
    · rw [pool]
      exact holds
    · unfold pinCount at pinned ⊢
      rw [pool]
      exact pinned
  · intro other otherNo index different found
    rw [← pool]
    exact pins.table other otherNo index different found

structure Unpins (w : World) (frame : Nat) (w' : World) : Prop where
  inOrder : w'.PoolInOrder
  counts : ∀ index, w.pinCount index = w'.pinCount index + if index = frame then 1 else 0
  kept : ∀ index other otherNo, w.bufMgr.Holds index other otherNo →
    w'.bufMgr.Holds index other otherNo
  table : w'.bufMgr.hashTable = w.bufMgr.hashTable

theorem PoolInOrder.un_pin_page_unpins {dirty : Bool} (order : w.PoolInOrder)
    (run : BufMgr.unPinPage file pageNo dirty w = (.ok (), w')) :
    ∃ frame, w.bufMgr.hashTable.lookup file pageNo = some frame ∧ w.Unpins frame w' := by
  have inOrder := order.un_pin_page file pageNo dirty
  rw [run] at inOrder
  cases hit : w.bufMgr.hashTable.lookup file pageNo with
  | none =>
      unfold BufMgr.unPinPage at run
      rw [DbM.read_bind, hit] at run
      cases run
  | some frame =>
      rw [BufMgr.un_pin_page_hit w file pageNo dirty frame hit] at run
      dsimp only at run
      split_ifs at run with unpinned
      · cases run
      · cases run
        have self := BufMgr.set_desc_self w.bufMgr frame
          { w.bufMgr.bufTable frame with
            dirty := (w.bufMgr.bufTable frame).dirty || dirty
            pinCnt := (w.bufMgr.bufTable frame).pinCnt - 1 }
        refine ⟨frame, rfl, inOrder, ?_, ?_, rfl⟩
        · intro index
          unfold pinCount
          by_cases here : index = frame
          · subst here
            rw [if_pos rfl, set_pool_pool, self]
            dsimp only
            omega
          · rw [if_neg here, set_pool_pool, BufMgr.set_desc_other _ _ _ here]
            rfl
        · intro index other otherNo was
          unfold BufMgr.Holds at was ⊢
          by_cases here : index = frame
          · subst here
            rw [set_pool_pool, self]
            exact was
          · rw [set_pool_pool, BufMgr.set_desc_other _ _ _ here]
            exact was

theorem release_frame_pins (file : FilePtr) (frame : Nat) (pool : BufMgr) (index : Nat) :
    ((BufMgr.releaseFrame file frame (pool.bufTable frame) pool).bufTable index).pinCnt =
      (pool.bufTable index).pinCnt := by
  unfold BufMgr.releaseFrame
  by_cases here : index = frame
  · subst here
    rw [BufMgr.set_desc_self]
  · rw [BufMgr.set_desc_other _ _ _ here]
    rfl

def SamePins (before after : World) : Prop := ∀ index, after.pinCount index = before.pinCount index

theorem SamePins.trans (first second third : World) (left : SamePins first second)
    (right : SamePins second third) : SamePins first third :=
  fun index => (right index).trans (left index)

theorem SameMemory.same_pins (same : SameMemory w w') : SamePins w w' := by
  intro index
  unfold pinCount
  rw [same.bufMgr]

theorem flush_frame_pins (file : FilePtr) (frame : Nat) :
    DbM.Moves SamePins (BufMgr.flushFrame file frame) := by
  intro w
  simp only [BufMgr.flushFrame, DbM.read_bind]
  split_ifs with mine pinned dirty
  · exact fun _ => rfl
  · have quiet := File.write_page_moves (w.bufMgr.bufTable frame).file
      (w.bufMgr.bufTable frame).pageNo (w.bufMgr.bufPool frame) w
    rw [DbM.read_bind, DbM.bind_apply]
    rcases write : File.writePage (w.bufMgr.bufTable frame).file
      (w.bufMgr.bufTable frame).pageNo (w.bufMgr.bufPool frame) w with ⟨_ | status | _, w'⟩ <;>
      rw [write] at quiet
    · intro index
      change ((BufMgr.releaseFrame file frame (w.bufMgr.bufTable frame)
        w'.bufMgr).bufTable index).pinCnt = _
      rw [quiet.1.bufMgr]
      exact release_frame_pins file frame w.bufMgr index
    · exact quiet.1.same_pins
    · exact quiet.1.same_pins
  · exact fun index => release_frame_pins file frame w.bufMgr index
  · exact fun _ => rfl
  · exact fun _ => rfl

theorem flush_file_pins (file : FilePtr) : DbM.Moves SamePins (BufMgr.flushFile file) := by
  have rounds : ∀ frames, DbM.Moves SamePins (BufMgr.flushFrames file frames) := by
    intro frames
    induction frames with
    | nil => exact fun w index => rfl
    | cons frame rest ih =>
        exact DbM.moves_bind SamePins.trans (flush_frame_pins file frame) fun _ => ih
  exact fun w => rounds _ w

/-- `new` returns an address that is not null and not in use. -/
structure Unallocated (w : World) : Prop where
  free : ∀ address, w.brk ≤ address → w.files address = none
  notNull : 0 < w.brk

theorem Unallocated.new_address (above : w.Unallocated) : w.files (File.newAddress w) = none := by
  unfold File.newAddress
  split_ifs with chosen
  · exact chosen.2
  · exact above.free w.brk (le_refl _)

theorem Unallocated.new_address_ne (above : w.Unallocated) : File.newAddress w ≠ 0 := by
  unfold File.newAddress
  split_ifs with chosen
  · exact chosen.1
  · exact Nat.ne_of_gt above.notNull

/-- The world in which a `File` object at a new address is in the given state, one system call
later. -/
def withObject (w : World) (object : Option File) : World :=
  { (w.setFile (File.newAddress w) object).tick with
    brk := max w.brk (File.newAddress w + 1)
    malloc := fun n => w.malloc (n + 1) }

theorem open_unopened {object : File} (live : w.files file = some object)
    (unopened : object.openCnt = 0) :
    File.open_ file w =
      if w.faults 0 = true ∨ w.disk object.fileName = none then (.err .UNIXERR, w.tick)
      else (.ok (), w.tick.setFile file (some { object with openCnt := 1, unixFile := true })) := by
  simp only [File.open_, File.deref, DbM.bind_apply, live]
  rw [if_pos unopened]
  cases fault : w.faults 0 with
  | true => simp [DbM.bind_apply, DbM.systemCall, fault, DbM.fail]
  | false =>
      have disk : w.tick.disk = w.disk := rfl
      cases stored : w.disk object.fileName <;>
        simp [DbM.bind_apply, DbM.systemCall, fault, DbM.fail, DbM.read, disk, stored, DbM.modify]

theorem open_file_first {fileName : FileName} (nonempty : fileName ≠ [])
    (absent : w.openFiles.find fileName = none) :
    DB.openFile fileName w =
      if w.faults 0 = true ∨ w.disk fileName = none then (.err .UNIXERR, w.withObject none)
      else
        match w.openFiles.insert fileName (File.newAddress w) with
        | none => (.err .HASHTBLERROR,
            w.withObject (some { fileName, openCnt := 1, unixFile := true }))
        | some table => (.ok (File.newAddress w),
            { w.withObject (some { fileName, openCnt := 1, unixFile := true }) with
              openFiles := table }) := by
  set created : World :=
    { w.setFile (File.newAddress w) (some { fileName, openCnt := 0, unixFile := false }) with
      brk := max w.brk (File.newAddress w + 1)
      malloc := fun n => w.malloc (n + 1) } with createdDef
  have live : created.files (File.newAddress w) =
      some { fileName, openCnt := 0, unixFile := false } := Function.update_self _ _ _
  have opens : File.open_ (File.newAddress w) created =
      if w.faults 0 = true ∨ w.disk fileName = none then (.err .UNIXERR, created.tick)
      else (.ok (), created.tick.setFile (File.newAddress w)
        (some { fileName, openCnt := 1, unixFile := true })) := open_unopened live rfl
  have news : File.new fileName w = (.ok (File.newAddress w), created) := rfl
  unfold DB.openFile
  rw [if_neg nonempty, DbM.read_bind, absent]
  dsimp only
  rw [DbM.bind_ok news]
  by_cases fails : w.faults 0 = true ∨ w.disk fileName = none
  · rw [if_pos fails]
    have refused : File.open_ (File.newAddress w) created = (.err .UNIXERR, created.tick) := by
      rw [opens, if_pos fails]
    have attempted : DbM.attempt (File.open_ (File.newAddress w)) created =
        (.ok (.error .UNIXERR), created.tick) := by
      unfold DbM.attempt
      rw [refused]
    rw [DbM.bind_ok attempted]
    simp only [File.delete, DbM.bind_apply, DbM.modify, DbM.fail, createdDef, withObject, setFile,
      tick, Function.update_idem]
  · rw [if_neg fails]
    have opened : File.open_ (File.newAddress w) created = (.ok (),
        w.withObject (some { fileName, openCnt := 1, unixFile := true })) := by
      rw [opens, if_neg fails]
      simp only [createdDef, withObject, setFile, tick, Function.update_idem]
    have attempted : DbM.attempt (File.open_ (File.newAddress w)) created =
        (.ok (.ok ()), w.withObject (some { fileName, openCnt := 1, unixFile := true })) := by
      unfold DbM.attempt
      rw [opened]
    rw [DbM.bind_ok attempted]
    dsimp only
    rw [DbM.read_bind]
    change (match w.openFiles.insert fileName (File.newAddress w) with
      | none => DbM.fail .HASHTBLERROR
      | some table => _) (w.withObject (some { fileName, openCnt := 1, unixFile := true })) = _
    cases w.openFiles.insert fileName (File.newAddress w) <;> rfl

theorem open_file_again {fileName : FileName} {object : File} (nonempty : fileName ≠ [])
    (found : w.openFiles.find fileName = some file) (live : w.files file = some object) :
    DB.openFile fileName w =
      if object.openCnt = 0 then
        if w.faults 0 = true ∨ w.disk object.fileName = none then (.err .UNIXERR, w.tick)
        else (.ok file, w.tick.setFile file (some { object with openCnt := 1, unixFile := true }))
      else (.ok file, w.setFile file (some { object with openCnt := object.openCnt + 1 })) := by
  unfold DB.openFile
  rw [if_neg nonempty, DbM.read_bind, found]
  dsimp only
  by_cases unopened : object.openCnt = 0
  · rw [if_pos unopened, DbM.bind_apply, open_unopened live unopened]
    split_ifs <;> rfl
  · simp only [File.open_, File.deref, DbM.bind_apply, live]
    rw [if_neg unopened, if_neg unopened]
    rfl

theorem open_file_dead {fileName : FileName} (nonempty : fileName ≠ [])
    (found : w.openFiles.find fileName = some file) (dead : w.files file = none) :
    DB.openFile fileName w = (.crash, w) := by
  unfold DB.openFile
  rw [if_neg nonempty, DbM.read_bind, found]
  simp [File.open_, File.deref, DbM.bind_apply, dead]

theorem open_files_insert {fileName : FileName} (absent : w.openFiles.find fileName = none) :
    ∃ table, w.openFiles.insert fileName (File.newAddress w) = some table :=
  ⟨_, congrArg _ (ChainedTable.insert_of_absent (File.newAddress w) absent)⟩

/-- An open that fails leaves the open files and the pool as they were, and says so. -/
theorem open_file_err {fileName : FileName} {status : Status} (above : w.Unallocated)
    (run : DB.openFile fileName w = (.err status, w')) :
    status ≠ .OK ∧ w'.files = w.files ∧ w'.openFiles = w.openFiles ∧ w'.bufMgr = w.bufMgr ∧
      w'.disk = w.disk ∧ w'.Unallocated := by
  by_cases nonempty : fileName = []
  · unfold DB.openFile at run
    rw [if_pos nonempty] at run
    cases run
    exact ⟨by simp, rfl, rfl, rfl, rfl, above⟩
  cases found : w.openFiles.find fileName with
  | none =>
      obtain ⟨table, inserted⟩ := open_files_insert found
      rw [open_file_first nonempty found, inserted] at run
      split_ifs at run
      · cases run
        have same : (w.withObject none).files = w.files := by
          change Function.update w.files (File.newAddress w) none = w.files
          rw [← above.new_address, Function.update_eq_self]
        refine ⟨by simp, same, rfl, rfl, rfl, ?_, ?_⟩
        · intro address beyond
          rw [same]
          exact above.free address (le_trans (le_max_left _ _) beyond)
        · exact lt_of_lt_of_le above.notNull (le_max_left _ _)
      · cases run
  | some file =>
      cases live : w.files file with
      | none =>
          rw [open_file_dead nonempty found live] at run
          cases run
      | some object =>
          rw [open_file_again nonempty found live] at run
          split_ifs at run
          · cases run
            exact ⟨by simp, rfl, rfl, rfl, rfl, above.free, above.notNull⟩
          · cases run
          · cases run

structure OpensFile (w : World) (file : FilePtr) (w' : World) : Prop where
  counted : (w'.files file).map File.openCnt ≠ (w.files file).map File.openCnt
  pool : w'.bufMgr = w.bufMgr
  others : ∀ other, other ≠ file → w'.files other = w.files other
  notNull : w.files 0 = none → file ≠ 0

theorem OpensFile.in_order (opens : w.OpensFile file w') (order : w.PoolInOrder) :
    w'.PoolInOrder where
  orderly := by
    rw [opens.pool]
    exact order.orderly
  null := by
    rw [opens.others 0 (opens.notNull order.null).symm]
    exact order.null

theorem open_file_ok {fileName : FileName} (above : w.Unallocated)
    (run : DB.openFile fileName w = (.ok file, w')) : w.OpensFile file w' := by
  by_cases nonempty : fileName = []
  · unfold DB.openFile at run
    rw [if_pos nonempty] at run
    cases run
  cases found : w.openFiles.find fileName with
  | none =>
      obtain ⟨table, inserted⟩ := open_files_insert found
      rw [open_file_first nonempty found, inserted] at run
      split_ifs at run
      · cases run
      · cases run
        refine ⟨?_, rfl, ?_, fun _ => above.new_address_ne⟩
        · rw [above.new_address]
          simp [withObject, setFile, tick]
        · intro other different
          exact Function.update_of_ne different _ _
  | some known =>
      cases live : w.files known with
      | none =>
          rw [open_file_dead nonempty found live] at run
          cases run
      | some object =>
          rw [open_file_again nonempty found live] at run
          have real : w.files 0 = none → known ≠ 0 := by
            rintro null rfl
            rw [null] at live
            cases live
          split_ifs at run with unopened
          · cases run
          · cases run
            refine ⟨?_, rfl, fun other different => Function.update_of_ne different _ _, real⟩
            rw [live]
            simp [setFile, unopened]
          · cases run
            refine ⟨?_, rfl, fun other different => Function.update_of_ne different _ _, real⟩
            rw [live]
            simp [setFile]

end World

end PrimitiveDB

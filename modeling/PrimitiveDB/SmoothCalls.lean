import PrimitiveDB.HeapFileClients

/-!
# Runs in which no buffer call fails

`DbM.Smoothly call w post`: if no buffer call has failed by the end of `call`,
then it returns and `post` holds of its result. The flag of the world is never
reset, so such statements compose along `>>=`.
-/

namespace PrimitiveDB

open World BufMgr

set_option autoImplicit false

namespace DbM

variable {α β : Type}

/-- Once a buffer call has failed, the flag stays set. -/
structure KeepsFlag (call : DbM α) : Prop where
  stays : ∀ w, w.bufFailed = true → (call w).2.bufFailed = true

theorem KeepsFlag.early {call : DbM α} (keeps : KeepsFlag call) {w : World}
    (flag : (call w).2.bufFailed = false) : w.bufFailed = false := by
  by_contra failed
  simp only [Bool.not_eq_false] at failed
  rw [keeps.stays w failed] at flag
  cases flag

theorem keeps_pure (value : α) : KeepsFlag (pure value : DbM α) := ⟨fun _ => id⟩

theorem keeps_fail (status : Status) : KeepsFlag (fail status : DbM α) := ⟨fun _ => id⟩

theorem keeps_crash : KeepsFlag (crash : DbM α) := ⟨fun _ => id⟩

theorem keeps_read (view : World → α) : KeepsFlag (read view) := ⟨fun _ => id⟩

theorem keeps_modify {update : World → World} (same : ∀ w, (update w).bufFailed = w.bufFailed) :
    KeepsFlag (modify update) := ⟨fun w set_ => (same w).trans set_⟩

theorem keeps_modify_pool (update : BufMgr → BufMgr) : KeepsFlag (modifyPool update) :=
  ⟨fun _ => id⟩

theorem keeps_system_call : KeepsFlag systemCall := ⟨fun _ => id⟩

theorem keeps_bind {first : DbM α} {next : α → DbM β} (firstKeeps : KeepsFlag first)
    (nextKeeps : ∀ value, KeepsFlag (next value)) : KeepsFlag (first >>= next) :=
  ⟨moves_bind FlagStays.trans firstKeeps.stays fun value => (nextKeeps value).stays⟩

theorem keeps_attempt {call : DbM α} (keeps : KeepsFlag call) : KeepsFlag (attempt call) := by
  refine ⟨fun w set_ => ?_⟩
  have stays := keeps.stays w set_
  unfold attempt
  rcases run : call w with ⟨value | status | _, w'⟩ <;> rw [run] at stays <;> exact stays

theorem keeps_call_buf_mgr {call : DbM α} (keeps : KeepsFlag call) :
    KeepsFlag (callBufMgr call) := by
  refine ⟨fun w set_ => ?_⟩
  have stays := keeps.stays w set_
  unfold callBufMgr
  rcases run : call w with ⟨value | status | _, w'⟩ <;> rw [run] at stays
  · exact stays
  · exact stays

theorem bind_assoc {γ : Type} (first : DbM α) (second : α → DbM β) (third : β → DbM γ) :
    (first >>= second) >>= third = first >>= fun value => second value >>= third := by
  funext w
  simp only [bind_apply]
  rcases first w with ⟨value | status | _, w'⟩ <;> rfl

theorem bind_congr {first : DbM α} {left right : α → DbM β}
    (same : ∀ value, left value = right value) : first >>= left = first >>= right := by
  rw [funext same]

/-- Unless a buffer call fails, the call returns and `post` holds. -/
def Smoothly (call : DbM α) (w : World) (post : α → World → Prop) : Prop :=
  (call w).2.bufFailed = false → ∃ value w', call w = (.ok value, w') ∧ post value w'

variable {w w' : World} {call first : DbM α} {next : α → DbM β} {post post' : α → World → Prop}
  {value : α}

theorem smoothly_of_eq (run : call w = (.ok value, w')) (holds : post value w') :
    Smoothly call w post := fun _ => ⟨value, w', run, holds⟩

theorem smoothly_pure (holds : post value w) : Smoothly (pure value) w post :=
  smoothly_of_eq rfl holds

theorem Smoothly.mono (smooth : Smoothly call w post)
    (weaker : ∀ value w', post value w' → post' value w') : Smoothly call w post' := by
  intro flag
  obtain ⟨value, w', run, holds⟩ := smooth flag
  exact ⟨value, w', run, weaker value w' holds⟩

theorem Smoothly.result (smooth : Smoothly call w post) {outcome : Outcome α}
    (run : call w = (outcome, w')) (flag : w'.bufFailed = false) :
    ∃ value, outcome = .ok value ∧ post value w' := by
  have final : (call w).2.bufFailed = false := by
    rw [run]
    exact flag
  obtain ⟨value, w'', run', holds⟩ := smooth final
  rw [run] at run'
  cases run'
  exact ⟨value, rfl, holds⟩

theorem smoothly_bind {post : β → World → Prop} (keeps : ∀ value, KeepsFlag (next value))
    (smooth : Smoothly first w fun value w' => Smoothly (next value) w' post) :
    Smoothly (first >>= next) w post := by
  intro flag
  have early : (first w).2.bufFailed = false := by
    by_contra failed
    simp only [Bool.not_eq_false] at failed
    rw [bind_apply] at flag
    rcases run : first w with ⟨value | status | _, w'⟩ <;> rw [run] at flag failed
    · have stays := (keeps value).stays w' failed
      rw [stays] at flag
      cases flag
    · exact absurd (flag.symm.trans failed) Bool.false_ne_true
    · exact absurd (flag.symm.trans failed) Bool.false_ne_true
  obtain ⟨value, w', run, holds⟩ := smooth early
  rw [bind_ok run] at flag ⊢
  exact holds flag

theorem smoothly_bind_eq {post : β → World → Prop} (run : first w = (.ok value, w'))
    (smooth : Smoothly (next value) w' post) : Smoothly (first >>= next) w post := by
  unfold Smoothly
  rw [bind_ok run]
  exact smooth

theorem smoothly_of_failed (failed : (call w).2.bufFailed = true) : Smoothly call w post := by
  intro flag
  rw [failed] at flag
  cases flag

end DbM

open DbM

namespace File

theorem deref_keeps (file : FilePtr) : KeepsFlag (deref file) := by
  refine ⟨fun w set_ => ?_⟩
  unfold deref
  split <;> exact set_

theorem intread_keeps (file : FilePtr) (pageNo : Int) : KeepsFlag (intread file pageNo) :=
  ⟨fun w set_ => ((intread_moves file pageNo w).1.bufFailed).trans set_⟩

theorem write_page_keeps (file : FilePtr) (pageNo : Int) (image : PageImage) :
    KeepsFlag (writePage file pageNo image) :=
  ⟨fun w set_ => ((write_page_moves file pageNo image w).1.bufFailed).trans set_⟩

theorem allocate_page_keeps (file : FilePtr) : KeepsFlag (allocatePage file) :=
  ⟨fun w set_ => ((allocate_page_moves file w).1.bufFailed).trans set_⟩

theorem get_first_page_keeps (file : FilePtr) : KeepsFlag (getFirstPage file) :=
  keeps_bind (intread_keeps file 0) fun _ => keeps_pure _

theorem create_keeps (fileName : FileName) : KeepsFlag (create fileName) := by
  unfold create
  repeat' first
    | exact keeps_fail _ | exact keeps_pure _ | exact keeps_system_call | exact keeps_read _
    | exact keeps_modify fun _ => rfl
    | apply keeps_bind | intro _ | split

theorem destroy_keeps (fileName : FileName) : KeepsFlag (destroy fileName) := by
  unfold destroy
  repeat' first
    | exact keeps_fail _ | exact keeps_system_call | exact keeps_read _
    | exact keeps_modify fun _ => rfl
    | apply keeps_bind | intro _ | split

theorem open_keeps (file : FilePtr) : KeepsFlag (open_ file) := by
  unfold open_
  repeat' first
    | exact keeps_fail _ | exact keeps_system_call | exact keeps_read _ | exact deref_keeps _
    | exact keeps_modify fun _ => rfl
    | apply keeps_bind | intro _ | split

end File

theorem flush_frames_keeps (file : FilePtr) (frames : List Nat) :
    KeepsFlag (flushFrames file frames) := by
  induction frames with
  | nil => exact keeps_pure ()
  | cons frame frames ih =>
      rw [flushFrames]
      apply keeps_bind _ fun _ => ih
      unfold flushFrame
      repeat' first
        | exact keeps_fail _ | exact keeps_pure _ | exact keeps_read _
        | exact File.write_page_keeps _ _ _ | exact keeps_modify_pool _
        | apply keeps_bind | intro _ | split

theorem flush_file_keeps (file : FilePtr) : KeepsFlag (flushFile file) :=
  keeps_bind (keeps_read _) fun _ => flush_frames_keeps file _

theorem File.close_keeps (file : FilePtr) : KeepsFlag (File.close file) := by
  unfold File.close
  repeat' first
    | exact keeps_fail _ | exact keeps_pure _ | exact keeps_system_call | exact File.deref_keeps _
    | exact keeps_modify fun _ => rfl | exact keeps_attempt (flush_file_keeps _)
    | apply keeps_bind | intro _ | split

theorem open_file_keeps (fileName : FileName) : KeepsFlag (DB.openFile fileName) := by
  unfold DB.openFile
  repeat' first
    | exact keeps_fail _ | exact keeps_pure _ | exact keeps_read _ | exact File.open_keeps _
    | exact keeps_attempt (File.open_keeps _) | exact keeps_modify fun _ => rfl
    | exact ⟨fun _ set_ => set_⟩
    | apply keeps_bind | intro _ | split

theorem create_file_keeps (fileName : FileName) : KeepsFlag (DB.createFile fileName) := by
  unfold DB.createFile
  repeat' first
    | exact keeps_fail _ | exact keeps_read _ | exact File.create_keeps _
    | apply keeps_bind | intro _ | split

theorem destroy_file_keeps (fileName : FileName) : KeepsFlag (DB.destroyFile fileName) := by
  unfold DB.destroyFile
  repeat' first
    | exact keeps_fail _ | exact keeps_read _ | exact File.destroy_keeps _
    | apply keeps_bind | intro _ | split

theorem close_file_keeps (file : FilePtr) : KeepsFlag (DB.closeFile file) := by
  unfold DB.closeFile
  repeat' first
    | exact keeps_fail _ | exact keeps_pure _ | exact keeps_read _ | exact File.deref_keeps _
    | exact keeps_attempt (File.close_keeps _) | exact keeps_modify fun _ => rfl
    | apply keeps_bind | intro _ | split

theorem read_page_keeps (file : FilePtr) (pageNo : Int) :
    KeepsFlag (callBufMgr (BufMgr.readPage file pageNo)) :=
  keeps_call_buf_mgr ⟨fun w set_ => Eq.trans (read_page_flag file pageNo w) set_⟩

theorem un_pin_page_keeps (file : FilePtr) (pageNo : Int) (dirty : Bool) :
    KeepsFlag (callBufMgr (BufMgr.unPinPage file pageNo dirty)) :=
  keeps_call_buf_mgr ⟨fun w set_ => Eq.trans (un_pin_page_flag file pageNo dirty w) set_⟩

theorem alloc_page_keeps (file : FilePtr) : KeepsFlag (callBufMgr (BufMgr.allocPage file)) := by
  refine keeps_call_buf_mgr (keeps_bind (File.allocate_page_keeps file) fun pageNo => ?_)
  refine keeps_bind ⟨fun w set_ => Eq.trans (alloc_buf_flag w) set_⟩ fun frame => ?_
  exact keeps_bind ⟨fun w set_ => Eq.trans (install_page_flag file pageNo frame w) set_⟩
    fun _ => keeps_pure _

theorem page_at_keeps (frame : Nat) : KeepsFlag (pageAt frame) := keeps_read _

theorem header_at_keeps (frame : Nat) : KeepsFlag (headerAt frame) := keeps_read _

theorem store_page_keeps (frame : Nat) (page : Page) : KeepsFlag (storePage frame page) :=
  keeps_modify fun _ => rfl

theorem store_header_keeps (frame : Nat) (hdr : FileHdrPage) : KeepsFlag (storeHeader frame hdr) :=
  keeps_modify fun _ => rfl

theorem create_heap_file_keeps (fileName : FileName) : KeepsFlag (createHeapFile fileName) := by
  unfold createHeapFile
  repeat' first
    | exact keeps_pure _ | exact keeps_attempt (open_file_keeps _)
    | exact keeps_attempt (create_file_keeps _) | exact keeps_attempt (close_file_keeps _)
    | exact alloc_page_keeps _ | exact un_pin_page_keeps _ _ _
    | exact keeps_call_buf_mgr (flush_file_keeps _) | exact header_at_keeps _
    | exact page_at_keeps _ | exact store_header_keeps _ _ | exact store_page_keeps _ _
    | apply keeps_bind | intro _ | split

theorem destroy_heap_file_keeps (fileName : FileName) : KeepsFlag (destroyHeapFile fileName) := by
  unfold destroyHeapFile
  repeat' first
    | exact keeps_pure _ | exact keeps_attempt (destroy_file_keeps _)
    | apply keeps_bind | intro _ | split

theorem HeapFile.new_keeps (mem : Uninit) (fileName : FileName) :
    KeepsFlag (HeapFile.new mem fileName) := by
  unfold HeapFile.new HeapFile.findHeader
  repeat' first
    | exact keeps_pure _ | exact keeps_crash | exact keeps_attempt (open_file_keeps _)
    | exact keeps_attempt (File.get_first_page_keeps _) | exact read_page_keeps _ _
    | exact header_at_keeps _
    | apply keeps_bind | intro _ | split

theorem HeapFile.release_keeps (heap : HeapFile) : KeepsFlag heap.release := by
  unfold HeapFile.release
  repeat' first
    | exact keeps_pure _ | exact un_pin_page_keeps _ _ _
    | exact keeps_attempt (close_file_keeps _)
    | apply keeps_bind | intro _

theorem HeapFile.delete_keeps (heap : HeapFile) : KeepsFlag heap.delete := by
  unfold HeapFile.delete
  repeat' first
    | exact un_pin_page_keeps _ _ _ | exact HeapFile.release_keeps _
    | apply keeps_bind | intro _ | split

namespace HeapFileScan

theorem new_keeps (mem : Uninit) (fileName : FileName) :
    KeepsFlag (HeapFileScan.new mem fileName) := by
  unfold HeapFileScan.new
  apply keeps_bind (HeapFile.new_keeps mem fileName)
  intro result
  cases result <;> exact keeps_pure _

theorem end_scan_keeps (scan : HeapFileScan) : KeepsFlag scan.endScan := by
  unfold HeapFileScan.endScan
  repeat' first
    | exact keeps_pure _ | exact un_pin_page_keeps _ _ _
    | apply keeps_bind | intro _ | split

theorem delete_keeps (scan : HeapFileScan) : KeepsFlag scan.delete :=
  keeps_bind (end_scan_keeps scan) fun _ => HeapFile.delete_keeps _

theorem scan_loop_keeps (fuel : Nat) (scan : HeapFileScan) (frame : Nat)
    (found : Except Status RID) : KeepsFlag (HeapFileScan.scanLoop fuel scan frame found) := by
  induction fuel generalizing scan frame found with
  | zero => exact keeps_crash
  | succ fuel ih =>
      cases found <;> simp only [HeapFileScan.scanLoop]
      all_goals repeat' first
        | exact keeps_pure _ | exact un_pin_page_keeps _ _ _ | exact read_page_keeps _ _
        | exact page_at_keeps _ | apply ih
        | apply keeps_bind | intro _ | split

theorem scan_next_keeps (tmpRid : RID) (scan : HeapFileScan) :
    KeepsFlag (scan.scanNext tmpRid) := by
  unfold HeapFileScan.scanNext
  repeat' first
    | exact keeps_pure _ | exact keeps_read _ | exact un_pin_page_keeps _ _ _
    | exact read_page_keeps _ _ | exact page_at_keeps _ | exact header_at_keeps _
    | apply scan_loop_keeps
    | apply keeps_bind | intro _ | split

theorem current_keeps (scan : HeapFileScan) : KeepsFlag scan.current := by
  unfold HeapFileScan.current
  repeat' first
    | exact keeps_pure _ | exact keeps_crash | exact page_at_keeps _
    | apply keeps_bind | intro _ | split

theorem delete_record_keeps (scan : HeapFileScan) : KeepsFlag scan.deleteRecord := by
  unfold HeapFileScan.deleteRecord
  repeat' first
    | exact keeps_pure _ | exact keeps_crash | exact page_at_keeps _ | exact header_at_keeps _
    | exact store_page_keeps _ _ | exact store_header_keeps _ _
    | apply keeps_bind | intro _ | split

end HeapFileScan

namespace InsertFileScan

theorem move_to_last_keeps (heap : HeapFile) (lastPage : Int) :
    KeepsFlag (moveToLast heap lastPage) := ⟨move_to_last_flag heap lastPage⟩

theorem new_keeps (mem : Uninit) (fileName : FileName) :
    KeepsFlag (InsertFileScan.new mem fileName) := by
  unfold InsertFileScan.new
  repeat' first
    | exact keeps_pure _ | exact keeps_crash | exact HeapFile.new_keeps _ _
    | exact header_at_keeps _ | exact move_to_last_keeps _ _
    | apply keeps_bind | intro _ | split

theorem delete_keeps (scan : InsertFileScan) : KeepsFlag scan.delete := by
  unfold InsertFileScan.delete
  repeat' first
    | exact un_pin_page_keeps _ _ _ | exact HeapFile.release_keeps _
    | apply keeps_bind | intro _ | split

theorem record_inserted_keeps (scan : InsertFileScan) (frame : Nat) (after : Page) (rid : RID) :
    KeepsFlag (scan.recordInserted frame after rid) := by
  unfold InsertFileScan.recordInserted
  repeat' first
    | exact keeps_pure _ | exact store_page_keeps _ _ | exact header_at_keeps _
    | exact store_header_keeps _ _
    | apply keeps_bind | intro _

theorem insert_here_keeps (scan : InsertFileScan) (frame : Nat) (rec : Record) :
    KeepsFlag (scan.insertHere frame rec) := by
  unfold InsertFileScan.insertHere InsertFileScan.insertOnNewPage
  repeat' first
    | exact keeps_pure _ | exact record_inserted_keeps _ _ _ _ | exact alloc_page_keeps _
    | exact page_at_keeps _ | exact header_at_keeps _ | exact store_page_keeps _ _
    | exact store_header_keeps _ _ | exact un_pin_page_keeps _ _ _
    | apply keeps_bind | intro _ | split

theorem insert_record_keeps (scan : InsertFileScan) (rec : Record) :
    KeepsFlag (scan.insertRecord rec) := by
  unfold InsertFileScan.insertRecord
  repeat' first
    | exact keeps_pure _ | exact insert_here_keeps _ _ _ | exact header_at_keeps _
    | exact read_page_keeps _ _
    | apply keeps_bind | intro _ | split

end InsertFileScan

end PrimitiveDB

import PrimitiveDB.FileLayerRules
import PrimitiveDB.HeapFile

/-!
# Runs that no failing system call has reached

Such a run is that of the same world in which no system call can fail, so what the contracts of
the storage layers say of reliable worlds is true of it.
-/

namespace PrimitiveDB

set_option autoImplicit false

def World.calm (w : World) : World := { w with faults := fun _ => false }

namespace DbM

variable {α β : Type}

def Heedless (call : DbM α) : Prop :=
  ∀ w : World, call w.calm = ((call w).1, (call w).2.calm)

def Unhindered (call : DbM α) : Prop :=
  ∀ (w w' : World) (value : α), call w = (.ok value, w') → call w.calm = (.ok value, w'.calm)

theorem heedless_pure (value : α) : Heedless (pure value : DbM α) := fun _ => rfl

theorem heedless_fail (status : Status) : Heedless (fail status : DbM α) := fun _ => rfl

theorem heedless_bind {first : DbM α} {next : α → DbM β} (here : Heedless first)
    (later : ∀ value, Heedless (next value)) : Heedless (first >>= next) := by
  intro w
  rw [bind_apply, bind_apply, here w]
  rcases step : first w with ⟨value | status | _, w'⟩
  · exact later value w'
  · rfl
  · rfl

theorem heedless_call {call : DbM α} (heedless : Heedless call) : Heedless (callBufMgr call) := by
  intro w
  unfold callBufMgr
  rw [heedless w]
  rcases step : call w with ⟨value | status | _, w'⟩ <;> rfl

theorem Heedless.unhindered {call : DbM α} (heedless : Heedless call) : Unhindered call := by
  intro w w' value run
  rw [heedless w, run]

theorem unhindered_bind {first : DbM α} {next : α → DbM β} (here : Unhindered first)
    (later : ∀ value, Unhindered (next value)) : Unhindered (first >>= next) := by
  intro w w'' result run
  obtain ⟨value, w', step, rest⟩ := bind_eq_ok_iff.mp run
  rw [bind_ok (here w w' value step)]
  exact later value w' w'' result rest

end DbM

open DbM

namespace File

variable {file : FilePtr} {pageNo : Int}

theorem intread_unhindered (file : FilePtr) (pageNo : Int) :
    Unhindered (intread file pageNo) := by
  intro w w' image run
  obtain ⟨contents, opened, _, lower, upper, rfl, rfl⟩ := intread_inv run
  exact intread_ok (w := w.calm) opened rfl lower upper

theorem intwrite_unhindered (file : FilePtr) (pageNo : Int) (image : PageImage) :
    Unhindered (intwrite file pageNo image) := by
  intro w w' value run
  obtain ⟨object, contents, live, opened, _, lower, rfl⟩ := intwrite_inv run
  exact intwrite_ok (w := w.calm) live opened rfl lower image

theorem read_page_unhindered (file : FilePtr) (pageNo : Int) :
    Unhindered (readPage file pageNo) := by
  unfold readPage
  split
  · exact (heedless_fail _).unhindered
  · exact intread_unhindered file pageNo

theorem write_page_unhindered (file : FilePtr) (pageNo : Int) (image : PageImage) :
    Unhindered (writePage file pageNo image) := by
  unfold writePage
  split
  · exact (heedless_fail _).unhindered
  · exact intwrite_unhindered file pageNo image

theorem allocate_page_unhindered (file : FilePtr) : Unhindered (allocatePage file) := by
  unfold allocatePage
  apply unhindered_bind (intread_unhindered file 0)
  intro header
  dsimp only
  split
  · apply unhindered_bind (intread_unhindered file _)
    intro firstFree
    apply unhindered_bind (intwrite_unhindered file 0 _)
    intro _
    exact (heedless_pure _).unhindered
  · apply unhindered_bind (intwrite_unhindered file _ _)
    intro _
    apply unhindered_bind (intwrite_unhindered file 0 _)
    intro _
    exact (heedless_pure _).unhindered

end File

namespace BufMgr

theorem alloc_buf_unhindered : Unhindered allocBuf := by
  unfold allocBuf
  apply unhindered_bind (Heedless.unhindered fun _ => rfl)
  rintro ⟨found, numScanned, scanned⟩
  apply unhindered_bind (Heedless.unhindered fun _ => rfl)
  intro _
  split
  · exact (heedless_fail _).unhindered
  · dsimp only
    split
    · apply unhindered_bind (File.write_page_unhindered _ _ _)
      intro _
      exact (heedless_pure _).unhindered
    · exact (heedless_pure _).unhindered

theorem install_page_heedless (file : FilePtr) (pageNo : Int) (frame : Nat) :
    Heedless (installPage file pageNo frame) := by
  unfold installPage
  apply heedless_bind fun _ => rfl
  intro _
  apply heedless_bind fun _ => rfl
  intro inserted
  cases inserted with
  | none => exact heedless_fail _
  | some table =>
      apply heedless_bind fun _ => rfl
      intro _
      exact heedless_pure _

theorem read_page_unhindered (file : FilePtr) (pageNo : Int) :
    Unhindered (readPage file pageNo) := by
  unfold readPage
  apply unhindered_bind (Heedless.unhindered fun _ => rfl)
  intro hit
  cases hit with
  | some frame =>
      apply unhindered_bind (Heedless.unhindered fun _ => rfl)
      intro _
      exact (heedless_pure _).unhindered
  | none =>
      apply unhindered_bind alloc_buf_unhindered
      intro frame
      apply unhindered_bind (File.read_page_unhindered file pageNo)
      intro image
      apply unhindered_bind (Heedless.unhindered fun _ => rfl)
      intro _
      exact (install_page_heedless file pageNo frame).unhindered

theorem alloc_page_unhindered (file : FilePtr) : Unhindered (allocPage file) := by
  unfold allocPage
  apply unhindered_bind (File.allocate_page_unhindered file)
  intro pageNo
  apply unhindered_bind alloc_buf_unhindered
  intro frame
  apply unhindered_bind (install_page_heedless file pageNo frame).unhindered
  intro _
  exact (heedless_pure _).unhindered

theorem un_pin_page_heedless (file : FilePtr) (pageNo : Int) (dirty : Bool) :
    Heedless (unPinPage file pageNo dirty) := by
  unfold unPinPage
  apply heedless_bind fun _ => rfl
  intro hit
  cases hit with
  | none => exact heedless_fail _
  | some frame =>
      apply heedless_bind fun _ => rfl
      intro _
      apply heedless_bind fun _ => rfl
      intro desc
      split
      · exact heedless_fail _
      · exact fun _ => rfl

end BufMgr

namespace InsertFileScan

theorem record_inserted_heedless (scan : InsertFileScan) (frame : Nat) (after : Page) (rid : RID) :
    Heedless (scan.recordInserted frame after rid) := by
  unfold recordInserted
  apply heedless_bind fun _ => rfl
  intro _
  apply heedless_bind fun _ => rfl
  intro hdr
  apply heedless_bind fun _ => rfl
  intro _
  exact heedless_pure _

theorem insert_on_new_page_calm {scan : InsertFileScan} {frame : Nat} {rec : Record} {w w₁ : World}
    {page : Int × Nat} (allocated : BufMgr.allocPage scan.filePtr w = (.ok page, w₁)) :
    scan.insertOnNewPage frame rec w.calm =
      ((scan.insertOnNewPage frame rec w).1, (scan.insertOnNewPage frame rec w).2.calm) := by
  have call : callBufMgr (BufMgr.allocPage scan.filePtr) w = (.ok (.ok page), w₁) := by
    unfold callBufMgr
    rw [allocated]
  have calmCall : callBufMgr (BufMgr.allocPage scan.filePtr) w.calm = (.ok (.ok page), w₁.calm) := by
    unfold callBufMgr
    rw [BufMgr.alloc_page_unhindered scan.filePtr w w₁ page allocated]
  unfold insertOnNewPage
  rw [bind_ok call, bind_ok calmCall]
  obtain ⟨newPageNo, newFrame⟩ := page
  dsimp only
  refine heedless_bind (fun _ => rfl) (fun newPage => ?_) w₁
  refine heedless_bind (fun _ => rfl) fun _ => ?_
  refine heedless_bind (fun _ => rfl) fun hdr => ?_
  refine heedless_bind (fun _ => rfl) fun _ => ?_
  refine heedless_bind (fun _ => rfl) fun old => ?_
  refine heedless_bind (fun _ => rfl) fun _ => ?_
  refine heedless_bind (heedless_call (BufMgr.un_pin_page_heedless _ _ _)) fun unpinned => ?_
  cases unpinned with
  | error status =>
      refine heedless_bind (heedless_call (BufMgr.un_pin_page_heedless _ _ _)) fun last => ?_
      cases last <;> exact heedless_pure _
  | ok _ =>
      refine heedless_bind (fun _ => rfl) fun fresh => ?_
      rcases fresh.insertRecord rec with ⟨status | rid, after⟩
      · exact heedless_pure _
      · exact record_inserted_heedless _ _ _ _

end InsertFileScan

end PrimitiveDB

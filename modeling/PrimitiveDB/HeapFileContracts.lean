import PrimitiveDB.OpenFileContracts

/-!
# What a heap file object holds

An object pins its header page and, while `curPage` is set, its current page,
and its dirty flags say which of the two it still has to report.
`World.Holding` states that for one object, next to the pins `rest` and handles
`others` of everybody else. The lemmas of this module are the moves that the
methods of `heapfile.C` are made of.
-/

namespace PrimitiveDB

open BufMgr World

set_option autoImplicit false

namespace HeapFile

def headerPin (heap : HeapFile) : Pin :=
  { file := heap.filePtr, pageNo := heap.headerPageNo, frame := heap.headerPage
    owed := heap.hdrDirtyFlag }

def curPin (heap : HeapFile) (frame : Nat) : Pin :=
  { file := heap.filePtr, pageNo := heap.curPageNo, frame, owed := heap.curDirtyFlag }

def pins (heap : HeapFile) : List Pin :=
  heap.headerPin :: heap.curPage.toList.map heap.curPin

theorem pins_none {heap : HeapFile} (cur : heap.curPage = none) :
    heap.pins = [heap.headerPin] := by
  simp [pins, cur]

theorem pins_some {heap : HeapFile} {frame : Nat} (cur : heap.curPage = some frame) :
    heap.pins = [heap.headerPin, heap.curPin frame] := by
  simp [pins, cur]

theorem header_pin_mem (heap : HeapFile) {rest : List Pin} :
    heap.headerPin ∈ heap.pins ++ rest := by
  simp [pins]

theorem cur_pin_mem {heap : HeapFile} {frame : Nat} (cur : heap.curPage = some frame)
    {rest : List Pin} : heap.curPin frame ∈ heap.pins ++ rest := by
  simp [pins, cur]

end HeapFile

namespace World

structure Holding (w : World) (heap : HeapFile) (rest : List Pin) (others : List FilePtr)
    (fileName : FileName) (lf : LogicalFile) : Prop where
  storage : w.Storage (heap.pins ++ rest) (heap.filePtr :: others)
  named : w.nameOf heap.filePtr = some fileName
  logical : w.logical fileName = some lf

theorem Storage.owe {w : World} {pin : Pin} {pins : List Pin} {opens : List FilePtr}
    (storage : w.Storage (pin :: pins) opens) (owed : Bool) (more : pin.owed = true → owed = true) :
    w.Storage ({ pin with owed := owed } :: pins) opens :=
  storage.steady (storage.toHealthy.owe owed more) (.refl w) storage.kept

variable {w w' : World} {heap heap' : HeapFile} {rest : List Pin} {others : List FilePtr}
  {fileName : FileName} {lf : LogicalFile} {frame : Nat}

section Holding

variable (holding : w.Holding heap rest others fileName lf)

include holding

theorem Holding.header_page :
    lf.Inside heap.headerPageNo ∧
      w.bufMgr.bufPool heap.headerPage = lf.page heap.headerPageNo :=
  holding.storage.page_of_pin heap.header_pin_mem holding.named holding.logical

theorem Holding.cur_page (cur : heap.curPage = some frame) :
    lf.Inside heap.curPageNo ∧ w.bufMgr.bufPool frame = lf.page heap.curPageNo :=
  holding.storage.page_of_pin (HeapFile.cur_pin_mem cur) holding.named holding.logical

theorem Holding.unseen (storage : w'.Storage (heap'.pins ++ rest) (heap'.filePtr :: others))
    (same : SameLogical w w') (file : heap'.filePtr = heap.filePtr) :
    w'.Holding heap' rest others fileName lf where
  storage := storage
  named := by rw [same.nameOf, file]; exact holding.named
  logical := by rw [same.logical]; exact holding.logical

/-- The cursor of an object without a current page does not matter. -/
theorem Holding.idle (cur : heap.curPage = none) (header : heap'.headerPin = heap.headerPin)
    (cur' : heap'.curPage = none) : w.Holding heap' rest others fileName lf := by
  have file : heap'.filePtr = heap.filePtr := congrArg Pin.file header
  have storage := holding.storage
  rw [HeapFile.pins_none cur] at storage
  refine holding.unseen ?_ (.refl w) file
  rw [HeapFile.pins_none cur', header, file]
  exact storage

theorem Holding.unpin (cur : heap.curPage = some frame) (dirty : Bool)
    (reports : heap.curDirtyFlag = true → dirty = true) :
    ∃ w', callBufMgr (BufMgr.unPinPage heap.filePtr heap.curPageNo dirty) w =
        (.ok (.ok ()), w') ∧ SameLogical w w' ∧ w'.bufFailed = w.bufFailed ∧
      ∀ heap' : HeapFile, heap'.headerPin = heap.headerPin → heap'.curPage = none →
        w'.Holding heap' rest others fileName lf := by
  have storage := holding.storage
  rw [HeapFile.pins_some cur] at storage
  have swapped := storage.perm (List.Perm.swap (heap.curPin frame) heap.headerPin rest)
  obtain ⟨w₁, run, storage₁, same, failed⟩ := swapped.un_pin_page dirty reports
  refine ⟨w₁, run, same, failed, ?_⟩
  intro heap' header none_
  have file : heap'.filePtr = heap.filePtr := congrArg Pin.file header
  refine holding.unseen ?_ same file
  rw [HeapFile.pins_none none_, header, file]
  exact storage₁

theorem Holding.read (cur : heap.curPage = none) (pageNo : Int) :
    ∃ result w', callBufMgr (BufMgr.readPage heap.filePtr pageNo) w = (.ok result, w') ∧
      ((∃ status, result = .error status ∧ w'.bufFailed = true ∧
          (lf.Inside pageNo → ¬w.HasRoom (heap.headerPin :: rest) heap.filePtr pageNo ∧
            SameLogical w w' ∧
            ∀ heap' : HeapFile, heap'.headerPin = heap.headerPin → heap'.curPage = none →
              w'.Holding heap' rest others fileName lf)) ∨
        ∃ frame, result = .ok frame ∧ lf.Inside pageNo ∧ SameLogical w w' ∧
          w'.bufFailed = w.bufFailed ∧ w'.bufMgr.bufPool frame = lf.page pageNo ∧
          ∀ heap' : HeapFile, heap'.headerPin = heap.headerPin → heap'.curPage = some frame →
            heap'.curPageNo = pageNo → w'.Holding heap' rest others fileName lf) := by
  have storage := holding.storage
  rw [HeapFile.pins_none cur] at storage
  obtain ⟨result, w₁, run, outcome⟩ :=
    storage.read_page holding.named holding.logical pageNo
  refine ⟨result, w₁, run, ?_⟩
  rcases outcome with ⟨status, rfl, failed, within⟩ |
    ⟨frame, rfl, inside, storage₁, same, failed, page⟩
  · refine .inl ⟨status, rfl, failed, fun inside => ?_⟩
    obtain ⟨storage₁, same, full⟩ := within inside
    refine ⟨full, same, ?_⟩
    intro heap' header none_
    have file : heap'.filePtr = heap.filePtr := congrArg Pin.file header
    refine holding.unseen ?_ same file
    rw [HeapFile.pins_none none_, header, file]
    exact storage₁
  · refine .inr ⟨frame, rfl, inside, same, failed, page, ?_⟩
    intro heap' header some_ number
    have file : heap'.filePtr = heap.filePtr := congrArg Pin.file header
    refine holding.unseen ?_ same file
    have owing := storage₁.owe heap'.curDirtyFlag (fun owed => by cases owed)
    rw [HeapFile.pins_some some_, header, file]
    refine (owing.perm (List.Perm.swap heap.headerPin _ rest)).perm ?_
    rw [HeapFile.curPin, file, number]
    exact .refl _

/-- Flags may be set early: an object that means to report a change. -/
theorem Holding.promise (header : heap'.filePtr = heap.filePtr ∧
      heap'.headerPageNo = heap.headerPageNo ∧ heap'.headerPage = heap.headerPage)
    (cursor : heap'.curPage = heap.curPage ∧ heap'.curPageNo = heap.curPageNo)
    (hdrFlag : heap.hdrDirtyFlag = true → heap'.hdrDirtyFlag = true)
    (curFlag : heap.curDirtyFlag = true → heap'.curDirtyFlag = true) :
    w.Holding heap' rest others fileName lf := by
  refine holding.unseen ?_ (.refl w) header.1
  have storage := holding.storage
  have headerPin : heap'.headerPin = { heap.headerPin with owed := heap'.hdrDirtyFlag } := by
    simp [HeapFile.headerPin, header]
  cases cur : heap.curPage with
  | none =>
      rw [HeapFile.pins_none cur] at storage
      rw [HeapFile.pins_none (by rw [cursor.1, cur]), headerPin, header.1]
      exact storage.owe _ hdrFlag
  | some frame =>
      rw [HeapFile.pins_some cur] at storage
      have curPin : heap'.curPin frame = { heap.curPin frame with owed := heap'.curDirtyFlag } := by
        simp [HeapFile.curPin, header.1, cursor.2]
      rw [HeapFile.pins_some (by rw [cursor.1, cur]), headerPin, curPin, header.1]
      have first := storage.owe heap'.hdrDirtyFlag hdrFlag
      have second := (first.perm (List.Perm.swap (heap.curPin frame) _ rest)).owe
        heap'.curDirtyFlag curFlag
      exact second.perm (List.Perm.swap _ _ rest)

theorem Holding.wrote {lf' : LogicalFile} {pageNo : Int}
    (storage : w'.Storage (heap.pins ++ rest) (heap.filePtr :: others))
    (writes : Writes w w' fileName lf') (given : (w'.given fileName pageNo).isSome) :
    w'.Holding heap rest others fileName lf' ∧ Writes w w' fileName lf' ∧
      (w'.given fileName pageNo).isSome := by
  refine ⟨⟨storage, ?_, ?_⟩, writes, given⟩
  · rw [writes.nameOf]
    exact holding.named
  · rw [writes.logical, Function.update_self]

theorem Holding.store_page (cur : heap.curPage = some frame) (flag : heap.curDirtyFlag = true)
    (image : PageImage) :
    (w.giveImage frame image).Holding heap rest others fileName (lf.write heap.curPageNo image) ∧
      Writes w (w.giveImage frame image) fileName (lf.write heap.curPageNo image) ∧
      ((w.giveImage frame image).given fileName heap.curPageNo).isSome := by
  obtain ⟨storage, writes, given⟩ := holding.storage.give_image (HeapFile.cur_pin_mem cur) flag
    holding.named holding.logical image
  exact holding.wrote storage writes given

theorem Holding.store_header (flag : heap.hdrDirtyFlag = true) (image : PageImage) :
    (w.giveImage heap.headerPage image).Holding heap rest others fileName
        (lf.write heap.headerPageNo image) ∧
      Writes w (w.giveImage heap.headerPage image) fileName (lf.write heap.headerPageNo image) ∧
      ((w.giveImage heap.headerPage image).given fileName heap.headerPageNo).isSome := by
  obtain ⟨storage, writes, given⟩ := holding.storage.give_image heap.header_pin_mem flag
    holding.named holding.logical image
  exact holding.wrote storage writes given

/-- A new page of the file, pinned next to the two the object has. -/
theorem Holding.alloc :
    ∃ result w', callBufMgr (BufMgr.allocPage heap.filePtr) w = (.ok result, w') ∧
      ((∃ status image, result = .error status ∧ w'.bufFailed = true ∧ w.Exhausted ∧
          w'.Holding heap rest others fileName (lf.extend image) ∧
          Writes w w' fileName (lf.extend image)) ∨
        ∃ frame, result = .ok ((lf.size : Int), frame) ∧ ¬w.Exhausted ∧
          w'.bufFailed = w.bufFailed ∧
          w'.Holding heap ({ file := heap.filePtr, pageNo := lf.size, frame, owed := true } ::
            rest) others fileName (lf.extend (w'.bufMgr.bufPool frame)) ∧
          Writes w w' fileName (lf.extend (w'.bufMgr.bufPool frame))) := by
  obtain ⟨result, w₁, run, outcome⟩ := holding.storage.alloc_page holding.named holding.logical
  refine ⟨result, w₁, run, ?_⟩
  rcases outcome with ⟨status, rfl, failed, storage₁, exhausted, image, writes⟩ |
    ⟨frame, rfl, spare, storage₁, failed, writes⟩
  · refine .inl ⟨status, image, rfl, failed, exhausted, ⟨storage₁, ?_, ?_⟩, writes⟩
    · rw [writes.nameOf]; exact holding.named
    · rw [writes.logical, Function.update_self]
  · refine .inr ⟨frame, rfl, spare, failed, ⟨storage₁.perm ?_, ?_, ?_⟩, writes⟩
    · exact List.perm_middle.symm
    · rw [writes.nameOf]; exact holding.named
    · rw [writes.logical, Function.update_self]

theorem Holding.store_beside {pin : Pin} (member : pin ∈ rest) (flag : pin.owed = true)
    (file : pin.file = heap.filePtr) (image : PageImage) :
    (w.giveImage pin.frame image).Holding heap rest others fileName
        (lf.write pin.pageNo image) ∧
      Writes w (w.giveImage pin.frame image) fileName (lf.write pin.pageNo image) ∧
      ((w.giveImage pin.frame image).given fileName pin.pageNo).isSome ∧
      w.bufMgr.bufPool pin.frame = lf.page pin.pageNo := by
  have named : w.nameOf pin.file = some fileName := by rw [file]; exact holding.named
  have inAll : pin ∈ heap.pins ++ rest := by simp [member]
  obtain ⟨storage, writes, given⟩ := holding.storage.give_image inAll flag named
    holding.logical image
  obtain ⟨holding₁, writes₁, given₁⟩ := holding.wrote storage writes given
  exact ⟨holding₁, writes₁, given₁,
    (holding.storage.page_of_pin inAll named holding.logical).2⟩

end Holding

theorem Holding.adopt {pin : Pin} (holding : w.Holding heap (pin :: rest) others fileName lf)
    (cur : heap.curPage = none) (header : heap'.headerPin = heap.headerPin)
    (page : heap'.curPage = some pin.frame) (number : heap'.curPageNo = pin.pageNo)
    (file : pin.file = heap.filePtr) (flag : pin.owed = true → heap'.curDirtyFlag = true) :
    w.Holding heap' rest others fileName lf := by
  have sameFile : heap'.filePtr = heap.filePtr := congrArg Pin.file header
  have storage := holding.storage
  rw [HeapFile.pins_none cur] at storage
  have owing := (storage.perm (List.Perm.swap pin heap.headerPin rest)).owe
    heap'.curDirtyFlag flag
  refine ⟨?_, by rw [sameFile]; exact holding.named, holding.logical⟩
  have curPin : heap'.curPin pin.frame = { pin with owed := heap'.curDirtyFlag } := by
    simp [HeapFile.curPin, number, sameFile, file]
  rw [HeapFile.pins_some page, header, curPin, sameFile]
  exact owing.perm (List.Perm.swap _ _ rest)

end World

end PrimitiveDB

import PrimitiveDB.HeapMaps

/-!
# New heap files

`createHeapFile` on a name that no file has leaves a heap file with one empty data
page, and every other file as it was.
-/

namespace PrimitiveDB

open World DbM

set_option autoImplicit false

/-- A header page and one empty data page are a heap file without records. -/
theorem LogicalFile.new_heap_formed {lf : LogicalFile} {hdr : FileHdrPage} {page : Page}
    (size : lf.size = 3)
    (header : lf.header 1 = { hdr with recCnt := 0, pageCnt := 1, firstPage := 2, lastPage := 2 })
    (data : lf.data 2 = (page.init 2).setNextPage (-1)) :
    lf.HeapFormed 1 [2] ∧ lf.rids [2] = [] := by
  have wf := (Page.init_well_formed page 2).set_next_page (-1)
  have none_live : (lf.data 2).liveFrom 0 = [] := by
    rw [data]
    rfl
  have noRids : lf.rids [2] = [] := by
    rw [rids_singleton, ridsFrom, none_live]
    rfl
  refine ⟨⟨?_, by decide, ?_, ?_, ?_, ?_, ?_, ?_⟩, noRids⟩
  · intro pageNo member
    simp only [List.mem_cons, List.not_mem_nil, or_false] at member
    unfold Inside
    rw [size]
    rcases member with rfl | rfl <;> decide
  · change (lf.data 2).getNextPage = -1
    rw [data]
    rfl
  · rw [header]
    rfl
  · rw [header]
    rfl
  · rw [header]
    rfl
  · rw [header, noRids]
    rfl
  · intro pageNo member
    obtain rfl := List.mem_singleton.mp member
    rw [data]
    exact ⟨wf, rfl⟩

namespace World

variable {w : World} {pins : List Pin} {opens : List FilePtr} {fileName : FileName}

/-- The end of `createHeapFile`: both pages are unpinned, the file is flushed and closed. -/
theorem Storage.finish_new_file {file : FilePtr} {newPin hdrPin : Pin}
    (storage : w.Storage (newPin :: hdrPin :: pins) (file :: opens)) (fresh : file ∉ opens)
    (newFile : newPin.file = file) (hdrFile : hdrPin.file = file)
    (owned : ∀ pin ∈ pins, pin.file ∈ opens) :
    ∃ w₁ w₂ w₃ w',
      callBufMgr (BufMgr.unPinPage file newPin.pageNo true) w = (.ok (.ok ()), w₁) ∧
      callBufMgr (BufMgr.unPinPage file hdrPin.pageNo true) w₁ = (.ok (.ok ()), w₂) ∧
      callBufMgr (BufMgr.flushFile file) w₂ = (.ok (.ok ()), w₃) ∧
      DB.closeFile file w₃ = (.ok (), w') ∧ w'.Storage pins opens ∧ w'.logical = w.logical ∧
      ∀ other ∈ opens, w'.nameOf other = w.nameOf other := by
  have unpinned : ∀ pin ∈ pins, pin.file ≠ file := by
    intro pin member equal
    have opened := owned pin member
    rw [equal] at opened
    exact fresh opened
  obtain ⟨w₁, run₁, storage₁, same₁, _⟩ := storage.un_pin_page true fun _ => rfl
  obtain ⟨w₂, run₂, storage₂, same₂, _⟩ := storage₁.un_pin_page true fun _ => rfl
  obtain ⟨w₃, run₃, storage₃, same₃, _⟩ := storage₂.flush_file List.mem_cons_self unpinned
  obtain ⟨w', run', storage', closes⟩ := storage₃.close_last fresh unpinned
  rw [newFile] at run₁
  rw [hdrFile] at run₂
  have same := (same₁.trans same₂).trans same₃
  refine ⟨w₁, w₂, w₃, w', run₁, run₂, buf_mgr_ok run₃, run', storage', ?_, ?_⟩
  · rw [closes.logical, same.logical]
  · intro other member
    rw [closes.names other member, same.nameOf]

theorem Storage.create_heap_file (storage : w.Storage pins opens) (nonempty : fileName ≠ [])
    (absent : w.logical fileName = none) :
    Smoothly (createHeapFile fileName) w fun status w' => status = .OK ∧ w'.Storage pins opens ∧
      (∀ file ∈ opens, w'.nameOf file = w.nameOf file) ∧
      ∃ lf, w'.logical = Function.update w.logical fileName (some lf) ∧ lf.firstPage = 1 ∧
        lf.HeapFormed 1 [2] ∧ lf.rids [2] = [] := by
  unfold createHeapFile
  obtain ⟨w₁, missing, storage₁, same₁, _⟩ := storage.open_missing nonempty absent
  apply smoothly_bind_eq (attempt_err missing)
  dsimp only
  have absent₁ : w₁.logical fileName = none := by
    rw [same₁.logical]
    exact absent
  obtain ⟨w₂, created, storage₂, writes₂, _⟩ := storage₁.create_file nonempty absent₁
  apply smoothly_bind_eq (attempt_ok created)
  dsimp only
  have logical₂ : w₂.logical fileName = some LogicalFile.empty := by
    rw [writes₂.logical, Function.update_self]
  obtain ⟨contents, stored, _⟩ := Option.map_eq_some_iff.mp logical₂
  have unopened : w₂.openFiles.find fileName = none := by
    rw [writes₂.openFiles]
    exact storage₁.toFiled.unopened (logical_eq_none_iff.mp absent₁)
  obtain ⟨file, w₃, opened, storage₃, fresh, opens₃⟩ :=
    storage₂.open_first nonempty stored unopened
  apply smoothly_bind_eq (attempt_ok opened)
  dsimp only
  have logical₃ : w₃.logical fileName = some LogicalFile.empty := by
    rw [opens₃.logical]
    exact logical₂
  -- the header page
  obtain ⟨result₄, w₄, run₄, outcome₄⟩ := storage₃.alloc_page opens₃.name logical₃
  apply smoothly_bind_eq run₄
  rcases outcome₄ with ⟨status, rfl, failed, _⟩ | ⟨hdrFrame, rfl, _, storage₄, _, writes₄⟩
  · exact smoothly_of_failed failed
  · dsimp only
    set hdrImage := w₄.bufMgr.bufPool hdrFrame with hdrImageDef
    have name₄ : w₄.nameOf file = some fileName := by
      rw [writes₄.nameOf]
      exact opens₃.name
    have logical₄ : w₄.logical fileName = some (LogicalFile.empty.extend hdrImage) := by
      rw [writes₄.logical, Function.update_self]
    apply smoothly_bind_eq (rfl : headerAt hdrFrame w₄ = (.ok hdrImage.asFileHdr, w₄))
    obtain ⟨storage₅, writes₅, _⟩ := storage₄.give_image List.mem_cons_self rfl name₄ logical₄
      (hdrImage.setFileHdr { hdrImage.asFileHdr with fileName := headerName fileName })
    apply smoothly_bind_eq (rfl : storeHeader hdrFrame _ w₄ = (.ok (), _))
    set w₅ := w₄.giveImage hdrFrame
      (hdrImage.setFileHdr { hdrImage.asFileHdr with fileName := headerName fileName }) with w₅Def
    set named := hdrImage.setFileHdr { hdrImage.asFileHdr with fileName := headerName fileName }
    have name₅ : w₅.nameOf file = some fileName := by
      rw [writes₅.nameOf]
      exact name₄
    have logical₅ : w₅.logical fileName =
        some ((LogicalFile.empty.extend hdrImage).write 1 named) := by
      rw [writes₅.logical, Function.update_self]
      rfl
    -- the data page
    obtain ⟨result₆, w₆, run₆, outcome₆⟩ := storage₅.alloc_page name₅ logical₅
    apply smoothly_bind_eq run₆
    rcases outcome₆ with ⟨status, rfl, failed, _⟩ | ⟨newFrame, rfl, _, storage₆, _, writes₆⟩
    · exact smoothly_of_failed failed
    · dsimp only
      set newImage := w₆.bufMgr.bufPool newFrame with newImageDef
      have name₆ : w₆.nameOf file = some fileName := by
        rw [writes₆.nameOf]
        exact name₅
      have logical₆ : w₆.logical fileName =
          some (((LogicalFile.empty.extend hdrImage).write 1 named).extend newImage) := by
        rw [writes₆.logical, Function.update_self]
      apply smoothly_bind_eq (rfl : pageAt newFrame w₆ = (.ok newImage.asPage, w₆))
      set newPage := (newImage.asPage.init 2).setNextPage (-1) with newPageDef
      obtain ⟨storage₇, writes₇, _⟩ := storage₆.give_image List.mem_cons_self rfl name₆ logical₆
        (.data newPage)
      apply smoothly_bind_eq (rfl : storePage newFrame newPage w₆ = (.ok (), _))
      set w₇ := w₆.giveImage newFrame (.data newPage) with w₇Def
      have name₇ : w₇.nameOf file = some fileName := by
        rw [writes₇.nameOf]
        exact name₆
      have logical₇ := congrFun writes₇.logical fileName
      rw [Function.update_self] at logical₇
      set hdrImage₇ := w₇.bufMgr.bufPool hdrFrame with hdrImage₇Def
      apply smoothly_bind_eq (rfl : headerAt hdrFrame w₇ = (.ok hdrImage₇.asFileHdr, w₇))
      set filled := hdrImage₇.setFileHdr { hdrImage₇.asFileHdr with
        recCnt := 0, pageCnt := 1, firstPage := 2, lastPage := 2 } with filledDef
      obtain ⟨storage₈, writes₈, _⟩ := storage₇.give_image (List.mem_cons_of_mem _ List.mem_cons_self)
        rfl name₇ logical₇ filled
      apply smoothly_bind_eq (rfl : storeHeader hdrFrame _ w₇ = (.ok (), _))
      obtain ⟨w₉, w₁₀, w₁₁, w', run₉, run₁₀, run₁₁, run', storage', logical', names'⟩ :=
        storage₈.finish_new_file fresh rfl rfl fun _ => storage.pin_open
      apply smoothly_bind_eq run₉
      apply smoothly_bind_eq run₁₀
      apply smoothly_bind_eq run₁₁
      apply smoothly_bind_eq (attempt_ok run')
      have writes := (((writes₄.trans writes₅).trans writes₆).trans writes₇).trans writes₈
      let grown := ((LogicalFile.empty.extend hdrImage).write 1 named).extend newImage
      have logical : w'.logical = Function.update w.logical fileName
          (some ((grown.write 2 (.data newPage)).write 1 filled)) := by
        rw [logical', writes.logical, opens₃.logical, writes₂.logical, same₁.logical,
          Function.update_idem]
        rfl
      refine smoothly_pure ⟨rfl, storage', ?_, _, logical, rfl, ?_⟩
      · intro other member
        rw [names' other member, writes.nameOf, opens₃.names other member, writes₂.nameOf,
          same₁.nameOf]
      · have header := congrArg PageImage.asFileHdr
          (LogicalFile.write_same (grown.write 2 (.data newPage)) 1 filled)
        have written := LogicalFile.write_same grown 2 (.data newPage)
        have data : ((grown.write 2 (.data newPage)).write 1 filled).data 2 = newPage := by
          rw [LogicalFile.data, LogicalFile.write_other _ _ _ (by decide)]
          exact congrArg PageImage.asPage written
        exact LogicalFile.new_heap_formed rfl header data

/-- What `createHeapFile` has done. On a name that is taken it leaves the file open. -/
inductive CreatesFile (w w' : World) (pins : List Pin) (opens : List FilePtr)
    (fileName : FileName) : Status → Prop where
  | taken {file : FilePtr} (present : w.logical fileName ≠ none)
      (storage : w'.Storage pins (file :: opens)) (opened : Opens w w' opens fileName file) :
      CreatesFile w w' pins opens fileName .FILEEXISTS
  | created {lf : LogicalFile} (absent : w.logical fileName = none)
      (storage : w'.Storage pins opens)
      (names : ∀ file ∈ opens, w'.nameOf file = w.nameOf file)
      (logical : w'.logical = Function.update w.logical fileName (some lf))
      (first : lf.firstPage = 1) (formed : lf.HeapFormed 1 [2]) (noRids : lf.rids [2] = []) :
      CreatesFile w w' pins opens fileName .OK

theorem Storage.creates_file (storage : w.Storage pins opens) (nonempty : fileName ≠ []) :
    Smoothly (createHeapFile fileName) w fun status w' =>
      CreatesFile w w' pins opens fileName status := by
  cases present : w.logical fileName with
  | none =>
      apply (storage.create_heap_file nonempty present).mono
      rintro status w' ⟨rfl, storage', names, lf, logical, first, formed, noRids⟩
      exact .created present storage' names logical first formed noRids
  | some lf =>
      obtain ⟨file, w₁, run, storage₁, opened⟩ := storage.open_file nonempty present
      unfold createHeapFile
      apply smoothly_bind_eq (attempt_ok run)
      apply smoothly_pure
      exact .taken (by rw [present]; exact Option.some_ne_none lf) storage₁ opened

end World

end PrimitiveDB

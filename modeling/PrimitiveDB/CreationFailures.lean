import PrimitiveDB.HeapFileOpening

/-!
# What a failed `createHeapFile` leaves behind

`createHeapFile` finds out whether the file exists by opening it, and every error after that
is an early return. None of the returns closes the file, unpins a page or removes the file
that has just been created: only an existing file that cannot be opened, a `createFile` that
fails before there is a file, and a run without errors leave everything as it was.
-/

namespace PrimitiveDB

open World

set_option autoImplicit false

theorem OpenFileHashTbl.erase_insert {table after : OpenFileHashTbl} {fileName : FileName}
    {file : FilePtr} (inserted : table.insert fileName file = some after) :
    after.erase fileName = some table := by
  simp only [OpenFileHashTbl.insert, ChainedTable.insert] at inserted
  split at inserted
  · cases inserted
  · cases inserted
    simp [OpenFileHashTbl.erase, ChainedTable.remove, ChainedTable.chainRemove]

namespace World

variable {w w' : World} {file : FilePtr} {fileName : FileName} {pageNo : Int} {frame : Nat}

theorem PoolInOrder.give_image (order : w.PoolInOrder) (frame : Nat) (image : PageImage) :
    (w.giveImage frame image).PoolInOrder := by
  have stored := order.step (PoolStep.store w frame image)
  exact ⟨stored.orderly, stored.null⟩

def headerNamed (w : World) (fileName : FileName) (frame : Nat) : World :=
  w.giveImage frame ((w.bufMgr.bufPool frame).setFileHdr
    { (w.bufMgr.bufPool frame).asFileHdr with fileName := headerName fileName })

def pagesFilled (w : World) (header : Nat) (data : Int × Nat) : World :=
  let filled := w.giveImage data.2
    (.data (((w.bufMgr.bufPool data.2).asPage.init data.1).setNextPage (-1)))
  filled.giveImage header ((filled.bufMgr.bufPool header).setFileHdr
    { (filled.bufMgr.bufPool header).asFileHdr with
      recCnt := 0, pageCnt := 1, firstPage := data.1, lastPage := data.1 })

structure Compact (w : World) (file : FilePtr) (pages : Int) : Prop where
  header : ∃ contents, w.unixFile file = some contents ∧ 0 < contents.size ∧
    (contents.page 0).asDBPage.nextFree = -1 ∧ (contents.page 0).asDBPage.numPages = pages

theorem Compact.of_headers {pages : Int} (compact : w.Compact file pages)
    (headers : SameHeaders w w') : w'.Compact file pages := by
  obtain ⟨contents, opened, headed, unlisted, counted⟩ := compact.header
  obtain ⟨contents', opened', headed', same⟩ := headers file contents opened headed
  refine ⟨contents', opened', headed', ?_, ?_⟩
  · rw [same]
    exact unlisted
  · rw [same]
    exact counted

theorem same_headers_trans (first second third : World) (left : SameHeaders first second)
    (right : SameHeaders second third) : SameHeaders first third := by
  intro file contents opened headed
  obtain ⟨contents', opened', headed', same⟩ := left file contents opened headed
  obtain ⟨contents'', opened'', headed'', same'⟩ := right file contents' opened' headed'
  exact ⟨contents'', opened'', headed'', same'.trans same⟩

theorem alloc_buf_headers : DbM.Moves SameHeaders BufMgr.allocBuf := by
  intro w
  have scanned : ∀ pool, SameHeaders w (w.setPool pool) := fun _ => SameHeaders.refl w
  rw [BufMgr.alloc_buf_eq]
  dsimp only
  split_ifs
  · exact scanned _
  · apply same_headers_trans _ _ _
      (scanned (BufMgr.clockScan (2 * w.bufMgr.numBufs) 0 w.bufMgr).2.2)
    apply DbM.moves_bind same_headers_trans (fun w => write_page_headers _ _ _ w)
    exact fun _ w => SameHeaders.refl w
  · exact scanned _

theorem install_page_headers (file : FilePtr) (pageNo : Int) (frame : Nat) :
    DbM.Moves SameHeaders (BufMgr.installPage file pageNo frame) := by
  intro w
  rw [BufMgr.install_page_eq]
  dsimp only
  split <;> exact SameHeaders.refl w

theorem Compact.alloc_page {pages : Int} (compact : w.Compact file pages)
    (run : BufMgr.allocPage file w = (.ok (pageNo, frame), w')) :
    pageNo = pages ∧ w'.Compact file (pages + 1) := by
  obtain ⟨contents, opened, headed, unlisted, counted⟩ := compact.header
  rw [BufMgr.alloc_page_eq] at run
  obtain ⟨number, w₁, allocate, run⟩ := DbM.bind_eq_ok_iff.mp run
  obtain ⟨contents', reaches⟩ := allocate_page_reaches allocate
  have same : contents' = contents := Option.some.inj (reaches.opened.symm.trans opened)
  subst same
  cases calm : w.faults 2 with
  | true =>
      obtain ⟨_, broken, _⟩ := reaches.breaks_off calm
      rw [broken] at allocate
      cases allocate
  | false =>
      obtain ⟨_, granted, _, _, _, after, opened', headed', header⟩ := reaches.grants calm
      rw [granted] at allocate
      cases allocate
      have next : w₁.Compact file (pages + 1) := by
        refine ⟨after, opened', headed', ?_, ?_⟩
        · rw [header, grantedHeader]
          simp [unlisted]
        · rw [header, grantedHeader]
          simp [unlisted, counted]
      have headers : DbM.Moves SameHeaders
          (BufMgr.framePage file (File.nextPageNo (contents'.page 0).asDBPage)) := by
        apply DbM.moves_bind same_headers_trans alloc_buf_headers
        intro chosen
        apply DbM.moves_bind same_headers_trans (install_page_headers file _ chosen)
        exact fun _ w => SameHeaders.refl w
      have moved := headers w₁
      rw [run] at moved
      refine ⟨?_, next.of_headers moved⟩
      obtain ⟨chosen, w₂, _, run⟩ := DbM.bind_eq_ok_iff.mp run
      obtain ⟨installed, w₃, _, done⟩ := DbM.bind_eq_ok_iff.mp run
      cases done
      unfold File.nextPageNo
      simp [unlisted, counted]

/-- The open files and the pins are as before, and an error leaves no new file. -/
structure Tidy (w : World) (fileName : FileName) (status : Status) (w' : World) : Prop where
  openFiles : w'.openFiles = w.openFiles
  openCounts : ∀ file, (w'.files file).map File.openCnt = (w.files file).map File.openCnt
  pins : SamePins w w'
  disk : status ≠ .OK → w.disk fileName = none → w'.disk fileName = none

theorem Tidy.rebase {v : World} {status : Status} (tidy : w.Tidy fileName status w')
    (files : v.files = w.files) (openFiles : v.openFiles = w.openFiles)
    (pool : v.bufMgr = w.bufMgr) (disk : v.disk = w.disk) : v.Tidy fileName status w' := by
  refine ⟨?_, ?_, ?_, ?_⟩
  · rw [openFiles]
    exact tidy.openFiles
  · rw [files]
    exact tidy.openCounts
  · intro index
    rw [tidy.pins index]
    unfold pinCount
    rw [pool]
  · rw [disk]
    exact tidy.disk

def LeavesTidy (w : World) (fileName : FileName) (result : Outcome Status × World) : Prop :=
  ∀ status w', result = (.ok status, w') → w.Tidy fileName status w'

def CleansUp (w : World) (fileName : FileName) : Prop :=
  w.LeavesTidy fileName (createHeapFile fileName w)

/-- The call does not return an error, and what follows a success is as it should be. -/
structure NoFailure {α : Type} (call : DbM α) (w : World) (next : α → World → Prop) : Prop where
  succeeds : ∀ status w', call w ≠ (.err status, w')
  goesOn : ∀ value w', call w = (.ok value, w') → next value w'

/-- `File::create` makes the file: the first system call succeeds and there is no such file. -/
structure MakesFile (w : World) (fileName : FileName) : Prop where
  nonempty : fileName ≠ []
  unopened : w.openFiles.find fileName = none
  absent : w.disk fileName = none
  calm : w.faults 0 = false

def LaterCallsSucceed (w : World) (fileName : FileName) : Prop :=
  NoFailure (DB.openFile fileName) w fun file w₁ =>
  NoFailure (BufMgr.allocPage file) w₁ fun header w₂ =>
  NoFailure (BufMgr.allocPage file) (w₂.headerNamed fileName header.2) fun data w₃ =>
  NoFailure (BufMgr.unPinPage file data.1 true) (w₃.pagesFilled header.2 data) fun _ w₄ =>
  NoFailure (BufMgr.unPinPage file header.1 true) w₄ fun _ w₅ =>
  NoFailure (BufMgr.flushFile file) w₅ fun _ _ => True

/-- The file cannot be opened, and if it is then made, no system call fails in the making and
no call fails afterwards. -/
structure MayCreate (w : World) (fileName : FileName) : Prop where
  closed : ∀ file w₁, DB.openFile fileName w ≠ (.ok file, w₁)
  built : ∀ status w₁, DB.openFile fileName w = (.err status, w₁) → w₁.MakesFile fileName →
    w₁.faults 1 = false ∧ w₁.faults 2 = false ∧
      ∀ w₂, DB.createFile fileName w₁ = (.ok (), w₂) → w₂.LaterCallsSucceed fileName

theorem NoFailure.of_ok {α : Type} {call : DbM α} {next : α → World → Prop} (value : α)
    (returned : (call w).1 = .ok value) (passes : next value (call w).2) :
    NoFailure call w next := by
  refine ⟨?_, ?_⟩
  · intro status w' failed
    rw [failed] at returned
    cases returned
  · intro value' w' done
    rw [done] at returned passes
    cases returned
    exact passes

theorem NoFailure.congr {α : Type} {call : DbM α} {next next' : α → World → Prop}
    (same : ∀ value w', call w = (.ok value, w') → (next value w' ↔ next' value w')) :
    NoFailure call w next ↔ NoFailure call w next' := by
  constructor
  · intro passes
    exact ⟨passes.succeeds, fun value w' run => (same value w' run).mp (passes.goesOn value w' run)⟩
  · intro passes
    exact ⟨passes.succeeds, fun value w' run => (same value w' run).mpr (passes.goesOn value w' run)⟩

/-- An early return: the error of the call is the status, and it is too late to return one. -/
theorem leaves_tidy_call {α : Type} {call : DbM α} {wrapped : DbM (Except Status α)}
    {mark : World → World} {next : Except Status α → DbM Status} {v : World}
    (wraps : wrapped v = match call v with
      | (.ok value, v') => (.ok (.ok value), v')
      | (.err status, v') => (.ok (.error status), mark v')
      | (.crash, v') => (.crash, v'))
    (returns : ∀ status, next (.error status) = pure status)
    (untidy : ∀ status v', call v = (.err status, v') → ¬w.Tidy fileName status (mark v')) :
    w.LeavesTidy fileName ((wrapped >>= next) v) ↔
      NoFailure call v fun value v' => w.LeavesTidy fileName (next (.ok value) v') := by
  rw [DbM.bind_apply, wraps]
  rcases run : call v with ⟨value | status | _, v'⟩
  · constructor
    · intro tidy
      refine ⟨fun status v'' failed => ?_, fun value' v'' done => ?_⟩
      · rw [run] at failed
        cases failed
      · rw [run] at done
        cases done
        exact tidy
    · exact fun passes => passes.goesOn value v' run
  · constructor
    · intro tidy
      dsimp only at tidy
      rw [returns] at tidy
      exact absurd (tidy status (mark v') rfl) (untidy status v' run)
    · exact fun passes => absurd run (passes.succeeds status v')
  · constructor
    · intro _
      refine ⟨fun status v'' failed => ?_, fun value' v'' done => ?_⟩
      · rw [run] at failed
        cases failed
      · rw [run] at done
        cases done
    · intro _ status v'' returned
      cases returned

structure NewlyOpened (w : World) (fileName : FileName) (file : FilePtr) (v : World) : Prop where
  real : file ≠ 0
  free : w.files file = none
  files : v.files = Function.update w.files file (some { fileName, openCnt := 1, unixFile := true })
  openFiles : w.openFiles.insert fileName file = some v.openFiles

theorem NewlyOpened.same {v v' : World} (opened : w.NewlyOpened fileName file v)
    (same : SameHandles v v') : w.NewlyOpened fileName file v' := by
  refine ⟨opened.real, opened.free, ?_, ?_⟩
  · rw [same.files]
    exact opened.files
  · rw [same.openFiles]
    exact opened.openFiles

theorem NewlyOpened.untidy {v : World} {status : Status} (opened : w.NewlyOpened fileName file v) :
    ¬w.Tidy fileName status v := by
  intro tidy
  have counts := tidy.openCounts file
  rw [opened.files, opened.free, Function.update_self] at counts
  cases counts

/-- The part of `createHeapFile` that has the file open. -/
def formatHeapFile (fileName : FileName) (file : FilePtr) : DbM Status := do
  match ← callBufMgr (BufMgr.allocPage file) with
  | .error status => pure status
  | .ok (hdrPageNo, hdrFrame) => do
  let hdr ← headerAt hdrFrame
  storeHeader hdrFrame { hdr with fileName := headerName fileName }
  match ← callBufMgr (BufMgr.allocPage file) with
  | .error status => pure status
  | .ok (newPageNo, newFrame) => do
  let page ← pageAt newFrame
  storePage newFrame ((page.init newPageNo).setNextPage (-1))
  let hdr ← headerAt hdrFrame
  storeHeader hdrFrame { hdr with
    recCnt := 0, pageCnt := 1, firstPage := newPageNo, lastPage := newPageNo }
  match ← callBufMgr (BufMgr.unPinPage file newPageNo true) with
  | .error status => pure status
  | .ok () =>
  match ← callBufMgr (BufMgr.unPinPage file hdrPageNo true) with
  | .error status => pure status
  | .ok () =>
  match ← callBufMgr (BufMgr.flushFile file) with
  | .error status => pure status
  | .ok () =>
  match ← DbM.attempt (DB.closeFile file) with
  | .error status => pure status
  | .ok () => pure .OK

theorem create_heap_file_eq (fileName : FileName) :
    createHeapFile fileName = (do
      match ← DbM.attempt (DB.openFile fileName) with
      | .ok _ => pure .FILEEXISTS
      | .error _ =>
      match ← DbM.attempt (DB.createFile fileName) with
      | .error status => pure status
      | .ok () =>
      match ← DbM.attempt (DB.openFile fileName) with
      | .error status => pure status
      | .ok file => formatHeapFile fileName file) := rfl

/-- With all pins given back, the close leaves things as they were. -/
theorem NewlyOpened.close_tidy {v : World} (opened : w.NewlyOpened fileName file v)
    (order : v.PoolInOrder) (pins : SamePins w v) :
    ∃ v', DB.closeFile file v = (.ok (), v') ∧ w.Tidy fileName .OK v' := by
  have live : v.files file = some { fileName, openCnt := 1, unixFile := true } := by
    rw [opened.files, Function.update_self]
  have noStray : ∀ frame, frame < v.bufMgr.numBufs → (v.bufMgr.bufTable frame).valid = false →
      (v.bufMgr.bufTable frame).file ≠ file := by
    intro frame bound invalid here
    rw [(order.orderly.free frame bound invalid).1] at here
    exact opened.real here.symm
  have registered : v.openFiles.find fileName = some file := by
    obtain ⟨buckets, inserted, same⟩ := Option.map_eq_some_iff.mp opened.openFiles
    rw [← same]
    exact (ChainedTable.find_insert inserted fileName).trans (if_pos rfl)
  have closingLive : (v.closing file { fileName, openCnt := 1, unixFile := true }).files file =
      some { fileName, openCnt := 0, unixFile := true } := Function.update_self _ _ _
  have handles := flush_file_handles file
    (v.closing file { fileName, openCnt := 1, unixFile := true })
  have samePins := flush_file_pins file
    (v.closing file { fileName, openCnt := 1, unixFile := true })
  obtain ⟨outcome, v₁, flush, returned⟩ : ∃ outcome v₁, BufMgr.flushFile file
      (v.closing file { fileName, openCnt := 1, unixFile := true }) = (outcome, v₁) ∧
      outcome ≠ .crash := by
    rcases flush_file_outcome closingLive noStray with ⟨_, v₁, run, _⟩ | ⟨_, status, v₁, run, _⟩
    · exact ⟨_, v₁, run, by simp⟩
    · exact ⟨_, v₁, run, by simp⟩
  rw [flush] at handles samePins
  obtain ⟨v', close, pool, _, files, erased⟩ := close_file_run opened.real live rfl registered
    flush returned handles.openFiles
  refine ⟨v', close, ?_, ?_, ?_, fun wrong => absurd rfl wrong⟩
  · rw [OpenFileHashTbl.erase_insert opened.openFiles] at erased
    exact (Option.some.inj erased).symm
  · intro other
    have restored : v'.files = w.files := by
      rw [files, handles.files]
      change Function.update (Function.update v.files file _) file none = w.files
      rw [opened.files, Function.update_idem, Function.update_idem, ← opened.free,
        Function.update_eq_self]
    rw [restored]
  · intro index
    have same := (samePins index).trans (pins index)
    unfold pinCount at same ⊢
    rw [pool]
    exact same

/-- The frame of the header page is pinned once more and that of the data page is too. -/
theorem un_pin_both {w₁ w₂ w₃ w₄ v v' : World} (header data : Int × Nat)
    (first : w.Pins file header.1 header.2 w₁) (second : w₂.Pins file data.1 data.2 w₃)
    (order : w₄.PoolInOrder) (different : header.1 ≠ data.1)
    (stored : w₂.bufMgr.bufTable = w₁.bufMgr.bufTable)
    (table : w₂.bufMgr.hashTable = w₁.bufMgr.hashTable)
    (filled : w₄.bufMgr.bufTable = w₃.bufMgr.bufTable)
    (filledTable : w₄.bufMgr.hashTable = w₃.bufMgr.hashTable)
    (unpinData : BufMgr.unPinPage file data.1 true w₄ = (.ok (), v))
    (unpinHeader : BufMgr.unPinPage file header.1 true v = (.ok (), v')) :
    SamePins w v' ∧ v'.PoolInOrder := by
  obtain ⟨dataFrame, foundData, unpinsData⟩ := order.un_pin_page_unpins unpinData
  obtain ⟨headerFrame, foundHeader, unpinsHeader⟩ :=
    unpinsData.inOrder.un_pin_page_unpins unpinHeader
  have sameData : dataFrame = data.2 := by
    rw [filledTable, second.found] at foundData
    exact (Option.some.inj foundData).symm
  have sameHeader : headerFrame = header.2 := by
    rw [unpinsData.table, filledTable] at foundHeader
    have before := second.table file header.1 headerFrame
      (fun same => different (Prod.mk.inj same).2) foundHeader
    rw [table, first.found] at before
    exact (Option.some.inj before).symm
  subst sameData sameHeader
  refine ⟨?_, unpinsHeader.inOrder⟩
  intro index
  have one := first.counts index
  have two := second.counts index
  have three := unpinsData.counts index
  have four := unpinsHeader.counts index
  unfold pinCount at one two three four ⊢
  rw [stored] at two
  rw [filled] at three
  omega

theorem NewlyOpened.format_tidy_iff {v : World} (opened : w.NewlyOpened fileName file v)
    (order : v.PoolInOrder) (compact : v.Compact file 1) (pins : SamePins w v) :
    w.LeavesTidy fileName (formatHeapFile fileName file v) ↔
      NoFailure (BufMgr.allocPage file) v fun header w₂ =>
      NoFailure (BufMgr.allocPage file) (w₂.headerNamed fileName header.2) fun data w₃ =>
      NoFailure (BufMgr.unPinPage file data.1 true) (w₃.pagesFilled header.2 data) fun _ w₄ =>
      NoFailure (BufMgr.unPinPage file header.1 true) w₄ fun _ w₅ =>
      NoFailure (BufMgr.flushFile file) w₅ fun _ _ => True := by
  -- an error anywhere leaves the file open
  have late : ∀ {α : Type} {call : DbM α} {v' : World}, SameHandles v v' →
      DbM.Moves SameHandles call → ∀ status v'', call v' = (.err status, v'') →
      ¬w.Tidy fileName status { v'' with bufFailed := true } := by
    intro α call v' same moves status v'' failed
    have moved := moves v'
    rw [failed] at moved
    have handles : SameHandles v { v'' with bufFailed := true } :=
      SameHandles.trans _ _ _ same ⟨moved.files, moved.openFiles, moved.brk, moved.malloc⟩
    exact (opened.same handles).untidy
  unfold formatHeapFile
  rw [leaves_tidy_call rfl (fun _ => rfl) (late (SameHandles.refl v) (alloc_page_handles file))]
  apply NoFailure.congr
  rintro ⟨headerNo, headerFrame⟩ w₂ allocHeader
  have headerPins := order.alloc_page_pins allocHeader
  have same₂ := alloc_page_handles file v
  rw [allocHeader] at same₂
  have named : SameHandles v (w₂.headerNamed fileName headerFrame) :=
    SameHandles.trans _ _ _ same₂ ⟨rfl, rfl, rfl, rfl⟩
  obtain ⟨rfl, compact₂⟩ := compact.alloc_page allocHeader
  change w.LeavesTidy fileName ((callBufMgr (BufMgr.allocPage file) >>= _)
    (w₂.headerNamed fileName headerFrame)) ↔ _
  rw [leaves_tidy_call rfl (fun _ => rfl) (late named (alloc_page_handles file))]
  apply NoFailure.congr
  rintro ⟨dataNo, dataFrame⟩ w₃ allocData
  have dataPins : (w₂.headerNamed fileName headerFrame).Pins file dataNo dataFrame w₃ :=
    (headerPins.inOrder.give_image _ _).alloc_page_pins allocData
  have same₃ := alloc_page_handles file (w₂.headerNamed fileName headerFrame)
  rw [allocData] at same₃
  have compactNamed : (w₂.headerNamed fileName headerFrame).Compact file (1 + 1) := ⟨compact₂.header⟩
  obtain ⟨rfl, _⟩ := compactNamed.alloc_page allocData
  have filled : SameHandles v (w₃.pagesFilled headerFrame (1 + 1, dataFrame)) := by
    apply SameHandles.trans _ _ _ (SameHandles.trans _ _ _ named same₃)
    exact ⟨rfl, rfl, rfl, rfl⟩
  have order₄ : (w₃.pagesFilled headerFrame (1 + 1, dataFrame)).PoolInOrder :=
    (dataPins.inOrder.give_image _ _).give_image _ _
  change w.LeavesTidy fileName ((callBufMgr (BufMgr.unPinPage file (1 + 1) true) >>= _)
    (w₃.pagesFilled headerFrame (1 + 1, dataFrame))) ↔ _
  rw [leaves_tidy_call rfl (fun _ => rfl) (late filled (un_pin_page_handles file _ true))]
  apply NoFailure.congr
  intro _ w₄ unpinData
  have same₄ := un_pin_page_handles file (1 + 1) true
    (w₃.pagesFilled headerFrame (1 + 1, dataFrame))
  rw [unpinData] at same₄
  have handles₄ := SameHandles.trans _ _ _ filled same₄
  change w.LeavesTidy fileName ((callBufMgr (BufMgr.unPinPage file 1 true) >>= _) w₄) ↔ _
  rw [leaves_tidy_call rfl (fun _ => rfl) (late handles₄ (un_pin_page_handles file _ true))]
  apply NoFailure.congr
  intro _ w₅ unpinHeader
  have same₅ := un_pin_page_handles file 1 true w₄
  rw [unpinHeader] at same₅
  have handles₅ := SameHandles.trans _ _ _ handles₄ same₅
  obtain ⟨samePins, order₅⟩ := un_pin_both (1, headerFrame) (1 + 1, dataFrame) headerPins
    dataPins order₄ (by simp) rfl rfl rfl rfl unpinData unpinHeader
  change w.LeavesTidy fileName ((callBufMgr (BufMgr.flushFile file) >>= _) w₅) ↔ _
  rw [leaves_tidy_call rfl (fun _ => rfl) (late handles₅ (flush_file_handles file))]
  apply NoFailure.congr
  intro _ w₆ flush
  have same₆ := flush_file_handles file w₅
  have flushPins := flush_file_pins file w₅
  have order₆ := order₅.flush_file file
  rw [flush] at same₆ flushPins order₆
  have opened₆ := opened.same (SameHandles.trans _ _ _ handles₅ same₆)
  obtain ⟨w₇, close, tidy⟩ := opened₆.close_tidy order₆
    (SamePins.trans _ _ _ pins (SamePins.trans _ _ _ samePins flushPins))
  refine iff_of_true ?_ trivial
  intro status w' returned
  change (DbM.attempt (DB.closeFile file) >>= _) w₆ = _ at returned
  rw [DbM.bind_ok (attempt_ok close)] at returned
  cases returned
  exact tidy

def newContents : UnixFile :=
  UnixFile.writeAt { size := 0, page := fun _ => PageImage.zero } 0 File.emptyHeader

theorem create_eq (w : World) (fileName : FileName) :
    File.create fileName w =
      if w.faults 0 = true then (.err .UNIXERR, w.tick)
      else if w.disk fileName ≠ none then (.err .FILEEXISTS, w.tick)
      else if w.faults 1 = true then
        (.err .UNIXERR, (w.setDisk fileName
          (some { size := 0, page := fun _ => PageImage.zero })).tick.tick)
      else if w.faults 2 = true then
        (.err .UNIXERR, (w.setDisk fileName (some newContents)).tick.tick.tick)
      else (.ok (), (w.setDisk fileName (some newContents)).tick.tick.tick) := by
  have disk : w.tick.disk fileName = w.disk fileName := rfl
  have twice : ∀ contents, (w.tick.setDisk fileName contents).faults 0 = w.faults 1 :=
    fun _ => rfl
  have thrice : ∀ first second, ((w.tick.setDisk fileName first).tick.setDisk fileName
      second).faults 0 = w.faults 2 := fun _ _ => rfl
  cases first : w.faults 0 <;> cases stored : w.disk fileName <;> cases second : w.faults 1 <;>
    cases third : w.faults 2 <;>
    simp [File.create, DbM.bind_apply, DbM.systemCall, DbM.fail, DbM.read, DbM.modify, first, disk,
      stored, twice, thrice, second, third, newContents] <;> simp [setDisk, tick]
  rfl

theorem create_file_unopened (nonempty : fileName ≠ [])
    (unopened : w.openFiles.find fileName = none) :
    DB.createFile fileName w = File.create fileName w := by
  unfold DB.createFile
  rw [if_neg nonempty, DbM.read_bind, unopened]

theorem create_file_refused (refused : ¬w.MakesFile fileName) :
    ∃ status w', DB.createFile fileName w = (.err status, w') ∧ status ≠ .OK ∧
      SameMemory w w' ∧ w'.disk = w.disk := by
  by_cases nonempty : fileName = []
  · refine ⟨.BADFILE, w, ?_, by simp, SameMemory.refl w, rfl⟩
    unfold DB.createFile
    rw [if_pos nonempty]
    rfl
  cases found : w.openFiles.find fileName with
  | some file =>
      refine ⟨.FILEEXISTS, w, ?_, by simp, SameMemory.refl w, rfl⟩
      unfold DB.createFile
      rw [if_neg nonempty, DbM.read_bind, found]
      rfl
  | none =>
      rw [create_file_unopened nonempty found, create_eq]
      split_ifs with fault stored
      · exact ⟨_, w.tick, rfl, by simp, ⟨rfl, rfl, rfl, rfl, rfl, rfl, rfl⟩, rfl⟩
      · exact ⟨_, w.tick, rfl, by simp, ⟨rfl, rfl, rfl, rfl, rfl, rfl, rfl⟩, rfl⟩
      all_goals
        have makes : w.MakesFile fileName :=
          ⟨nonempty, found, by simpa using stored, by simpa using fault⟩
        exact absurd makes refused

theorem MakesFile.create_file_fails (makes : w.MakesFile fileName)
    (fault : w.faults 1 = true ∨ w.faults 2 = true) :
    ∃ status w', DB.createFile fileName w = (.err status, w') ∧ status ≠ .OK ∧
      w'.disk fileName ≠ none := by
  rw [create_file_unopened makes.nonempty makes.unopened, create_eq, makes.calm]
  rw [if_neg (by simp), if_neg (by simpa using makes.absent)]
  split_ifs with written closed
  · exact ⟨_, _, rfl, by simp, by simp [setDisk, tick]⟩
  · exact ⟨_, _, rfl, by simp, by simp [setDisk, tick]⟩
  · exact absurd fault (by simp [written, closed])

theorem MakesFile.create_file_ok (makes : w.MakesFile fileName) (written : w.faults 1 = false)
    (closed : w.faults 2 = false) :
    ∃ w', DB.createFile fileName w = (.ok (), w') ∧ SameMemory w w' ∧
      w'.disk fileName = some newContents := by
  rw [create_file_unopened makes.nonempty makes.unopened, create_eq, makes.calm, written, closed]
  rw [if_neg (by simp), if_neg (by simpa using makes.absent), if_neg (by simp), if_neg (by simp)]
  exact ⟨_, rfl, ⟨rfl, rfl, rfl, rfl, rfl, rfl, rfl⟩, by simp [setDisk, tick]⟩

theorem newly_opened (above : w.Unallocated) (nonempty : fileName ≠ [])
    (absent : w.openFiles.find fileName = none) (stored : w.disk fileName = some newContents)
    (run : DB.openFile fileName w = (.ok file, w')) :
    w.NewlyOpened fileName file w' ∧ w'.Compact file 1 := by
  obtain ⟨table, inserted⟩ := open_files_insert absent
  rw [open_file_first nonempty absent, inserted] at run
  split_ifs at run
  · cases run
  · cases run
    refine ⟨⟨above.new_address_ne, above.new_address, rfl, inserted⟩, newContents, ?_, ?_, rfl,
      rfl⟩
    · simp [unixFile, withObject, setFile, tick, stored]
    · simp [newContents, UnixFile.writeAt]

/-- The part of `createHeapFile` after the file could not be opened. -/
def makeHeapFile (fileName : FileName) : DbM Status := do
  match ← DbM.attempt (DB.createFile fileName) with
  | .error status => pure status
  | .ok () =>
  match ← DbM.attempt (DB.openFile fileName) with
  | .error status => pure status
  | .ok file => formatHeapFile fileName file

/-- The file is there, and every error from now on leaves it there. -/
theorem MakesFile.later_tidy_iff {v : World} (makes : w.MakesFile fileName)
    (order : w.PoolInOrder) (above : w.Unallocated) (same : SameMemory w v)
    (stored : v.disk fileName = some newContents)
    (created : DB.createFile fileName w = (.ok (), v)) :
    w.LeavesTidy fileName (makeHeapFile fileName w) ↔ v.LaterCallsSucceed fileName := by
  have above' : v.Unallocated := by
    refine ⟨?_, ?_⟩
    · intro address beyond
      rw [same.brk] at beyond
      rw [same.files]
      exact above.free address beyond
    · rw [same.brk]
      exact above.notNull
  have absent : v.openFiles.find fileName = none := by
    rw [same.openFiles]
    exact makes.unopened
  unfold makeHeapFile
  rw [DbM.bind_ok (attempt_ok created)]
  change w.LeavesTidy fileName ((DbM.attempt (DB.openFile fileName) >>= _) v) ↔ _
  rw [leaves_tidy_call rfl (fun _ => rfl)]
  · apply NoFailure.congr
    intro file v' run
    obtain ⟨opened, compact⟩ := newly_opened above' makes.nonempty absent stored run
    have opens := open_file_ok above' run
    have base : w.NewlyOpened fileName file v' := by
      refine ⟨opened.real, ?_, ?_, ?_⟩
      · rw [← same.files]
        exact opened.free
      · rw [← same.files]
        exact opened.files
      · rw [← same.openFiles]
        exact opened.openFiles
    apply base.format_tidy_iff (opens.in_order (order.quiet same)) compact
    intro index
    unfold pinCount
    rw [opens.pool, same.bufMgr]
  · intro status v' failed tidy
    obtain ⟨bad, _, _, _, disk, _⟩ := open_file_err above' failed
    have gone := tidy.disk bad makes.absent
    change v'.disk fileName = none at gone
    rw [disk, stored] at gone
    cases gone

theorem make_heap_file_tidy_iff (order : w.PoolInOrder) (above : w.Unallocated)
    (fileName : FileName) :
    w.LeavesTidy fileName (makeHeapFile fileName w) ↔ (w.MakesFile fileName →
      w.faults 1 = false ∧ w.faults 2 = false ∧
        ∀ w', DB.createFile fileName w = (.ok (), w') → w'.LaterCallsSucceed fileName) := by
  by_cases makes : w.MakesFile fileName
  · by_cases fault : w.faults 1 = true ∨ w.faults 2 = true
    · obtain ⟨status, w', failed, bad, made⟩ := makes.create_file_fails fault
      have returned : makeHeapFile fileName w = (.ok status, w') := by
        unfold makeHeapFile
        rw [DbM.bind_ok (attempt_err failed)]
        rfl
      constructor
      · intro tidy
        exact absurd ((tidy status w' returned).disk bad makes.absent) made
      · intro calm
        obtain ⟨written, closed, _⟩ := calm makes
        rcases fault with fault | fault
        · rw [written] at fault
          cases fault
        · rw [closed] at fault
          cases fault
    · have written : w.faults 1 = false := by
        simpa using fun fails => fault (.inl fails)
      have closed : w.faults 2 = false := by
        simpa using fun fails => fault (.inr fails)
      obtain ⟨w', created, same, stored⟩ := makes.create_file_ok written closed
      rw [makes.later_tidy_iff order above same stored created]
      constructor
      · intro later _
        refine ⟨written, closed, ?_⟩
        intro w'' created'
        rw [created] at created'
        cases created'
        exact later
      · intro calm
        exact (calm makes).2.2 w' created
  · obtain ⟨status, w', failed, _, same, disk⟩ := create_file_refused makes
    have returned : makeHeapFile fileName w = (.ok status, w') := by
      unfold makeHeapFile
      rw [DbM.bind_ok (attempt_err failed)]
      rfl
    refine ⟨fun _ made => absurd made makes, fun _ => ?_⟩
    intro status' w'' run
    rw [returned] at run
    cases run
    refine ⟨same.openFiles, ?_, same.same_pins, ?_⟩
    · intro file
      rw [same.files]
    · intro _ absent
      rw [disk]
      exact absent

/-- `createHeapFile` leaves things as they were if and only if the file cannot be opened and,
once it has been made, nothing fails any more. -/
theorem cleans_up_iff_may_create (order : w.PoolInOrder) (above : w.Unallocated)
    (fileName : FileName) : w.CleansUp fileName ↔ w.MayCreate fileName := by
  unfold CleansUp
  rw [create_heap_file_eq]
  rcases run : DB.openFile fileName w with ⟨file | status | _, w₁⟩
  · rw [DbM.bind_ok (attempt_ok run)]
    constructor
    · intro tidy
      have counts := (tidy .FILEEXISTS w₁ rfl).openCounts file
      exact absurd counts (open_file_ok above run).counted
    · exact fun may => absurd run (may.closed file w₁)
  · obtain ⟨_, files, openFiles, pool, disk, above₁⟩ := open_file_err above run
    have order₁ : w₁.PoolInOrder := by
      refine ⟨?_, ?_⟩
      · rw [pool]
        exact order.orderly
      · rw [files]
        exact order.null
    have base : ∀ result, w.LeavesTidy fileName result ↔ w₁.LeavesTidy fileName result := by
      intro result
      constructor
      · exact fun tidy status' w' returned =>
          (tidy status' w' returned).rebase files openFiles pool disk
      · exact fun tidy status' w' returned =>
          (tidy status' w' returned).rebase files.symm openFiles.symm pool.symm disk.symm
    rw [DbM.bind_ok (attempt_err run), base]
    change w₁.LeavesTidy fileName (makeHeapFile fileName w₁) ↔ _
    rw [make_heap_file_tidy_iff order₁ above₁]
    constructor
    · intro calm
      refine ⟨?_, ?_⟩
      · intro file w₂ opened
        rw [run] at opened
        cases opened
      · intro status' w₂ failed
        rw [run] at failed
        cases failed
        exact calm
    · exact fun may => may.built status w₁ run
  · constructor
    · intro _
      refine ⟨?_, ?_⟩
      · intro file w₂ opened
        rw [run] at opened
        cases opened
      · intro status' w₂ failed
        rw [run] at failed
        cases failed
    · intro _ status' w' returned
      rw [DbM.bind_apply, DbM.attempt, run] at returned
      cases returned

def emptyDirectory : World :=
  { BufMgr.onePageWorld with
    disk := fun _ => none
    files := fun _ => none
    brk := 1
    bufMgr := BufMgr.new 2 }

theorem cleans_up_in_empty_directory : emptyDirectory.CleansUp [102] := by
  apply (cleans_up_iff_may_create ⟨BufMgr.new_orderly 2 (by decide), rfl⟩
    ⟨fun _ _ => rfl, Nat.one_pos⟩ [102]).mpr
  refine ⟨?_, ?_⟩
  · intro file w₁ opened
    have refused : (DB.openFile [102] emptyDirectory).1 = .err .UNIXERR := by decide
    rw [opened] at refused
    cases refused
  · intro status w₁ failed _
    have world : w₁ = (DB.openFile [102] emptyDirectory).2 := by rw [failed]
    subst world
    refine ⟨rfl, rfl, ?_⟩
    intro w₂ created
    have world : w₂ = (DB.createFile [102] (DB.openFile [102] emptyDirectory).2).2 := by
      rw [created]
    subst world
    apply NoFailure.of_ok 2 (by decide)
    apply NoFailure.of_ok (1, 0) (by decide)
    apply NoFailure.of_ok (2, 1) (by decide)
    apply NoFailure.of_ok () (by decide)
    apply NoFailure.of_ok () (by decide)
    exact NoFailure.of_ok () (by decide) trivial

/-- The file exists: it is reported, and it stays open. -/
theorem existing_file_stays_open : ¬(HeapFile.storedHeap 2).CleansUp [102] := by
  intro cleans
  have returned : (createHeapFile [102] (HeapFile.storedHeap 2)).1 = .ok .FILEEXISTS := by decide
  have counts := (cleans .FILEEXISTS _ (Prod.ext returned rfl)).openCounts 1
  revert counts
  decide

end World

end PrimitiveDB

import PrimitiveDB.DatabaseFiles

/-!
# Files as their clients see them

`World.logical` forgets where the pages of a file are: it is the map from file
names to numbered pages that the heap files are built on. `World.Storage w pins
opens` is the invariant of the layers below: a healthy pool, an open-file table
in step with the `File` objects, and one open count for each handle in `opens`.
-/

namespace PrimitiveDB

open World BufMgr

set_option autoImplicit false

/-- A file: its pages are numbered from 1 to `size - 1`. -/
structure LogicalFile where
  size : Nat
  firstPage : Int
  page : Int → PageImage

namespace LogicalFile

def Inside (file : LogicalFile) (pageNo : Int) : Prop := 1 ≤ pageNo ∧ pageNo < file.size

instance (file : LogicalFile) (pageNo : Int) : Decidable (file.Inside pageNo) :=
  inferInstanceAs (Decidable (_ ∧ _))

def write (file : LogicalFile) (pageNo : Int) (image : PageImage) : LogicalFile :=
  { file with page := Function.update file.page pageNo image }

def extend (file : LogicalFile) (image : PageImage) : LogicalFile :=
  { size := file.size + 1
    firstPage := if file.firstPage = -1 then file.size else file.firstPage
    page := Function.update file.page file.size image }

def empty : LogicalFile := { size := 1, firstPage := -1, page := fun _ => PageImage.zero }

section Fields

variable (file : LogicalFile) (pageNo other : Int) (image : PageImage)

@[simp] theorem write_size : (file.write pageNo image).size = file.size := rfl

@[simp] theorem write_first_page : (file.write pageNo image).firstPage = file.firstPage := rfl

@[simp] theorem write_same : (file.write pageNo image).page pageNo = image := by
  simp [write]

theorem write_other {other : Int} (different : other ≠ pageNo) :
    (file.write pageNo image).page other = file.page other := by
  simp [write, different]

@[simp] theorem inside_write : (file.write pageNo image).Inside other ↔ file.Inside other :=
  Iff.rfl

@[simp] theorem extend_size : (file.extend image).size = file.size + 1 := rfl

@[simp] theorem extend_new : (file.extend image).page file.size = image := by
  simp [extend]

theorem extend_old {other : Int} (inside : file.Inside other) :
    (file.extend image).page other = file.page other := by
  have different : other ≠ file.size := ne_of_lt inside.2
  simp [extend, different]

end Fields

def header (file : LogicalFile) (pageNo : Int) : FileHdrPage := (file.page pageNo).asFileHdr

def data (file : LogicalFile) (pageNo : Int) : Page := (file.page pageNo).asPage

def setData (file : LogicalFile) (pageNo : Int) (page : Page) : LogicalFile :=
  file.write pageNo (.data page)

def updateHeader (file : LogicalFile) (pageNo : Int) (change : FileHdrPage → FileHdrPage) :
    LogicalFile :=
  file.write pageNo ((file.page pageNo).setFileHdr (change (file.header pageNo)))

def addRecords (file : LogicalFile) (headerNo : Int) (delta : Int) : LogicalFile :=
  file.updateHeader headerNo fun hdr => { hdr with recCnt := hdr.recCnt + delta }

def freshPage (file : LogicalFile) (image : PageImage) : LogicalFile :=
  (file.extend image).setData file.size ((image.asPage.init file.size).setNextPage (-1))

/-- A new data page is linked behind page `curNo`. -/
def appendPage (file : LogicalFile) (headerNo curNo : Int) (image : PageImage) : LogicalFile :=
  let counted := (file.freshPage image).updateHeader headerNo fun hdr =>
    { hdr with lastPage := file.size, pageCnt := hdr.pageCnt + 1 }
  counted.setData curNo ((counted.data curNo).setNextPage file.size)

theorem append_page_size (file : LogicalFile) (headerNo curNo : Int) (image : PageImage) :
    (file.appendPage headerNo curNo image).size = file.size + 1 := rfl

theorem append_page_new {file : LogicalFile} {headerNo curNo : Int} (image : PageImage)
    (header : file.Inside headerNo) (cur : file.Inside curNo) :
    (file.appendPage headerNo curNo image).data file.size =
      (image.asPage.init file.size).setNextPage (-1) := by
  have notHeader : (file.size : Int) ≠ headerNo := ne_of_gt header.2
  have notCur : (file.size : Int) ≠ curNo := ne_of_gt cur.2
  simp only [appendPage, freshPage, setData, updateHeader, data]
  rw [write_other _ _ _ notCur, write_other _ _ _ notHeader, write_same]
  rfl

/-- `insertRecord` with current page `curNo`: the result, the file and the
current page afterwards. -/
def insertRecord (file : LogicalFile) (headerNo curNo : Int) (image : PageImage) (rec : Record) :
    Except Status RID × LogicalFile × Int :=
  match (file.data curNo).insertRecord rec with
  | (.ok rid, after) => (.ok rid, (file.setData curNo after).addRecords headerNo 1, curNo)
  | (.error _, _) =>
      let grown := file.appendPage headerNo curNo image
      match (grown.data file.size).insertRecord rec with
      | (.ok rid, after) =>
          (.ok rid, (grown.setData file.size after).addRecords headerNo 1, file.size)
      | (.error status, _) => (.error status, grown, file.size)

/-- `deleteRecord` with current page `curNo` and current record `rid`. -/
def deleteRecord (file : LogicalFile) (headerNo curNo : Int) (rid : RID) :
    Status × LogicalFile :=
  let result := (file.data curNo).deleteRecord rid
  let removed := if result.1 = .OK then file.setData curNo result.2 else file
  (result.1, removed.addRecords headerNo (-1))

end LogicalFile

namespace World

def nameOf (w : World) (file : FilePtr) : Option FileName := (w.files file).map File.fileName

def filePage (w : World) (fileName : FileName) (pageNo : Int) : PageImage :=
  match w.openFiles.find fileName with
  | some file => w.view file pageNo
  | none =>
      match w.disk fileName with
      | some contents => contents.page pageNo.toNat
      | none => PageImage.zero

def logical (w : World) (fileName : FileName) : Option LogicalFile :=
  (w.disk fileName).map fun contents =>
    { size := contents.size
      firstPage := (contents.page 0).asDBPage.firstPage
      page := fun pageNo =>
        if 1 ≤ pageNo ∧ pageNo < contents.size then w.filePage fileName pageNo
        else PageImage.zero }

/-- The open-file table, the `File` objects and the disk fit together. -/
structure Filed (w : World) : Prop where
  stored : ∀ fileName contents, w.disk fileName = some contents → contents.FreeList []
  opened : ∀ file object, w.files file = some object → object.unixFile = true
  present : ∀ file object, w.files file = some object →
    ∃ contents, w.disk object.fileName = some contents
  table : ∀ fileName file, w.openFiles.find fileName = some file ↔
    ∃ object, w.files file = some object ∧ object.fileName = fileName
  distinct : ChainedTable.DistinctKeys w.openFiles.ht
  null : w.files 0 = none
  brk : 0 < w.brk
  above : ∀ file, w.brk ≤ file → w.files file = none

/-- What the heap-file layer gave to a page is what the page holds. -/
def Kept (w : World) : Prop :=
  ∀ fileName pageNo image, w.given fileName pageNo = some image →
    ∃ lf, w.logical fileName = some lf ∧ lf.Inside pageNo ∧ lf.page pageNo = image

structure Storage (w : World) (pins : List Pin) (opens : List FilePtr) : Prop
    extends Healthy w pins, Filed w where
  kept : w.Kept
  counted : ∀ file object, w.files file = some object → object.openCnt = opens.count file
  live : ∀ file, file ∈ opens ↔ ∃ object, w.files file = some object

variable {w w' : World} {pins pins' : List Pin} {opens : List FilePtr} {file : FilePtr}
  {fileName : FileName} {pageNo : Int} {frame : Nat} {contents : UnixFile} {lf : LogicalFile}

theorem Filed.unix_file (filed : w.Filed) {object : File} (live : w.files file = some object) :
    ∃ contents, w.disk object.fileName = some contents ∧ w.unixFile file = some contents := by
  obtain ⟨contents, stored⟩ := filed.present file object live
  exact ⟨contents, stored, by simp [World.unixFile, live, filed.opened file object live, stored]⟩

theorem Filed.allocated_iff (filed : w.Filed) (stored : w.disk fileName = some contents)
    (pageNo : Int) : contents.Allocated pageNo ↔ 1 ≤ pageNo ∧ pageNo < contents.size := by
  rw [(filed.stored fileName contents stored).allocated_iff]
  simp

theorem logical_eq_some (stored : w.disk fileName = some contents) :
    w.logical fileName = some
      { size := contents.size
        firstPage := (contents.page 0).asDBPage.firstPage
        page := fun pageNo =>
          if 1 ≤ pageNo ∧ pageNo < contents.size then w.filePage fileName pageNo
          else PageImage.zero } := by
  simp [logical, stored]

theorem Storage.logical_of_handle (storage : w.Storage pins opens) (member : file ∈ opens) :
    ∃ fileName lf, w.nameOf file = some fileName ∧ w.logical fileName = some lf := by
  obtain ⟨object, live⟩ := (storage.live file).mp member
  obtain ⟨contents, stored⟩ := storage.present file object live
  exact ⟨object.fileName, _, by simp [nameOf, live], logical_eq_some stored⟩

theorem Filed.handle_spec (filed : w.Filed)
    (named : w.nameOf file = some fileName) (logical : w.logical fileName = some lf) :
    ∃ object contents, w.files file = some object ∧ object.fileName = fileName ∧
      object.unixFile = true ∧ w.disk fileName = some contents ∧
      w.unixFile file = some contents ∧ w.openFiles.find fileName = some file ∧
      lf.size = contents.size ∧ lf.firstPage = (contents.page 0).asDBPage.firstPage ∧
      ∀ pageNo, lf.Inside pageNo → lf.page pageNo = w.view file pageNo := by
  simp only [nameOf, Option.map_eq_some_iff] at named
  obtain ⟨object, live, rfl⟩ := named
  have openFd := filed.opened file object live
  obtain ⟨contents, stored, opened⟩ := filed.unix_file live
  have found := (filed.table object.fileName file).mpr ⟨object, live, rfl⟩
  rw [logical_eq_some stored] at logical
  obtain rfl := Option.some.inj logical
  refine ⟨object, contents, live, rfl, openFd, stored, opened, found, rfl, rfl, ?_⟩
  intro pageNo inside
  simp only [LogicalFile.Inside] at inside
  simp [inside, filePage, found]

theorem Filed.has_page_iff (filed : w.Filed)
    (named : w.nameOf file = some fileName) (logical : w.logical fileName = some lf) :
    w.HasPage file pageNo ↔ lf.Inside pageNo := by
  obtain ⟨object, contents, _, _, _, stored, opened, _, size, _, _⟩ :=
    filed.handle_spec named logical
  simp only [HasPage, opened, Option.some.injEq, exists_eq_left',
    filed.allocated_iff stored, LogicalFile.Inside, size]

theorem Storage.page_of_pin (storage : w.Storage pins opens) {pin : Pin} (member : pin ∈ pins)
    (named : w.nameOf pin.file = some fileName) (logical : w.logical fileName = some lf) :
    lf.Inside pin.pageNo ∧ w.bufMgr.bufPool pin.frame = lf.page pin.pageNo := by
  have page := storage.toHealthy.has_page_of_pin member
  have inside := (storage.has_page_iff named logical).mp page
  obtain ⟨_, _, _, _, _, _, _, _, _, _, pages⟩ := storage.handle_spec named logical
  refine ⟨inside, ?_⟩
  rw [pages _ inside, storage.toHealthy.view_of_pin member]

theorem Storage.pin_open (storage : w.Storage pins opens) {pin : Pin} (member : pin ∈ pins) :
    pin.file ∈ opens := by
  obtain ⟨contents, opened, _⟩ := storage.toHealthy.has_page_of_pin member
  obtain ⟨object, live, _⟩ := unix_file_live opened
  exact (storage.live _).mpr ⟨object, live⟩

/-- The same handles, open counts and logical files. -/
structure SameLogical (before after : World) : Prop where
  files : after.files = before.files
  logical : after.logical = before.logical
  openFiles : after.openFiles = before.openFiles
  given : after.given = before.given
  numBufs : after.bufMgr.numBufs = before.bufMgr.numBufs

theorem SameLogical.refl (w : World) : SameLogical w w := ⟨rfl, rfl, rfl, rfl, rfl⟩

theorem SameLogical.trans {first second third : World} (left : SameLogical first second)
    (right : SameLogical second third) : SameLogical first third :=
  ⟨right.files.trans left.files, right.logical.trans left.logical,
    right.openFiles.trans left.openFiles, right.given.trans left.given,
    right.numBufs.trans left.numBufs⟩

theorem SameLogical.nameOf (same : SameLogical w w') (file : FilePtr) :
    w'.nameOf file = w.nameOf file := by
  simp only [World.nameOf, same.files]

theorem Filed.steady (filed : w.Filed) (steady : Steady w w') : w'.Filed where
  stored := by
    intro fileName contents' stored'
    cases stored : w.disk fileName with
    | none =>
        rw [steady.absent fileName stored] at stored'
        cases stored'
    | some contents =>
        obtain ⟨contents'', stored'', alike⟩ := steady.stored fileName contents stored
        rw [stored'] at stored''
        obtain rfl := Option.some.inj stored''
        exact alike.free_list (filed.stored fileName contents stored)
  opened := by
    rw [steady.files]
    exact filed.opened
  present := by
    rw [steady.files]
    intro file object live
    obtain ⟨contents, stored⟩ := filed.present file object live
    obtain ⟨contents', stored', _⟩ := steady.stored _ contents stored
    exact ⟨contents', stored'⟩
  table := by
    rw [steady.files, steady.openFiles]
    exact filed.table
  distinct := by
    rw [steady.openFiles]
    exact filed.distinct
  null := by rw [steady.files, filed.null]
  brk := by rw [steady.brk]; exact filed.brk
  above := by
    rw [steady.files, steady.brk]
    exact filed.above

theorem Filed.logical_at (filed : w.Filed) (steady : Steady w w')
    (fileName : FileName)
    (same : ∀ file, w.nameOf file = some fileName → ∀ pageNo, w.HasPage file pageNo →
      w'.view file pageNo = w.view file pageNo) :
    w'.logical fileName = w.logical fileName := by
  cases stored : w.disk fileName with
  | none => simp [logical, stored, steady.absent fileName stored]
  | some contents =>
      obtain ⟨contents', stored', alike⟩ := steady.stored fileName contents stored
      have list := filed.stored fileName contents stored
      have headed := list.header
      rw [logical_eq_some stored, logical_eq_some stored', alike.size]
      have header := alike.kept 0 (by omega) (by rw [list.allocated_iff]; omega)
      simp only [Int.toNat_zero] at header
      rw [header]
      congr 2
      funext pageNo
      split_ifs with inside
      · simp only [filePage, steady.openFiles]
        cases found : w.openFiles.find fileName with
        | none =>
            -- a closed file is not touched at all
            have untouched := steady.closed fileName (by
              intro file object live _ named
              rw [(filed.table fileName file).mpr ⟨object, live, named⟩] at found
              cases found)
            simp only [untouched]
        | some file =>
            obtain ⟨object, live, rfl⟩ := (filed.table fileName file).mp found
            have openFd := filed.opened file object live
            refine same file (by simp [nameOf, live]) pageNo
              ⟨contents, ?_, (filed.allocated_iff stored pageNo).mpr inside⟩
            simp [World.unixFile, live, openFd, stored]
      · rfl

theorem Filed.same_logical (filed : w.Filed) (steady : Steady w w')
    (same : SameView w w') : SameLogical w w' :=
  ⟨steady.files, funext fun fileName => filed.logical_at steady fileName
    (fun file _ pageNo => same file pageNo), steady.openFiles, steady.given, steady.numBufs⟩

theorem Kept.congr (kept : w.Kept) (logical : w'.logical = w.logical)
    (given : w'.given = w.given) : w'.Kept := by
  unfold Kept
  rw [logical, given]
  exact kept

theorem Storage.steady (storage : w.Storage pins opens) (healthy : w'.Healthy pins')
    (steady : Steady w w') (kept : w'.Kept) : w'.Storage pins' opens where
  toHealthy := healthy
  toFiled := storage.toFiled.steady steady
  kept := kept
  counted := by
    rw [steady.files]
    exact storage.counted
  live := by
    rw [steady.files]
    exact storage.live

theorem Storage.unseen (storage : w.Storage pins opens) (healthy : w'.Healthy pins')
    (steady : Steady w w') (same : SameView w w') :
    w'.Storage pins' opens ∧ SameLogical w w' := by
  have logical := storage.toFiled.same_logical steady same
  exact ⟨storage.steady healthy steady (storage.kept.congr logical.logical logical.given), logical⟩

theorem Storage.perm (storage : w.Storage pins opens) (perm : pins.Perm pins') :
    w.Storage pins' opens :=
  storage.steady (storage.toHealthy.perm perm) (.refl w) storage.kept

theorem Storage.flag (storage : w.Storage pins opens) (failed : Bool) :
    ({ w with bufFailed := failed } : World).Storage pins opens where
  reliable := storage.reliable
  files := ⟨storage.files.apart, storage.files.formed⟩
  held := storage.held
  pinned := storage.pinned
  held_by := storage.held_by
  clean := storage.clean
  residency := storage.residency
  stored := storage.stored
  opened := storage.opened
  present := storage.present
  table := storage.table
  distinct := storage.distinct
  null := storage.null
  brk := storage.brk
  above := storage.above
  kept := storage.kept
  counted := storage.counted
  live := storage.live

end World

end PrimitiveDB

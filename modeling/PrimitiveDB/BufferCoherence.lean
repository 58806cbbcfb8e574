import PrimitiveDB.BufferPoolFailures
import PrimitiveDB.FilePages

/-!
# Pool and disk together

`World.view` is the page a client sees: the frame that holds it, else the disk.
`World.Healthy w pins` says that the pool, the open files and the pins that the
clients hold fit together: in particular a frame that is clean, and that nobody
has changed since, agrees with the disk. Every buffer-manager call keeps a
healthy world healthy, and none of them changes what the clients see.
-/

namespace PrimitiveDB

open BufMgr

set_option autoImplicit false

/-- One pin that a client holds. `owed` is set once the client has changed the
page and must report it when it unpins. -/
structure Pin where
  file : FilePtr
  pageNo : Int
  frame : Nat
  owed : Bool
  deriving DecidableEq

def pinsOn (pins : List Pin) (frame : Nat) : Nat := pins.countP fun pin => pin.frame = frame

def Settled (pins : List Pin) (frame : Nat) : Prop :=
  ∀ pin ∈ pins, pin.frame = frame → pin.owed = false

theorem settled_of_no_pins {pins : List Pin} {frame : Nat} (none_ : pinsOn pins frame = 0) :
    Settled pins frame := by
  intro pin member here
  have absent := List.countP_eq_zero.mp none_ pin member
  simp [here] at absent

theorem pins_on_cons (pin : Pin) (pins : List Pin) (frame : Nat) :
    pinsOn (pin :: pins) frame = pinsOn pins frame + if pin.frame = frame then 1 else 0 := by
  simp [pinsOn, List.countP_cons]

namespace World

def HasPage (w : World) (file : FilePtr) (pageNo : Int) : Prop :=
  ∃ contents, w.unixFile file = some contents ∧ contents.Allocated pageNo

def diskPage (w : World) (file : FilePtr) (pageNo : Int) : PageImage :=
  match w.unixFile file with
  | some contents => contents.page pageNo.toNat
  | none => PageImage.zero

def view (w : World) (file : FilePtr) (pageNo : Int) : PageImage :=
  match w.bufMgr.hashTable.lookup file pageNo with
  | some frame => w.bufMgr.bufPool frame
  | none => w.diskPage file pageNo

/-- The open files: one `File` object for each name, with its allocator intact. -/
structure FilesSound (w : World) : Prop where
  apart : ∀ first second left right, w.files first = some left → w.files second = some right →
    left.unixFile = true → right.unixFile = true → left.fileName = right.fileName →
    first = second
  formed : ∀ file contents, w.unixFile file = some contents →
    ∃ free, contents.FreeList free

/-- What holds in any case, whichever frames are taken to be in use. -/
structure Sound (w : World) (pins : List Pin) (inUse : Nat → Prop) : Prop where
  reliable : w.Reliable
  files : w.FilesSound
  held : ∀ frame file pageNo, inUse frame → w.bufMgr.Holds frame file pageNo →
    w.HasPage file pageNo
  pinned : ∀ frame, frame < w.bufMgr.numBufs →
    (w.bufMgr.bufTable frame).pinCnt = pinsOn pins frame
  held_by : ∀ pin ∈ pins, w.bufMgr.Holds pin.frame pin.file pin.pageNo ∧ inUse pin.frame
  clean : ∀ frame file pageNo, inUse frame → w.bufMgr.Holds frame file pageNo →
    (w.bufMgr.bufTable frame).dirty = false → Settled pins frame →
    w.bufMgr.bufPool frame = w.diskPage file pageNo

structure Healthy (w : World) (pins : List Pin) : Prop
    extends Sound w pins (fun _ => True) where
  residency : w.bufMgr.Residency

/-- Between the choice of a frame by `allocBuf` and its `Set`. -/
structure Vacated (w : World) (pins : List Pin) (frame : Nat) : Prop
    extends Sound w pins (fun other => other ≠ frame) where
  residency : ResidencyApart w.bufMgr frame

end World

/-- Two states of one Unix file that differ in allocated pages only. -/
structure UnixFile.Alike (before after : UnixFile) : Prop where
  size : after.size = before.size
  allocated : ∀ pageNo, after.Allocated pageNo ↔ before.Allocated pageNo
  kept : ∀ pageNo : Int, pageNo < before.size → ¬before.Allocated pageNo →
    after.page pageNo.toNat = before.page pageNo.toNat

namespace UnixFile

theorem Alike.refl (contents : UnixFile) : Alike contents contents :=
  ⟨rfl, fun _ => Iff.rfl, fun _ _ _ => rfl⟩

theorem Alike.trans {first second third : UnixFile} (left : Alike first second)
    (right : Alike second third) : Alike first third := by
  refine ⟨right.size.trans left.size, fun pageNo => ?_, ?_⟩
  · rw [right.allocated, left.allocated]
  · intro pageNo inside outside
    rw [right.kept pageNo (by rwa [left.size]) (by rwa [left.allocated]),
      left.kept pageNo inside outside]

theorem Alike.free_list {before after : UnixFile} {free : List Int} (alike : Alike before after)
    (list : before.FreeList free) : after.FreeList free := by
  have headed := list.header
  refine list.congr alike.size ?_ ?_
  · have header := alike.kept 0 (by omega) (by rw [list.allocated_iff]; omega)
    simpa using header
  · intro pageNo member
    have inside := free_chain_inside before _ free list.chain pageNo member
    exact alike.kept pageNo inside.2 (by rw [list.allocated_iff]; simp [member])

theorem alike_write {contents : UnixFile} {pageNo : Int} (allocated : contents.Allocated pageNo)
    (image : PageImage) : Alike contents (contents.writeAt pageNo.toNat image) := by
  obtain ⟨lower, upper, free, list, outside⟩ := allocated
  have allocated : contents.Allocated pageNo := ⟨lower, upper, free, list, outside⟩
  refine ⟨write_at_size _ _ (by omega), allocated_write allocated image, ?_⟩
  intro other inside unallocated
  refine write_at_other _ _ ?_ (by omega)
  intro same
  have equal : other = pageNo := by omega
  exact unallocated (equal ▸ allocated)

end UnixFile

/-- Two worlds with the same `File` objects whose disks differ in allocated pages
of open files only. -/
structure World.Steady (before after : World) : Prop where
  files : after.files = before.files
  openFiles : after.openFiles = before.openFiles
  brk : after.brk = before.brk
  malloc : after.malloc = before.malloc
  bufFailed : after.bufFailed = before.bufFailed
  given : after.given = before.given
  numBufs : after.bufMgr.numBufs = before.bufMgr.numBufs
  stored : ∀ fileName contents, before.disk fileName = some contents →
    ∃ contents', after.disk fileName = some contents' ∧ contents.Alike contents'
  absent : ∀ fileName, before.disk fileName = none → after.disk fileName = none
  closed : ∀ fileName, (∀ file object, before.files file = some object →
    object.unixFile = true → object.fileName ≠ fileName) →
    after.disk fileName = before.disk fileName

def World.SameView (before after : World) : Prop :=
  ∀ file pageNo, before.HasPage file pageNo →
    after.view file pageNo = before.view file pageNo

namespace World

theorem Steady.refl (w : World) : Steady w w :=
  ⟨rfl, rfl, rfl, rfl, rfl, rfl, rfl, fun _ contents stored => ⟨contents, stored, .refl _⟩,
    fun _ none_ => none_, fun _ _ => rfl⟩

theorem Steady.trans {first second third : World} (left : Steady first second)
    (right : Steady second third) : Steady first third where
  files := right.files.trans left.files
  openFiles := right.openFiles.trans left.openFiles
  brk := right.brk.trans left.brk
  malloc := right.malloc.trans left.malloc
  bufFailed := right.bufFailed.trans left.bufFailed
  given := right.given.trans left.given
  numBufs := right.numBufs.trans left.numBufs
  stored := by
    intro fileName contents stored
    obtain ⟨second', stored', alike⟩ := left.stored fileName contents stored
    obtain ⟨third', stored'', alike'⟩ := right.stored fileName second' stored'
    exact ⟨third', stored'', alike.trans alike'⟩
  absent := fun fileName none_ => right.absent fileName (left.absent fileName none_)
  closed := by
    intro fileName unopened
    rw [right.closed fileName (by rw [left.files]; exact unopened),
      left.closed fileName unopened]

theorem steady_set_pool (w : World) {pool : BufMgr} (size : pool.numBufs = w.bufMgr.numBufs) :
    Steady w (w.setPool pool) :=
  ⟨rfl, rfl, rfl, rfl, rfl, rfl, size, fun _ contents stored => ⟨contents, stored, .refl _⟩,
    fun _ none_ => none_, fun _ _ => rfl⟩

theorem Steady.unix_file {before after : World} (steady : Steady before after) {file : FilePtr}
    {contents : UnixFile} (opened : before.unixFile file = some contents) :
    ∃ contents', after.unixFile file = some contents' ∧ contents.Alike contents' := by
  obtain ⟨object, live, openFd, stored⟩ := unix_file_live opened
  obtain ⟨contents', stored', alike⟩ := steady.stored _ contents stored
  refine ⟨contents', ?_, alike⟩
  simp [unixFile, steady.files, live, openFd, stored']

theorem Steady.unix_file_back {before after : World} (steady : Steady before after)
    {file : FilePtr} {contents' : UnixFile} (opened : after.unixFile file = some contents') :
    ∃ contents, before.unixFile file = some contents ∧ contents.Alike contents' := by
  obtain ⟨object, live, openFd, stored'⟩ := unix_file_live opened
  rw [steady.files] at live
  cases stored : before.disk object.fileName with
  | none =>
      rw [steady.absent _ stored] at stored'
      cases stored'
  | some contents =>
      obtain ⟨contents'', stored'', alike⟩ := steady.stored _ contents stored
      rw [stored'] at stored''
      obtain rfl := Option.some.inj stored''
      exact ⟨contents, by simp [unixFile, live, openFd, stored], alike⟩

theorem Steady.has_page_iff {before after : World} (steady : Steady before after)
    (file : FilePtr) (pageNo : Int) :
    after.HasPage file pageNo ↔ before.HasPage file pageNo := by
  constructor
  · rintro ⟨contents', opened', allocated⟩
    obtain ⟨contents, opened, alike⟩ := steady.unix_file_back opened'
    exact ⟨contents, opened, (alike.allocated pageNo).mp allocated⟩
  · rintro ⟨contents, opened, allocated⟩
    obtain ⟨contents', opened', alike⟩ := steady.unix_file opened
    exact ⟨contents', opened', (alike.allocated pageNo).mpr allocated⟩

theorem Steady.files_sound {before after : World} (steady : Steady before after)
    (sound : before.FilesSound) : after.FilesSound where
  apart := by
    rw [steady.files]
    exact sound.apart
  formed := by
    intro file contents' opened'
    obtain ⟨contents, opened, alike⟩ := steady.unix_file_back opened'
    obtain ⟨free, list⟩ := sound.formed file contents opened
    exact ⟨free, alike.free_list list⟩

theorem SameView.trans {first second third : World} (steady : Steady first second)
    (left : SameView first second) (right : SameView second third) : SameView first third := by
  intro file pageNo page
  rw [right file pageNo ((steady.has_page_iff file pageNo).mpr page), left file pageNo page]

theorem disk_page_of_open {w : World} {file : FilePtr} {contents : UnixFile}
    (opened : w.unixFile file = some contents) (pageNo : Int) :
    w.diskPage file pageNo = contents.page pageNo.toNat := by
  simp [diskPage, opened]

theorem write_back_spec {w : World} (reliable : w.Reliable) (sound : w.FilesSound)
    {file : FilePtr} {pageNo : Int} (page : w.HasPage file pageNo) (image : PageImage) :
    ∃ w', File.writePage file pageNo image w = (.ok (), w') ∧ w'.bufMgr = w.bufMgr ∧
      w'.Reliable ∧ Steady w w' ∧ w'.diskPage file pageNo = image ∧
      ∀ other otherNo, w.HasPage other otherNo → (other, otherNo) ≠ (file, pageNo) →
        w'.diskPage other otherNo = w.diskPage other otherNo := by
  obtain ⟨contents, opened, allocated⟩ := page
  obtain ⟨object, live, openFd, stored⟩ := unix_file_live opened
  have inside := allocated
  obtain ⟨lower, upper, _⟩ := inside
  refine ⟨_, File.write_page_reliable reliable live opened lower image, rfl, reliable, ?_, ?_, ?_⟩
  · refine ⟨rfl, rfl, rfl, rfl, rfl, rfl, rfl, ?_, ?_, ?_⟩
    · intro fileName other storedOther
      by_cases same : fileName = object.fileName
      · subst same
        rw [stored] at storedOther
        obtain rfl := Option.some.inj storedOther
        exact ⟨_, by simp [setDisk], UnixFile.alike_write allocated image⟩
      · exact ⟨other, by simp [setDisk, same, storedOther], .refl other⟩
    · intro fileName none_
      have different : fileName ≠ object.fileName := by
        rintro rfl
        rw [stored] at none_
        cases none_
      simp [setDisk, different, none_]
    · intro fileName unopened
      have different : fileName ≠ object.fileName :=
        fun same => unopened file object live openFd same.symm
      simp [setDisk, different]
  · rw [disk_page_of_open (unix_file_set_disk live openFd _), UnixFile.write_at_self]
  · rintro other otherNo ⟨otherContents, otherOpened, otherAllocated⟩ different
    obtain ⟨otherObject, otherLive, otherFd, otherStored⟩ := unix_file_live otherOpened
    by_cases same : otherObject.fileName = object.fileName
    · -- the same file, another page
      have equal := sound.apart other file otherObject object otherLive live otherFd openFd same
      subst equal
      rw [opened] at otherOpened
      obtain rfl := Option.some.inj otherOpened
      have differentNo : otherNo ≠ pageNo := fun equal => different (by rw [equal])
      have otherInside := otherAllocated
      obtain ⟨otherLower, otherUpper, _⟩ := otherInside
      rw [disk_page_of_open (unix_file_set_disk live openFd _), disk_page_of_open opened,
        UnixFile.write_at_other _ _ (by omega) (by omega)]
    · have untouched : (w.setDisk object.fileName
          (some (contents.writeAt pageNo.toNat image))).unixFile other = some otherContents := by
        simp [World.unixFile, setDisk, otherLive, otherFd, same, otherStored]
      rw [disk_page_of_open untouched, disk_page_of_open otherOpened]

end World

end PrimitiveDB

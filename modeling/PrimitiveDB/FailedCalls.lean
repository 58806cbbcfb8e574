import PrimitiveDB.AllocationFailures
import PrimitiveDB.CalmRuns
import PrimitiveDB.StorageContracts

/-!
# What failed buffer calls leave of a file

Any system call of `readPage` and `allocPage` may fail. The clock has then taken a page out of the
hash table, and if it was the write-back that failed the changes of that page are lost. Everything
else that a file shows stays.
-/

namespace PrimitiveDB.World

open BufMgr

set_option autoImplicit false

variable {w w' : World} {file : FilePtr} {fileName : FileName} {pageNo : Int} {object : File}
  {contents : UnixFile} {pins : List Pin} {opens : List FilePtr} {lf : LogicalFile}

/-- The clock would take a frame with changes of this page, and the call number `calls` from now,
its write-back, fails. -/
def Unsaved (w : World) (calls : Nat) (file : FilePtr) (pageNo : Int) : Prop :=
  ∃ frame, w.bufMgr.victim = some frame ∧ (w.bufMgr.bufTable frame).dirty = true ∧
    (w.bufMgr.bufTable frame).file = file ∧ (w.bufMgr.bufTable frame).pageNo = pageNo ∧
    w.faults calls = true

/-- A frame can be had for one page more: some frame is not pinned, and a write-back of the page
that has to make room, call number `calls` from now, succeeds. -/
def FrameGiven (w : World) (calls : Nat) : Prop :=
  ¬w.bufMgr.AllPinned ∧ ∀ frame, w.bufMgr.victim = some frame →
    (w.bufMgr.bufTable frame).dirty = true → w.faults calls = false

def PageGranted (w : World) : Prop :=
  w.faults 0 = false ∧ w.faults 1 = false ∧ w.faults 2 = false

theorem FrameGiven.saves {calls : Nat} (given : w.FrameGiven calls) :
    ¬w.Unsaved calls file pageNo := by
  rintro ⟨frame, taken, dirty, _, _, fault⟩
  rw [given.2 frame taken dirty] at fault
  cases fault

theorem victim_spec {pool : BufMgr} (hand : pool.clockHand < pool.numBufs) {frame : Nat}
    (taken : pool.victim = some frame) :
    frame < pool.numBufs ∧ (pool.bufTable frame).valid = true ∧
      (pool.bufTable frame).pinCnt = 0 := by
  obtain ⟨same, bound, cases_⟩ := clock_scan_outcome (2 * pool.numBufs) 0 pool hand
  unfold victim at taken
  dsimp only at taken same bound cases_
  split_ifs at taken with found
  obtain rfl := Option.some.inj taken
  rcases cases_ with ⟨lost, _⟩ | ⟨lost, _⟩ | ⟨_, valid, unpinned, _⟩
  · rw [found] at lost
    cases lost
  · rw [found] at lost
    cases lost
  · rw [same.valid] at valid
    rw [same.pinCnt] at unpinned
    exact ⟨bound, valid, unpinned⟩

structure EvictionFailed (w w' : World) : Prop where
  files : w'.files = w.files
  openFiles : w'.openFiles = w.openFiles
  disk : w'.disk = w.disk
  kept : ∀ file pageNo, ¬w.Unsaved 0 file pageNo → w'.view file pageNo = w.view file pageNo
  lost : ∀ file pageNo, w.Unsaved 0 file pageNo → w'.view file pageNo = w.diskPage file pageNo

def VictimStored (w : World) : Prop :=
  ∀ frame, w.bufMgr.victim = some frame → 1 ≤ (w.bufMgr.bufTable frame).pageNo ∧
    w.unixFile (w.bufMgr.bufTable frame).file ≠ none

theorem view_of_same_entry
    (found : w'.bufMgr.hashTable.lookup file pageNo = w.bufMgr.hashTable.lookup file pageNo)
    (images : w'.bufMgr.bufPool = w.bufMgr.bufPool)
    (disk : w'.diskPage file pageNo = w.diskPage file pageNo) :
    w'.view file pageNo = w.view file pageNo := by
  unfold view
  rw [found, images, disk]

theorem view_of_no_entry (absent : w.bufMgr.hashTable.lookup file pageNo = none) :
    w.view file pageNo = w.diskPage file pageNo := by
  unfold view
  rw [absent]

theorem alloc_buf_outcome (orderly : w.bufMgr.Orderly) (stored : w.VictimStored) :
    (∃ frame w', allocBuf w = (.ok frame, w') ∧ w.FrameGiven 0) ∨
      ∃ status w', allocBuf w = (.err status, w') ∧ ¬w.FrameGiven 0 ∧ EvictionFailed w w' := by
  obtain ⟨scanned, same, table, ⟨pinned, none_, run⟩ | ⟨free, none_, run⟩ | ⟨free, taken, run⟩⟩ :=
    orderly.alloc_buf_victim
  · right
    have whole : scanned.hashTable = w.bufMgr.hashTable := by
      rw [table, evicted, none_]
    have views : ∀ file pageNo, (w.setPool scanned).view file pageNo = w.view file pageNo := by
      intro file pageNo
      exact view_of_same_entry (congrArg (·.lookup file pageNo) whole) same.images rfl
    refine ⟨_, _, run, fun given => given.1 pinned, rfl, rfl, rfl, fun file pageNo _ =>
      views file pageNo, ?_⟩
    rintro file pageNo ⟨frame, taken, _⟩
    rw [none_] at taken
    cases taken
  · left
    refine ⟨_, _, run, free, ?_⟩
    intro frame taken
    rw [none_] at taken
    cases taken
  · have chosen : ∀ frame, w.bufMgr.victim = some frame → frame = scanned.clockHand := by
      intro frame found
      rw [taken] at found
      exact (Option.some.inj found).symm
    obtain ⟨positive, opened⟩ := stored _ taken
    by_cases dirty : (w.bufMgr.bufTable scanned.clockHand).dirty = true
    · rw [if_pos dirty] at run
      unfold File.writePage at run
      rw [if_neg (by omega)] at run
      rcases File.intwrite_cases (w.bufMgr.bufTable scanned.clockHand).file
        (w.bufMgr.bufTable scanned.clockHand).pageNo (w.bufMgr.bufPool scanned.clockHand)
        (w.setPool scanned) with ⟨dead, _⟩ | failed | ⟨_, _, _, _, calm, _, done⟩
      · exfalso
        apply opened
        unfold unixFile
        rw [show w.files _ = none from dead]
      · right
        rw [DbM.bind_err failed] at run
        have fault : w.faults 0 = true := by
          by_contra calm
          obtain ⟨contents, found⟩ := Option.ne_none_iff_exists'.mp opened
          obtain ⟨object, live, _⟩ := unix_file_live found
          have lower : 0 ≤ (w.bufMgr.bufTable scanned.clockHand).pageNo := by omega
          have written := File.intwrite_ok (w := w.setPool scanned) live found
            (by simpa using calm) lower (w.bufMgr.bufPool scanned.clockHand)
          rw [failed] at written
          cases written
        refine ⟨_, _, run, ?_, rfl, rfl, rfl, ?_, ?_⟩
        · intro given
          rw [given.2 _ taken dirty] at fault
          cases fault
        · intro file pageNo saved
          have other : (file, pageNo) ≠ ((w.bufMgr.bufTable scanned.clockHand).file,
              (w.bufMgr.bufTable scanned.clockHand).pageNo) := by
            rintro ⟨⟩
            exact saved ⟨_, taken, dirty, rfl, rfl, fault⟩
          have found : scanned.hashTable.lookup file pageNo =
              w.bufMgr.hashTable.lookup file pageNo := by
            rw [table, lookup_evicted_victim orderly.distinct taken, if_neg other]
          exact view_of_same_entry found same.images rfl
        · rintro file pageNo ⟨frame, found, _, rfl, rfl, _⟩
          obtain rfl := chosen frame found
          refine (view_of_no_entry ?_).trans rfl
          change scanned.hashTable.lookup _ _ = none
          rw [table, lookup_evicted_victim orderly.distinct taken, if_pos rfl]
      · left
        rw [DbM.bind_ok done] at run
        exact ⟨_, _, run, free, fun _ _ _ => calm⟩
    · left
      rw [if_neg dirty] at run
      refine ⟨_, _, run, free, ?_⟩
      intro frame found dirty'
      rw [chosen frame found] at dirty'
      exact absurd dirty' dirty

/-- What a file shows of the pages it had: all of them but those that are `lost`, for which it
shows what is on the disk. -/
structure Leaves (w w' : World) (file : FilePtr) (fileName : FileName) (lf : LogicalFile)
    (lost : Int → Prop) : Prop where
  openFiles : w'.openFiles = w.openFiles
  stored : ∀ contents, w.disk fileName = some contents →
    ∃ contents', w'.disk fileName = some contents' ∧ contents.size ≤ contents'.size
  kept : ∀ pageNo, lf.Inside pageNo → ¬lost pageNo → w'.view file pageNo = w.view file pageNo
  lost : ∀ pageNo, lf.Inside pageNo → lost pageNo → w'.view file pageNo = w.diskPage file pageNo

theorem Leaves.refl (w : World) (file : FilePtr) (fileName : FileName) (lf : LogicalFile) :
    Leaves w w file fileName lf fun _ => False where
  openFiles := rfl
  stored := fun contents stored => ⟨contents, stored, le_refl _⟩
  kept := fun _ _ _ => rfl
  lost := fun _ _ never => never.elim

theorem Leaves.congr {lost lost' : Int → Prop} (leaves : Leaves w w' file fileName lf lost)
    (same : ∀ pageNo, lost pageNo ↔ lost' pageNo) : Leaves w w' file fileName lf lost' where
  openFiles := leaves.openFiles
  stored := leaves.stored
  kept := fun pageNo inside saved =>
    leaves.kept pageNo inside fun gone => saved ((same pageNo).mp gone)
  lost := fun pageNo inside gone => leaves.lost pageNo inside ((same pageNo).mpr gone)

theorem Storage.orderly (storage : w.calm.Storage pins opens) : w.bufMgr.Orderly where
  hand := storage.residency.hand
  distinct := storage.residency.distinct
  mapped := fun file pageNo frame => (storage.residency.mapped file pageNo frame).mp
  free := storage.residency.free
  named := by
    intro frame bound valid null
    obtain ⟨contents, opened, _⟩ := storage.held frame _ _ trivial ⟨bound, valid, rfl, rfl⟩
    obtain ⟨object, live, _⟩ := unix_file_live opened
    have dead : w.files (w.bufMgr.bufTable frame).file = none := by
      rw [null]
      exact storage.null
    have alive : w.files (w.bufMgr.bufTable frame).file = some object := live
    rw [dead] at alive
    cases alive

theorem Storage.victim_stored (storage : w.calm.Storage pins opens) : w.VictimStored := by
  intro frame taken
  obtain ⟨bound, valid, _⟩ := victim_spec storage.residency.hand taken
  obtain ⟨contents, opened, allocated⟩ := storage.held frame _ _ trivial ⟨bound, valid, rfl, rfl⟩
  refine ⟨allocated.1, ?_⟩
  have found : w.unixFile (w.bufMgr.bufTable frame).file = some contents := opened
  rw [found]
  exact Option.some_ne_none contents

theorem Storage.pin_saved (storage : w.calm.Storage pins opens) {pin : Pin} (member : pin ∈ pins)
    {calls : Nat} : ¬w.Unsaved calls pin.file pin.pageNo := by
  rintro ⟨frame, taken, _, file, pageNo, _⟩
  obtain ⟨bound, valid, unpinned⟩ := victim_spec storage.residency.hand taken
  have here : frame = pin.frame :=
    storage.residency.holds_unique ⟨bound, valid, file, pageNo⟩ (storage.held_by pin member).1
  subst here
  have counted := storage.pinned pin.frame bound
  have some_ : 0 < pinsOn pins pin.frame := List.countP_pos_iff.mpr ⟨pin, member, by simp⟩
  rw [← counted] at some_
  exact absurd unpinned (Nat.pos_iff_ne_zero.mp some_)

theorem EvictionFailed.leaves (failed : EvictionFailed w w') (file : FilePtr) (fileName : FileName)
    (lf : LogicalFile) : Leaves w w' file fileName lf (w.Unsaved 0 file) where
  openFiles := failed.openFiles
  stored := by
    intro contents stored
    rw [failed.disk]
    exact ⟨contents, stored, le_refl _⟩
  kept := fun pageNo _ => failed.kept file pageNo
  lost := fun pageNo _ => failed.lost file pageNo

/-- The clock takes pages out of the table and puts none in. -/
theorem absent_once_evicted {frame : Nat} (orderly : w.bufMgr.Orderly)
    (run : allocBuf w = (.ok frame, w'))
    (absent : w.bufMgr.hashTable.lookup file pageNo = none) :
    w'.bufMgr.hashTable.lookup file pageNo = none := by
  have table := orderly.alloc_buf_table
  rw [run] at table
  cases there : w'.bufMgr.hashTable.lookup file pageNo with
  | none => rfl
  | some other =>
      rw [table] at there
      rw [orderly.lookup_evicted_fewer there] at absent
      cases absent

theorem install_page_ok (frame : Nat)
    (absent : w.bufMgr.hashTable.lookup file pageNo = none) :
    ∃ w', installPage file pageNo frame w = (.ok frame, w') := by
  obtain ⟨after, inserted⟩ := BufHashTbl.insert_of_absent frame absent
  rw [install_page_eq, inserted]
  exact ⟨_, rfl⟩

/-- A frame that has been had shows that no page was lost. -/
theorem Storage.alloc_buf_leaves (storage : w.calm.Storage pins opens)
    (named : w.nameOf file = some fileName) (logical : w.logical fileName = some lf)
    {frame : Nat} (run : allocBuf w = (.ok frame, w')) :
    w'.files = w.files ∧ Leaves w w' file fileName lf fun _ => False := by
  have found := alloc_buf_unhindered w w' frame run
  rcases alloc_buf_spec storage.toHealthy with ⟨w₂, exceeded, _⟩ |
    ⟨frame', w₂, run', _, steady, same, _⟩
  · rw [found] at exceeded
    cases exceeded
  rw [found] at run'
  cases run'
  refine ⟨steady.files, steady.openFiles, ?_, ?_, fun _ _ never => never.elim⟩
  · intro contents stored
    obtain ⟨after, storedAfter, alike⟩ := steady.stored fileName contents stored
    exact ⟨after, storedAfter, le_of_eq alike.size.symm⟩
  · intro pageNo inside _
    exact same file pageNo ((storage.toFiled.has_page_iff named logical).mpr inside)

theorem read_page_outcome (storage : w.calm.Storage pins opens)
    (named : w.nameOf file = some fileName) (logical : w.logical fileName = some lf)
    (inside : lf.Inside pageNo) :
    (∃ frame w', BufMgr.readPage file pageNo w = (.ok frame, w') ∧
        (w.bufMgr.hashTable.lookup file pageNo = none → w.FrameGiven 0)) ∨
      ∃ status w', BufMgr.readPage file pageNo w = (.err status, w') ∧
        Leaves w w' file fileName lf fun other =>
          w.bufMgr.hashTable.lookup file pageNo = none ∧ w.Unsaved 0 file other := by
  cases known : w.bufMgr.hashTable.lookup file pageNo with
  | some frame =>
      left
      refine ⟨_, _, read_page_hit w file pageNo frame known, ?_⟩
      intro none_
      cases none_
  | none =>
      rw [read_page_miss w file pageNo known]
      rcases alloc_buf_outcome storage.orderly storage.victim_stored with
        ⟨frame, w₁, run, given⟩ | ⟨status, w₁, run, _, failed⟩
      swap
      · right
        refine ⟨status, w₁, DbM.bind_err run, (failed.leaves file fileName lf).congr ?_⟩
        exact fun _ => (and_iff_right rfl).symm
      rw [DbM.bind_ok run]
      obtain ⟨object, contents, live, _⟩ := storage.toFiled.handle_spec named logical
      obtain ⟨files, unread⟩ := storage.alloc_buf_leaves named logical run
      have lower : ¬pageNo < 1 := by
        have positive := inside.1
        omega
      unfold File.readPage
      rw [if_neg lower]
      rcases File.intread_cases file pageNo w₁ with ⟨dead, _⟩ | failed |
        ⟨contents₁, _, _, _, _, done⟩
      · rw [files] at dead
        exact absurd (dead.symm.trans live) (by simp)
      · right
        have left : Leaves w w₁.tick file fileName lf _ :=
          ⟨unread.openFiles, unread.stored, unread.kept, unread.lost⟩
        refine ⟨_, _, DbM.bind_err failed, left.congr fun other => ?_⟩
        exact ⟨False.elim, fun both => given.saves both.2⟩
      · left
        rw [DbM.bind_ok done, DbM.modify_pool_bind]
        have absent : w₁.bufMgr.hashTable.lookup file pageNo = none :=
          absent_once_evicted storage.orderly run known
        obtain ⟨w₂, installed⟩ := install_page_ok frame (w := w₁.tick.setPool
          (w₁.tick.bufMgr.setImage frame (contents₁.page pageNo.toNat))) absent
        exact ⟨_, w₂, installed, fun _ => given⟩

theorem intread_faulty (opened : w.unixFile file = some contents) (lower : 0 ≤ pageNo)
    (upper : pageNo < contents.size) :
    File.intread file pageNo w = if w.faults 0 then (.err .UNIXERR, w.tick)
      else (.ok (contents.page pageNo.toNat), w.tick) := by
  rcases File.intread_cases file pageNo w with ⟨dead, _⟩ | failed | ⟨_, _, calm, _⟩
  · obtain ⟨object, live, _⟩ := unix_file_live opened
    rw [live] at dead
    cases dead
  · split_ifs with fault
    · exact failed
    · exact File.intread_ok opened (by simpa using fault) lower upper
  · rw [if_neg (by simp [calm])]
    exact File.intread_ok opened calm lower upper

theorem intwrite_faulty (live : w.files file = some object)
    (opened : w.unixFile file = some contents) (lower : 0 ≤ pageNo) (image : PageImage) :
    File.intwrite file pageNo image w = if w.faults 0 then (.err .UNIXERR, w.tick)
      else (.ok (), w.tick.setDisk object.fileName
        (some (contents.writeAt pageNo.toNat image))) := by
  rcases File.intwrite_cases file pageNo image w with ⟨dead, _⟩ | failed | ⟨_, _, _, _, calm, _⟩
  · rw [live] at dead
    cases dead
  · split_ifs with fault
    · exact failed
    · exact File.intwrite_ok live opened (by simpa using fault) lower image
  · rw [if_neg (by simp [calm])]
    exact File.intwrite_ok live opened calm lower image

/-- A file is longer by at most one page, and its other pages are as they were. -/
structure Longer (w w' : World) (fileName : FileName) (contents : UnixFile) : Prop where
  memory : SameMemory w w'
  faults : w.PageGranted → ∀ calls, w'.faults calls = w.faults (calls + 3)
  others : ∀ other, other ≠ fileName → w'.disk other = w.disk other
  stored : ∃ contents', w'.disk fileName = some contents' ∧ contents.size ≤ contents'.size ∧
    ∀ other : Nat, 1 ≤ other → other < contents.size → contents'.page other = contents.page other

theorem allocate_page_outcome (live : w.files file = some object)
    (openFd : object.unixFile = true) (stored : w.disk object.fileName = some contents)
    (list : contents.FreeList []) :
    (∃ w', File.allocatePage file w = (.ok (contents.size : Int), w') ∧ w.PageGranted ∧
        Longer w w' object.fileName contents) ∨
      ∃ w', File.allocatePage file w = (.err .UNIXERR, w') ∧ ¬w.PageGranted ∧
        Longer w w' object.fileName contents := by
  have opened : w.unixFile file = some contents := by
    simp [World.unixFile, live, openFd, stored]
  have headed := list.header
  have none_ : (contents.page 0).asDBPage.nextFree = -1 := list.chain
  have readHeader := intread_faulty opened (le_refl (0 : Int)) (by omega)
  unfold File.allocatePage
  by_cases fault₀ : w.faults 0 = true
  · rw [if_pos fault₀] at readHeader
    rw [DbM.bind_err readHeader]
    exact .inr ⟨_, rfl, fun granted => by simp [granted.1] at fault₀,
      ⟨⟨rfl, rfl, rfl, rfl, rfl, rfl, rfl⟩, fun granted => by simp [granted.1] at fault₀,
        fun _ _ => rfl, contents, stored, le_refl _, fun _ _ _ => rfl⟩⟩
  rw [if_neg fault₀, Int.toNat_zero] at readHeader
  rw [DbM.bind_ok readHeader]
  dsimp only
  rw [if_neg (by simp [none_]), list.numPages]
  have opened₁ : w.tick.unixFile file = some contents := opened
  have extend := intwrite_faulty (w := w.tick) live opened₁ (Int.natCast_nonneg contents.size)
    PageImage.zero
  by_cases fault₁ : w.tick.faults 0 = true
  · rw [if_pos fault₁] at extend
    rw [DbM.bind_err extend]
    have ungranted : ¬w.PageGranted := by
      intro granted
      rw [show w.tick.faults 0 = w.faults 1 from rfl, granted.2.1] at fault₁
      cases fault₁
    exact .inr ⟨_, rfl, ungranted, ⟨⟨rfl, rfl, rfl, rfl, rfl, rfl, rfl⟩,
      fun granted => absurd granted ungranted, fun _ _ => rfl, contents, stored, le_refl _,
      fun _ _ _ => rfl⟩⟩
  rw [if_neg fault₁, Int.toNat_natCast] at extend
  rw [DbM.bind_ok extend]
  have live₂ : (w.tick.tick.setDisk object.fileName (some (contents.writeAt contents.size
      PageImage.zero))).files file = some object := live
  have opened₂ := unix_file_set_disk (w := w.tick.tick) live openFd
    (contents.writeAt contents.size PageImage.zero)
  have larger : contents.size ≤ (contents.writeAt contents.size PageImage.zero).size :=
    Nat.le_max_left _ _
  have old : ∀ other : Nat, 1 ≤ other → other < contents.size →
      (contents.writeAt contents.size PageImage.zero).page other = contents.page other :=
    fun other _ inside => UnixFile.write_at_other _ _ (by omega) inside
  have writeHeader := fun image => intwrite_faulty live₂ opened₂ (le_refl (0 : Int)) image
  by_cases fault₂ : w.faults 2 = true
  · have ungranted : ¬w.PageGranted := by
      intro granted
      rw [granted.2.2] at fault₂
      cases fault₂
    right
    rw [DbM.bind_err ((writeHeader _).trans (if_pos fault₂))]
    exact ⟨_, rfl, ungranted, ⟨⟨rfl, rfl, rfl, rfl, rfl, rfl, rfl⟩,
      fun granted => absurd granted ungranted, fun _ other => Function.update_of_ne other _ _, _,
      Function.update_self _ _ _, larger, old⟩⟩
  · left
    rw [DbM.bind_ok ((writeHeader _).trans (if_neg fault₂)), Int.toNat_zero]
    have calm₁ : w.tick.faults 0 = false := by simpa using fault₁
    refine ⟨_, rfl, ⟨by simpa using fault₀, calm₁, by simpa using fault₂⟩,
      ⟨⟨rfl, rfl, rfl, rfl, rfl, rfl, rfl⟩, fun _ _ => rfl, ?_, _, Function.update_self _ _ _, ?_,
        ?_⟩⟩
    · intro other different
      exact (Function.update_of_ne different _ _).trans (Function.update_of_ne different _ _)
    · exact larger.trans (Nat.le_max_left _ _)
    · intro other positive inside
      rw [UnixFile.write_at_other _ _ (by omega) (by omega)]
      exact old other positive inside

theorem Longer.view (longer : Longer w w' object.fileName contents)
    (live : w.files file = some object) (openFd : object.unixFile = true)
    (stored : w.disk object.fileName = some contents) (lower : 1 ≤ pageNo)
    (upper : pageNo < contents.size) :
    w'.view file pageNo = w.view file pageNo ∧ w'.diskPage file pageNo = w.diskPage file pageNo := by
  obtain ⟨contents', stored', _, old⟩ := longer.stored
  have live' : w'.files file = some object := by
    rw [longer.memory.files]
    exact live
  have opened : w.unixFile file = some contents := by
    simp [World.unixFile, live, openFd, stored]
  have opened' : w'.unixFile file = some contents' := by
    simp [World.unixFile, live', openFd, stored']
  have disk : w'.diskPage file pageNo = w.diskPage file pageNo := by
    unfold diskPage
    rw [opened, opened']
    exact old pageNo.toNat (by omega) (by omega)
  refine ⟨?_, disk⟩
  unfold World.view
  rw [longer.memory.bufMgr, disk]

theorem Longer.opened (longer : Longer w w' fileName contents) {other : FilePtr}
    (opened : w.unixFile other ≠ none) : w'.unixFile other ≠ none := by
  obtain ⟨before, found⟩ := Option.ne_none_iff_exists'.mp opened
  obtain ⟨object, live, openFd, stored⟩ := unix_file_live found
  have live' : w'.files other = some object := by
    rw [longer.memory.files]
    exact live
  by_cases here : object.fileName = fileName
  · obtain ⟨after, storedAfter, _⟩ := longer.stored
    rw [← here] at storedAfter
    simp [unixFile, live', openFd, storedAfter]
  · simp [unixFile, live', openFd, longer.others _ here, stored]

theorem Longer.frame_given_iff (longer : Longer w w' fileName contents)
    (granted : w.PageGranted) : w'.FrameGiven 0 ↔ w.FrameGiven 3 := by
  unfold FrameGiven
  rw [longer.memory.bufMgr, longer.faults granted]

theorem Longer.unsaved_iff (longer : Longer w w' fileName contents) (granted : w.PageGranted)
    (pageNo : Int) : w'.Unsaved 0 file pageNo ↔ w.Unsaved 3 file pageNo := by
  unfold Unsaved
  rw [longer.memory.bufMgr, longer.faults granted]

theorem Longer.victim_stored (longer : Longer w w' fileName contents) (stored : w.VictimStored) :
    w'.VictimStored := by
  intro frame taken
  rw [longer.memory.bufMgr] at taken ⊢
  obtain ⟨positive, some_⟩ := stored frame taken
  exact ⟨positive, longer.opened some_⟩

/-- What is left of the longer file is left of the file. -/
theorem Longer.leaves {w₁ : World} {lost : Int → Prop}
    (longer : Longer w w₁ object.fileName contents) (live : w.files file = some object)
    (openFd : object.unixFile = true) (stored : w.disk object.fileName = some contents)
    (within : ∀ pageNo, lf.Inside pageNo → 1 ≤ pageNo ∧ pageNo < contents.size)
    (leaves : Leaves w₁ w' file object.fileName lf lost) :
    Leaves w w' file object.fileName lf lost where
  openFiles := leaves.openFiles.trans longer.memory.openFiles
  stored := by
    intro contents' stored'
    rw [stored] at stored'
    obtain rfl := Option.some.inj stored'
    obtain ⟨after, storedAfter, larger, _⟩ := longer.stored
    obtain ⟨last, storedLast, larger'⟩ := leaves.stored after storedAfter
    exact ⟨last, storedLast, larger.trans larger'⟩
  kept := by
    intro pageNo inside saved
    obtain ⟨lower, upper⟩ := within pageNo inside
    exact (leaves.kept pageNo inside saved).trans (longer.view live openFd stored lower upper).1
  lost := by
    intro pageNo inside gone
    obtain ⟨lower, upper⟩ := within pageNo inside
    exact (leaves.lost pageNo inside gone).trans (longer.view live openFd stored lower upper).2

theorem alloc_page_outcome (storage : w.calm.Storage pins opens)
    (named : w.nameOf file = some fileName) (logical : w.logical fileName = some lf) :
    (∃ page w', BufMgr.allocPage file w = (.ok page, w') ∧ w.PageGranted ∧ w.FrameGiven 3) ∨
      ∃ status w', BufMgr.allocPage file w = (.err status, w') ∧
        ¬(w.PageGranted ∧ w.FrameGiven 3) ∧
        Leaves w w' file fileName lf fun pageNo => w.PageGranted ∧ w.Unsaved 3 file pageNo := by
  obtain ⟨object, contents, live, rfl, openFd, stored, opened, _, size, _⟩ :=
    storage.toFiled.handle_spec named logical
  have list := storage.stored _ _ stored
  change w.files file = some object at live
  change w.disk object.fileName = some contents at stored
  have within : ∀ pageNo, lf.Inside pageNo → 1 ≤ pageNo ∧ pageNo < contents.size := by
    intro pageNo inside
    rw [LogicalFile.Inside, size] at inside
    exact inside
  rw [alloc_page_eq]
  rcases allocate_page_outcome live openFd stored list with
    ⟨w₁, run, granted, longer⟩ | ⟨w₁, run, ungranted, longer⟩
  swap
  · right
    refine ⟨_, w₁, DbM.bind_err run, fun both => ungranted both.1, ?_⟩
    refine (longer.leaves live openFd stored within (.refl w₁ file _ lf)).congr fun pageNo => ?_
    exact ⟨False.elim, fun both => ungranted both.1⟩
  rw [DbM.bind_ok run]
  have orderly : w₁.bufMgr.Orderly := by
    rw [longer.memory.bufMgr]
    exact storage.orderly
  unfold framePage
  rcases alloc_buf_outcome orderly (longer.victim_stored storage.victim_stored) with
    ⟨frame, w₂, evict, given⟩ | ⟨status, w₂, evict, refused, failed⟩
  · left
    have absent : w₁.bufMgr.hashTable.lookup file contents.size = none := by
      rw [longer.memory.bufMgr]
      cases there : w.bufMgr.hashTable.lookup file contents.size with
      | none => rfl
      | some other =>
          have page := storage.held other file contents.size trivial
            (storage.orderly.mapped _ _ _ there)
          have upper := (within _ ((storage.toFiled.has_page_iff named logical).mp page)).2
          exact absurd upper (lt_irrefl _)
    obtain ⟨w₃, installed⟩ :=
      install_page_ok frame (absent_once_evicted orderly evict absent)
    rw [DbM.bind_ok evict, DbM.bind_ok installed]
    exact ⟨_, _, rfl, granted, (longer.frame_given_iff granted).mp given⟩
  · right
    rw [longer.frame_given_iff granted] at refused
    refine ⟨status, w₂, DbM.bind_err evict, fun both => refused both.2, ?_⟩
    refine (longer.leaves live openFd stored within (failed.leaves file _ lf)).congr
      fun pageNo => ?_
    rw [longer.unsaved_iff granted]
    exact (and_iff_right granted).symm

end PrimitiveDB.World

import PrimitiveDB.ClockReplacement
import PrimitiveDB.PageDisposal

/-!
# Disposing of a page through the pool

`disposePage` of the buffer manager throws the frame away and drops the hash entry before the
file layer has decided whether the page may go. So a refusal loses the buffered page, and a
page that somebody has pinned or that is free already goes all the same.
-/

namespace PrimitiveDB

set_option autoImplicit false

namespace UnixFile

def Same (first second : UnixFile) : Prop :=
  second.size = first.size ∧ ∀ position, position < first.size →
    second.page position = first.page position

theorem same_refl (contents : UnixFile) : Same contents contents := ⟨rfl, fun _ _ => rfl⟩

/-- The page that `allocatePage` would hand out after `pageNo`. -/
def nextFreeOf (contents : UnixFile) (pageNo : Int) : Int :=
  if 0 ≤ pageNo ∧ pageNo < contents.size then (contents.page pageNo.toNat).asDBPage.nextFree
  else -1

/-- The free list as `allocatePage` walks it, whether it ends or not. -/
def freeAt (contents : UnixFile) : Nat → Int
  | 0 => (contents.page 0).asDBPage.nextFree
  | position + 1 => contents.nextFreeOf (contents.freeAt position)

/-- What `disposePage` makes of the page it takes. -/
def unhooked (contents : UnixFile) : PageImage :=
  PageImage.zero.setDBPage
    { nextFree := (contents.page 0).asDBPage.nextFree, firstPage := 0, numPages := 0 }

theorem free_at_none {contents : UnixFile} (none_ : contents.freeAt 0 = -1) (position : Nat) :
    contents.freeAt position = -1 := by
  induction position with
  | zero => exact none_
  | succ position ih =>
      rw [freeAt, ih]
      rfl

theorem dispose_head (contents : UnixFile) (pageNo : Int) :
    (contents.dispose pageNo).freeAt 0 = pageNo := by
  simp only [freeAt, dispose, write_at_self, PageImage.as_db_page_set]

section Dispose

variable {contents : UnixFile} {pageNo : Int} (lower : 1 ≤ pageNo)
  (upper : pageNo < contents.size)

include lower upper

theorem dispose_next_free : (contents.dispose pageNo).nextFreeOf pageNo = contents.freeAt 0 := by
  have size : (contents.dispose pageNo).size = contents.size :=
    dispose_size (by omega) lower upper
  unfold nextFreeOf
  rw [if_pos (by omega)]
  simp only [dispose]
  rw [write_at_other _ _ (by omega) (by rw [write_at_size _ _ (by omega)]; omega), write_at_self]
  rfl

theorem dispose_next_free_other {other : Int} (different : other ≠ pageNo)
    (positive : other ≠ 0) :
    (contents.dispose pageNo).nextFreeOf other = contents.nextFreeOf other := by
  have size : (contents.dispose pageNo).size = contents.size :=
    dispose_size (by omega) lower upper
  unfold nextFreeOf
  rw [size]
  split_ifs with inside
  · simp only [dispose]
    rw [write_at_other _ _ (by omega) (by rw [write_at_size _ _ (by omega)]; omega),
      write_at_other _ _ (by omega) (by omega)]
  · rfl

/-- The page is in front of the old list, up to where that list meets the page itself or runs
into the header. -/
theorem dispose_free_at (position : Nat)
    (clear : ∀ earlier, earlier < position →
      contents.freeAt earlier ≠ pageNo ∧ contents.freeAt earlier ≠ 0) :
    (contents.dispose pageNo).freeAt (position + 1) = contents.freeAt position := by
  induction position with
  | zero =>
      change (contents.dispose pageNo).nextFreeOf ((contents.dispose pageNo).freeAt 0) = _
      rw [dispose_head contents pageNo]
      exact dispose_next_free lower upper
  | succ position ih =>
      have reached := ih fun earlier less => clear earlier (by omega)
      obtain ⟨different, positive⟩ := clear position (by omega)
      change (contents.dispose pageNo).nextFreeOf
        ((contents.dispose pageNo).freeAt (position + 1)) = _
      rw [reached]
      exact dispose_next_free_other lower upper different positive

/-- The page is on the new list exactly once if and only if it was not on the old one and the
old one does not run into the header. -/
theorem dispose_once_iff :
    (∃! position, (contents.dispose pageNo).freeAt position = pageNo) ↔
      ∀ position, contents.freeAt position ≠ pageNo ∧ contents.freeAt position ≠ 0 := by
  have head : (contents.dispose pageNo).freeAt 0 = pageNo := dispose_head contents pageNo
  have size : (contents.dispose pageNo).size = contents.size :=
    dispose_size (by omega) lower upper
  constructor
  · intro once position
    have only : ∀ later, (contents.dispose pageNo).freeAt later = pageNo → later = 0 :=
      fun later found => once.unique found head
    induction position using Nat.strong_induction_on with
    | _ position ih =>
        have reached := dispose_free_at lower upper position ih
        refine ⟨?_, ?_⟩
        · intro here
          rw [here] at reached
          have first := only _ reached
          omega
        · intro here
          rw [here] at reached
          have again : (contents.dispose pageNo).freeAt (position + 2) = pageNo := by
            change (contents.dispose pageNo).nextFreeOf
              ((contents.dispose pageNo).freeAt (position + 1)) = pageNo
            rw [reached]
            unfold nextFreeOf
            rw [if_pos (by omega)]
            exact head
          have first := only _ again
          omega
  · intro clear
    refine ⟨0, head, ?_⟩
    intro position found
    cases position with
    | zero => rfl
    | succ position =>
        rw [dispose_free_at lower upper position fun earlier _ => clear earlier] at found
        exact absurd found (clear position).1

end Dispose

end UnixFile

namespace World

variable {w w' : World} {file : FilePtr} {object : File} {pageNo : Int} {contents : UnixFile}

/-- The file layer gets as far as writing the page that is to be disposed of: the page number
is one it takes, and three system calls go well. -/
structure DisposeReaches (w : World) (file : FilePtr) (pageNo : Int) (contents : UnixFile) :
    Prop where
  opened : w.unixFile file = some contents
  lower : 1 ≤ pageNo
  upper : pageNo < contents.size
  counted : pageNo < (contents.page 0).asDBPage.numPages
  notFirst : (contents.page 0).asDBPage.firstPage ≠ pageNo
  calm : w.faults 0 = false ∧ w.faults 1 = false ∧ w.faults 2 = false

theorem DisposeReaches.run (reaches : w.DisposeReaches file pageNo contents)
    (live : w.files file = some object) :
    File.disposePage file pageNo w =
      File.intwrite file 0 ((contents.page 0).setDBPage
          { (contents.page 0).asDBPage with nextFree := pageNo })
        (w.tick.tick.tick.setDisk object.fileName
          (some (contents.writeAt pageNo.toNat contents.unhooked))) := by
  have lower := reaches.lower
  have upper := reaches.upper
  have readHeader := File.intread_ok reaches.opened reaches.calm.1 (le_refl (0 : Int)) (by omega)
  rw [Int.toNat_zero] at readHeader
  have opened : w.tick.unixFile file = some contents := reaches.opened
  have readPage := File.intread_ok opened reaches.calm.2.1 (show (0 : Int) ≤ pageNo by omega) upper
  have live' : w.tick.tick.files file = some object := live
  have opened' : w.tick.tick.unixFile file = some contents := reaches.opened
  have unhook := File.intwrite_ok live' opened' reaches.calm.2.2 (show (0 : Int) ≤ pageNo by omega)
    contents.unhooked
  have kept : ¬((contents.page 0).asDBPage.firstPage = pageNo ∨
      pageNo ≥ (contents.page 0).asDBPage.numPages) := by
    rintro (first | beyond)
    · exact reaches.notFirst first
    · have counted := reaches.counted
      omega
  unfold File.disposePage
  rw [if_neg (by omega), DbM.bind_ok readHeader]
  dsimp only
  rw [if_neg kept, DbM.bind_ok readPage]
  change (File.intwrite file pageNo contents.unhooked >>= _) w.tick.tick = _
  rw [DbM.bind_ok unhook]

theorem DisposeReaches.descriptor (reaches : w.DisposeReaches file pageNo contents)
    (live : w.files file = some object) : object.unixFile = true := by
  obtain ⟨object', live', openFd, _⟩ := unix_file_live reaches.opened
  rw [live] at live'
  cases live'
  exact openFd

theorem DisposeReaches.takes (reaches : w.DisposeReaches file pageNo contents)
    (live : w.files file = some object) (calm : w.faults 3 = false) :
    ∃ w', File.disposePage file pageNo w = (.ok (), w') ∧ SameMemory w w' ∧
      w'.disk = Function.update w.disk object.fileName (some (contents.dispose pageNo)) := by
  have written := unix_file_set_disk (w := w.tick.tick.tick) live (reaches.descriptor live)
    (contents.writeAt pageNo.toNat contents.unhooked)
  have live' : (w.tick.tick.tick.setDisk object.fileName
      (some (contents.writeAt pageNo.toNat contents.unhooked))).files file = some object := live
  have hook := File.intwrite_ok live' written calm (le_refl (0 : Int))
    ((contents.page 0).setDBPage { (contents.page 0).asDBPage with nextFree := pageNo })
  refine ⟨_, (reaches.run live).trans hook, ⟨rfl, rfl, rfl, rfl, rfl, rfl, rfl⟩, ?_⟩
  exact Function.update_idem _ _ _

theorem DisposeReaches.breaks_off (reaches : w.DisposeReaches file pageNo contents)
    (live : w.files file = some object) (fault : w.faults 3 = true) :
    ∃ w', File.disposePage file pageNo w = (.err .UNIXERR, w') ∧ SameMemory w w' ∧
      w'.disk = Function.update w.disk object.fileName
        (some (contents.writeAt pageNo.toNat contents.unhooked)) := by
  have run := reaches.run live
  rcases File.intwrite_cases file 0 ((contents.page 0).setDBPage
      { (contents.page 0).asDBPage with nextFree := pageNo })
      (w.tick.tick.tick.setDisk object.fileName
        (some (contents.writeAt pageNo.toNat contents.unhooked))) with
    ⟨dead, _⟩ | failed | ⟨_, _, _, _, calm, _⟩
  · have alive : w.files file = none := dead
    rw [live] at alive
    cases alive
  · exact ⟨_, run.trans failed, ⟨rfl, rfl, rfl, rfl, rfl, rfl, rfl⟩, rfl⟩
  · have calm' : w.faults 3 = false := calm
    rw [fault] at calm'
    cases calm'

/-- A refusal that comes before the first write leaves the file as it was. -/
theorem dispose_page_refused (live : w.files file = some object)
    (never : ∀ contents, ¬w.DisposeReaches file pageNo contents) :
    ∃ status w', File.disposePage file pageNo w = (.err status, w') ∧ SameMemory w w' ∧
      w'.disk = w.disk := by
  have alive : w.files file ≠ none := by
    rw [live]
    exact Option.some_ne_none object
  unfold File.disposePage
  split_ifs with below
  · exact ⟨.BADPAGENO, w, rfl, SameMemory.refl w, rfl⟩
  rcases File.intread_cases file 0 w with ⟨dead, _⟩ | failed |
    ⟨contents, opened, calm, _, headed, readHeader⟩
  · exact absurd dead alive
  · exact ⟨_, _, DbM.bind_err failed, ⟨rfl, rfl, rfl, rfl, rfl, rfl, rfl⟩, rfl⟩
  rw [DbM.bind_ok readHeader]
  dsimp only
  rw [Int.toNat_zero]
  split_ifs with refused
  · exact ⟨.BADPAGENO, w.tick, rfl, ⟨rfl, rfl, rfl, rfl, rfl, rfl, rfl⟩, rfl⟩
  push Not at refused
  rcases File.intread_cases file pageNo w.tick with ⟨dead, _⟩ | failed |
    ⟨contents', opened', calm', _, upper, readPage⟩
  · exact absurd dead alive
  · exact ⟨_, _, DbM.bind_err failed, ⟨rfl, rfl, rfl, rfl, rfl, rfl, rfl⟩, rfl⟩
  rw [DbM.bind_ok readPage]
  have same : contents' = contents := by
    have opened'' : w.unixFile file = some contents' := opened'
    rw [opened] at opened''
    exact (Option.some.inj opened'').symm
  subst same
  -- all that is left to stop it is the write itself
  have fault : w.faults 2 ≠ false := fun calm'' =>
    never contents' ⟨opened, by omega, upper, refused.2, refused.1, calm, calm', calm''⟩
  rcases File.intwrite_cases file pageNo contents'.unhooked w.tick.tick with
    ⟨dead, _⟩ | failed | ⟨_, _, _, _, calm'', _⟩
  · exact absurd dead alive
  · exact ⟨_, _, DbM.bind_err failed, ⟨rfl, rfl, rfl, rfl, rfl, rfl, rfl⟩, rfl⟩
  · exact absurd calm'' fault

end World

namespace BufMgr

variable {pool : BufMgr} {file : FilePtr} {pageNo : Int}

/-- What `disposePage` does to the pool before it calls the file layer. -/
def discard (pool : BufMgr) (file : FilePtr) (pageNo : Int) : BufMgr :=
  match pool.hashTable.lookup file pageNo with
  | some frame => (pool.setDesc frame (pool.bufTable frame).Clear).removeEntry file pageNo
  | none => pool.removeEntry file pageNo

theorem dispose_page_eq (w : World) (file : FilePtr) (pageNo : Int) :
    disposePage file pageNo w =
      File.disposePage file pageNo (w.setPool (w.bufMgr.discard file pageNo)) := by
  unfold disposePage discard
  rw [DbM.read_bind]
  cases w.bufMgr.hashTable.lookup file pageNo <;> rfl

theorem discard_absent (absent : pool.hashTable.lookup file pageNo = none) :
    pool.discard file pageNo = pool := by
  unfold discard
  rw [absent]
  have missing : pool.hashTable.remove file pageNo = none := by
    unfold BufHashTbl.remove
    rw [ChainedTable.remove_eq_none_iff.mpr absent]
    rfl
  dsimp only
  unfold removeEntry
  rw [missing]
  rfl

theorem lookup_discard (distinct : ChainedTable.DistinctKeys pool.hashTable.ht) (file : FilePtr)
    (pageNo : Int) :
    (pool.discard file pageNo).hashTable.lookup file pageNo = none := by
  have removed : ((pool.hashTable.remove file pageNo).getD pool.hashTable).lookup file pageNo =
      none := by
    rw [BufHashTbl.lookup_remove distinct, if_pos rfl]
  unfold discard
  cases pool.hashTable.lookup file pageNo <;> exact removed

theorem holds_discard_iff (pool : BufMgr) (file : FilePtr) (pageNo : Int) (frame : Nat) :
    (pool.discard file pageNo).Holds frame file pageNo ↔
      pool.Holds frame file pageNo ∧ pool.hashTable.lookup file pageNo ≠ some frame := by
  cases found : pool.hashTable.lookup file pageNo with
  | none =>
      rw [discard_absent found]
      exact ⟨fun holds => ⟨holds, fun same => Option.noConfusion rfl (heq_of_eq same)⟩, And.left⟩
  | some known =>
      have discarded : pool.discard file pageNo =
          (pool.setDesc known (pool.bufTable known).Clear).removeEntry file pageNo := by
        unfold discard
        rw [found]
      rw [discarded]
      by_cases here : frame = known
      · subst here
        constructor
        · rintro ⟨_, valid, _⟩
          change ((pool.setDesc frame (pool.bufTable frame).Clear).bufTable frame).valid = true
            at valid
          rw [set_desc_self] at valid
          cases valid
        · exact fun both => absurd rfl both.2
      · have kept : (pool.setDesc known (pool.bufTable known).Clear).bufTable frame =
            pool.bufTable frame := set_desc_other _ _ _ here
        change (frame < pool.numBufs ∧
          ((pool.setDesc known (pool.bufTable known).Clear).bufTable frame).valid = true ∧ _ ∧ _) ↔ _
        simp only [Holds, removeEntry, kept]
        refine ⟨fun holds => ⟨holds, ?_⟩, And.left⟩
        intro same
        exact here (Option.some.inj same).symm

end BufMgr

namespace World

variable {w : World} {file : FilePtr} {object : File} {pageNo : Int} {contents : UnixFile}

structure DisposesWholly (w : World) (file : FilePtr) (pageNo : Int) : Prop where
  done : ∀ w', BufMgr.disposePage file pageNo w = (.ok (), w') →
    (∀ frame, w.bufMgr.Holds frame file pageNo → (w.bufMgr.bufTable frame).pinCnt = 0) ∧
      w'.bufMgr.hashTable.lookup file pageNo = none ∧
      (∀ frame, ¬w'.bufMgr.Holds frame file pageNo) ∧
      ∃ contents, w'.unixFile file = some contents ∧
        ∃! position, contents.freeAt position = pageNo
  refused : ∀ status w', BufMgr.disposePage file pageNo w = (.err status, w') →
    w'.bufMgr = w.bufMgr ∧ ∀ fileName, Option.Rel UnixFile.Same (w.disk fileName) (w'.disk fileName)

/-- A page that the file layer will take is in the frame that the table knows, if it is in the
pool at all, is not pinned and not on the free list. A page that it will not take is not in the
pool; and where only the write of the header fails, the page reads as a disposed page already. -/
structure MayDispose (w : World) (file : FilePtr) (pageNo : Int) : Prop where
  taken : ∀ contents, w.DisposeReaches file pageNo contents → w.faults 3 = false →
    (∀ frame, w.bufMgr.Holds frame file pageNo →
      w.bufMgr.hashTable.lookup file pageNo = some frame ∧
        (w.bufMgr.bufTable frame).pinCnt = 0) ∧
      ∀ position, contents.freeAt position ≠ pageNo ∧ contents.freeAt position ≠ 0
  kept : (∀ contents, w.DisposeReaches file pageNo contents → w.faults 3 = true) →
    w.bufMgr.hashTable.lookup file pageNo = none ∧
      ∀ contents, w.DisposeReaches file pageNo contents →
        contents.page pageNo.toNat = contents.unhooked

theorem dispose_reaches_set_pool (w : World) (pool : BufMgr) (file : FilePtr) (pageNo : Int)
    (contents : UnixFile) :
    (w.setPool pool).DisposeReaches file pageNo contents ↔
      w.DisposeReaches file pageNo contents :=
  ⟨fun reaches => ⟨reaches.1, reaches.2, reaches.3, reaches.4, reaches.5, reaches.6⟩,
    fun reaches => ⟨reaches.1, reaches.2, reaches.3, reaches.4, reaches.5, reaches.6⟩⟩

theorem same_disk_refl (w : World) (fileName : FileName) :
    Option.Rel UnixFile.Same (w.disk fileName) (w.disk fileName) := by
  cases w.disk fileName with
  | none => exact .none
  | some contents => exact .some (UnixFile.same_refl contents)

/-- Writing a page changes the file unless the page was like that before. -/
theorem write_at_same_iff {position : Nat} (inside : position < contents.size)
    (image : PageImage) :
    UnixFile.Same contents (contents.writeAt position image) ↔
      contents.page position = image := by
  constructor
  · intro same
    have read := same.2 position inside
    rw [UnixFile.write_at_self] at read
    exact read.symm
  · intro already
    refine ⟨UnixFile.write_at_size contents image inside, ?_⟩
    intro other bound
    by_cases here : other = position
    · subst here
      rw [UnixFile.write_at_self]
      exact already.symm
    · exact UnixFile.write_at_other contents image here bound

section Cases

variable (orderly : w.bufMgr.Orderly) (live : w.files file = some object)

include orderly live

theorem DisposeReaches.disposes_iff (reaches : w.DisposeReaches file pageNo contents)
    (calm : w.faults 3 = false) :
    w.DisposesWholly file pageNo ↔
      (∀ frame, w.bufMgr.Holds frame file pageNo →
        w.bufMgr.hashTable.lookup file pageNo = some frame ∧
          (w.bufMgr.bufTable frame).pinCnt = 0) ∧
        ∀ position, contents.freeAt position ≠ pageNo ∧ contents.freeAt position ≠ 0 := by
  have discarded := (dispose_reaches_set_pool w (w.bufMgr.discard file pageNo) file pageNo
    contents).mpr reaches
  obtain ⟨w', run, same, disk⟩ := discarded.takes live calm
  rw [← BufMgr.dispose_page_eq] at run
  have opened : w'.unixFile file = some (contents.dispose pageNo) := by
    have live' : w'.files file = some object := by rw [same.files]; exact live
    simp [World.unixFile, live', reaches.descriptor live, disk]
  have pool : w'.bufMgr = w.bufMgr.discard file pageNo := same.bufMgr
  have once := UnixFile.dispose_once_iff reaches.lower reaches.upper
  constructor
  · intro wholly
    obtain ⟨unpinned, _, gone, contents', opened', unique⟩ := wholly.done w' run
    rw [opened] at opened'
    obtain rfl := Option.some.inj opened'
    refine ⟨?_, once.mp unique⟩
    intro frame holds
    refine ⟨?_, unpinned frame holds⟩
    by_contra unknown
    apply gone frame
    rw [pool, BufMgr.holds_discard_iff]
    exact ⟨holds, unknown⟩
  · rintro ⟨known, clear⟩
    refine ⟨?_, ?_⟩
    · intro w'' run'
      rw [run] at run'
      cases run'
      refine ⟨fun frame holds => (known frame holds).2, ?_, ?_, _, opened, once.mpr clear⟩
      · rw [pool]
        exact BufMgr.lookup_discard orderly.distinct file pageNo
      · intro frame holds
        rw [pool, BufMgr.holds_discard_iff] at holds
        exact holds.2 (known frame holds.1).1
    · intro status w'' run'
      rw [run] at run'
      cases run'

omit live in
theorem pool_kept_iff :
    w.bufMgr.discard file pageNo = w.bufMgr ↔ w.bufMgr.hashTable.lookup file pageNo = none := by
  constructor
  · intro kept
    rw [← kept]
    exact BufMgr.lookup_discard orderly.distinct file pageNo
  · exact BufMgr.discard_absent

theorem DisposeReaches.breaks_off_iff (reaches : w.DisposeReaches file pageNo contents)
    (fault : w.faults 3 = true) :
    w.DisposesWholly file pageNo ↔
      w.bufMgr.hashTable.lookup file pageNo = none ∧
        contents.page pageNo.toNat = contents.unhooked := by
  have discarded := (dispose_reaches_set_pool w (w.bufMgr.discard file pageNo) file pageNo
    contents).mpr reaches
  obtain ⟨w', run, same, disk⟩ := discarded.breaks_off live fault
  rw [← BufMgr.dispose_page_eq] at run
  have pool : w'.bufMgr = w.bufMgr.discard file pageNo := same.bufMgr
  have lower := reaches.lower
  have upper := reaches.upper
  have inside : pageNo.toNat < contents.size := by omega
  have unchanged := write_at_same_iff inside contents.unhooked
  have stored : w.disk object.fileName = some contents := by
    obtain ⟨object', live', _, stored⟩ := unix_file_live reaches.opened
    rw [live] at live'
    cases live'
    exact stored
  rw [← pool_kept_iff orderly, ← unchanged]
  constructor
  · intro wholly
    obtain ⟨kept, files⟩ := wholly.refused _ w' run
    refine ⟨pool.symm.trans kept, ?_⟩
    have written := files object.fileName
    rw [disk, Function.update_self, stored] at written
    cases written with
    | some same => exact same
  · rintro ⟨kept, same'⟩
    refine ⟨?_, ?_⟩
    · intro w'' run'
      rw [run] at run'
      cases run'
    · intro status w'' run'
      rw [run] at run'
      cases run'
      refine ⟨pool.trans kept, ?_⟩
      intro fileName
      by_cases here : fileName = object.fileName
      · subst here
        rw [disk, Function.update_self, stored]
        exact .some same'
      · rw [disk, Function.update_of_ne here]
        exact same_disk_refl w fileName

theorem refused_wholly_iff (never : ∀ contents, ¬w.DisposeReaches file pageNo contents) :
    w.DisposesWholly file pageNo ↔ w.bufMgr.hashTable.lookup file pageNo = none := by
  have discarded : ∀ contents, ¬(w.setPool (w.bufMgr.discard file pageNo)).DisposeReaches file
      pageNo contents := by
    intro contents reaches
    exact never contents ((dispose_reaches_set_pool w _ file pageNo contents).mp reaches)
  have live' : (w.setPool (w.bufMgr.discard file pageNo)).files file = some object := live
  obtain ⟨status, w', run, same, disk⟩ := dispose_page_refused live' discarded
  rw [← BufMgr.dispose_page_eq] at run
  have pool : w'.bufMgr = w.bufMgr.discard file pageNo := same.bufMgr
  rw [← pool_kept_iff orderly]
  constructor
  · intro wholly
    exact pool.symm.trans (wholly.refused status w' run).1
  · intro kept
    refine ⟨?_, ?_⟩
    · intro w'' run'
      rw [run] at run'
      cases run'
    · intro status' w'' run'
      rw [run] at run'
      cases run'
      refine ⟨pool.trans kept, ?_⟩
      intro fileName
      rw [disk]
      exact same_disk_refl w fileName

/-- In every pool that its calls can lead to, and for every state of the file. -/
theorem disposes_wholly_iff_may_dispose (pageNo : Int) :
    w.DisposesWholly file pageNo ↔ w.MayDispose file pageNo := by
  by_cases reached : ∃ contents, w.DisposeReaches file pageNo contents
  · obtain ⟨contents, reaches⟩ := reached
    have agree : ∀ other, w.DisposeReaches file pageNo other → other = contents := by
      intro other otherReaches
      have opened := otherReaches.opened
      rw [reaches.opened] at opened
      exact (Option.some.inj opened).symm
    by_cases calm : w.faults 3 = false
    · rw [reaches.disposes_iff orderly live calm]
      constructor
      · intro goes
        refine ⟨?_, ?_⟩
        · intro other otherReaches _
          rw [agree other otherReaches]
          exact goes
        · intro fault
          rw [fault contents reaches] at calm
          cases calm
      · exact fun may => may.taken contents reaches calm
    · have fault : w.faults 3 = true := by simpa using calm
      rw [reaches.breaks_off_iff orderly live fault]
      constructor
      · rintro ⟨absent, already⟩
        refine ⟨fun _ _ calm' => absurd calm' calm, fun _ => ⟨absent, ?_⟩⟩
        intro other otherReaches
        rw [agree other otherReaches]
        exact already
      · intro may
        obtain ⟨absent, already⟩ := may.kept fun _ _ => fault
        exact ⟨absent, already contents reaches⟩
  · have never : ∀ contents, ¬w.DisposeReaches file pageNo contents :=
      fun contents reaches => reached ⟨contents, reaches⟩
    rw [refused_wholly_iff orderly live never]
    constructor
    · exact fun absent => ⟨fun contents reaches => absurd reaches (never contents),
        fun _ => ⟨absent, fun contents reaches => absurd reaches (never contents)⟩⟩
    · exact fun may => (may.kept fun contents reaches => absurd reaches (never contents)).1

end Cases

/-- The file `f` with two pages, open at address 1, and a pool with one frame. -/
def twoPageWorld : World :=
  ((PageClient.newFile.call 1 .allocatePage).call 1 .allocatePage).world

theorem two_page_world_in_order : twoPageWorld.PoolInOrder :=
  ⟨BufMgr.new_orderly 1 (by decide), rfl⟩

theorem disposes_wholly_second_page : twoPageWorld.DisposesWholly 1 2 := by
  apply (disposes_wholly_iff_may_dispose two_page_world_in_order.orderly rfl 2).mpr
  have reaches : twoPageWorld.DisposeReaches 1 2 _ :=
    ⟨rfl, by decide, by decide, by decide, by decide, rfl, rfl, rfl⟩
  refine ⟨?_, fun fault => absurd (fault _ reaches) (by decide)⟩
  intro contents reaches' _
  have opened := reaches'.opened
  rw [reaches.opened] at opened
  obtain rfl := Option.some.inj opened
  refine ⟨?_, ?_⟩
  · rintro frame ⟨_, valid, _⟩
    cases valid
  · intro position
    rw [UnixFile.free_at_none rfl position]
    decide

/-- A page goes although it is pinned; and the first page, which is refused, is lost from the
pool together with the change that a client had reported. -/
theorem dispose_takes_pinned_and_loses_refused :
    ¬(BufMgr.readPage 1 2 twoPageWorld).2.DisposesWholly 1 2 ∧
      ¬(BufMgr.unPinPage 1 1 true (BufMgr.readPage 1 1 twoPageWorld).2).2.DisposesWholly 1 1 := by
  constructor
  · intro wholly
    have unpinned := (wholly.done _ rfl).1 0 ⟨by decide, by decide, by decide, by decide⟩
    revert unpinned
    decide
  · intro wholly
    have kept := (wholly.refused .BADPAGENO _ rfl).1
    have lookups := congrArg (fun pool : BufMgr => pool.hashTable.lookup 1 1) kept
    revert lookups
    decide

end World

end PrimitiveDB

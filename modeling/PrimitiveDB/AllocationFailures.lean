import PrimitiveDB.ClockReplacement

/-!
# Allocations that fail half-way

`allocPage` takes the page from the file first, looks for a frame then, and enters the page
into the hash table last. Nothing is given back when a later step fails: the page stays
allocated in the header of the file, and the page that had to make room stays out of the
table.
-/

namespace PrimitiveDB

open World

set_option autoImplicit false

namespace BufMgr

def evicted (pool : BufMgr) : BufHashTbl :=
  match pool.victim with
  | none => pool.hashTable
  | some frame =>
      (pool.removeEntry (pool.bufTable frame).file (pool.bufTable frame).pageNo).hashTable

theorem Orderly.alloc_buf_victim {w : World} (orderly : w.bufMgr.Orderly) :
    ∃ scanned, SameFrames w.bufMgr scanned ∧ scanned.hashTable = w.bufMgr.evicted ∧
      ((w.bufMgr.AllPinned ∧ w.bufMgr.victim = none ∧
          allocBuf w = (.err .BUFFEREXCEEDED, w.setPool scanned)) ∨
        (¬w.bufMgr.AllPinned ∧ w.bufMgr.victim = none ∧
          allocBuf w = (.ok scanned.clockHand, w.setPool scanned)) ∨
        (¬w.bufMgr.AllPinned ∧ w.bufMgr.victim = some scanned.clockHand ∧
          allocBuf w =
            if (w.bufMgr.bufTable scanned.clockHand).dirty then
              (File.writePage (w.bufMgr.bufTable scanned.clockHand).file
                (w.bufMgr.bufTable scanned.clockHand).pageNo
                (w.bufMgr.bufPool scanned.clockHand) >>= fun _ => pure scanned.clockHand)
                (w.setPool scanned)
            else (.ok scanned.clockHand, w.setPool scanned))) := by
  obtain ⟨same, bound, cases_⟩ :=
    clock_scan_outcome (2 * w.bufMgr.numBufs) 0 w.bufMgr orderly.hand
  have givesUp := clock_scan_gives_up w.bufMgr orderly.hand
  have equation := alloc_buf_eq w
  unfold evicted victim
  rcases scan : clockScan (2 * w.bufMgr.numBufs) 0 w.bufMgr with ⟨found, count, scanned⟩
  rw [scan] at same bound cases_ givesUp equation
  dsimp only at same bound cases_ givesUp equation ⊢
  rw [same.numBufs, same.dirty, same.file, same.pageNo, same.images] at equation
  rw [same.valid, same.pinCnt, same.file, same.pageNo] at cases_
  refine ⟨scanned, same, ?_⟩
  rcases cases_ with ⟨lost, counted, table⟩ | ⟨lost, _, table, invalid⟩ |
    ⟨taken, valid, unpinned, table⟩
  · rw [if_neg (by simp [lost])]
    refine ⟨table, .inl ⟨givesUp lost (by omega), rfl, ?_⟩⟩
    rw [equation, if_pos ⟨lost, by omega⟩]
  · rw [if_neg (by simp [lost])]
    have open_ : ¬w.bufMgr.AllPinned := by
      intro pinned
      rw [(pinned _ bound).1] at invalid
      cases invalid
    have clean := (orderly.free _ bound invalid).2.1
    refine ⟨table, .inr (.inl ⟨open_, rfl, ?_⟩)⟩
    rw [equation, if_neg, if_neg (by simp [clean])]
    rintro ⟨_, exhausted⟩
    exact open_ (givesUp lost exhausted)
  · rw [if_pos taken]
    have open_ : ¬w.bufMgr.AllPinned := by
      intro pinned
      have positive := (pinned _ bound).2
      omega
    refine ⟨table, .inr (.inr ⟨open_, rfl, ?_⟩)⟩
    rw [equation, if_neg]
    rintro ⟨lost, _⟩
    rw [taken] at lost
    cases lost

theorem lookup_evicted_victim {pool : BufMgr}
    (distinct : ChainedTable.DistinctKeys pool.hashTable.ht) {frame : Nat}
    (taken : pool.victim = some frame) (file : FilePtr) (pageNo : Int) :
    pool.evicted.lookup file pageNo =
      if (file, pageNo) = ((pool.bufTable frame).file, (pool.bufTable frame).pageNo) then none
      else pool.hashTable.lookup file pageNo := by
  unfold evicted
  rw [taken]
  exact BufHashTbl.lookup_remove distinct file pageNo

theorem Orderly.lookup_evicted_fewer {pool : BufMgr} (orderly : pool.Orderly) {file : FilePtr}
    {pageNo : Int} {frame : Nat} (found : pool.evicted.lookup file pageNo = some frame) :
    pool.hashTable.lookup file pageNo = some frame := by
  cases taken : pool.victim with
  | none =>
      unfold evicted at found
      rw [taken] at found
      exact found
  | some index =>
      rw [lookup_evicted_victim orderly.distinct taken] at found
      split_ifs at found
      exact found

theorem Orderly.alloc_buf_table {w : World} (orderly : w.bufMgr.Orderly) :
    (allocBuf w).2.bufMgr.hashTable = w.bufMgr.evicted := by
  obtain ⟨scanned, _, table, ⟨_, _, run⟩ | ⟨_, _, run⟩ | ⟨_, _, run⟩⟩ := orderly.alloc_buf_victim
  · rw [run]
    exact table
  · rw [run]
    exact table
  · rw [run]
    split_ifs
    · have quiet := File.write_page_moves (w.bufMgr.bufTable scanned.clockHand).file
        (w.bufMgr.bufTable scanned.clockHand).pageNo (w.bufMgr.bufPool scanned.clockHand)
        (w.setPool scanned)
      rw [DbM.bind_apply]
      rcases write : File.writePage (w.bufMgr.bufTable scanned.clockHand).file
        (w.bufMgr.bufTable scanned.clockHand).pageNo (w.bufMgr.bufPool scanned.clockHand)
        (w.setPool scanned) with ⟨_ | status | _, w'⟩ <;> rw [write] at quiet <;>
        exact (congrArg BufMgr.hashTable quiet.1.bufMgr).trans table
    · exact table

/-- The clock drops no entry if and only if the table did not know its victim's page. -/
theorem Orderly.lookup_evicted_iff {pool : BufMgr} (orderly : pool.Orderly) :
    (∀ file pageNo, pool.evicted.lookup file pageNo = pool.hashTable.lookup file pageNo) ↔
      ∀ frame, pool.victim = some frame →
        pool.hashTable.lookup (pool.bufTable frame).file (pool.bufTable frame).pageNo = none := by
  constructor
  · intro same frame taken
    rw [← same, lookup_evicted_victim orderly.distinct taken, if_pos rfl]
  · intro unknown file pageNo
    cases taken : pool.victim with
    | none =>
        unfold evicted
        rw [taken]
    | some frame =>
        rw [lookup_evicted_victim orderly.distinct taken]
        split_ifs with here
        · obtain ⟨rfl, rfl⟩ := Prod.mk.inj here
          exact (unknown frame taken).symm
        · rfl

/-- What `allocPage` does with the page that the file layer has given it. -/
def framePage (file : FilePtr) (pageNo : Int) : DbM (Int × Nat) := do
  let frameNo ← allocBuf
  let frameNo ← installPage file pageNo frameNo
  pure (pageNo, frameNo)

theorem alloc_page_eq (file : FilePtr) :
    allocPage file = File.allocatePage file >>= framePage file := rfl

end BufMgr

namespace World

variable {w w' : World} {file : FilePtr} {pageNo : Int} {object : File} {contents : UnixFile}

def SameHeaders (before after : World) : Prop :=
  ∀ file contents, before.unixFile file = some contents → 0 < contents.size →
    ∃ contents', after.unixFile file = some contents' ∧ 0 < contents'.size ∧
      contents'.page 0 = contents.page 0

theorem SameHeaders.refl (w : World) : SameHeaders w w :=
  fun _ contents opened headed => ⟨contents, opened, headed, rfl⟩

theorem write_page_headers (file : FilePtr) (pageNo : Int) (image : PageImage) (w : World) :
    SameHeaders w (File.writePage file pageNo image w).2 := by
  unfold File.writePage
  split_ifs with below
  · exact SameHeaders.refl w
  rcases File.intwrite_cases file pageNo image w with ⟨_, dead⟩ | failed |
    ⟨object, contents, live, opened, _, _, done⟩
  · rw [dead]
    exact SameHeaders.refl w
  · rw [failed]
    exact SameHeaders.refl w
  · rw [done]
    intro other contents' opened' headed
    obtain ⟨object', live', openFd', stored'⟩ := unix_file_live opened'
    by_cases same : object'.fileName = object.fileName
    · obtain ⟨object'', live'', _, stored⟩ := unix_file_live opened
      rw [live] at live''
      obtain rfl := Option.some.inj live''
      rw [same, stored] at stored'
      obtain rfl := Option.some.inj stored'
      refine ⟨contents.writeAt pageNo.toNat image, ?_, ?_, ?_⟩
      · simp [unixFile, live', openFd', setDisk, same, tick]
      · simp only [UnixFile.writeAt]
        omega
      · have elsewhere : 0 ≠ pageNo.toNat := by omega
        simp [UnixFile.writeAt, elsewhere, headed]
    · refine ⟨contents', ?_, headed, rfl⟩
      simp [unixFile, live', openFd', setDisk, same, stored', tick]

/-- The call number `calls` from now, a write of that page, would return an error. -/
def WriteRefused (w : World) (calls : Nat) (file : FilePtr) (pageNo : Int) : Prop :=
  pageNo < 1 ∨ w.files file ≠ none ∧ (w.faults calls = true ∨ w.unixFile file = none)

theorem write_page_refused_iff (file : FilePtr) (pageNo : Int) (image : PageImage) (w : World) :
    (∃ status, (File.writePage file pageNo image w).1 = .err status) ↔
      w.WriteRefused 0 file pageNo := by
  unfold File.writePage WriteRefused
  split_ifs with below
  · exact ⟨fun _ => .inl below, fun _ => ⟨_, rfl⟩⟩
  constructor
  · rintro ⟨status, failed⟩
    refine .inr ⟨?_, ?_⟩
    · intro dead
      rw [show File.intwrite file pageNo image w = (.crash, w) by
        simp [File.intwrite, File.deref, DbM.bind_apply, dead]] at failed
      cases failed
    · by_contra goes
      push Not at goes
      obtain ⟨calm, opened⟩ := goes
      obtain ⟨contents, opened⟩ := Option.ne_none_iff_exists'.mp opened
      obtain ⟨object, live, _⟩ := unix_file_live opened
      rw [File.intwrite_ok live opened (by simpa using calm) (by omega)] at failed
      cases failed
  · rintro (lower | ⟨alive, stops⟩)
    · exact absurd lower below
    · rcases File.intwrite_cases file pageNo image w with ⟨dead, _⟩ | failed |
        ⟨_, contents, _, opened, calm, _⟩
      · exact absurd dead alive
      · exact ⟨_, by rw [failed]⟩
      · rcases stops with fault | closed
        · rw [calm] at fault
          cases fault
        · rw [opened] at closed
          cases closed

theorem write_page_ok_succeeds {image : PageImage}
    (write : File.writePage file pageNo image w = (.ok (), w')) :
    w.WriteSucceeds 0 file pageNo := by
  unfold File.writePage at write
  split_ifs at write with below
  · cases write
  · obtain ⟨_, contents, _, opened, calm, _⟩ := File.intwrite_inv write
    exact ⟨by omega, calm, contents, opened⟩

/-- No frame can be had for the page: all are pinned, the victim of the clock cannot be
stored, or the table has the page already. -/
def FrameRefused (w : World) (calls : Nat) (file : FilePtr) (pageNo : Int) : Prop :=
  w.bufMgr.AllPinned ∨
    (∃ frame, w.bufMgr.victim = some frame ∧ (w.bufMgr.bufTable frame).dirty = true ∧
      w.WriteRefused calls (w.bufMgr.bufTable frame).file (w.bufMgr.bufTable frame).pageNo) ∨
    (¬w.bufMgr.AllPinned ∧
      (∀ frame, w.bufMgr.victim = some frame → BufMgr.WriteBackSucceeds w calls frame) ∧
      w.bufMgr.evicted.lookup file pageNo ≠ none)

/-- The last step: the page is entered into the table, unless it is there already. -/
theorem install_page_outcome (w : World) (file : FilePtr) (pageNo : Int) (frame : Nat) :
    ((∃ status, (BufMgr.installPage file pageNo frame w).1 = .err status) ↔
        w.bufMgr.hashTable.lookup file pageNo ≠ none) ∧
      (∀ status w', BufMgr.installPage file pageNo frame w = (.err status, w') →
        w'.bufMgr.hashTable = w.bufMgr.hashTable ∧ w'.disk = w.disk ∧ w'.files = w.files) := by
  rw [BufMgr.install_page_eq]
  dsimp only
  cases inserted : w.bufMgr.hashTable.insert file pageNo frame with
  | none =>
      refine ⟨⟨?_, fun _ => ⟨_, rfl⟩⟩, ?_⟩
      · intro _ absent
        obtain ⟨table, inserts⟩ := BufHashTbl.insert_of_absent frame absent
        rw [inserted] at inserts
        cases inserts
      · intro status w' run
        cases run
        exact ⟨rfl, rfl, rfl⟩
  | some table =>
      refine ⟨⟨?_, ?_⟩, ?_⟩
      · rintro ⟨status, failed⟩
        cases failed
      · intro known
        have twice : w.bufMgr.hashTable.insert file pageNo frame = none := by
          unfold BufHashTbl.insert
          rw [(ChainedTable.insert_eq_none_iff frame).mpr (Option.isSome_iff_ne_none.mpr known)]
          rfl
        rw [inserted] at twice
        cases twice
      · intro status w' run
        cases run

/-- The two outcomes of looking for a frame that matter to the file: an error, with the victim
gone from the table and the header pages as they were, or something else. -/
structure FrameOutcome (w : World) (file : FilePtr) (pageNo : Int)
    (result : Outcome (Int × Nat) × World) : Prop where
  refused_iff : (∃ status, result.1 = .err status) ↔ w.FrameRefused 0 file pageNo
  leaves : ∀ status w', result = (.err status, w') →
    w'.bufMgr.hashTable = w.bufMgr.evicted ∧ SameHeaders w w'

theorem FrameOutcome.install {w₁ : World} {frame : Nat}
    (table : w₁.bufMgr.hashTable = w.bufMgr.evicted) (headers : SameHeaders w w₁)
    (free : ¬w.bufMgr.AllPinned)
    (stores : ∀ index, w.bufMgr.victim = some index → BufMgr.WriteBackSucceeds w 0 index) :
    w.FrameOutcome file pageNo
      ((BufMgr.installPage file pageNo frame >>= fun frameNo => pure (pageNo, frameNo)) w₁) := by
  obtain ⟨refused, kept⟩ := install_page_outcome w₁ file pageNo frame
  rw [table] at refused
  have condition : w.FrameRefused 0 file pageNo ↔ w.bufMgr.evicted.lookup file pageNo ≠ none := by
    constructor
    · rintro (pinned | ⟨index, taken, dirty, writeRefused⟩ | ⟨_, _, known⟩)
      · exact absurd pinned free
      · obtain ⟨object, contents, _, _, write⟩ :=
          File.write_page_succeeds (stores index taken dirty) PageImage.zero
        obtain ⟨status, failed⟩ := (write_page_refused_iff _ _ PageImage.zero w).mpr writeRefused
        rw [write] at failed
        cases failed
      · exact known
    · exact fun known => .inr (.inr ⟨free, stores, known⟩)
  rw [DbM.bind_apply]
  rcases install : BufMgr.installPage file pageNo frame w₁ with ⟨value | status | _, w₂⟩ <;>
    rw [install] at refused
  · have known : ¬w.bufMgr.evicted.lookup file pageNo ≠ none := by
      rw [← refused]
      rintro ⟨status, failed⟩
      cases failed
    refine ⟨?_, ?_⟩
    · rw [condition]
      refine ⟨?_, fun wrong => absurd wrong known⟩
      rintro ⟨status, failed⟩
      cases failed
    · intro status w' failed
      cases failed
  · obtain ⟨sameTable, disk, files⟩ := kept status w₂ install
    refine ⟨?_, ?_⟩
    · rw [condition, ← refused]
      exact ⟨fun _ => ⟨status, rfl⟩, fun _ => ⟨status, rfl⟩⟩
    · intro status' w' failed
      cases failed
      refine ⟨sameTable.trans table, ?_⟩
      intro other contents opened headed
      obtain ⟨contents', opened', headed', same⟩ := headers other contents opened headed
      refine ⟨contents', ?_, headed', same⟩
      unfold unixFile at opened' ⊢
      rw [files, disk]
      exact opened'
  · have known : ¬w.bufMgr.evicted.lookup file pageNo ≠ none := by
      rw [← refused]
      rintro ⟨status, failed⟩
      cases failed
    refine ⟨?_, ?_⟩
    · rw [condition]
      refine ⟨?_, fun wrong => absurd wrong known⟩
      rintro ⟨status, failed⟩
      cases failed
    · intro status w' failed
      cases failed

theorem frame_page_outcome (orderly : w.bufMgr.Orderly) (file : FilePtr) (pageNo : Int) :
    w.FrameOutcome file pageNo (BufMgr.framePage file pageNo w) := by
  obtain ⟨scanned, same, table, cases_⟩ := orderly.alloc_buf_victim
  have scannedHeaders : SameHeaders w (w.setPool scanned) :=
    fun _ contents opened headed => ⟨contents, opened, headed, rfl⟩
  unfold BufMgr.framePage
  rcases cases_ with ⟨pinned, _, run⟩ | ⟨free, none_, run⟩ | ⟨free, taken, run⟩
  · rw [DbM.bind_err run]
    refine ⟨⟨fun _ => .inl pinned, fun _ => ⟨_, rfl⟩⟩, ?_⟩
    intro status w' failed
    cases failed
    exact ⟨table, scannedHeaders⟩
  · rw [DbM.bind_ok run]
    apply FrameOutcome.install table scannedHeaders free
    intro index taken
    rw [none_] at taken
    cases taken
  · have chosen : ∀ index, w.bufMgr.victim = some index → index = scanned.clockHand := by
      intro index found
      rw [taken] at found
      exact (Option.some.inj found).symm
    by_cases dirty : (w.bufMgr.bufTable scanned.clockHand).dirty = true
    · rw [if_pos dirty] at run
      have refuses := write_page_refused_iff (w.bufMgr.bufTable scanned.clockHand).file
        (w.bufMgr.bufTable scanned.clockHand).pageNo (w.bufMgr.bufPool scanned.clockHand)
        (w.setPool scanned)
      have headers : SameHeaders w (File.writePage (w.bufMgr.bufTable scanned.clockHand).file
          (w.bufMgr.bufTable scanned.clockHand).pageNo (w.bufMgr.bufPool scanned.clockHand)
          (w.setPool scanned)).2 := write_page_headers _ _ _ (w.setPool scanned)
      have quiet := File.write_page_moves (w.bufMgr.bufTable scanned.clockHand).file
        (w.bufMgr.bufTable scanned.clockHand).pageNo (w.bufMgr.bufPool scanned.clockHand)
        (w.setPool scanned)
      rw [DbM.bind_apply] at run
      rcases write : File.writePage (w.bufMgr.bufTable scanned.clockHand).file
        (w.bufMgr.bufTable scanned.clockHand).pageNo (w.bufMgr.bufPool scanned.clockHand)
        (w.setPool scanned) with ⟨_ | status | _, w₁⟩ <;> rw [write] at run refuses headers quiet
      · have run' : BufMgr.allocBuf w = (.ok scanned.clockHand, w₁) := run
        rw [DbM.bind_ok run']
        apply FrameOutcome.install (by rw [quiet.1.bufMgr]; exact table) headers free
        intro index found _
        rw [chosen index found]
        have ready := write_page_ok_succeeds write
        exact ready
      · have run' : BufMgr.allocBuf w = (.err status, w₁) := run
        rw [DbM.bind_err run']
        refine ⟨⟨fun _ => .inr (.inl ⟨_, taken, dirty, refuses.mp ⟨status, rfl⟩⟩),
          fun _ => ⟨status, rfl⟩⟩, ?_⟩
        intro status' w' failed
        cases failed
        exact ⟨by rw [quiet.1.bufMgr]; exact table, headers⟩
      · have run' : BufMgr.allocBuf w = (.crash, w₁) := run
        rw [DbM.bind_apply, run']
        refine ⟨⟨?_, ?_⟩, ?_⟩
        · rintro ⟨status, failed⟩
          cases failed
        · rintro (pinned | ⟨index, found, _, writeRefused⟩ | ⟨_, stores, _⟩)
          · exact absurd pinned free
          · rw [chosen index found] at writeRefused
            obtain ⟨status, failed⟩ := refuses.mpr writeRefused
            cases failed
          · have ready : (w.setPool scanned).WriteSucceeds 0
                (w.bufMgr.bufTable scanned.clockHand).file
                (w.bufMgr.bufTable scanned.clockHand).pageNo := stores _ taken dirty
            obtain ⟨_, _, _, _, done⟩ :=
              File.write_page_succeeds ready (w.bufMgr.bufPool scanned.clockHand)
            rw [write] at done
            cases done
        · intro status w' failed
          cases failed
    · rw [if_neg dirty] at run
      rw [DbM.bind_ok run]
      apply FrameOutcome.install table scannedHeaders free
      intro index found dirty'
      rw [chosen index found] at dirty'
      exact absurd dirty' dirty

/-- The file layer gets as far as writing the header page: it has read what it needs, and
where the file has to be extended the new page has been written. -/
structure AllocateReaches (w : World) (file : FilePtr) (contents : UnixFile) : Prop where
  opened : w.unixFile file = some contents
  headed : 0 < contents.size
  listed : (contents.page 0).asDBPage.nextFree ≠ -1 →
    0 ≤ (contents.page 0).asDBPage.nextFree ∧
      (contents.page 0).asDBPage.nextFree < contents.size
  unlisted : (contents.page 0).asDBPage.nextFree = -1 → 0 ≤ (contents.page 0).asDBPage.numPages
  calm : w.faults 0 = false ∧ w.faults 1 = false

def grantedHeader (contents : UnixFile) : DBPage :=
  let db := (contents.page 0).asDBPage
  if db.nextFree ≠ -1 then
    { db with nextFree := (contents.page db.nextFree.toNat).asDBPage.nextFree }
  else
    { db with
      numPages := db.numPages + 1
      firstPage := if db.firstPage = -1 then db.numPages else db.firstPage }

def prepared (contents : UnixFile) : UnixFile :=
  if (contents.page 0).asDBPage.nextFree ≠ -1 then contents
  else contents.writeAt (contents.page 0).asDBPage.numPages.toNat PageImage.zero

/-- Only a free page that is its own successor leaves the header as it was. -/
theorem granted_header_same_iff (contents : UnixFile) :
    grantedHeader contents = (contents.page 0).asDBPage ↔
      (contents.page 0).asDBPage.nextFree ≠ -1 ∧
        (contents.page (contents.page 0).asDBPage.nextFree.toNat).asDBPage.nextFree =
          (contents.page 0).asDBPage.nextFree := by
  unfold grantedHeader
  dsimp only
  split_ifs with listed
  · constructor
    · intro same
      have linked := congrArg DBPage.nextFree same
      exact ⟨listed, linked⟩
    · intro same
      rw [same.2]
  all_goals
    constructor
    · intro same
      have counted := congrArg DBPage.numPages same
      dsimp only at counted
      omega
    · exact fun same => absurd same.1 listed

theorem AllocateReaches.run (reaches : w.AllocateReaches file contents)
    (live : w.files file = some object) :
    ∃ image w₁, image.asDBPage = grantedHeader contents ∧ SameMemory w w₁ ∧
      (∀ calls, w₁.faults calls = w.faults (calls + 2)) ∧
      w₁.disk = Function.update w.disk object.fileName (some (prepared contents)) ∧
      File.allocatePage file w =
        (File.intwrite file 0 image >>= fun _ =>
          pure (File.nextPageNo (contents.page 0).asDBPage)) w₁ := by
  have readHeader := File.intread_ok reaches.opened reaches.calm.1 (le_refl (0 : Int))
    (by have := reaches.headed; omega)
  rw [Int.toNat_zero] at readHeader
  obtain ⟨object', live', _, stored⟩ := unix_file_live reaches.opened
  rw [live] at live'
  obtain rfl := Option.some.inj live'
  unfold File.allocatePage File.nextPageNo prepared
  rw [DbM.bind_ok readHeader]
  dsimp only
  by_cases listed : (contents.page 0).asDBPage.nextFree ≠ -1
  · obtain ⟨lower, upper⟩ := reaches.listed listed
    have opened : w.tick.unixFile file = some contents := reaches.opened
    have readFree := File.intread_ok opened reaches.calm.2 lower upper
    rw [if_pos listed, if_pos listed, if_pos listed, DbM.bind_ok readFree]
    refine ⟨_, w.tick.tick, ?_, ⟨rfl, rfl, rfl, rfl, rfl, rfl, rfl⟩, fun _ => rfl, ?_, rfl⟩
    · unfold grantedHeader
      rw [if_pos listed]
      rfl
    · rw [← stored, Function.update_eq_self]
      rfl
  · have none_ : (contents.page 0).asDBPage.nextFree = -1 := by simpa using listed
    have opened : w.tick.unixFile file = some contents := reaches.opened
    have live' : w.tick.files file = some object := live
    have extend := File.intwrite_ok live' opened reaches.calm.2 (reaches.unlisted none_)
      PageImage.zero
    rw [if_neg listed, if_neg listed, if_neg listed, DbM.bind_ok extend]
    refine ⟨_, w.tick.tick.setDisk object.fileName (some (contents.writeAt
      (contents.page 0).asDBPage.numPages.toNat PageImage.zero)), ?_,
      ⟨rfl, rfl, rfl, rfl, rfl, rfl, rfl⟩, fun _ => rfl, rfl, rfl⟩
    unfold grantedHeader
    rw [if_neg listed]
    rfl

def headerOf (w : World) (file : FilePtr) : Option DBPage :=
  (w.unixFile file).map fun contents => (contents.page 0).asDBPage

theorem AllocateReaches.grants (reaches : w.AllocateReaches file contents)
    (calm : w.faults 2 = false) :
    ∃ w', File.allocatePage file w = (.ok (File.nextPageNo (contents.page 0).asDBPage), w') ∧
      SameMemory w w' ∧ (∀ calls, w'.faults calls = w.faults (calls + 3)) ∧
      (∀ other, w'.unixFile other = none ↔ w.unixFile other = none) ∧
      ∃ after, w'.unixFile file = some after ∧ 0 < after.size ∧
        (after.page 0).asDBPage = grantedHeader contents := by
  obtain ⟨object, live, openFd, stored⟩ := unix_file_live reaches.opened
  obtain ⟨image, w₁, granted, same, faults, disk, run⟩ := reaches.run live
  have live₁ : w₁.files file = some object := by rw [same.files]; exact live
  have opened₁ : w₁.unixFile file = some (prepared contents) := by
    simp [unixFile, live₁, openFd, disk]
  have calm₁ : w₁.faults 0 = false := by rw [faults]; exact calm
  have write := File.intwrite_ok live₁ opened₁ calm₁ (le_refl (0 : Int)) image
  rw [DbM.bind_ok write] at run
  have headed := reaches.headed
  refine ⟨_, run, ⟨same.1, same.2, same.3, same.4, same.5, same.6, same.7⟩,
    fun calls => faults (calls + 1), ?_, _, unix_file_set_disk live₁ openFd _, ?_, ?_⟩
  · intro other
    have files : w₁.files = w.files := same.files
    change (w₁.tick.setDisk object.fileName _).unixFile other = none ↔ _
    simp only [unixFile, setDisk, tick, files, disk]
    cases otherLive : w.files other with
    | none => simp
    | some object' =>
        by_cases here : object'.fileName = object.fileName
        · simp [here, stored]
        · simp [Function.update_of_ne here]
  · simp only [UnixFile.writeAt]
    omega
  · rw [Int.toNat_zero, UnixFile.write_at_self]
    exact granted

theorem AllocateReaches.breaks_off (reaches : w.AllocateReaches file contents)
    (fault : w.faults 2 = true) :
    ∃ w', File.allocatePage file w = (.err .UNIXERR, w') ∧ SameMemory w w' ∧
      w'.unixFile file = some (prepared contents) := by
  obtain ⟨object, live, openFd, stored⟩ := unix_file_live reaches.opened
  obtain ⟨image, w₁, granted, same, faults, disk, run⟩ := reaches.run live
  have live₁ : w₁.files file = some object := by rw [same.files]; exact live
  have opened₁ : w₁.unixFile file = some (prepared contents) := by
    simp [unixFile, live₁, openFd, disk]
  rcases File.intwrite_cases file 0 image w₁ with ⟨dead, _⟩ | failed | ⟨_, _, _, _, calm, _⟩
  · rw [live₁] at dead
    cases dead
  · rw [DbM.bind_err failed] at run
    exact ⟨_, run, ⟨same.1, same.2, same.3, same.4, same.5, same.6, same.7⟩, opened₁⟩
  · rw [faults, fault] at calm
    cases calm

/-- A file layer that does not get as far as the header leaves the header alone. -/
theorem allocate_page_refused (never : ∀ contents, ¬w.AllocateReaches file contents)
    (status : Status) (w' : World) (run : File.allocatePage file w = (.err status, w')) :
    w'.bufMgr = w.bufMgr ∧ w'.headerOf file = w.headerOf file := by
  unfold File.allocatePage at run
  rcases File.intread_cases file 0 w with ⟨_, dead⟩ | failed |
    ⟨contents, opened, calm, _, headed, readHeader⟩
  · rw [DbM.bind_apply, dead] at run
    cases run
  · rw [DbM.bind_err failed] at run
    cases run
    exact ⟨rfl, rfl⟩
  rw [DbM.bind_ok readHeader] at run
  rw [Int.toNat_zero] at run
  dsimp only at run
  have alive : w.files file ≠ none := by
    obtain ⟨object, live, _⟩ := unix_file_live opened
    rw [live]
    exact Option.some_ne_none object
  split_ifs at run with listed
  · rcases File.intread_cases file (contents.page 0).asDBPage.nextFree w.tick with ⟨dead, _⟩ |
      failed | ⟨contents', opened', calm', lower, upper, readFree⟩
    · exact absurd dead alive
    · rw [DbM.bind_err failed] at run
      cases run
      exact ⟨rfl, rfl⟩
    · have same : contents' = contents := by
        have opened'' : w.unixFile file = some contents' := opened'
        rw [opened] at opened''
        exact (Option.some.inj opened'').symm
      subst same
      exact absurd ⟨opened, by omega, fun _ => ⟨lower, upper⟩, fun none_ => absurd none_ listed,
        calm, calm'⟩ (never contents')
  all_goals
    have none_ : (contents.page 0).asDBPage.nextFree = -1 := by simpa using listed
    rcases File.intwrite_cases file (contents.page 0).asDBPage.numPages PageImage.zero w.tick with
      ⟨dead, _⟩ | failed | ⟨_, _, _, _, calm', lower, _⟩
    · exact absurd dead alive
    · rw [DbM.bind_err failed] at run
      cases run
      exact ⟨rfl, rfl⟩
    · exact absurd ⟨opened, by omega, fun some_ => absurd none_ some_, fun _ => lower, calm, calm'⟩
        (never contents)

theorem allocate_page_reaches (run : File.allocatePage file w = (.ok pageNo, w')) :
    ∃ contents, w.AllocateReaches file contents := by
  unfold File.allocatePage at run
  obtain ⟨header, w₁, readHeader, run⟩ := DbM.bind_eq_ok_iff.mp run
  obtain ⟨contents, opened, calm, _, headed, rfl, rfl⟩ := File.intread_inv readHeader
  have positive : 0 < contents.size := by omega
  refine ⟨contents, ?_⟩
  simp only [Int.toNat_zero] at run
  split_ifs at run with listed
  · obtain ⟨firstFree, w₂, readFree, run⟩ := DbM.bind_eq_ok_iff.mp run
    obtain ⟨contents', opened', calm', lower, upper, _⟩ := File.intread_inv readFree
    have opened'' : w.unixFile file = some contents' := opened'
    rw [opened] at opened''
    obtain rfl := Option.some.inj opened''
    exact ⟨opened, positive, fun _ => ⟨lower, upper⟩, fun none_ => absurd none_ listed, calm,
      calm'⟩
  all_goals
    obtain ⟨_, w₂, extend, _⟩ := DbM.bind_eq_ok_iff.mp run
    obtain ⟨_, _, _, _, calm', lower, _⟩ := File.intwrite_inv extend
    exact ⟨opened, positive, fun some_ => absurd some_ listed, fun _ => lower, calm, calm'⟩

/-- An allocation that fails leaves the header of the file and the table of pages as they
were. -/
def LeaksNothing (w : World) (file : FilePtr) : Prop :=
  ∀ status w', BufMgr.allocPage file w = (.err status, w') →
    w'.headerOf file = w.headerOf file ∧
      ∀ other otherNo, w'.bufMgr.hashTable.lookup other otherNo =
        w.bufMgr.hashTable.lookup other otherNo

/-- Whenever the file layer has a page to give, a frame can be had for it, or nothing is moved:
the page is its own successor on the free list and no entry is dropped from the table. Where
the file layer breaks off after extending the file, it was not page 0 that it wrote. -/
structure MayAllocate (w : World) (file : FilePtr) : Prop where
  granted : ∀ contents, w.AllocateReaches file contents → w.faults 2 = false →
    w.FrameRefused 3 file (File.nextPageNo (contents.page 0).asDBPage) →
    ((contents.page 0).asDBPage.nextFree ≠ -1 ∧
        (contents.page (contents.page 0).asDBPage.nextFree.toNat).asDBPage.nextFree =
          (contents.page 0).asDBPage.nextFree) ∧
      ∀ frame, w.bufMgr.victim = some frame →
        w.bufMgr.hashTable.lookup (w.bufMgr.bufTable frame).file
          (w.bufMgr.bufTable frame).pageNo = none
  extended : ∀ contents, w.AllocateReaches file contents → w.faults 2 = true →
    (contents.page 0).asDBPage.nextFree = -1 → (contents.page 0).asDBPage.numPages ≠ 0

theorem frame_refused_later {calls : Nat} (same : SameMemory w w')
    (faults : ∀ n, w'.faults n = w.faults (n + calls))
    (files : ∀ other, w'.unixFile other = none ↔ w.unixFile other = none) (file : FilePtr)
    (pageNo : Int) : w'.FrameRefused 0 file pageNo ↔ w.FrameRefused calls file pageNo := by
  have refused : ∀ other otherNo, w'.WriteRefused 0 other otherNo ↔
      w.WriteRefused calls other otherNo := by
    intro other otherNo
    unfold WriteRefused
    rw [same.files, faults, Nat.zero_add, files]
  have succeeds : ∀ frame, BufMgr.WriteBackSucceeds w' 0 frame ↔
      BufMgr.WriteBackSucceeds w calls frame := by
    intro frame
    unfold BufMgr.WriteBackSucceeds WriteSucceeds
    rw [same.bufMgr, faults, Nat.zero_add]
    simp only [← Option.ne_none_iff_exists', ne_eq, files]
  unfold FrameRefused
  simp only [same.bufMgr, refused, succeeds]

theorem AllocateReaches.leaks_nothing_iff (orderly : w.bufMgr.Orderly)
    (reaches : w.AllocateReaches file contents) (calm : w.faults 2 = false) :
    w.LeaksNothing file ↔
      (w.FrameRefused 3 file (File.nextPageNo (contents.page 0).asDBPage) →
        grantedHeader contents = (contents.page 0).asDBPage ∧
          ∀ other otherNo, w.bufMgr.evicted.lookup other otherNo =
            w.bufMgr.hashTable.lookup other otherNo) := by
  obtain ⟨w₁, run, same, faults, files, after, opened, headed, granted⟩ := reaches.grants calm
  have orderly₁ : w₁.bufMgr.Orderly := by rw [same.bufMgr]; exact orderly
  have outcome := frame_page_outcome orderly₁ file (File.nextPageNo (contents.page 0).asDBPage)
  have later := frame_refused_later same faults files file
    (File.nextPageNo (contents.page 0).asDBPage)
  have before : w.headerOf file = some (contents.page 0).asDBPage := by
    unfold headerOf
    rw [reaches.opened]
    rfl
  -- the world in which the call fails
  have left : ∀ status w', BufMgr.allocPage file w = (.err status, w') →
      w'.headerOf file = some (grantedHeader contents) ∧
        w'.bufMgr.hashTable = w.bufMgr.evicted := by
    intro status w' failed
    rw [BufMgr.alloc_page_eq, DbM.bind_ok run] at failed
    obtain ⟨table, headers⟩ := outcome.leaves status w' failed
    obtain ⟨contents', opened', _, samePage⟩ := headers file after opened headed
    refine ⟨?_, by rw [table, same.bufMgr]⟩
    unfold headerOf
    rw [opened', Option.map_some, samePage, granted]
  constructor
  · intro leaks refused
    obtain ⟨status, failed⟩ := outcome.refused_iff.mpr (later.mpr refused)
    rcases rest : BufMgr.framePage file (File.nextPageNo (contents.page 0).asDBPage) w₁ with
      ⟨result, w'⟩
    rw [rest] at failed
    dsimp only at failed
    subst failed
    have whole : BufMgr.allocPage file w = (.err status, w') := by
      rw [BufMgr.alloc_page_eq, DbM.bind_ok run]
      exact rest
    obtain ⟨header, table⟩ := left status w' whole
    obtain ⟨headerKept, tableKept⟩ := leaks status w' whole
    rw [header, before] at headerKept
    rw [table] at tableKept
    exact ⟨Option.some.inj headerKept, tableKept⟩
  · intro keeps status w' failed
    obtain ⟨header, table⟩ := left status w' failed
    have refused : w.FrameRefused 3 file (File.nextPageNo (contents.page 0).asDBPage) := by
      apply later.mp
      apply outcome.refused_iff.mp
      rw [BufMgr.alloc_page_eq, DbM.bind_ok run] at failed
      exact ⟨status, by rw [failed]⟩
    obtain ⟨headerKept, tableKept⟩ := keeps refused
    rw [header, before, headerKept, table]
    exact ⟨rfl, tableKept⟩

theorem AllocateReaches.break_leaks_nothing_iff (reaches : w.AllocateReaches file contents)
    (fault : w.faults 2 = true) :
    w.LeaksNothing file ↔
      ((contents.page 0).asDBPage.nextFree = -1 → (contents.page 0).asDBPage.numPages ≠ 0) := by
  obtain ⟨w', run, same, opened⟩ := reaches.breaks_off fault
  have whole : BufMgr.allocPage file w = (.err .UNIXERR, w') := by
    rw [BufMgr.alloc_page_eq, DbM.bind_err run]
  have before : w.headerOf file = some (contents.page 0).asDBPage := by
    unfold headerOf
    rw [reaches.opened]
    rfl
  have after : w'.headerOf file = some ((prepared contents).page 0).asDBPage := by
    unfold headerOf
    rw [opened]
    rfl
  constructor
  · intro leaks none_ zero
    obtain ⟨header, _⟩ := leaks _ _ whole
    rw [after, before] at header
    have moved := congrArg DBPage.nextFree (Option.some.inj header)
    unfold prepared at moved
    rw [if_neg (by simp [none_]), none_, zero, Int.toNat_zero, UnixFile.write_at_self] at moved
    exact absurd moved (by decide)
  · intro keeps status w'' failed
    rw [whole] at failed
    cases failed
    refine ⟨?_, fun _ _ => by rw [same.bufMgr]⟩
    rw [after, before]
    unfold prepared
    split_ifs with listed
    · rfl
    · have none_ : (contents.page 0).asDBPage.nextFree = -1 := by simpa using listed
      have lower := reaches.unlisted none_
      have headed := reaches.headed
      have positive := keeps none_
      rw [UnixFile.write_at_other contents PageImage.zero (by omega) headed]

/-- In every pool that its calls can lead to, and for every state of the file. -/
theorem leaks_nothing_iff_may_allocate (orderly : w.bufMgr.Orderly) :
    w.LeaksNothing file ↔ w.MayAllocate file := by
  by_cases reached : ∃ contents, w.AllocateReaches file contents
  · obtain ⟨contents, reaches⟩ := reached
    have agree : ∀ other, w.AllocateReaches file other → other = contents := by
      intro other otherReaches
      have opened := otherReaches.opened
      rw [reaches.opened] at opened
      exact (Option.some.inj opened).symm
    by_cases calm : w.faults 2 = false
    · rw [reaches.leaks_nothing_iff orderly calm, granted_header_same_iff,
        orderly.lookup_evicted_iff]
      constructor
      · intro keeps
        refine ⟨?_, ?_⟩
        · intro other otherReaches _
          rw [agree other otherReaches]
          exact keeps
        · intro other _ fault
          rw [calm] at fault
          cases fault
      · exact fun may => may.granted contents reaches calm
    · have fault : w.faults 2 = true := by simpa using calm
      rw [reaches.break_leaks_nothing_iff fault]
      constructor
      · intro keeps
        refine ⟨fun _ _ calm' => absurd calm' calm, ?_⟩
        intro other otherReaches _
        rw [agree other otherReaches]
        exact keeps
      · exact fun may => may.extended contents reaches fault
  · have never : ∀ contents, ¬w.AllocateReaches file contents :=
      fun contents reaches => reached ⟨contents, reaches⟩
    constructor
    · exact fun _ => ⟨fun contents reaches => absurd reaches (never contents),
        fun contents reaches => absurd reaches (never contents)⟩
    · intro _ status w' failed
      rw [BufMgr.alloc_page_eq, DbM.bind_apply] at failed
      rcases run : File.allocatePage file w with ⟨pageNo | status' | _, w₁⟩ <;>
        rw [run] at failed
      · obtain ⟨contents, reaches⟩ := allocate_page_reaches run
        exact absurd reaches (never contents)
      · cases failed
        obtain ⟨pool, header⟩ := allocate_page_refused never status w' run
        exact ⟨header, fun _ _ => by rw [pool]⟩
      · cases failed

def deadDiskWorld : World :=
  { (BufMgr.readPage 1 1 BufMgr.onePageWorld).2 with faults := fun _ => true }

theorem leaks_nothing_dead_disk :
    (BufMgr.allocPage 1 deadDiskWorld).1 = .err .UNIXERR ∧ deadDiskWorld.LeaksNothing 1 := by
  have order : BufMgr.onePageWorld.PoolInOrder := ⟨BufMgr.new_orderly 1 (by decide), rfl⟩
  have orderly : deadDiskWorld.bufMgr.Orderly := (order.read_page 1 1).orderly
  refine ⟨by decide, (leaks_nothing_iff_may_allocate orderly).mpr ⟨?_, ?_⟩⟩
  · intro contents reaches
    cases reaches.calm.1
  · intro contents reaches
    cases reaches.calm.1

/-- The only frame is pinned, and the file has a page more all the same. -/
theorem allocation_leaks_with_every_frame_pinned :
    ¬(BufMgr.readPage 1 1 BufMgr.onePageWorld).2.LeaksNothing 1 := by
  intro leaks
  have header := (leaks .BUFFEREXCEEDED _ rfl).1
  revert header
  decide

end World

end PrimitiveDB

import PrimitiveDB.BufferPoolResidency
import PrimitiveDB.FileLayerRules

/-!
# Residency under failing file calls

The hash table and the frame descriptors agree after every buffer-manager call
as long as no file call fails between the moment `allocBuf` takes a valid frame
out of the hash table and the `Set` of that frame, and as long as the file
layer does not hand out a page that is already in the pool. A failure in that
window leaves a valid frame that the hash table does not know, which is what
the run at the end of this module shows.
-/

namespace PrimitiveDB.BufMgr

open World

set_option autoImplicit false

/-- The valid frame that the clock would take for the next page, if it stops at
one. -/
def victim (pool : BufMgr) : Option Nat :=
  let result := clockScan (2 * pool.numBufs) 0 pool
  if result.1 then some result.2.2.clockHand else none

/-- `allocBuf` gives up, finds an unused frame, or takes its victim and writes it
back if it is dirty. -/
theorem alloc_buf_cases (w : World) (res : w.bufMgr.Residency) :
    ∃ scanned, SameFrames w.bufMgr scanned ∧
      ((w.bufMgr.victim = none ∧ scanned.Residency ∧
          (∀ frame, frame < w.bufMgr.numBufs → 0 < (w.bufMgr.bufTable frame).pinCnt) ∧
          allocBuf w = (.err .BUFFEREXCEEDED, w.setPool scanned)) ∨
        (w.bufMgr.victim = none ∧ scanned.Residency ∧
          scanned.hashTable = w.bufMgr.hashTable ∧
          (scanned.bufTable scanned.clockHand).valid = false ∧
          allocBuf w = (.ok scanned.clockHand, w.setPool scanned)) ∨
        (w.bufMgr.victim = some scanned.clockHand ∧
          (scanned.bufTable scanned.clockHand).valid = true ∧
          ResidencyApart scanned scanned.clockHand ∧
          allocBuf w =
            if (scanned.bufTable scanned.clockHand).dirty then
              (File.writePage (scanned.bufTable scanned.clockHand).file
                (scanned.bufTable scanned.clockHand).pageNo
                (scanned.bufPool scanned.clockHand) >>= fun _ => pure scanned.clockHand)
                (w.setPool scanned)
            else (.ok scanned.clockHand, w.setPool scanned))) := by
  obtain ⟨same, cases_⟩ := clock_scan_spec (2 * w.bufMgr.numBufs) 0 w.bufMgr res
  have equation := alloc_buf_eq w
  have givesUp := clock_scan_gives_up w.bufMgr res.hand
  simp only [victim]
  rcases scan : clockScan (2 * w.bufMgr.numBufs) 0 w.bufMgr with ⟨found, numScanned, scanned⟩
  rw [scan] at same cases_ equation givesUp
  dsimp only at same cases_ equation givesUp ⊢
  refine ⟨scanned, same, ?_⟩
  rcases cases_ with ⟨lost, count, res', _⟩ | ⟨lost, _, res', table, invalid⟩ |
    ⟨taken, valid, apart⟩
  · left
    refine ⟨by simp [lost], res', fun frame bound => (givesUp lost (by omega) frame bound).2, ?_⟩
    rw [equation, if_pos ⟨lost, by rw [same.numBufs]; omega⟩]
  · by_cases exhausted : numScanned ≥ 2 * scanned.numBufs
    · left
      rw [same.numBufs] at exhausted
      refine ⟨by simp [lost], res', fun frame bound => (givesUp lost exhausted frame bound).2, ?_⟩
      rw [← same.numBufs] at exhausted
      rw [equation, if_pos ⟨lost, exhausted⟩]
    · right
      left
      have clean := (res'.free scanned.clockHand res'.hand invalid).2.1
      refine ⟨by simp [lost], res', table, invalid, ?_⟩
      rw [equation, if_neg (fun both => exhausted both.2), if_neg (by simp [clean])]
  · right
    right
    refine ⟨by simp [taken], valid, apart, ?_⟩
    rw [equation, if_neg (fun both => by rw [taken] at both; cases both.1)]

/-- A page that was in no frame is in no frame once the victim is gone. -/
theorem ResidencyApart.absent {pool scanned : BufMgr} {frame : Nat} (res : pool.Residency)
    (same : SameFrames pool scanned) (apart : ResidencyApart scanned frame)
    {file : FilePtr} {pageNo : Int} (absent : pool.hashTable.lookup file pageNo = none) :
    scanned.hashTable.lookup file pageNo = none := by
  cases found : scanned.hashTable.lookup file pageNo with
  | none => rfl
  | some other =>
      have holds := ((apart.mapped file pageNo other).mp found).1
      have mapped := (res.mapped file pageNo other).mpr ((same.holds_iff _ _ _).mp holds)
      rw [absent] at mapped
      cases mapped

theorem ResidencyApart.set_image {pool : BufMgr} {frame : Nat}
    (apart : ResidencyApart pool frame) (image : PageImage) :
    ResidencyApart (pool.setImage frame image) frame :=
  ⟨apart.bound, apart.hand, apart.distinct, apart.mapped, apart.free, apart.unpinned⟩

theorem install_page_residency (w : World) {frame : Nat}
    (apart : ResidencyApart w.bufMgr frame) (file : FilePtr) (pageNo : Int)
    (absent : w.bufMgr.hashTable.lookup file pageNo = none) :
    ∃ w', installPage file pageNo frame w = (.ok frame, w') ∧ w'.bufMgr.Residency := by
  obtain ⟨table, inserted⟩ := BufHashTbl.insert_of_absent frame absent
  refine ⟨w.setPool { w.bufMgr.setDesc frame (BufDesc.Set file pageNo) with
    hashTable := table }, ?_, apart.install file pageNo absent inserted⟩
  rw [install_page_eq, inserted]

inductive BufCall where
  | readPage (file : FilePtr) (pageNo : Int)
  | allocPage (file : FilePtr)
  | unPinPage (file : FilePtr) (pageNo : Int) (dirty : Bool)
  | flushFile (file : FilePtr)

def BufCall.run (w : World) : BufCall → World
  | .readPage file pageNo => (BufMgr.readPage file pageNo w).2
  | .allocPage file => (BufMgr.allocPage file w).2
  | .unPinPage file pageNo dirty => (BufMgr.unPinPage file pageNo dirty w).2
  | .flushFile file => (BufMgr.flushFile file w).2

/-- The write-back of the victim, made `calls` system calls from now, succeeds. -/
def WriteBackSucceeds (w : World) (calls frame : Nat) : Prop :=
  (w.bufMgr.bufTable frame).dirty = true →
    w.WriteSucceeds calls (w.bufMgr.bufTable frame).file (w.bufMgr.bufTable frame).pageNo

/-- The condition under which a call keeps table and frames in step. A read that
misses and evicts must be able to finish: the victim is written back, and the
page is one that the file layer can read. An allocation that evicts must be
able to write the victim back, and the new page must not be in the pool. -/
def BufCall.Undisturbed (w : World) : BufCall → Prop
  | .readPage file pageNo =>
      w.bufMgr.hashTable.lookup file pageNo = none →
        ∀ frame, w.bufMgr.victim = some frame →
          WriteBackSucceeds w 0 frame ∧
            w.ReadSucceeds (if (w.bufMgr.bufTable frame).dirty then 1 else 0) file pageNo
  | .allocPage file =>
      (∀ contents, w.unixFile file = some contents →
        w.bufMgr.hashTable.lookup file (File.nextPageNo (contents.page 0).asDBPage) = none) ∧
      ∀ frame, w.bufMgr.victim = some frame → WriteBackSucceeds w 3 frame
  | .unPinPage _ _ _ => True
  | .flushFile _ => True

theorem un_pin_page_residency (w : World) (res : w.bufMgr.Residency) (file : FilePtr)
    (pageNo : Int) (dirty : Bool) : (unPinPage file pageNo dirty w).2.bufMgr.Residency := by
  cases hit : w.bufMgr.hashTable.lookup file pageNo with
  | none => simpa [unPinPage, DbM.read_bind, hit, DbM.fail] using res
  | some frame =>
      have holds := (res.mapped file pageNo frame).mp hit
      rw [un_pin_page_hit w file pageNo dirty frame hit]
      dsimp only
      split_ifs <;> exact res.set_desc holds _ holds.2.1 holds.2.2.1 holds.2.2.2

theorem flush_frame_residency (w : World) (res : w.bufMgr.Residency) (file : FilePtr)
    (frame : Nat) (bound : frame < w.bufMgr.numBufs) :
    (flushFrame file frame w).2.bufMgr.Residency ∧
      (flushFrame file frame w).2.bufMgr.numBufs = w.bufMgr.numBufs ∧
      (file ≠ 0 → (flushFrame file frame w).1 ≠ .err .BADBUFFER) := by
  by_cases mine : (w.bufMgr.bufTable frame).file = file
  · by_cases valid : (w.bufMgr.bufTable frame).valid = true
    · have holds : w.bufMgr.Holds frame file (w.bufMgr.bufTable frame).pageNo :=
        ⟨bound, valid, mine, rfl⟩
      by_cases pinned : (w.bufMgr.bufTable frame).pinCnt = 0
      · have released := res.release holds
          { w.bufMgr.bufTable frame with
            dirty := false, file := 0, pageNo := -1, valid := false } rfl rfl rfl pinned
        rw [flush_frame_unpinned w file frame ⟨valid, mine⟩ pinned]
        split_ifs with dirty
        · have quiet := File.write_page_moves file (w.bufMgr.bufTable frame).pageNo
            (w.bufMgr.bufPool frame) w
          rcases write : File.writePage file (w.bufMgr.bufTable frame).pageNo
            (w.bufMgr.bufPool frame) w with ⟨_ | status | _, w'⟩ <;> rw [write] at quiet <;>
            rw [DbM.bind_apply, write]
          · dsimp only [DbM.modifyPool, DbM.modify, World.set_pool_pool]
            rw [quiet.1.bufMgr]
            exact ⟨released, rfl, fun _ => by simp⟩
          · dsimp only
            rw [quiet.1.bufMgr]
            refine ⟨res, rfl, fun _ => ?_⟩
            rcases File.write_page_err write with rfl | rfl <;> simp
          · dsimp only
            rw [quiet.1.bufMgr]
            exact ⟨res, rfl, fun _ => by simp⟩
        · exact ⟨released, rfl, fun _ => by simp⟩
      · rw [flush_frame_pinned w file frame ⟨valid, mine⟩ (by omega)]
        exact ⟨res, rfl, fun _ => by simp⟩
    · -- An unused frame has no file, so the caller passed `NULL`.
      have unused := res.free frame bound (by simpa using valid)
      simp only [flushFrame, DbM.read_bind]
      rw [if_neg (fun both => valid both.1), if_pos ⟨valid, mine⟩]
      exact ⟨res, rfl, fun real => absurd (mine.symm.trans unused.1) real⟩
  · rw [flush_frame_other w file frame mine]
    exact ⟨res, rfl, fun _ => by simp⟩

theorem flush_frames_residency (frames : List Nat) (w : World) (res : w.bufMgr.Residency)
    (file : FilePtr) (bound : ∀ frame ∈ frames, frame < w.bufMgr.numBufs) :
    (flushFrames file frames w).2.bufMgr.Residency ∧
      (file ≠ 0 → (flushFrames file frames w).1 ≠ .err .BADBUFFER) := by
  induction frames generalizing w with
  | nil => exact ⟨res, fun _ => by simp [flushFrames, DbM.pure_apply]⟩
  | cons frame rest ih =>
      obtain ⟨res', size, honest⟩ := flush_frame_residency w res file frame
        (bound frame (by simp))
      simp only [flushFrames, DbM.bind_apply]
      rcases step : flushFrame file frame w with ⟨_ | status | _, w'⟩ <;>
        rw [step] at res' size honest
      · exact ih w' res' (fun other member => by
          rw [size]
          exact bound other (by simp [member]))
      · exact ⟨res', honest⟩
      · exact ⟨res', fun _ => by simp⟩

theorem flush_file_residency (w : World) (res : w.bufMgr.Residency) (file : FilePtr) :
    (flushFile file w).2.bufMgr.Residency ∧
      (file ≠ 0 → (flushFile file w).1 ≠ .err .BADBUFFER) :=
  flush_frames_residency _ w res file (fun _ member => List.mem_range.mp member)

/-- What `allocBuf` leaves when the write-back, if any, succeeds: an error with
everything in place, or a frame that the table does not know. -/
theorem alloc_buf_residency (w : World) (res : w.bufMgr.Residency)
    (writeBack : ∀ frame, w.bufMgr.victim = some frame → WriteBackSucceeds w 0 frame) :
    (∃ w', allocBuf w = (.err .BUFFEREXCEEDED, w') ∧ w'.bufMgr.Residency) ∨
      ∃ frame w', allocBuf w = (.ok frame, w') ∧ ResidencyApart w'.bufMgr frame ∧
        SameFrames w.bufMgr w'.bufMgr ∧ FilesGrow w w' ∧
        ((w.bufMgr.victim = none ∧ w'.bufMgr.Residency) ∨
          (w.bufMgr.victim = some frame ∧
            ∀ n, w'.faults n = w.faults
              (n + if (w.bufMgr.bufTable frame).dirty then 1 else 0))) := by
  obtain ⟨scanned, same, cases_⟩ := alloc_buf_cases w res
  have quiet : FilesGrow w (w.setPool scanned) :=
    fun _ contents opened => ⟨contents, opened, le_refl _⟩
  rcases cases_ with ⟨_, res', _, run⟩ | ⟨none_, res', _, invalid, run⟩ | ⟨taken, _, apart, run⟩
  · exact .inl ⟨_, run, res'⟩
  · exact .inr ⟨_, _, run, res'.apart_of_invalid res'.hand invalid, same, quiet,
      .inl ⟨none_, res'⟩⟩
  · right
    set frame := scanned.clockHand with frameDef
    by_cases dirty : (scanned.bufTable frame).dirty = true
    · have dirty' : (w.bufMgr.bufTable frame).dirty = true := by rw [← same.dirty, dirty]
      have ready : (w.setPool scanned).WriteSucceeds 0 (scanned.bufTable frame).file
          (scanned.bufTable frame).pageNo := by
        rw [same.file, same.pageNo]
        exact writeBack frame taken dirty'
      obtain ⟨object, contents, live, opened, write⟩ :=
        File.write_page_succeeds ready (scanned.bufPool frame)
      rw [if_pos dirty, DbM.bind_ok write] at run
      refine ⟨frame, _, run, apart, same, ?_, .inr ⟨taken, fun n => by simp [dirty']; rfl⟩⟩
      exact quiet.trans (files_grow_set_disk live opened _ _)
    · have clean : ¬(w.bufMgr.bufTable frame).dirty = true := by
        rw [← same.dirty]
        exact dirty
      rw [if_neg dirty] at run
      exact ⟨frame, _, run, apart, same, quiet, .inr ⟨taken, fun n => by simp [clean]⟩⟩

theorem read_page_residency (w : World) (res : w.bufMgr.Residency) (file : FilePtr)
    (pageNo : Int) (calm : (BufCall.readPage file pageNo).Undisturbed w) :
    (readPage file pageNo w).2.bufMgr.Residency := by
  cases hit : w.bufMgr.hashTable.lookup file pageNo with
  | some frame =>
      have holds := (res.mapped file pageNo frame).mp hit
      rw [read_page_hit w file pageNo frame hit]
      exact res.set_desc holds _ holds.2.1 holds.2.2.1 holds.2.2.2
  | none =>
      have calm' := calm hit
      rw [read_page_miss w file pageNo hit]
      rcases alloc_buf_residency w res (fun frame taken => (calm' frame taken).1) with
        ⟨w₁, run, res₁⟩ | ⟨frame, w₁, run, apart, same, grow, rest⟩
      · rw [DbM.bind_err run]
        exact res₁
      · rw [DbM.bind_ok run]
        have absent := ResidencyApart.absent res same apart hit
        have quiet := File.read_page_moves file pageNo w₁
        rcases read : File.readPage file pageNo w₁ with ⟨image | status | _, w₂⟩ <;>
          rw [read] at quiet
        · rw [DbM.bind_ok read, DbM.modify_pool_bind]
          have pool : w₂.bufMgr = w₁.bufMgr := quiet.1.bufMgr
          obtain ⟨w₃, install, res₃⟩ := install_page_residency
            (w₂.setPool (w₂.bufMgr.setImage frame image))
            (by rw [World.set_pool_pool, pool]; exact apart.set_image image) file pageNo
            (by rw [World.set_pool_pool, set_image_hash_table, pool]; exact absent)
          rw [install]
          exact res₃
        all_goals
          -- The read failed, so the frame was an unused one and is still unused.
          rcases rest with ⟨_, res₁⟩ | ⟨taken, faults⟩
          · have pool : w₂.bufMgr = w₁.bufMgr := quiet.1.bufMgr
            rw [DbM.bind_apply, read]
            dsimp only
            rw [pool]
            exact res₁
          · obtain ⟨lower, fault, contents, opened, upper⟩ := (calm' frame taken).2
            obtain ⟨contents', opened', larger⟩ := grow file contents opened
            have ready : w₁.ReadSucceeds 0 file pageNo :=
              ⟨lower, by rw [faults, Nat.zero_add]; exact fault, contents', opened', by omega⟩
            obtain ⟨_, _, done⟩ := File.read_page_succeeds ready
            rw [done] at read
            cases read

theorem alloc_page_residency (w : World) (res : w.bufMgr.Residency) (file : FilePtr)
    (calm : (BufCall.allocPage file).Undisturbed w) :
    (allocPage file w).2.bufMgr.Residency := by
  have quiet := File.allocate_page_moves file w
  unfold allocPage
  rcases allocate : File.allocatePage file w with ⟨pageNo | status | _, w₁⟩ <;>
    rw [allocate] at quiet
  · rw [DbM.bind_ok allocate]
    have pool : w₁.bufMgr = w.bufMgr := quiet.1.bufMgr
    obtain ⟨contents, opened, number, faults⟩ := File.allocate_page_ok allocate
    have missing : w₁.bufMgr.hashTable.lookup file pageNo = none := by
      rw [pool, number]
      exact calm.1 contents opened
    have writeBack : ∀ frame, w₁.bufMgr.victim = some frame → WriteBackSucceeds w₁ 0 frame := by
      intro frame taken dirty
      rw [pool] at taken dirty ⊢
      obtain ⟨lower, fault, victimContents, victimOpened⟩ := calm.2 frame taken dirty
      obtain ⟨contents', opened', _⟩ := quiet.2 _ _ victimOpened
      exact ⟨lower, by rw [faults]; exact fault, contents', opened'⟩
    rcases alloc_buf_residency w₁ (by rw [pool]; exact res) writeBack with
      ⟨w₂, run, res₂⟩ | ⟨frame, w₂, run, apart, same, _, _⟩
    · rw [DbM.bind_err run]
      exact res₂
    · rw [DbM.bind_ok run]
      have absent := ResidencyApart.absent (by rw [pool]; exact res) same apart missing
      obtain ⟨w₃, install, res₃⟩ := install_page_residency w₂ apart file pageNo absent
      rw [DbM.bind_ok install]
      exact res₃
  all_goals
    rw [DbM.bind_apply, allocate]
    dsimp only
    rw [quiet.1.bufMgr]
    exact res

/-- The worlds that a run of calls reaches, each call meeting `allowed` in the
state it is made in. -/
inductive BufRun (allowed : World → BufCall → Prop) (start : World) : World → Prop where
  | start : BufRun allowed start start
  | call {w : World} (prior : BufRun allowed start w) (call : BufCall)
      (meets : allowed w call) : BufRun allowed start (call.run w)

/-- Table and frames agree, and what `flushFile` and a later write-back rely on. -/
structure ResidencyContract (w : World) : Prop where
  mapped : ∀ file pageNo frame,
    w.bufMgr.hashTable.lookup file pageNo = some frame ↔
      frame < w.bufMgr.numBufs ∧ (w.bufMgr.bufTable frame).valid = true ∧
        (w.bufMgr.bufTable frame).file = file ∧ (w.bufMgr.bufTable frame).pageNo = pageNo
  unique : ∀ first second, first < w.bufMgr.numBufs → second < w.bufMgr.numBufs →
    (w.bufMgr.bufTable first).valid = true → (w.bufMgr.bufTable second).valid = true →
    (w.bufMgr.bufTable first).file = (w.bufMgr.bufTable second).file →
    (w.bufMgr.bufTable first).pageNo = (w.bufMgr.bufTable second).pageNo → first = second
  unused : ∀ frame, frame < w.bufMgr.numBufs → (w.bufMgr.bufTable frame).valid = false →
    (w.bufMgr.bufTable frame).file = 0 ∧ (w.bufMgr.bufTable frame).dirty = false ∧
      (w.bufMgr.bufTable frame).pinCnt = 0
  flushes : ∀ file, file ≠ 0 → (flushFile file w).1 ≠ .err .BADBUFFER
  /-- A frame that a later call could write back is the one its page is found in. -/
  written_back : ∀ frame, frame < w.bufMgr.numBufs → (w.bufMgr.bufTable frame).dirty = true →
    w.bufMgr.hashTable.lookup (w.bufMgr.bufTable frame).file
      (w.bufMgr.bufTable frame).pageNo = some frame

theorem buf_call_residency (w : World) (res : w.bufMgr.Residency) (call : BufCall)
    (calm : call.Undisturbed w) : (call.run w).bufMgr.Residency := by
  cases call with
  | readPage file pageNo => exact read_page_residency w res file pageNo calm
  | allocPage file => exact alloc_page_residency w res file calm
  | unPinPage file pageNo dirty => exact un_pin_page_residency w res file pageNo dirty
  | flushFile file => exact (flush_file_residency w res file).1

theorem buf_run_residency {start w : World} (res : start.bufMgr.Residency)
    (run : BufRun (fun w call => call.Undisturbed w) start w) : w.bufMgr.Residency := by
  induction run with
  | start => exact res
  | call prior call meets ih => exact buf_call_residency _ ih call meets

theorem residency_of_undisturbed_run (bufs : Nat) (positive : 0 < bufs) (start w : World)
    (fresh : start.bufMgr = BufMgr.new bufs)
    (run : BufRun (fun w call => call.Undisturbed w) start w) : ResidencyContract w := by
  have res := buf_run_residency (by rw [fresh]; exact new_residency bufs positive) run
  refine
    { mapped := res.mapped
      unique := ?_
      unused := res.free
      flushes := fun file => (flush_file_residency w res file).2
      written_back := ?_ }
  · intro first second firstBound secondBound firstValid secondValid files pages
    exact res.holds_unique ⟨firstBound, firstValid, rfl, rfl⟩
      ⟨secondBound, secondValid, files.symm, pages.symm⟩
  · intro frame bound dirty
    have valid : (w.bufMgr.bufTable frame).valid = true := by
      by_contra invalid
      have unused := res.free frame bound (by simpa using invalid)
      rw [unused.2.1] at dirty
      cases dirty
    exact (res.mapped _ _ _).mpr ⟨bound, valid, rfl, rfl⟩

/-- One open file with one user page, and a pool with a single frame. No system
call fails. -/
def onePageWorld : World :=
  { disk := fun name =>
      if name = [102] then
        some { size := 2
               page := fun position =>
                 if position = 0 then
                   PageImage.zero.setDBPage { nextFree := -1, firstPage := 1, numPages := 2 }
                 else PageImage.zero }
      else none
    files := fun file =>
      if file = 1 then some { fileName := [102], openCnt := 1, unixFile := true } else none
    brk := 2
    malloc := fun _ => 0
    openFiles := { ht := ChainedTable.empty }
    bufMgr := BufMgr.new 1
    faults := fun _ => false
    bufFailed := false
    given := fun _ _ => none }

/-- Page 1 is read and changed; the new page 2 takes its frame and keeps it, so
that the next read of page 1 fails. -/
theorem residency_of_undisturbed_run_evicted :
    let read := (BufCall.readPage 1 1).run onePageWorld
    let unpinned := (BufCall.unPinPage 1 1 true).run read
    let evicted := (BufCall.allocPage 1).run unpinned
    let refused := (BufCall.readPage 1 1).run evicted
    evicted.bufMgr.hashTable.lookup 1 2 = some 0 ∧
      (readPage 1 1 evicted).1 = .err .BUFFEREXCEEDED ∧ ResidencyContract refused := by
  intro read unpinned evicted refused
  refine ⟨by decide, by decide, ?_⟩
  have reads : BufRun (fun w call => call.Undisturbed w) onePageWorld read := by
    refine .call .start (.readPage 1 1) ?_
    intro _ frame taken
    have none_ : onePageWorld.bufMgr.victim = none := rfl
    rw [none_] at taken
    cases taken
  have evicts : BufRun (fun w call => call.Undisturbed w) onePageWorld evicted := by
    refine .call (.call reads (.unPinPage 1 1 true) trivial) (.allocPage 1) ⟨?_, ?_⟩
    · intro contents opened
      have absent : (unpinned.unixFile 1).all fun contents =>
          decide (unpinned.bufMgr.hashTable.lookup 1
            (File.nextPageNo (contents.page 0).asDBPage) = none) := by decide
      rw [show unpinned.unixFile 1 = some contents from opened, Option.all_some,
        decide_eq_true_eq] at absent
      exact absent
    · intro frame taken dirty
      have frameZero : unpinned.bufMgr.victim = some 0 := by decide
      rw [frameZero] at taken
      obtain rfl := Option.some.inj taken
      exact ⟨by decide, by decide, Option.isSome_iff_exists.mp (by decide)⟩
  refine residency_of_undisturbed_run 1 (by decide) onePageWorld refused rfl
    (.call evicts (.readPage 1 1) ?_)
  intro _ frame taken
  have pinned : evicted.bufMgr.victim = none := by decide
  rw [pinned] at taken
  cases taken

/-- Page 1 is read, unpinned dirty, and evicted for page 7, which the file does
not have. The frame still claims page 1, dirty, and the table has lost it. -/
theorem residency_lost_by_failed_read :
    ¬∀ w, BufRun (fun _ _ => True) onePageWorld w → ResidencyContract w := by
  intro claim
  have first : BufRun (fun _ _ => True) onePageWorld _ := .call .start (.readPage 1 1) trivial
  have second := BufRun.call first (.unPinPage 1 1 true) trivial
  have third := BufRun.call second (.readPage 1 7) trivial
  have lost := (claim _ third).written_back 0 (by decide) rfl
  have absent : ((BufCall.readPage 1 7).run ((BufCall.unPinPage 1 1 true).run
      ((BufCall.readPage 1 1).run onePageWorld))).bufMgr.hashTable.lookup 1 1 = none := rfl
  exact absurd (absent.symm.trans lost) (by simp)

end PrimitiveDB.BufMgr

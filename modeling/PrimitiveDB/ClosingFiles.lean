import PrimitiveDB.AllocationFailures
import PrimitiveDB.DatabaseFiles

/-!
# Closing a file that cannot be flushed

`File::close` flushes the frames of the file and does not look at the status that `flushFile`
returns, and `DB::closeFile` does not look at the status of `close`. The loop of `flushFile`
stops at the first frame that is pinned or cannot be written; what it has not reached stays in
the pool and refers to an object that is deleted right afterwards.
-/

namespace PrimitiveDB

open World

set_option autoImplicit false

namespace BufMgr

def Mine (pool : BufMgr) (file : FilePtr) (frame : Nat) : Prop :=
  (pool.bufTable frame).valid = true ∧ (pool.bufTable frame).file = file

instance (pool : BufMgr) (file : FilePtr) (frame : Nat) : Decidable (pool.Mine file frame) :=
  inferInstanceAs (Decidable (_ ∧ _))

/-- The writes that `flushFile` makes before it comes to `frame`. -/
def writesBefore (pool : BufMgr) (file : FilePtr) (frame : Nat) : Nat :=
  (List.range frame).countP fun index =>
    decide (pool.Mine file index ∧ (pool.bufTable index).dirty = true)

theorem writes_before_succ (pool : BufMgr) (file : FilePtr) (frame : Nat) :
    pool.writesBefore file (frame + 1) = pool.writesBefore file frame +
      if pool.Mine file frame ∧ (pool.bufTable frame).dirty = true then 1 else 0 := by
  simp [writesBefore, List.range_succ, List.countP_append]

end BufMgr

namespace World

variable {w v : World} {file : FilePtr} {object : File}

/-- The round of `flushFile` for this frame goes through: the frame is not of the file, or it
is not pinned and can be written if it is dirty. -/
def FrameFlushes (w : World) (file : FilePtr) (frame : Nat) : Prop :=
  w.bufMgr.Mine file frame → (w.bufMgr.bufTable frame).pinCnt = 0 ∧
    ((w.bufMgr.bufTable frame).dirty = true →
      w.WriteSucceeds (w.bufMgr.writesBefore file frame) file (w.bufMgr.bufTable frame).pageNo)

def FrameStored (w : World) (file : FilePtr) (limit frame : Nat) (v : World) : Prop :=
  w.bufMgr.Mine file frame → (w.bufMgr.bufTable frame).dirty = true →
    (∀ later, frame < later → later < limit → w.bufMgr.Mine file later →
      (w.bufMgr.bufTable later).dirty = true →
      (w.bufMgr.bufTable later).pageNo ≠ (w.bufMgr.bufTable frame).pageNo) →
    ∃ contents, v.unixFile file = some contents ∧
      (w.bufMgr.bufTable frame).pageNo.toNat < contents.size ∧
      contents.page (w.bufMgr.bufTable frame).pageNo.toNat = w.bufMgr.bufPool frame

/-- The world `v` in which `flushFile`, called in `w`, has come to `frame`. -/
structure FlushedTo (w : World) (file : FilePtr) (frame : Nat) (v : World) : Prop where
  files : v.files = w.files
  openFiles : v.openFiles = w.openFiles
  numBufs : v.bufMgr.numBufs = w.bufMgr.numBufs
  images : v.bufMgr.bufPool = w.bufMgr.bufPool
  ahead : ∀ index, frame ≤ index → v.bufMgr.bufTable index = w.bufMgr.bufTable index
  behind : ∀ index, index < frame → ¬v.bufMgr.Mine file index
  faults : ∀ calls, v.faults calls = w.faults (calls + w.bufMgr.writesBefore file frame)
  opened : v.unixFile file = none ↔ w.unixFile file = none
  lower : ∀ index, index < frame → w.FrameFlushes file index
  stored : ∀ index, index < frame → w.FrameStored file frame index v

theorem flushed_to_start (w : World) (file : FilePtr) : w.FlushedTo file 0 w where
  files := rfl
  openFiles := rfl
  numBufs := rfl
  images := rfl
  ahead := fun _ _ => rfl
  behind := fun _ below => absurd below (Nat.not_lt_zero _)
  faults := fun _ => rfl
  opened := Iff.rfl
  lower := fun _ below => absurd below (Nat.not_lt_zero _)
  stored := fun _ below => absurd below (Nat.not_lt_zero _)

/-- A frame that belongs to another file, or to none, is passed over. -/
theorem FlushedTo.pass {frame : Nat} (flushed : w.FlushedTo file frame v)
    (other : ¬w.bufMgr.Mine file frame) : w.FlushedTo file (frame + 1) v where
  files := flushed.files
  openFiles := flushed.openFiles
  numBufs := flushed.numBufs
  images := flushed.images
  ahead := fun index beyond => flushed.ahead index (by omega)
  behind := by
    intro index below
    by_cases here : index = frame
    · subst here
      unfold BufMgr.Mine at other ⊢
      rw [flushed.ahead index (le_refl _)]
      exact other
    · exact flushed.behind index (by omega)
  faults := by
    intro calls
    rw [flushed.faults, BufMgr.writes_before_succ, if_neg (fun both => other both.1)]
    rfl
  opened := flushed.opened
  lower := by
    intro index below
    by_cases here : index = frame
    · subst here
      exact fun mine => absurd mine other
    · exact flushed.lower index (by omega)
  stored := by
    intro index below mine dirty last
    have earlier : index < frame := by
      by_contra late
      have here : index = frame := by omega
      subst here
      exact other mine
    exact flushed.stored index earlier mine dirty fun later after before =>
      last later after (by omega)

/-- A frame of the file that is clean goes back to the pool as it is. -/
theorem FlushedTo.release {frame : Nat} (flushed : w.FlushedTo file frame v)
    (mine : w.bufMgr.Mine file frame) (unpinned : (w.bufMgr.bufTable frame).pinCnt = 0)
    (clean : (w.bufMgr.bufTable frame).dirty = false) :
    w.FlushedTo file (frame + 1) (v.setPool
      (BufMgr.releaseFrame file frame (v.bufMgr.bufTable frame) v.bufMgr)) where
  files := flushed.files
  openFiles := flushed.openFiles
  numBufs := flushed.numBufs
  images := flushed.images
  ahead := by
    intro index beyond
    rw [← flushed.ahead index (by omega)]
    exact BufMgr.set_desc_other _ _ _ (by omega)
  behind := by
    intro index below
    unfold BufMgr.Mine
    by_cases here : index = frame
    · subst here
      rintro ⟨valid, _⟩
      rw [set_pool_pool, BufMgr.releaseFrame, BufMgr.set_desc_self] at valid
      cases valid
    · have kept : (BufMgr.releaseFrame file frame (v.bufMgr.bufTable frame) v.bufMgr).bufTable
          index = v.bufMgr.bufTable index := BufMgr.set_desc_other _ _ _ here
      rw [set_pool_pool, kept]
      exact flushed.behind index (by omega)
  faults := by
    intro calls
    rw [BufMgr.writes_before_succ, if_neg (fun both => by rw [clean] at both; cases both.2)]
    exact flushed.faults calls
  opened := flushed.opened
  lower := by
    intro index below
    by_cases here : index = frame
    · subst here
      exact fun _ => ⟨unpinned, fun dirty => by rw [clean] at dirty; cases dirty⟩
    · exact flushed.lower index (by omega)
  stored := by
    intro index below isMine dirty last
    have earlier : index < frame := by
      by_contra late
      have here : index = frame := by omega
      subst here
      rw [clean] at dirty
      cases dirty
    exact flushed.stored index earlier isMine dirty fun later after before =>
      last later after (by omega)

theorem FlushedTo.write {frame : Nat} {contents : UnixFile} (flushed : w.FlushedTo file frame v)
    (mine : w.bufMgr.Mine file frame) (unpinned : (w.bufMgr.bufTable frame).pinCnt = 0)
    (dirty : (w.bufMgr.bufTable frame).dirty = true)
    (ready : w.WriteSucceeds (w.bufMgr.writesBefore file frame) file
      (w.bufMgr.bufTable frame).pageNo)
    (live : v.files file = some object) (opened : v.unixFile file = some contents) :
    w.FlushedTo file (frame + 1) ((v.tick.setDisk object.fileName
      (some (contents.writeAt (w.bufMgr.bufTable frame).pageNo.toNat
        (w.bufMgr.bufPool frame)))).setPool
      (BufMgr.releaseFrame file frame (v.bufMgr.bufTable frame) v.bufMgr)) := by
  obtain ⟨object', live', openFd, stored⟩ := unix_file_live opened
  rw [live] at live'
  obtain rfl := Option.some.inj live'
  have written : ((v.tick.setDisk object.fileName
      (some (contents.writeAt (w.bufMgr.bufTable frame).pageNo.toNat
        (w.bufMgr.bufPool frame)))).setPool
      (BufMgr.releaseFrame file frame (v.bufMgr.bufTable frame) v.bufMgr)).unixFile file =
      some (contents.writeAt (w.bufMgr.bufTable frame).pageNo.toNat (w.bufMgr.bufPool frame)) :=
    unix_file_set_disk (w := v.tick) live openFd _
  -- all but the file is as if the frame had been clean
  have kept : ∀ index, index ≠ frame →
      (BufMgr.releaseFrame file frame (v.bufMgr.bufTable frame) v.bufMgr).bufTable index =
        v.bufMgr.bufTable index := fun index different => BufMgr.set_desc_other _ _ _ different
  refine
    { files := flushed.files
      openFiles := flushed.openFiles
      numBufs := flushed.numBufs
      images := flushed.images
      ahead := ?_
      behind := ?_
      faults := ?_
      opened := ?_
      lower := ?_
      stored := ?_ }
  · intro index beyond
    rw [← flushed.ahead index (by omega)]
    exact kept index (by omega)
  · intro index below
    unfold BufMgr.Mine
    by_cases here : index = frame
    · subst here
      rintro ⟨valid, _⟩
      rw [set_pool_pool, BufMgr.releaseFrame, BufMgr.set_desc_self] at valid
      cases valid
    · rw [set_pool_pool, kept index here]
      exact flushed.behind index (by omega)
  · intro calls
    rw [BufMgr.writes_before_succ, if_pos ⟨mine, dirty⟩]
    have later := flushed.faults (calls + 1)
    rw [show calls + (w.bufMgr.writesBefore file frame + 1) =
      calls + 1 + w.bufMgr.writesBefore file frame by omega]
    exact later
  · rw [written, ← flushed.opened, opened]
    simp
  · intro index below
    by_cases here : index = frame
    · subst here
      exact fun _ => ⟨unpinned, fun _ => ready⟩
    · exact flushed.lower index (by omega)
  · intro index below isMine isDirty last
    refine ⟨_, written, ?_⟩
    by_cases here : index = frame
    · subst here
      refine ⟨?_, UnixFile.write_at_self _ _ _⟩
      simp only [UnixFile.writeAt]
      omega
    · have earlier : index < frame := by omega
      obtain ⟨contents', opened', inside, image⟩ := flushed.stored index earlier isMine isDirty
        fun later after before => last later after (by omega)
      rw [opened] at opened'
      obtain rfl := Option.some.inj opened'
      have different := last frame earlier (by omega) mine dirty
      have indexLower := ((flushed.lower index earlier isMine).2 isDirty).1
      have frameLower := ready.1
      rw [UnixFile.write_at_other contents _ (by omega) inside]
      refine ⟨?_, image⟩
      simp only [UnixFile.writeAt]
      omega

theorem write_page_no_crash {pageNo : Int} {image : PageImage} {w' : World}
    (live : w.files file = some object) (write : File.writePage file pageNo image w = (.crash, w')) :
    False := by
  unfold File.writePage at write
  split_ifs at write
  · cases write
  rcases File.intwrite_cases file pageNo image w with ⟨dead, _⟩ | failed | ⟨_, _, _, _, _, _, done⟩
  · rw [live] at dead
    cases dead
  · rw [failed] at write
    cases write
  · rw [done] at write
    cases write

/-- One round: it goes through exactly if the frame can be flushed. -/
theorem FlushedTo.round {frame : Nat} (flushed : w.FlushedTo file frame v)
    (live : w.files file = some object)
    (noStray : (w.bufMgr.bufTable frame).valid = false → (w.bufMgr.bufTable frame).file ≠ file) :
    (w.FrameFlushes file frame ∧
        ∃ v', BufMgr.flushFrame file frame v = (.ok (), v') ∧ w.FlushedTo file (frame + 1) v') ∨
      (¬w.FrameFlushes file frame ∧
        ∃ status v', BufMgr.flushFrame file frame v = (.err status, v') ∧
          v'.files = w.files ∧ v'.openFiles = w.openFiles) := by
  have desc := flushed.ahead frame (le_refl _)
  by_cases mine : w.bufMgr.Mine file frame
  swap
  · left
    refine ⟨fun isMine => absurd isMine mine, v, ?_, flushed.pass mine⟩
    apply BufMgr.flush_frame_other
    rw [desc]
    intro here
    by_cases valid : (w.bufMgr.bufTable frame).valid = true
    · exact mine ⟨valid, here⟩
    · exact noStray (by simpa using valid) here
  have mine' : (v.bufMgr.bufTable frame).valid = true ∧ (v.bufMgr.bufTable frame).file = file := by
    rw [desc]
    exact mine
  by_cases unpinned : (w.bufMgr.bufTable frame).pinCnt = 0
  swap
  · right
    refine ⟨fun flushes => unpinned (flushes mine).1, .PAGEPINNED, v, ?_, flushed.files,
      flushed.openFiles⟩
    apply BufMgr.flush_frame_pinned v file frame mine'
    rw [desc]
    omega
  have run := BufMgr.flush_frame_unpinned v file frame mine' (by rw [desc]; exact unpinned)
  by_cases dirty : (w.bufMgr.bufTable frame).dirty = true
  swap
  · left
    have clean : (w.bufMgr.bufTable frame).dirty = false := by simpa using dirty
    rw [if_neg (by rw [desc]; exact dirty)] at run
    exact ⟨fun _ => ⟨unpinned, fun isDirty => absurd isDirty dirty⟩, _, run,
      flushed.release mine unpinned clean⟩
  rw [if_pos (by rw [desc]; exact dirty)] at run
  have liveNow : v.files file = some object := by rw [flushed.files]; exact live
  have quiet := File.write_page_moves file (v.bufMgr.bufTable frame).pageNo
    (v.bufMgr.bufPool frame) v
  by_cases ready : w.WriteSucceeds (w.bufMgr.writesBefore file frame) file
      (w.bufMgr.bufTable frame).pageNo
  · left
    refine ⟨fun _ => ⟨unpinned, fun _ => ready⟩, ?_⟩
    obtain ⟨contents, opened⟩ : ∃ contents, v.unixFile file = some contents := by
      rw [← Option.ne_none_iff_exists', ne_eq, flushed.opened]
      obtain ⟨contents, opened⟩ := ready.2.2
      rw [opened]
      exact Option.some_ne_none contents
    have readyNow : v.WriteSucceeds 0 file (v.bufMgr.bufTable frame).pageNo := by
      rw [desc]
      refine ⟨ready.1, ?_, contents, opened⟩
      rw [flushed.faults, Nat.zero_add]
      exact ready.2.1
    obtain ⟨object', contents', live', opened', write⟩ :=
      File.write_page_succeeds readyNow (v.bufMgr.bufPool frame)
    rw [liveNow] at live'
    obtain rfl := Option.some.inj live'
    rw [opened] at opened'
    obtain rfl := Option.some.inj opened'
    rw [DbM.bind_ok write] at run
    refine ⟨_, run, ?_⟩
    have next := flushed.write mine unpinned dirty ready liveNow opened
    rw [← desc, ← flushed.images] at next
    exact next
  · right
    refine ⟨fun flushes => ready ((flushes mine).2 dirty), ?_⟩
    rcases write : File.writePage file (v.bufMgr.bufTable frame).pageNo
      (v.bufMgr.bufPool frame) v with ⟨_ | status | _, v'⟩ <;> rw [write] at quiet
    · have readyNow := write_page_ok_succeeds write
      rw [desc] at readyNow
      exfalso
      apply ready
      refine ⟨readyNow.1, ?_, ?_⟩
      · have calm := readyNow.2.1
        rw [flushed.faults, Nat.zero_add] at calm
        exact calm
      · rw [← Option.ne_none_iff_exists', ne_eq, ← flushed.opened]
        obtain ⟨contents, opened⟩ := readyNow.2.2
        rw [opened]
        exact Option.some_ne_none contents
    · rw [DbM.bind_err write] at run
      exact ⟨status, v', run, quiet.1.files.trans flushed.files,
        quiet.1.openFiles.trans flushed.openFiles⟩
    · exfalso
      exact write_page_no_crash liveNow write

theorem FlushedTo.rounds (live : w.files file = some object)
    (noStray : ∀ frame, frame < w.bufMgr.numBufs → (w.bufMgr.bufTable frame).valid = false →
      (w.bufMgr.bufTable frame).file ≠ file) (rounds frame : Nat) (v : World)
    (flushed : w.FlushedTo file frame v) (bound : frame + rounds ≤ w.bufMgr.numBufs) :
    ((∀ index, frame ≤ index → index < frame + rounds → w.FrameFlushes file index) ∧
        ∃ v', BufMgr.flushFrames file (List.range' frame rounds) v = (.ok (), v') ∧
          w.FlushedTo file (frame + rounds) v') ∨
      ((∃ index, frame ≤ index ∧ index < frame + rounds ∧ ¬w.FrameFlushes file index) ∧
        ∃ status v', BufMgr.flushFrames file (List.range' frame rounds) v = (.err status, v') ∧
          v'.files = w.files ∧ v'.openFiles = w.openFiles) := by
  induction rounds generalizing frame v with
  | zero => exact .inl ⟨fun index lower upper => by omega, v, rfl, flushed⟩
  | succ rounds ih =>
      rw [List.range'_succ, BufMgr.flushFrames]
      rcases flushed.round live (noStray frame (by omega)) with ⟨here, v₁, run, next⟩ |
        ⟨stops, status, v₁, run, files, openFiles⟩
      · rw [DbM.bind_ok run]
        rcases ih (frame + 1) v₁ next (by omega) with ⟨all, v', rest, done⟩ |
          ⟨⟨index, lower, upper, stops⟩, failed⟩
        · left
          refine ⟨?_, v', rest, ?_⟩
          · intro index lower upper
            by_cases first : index = frame
            · subst first
              exact here
            · exact all index (by omega) (by omega)
          · rw [show frame + (rounds + 1) = frame + 1 + rounds by omega]
            exact done
        · exact .inr ⟨⟨index, by omega, by omega, stops⟩, failed⟩
      · right
        rw [DbM.bind_err run]
        exact ⟨⟨frame, le_refl _, by omega, stops⟩, status, v₁, rfl, files, openFiles⟩

/-- `flushFile` can do its work: no frame of the file is pinned, and every write succeeds. -/
def FlushCompletes (w : World) (file : FilePtr) : Prop :=
  ∀ frame, frame < w.bufMgr.numBufs → w.FrameFlushes file frame

theorem flush_file_outcome (live : w.files file = some object)
    (noStray : ∀ frame, frame < w.bufMgr.numBufs → (w.bufMgr.bufTable frame).valid = false →
      (w.bufMgr.bufTable frame).file ≠ file) :
    (w.FlushCompletes file ∧ ∃ v, BufMgr.flushFile file w = (.ok (), v) ∧
        w.FlushedTo file w.bufMgr.numBufs v) ∨
      (¬w.FlushCompletes file ∧ ∃ status v, BufMgr.flushFile file w = (.err status, v) ∧
        v.files = w.files ∧ v.openFiles = w.openFiles) := by
  have rounds := (flushed_to_start w file).rounds live noStray w.bufMgr.numBufs 0 w (by omega)
  have run : BufMgr.flushFile file w =
      BufMgr.flushFrames file (List.range' 0 w.bufMgr.numBufs) w := by
    unfold BufMgr.flushFile
    rw [DbM.read_bind, List.range_eq_range']
  rw [run]
  rcases rounds with ⟨all, v, done, flushed⟩ | ⟨⟨index, _, upper, stops⟩, failed⟩
  · left
    rw [Nat.zero_add] at flushed
    exact ⟨fun frame bound => all frame (by omega) (by omega), v, done, flushed⟩
  · right
    exact ⟨fun completes => stops (completes index (by omega)), failed⟩

/-- The last close of a file loses nothing: if it succeeds, every dirty page of the file is on
disk and no frame is left that refers to the object; if the file cannot be flushed, the call
fails and the file stays open. -/
structure ClosesSafely (w : World) (file : FilePtr) (object : File) : Prop where
  stored : ∀ w', DB.closeFile file w = (.ok (), w') →
    (∀ frame, frame < w.bufMgr.numBufs → ¬w'.bufMgr.Mine file frame) ∧
      ∀ frame, frame < w.bufMgr.numBufs → w.bufMgr.Mine file frame →
        (w.bufMgr.bufTable frame).dirty = true →
        (∀ later, frame < later → later < w.bufMgr.numBufs → w.bufMgr.Mine file later →
          (w.bufMgr.bufTable later).dirty = true →
          (w.bufMgr.bufTable later).pageNo ≠ (w.bufMgr.bufTable frame).pageNo) →
        ∃ contents, w'.disk object.fileName = some contents ∧
          (w.bufMgr.bufTable frame).pageNo.toNat < contents.size ∧
          contents.page (w.bufMgr.bufTable frame).pageNo.toNat = w.bufMgr.bufPool frame
  stays : (BufMgr.flushFile file w).1 ≠ .ok () →
    ∃ status w' object', DB.closeFile file w = (.err status, w') ∧
      w'.files file = some object' ∧ 1 ≤ object'.openCnt ∧
      w'.openFiles.find object.fileName = some file

def closing (w : World) (file : FilePtr) (object : File) : World :=
  w.setFile file (some { object with openCnt := 0 })

theorem closing_unix_file (live : w.files file = some object) :
    (w.closing file object).unixFile file = w.unixFile file := by
  simp [closing, unixFile, setFile, live]

theorem closing_completes_iff (live : w.files file = some object) :
    (w.closing file object).FlushCompletes file ↔ w.FlushCompletes file := by
  have opened := closing_unix_file live
  unfold FlushCompletes FrameFlushes WriteSucceeds
  rw [opened]
  rfl

/-- A call that has returned hands its status to a caller that ignores it. -/
theorem attempt_returns {α : Type} {call : DbM α} {outcome : Outcome α}
    (run : call w = (outcome, v)) (returned : outcome ≠ .crash) :
    ∃ result, DbM.attempt call w = (.ok result, v) := by
  unfold DbM.attempt
  rw [run]
  cases outcome with
  | ok value => exact ⟨_, rfl⟩
  | err status => exact ⟨_, rfl⟩
  | crash => exact absurd rfl returned

/-- What `closeFile` does when it takes the count to zero, whatever `flushFile` says. -/
theorem close_file_run (real : file ≠ 0) (live : w.files file = some object)
    (last : object.openCnt = 1) (registered : w.openFiles.find object.fileName = some file)
    {outcome : Outcome Unit} {v : World}
    (flush : BufMgr.flushFile file (w.closing file object) = (outcome, v))
    (returned : outcome ≠ .crash) (openFiles : v.openFiles = w.openFiles) :
    ∃ w', DB.closeFile file w = (.ok (), w') ∧ w'.bufMgr = v.bufMgr ∧ w'.disk = v.disk ∧
      w'.files = Function.update v.files file none ∧
      w.openFiles.erase object.fileName = some w'.openFiles := by
  set closed : File := { object with openCnt := 0, unixFile := false } with closedDef
  obtain ⟨result, close⟩ : ∃ result, DbM.attempt (File.close file) w =
      (.ok result, (v.setFile file (some closed)).tick) := by
    obtain ⟨ignored, attempted⟩ := attempt_returns flush returned
    have run : File.close file w =
        (do if ← DbM.systemCall then DbM.fail .UNIXERR else pure () : DbM Unit)
          (v.setFile file (some closed)) := by
      simp only [File.close, File.deref, DbM.bind_apply, live, last]
      rw [if_neg (by decide)]
      simp only [DbM.bind_apply, DbM.modify, Int.sub_self, if_true]
      unfold closing at attempted
      rw [attempted]
    have done : ∃ outcome', outcome' ≠ .crash ∧
        File.close file w = (outcome', (v.setFile file (some closed)).tick) := by
      rw [run, DbM.bind_apply]
      dsimp only [DbM.systemCall]
      split_ifs
      · exact ⟨.err .UNIXERR, by simp, rfl⟩
      · exact ⟨.ok (), by simp, rfl⟩
    obtain ⟨outcome', returned', done⟩ := done
    exact attempt_returns done returned'
  have derefed : (v.setFile file (some closed)).tick.files file = some closed :=
    Function.update_self _ _ _
  obtain ⟨table, erased⟩ : ∃ table, w.openFiles.erase object.fileName = some table := by
    cases erased : w.openFiles.erase object.fileName with
    | some table => exact ⟨table, rfl⟩
    | none =>
        simp only [OpenFileHashTbl.erase, Option.map_eq_none_iff] at erased
        have absent := ChainedTable.remove_eq_none_iff.mp erased
        simp only [OpenFileHashTbl.find, absent] at registered
        cases registered
  have erased' : (v.setFile file (some closed)).tick.openFiles.erase closed.fileName =
      some table := by
    change v.openFiles.erase object.fileName = some table
    rw [openFiles]
    exact erased
  refine ⟨{ (v.setFile file (some closed)).tick with openFiles := table }.setFile file none, ?_,
    rfl, rfl, Function.update_idem _ _ _, erased⟩
  unfold DB.closeFile
  rw [if_neg real, DbM.bind_ok close]
  rw [DbM.bind_ok (show File.deref file (v.setFile file (some closed)).tick =
    (.ok closed, (v.setFile file (some closed)).tick) by simp only [File.deref, derefed])]
  rw [if_pos rfl, DbM.read_bind, erased']
  rfl

/-- A file is closed safely for the last time if and only if it can be flushed. -/
theorem closes_safely_iff_flush_completes (orderly : w.bufMgr.Orderly) (real : file ≠ 0)
    (live : w.files file = some object) (last : object.openCnt = 1)
    (registered : w.openFiles.find object.fileName = some file) :
    w.ClosesSafely file object ↔ w.FlushCompletes file := by
  have noStray : ∀ frame, frame < w.bufMgr.numBufs → (w.bufMgr.bufTable frame).valid = false →
      (w.bufMgr.bufTable frame).file ≠ file := by
    intro frame bound invalid here
    rw [(orderly.free frame bound invalid).1] at here
    exact real here.symm
  have closingLive : (w.closing file object).files file = some { object with openCnt := 0 } :=
    Function.update_self _ _ _
  have completes := closing_completes_iff live
  rcases flush_file_outcome closingLive noStray with ⟨flushes, v, run, flushed⟩ |
    ⟨stops, status, v, run, _, openFiles⟩
  · obtain ⟨w', close, pool, disk, _⟩ := close_file_run real live last registered run
      (by simp) flushed.openFiles
    refine ⟨fun _ => completes.mp flushes, fun _ => ⟨?_, ?_⟩⟩
    · intro w'' close'
      rw [close] at close'
      cases close'
      refine ⟨?_, ?_⟩
      · intro frame bound
        rw [pool]
        exact flushed.behind frame bound
      · intro frame bound mine dirty final
        obtain ⟨contents, opened, inside, image⟩ := flushed.stored frame bound mine dirty final
        obtain ⟨object', live', _, stored⟩ := unix_file_live opened
        rw [flushed.files, closingLive] at live'
        cases live'
        exact ⟨contents, by rw [disk]; exact stored, inside, image⟩
    · intro fails
      rcases flush_file_outcome live noStray with ⟨_, v', done, _⟩ | ⟨stops, _⟩
      · rw [done] at fails
        exact absurd rfl fails
      · exact absurd (completes.mp flushes) stops
  · obtain ⟨w', close, _⟩ := close_file_run real live last registered run (by simp) openFiles
    constructor
    · intro safely
      exfalso
      have fails : (BufMgr.flushFile file w).1 ≠ .ok () := by
        rcases flush_file_outcome live noStray with ⟨flushes, _⟩ | ⟨_, status', v', done, _⟩
        · exact absurd (completes.mpr flushes) stops
        · rw [done]
          simp
      obtain ⟨status', w'', object', failed, _⟩ := safely.stays fails
      rw [close] at failed
      cases failed
    · intro flushes
      exact absurd (completes.mpr flushes) stops

/-- The file `f` with one page, opened once, and a pool with one frame. -/
def openedOnce : World :=
  (DB.openFile [102] { BufMgr.onePageWorld with files := fun _ => none, brk := 1 }).2

theorem opened_once_in_order : openedOnce.PoolInOrder :=
  ⟨BufMgr.new_orderly 1 (by decide), rfl⟩

/-- Page 1 is read and let go of with a change reported: the last close stores it. -/
theorem closes_safely_one_page :
    let used := (BufMgr.unPinPage 1 1 true (BufMgr.readPage 1 1 openedOnce).2).2
    (used.bufMgr.bufTable 0).dirty = true ∧
      used.ClosesSafely 1 { fileName := [102], openCnt := 1, unixFile := true } := by
  intro used
  refine ⟨by decide, ?_⟩
  have orderly : used.bufMgr.Orderly :=
    ((opened_once_in_order.read_page 1 1).un_pin_page 1 1 true).orderly
  apply (closes_safely_iff_flush_completes orderly (by decide) rfl rfl (by decide)).mpr
  intro frame bound _
  have only : frame = 0 := by
    have size : used.bufMgr.numBufs = 1 := rfl
    omega
  subst only
  exact ⟨by decide, fun _ => ⟨by decide, rfl, _, rfl⟩⟩

/-- A client still has page 1 pinned. The close succeeds, and the frame keeps the address of
the deleted object. -/
theorem close_succeeds_with_a_pinned_page :
    ¬(BufMgr.readPage 1 1 openedOnce).2.ClosesSafely 1
      { fileName := [102], openCnt := 1, unixFile := true } := by
  intro safely
  have returns : (DB.closeFile 1 (BufMgr.readPage 1 1 openedOnce).2).1 = .ok () := by decide
  have gone := (safely.stored _ (Prod.ext returns rfl)).1 0 (by decide)
  exact gone ⟨by decide, by decide⟩

end World

end PrimitiveDB

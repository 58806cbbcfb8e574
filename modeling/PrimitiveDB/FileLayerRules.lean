import PrimitiveDB.FileLayer

/-!
# Rules for the file layer

What a caller of `class File` may use: a successful read or write inverted into
its preconditions and its effect, the conditions under which one succeeds, and
the part of the world that no file call touches.
-/

namespace PrimitiveDB

set_option autoImplicit false

namespace DbM

variable {α β : Type} {relation : World → World → Prop}

/-- Every run of the computation moves the world along `relation`, whatever its
outcome. -/
def Moves (relation : World → World → Prop) (call : DbM α) : Prop :=
  ∀ w, relation w (call w).2

theorem moves_bind (trans : ∀ first second third, relation first second →
      relation second third → relation first third) {first : DbM α} {next : α → DbM β}
    (firstMoves : Moves relation first) (nextMoves : ∀ value, Moves relation (next value)) :
    Moves relation (first >>= next) := by
  intro w
  have here := firstMoves w
  rw [bind_apply]
  rcases step : first w with ⟨value | status | _, w'⟩ <;> rw [step] at here
  · exact trans _ _ _ here (nextMoves value w')
  · exact here
  · exact here

end DbM

namespace World

/-- Two worlds that differ at most in the disk and in the pending faults. -/
structure SameMemory (before after : World) : Prop where
  bufMgr : after.bufMgr = before.bufMgr
  files : after.files = before.files
  openFiles : after.openFiles = before.openFiles
  brk : after.brk = before.brk
  malloc : after.malloc = before.malloc
  bufFailed : after.bufFailed = before.bufFailed
  given : after.given = before.given

theorem SameMemory.refl (w : World) : SameMemory w w := ⟨rfl, rfl, rfl, rfl, rfl, rfl, rfl⟩

theorem SameMemory.trans {first second third : World} (left : SameMemory first second)
    (right : SameMemory second third) : SameMemory first third :=
  ⟨right.1.trans left.1, right.2.trans left.2, right.3.trans left.3, right.4.trans left.4,
    right.5.trans left.5, right.6.trans left.6, right.7.trans left.7⟩

theorem unix_file_live {w : World} {file : FilePtr} {contents : UnixFile}
    (opened : w.unixFile file = some contents) :
    ∃ object, w.files file = some object ∧ object.unixFile = true ∧
      w.disk object.fileName = some contents := by
  unfold unixFile at opened
  cases live : w.files file with
  | none => simp [live] at opened
  | some object =>
      simp only [live, Option.ite_none_right_eq_some] at opened
      exact ⟨object, rfl, opened.1, opened.2⟩

/-- The call number `calls` from now, a write of that page, would succeed. -/
def WriteSucceeds (w : World) (calls : Nat) (file : FilePtr) (pageNo : Int) : Prop :=
  1 ≤ pageNo ∧ w.faults calls = false ∧ ∃ contents, w.unixFile file = some contents

/-- The call number `calls` from now, a read of that page, would succeed. -/
def ReadSucceeds (w : World) (calls : Nat) (file : FilePtr) (pageNo : Int) : Prop :=
  1 ≤ pageNo ∧ w.faults calls = false ∧
    ∃ contents, w.unixFile file = some contents ∧ pageNo < contents.size

def FilesGrow (before after : World) : Prop :=
  ∀ file contents, before.unixFile file = some contents →
    ∃ contents', after.unixFile file = some contents' ∧ contents.size ≤ contents'.size

theorem FilesGrow.refl (w : World) : FilesGrow w w :=
  fun _ contents opened => ⟨contents, opened, le_refl _⟩

theorem FilesGrow.trans {first second third : World} (left : FilesGrow first second)
    (right : FilesGrow second third) : FilesGrow first third := by
  intro file contents opened
  obtain ⟨contents', opened', larger⟩ := left file contents opened
  obtain ⟨contents'', opened'', larger'⟩ := right file contents' opened'
  exact ⟨contents'', opened'', larger.trans larger'⟩

theorem files_grow_set_disk {w : World} {file : FilePtr} {object : File} {contents : UnixFile}
    (live : w.files file = some object) (opened : w.unixFile file = some contents)
    (pageNo : Nat) (image : PageImage) :
    FilesGrow w (w.setDisk object.fileName (some (contents.writeAt pageNo image))) := by
  intro other contents' opened'
  obtain ⟨object', live', openFd, stored⟩ := unix_file_live opened'
  by_cases same : object'.fileName = object.fileName
  · refine ⟨contents.writeAt pageNo image, ?_, ?_⟩
    · simp [unixFile, live', openFd, setDisk, same]
    · obtain ⟨object'', live'', _, stored'⟩ := unix_file_live opened
      rw [live] at live''
      obtain rfl := Option.some.inj live''
      rw [same, stored'] at stored
      obtain rfl := Option.some.inj stored
      exact Nat.le_max_left _ _
  · refine ⟨contents', ?_, le_refl _⟩
    simp [unixFile, live', openFd, setDisk, same, stored]

end World

namespace File

open World

variable {w w' : World} {file : FilePtr} {pageNo : Int} {image : PageImage}

theorem intread_cases (file : FilePtr) (pageNo : Int) (w : World) :
    (w.files file = none ∧ intread file pageNo w = (.crash, w)) ∨
      intread file pageNo w = (.err .UNIXERR, w.tick) ∨
      ∃ contents, w.unixFile file = some contents ∧ w.faults 0 = false ∧ 0 ≤ pageNo ∧
        pageNo < contents.size ∧
        intread file pageNo w = (.ok (contents.page pageNo.toNat), w.tick) := by
  cases live : w.files file with
  | none => simp [intread, deref, DbM.bind_apply, live]
  | some object =>
      have later : w.tick.unixFile file = w.unixFile file := rfl
      cases fault : w.faults 0 with
      | true => simp [intread, deref, DbM.bind_apply, live, DbM.systemCall, fault, DbM.fail]
      | false =>
          cases opened : w.unixFile file with
          | none =>
              simp [intread, deref, DbM.bind_apply, live, DbM.systemCall, fault, DbM.fail,
                DbM.read, later, opened]
          | some contents =>
              by_cases inside : 0 ≤ pageNo ∧ pageNo < contents.size
              · simp [intread, deref, DbM.bind_apply, live, DbM.systemCall, fault, DbM.read,
                  later, opened, inside, DbM.pure_apply]
              · simp [intread, deref, DbM.bind_apply, live, DbM.systemCall, fault, DbM.read,
                  later, opened, inside, DbM.fail]

theorem intwrite_cases (file : FilePtr) (pageNo : Int) (image : PageImage) (w : World) :
    (w.files file = none ∧ intwrite file pageNo image w = (.crash, w)) ∨
      intwrite file pageNo image w = (.err .UNIXERR, w.tick) ∨
      ∃ object contents, w.files file = some object ∧ w.unixFile file = some contents ∧
        w.faults 0 = false ∧ 0 ≤ pageNo ∧
        intwrite file pageNo image w = (.ok (), w.tick.setDisk object.fileName
          (some (contents.writeAt pageNo.toNat image))) := by
  cases live : w.files file with
  | none => simp [intwrite, deref, DbM.bind_apply, live]
  | some object =>
      have later : w.tick.unixFile file = w.unixFile file := rfl
      cases fault : w.faults 0 with
      | true => simp [intwrite, deref, DbM.bind_apply, live, DbM.systemCall, fault, DbM.fail]
      | false =>
          cases opened : w.unixFile file with
          | none =>
              simp [intwrite, deref, DbM.bind_apply, live, DbM.systemCall, fault, DbM.fail,
                DbM.read, later, opened]
          | some contents =>
              by_cases inside : 0 ≤ pageNo
              · simp [intwrite, deref, DbM.bind_apply, live, DbM.systemCall, fault, DbM.read,
                  later, opened, inside, DbM.modify]
              · simp [intwrite, deref, DbM.bind_apply, live, DbM.systemCall, fault, DbM.read,
                  later, opened, inside, DbM.fail]

theorem intread_ok {contents : UnixFile} (opened : w.unixFile file = some contents)
    (fault : w.faults 0 = false) (lower : 0 ≤ pageNo) (upper : pageNo < contents.size) :
    intread file pageNo w = (.ok (contents.page pageNo.toNat), w.tick) := by
  obtain ⟨object, live, _⟩ := unix_file_live opened
  have later : w.tick.unixFile file = w.unixFile file := rfl
  simp [intread, deref, DbM.bind_apply, live, DbM.systemCall, fault, DbM.read, later, opened,
    lower, upper, DbM.pure_apply]

theorem intwrite_ok {object : File} {contents : UnixFile} (live : w.files file = some object)
    (opened : w.unixFile file = some contents) (fault : w.faults 0 = false)
    (lower : 0 ≤ pageNo) (image : PageImage) :
    intwrite file pageNo image w =
      (.ok (), w.tick.setDisk object.fileName
        (some (contents.writeAt pageNo.toNat image))) := by
  have later : w.tick.unixFile file = w.unixFile file := rfl
  simp [intwrite, deref, DbM.bind_apply, live, DbM.systemCall, fault, DbM.read, later, opened,
    lower, DbM.modify]

theorem intread_inv (run : intread file pageNo w = (.ok image, w')) :
    ∃ contents, w.unixFile file = some contents ∧ w.faults 0 = false ∧
      0 ≤ pageNo ∧ pageNo < contents.size ∧ image = contents.page pageNo.toNat ∧
      w' = w.tick := by
  rcases intread_cases file pageNo w with ⟨_, dead⟩ | failed | ⟨contents, opened, fault, lower,
    upper, done⟩
  · rw [dead] at run
    cases run
  · rw [failed] at run
    cases run
  · rw [done] at run
    cases run
    exact ⟨contents, opened, fault, lower, upper, rfl, rfl⟩

theorem intwrite_inv (run : intwrite file pageNo image w = (.ok (), w')) :
    ∃ object contents, w.files file = some object ∧ w.unixFile file = some contents ∧
      w.faults 0 = false ∧ 0 ≤ pageNo ∧
      w' = w.tick.setDisk object.fileName (some (contents.writeAt pageNo.toNat image)) := by
  rcases intwrite_cases file pageNo image w with ⟨_, dead⟩ | failed | ⟨object, contents, live,
    opened, fault, lower, done⟩
  · rw [dead] at run
    cases run
  · rw [failed] at run
    cases run
  · rw [done] at run
    cases run
    exact ⟨object, contents, live, opened, fault, lower, rfl⟩

/-- Read or write, succeed or fail: a file call leaves the memory of the process
alone and every open file readable. -/
def Quiet (before after : World) : Prop := SameMemory before after ∧ FilesGrow before after

theorem Quiet.trans {first second third : World} (left : Quiet first second)
    (right : Quiet second third) : Quiet first third :=
  ⟨left.1.trans right.1, left.2.trans right.2⟩

theorem quiet_refl (w : World) : Quiet w w := ⟨SameMemory.refl w, FilesGrow.refl w⟩

theorem quiet_tick (w : World) : Quiet w w.tick :=
  ⟨⟨rfl, rfl, rfl, rfl, rfl, rfl, rfl⟩, fun _ contents opened => ⟨contents, opened, le_refl _⟩⟩

theorem intread_moves (file : FilePtr) (pageNo : Int) :
    DbM.Moves Quiet (intread file pageNo) := by
  intro w
  rcases intread_cases file pageNo w with ⟨_, run⟩ | run | ⟨_, _, _, _, _, run⟩ <;> rw [run]
  · exact quiet_refl w
  · exact quiet_tick w
  · exact quiet_tick w

theorem intwrite_moves (file : FilePtr) (pageNo : Int) (image : PageImage) :
    DbM.Moves Quiet (intwrite file pageNo image) := by
  intro w
  rcases intwrite_cases file pageNo image w with ⟨_, run⟩ | run |
    ⟨object, contents, live, opened, _, _, run⟩ <;> rw [run]
  · exact quiet_refl w
  · exact quiet_tick w
  · exact (quiet_tick w).trans
      ⟨⟨rfl, rfl, rfl, rfl, rfl, rfl, rfl⟩, files_grow_set_disk live opened _ _⟩

theorem read_page_moves (file : FilePtr) (pageNo : Int) :
    DbM.Moves Quiet (readPage file pageNo) := by
  unfold readPage
  split_ifs
  · exact quiet_refl
  · exact intread_moves file pageNo

theorem write_page_moves (file : FilePtr) (pageNo : Int) (image : PageImage) :
    DbM.Moves Quiet (writePage file pageNo image) := by
  unfold writePage
  split_ifs
  · exact quiet_refl
  · exact intwrite_moves file pageNo image

theorem allocate_page_moves (file : FilePtr) : DbM.Moves Quiet (allocatePage file) := by
  unfold allocatePage
  refine DbM.moves_bind @Quiet.trans (intread_moves file 0) (fun header => ?_)
  dsimp only
  split_ifs
  · refine DbM.moves_bind @Quiet.trans (intread_moves _ _) (fun firstFree => ?_)
    exact DbM.moves_bind @Quiet.trans (intwrite_moves _ _ _) (fun _ => quiet_refl)
  all_goals
    refine DbM.moves_bind @Quiet.trans (intwrite_moves _ _ _) (fun _ => ?_)
    exact DbM.moves_bind @Quiet.trans (intwrite_moves _ _ _) (fun _ => quiet_refl)

theorem read_page_succeeds (ready : w.ReadSucceeds 0 file pageNo) :
    ∃ contents, w.unixFile file = some contents ∧
      readPage file pageNo w = (.ok (contents.page pageNo.toNat), w.tick) := by
  obtain ⟨lower, fault, contents, opened, upper⟩ := ready
  refine ⟨contents, opened, ?_⟩
  simp only [readPage]
  rw [if_neg (by omega)]
  exact intread_ok opened fault (by omega) upper

theorem write_page_succeeds (ready : w.WriteSucceeds 0 file pageNo) (image : PageImage) :
    ∃ object contents, w.files file = some object ∧ w.unixFile file = some contents ∧
      writePage file pageNo image w =
        (.ok (), w.tick.setDisk object.fileName
          (some (contents.writeAt pageNo.toNat image))) := by
  obtain ⟨lower, fault, contents, opened⟩ := ready
  obtain ⟨object, live, _⟩ := unix_file_live opened
  refine ⟨object, contents, live, opened, ?_⟩
  simp only [writePage]
  rw [if_neg (by omega)]
  exact intwrite_ok live opened fault (by omega) image

theorem write_page_err {status : Status}
    (run : writePage file pageNo image w = (.err status, w')) :
    status = .BADPAGENO ∨ status = .UNIXERR := by
  unfold writePage at run
  split_ifs at run
  · cases run
    exact .inl rfl
  · right
    rcases intwrite_cases file pageNo image w with ⟨_, done⟩ | done | ⟨_, _, _, _, _, _, done⟩ <;>
      rw [done] at run <;> cases run
    rfl

/-- The page number `allocatePage` would hand out next. -/
def nextPageNo (db : DBPage) : Int := if db.nextFree ≠ -1 then db.nextFree else db.numPages

/-- A successful `allocatePage` makes three system calls and returns the page
that the header names. -/
theorem allocate_page_ok (run : allocatePage file w = (.ok pageNo, w')) :
    ∃ contents, w.unixFile file = some contents ∧
      pageNo = nextPageNo (contents.page 0).asDBPage ∧ ∀ n, w'.faults n = w.faults (n + 3) := by
  unfold allocatePage at run
  obtain ⟨header, w₁, readHeader, run⟩ := DbM.bind_eq_ok_iff.mp run
  obtain ⟨contents, opened, _, _, _, rfl, rfl⟩ := intread_inv readHeader
  refine ⟨contents, opened, ?_⟩
  simp only [Int.toNat_zero] at run
  unfold nextPageNo
  split_ifs at run ⊢ with listed
  · obtain ⟨firstFree, w₂, readFree, run⟩ := DbM.bind_eq_ok_iff.mp run
    obtain ⟨_, _, _, _, _, _, rfl⟩ := intread_inv readFree
    obtain ⟨_, w₃, writeHeader, run⟩ := DbM.bind_eq_ok_iff.mp run
    obtain ⟨_, _, _, _, _, _, rfl⟩ := intwrite_inv writeHeader
    cases run
    exact ⟨rfl, fun _ => rfl⟩
  all_goals
    obtain ⟨_, w₂, extend, run⟩ := DbM.bind_eq_ok_iff.mp run
    obtain ⟨_, _, _, _, _, _, rfl⟩ := intwrite_inv extend
    obtain ⟨_, w₃, writeHeader, run⟩ := DbM.bind_eq_ok_iff.mp run
    obtain ⟨_, _, _, _, _, _, rfl⟩ := intwrite_inv writeHeader
    cases run
    exact ⟨rfl, fun _ => rfl⟩

end File

end PrimitiveDB

import PrimitiveDB.HeapFile
import PrimitiveDB.LogicalFiles

/-!
# Contracts of the storage layers

What the heap-file layer may rely on, stated over logical files: each call of
the buffer manager, and opening, closing, creating and destroying files. A
failed buffer call sets the ghost flag, so a run whose flag is clear has used
only the successful half of these lemmas.
-/

namespace PrimitiveDB.World

open BufMgr

set_option autoImplicit false

variable {w w' : World} {pins : List Pin} {opens : List FilePtr} {file : FilePtr}
  {fileName : FileName} {pageNo : Int} {lf : LogicalFile}

theorem buf_mgr_ok {α : Type} {call : DbM α} {value : α}
    (run : call w = (.ok value, w')) : callBufMgr call w = (.ok (.ok value), w') := by
  simp [callBufMgr, run]

theorem buf_mgr_err {α : Type} {call : DbM α} {status : Status}
    (run : call w = (.err status, w')) :
    callBufMgr call w = (.ok (.error status), { w' with bufFailed := true }) := by
  simp [callBufMgr, run]

theorem attempt_ok {α : Type} {call : DbM α} {value : α}
    (run : call w = (.ok value, w')) : DbM.attempt call w = (.ok (.ok value), w') := by
  simp [DbM.attempt, run]

theorem attempt_err {α : Type} {call : DbM α} {status : Status}
    (run : call w = (.err status, w')) : DbM.attempt call w = (.ok (.error status), w') := by
  simp [DbM.attempt, run]

/-- A page that the file does not have cannot be read, and is in no frame. -/
theorem read_page_outside (storage : w.Storage pins opens)
    (named : w.nameOf file = some fileName) (logical : w.logical fileName = some lf)
    (outside : ¬lf.Inside pageNo) :
    ∃ status w', BufMgr.readPage file pageNo w = (.err status, w') := by
  obtain ⟨object, contents, live, _, openFd, stored, opened, _, size, _, _⟩ :=
    storage.toFiled.handle_spec named logical
  have missing : w.bufMgr.hashTable.lookup file pageNo = none := by
    cases found : w.bufMgr.hashTable.lookup file pageNo with
    | none => rfl
    | some frame =>
        have holds := (storage.residency.mapped _ _ _).mp found
        have page := storage.held frame file pageNo trivial holds
        exact absurd ((storage.toFiled.has_page_iff named logical).mp page) outside
  rw [read_page_miss w file pageNo missing]
  rcases alloc_buf_spec storage.toHealthy with ⟨w₁, run, _⟩ |
    ⟨frame, w₁, run, vacated, steady, _, _⟩
  · exact ⟨_, _, DbM.bind_err run⟩
  · rw [DbM.bind_ok run]
    obtain ⟨contents', opened', alike⟩ := steady.unix_file opened
    have failed : ∃ status w₂, File.readPage file pageNo w₁ = (.err status, w₂) := by
      unfold File.readPage
      split_ifs with low
      · exact ⟨_, _, rfl⟩
      · rcases File.intread_cases file pageNo w₁ with ⟨dead, _⟩ | done |
          ⟨contents'', opened'', _, _, upper, _⟩
        · rw [steady.files, live] at dead
          cases dead
        · exact ⟨_, _, done⟩
        · rw [opened'] at opened''
          obtain rfl := Option.some.inj opened''
          rw [alike.size] at upper
          exact absurd ⟨by omega, by rw [size]; exact upper⟩ outside
    obtain ⟨status, w₂, failed⟩ := failed
    exact ⟨status, w₂, DbM.bind_err failed⟩

/-- A page can be pinned next to `pins`: it is in the pool, or there is a frame
for it. -/
def HasRoom (w : World) (pins : List Pin) (file : FilePtr) (pageNo : Int) : Prop :=
  (∃ pin ∈ pins, pin.file = file ∧ pin.pageNo = pageNo) ∨
    ∃ frame < w.bufMgr.numBufs, pinsOn pins frame = 0

theorem Storage.no_room (storage : w.Storage pins opens) (exhausted : w.Exhausted)
    (absent : w.bufMgr.hashTable.lookup file pageNo = none) : ¬w.HasRoom pins file pageNo := by
  rintro (⟨pin, member, rfl, rfl⟩ | ⟨frame, inside, free⟩)
  · rw [storage.toHealthy.lookup_of_pin member] at absent
    cases absent
  · have pinned := exhausted frame inside
    rw [storage.pinned frame inside, free] at pinned
    cases pinned

theorem Storage.read_page (storage : w.Storage pins opens)
    (named : w.nameOf file = some fileName) (logical : w.logical fileName = some lf)
    (pageNo : Int) :
    ∃ result w', callBufMgr (BufMgr.readPage file pageNo) w = (.ok result, w') ∧
      ((∃ status, result = .error status ∧ w'.bufFailed = true ∧
          (lf.Inside pageNo → w'.Storage pins opens ∧ SameLogical w w' ∧
            ¬w.HasRoom pins file pageNo)) ∨
        ∃ frame, result = .ok frame ∧ lf.Inside pageNo ∧
          w'.Storage ({ file, pageNo, frame, owed := false } :: pins) opens ∧
          SameLogical w w' ∧ w'.bufFailed = w.bufFailed ∧
          w'.bufMgr.bufPool frame = lf.page pageNo) := by
  by_cases inside : lf.Inside pageNo
  · have page := (storage.toFiled.has_page_iff named logical).mpr inside
    rcases read_page_spec storage.toHealthy page with ⟨w₁, run, healthy, steady, same, none_⟩ |
      ⟨frame, w₁, run, healthy, steady, same⟩
    · refine ⟨_, _, buf_mgr_err run, .inl ⟨_, rfl, rfl, fun _ => ?_⟩⟩
      obtain ⟨storage', unseen⟩ := storage.unseen healthy steady same
      exact ⟨storage'.flag true,
        ⟨unseen.files, unseen.logical, unseen.openFiles, unseen.given, unseen.numBufs⟩,
        storage.no_room none_.1 none_.2⟩
    · obtain ⟨storage', unseen⟩ := storage.unseen healthy steady same
      refine ⟨_, w₁, buf_mgr_ok run, .inr ⟨frame, rfl, inside, storage', unseen,
        steady.bufFailed, ?_⟩⟩
      exact (storage'.page_of_pin List.mem_cons_self (by rw [unseen.nameOf]; exact named)
        (by rw [unseen.logical]; exact logical)).2
  · obtain ⟨status, w₁, run⟩ := read_page_outside storage named logical inside
    exact ⟨_, _, buf_mgr_err run, .inl ⟨status, rfl, rfl, fun within => absurd within inside⟩⟩

theorem Storage.un_pin_page {pin : Pin} (storage : w.Storage (pin :: pins) opens) (dirty : Bool)
    (reports : pin.owed = true → dirty = true) :
    ∃ w', callBufMgr (BufMgr.unPinPage pin.file pin.pageNo dirty) w = (.ok (.ok ()), w') ∧
      w'.Storage pins opens ∧ SameLogical w w' ∧ w'.bufFailed = w.bufFailed := by
  obtain ⟨w₁, run, healthy, steady, same⟩ := un_pin_page_spec storage.toHealthy dirty reports
  obtain ⟨storage', unseen⟩ := storage.unseen healthy steady same
  exact ⟨w₁, buf_mgr_ok run, storage', unseen, steady.bufFailed⟩

structure Writes (before after : World) (fileName : FileName) (lf' : LogicalFile) : Prop where
  files : after.files = before.files
  openFiles : after.openFiles = before.openFiles
  logical : after.logical = Function.update before.logical fileName (some lf')
  given : ∀ other pageNo, (before.given other pageNo).isSome → (after.given other pageNo).isSome

theorem Writes.nameOf {lf' : LogicalFile} (writes : Writes w w' fileName lf') (file : FilePtr) :
    w'.nameOf file = w.nameOf file := by
  simp only [World.nameOf, writes.files]

theorem Storage.logical_store_image (storage : w.Storage pins opens) {pin : Pin}
    (member : pin ∈ pins) (named : w.nameOf pin.file = some fileName)
    (logical : w.logical fileName = some lf) (image : PageImage) :
    (w.storeImage pin.frame image).logical =
      Function.update w.logical fileName (some (lf.write pin.pageNo image)) := by
  have steady := store_image_steady w pin.frame image
  have looks := storage.toHealthy.view_store_image member image
  obtain ⟨inside, _⟩ := storage.page_of_pin member named logical
  obtain ⟨object, contents, live, rfl, openFd, stored, opened, found, size, first, pages⟩ :=
    storage.toFiled.handle_spec named logical
  funext other
  by_cases same : other = object.fileName
  · subst same
    rw [Function.update_self, logical_eq_some (w := w.storeImage pin.frame image) stored]
    rw [logical_eq_some stored] at logical
    obtain rfl := Option.some.inj logical
    simp only [LogicalFile.write, Option.some.injEq, LogicalFile.mk.injEq, true_and]
    funext pageNo
    have found' : (w.storeImage pin.frame image).openFiles.find object.fileName =
      some pin.file := found
    by_cases here : pageNo = pin.pageNo
    · subst here
      simp only [LogicalFile.Inside] at inside
      rw [Function.update_self, if_pos inside, filePage, found']
      simp [looks]
    · rw [Function.update_of_ne here]
      split_ifs
      · rw [filePage, found']
        simp [looks, here, filePage, found]
      · rfl
  · rw [Function.update_of_ne same]
    refine storage.toFiled.logical_at steady other ?_
    intro otherFile otherNamed pageNo _
    have different : otherFile ≠ pin.file := by
      rintro rfl
      rw [named] at otherNamed
      exact same (Option.some.inj otherNamed).symm
    simp [looks, different]

theorem Storage.give_image (storage : w.Storage pins opens) {pin : Pin} (member : pin ∈ pins)
    (owes : pin.owed = true) (named : w.nameOf pin.file = some fileName)
    (logical : w.logical fileName = some lf) (image : PageImage) :
    (w.giveImage pin.frame image).Storage pins opens ∧
      Writes w (w.giveImage pin.frame image) fileName (lf.write pin.pageNo image) ∧
      ((w.giveImage pin.frame image).given fileName pin.pageNo).isSome := by
  have healthy := storage.toHealthy.store_image member owes image
  have changed := storage.logical_store_image member named logical image
  obtain ⟨inside, _⟩ := storage.page_of_pin member named logical
  obtain ⟨_, _, sameFile, samePage⟩ := (storage.held_by pin member).1
  have given : (w.giveImage pin.frame image).given = fun other pageNo =>
      if other = fileName ∧ pageNo = pin.pageNo then some image else w.given other pageNo := by
    funext other pageNo
    have name : (w.files (w.bufMgr.bufTable pin.frame).file).map File.fileName =
      some fileName := by rw [sameFile]; exact named
    simp only [giveImage, name, samePage, Option.some.injEq, eq_comm]
  refine ⟨⟨⟨⟨healthy.reliable, ⟨healthy.files.apart, healthy.files.formed⟩, healthy.held,
    healthy.pinned, healthy.held_by, healthy.clean⟩, healthy.residency⟩,
    ⟨storage.stored, storage.opened, storage.present, storage.table, storage.distinct,
      storage.null, storage.brk, storage.above⟩, ?_, storage.counted, storage.live⟩,
    ⟨rfl, rfl, changed, ?_⟩, ?_⟩
  · intro other pageNo held recorded
    have changed' : (w.giveImage pin.frame image).logical = _ := changed
    rw [given] at recorded
    rw [changed']
    by_cases here : other = fileName
    · subst here
      refine ⟨_, Function.update_self _ _ _, ?_⟩
      by_cases page : pageNo = pin.pageNo
      · subst page
        simp only [and_self, if_true, Option.some.injEq] at recorded
        exact ⟨inside, by simp [LogicalFile.write, recorded]⟩
      · simp only [page, and_false, if_false] at recorded
        obtain ⟨lf', logical', inside', held'⟩ := storage.kept other pageNo held recorded
        rw [logical] at logical'
        obtain rfl := Option.some.inj logical'
        exact ⟨inside', by simp [LogicalFile.write, page, held']⟩
    · simp only [here, false_and, if_false] at recorded
      rw [Function.update_of_ne here]
      exact storage.kept other pageNo held recorded
  · intro other pageNo before
    rw [given]
    dsimp only
    split_ifs
    · rfl
    · exact before
  · rw [given]
    simp

/-- The file with one page more, before a frame is found for the page. -/
theorem Storage.grow {object : File} {contents after : UnixFile}
    (storage : w.Storage pins opens) (stored : w.disk object.fileName = some contents)
    (grows : contents.Grows after pageNo) :
    (w.setDisk object.fileName (some after)).Filed := by
  refine ⟨?_, storage.opened, ?_, storage.table, storage.distinct, storage.null, storage.brk,
    storage.above⟩
  · intro other otherContents otherStored
    by_cases same : other = object.fileName
    · subst same
      simp only [setDisk, Function.update_self, Option.some.injEq] at otherStored
      subst otherStored
      exact (grows.extended (storage.stored _ _ stored)).2.2.1
    · simp only [setDisk, Function.update_of_ne same] at otherStored
      exact storage.stored other otherContents otherStored
  · intro other otherObject otherLive
    obtain ⟨otherContents, otherStored⟩ := storage.present other otherObject otherLive
    by_cases same : otherObject.fileName = object.fileName
    · exact ⟨after, by simp [setDisk, same]⟩
    · exact ⟨otherContents, by simp [setDisk, same, otherStored]⟩

theorem Storage.logical_grow_other {object : File} {contents after : UnixFile}
    (storage : w.Storage pins opens) (stored : w.disk object.fileName = some contents)
    (grows : contents.Grows after pageNo) {other : FileName} (different : other ≠ object.fileName) :
    (w.setDisk object.fileName (some after)).logical other = w.logical other := by
  have viewGrown := view_grow stored grows
  cases otherStored : w.disk other with
  | none =>
      have otherStored₁ : (w.setDisk object.fileName (some after)).disk other = none := by
        simp [setDisk, different, otherStored]
      simp [World.logical, otherStored, otherStored₁]
  | some otherContents =>
      have otherStored₁ : (w.setDisk object.fileName (some after)).disk other =
          some otherContents := by
        simp [setDisk, different, otherStored]
      rw [logical_eq_some otherStored, logical_eq_some otherStored₁]
      congr 2
      funext pageNo
      split_ifs with inside
      · have otherFound : (w.setDisk object.fileName (some after)).openFiles.find other =
          w.openFiles.find other := rfl
        rw [filePage, filePage, otherFound, otherStored₁, otherStored]
        cases openOther : w.openFiles.find other with
        | none => rfl
        | some otherFile =>
            obtain ⟨otherObject, otherLive, rfl⟩ := (storage.table _ _).mp openOther
            have otherFd := storage.opened otherFile otherObject otherLive
            refine viewGrown otherFile pageNo ⟨otherContents, ?_,
              (storage.toFiled.allocated_iff otherStored pageNo).mpr inside⟩
            simp [World.unixFile, otherLive, otherFd, otherStored]
      · rfl

/-- The logical files after an allocation, given that the old pages look the same. -/
theorem Storage.logical_grow {object : File} {contents after : UnixFile}
    (storage : w.Storage pins opens) (live : w.files file = some object)
    (stored : w.disk object.fileName = some contents)
    (logical : w.logical object.fileName = some lf)
    (grows : contents.Grows after pageNo)
    (steady : Steady (w.setDisk object.fileName (some after)) w')
    (views : SameView w w') :
    w'.logical = Function.update w.logical object.fileName
      (some (lf.extend (w'.view file lf.size))) := by
  have named : w.nameOf file = some object.fileName := by simp [nameOf, live]
  have openFd := storage.opened file object live
  obtain ⟨rfl, sizeAfter, list, firstAfter⟩ := grows.extended (storage.stored _ _ stored)
  have hasPages := has_page_grow live openFd stored grows storage.files
  obtain ⟨object', contents', live', _, _, stored', opened, found, size, first, pages⟩ :=
    storage.toFiled.handle_spec named logical
  rw [stored] at stored'
  obtain rfl := Option.some.inj stored'
  funext other
  by_cases same : other = object.fileName
  · subst same
    obtain ⟨final, storedFinal, alike⟩ := steady.stored object.fileName after
      (by simp [setDisk])
    have header := alike.kept 0 (by rw [sizeAfter]; omega) (by rw [list.allocated_iff]; omega)
    simp only [Int.toNat_zero] at header
    rw [Function.update_self, logical_eq_some storedFinal]
    simp only [LogicalFile.extend, Option.some.injEq, LogicalFile.mk.injEq]
    refine ⟨by rw [alike.size, sizeAfter, size], by rw [header, firstAfter, first, size], ?_⟩
    funext pageNo
    have found' : w'.openFiles.find object.fileName = some file := by
      rw [steady.openFiles]
      exact found
    rw [size, alike.size, sizeAfter]
    by_cases here : pageNo = contents.size
    · subst here
      have headed := (storage.stored _ _ stored).header
      rw [Function.update_self, if_pos ⟨by omega, by push_cast; omega⟩, filePage, found']
    · rw [Function.update_of_ne here]
      by_cases inside : lf.Inside pageNo
      · have within := inside
        simp only [LogicalFile.Inside, size] at within
        rw [if_pos ⟨within.1, by push_cast; omega⟩, filePage, found', pages pageNo inside]
        exact views file pageNo ((storage.toFiled.has_page_iff named logical).mpr inside)
      · have without := inside
        simp only [LogicalFile.Inside, size] at without
        rw [if_neg (fun both => without ⟨both.1, by have := both.2; push_cast at this; omega⟩)]
        rw [logical_eq_some stored] at logical
        obtain rfl := Option.some.inj logical
        exact (if_neg without).symm
  · rw [Function.update_of_ne same, ← storage.logical_grow_other stored grows same]
    refine (storage.grow stored grows).logical_at steady other ?_
    intro otherFile otherNamed pageNo page
    have old : w.HasPage otherFile pageNo := by
      refine ((hasPages otherFile pageNo).mp page).resolve_left ?_
      intro equal
      obtain ⟨rfl, _⟩ := Prod.mk.inj equal
      have renamed : w.nameOf otherFile = some other := otherNamed
      rw [named] at renamed
      exact same (Option.some.inj renamed).symm
    rw [views otherFile pageNo old, view_grow stored grows otherFile pageNo old]

/-- The new page has been given nothing yet, so the record still holds. -/
theorem Kept.extend (kept : w.Kept) (logical : w.logical fileName = some lf) {image : PageImage}
    (changed : w'.logical = Function.update w.logical fileName (some (lf.extend image)))
    (given : w'.given = w.given) : w'.Kept := by
  intro other pageNo held recorded
  rw [given] at recorded
  obtain ⟨lf', logical', inside, page⟩ := kept other pageNo held recorded
  rw [changed]
  by_cases same : other = fileName
  · subst same
    rw [logical] at logical'
    obtain rfl := Option.some.inj logical'
    refine ⟨_, Function.update_self _ _ _, ?_, ?_⟩
    · simp only [LogicalFile.Inside, LogicalFile.extend] at inside ⊢
      push_cast
      omega
    · simp only [LogicalFile.extend]
      rw [Function.update_of_ne (by have := inside.2; omega)]
      exact page
  · exact ⟨lf', by rw [Function.update_of_ne same]; exact logical', inside, page⟩

theorem Healthy.pinned_alone {pin : Pin} (healthy : w.Healthy (pin :: pins))
    (alone : ∀ other ∈ pins, other.file = pin.file → other.pageNo ≠ pin.pageNo) :
    pin.frame < w.bufMgr.numBufs ∧ pinsOn pins pin.frame = 0 := by
  obtain ⟨bound, _, file, pageNo⟩ := (healthy.held_by pin (by simp)).1
  refine ⟨bound, ?_⟩
  rw [pinsOn, List.countP_eq_zero]
  intro other member here
  obtain ⟨_, _, file', pageNo'⟩ := (healthy.held_by other (by simp [member])).1
  rw [of_decide_eq_true here, file] at file'
  rw [of_decide_eq_true here, pageNo] at pageNo'
  exact alone other member file'.symm pageNo'.symm

theorem Storage.alloc_page (storage : w.Storage pins opens)
    (named : w.nameOf file = some fileName) (logical : w.logical fileName = some lf) :
    ∃ result w', callBufMgr (BufMgr.allocPage file) w = (.ok result, w') ∧
      ((∃ status, result = .error status ∧ w'.bufFailed = true ∧ w'.Storage pins opens ∧
          w.Exhausted ∧ ∃ image, Writes w w' fileName (lf.extend image)) ∨
        ∃ frame, result = .ok ((lf.size : Int), frame) ∧ ¬w.Exhausted ∧
          w'.Storage ({ file, pageNo := lf.size, frame, owed := true } :: pins) opens ∧
          w'.bufFailed = w.bufFailed ∧
          Writes w w' fileName (lf.extend (w'.bufMgr.bufPool frame))) := by
  obtain ⟨object, contents, live, rfl, openFd, stored, opened, found, size, first, pages⟩ :=
    storage.toFiled.handle_spec named logical
  obtain ⟨pageNo, after, grows, result⟩ := alloc_page_spec storage.toHealthy live openFd stored
  obtain ⟨rfl, _⟩ := grows.extended (storage.stored _ _ stored)
  have grown := storage.grow stored grows
  have hasPages := has_page_grow live openFd stored grows storage.files
  rcases result with ⟨w₂, run, healthy, steady, same, exhausted, _⟩ |
    ⟨frame, w₂, run, healthy, steady, same⟩
  · have views : SameView w w₂ := by
      intro other otherNo page
      rw [same other otherNo ((hasPages other otherNo).mpr (.inr page)),
        view_grow stored grows other otherNo page]
    have changed := storage.logical_grow live stored logical grows steady views
    have kept := storage.kept.extend logical changed steady.given
    have storage₂ : w₂.Storage pins opens := ⟨healthy, grown.steady steady, kept,
      by rw [steady.files]; exact storage.counted, by rw [steady.files]; exact storage.live⟩
    exact ⟨_, _, buf_mgr_err run, .inl ⟨_, rfl, rfl, storage₂.flag true, exhausted, _, steady.files,
      steady.openFiles, changed, fun other pageNo before => by
        have same : w₂.given other pageNo = w.given other pageNo := by rw [steady.given]; rfl
        rw [← same] at before
        exact before⟩⟩
  · have changed := storage.logical_grow live stored logical grows steady same
    have kept := storage.kept.extend logical changed steady.given
    have storage₂ : w₂.Storage ({ file, pageNo := contents.size, frame, owed := true } :: pins)
        opens := ⟨healthy, grown.steady steady, kept,
      by rw [steady.files]; exact storage.counted, by rw [steady.files]; exact storage.live⟩
    have seen := healthy.view_of_pin List.mem_cons_self
    dsimp only at seen
    rw [size, seen] at changed
    refine ⟨_, w₂, buf_mgr_ok run, .inr ⟨frame, by rw [size], ?_, by rw [size]; exact storage₂,
      steady.bufFailed, steady.files, steady.openFiles, changed, ?_⟩⟩
    · intro exhausted
      obtain ⟨bound, free⟩ := healthy.pinned_alone (by
        intro other member sameFile
        have inside := (storage.page_of_pin member (by rw [sameFile]; exact named) logical).1.2
        rw [size] at inside
        exact ne_of_lt inside)
      rw [steady.numBufs] at bound
      have pinned := exhausted frame bound
      rw [storage.pinned frame bound] at pinned
      exact absurd free pinned.ne'
    · intro other pageNo before
      rw [steady.given]
      exact before

/-- A file of which no page is pinned can be flushed, and then none of its pages
is in the pool. -/
theorem Storage.flush_file (storage : w.Storage pins opens) (member : file ∈ opens)
    (unpinned : ∀ pin ∈ pins, pin.file ≠ file) :
    ∃ w', BufMgr.flushFile file w = (.ok (), w') ∧ w'.Storage pins opens ∧ SameLogical w w' ∧
      w'.bufFailed = w.bufFailed ∧ (∀ frame pageNo, ¬w'.bufMgr.Holds frame file pageNo) := by
  obtain ⟨outcome, w', run, healthy, steady, same, result⟩ :=
    flush_file_spec storage.toHealthy file
  rcases result with ⟨rfl, gone, _⟩ | ⟨status, _, null | ⟨pin, pinMember, mine⟩⟩
  · obtain ⟨storage', unseen⟩ := storage.unseen healthy steady same
    exact ⟨w', run, storage', unseen, steady.bufFailed, gone⟩
  · obtain ⟨object, live⟩ := (storage.live file).mp member
    rw [null, storage.null] at live
    cases live
  · exact absurd mine (unpinned pin pinMember)

end PrimitiveDB.World

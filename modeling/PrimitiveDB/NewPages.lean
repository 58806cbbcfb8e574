import PrimitiveDB.BufferTransparency
import PrimitiveDB.DisposeFailures

/-!
# What a new page shows

`allocPage` promises a new, empty page. It leaves the frame that the clock has found as the
last page in it was: neither is the frame cleared, nor is the page read from the file. The
client sees the page that the file layer has made only if the frame happened to look like it.
-/

namespace PrimitiveDB

open World

set_option autoImplicit false

namespace BufMgr

def clockFrame (pool : BufMgr) : Nat := (clockScan (2 * pool.numBufs) 0 pool).2.2.clockHand

theorem alloc_buf_frame {w w' : World} {frame : Nat} (hand : w.bufMgr.clockHand < w.bufMgr.numBufs)
    (run : allocBuf w = (.ok frame, w')) :
    frame = w.bufMgr.clockFrame ∧ w'.bufMgr.bufPool = w.bufMgr.bufPool := by
  obtain ⟨same, _⟩ := clock_scan_outcome (2 * w.bufMgr.numBufs) 0 w.bufMgr hand
  rw [alloc_buf_eq] at run
  dsimp only at run
  split_ifs at run with exhausted dirty
  · cases run
  · obtain ⟨_, w₁, write, done⟩ := DbM.bind_eq_ok_iff.mp run
    cases done
    have quiet := File.write_page_moves
      ((clockScan (2 * w.bufMgr.numBufs) 0 w.bufMgr).2.2.bufTable w.bufMgr.clockFrame).file
      ((clockScan (2 * w.bufMgr.numBufs) 0 w.bufMgr).2.2.bufTable w.bufMgr.clockFrame).pageNo
      ((clockScan (2 * w.bufMgr.numBufs) 0 w.bufMgr).2.2.bufPool w.bufMgr.clockFrame)
      (w.setPool (clockScan (2 * w.bufMgr.numBufs) 0 w.bufMgr).2.2)
    unfold clockFrame at quiet
    rw [write] at quiet
    exact ⟨rfl, (congrArg BufMgr.bufPool quiet.1.bufMgr).trans same.images⟩
  · cases run
    exact ⟨rfl, same.images⟩

end BufMgr

namespace UnixFile

/-- The contents of the page that `allocatePage` will hand out: a page of the free list as it
is, else a page of zeros at the end of the file. -/
def newPage (contents : UnixFile) : PageImage :=
  if (contents.page 0).asDBPage.nextFree ≠ -1 then
    contents.page (contents.page 0).asDBPage.nextFree.toNat
  else PageImage.zero

theorem extend_new_page {contents : UnixFile} (list : contents.FreeList []) :
    contents.extend.page contents.size = contents.newPage := by
  have none_ : (contents.page 0).asDBPage.nextFree = -1 := list.chain
  have headed := list.header
  have blank : contents.newPage = PageImage.zero := by
    unfold newPage
    rw [if_neg (by simp [none_])]
  rw [blank]
  unfold extend
  dsimp only
  rw [write_at_other _ _ (by omega) (by simp only [writeAt]; omega), write_at_self]

theorem reuse_new_page {contents : UnixFile} {pageNo : Int} {rest : List Int}
    (list : contents.FreeList (pageNo :: rest)) :
    (contents.reuse pageNo).page pageNo.toNat = contents.newPage := by
  obtain ⟨head, lower, upper, _⟩ := list.chain
  unfold newPage reuse
  rw [if_pos (by omega), write_at_other _ _ (by omega) (by omega), head]

end UnixFile

namespace World

variable {w w' : World} {pins : List Pin} {file : FilePtr} {pageNo : Int} {frame : Nat}
  {object : File} {contents : UnixFile}

/-- The frame that the clock will choose looks like the page that the file will hand out. -/
def FrameLooksNew (w : World) (file : FilePtr) : Prop :=
  ∀ contents, w.unixFile file = some contents →
    w.bufMgr.bufPool w.bufMgr.clockFrame = contents.newPage

/-- The frame shows what it held before, and the disk has what the file layer put there. -/
theorem alloc_page_images (healthy : w.Healthy pins) (opened : w.unixFile file = some contents)
    (run : BufMgr.allocPage file w = (.ok (pageNo, frame), w')) :
    w'.bufMgr.bufPool frame = w.bufMgr.bufPool w.bufMgr.clockFrame ∧
      w'.diskPage file pageNo = contents.newPage ∧ ¬w.Exhausted := by
  obtain ⟨object, live, openFd, stored⟩ := unix_file_live opened
  obtain ⟨free, list⟩ := healthy.files.formed file contents opened
  obtain ⟨newNo, after, grows, allocate, fresh⟩ : ∃ newNo after, contents.Grows after newNo ∧
      File.allocatePage file w = (.ok newNo, w.setDisk object.fileName (some after)) ∧
      after.page newNo.toNat = contents.newPage := by
    have allocate := File.allocate_page_run healthy.reliable live openFd stored list
    cases free with
    | nil =>
        exact ⟨_, _, UnixFile.grows_extend list, allocate, UnixFile.extend_new_page list⟩
    | cons head rest =>
        exact ⟨_, _, UnixFile.grows_reuse list, allocate, UnixFile.reuse_new_page list⟩
  have grown := healthy.grow live openFd stored grows
  have pages := has_page_grow live openFd stored grows healthy.files
  have absent : (w.setDisk object.fileName (some after)).bufMgr.hashTable.lookup file newNo =
      none := healthy.lookup_fresh live openFd stored grows
  unfold BufMgr.allocPage at run
  rw [DbM.bind_ok allocate] at run
  rcases alloc_buf_spec grown with ⟨w₁, choose, _⟩ |
    ⟨chosen, w₁, choose, vacated, steady, view₁, same⟩
  · rw [DbM.bind_err choose] at run
    cases run
  obtain ⟨found, images⟩ := BufMgr.alloc_buf_frame grown.residency.hand choose
  have absent₁ := vacated.residency.absent grown.residency same absent
  rw [DbM.bind_ok choose] at run
  obtain ⟨frame', w₂, install, done⟩ := DbM.bind_eq_ok_iff.mp run
  cases done
  obtain ⟨table, inserted⟩ := BufHashTbl.insert_of_absent chosen absent₁
  rw [BufMgr.install_page_eq, inserted] at install
  cases install
  refine ⟨?_, ?_, ?_⟩
  · rw [found]
    exact congrFun images _
  · -- the page is not in the pool yet, so the disk shows what the clients would see
    have seen := view₁ file pageNo ((pages file pageNo).mpr (.inl rfl))
    unfold view at seen
    rw [absent₁, absent] at seen
    dsimp only at seen
    have before : (w.setDisk object.fileName (some after)).diskPage file pageNo =
        after.page pageNo.toNat := by
      unfold diskPage
      rw [unix_file_set_disk live openFd after]
    rw [← fresh, ← before, ← seen]
    rfl
  · intro exhausted
    have unpinned := vacated.residency.unpinned
    have bound := vacated.residency.bound
    rw [same.pinCnt] at unpinned
    rw [same.numBufs] at bound
    have pinned : 0 < (w.bufMgr.bufTable frame).pinCnt := exhausted frame bound
    have free : (w.bufMgr.bufTable frame).pinCnt = 0 := unpinned
    omega

theorem Healthy.settle {pin : Pin} (healthy : w.Healthy (pin :: pins))
    (stored : w.bufMgr.bufPool pin.frame = w.diskPage pin.file pin.pageNo) :
    w.Healthy ({ pin with owed := false } :: pins) where
  reliable := healthy.reliable
  files := healthy.files
  held := healthy.held
  pinned := by
    intro index bound
    rw [healthy.pinned index bound, pins_on_cons, pins_on_cons]
  held_by := by
    intro other member
    rcases List.mem_cons.mp member with rfl | member
    · exact healthy.held_by pin (by simp)
    · exact healthy.held_by other (by simp [member])
  clean := by
    intro index other otherNo use holds clean settled
    by_cases here : pin.frame = index
    · subst here
      have mine := (healthy.held_by pin (by simp)).1
      rw [← holds.2.2.1, ← holds.2.2.2, mine.2.2.1, mine.2.2.2]
      exact stored
    · apply healthy.clean index other otherNo use holds clean
      intro another member there
      rcases List.mem_cons.mp member with rfl | member
      · exact absurd there here
      · exact settled another (by simp [member]) there
  residency := healthy.residency

theorem Healthy.discard (healthy : w.Healthy pins)
    (nobody : ∀ pin ∈ pins, (pin.file, pin.pageNo) ≠ (file, pageNo)) :
    (w.setPool (w.bufMgr.discard file pageNo)).Healthy pins := by
  cases found : w.bufMgr.hashTable.lookup file pageNo with
  | none =>
      rw [BufMgr.discard_absent found]
      exact healthy
  | some frame =>
      have holds := (healthy.residency.mapped file pageNo frame).mp found
      have outside : ∀ pin ∈ pins, pin.frame ≠ frame := by
        rintro pin member rfl
        have mine := (healthy.held_by pin member).1
        apply nobody pin member
        rw [← mine.2.2.1, ← mine.2.2.2, holds.2.2.1, holds.2.2.2]
      have unpinned : pinsOn pins frame = 0 := by
        apply List.countP_eq_zero.mpr
        intro pin member
        simp [outside pin member]
      have discarded : w.bufMgr.discard file pageNo = (w.bufMgr.removeEntry file pageNo).setDesc
          frame (w.bufMgr.bufTable frame).Clear := by
        unfold BufMgr.discard
        rw [found]
        rfl
      rw [discarded]
      have residency := healthy.residency.release holds (w.bufMgr.bufTable frame).Clear rfl rfl
        rfl rfl
      have kept : ∀ index, index ≠ frame → ((w.bufMgr.removeEntry file pageNo).setDesc
          frame (w.bufMgr.bufTable frame).Clear).bufTable index = w.bufMgr.bufTable index :=
        fun index different => BufMgr.set_desc_other _ _ _ different
      have holdsKept : ∀ index other otherNo, ((w.bufMgr.removeEntry file pageNo).setDesc
          frame (w.bufMgr.bufTable frame).Clear).Holds index other otherNo →
          index ≠ frame ∧ w.bufMgr.Holds index other otherNo := by
        intro index other otherNo held
        have elsewhere : index ≠ frame := by
          rintro rfl
          have valid := held.2.1
          rw [BufMgr.set_desc_self] at valid
          cases valid
        unfold BufMgr.Holds at held
        rw [kept index elsewhere] at held
        exact ⟨elsewhere, held⟩
      refine ⟨⟨healthy.reliable, ⟨healthy.files.apart, healthy.files.formed⟩, ?_, ?_, ?_, ?_⟩,
        residency⟩
      · intro index other otherNo use held
        exact healthy.held index other otherNo use (holdsKept index other otherNo held).2
      · intro index bound
        rw [set_pool_pool]
        by_cases here : index = frame
        · subst here
          rw [BufMgr.set_desc_self, unpinned]
          rfl
        · rw [kept index here]
          exact healthy.pinned index bound
      · intro pin member
        have mine := (healthy.held_by pin member).1
        refine ⟨?_, trivial⟩
        unfold BufMgr.Holds at mine ⊢
        rw [set_pool_pool, kept pin.frame (outside pin member)]
        exact mine
      · intro index other otherNo use held clean settled
        obtain ⟨elsewhere, was⟩ := holdsKept index other otherNo held
        rw [set_pool_pool, kept index elsewhere] at clean
        exact healthy.clean index other otherNo use was clean settled

theorem Healthy.shrink {free : List Int} (healthy : w.Healthy pins)
    (live : w.files file = some object) (openFd : object.unixFile = true)
    (stored : w.disk object.fileName = some contents) (list : contents.FreeList free)
    (lower : 1 ≤ pageNo) (upper : pageNo < contents.size) (allocated : pageNo ∉ free)
    (absent : ∀ index, ¬w.bufMgr.Holds index file pageNo) :
    (w.setDisk object.fileName (some (contents.dispose pageNo))).Healthy pins := by
  have headed := list.header
  have list' := UnixFile.dispose_free_list list lower upper allocated
  have size := UnixFile.dispose_size headed lower upper
  have opened : w.unixFile file = some contents := by
    simp [World.unixFile, live, openFd, stored]
  have opened' := unix_file_set_disk live openFd (contents.dispose pageNo)
  have elsewhere : ∀ other, other ≠ file →
      (w.setDisk object.fileName (some (contents.dispose pageNo))).unixFile other =
        w.unixFile other := by
    intro other different
    simp only [World.unixFile, setDisk]
    cases otherLive : w.files other with
    | none => rfl
    | some otherObject =>
        dsimp only
        split_ifs with otherFd
        · have apart : otherObject.fileName ≠ object.fileName :=
            fun equal => different (healthy.files.apart other file otherObject object otherLive
              live otherFd openFd equal)
          exact Function.update_of_ne apart _ _
        · rfl
  have keptPage : ∀ other : Nat, other ≠ 0 → (other : Int) ≠ pageNo → other < contents.size →
      (contents.dispose pageNo).page other = contents.page other := by
    intro other positive different inside
    simp only [UnixFile.dispose]
    rw [UnixFile.write_at_other _ _ positive (by
        rw [UnixFile.write_at_size _ _ (by omega)]; exact inside),
      UnixFile.write_at_other _ _ (by omega) inside]
  -- a page that is in some frame is another page, and stays as it was
  have keptHeld : ∀ index other otherNo, w.bufMgr.Holds index other otherNo →
      (w.setDisk object.fileName (some (contents.dispose pageNo))).HasPage other otherNo ∧
        (w.setDisk object.fileName (some (contents.dispose pageNo))).diskPage other otherNo =
          w.diskPage other otherNo := by
    intro index other otherNo holds
    obtain ⟨otherContents, otherOpened, inUse⟩ := healthy.held index other otherNo trivial holds
    by_cases same : other = file
    · subst same
      rw [opened] at otherOpened
      obtain rfl := Option.some.inj otherOpened
      have different : otherNo ≠ pageNo := by
        rintro rfl
        exact absent index holds
      obtain ⟨otherLower, otherUpper, outside⟩ := (list.allocated_iff otherNo).mp inUse
      refine ⟨⟨_, opened', ?_⟩, ?_⟩
      · rw [list'.allocated_iff, size]
        exact ⟨otherLower, otherUpper, by simp [different, outside]⟩
      · unfold diskPage
        rw [opened', opened]
        exact keptPage otherNo.toNat (by omega) (by omega) (by omega)
    · refine ⟨⟨otherContents, (elsewhere other same).trans otherOpened, inUse⟩, ?_⟩
      unfold diskPage
      rw [elsewhere other same]
  refine ⟨⟨healthy.reliable, ⟨healthy.files.apart, ?_⟩, ?_, healthy.pinned, healthy.held_by, ?_⟩,
    healthy.residency⟩
  · intro other otherContents otherOpened
    by_cases same : other = file
    · subst same
      rw [opened'] at otherOpened
      obtain rfl := Option.some.inj otherOpened
      exact ⟨_, list'⟩
    · rw [elsewhere other same] at otherOpened
      exact healthy.files.formed other otherContents otherOpened
  · exact fun index other otherNo _ holds => (keptHeld index other otherNo holds).1
  · intro index other otherNo use holds clean settled
    rw [(keptHeld index other otherNo holds).2]
    exact healthy.clean index other otherNo use holds clean settled

/-- What `disposePage` of the file layer does to a world without faults. -/
theorem file_dispose_page_world (reliable : w.Reliable) (sound : w.FilesSound) (file : FilePtr)
    (pageNo : Int) :
    (File.disposePage file pageNo w).2 = w ∨
      ∃ object contents free, w.files file = some object ∧ object.unixFile = true ∧
        w.disk object.fileName = some contents ∧ contents.FreeList free ∧ 1 ≤ pageNo ∧
        pageNo < contents.size ∧
        (File.disposePage file pageNo w).2 =
          w.setDisk object.fileName (some (contents.dispose pageNo)) := by
  cases opened : w.unixFile file with
  | none =>
      left
      unfold File.disposePage
      split_ifs with below
      · rfl
      rcases File.intread_cases file 0 w with ⟨_, dead⟩ | failed | ⟨contents, opened', _⟩
      · rw [DbM.bind_apply, dead]
      · rw [DbM.bind_err failed]
        exact tick_of_reliable reliable
      · rw [opened] at opened'
        cases opened'
  | some contents =>
      obtain ⟨object, live, openFd, stored⟩ := unix_file_live opened
      obtain ⟨free, list⟩ := sound.formed file contents opened
      by_cases inside : 1 ≤ pageNo ∧ pageNo < contents.size
      · have run := File.dispose_page_spec reliable live openFd stored list inside.1 inside.2
        split_ifs at run
        · left
          rw [run]
        · right
          exact ⟨object, contents, free, live, openFd, stored, list, inside.1, inside.2,
            by rw [run]⟩
      · left
        rw [File.dispose_page_outside reliable opened list (by omega)]

/-- Any page that nobody has pinned and that is not on the free list may be disposed of,
whether the file layer takes it or not. -/
theorem Healthy.dispose_page (healthy : w.Healthy pins)
    (nobody : ∀ pin ∈ pins, (pin.file, pin.pageNo) ≠ (file, pageNo))
    (kept : ∀ contents free, w.unixFile file = some contents → contents.FreeList free →
      pageNo ∉ free) : (BufMgr.disposePage file pageNo w).2.Healthy pins := by
  have discarded := healthy.discard nobody
  have absent : ∀ index,
      ¬(w.setPool (w.bufMgr.discard file pageNo)).bufMgr.Holds index file pageNo := by
    intro index holds
    have known := (discarded.residency.mapped file pageNo index).mpr holds
    have gone : (w.bufMgr.discard file pageNo).hashTable.lookup file pageNo = none := by
      exact BufMgr.lookup_discard healthy.residency.distinct file pageNo
    rw [set_pool_pool, gone] at known
    cases known
  rw [BufMgr.dispose_page_eq]
  rcases file_dispose_page_world discarded.reliable discarded.files file pageNo with same |
    ⟨object, contents, free, live, openFd, stored, list, lower, upper, done⟩
  · rw [same]
    exact discarded
  · rw [done]
    have opened : w.unixFile file = some contents := by
      have live' : w.files file = some object := live
      have stored' : w.disk object.fileName = some contents := stored
      simp [World.unixFile, live', openFd, stored']
    exact discarded.shrink live openFd stored list lower upper (kept contents free opened list)
      absent

end World

structure PageUsers where
  world : World
  pins : List Pin

namespace PageUsers

/-- The clients read and allocate pages, change them through a pin, let go of pins, flush
files and dispose of pages. A change is reported with the pin through which it was made, and
only a page that nobody has pinned and that is not free is disposed of. A new page counts as
unchanged; it may be let go of without a report. Pages are allocated where `allowed` holds. -/
inductive Step (allowed : World → FilePtr → Prop) (s : PageUsers) : PageUsers → Prop where
  | read {file : FilePtr} {pageNo : Int} {frame : Nat} {w' : World}
      (exists_ : s.world.HasPage file pageNo)
      (run : BufMgr.readPage file pageNo s.world = (.ok frame, w')) :
      Step allowed s ⟨w', { file, pageNo, frame, owed := false } :: s.pins⟩
  | readRefused {file : FilePtr} {pageNo : Int} {status : Status} {w' : World}
      (exists_ : s.world.HasPage file pageNo)
      (run : BufMgr.readPage file pageNo s.world = (.err status, w')) : Step allowed s ⟨w', s.pins⟩
  | alloc {file : FilePtr} {contents : UnixFile} {pageNo : Int} {frame : Nat} {w' : World}
      (opened : s.world.unixFile file = some contents) (meets : allowed s.world file)
      (run : BufMgr.allocPage file s.world = (.ok (pageNo, frame), w')) :
      Step allowed s ⟨w', { file, pageNo, frame, owed := false } :: s.pins⟩
  | allocRefused {file : FilePtr} {contents : UnixFile} {status : Status} {w' : World}
      (opened : s.world.unixFile file = some contents)
      (run : BufMgr.allocPage file s.world = (.err status, w')) : Step allowed s ⟨w', s.pins⟩
  | write {before after : List Pin} {pin : Pin} (held : s.pins = before ++ pin :: after)
      (image : PageImage) :
      Step allowed s ⟨s.world.storeImage pin.frame image,
        before ++ { pin with owed := true } :: after⟩
  | unpin {before after : List Pin} {pin : Pin} {dirty : Bool} {outcome : Outcome Unit}
      {w' : World} (held : s.pins = before ++ pin :: after) (reports : pin.owed = true → dirty = true)
      (run : BufMgr.unPinPage pin.file pin.pageNo dirty s.world = (outcome, w')) :
      Step allowed s ⟨w', before ++ after⟩
  | unpinStray {file : FilePtr} {pageNo : Int} {dirty : Bool} {outcome : Outcome Unit}
      {w' : World} (nobody : ∀ pin ∈ s.pins, (pin.file, pin.pageNo) ≠ (file, pageNo))
      (run : BufMgr.unPinPage file pageNo dirty s.world = (outcome, w')) :
      Step allowed s ⟨w', s.pins⟩
  | flush {file : FilePtr} {outcome : Outcome Unit} {w' : World}
      (run : BufMgr.flushFile file s.world = (outcome, w')) : Step allowed s ⟨w', s.pins⟩
  | dispose {file : FilePtr} {pageNo : Int} {outcome : Outcome Unit} {w' : World}
      (nobody : ∀ pin ∈ s.pins, (pin.file, pin.pageNo) ≠ (file, pageNo))
      (kept : ∀ contents free, s.world.unixFile file = some contents → contents.FreeList free →
        pageNo ∉ free)
      (run : BufMgr.disposePage file pageNo s.world = (outcome, w')) : Step allowed s ⟨w', s.pins⟩

def initial (w : World) : PageUsers := ⟨w, []⟩

/-- A frame that is valid and clean, and through which no client has made a change that it has
not reported yet, is as its page is on disk. -/
def CleanFramesStored (s : PageUsers) : Prop :=
  ∀ frame file pageNo, s.world.bufMgr.Holds frame file pageNo →
    (s.world.bufMgr.bufTable frame).dirty = false → Settled s.pins frame →
    s.world.bufMgr.bufPool frame = s.world.diskPage file pageNo

/-- A page that is allocated now shows what is on disk, which is what the file layer has put
there. -/
def ShowsNewPage (s : PageUsers) (file : FilePtr) : Prop :=
  ∀ contents pageNo frame w', s.world.unixFile file = some contents →
    BufMgr.allocPage file s.world = (.ok (pageNo, frame), w') →
    w'.bufMgr.bufPool frame = w'.diskPage file pageNo ∧
      w'.diskPage file pageNo = contents.newPage

variable {s s' : PageUsers}

theorem initial_healthy {w : World} {bufs : Nat} (positive : 0 < bufs)
    (fresh : w.bufMgr = BufMgr.new bufs) (reliable : w.Reliable) (sound : w.FilesSound) :
    (initial w).world.Healthy (initial w).pins :=
  (Clients.initial_faithful positive fresh reliable sound).healthy

theorem step_healthy (healthy : s.world.Healthy s.pins) (step : Step FrameLooksNew s s') :
    s'.world.Healthy s'.pins := by
  cases step with
  | read exists_ run =>
      rcases read_page_spec healthy exists_ with ⟨_, done, _⟩ | ⟨_, _, done, healthy₁, _⟩ <;>
        rw [run] at done <;> cases done
      exact healthy₁
  | readRefused exists_ run =>
      rcases read_page_spec healthy exists_ with ⟨_, done, healthy₁, _⟩ | ⟨_, _, done, _⟩ <;>
        rw [run] at done <;> cases done
      exact healthy₁
  | alloc opened meets run =>
      obtain ⟨object, live, openFd, stored⟩ := unix_file_live opened
      obtain ⟨shown, onDisk, _⟩ := alloc_page_images healthy opened run
      obtain ⟨_, _, _, ⟨_, done, _⟩ | ⟨_, _, done, healthy₁, _⟩⟩ :=
        alloc_page_spec healthy live openFd stored <;> rw [run] at done <;> cases done
      apply healthy₁.settle
      rw [shown, onDisk]
      exact meets _ opened
  | allocRefused opened run =>
      obtain ⟨object, live, openFd, stored⟩ := unix_file_live opened
      obtain ⟨_, _, _, ⟨_, done, healthy₁, _⟩ | ⟨_, _, done, _⟩⟩ :=
        alloc_page_spec healthy live openFd stored <;> rw [run] at done <;> cases done
      exact healthy₁
  | @write before after pin held image =>
      have rotate : s.pins.Perm (pin :: (before ++ after)) := by
        rw [held]
        exact List.perm_middle
      have owing := (healthy.perm rotate).owe true (fun _ => rfl)
      exact (owing.store_image List.mem_cons_self rfl image).perm List.perm_middle.symm
  | @unpin before after pin dirty outcome w' held reports run =>
      have rotate : s.pins.Perm (pin :: (before ++ after)) := by
        rw [held]
        exact List.perm_middle
      obtain ⟨w₁, done, healthy₁, _⟩ := un_pin_page_spec (healthy.perm rotate) dirty reports
      rw [run] at done
      cases done
      exact healthy₁
  | unpinStray nobody run =>
      obtain ⟨status, w₁, done, _, healthy₁, _⟩ := un_pin_page_refused healthy _ nobody
      rw [run] at done
      cases done
      exact healthy₁
  | flush run =>
      obtain ⟨outcome, w₁, done, healthy₁, _⟩ := flush_file_spec healthy _
      rw [run] at done
      cases done
      exact healthy₁
  | dispose nobody kept run =>
      have healthy₁ := healthy.dispose_page nobody kept
      rw [run] at healthy₁
      exact healthy₁

theorem run_healthy {start : PageUsers} (healthy : start.world.Healthy start.pins)
    (run : Relation.ReflTransGen (Step FrameLooksNew) start s) : s.world.Healthy s.pins := by
  induction run with
  | refl => exact healthy
  | tail _ step ih => exact step_healthy ih step

/-- Unless every frame is pinned, so that no page can be had, the new page shows what is on
disk if and only if the frame that the clock will choose looks like that already. -/
theorem shows_new_page_iff (healthy : s.world.Healthy s.pins) (file : FilePtr) :
    s.ShowsNewPage file ↔ s.world.Exhausted ∨ s.world.FrameLooksNew file := by
  constructor
  · intro shows
    by_contra neither
    push Not at neither
    obtain ⟨free, differs⟩ := neither
    apply differs
    intro contents opened
    obtain ⟨object, live, openFd, stored⟩ := unix_file_live opened
    obtain ⟨pageNo, _, _, ⟨_, _, _, _, _, exhausted, _⟩ | ⟨frame, w', run, _⟩⟩ :=
      alloc_page_spec healthy live openFd stored
    · exact absurd exhausted free
    · obtain ⟨shown, onDisk, _⟩ := alloc_page_images healthy opened run
      rw [← shown, ← onDisk]
      exact (shows contents pageNo frame w' opened run).1
  · intro either contents pageNo frame w' opened run
    obtain ⟨shown, onDisk, free⟩ := alloc_page_images healthy opened run
    refine ⟨?_, onDisk⟩
    rw [shown, onDisk]
    exact either.resolve_left free contents opened

/-- If pages are only ever allocated into frames that look like them, clean frames are always
as their pages are on disk. -/
theorem new_pages_show_the_disk_iff_frame_looks_new (bufs : Nat) (positive : 0 < bufs)
    (start : World) (fresh : start.bufMgr = BufMgr.new bufs) (reliable : start.Reliable)
    (sound : start.FilesSound)
    (run : Relation.ReflTransGen (Step FrameLooksNew) (initial start) s) :
    s.CleanFramesStored ∧
      ∀ file, s.ShowsNewPage file ↔ s.world.Exhausted ∨ s.world.FrameLooksNew file := by
  have healthy := run_healthy (initial_healthy positive fresh reliable sound) run
  refine ⟨?_, fun file => shows_new_page_iff healthy file⟩
  intro frame file pageNo holds clean settled
  exact healthy.clean frame file pageNo trivial holds clean settled

/-- Page 2 is allocated into the unused frame, let go of without a report and shown again. -/
theorem new_page_shows_the_disk_one_page :
    ∃ s, Relation.ReflTransGen (Step FrameLooksNew) (initial BufMgr.onePageWorld) s ∧
      s.pins = [] ∧ s.world.bufMgr.hashTable.lookup 1 2 = some 0 ∧ s.CleanFramesStored := by
  have looks : BufMgr.onePageWorld.FrameLooksNew 1 := by
    intro contents opened
    cases opened
    rfl
  have allocated : Relation.ReflTransGen (Step FrameLooksNew) (initial BufMgr.onePageWorld) _ :=
    .single (.alloc rfl looks rfl)
  have unpinned := allocated.tail
    (@Step.unpin _ _ [] [] _ false _ _ rfl (fun owed => by cases owed) rfl)
  exact ⟨_, unpinned, rfl, by decide, (new_pages_show_the_disk_iff_frame_looks_new 1 (by decide)
    BufMgr.onePageWorld rfl rfl Clients.one_page_world_sound unpinned).1⟩

/-- Page 1 is filled and reported. Page 2, allocated into its frame and let go of without a
report, shows the bytes of page 1, and the disk has zeros. -/
theorem new_page_shows_another_page :
    ¬∀ s, Relation.ReflTransGen (Step fun _ _ => True) (initial BufMgr.onePageWorld) s →
      s.CleanFramesStored ∧ ∀ file, s.ShowsNewPage file := by
  intro claim
  have read : Relation.ReflTransGen (Step fun _ _ => True) (initial BufMgr.onePageWorld) _ :=
    .single (.read Clients.one_page_world_page rfl)
  have written := read.tail (@Step.write _ _ [] [] _ rfl (.data (Page.zeroPage.init 1)))
  have reported := written.tail (@Step.unpin _ _ [] [] _ true _ _ rfl (fun _ => rfl) rfl)
  have allocated := reported.tail (@Step.alloc _ _ 1 _ 2 0 _ rfl trivial rfl)
  have unpinned := allocated.tail
    (@Step.unpin _ _ [] [] _ false _ _ rfl (fun owed => by cases owed) rfl)
  have stored := (claim _ unpinned).1 0 1 2 ⟨by decide, by decide, by decide, by decide⟩
    (by decide) (by rintro pin ⟨⟩)
  have bytes := congrArg (fun image : PageImage => image.asPage.curPage) stored
  revert bytes
  decide

end PageUsers

end PrimitiveDB

import PrimitiveDB.HeapFileClients

/-!
# Pins of heap file objects

In a session whose objects are in order every pin belongs to one object, and
closing the last handle of a file writes out whatever was given to its pages.
Both the runs without failed buffer calls and the runs whose failed calls are
harmless keep the objects in order.
-/

namespace PrimitiveDB

open BufMgr World

set_option autoImplicit false

namespace World

variable {w w' : World} {pins : List Pin} {opens : List FilePtr}

theorem Storage.perm_opens {opens' : List FilePtr} (storage : w.Storage pins opens)
    (perm : opens.Perm opens') : w.Storage pins opens' where
  toHealthy := storage.toHealthy
  toFiled := storage.toFiled
  kept := storage.kept
  counted := by
    intro file object live
    rw [storage.counted file object live, perm.count_eq]
  live := by
    intro file
    rw [← perm.mem_iff, storage.live]

def Filled (w : World) : Prop :=
  ∀ fileName lf, w.logical fileName = some lf → ∀ pageNo, lf.Inside pageNo →
    (w.given fileName pageNo).isSome

def storedPages (w : World) (fileName : FileName) (pageNo : Int) : Option PageImage :=
  match w.disk fileName with
  | some contents =>
      if 1 ≤ pageNo ∧ pageNo < contents.size then some (contents.page pageNo.toNat) else none
  | none => none

/-- A process before its first action, on a disk with any heap files. No code of
the source disposes of pages, so their free lists are empty. -/
structure JustStarted (w : World) : Prop where
  reliable : w.Reliable
  pool : ∃ bufs, 0 < bufs ∧ w.bufMgr = BufMgr.new bufs
  files : w.files = fun _ => none
  openFiles : w.openFiles = { ht := ChainedTable.empty }
  brk : 0 < w.brk
  stored : ∀ fileName contents, w.disk fileName = some contents → contents.FreeList []
  flag : w.bufFailed = false
  given : w.given = w.storedPages

theorem JustStarted.logical_eq (started : w.JustStarted) {fileName : FileName}
    {lf : LogicalFile} (logical : w.logical fileName = some lf) {pageNo : Int} :
    w.given fileName pageNo = if lf.Inside pageNo then some (lf.page pageNo) else none := by
  simp only [World.logical, Option.map_eq_some_iff] at logical
  obtain ⟨contents, stored, rfl⟩ := logical
  have closed : w.openFiles.find fileName = none := by
    rw [started.openFiles]
    exact ChainedTable.find_empty _
  rw [started.given]
  simp only [storedPages, stored, LogicalFile.Inside, filePage, closed]
  split_ifs <;> rfl

theorem JustStarted.storage (started : w.JustStarted) : w.Storage [] [] := by
  obtain ⟨bufs, positive, pool⟩ := started.pool
  have closed : ∀ file, w.unixFile file = none := by
    intro file
    simp [World.unixFile, started.files]
  have unheld : ∀ frame file pageNo, ¬w.bufMgr.Holds frame file pageNo := by
    intro frame file pageNo holds
    rw [pool] at holds
    simp [BufMgr.new, Holds, BufDesc.blank] at holds
  refine ⟨⟨⟨started.reliable, ⟨?_, ?_⟩, ?_, ?_, ?_, ?_⟩, ?_⟩, ⟨started.stored, ?_, ?_, ?_, ?_, ?_,
    started.brk, ?_⟩, ?_, ?_, ?_⟩
  · intro first second left right live
    simp [started.files] at live
  · intro file contents opened
    rw [closed] at opened
    cases opened
  · intro frame file pageNo _ holds
    exact absurd holds (unheld frame file pageNo)
  · intro frame _
    rw [pool]
    rfl
  · intro pin member
    cases member
  · intro frame file pageNo _ holds
    exact absurd holds (unheld frame file pageNo)
  · rw [pool]
    exact new_residency bufs positive
  · intro file object live
    simp [started.files] at live
  · intro file object live
    simp [started.files] at live
  · intro fileName file
    simp [started.files, started.openFiles, OpenFileHashTbl.find, ChainedTable.find_empty]
  · rw [started.openFiles]
    exact ChainedTable.distinct_keys_empty
  · rw [started.files]
  · intro file _
    rw [started.files]
  · intro fileName pageNo image given
    cases logical : w.logical fileName with
    | none =>
        rw [logical_eq_none_iff] at logical
        simp [started.given, storedPages, logical] at given
    | some lf =>
        rw [started.logical_eq logical] at given
        split_ifs at given with inside
        exact ⟨lf, rfl, inside, Option.some.inj given⟩
  · intro file object live
    simp [started.files] at live
  · intro file
    simp [started.files]

theorem JustStarted.filled (started : w.JustStarted) : w.Filled := by
  intro fileName lf logical pageNo inside
  rw [started.logical_eq logical, if_pos inside]
  rfl

theorem Filled.congr (filled : w.Filled) (logical : w'.logical = w.logical)
    (given : w'.given = w.given) : w'.Filled := by
  unfold Filled
  rw [logical, given]
  exact filled

theorem Filled.turns {heap : HeapFile} {rest : List Pin} {others : List FilePtr}
    {fileName : FileName} {lf lf' : LogicalFile} (filled : w.Filled)
    (logical : w.logical fileName = some lf)
    (turns : Turns w w' heap rest others fileName lf lf') (unset : w'.bufFailed = false) :
    w'.Filled := by
  intro other otherFile logical' pageNo inside
  rw [turns.writes.logical] at logical'
  by_cases same : other = fileName
  · subst same
    rw [Function.update_self] at logical'
    obtain rfl := Option.some.inj logical'
    rcases turns.pages unset pageNo inside with old | new
    · exact turns.writes.given _ _ (filled _ lf logical pageNo old)
    · exact new
  · rw [Function.update_of_ne same] at logical'
    exact turns.writes.given _ _ (filled _ _ logical' pageNo inside)

end World

namespace HeapSession

variable {session next : HeapSession} {index : Nat} {object after : HeapObject}
  {action : HeapAction}

theorem pins_perm (found : session.objects[index]? = some object) :
    (pins session.objects).Perm (object.base.pins ++ pins (session.objects.eraseIdx index)) := by
  obtain ⟨bound, rfl⟩ := List.getElem?_eq_some_iff.mp found
  exact ((List.getElem_cons_eraseIdx_perm bound).symm.flatMap_right _)

theorem handles_perm (found : session.objects[index]? = some object) :
    (handles session.objects).Perm
      (object.base.filePtr :: handles (session.objects.eraseIdx index)) := by
  obtain ⟨bound, rfl⟩ := List.getElem?_eq_some_iff.mp found
  exact ((List.getElem_cons_eraseIdx_perm bound).symm.map _)

theorem InOrder.holding (inOrder : session.InOrder)
    (found : session.objects[index]? = some object) :
    ∃ fileName lf, session.world.Holding object.base (pins (session.objects.eraseIdx index))
      (handles (session.objects.eraseIdx index)) fileName lf := by
  have storage := (World.Storage.perm inOrder (pins_perm found)).perm_opens (handles_perm found)
  obtain ⟨fileName, lf, named, logical⟩ := storage.logical_of_handle List.mem_cons_self
  exact ⟨fileName, lf, storage, named, logical⟩

theorem in_order_set {w' : World} {fileName : FileName} {lf : LogicalFile}
    (found : session.objects[index]? = some object)
    (held : w'.Holding after.base (pins (session.objects.eraseIdx index))
      (handles (session.objects.eraseIdx index)) fileName lf) :
    InOrder { world := w', objects := session.objects.set index after } := by
  obtain ⟨bound, _⟩ := List.getElem?_eq_some_iff.mp found
  have perm := (List.set_perm_cons_eraseIdx bound after).symm
  have pinsPerm : (after.base.pins ++ pins (session.objects.eraseIdx index)).Perm
      (pins (session.objects.set index after)) :=
    perm.flatMap_right fun object : HeapObject => object.base.pins
  have handlesPerm : (after.base.filePtr :: handles (session.objects.eraseIdx index)).Perm
      (handles (session.objects.set index after)) :=
    perm.map fun object : HeapObject => object.base.filePtr
  exact (held.storage.perm pinsPerm).perm_opens handlesPerm

theorem pins_owned (objects : List HeapObject) :
    ∀ pin ∈ pins objects, pin.file ∈ handles objects := by
  intro pin member
  obtain ⟨object, inObjects, mine⟩ := List.mem_flatMap.mp member
  have file : pin.file = object.base.filePtr := by
    cases cur : object.base.curPage with
    | none =>
        rw [HeapFile.pins_none cur, List.mem_singleton] at mine
        rw [mine]
        rfl
    | some frame =>
        rw [HeapFile.pins_some cur] at mine
        rcases List.mem_pair.mp mine with rfl | rfl <;> rfl
  rw [file]
  exact List.mem_map_of_mem inObjects

def Reported (session : HeapSession) : HeapAction → Prop
  | .call index call => ∀ object, session.objects[index]? = some object → call.Reported object
  | _ => True

/-- The pages that the action asks for exist; a constructor finds room for the
data page, unless a failed read is harmless. -/
def Served (session : HeapSession) : HeapAction → Prop
  | .newHeapFile mem fileName | .newHeapFileScan mem fileName =>
      ∀ lf, session.world.logical fileName = some lf →
        lf.Inside (lf.header lf.firstPage).firstPage ∧
          (mem.curPage = none ∨ session.world.RoomBeside (pins session.objects) fileName
            lf.firstPage (lf.header lf.firstPage).firstPage)
  | .newInsertFileScan mem fileName =>
      ∀ lf, session.world.logical fileName = some lf →
        let hdr := lf.header lf.firstPage
        lf.Inside hdr.firstPage ∧ lf.Inside hdr.lastPage ∧
          (mem.curPage = none ∨ session.world.RoomBeside (pins session.objects) fileName
            lf.firstPage hdr.firstPage) ∧
          (hdr.firstPage = hdr.lastPage ∨ session.world.RoomBeside (pins session.objects) fileName
            lf.firstPage hdr.lastPage)
  | .delete _ => True
  | .call index call => ∀ object, session.objects[index]? = some object →
      ∀ fileName lf, session.world.nameOf object.base.filePtr = some fileName →
        session.world.logical fileName = some lf →
        call.Served session.world (pins (session.objects.eraseIdx index)) lf object

/-- How a step ends, like `CallEnds` for a single object. -/
def StepEnds (session next : HeapSession) (action : HeapAction) : Prop :=
  (next.world.bufFailed = true ∧
      (session.Served action → session.Reported action → next.InOrder)) ∨
    (next.world.bufFailed = session.world.bufFailed ∧ (session.Reported action →
      next.InOrder ∧
        (next.world.bufFailed = false → session.world.Filled → next.world.Filled)))

theorem InOrder.call_step (inOrder : session.InOrder) {call : HeapCall}
    (stepped : session.step (.call index call) = some next) :
    StepEnds session next (.call index call) := by
  simp only [step, Option.bind_eq_bind, Option.bind_eq_some_iff] at stepped
  obtain ⟨object, found, method, known, ⟨after, w'⟩, returned, ended⟩ := stepped
  cases ended
  obtain ⟨fileName, lf, holding⟩ := inOrder.holding found
  obtain ⟨file, outcome⟩ := holding.calls known (DbM.returns_eq_some returned)
  rcases outcome with ⟨flag, within⟩ | ⟨flag, within⟩
  · refine .inl ⟨flag, fun served reported => ?_⟩
    obtain ⟨lf', turns⟩ := within
      (served object found fileName lf holding.named holding.logical) (reported object found)
    exact in_order_set found turns.held
  · refine .inr ⟨flag, fun reported => ?_⟩
    obtain ⟨lf', turns⟩ := within (reported object found)
    exact ⟨in_order_set found turns.held, fun unset filled =>
      filled.turns holding.logical turns unset⟩

theorem InOrder.delete_step (inOrder : session.InOrder)
    (stepped : session.step (.delete index) = some next) :
    StepEnds session next (.delete index) := by
  simp only [step, Option.bind_eq_bind, Option.bind_eq_some_iff] at stepped
  obtain ⟨object, found, ⟨value, w'⟩, returned, ended⟩ := stepped
  cases ended
  obtain ⟨fileName, lf, holding⟩ := inOrder.holding found
  obtain ⟨w₁, w₂, destroys⟩ := holding.destroys (pins_owned _)
  have run := DbM.returns_eq_some returned
  rw [destroys.deletes] at run
  cases run
  refine .inr ⟨destroys.bufFailed, fun _ => ⟨destroys.storage, fun _ filled => ?_⟩⟩
  exact filled.congr (destroys.closes.logical.trans destroys.same.logical)
    (destroys.closes.given.trans destroys.same.given)

/-- The constructor of `HeapFile`, on its own or as that of the base class of
`HeapFileScan`. -/
theorem InOrder.construct (inOrder : session.InOrder) {mem : Uninit} {fileName : FileName}
    {result : Except Status HeapFile} {w' : World}
    (run : HeapFile.new mem fileName session.world = (.ok result, w')) :
    match result with
    | .error _ => InOrder { session with world := w' } ∧ SameLogical session.world w' ∧
        w'.bufFailed = session.world.bufFailed
    | .ok heap => ∀ after : HeapObject, after.base = heap →
        (w'.bufFailed = true ∧ (session.Served (.newHeapFile mem fileName) →
          InOrder { world := w', objects := after :: session.objects })) ∨
        (w'.bufFailed = session.world.bufFailed ∧
          InOrder { world := w', objects := after :: session.objects } ∧
          Constructs session.world w' (handles session.objects)) := by
  rcases World.Storage.new_heap_file inOrder mem fileName with
    ⟨status, w₁, base, storage, same, flag⟩ | ⟨w₁, base, _⟩ |
    ⟨lf, heap, w₁, base, logical, _, _, _, curNo, _, _, outcome⟩
  · rw [base] at run
    cases run
    exact ⟨storage, same, flag⟩
  · rw [base] at run
    cases run
  · rw [base] at run
    cases run
    intro after afterBase
    rcases outcome with ⟨flag, stays, within⟩ | ⟨flag, _, constructs, held⟩
    · refine .inl ⟨flag, fun served => ?_⟩
      obtain ⟨inside, room⟩ := served lf logical
      rw [← curNo] at inside room
      obtain ⟨full, _, held⟩ := within inside
      rcases room with null | room
      · rw [no_cur_page (stays.trans null), ← afterBase] at held
        exact held.storage
      · exact absurd room full
    · rw [← afterBase] at held
      exact .inr ⟨flag, held.storage, constructs⟩

theorem InOrder.new_heap_file_step (inOrder : session.InOrder) {mem : Uninit}
    {fileName : FileName} (stepped : session.step (.newHeapFile mem fileName) = some next) :
    StepEnds session next (.newHeapFile mem fileName) := by
  simp only [step, Option.bind_eq_bind, Option.bind_eq_some_iff] at stepped
  obtain ⟨⟨result, w'⟩, returned, ended⟩ := stepped
  have made := inOrder.construct (DbM.returns_eq_some returned)
  cases result with
  | error status =>
      cases ended
      exact .inr ⟨made.2.2, fun _ => ⟨made.1, fun _ filled =>
        filled.congr made.2.1.logical made.2.1.given⟩⟩
  | ok heap =>
      cases ended
      rcases made (.heapFile heap) rfl with ⟨flag, within⟩ | ⟨flag, ordered, constructs⟩
      · exact .inl ⟨flag, fun served _ => within served⟩
      · exact .inr ⟨flag, fun _ => ⟨ordered, fun _ filled =>
          filled.congr constructs.logical constructs.given⟩⟩

theorem InOrder.new_scan_step (inOrder : session.InOrder) {mem : Uninit}
    {fileName : FileName} (stepped : session.step (.newHeapFileScan mem fileName) = some next) :
    StepEnds session next (.newHeapFileScan mem fileName) := by
  simp only [step, Option.bind_eq_bind, Option.bind_eq_some_iff] at stepped
  obtain ⟨⟨result, w'⟩, returned, ended⟩ := stepped
  obtain ⟨value, w₁, run, wrapped⟩ := DbM.bind_eq_ok_iff.mp (DbM.returns_eq_some returned)
  have made := inOrder.construct run
  cases value with
  | error status =>
      cases wrapped
      cases ended
      exact .inr ⟨made.2.2, fun _ => ⟨made.1, fun _ filled =>
        filled.congr made.2.1.logical made.2.1.given⟩⟩
  | ok heap =>
      cases wrapped
      cases ended
      rcases made (.heapFileScan ⟨heap, none, mem.markedPageNo, mem.markedRec⟩) rfl with
        ⟨flag, within⟩ | ⟨flag, ordered, constructs⟩
      · exact .inl ⟨flag, fun served _ => within served⟩
      · exact .inr ⟨flag, fun _ => ⟨ordered, fun _ filled =>
          filled.congr constructs.logical constructs.given⟩⟩

theorem InOrder.new_insert_step (inOrder : session.InOrder) {mem : Uninit}
    {fileName : FileName} (stepped : session.step (.newInsertFileScan mem fileName) = some next) :
    StepEnds session next (.newInsertFileScan mem fileName) := by
  simp only [step, Option.bind_eq_bind, Option.bind_eq_some_iff] at stepped
  obtain ⟨⟨⟨status, made⟩, w'⟩, returned, ended⟩ := stepped
  have run := DbM.returns_eq_some returned
  rcases World.Storage.new_insert_scan inOrder mem fileName run with crash |
    ⟨status', refused, storage, same, flag⟩ | ⟨flag, within⟩ |
    ⟨lf, scan, built, _, _, flag, constructs, held, _⟩
  · cases crash
  · cases refused
    cases ended
    exact .inr ⟨flag, fun _ => ⟨storage, fun _ filled => filled.congr same.logical same.given⟩⟩
  · have flagged : next.world.bufFailed = true := by
      cases made <;> cases ended <;> exact flag
    refine .inl ⟨flagged, fun served _ => ?_⟩
    obtain ⟨lf, logical, within⟩ := within
    obtain ⟨first, last, roomFirst, roomLast⟩ := served lf logical
    obtain ⟨status', scan, built, _, held⟩ := within first last roomFirst roomLast
    cases built
    cases ended
    exact held.storage
  · cases built
    cases ended
    exact .inr ⟨flag, fun _ => ⟨held.storage, fun _ filled =>
      filled.congr constructs.logical constructs.given⟩⟩

theorem InOrder.step (inOrder : session.InOrder) (stepped : session.step action = some next) :
    StepEnds session next action := by
  cases action with
  | newHeapFile mem fileName => exact inOrder.new_heap_file_step stepped
  | newHeapFileScan mem fileName => exact inOrder.new_scan_step stepped
  | newInsertFileScan mem fileName => exact inOrder.new_insert_step stepped
  | delete index => exact inOrder.delete_step stepped
  | call index call => exact inOrder.call_step stepped

def SucceedingStep (session next : HeapSession) : Prop :=
  ∃ action, session.step action = some next ∧ next.world.bufFailed = false

/-- No buffer call fails, and somebody will report every changed page. -/
def SmoothStep (session next : HeapSession) : Prop :=
  ∃ action, session.step action = some next ∧ next.world.bufFailed = false ∧
    session.Reported action

/-- A step in which buffer calls may fail as long as the objects can cope. -/
def ServedStep (session next : HeapSession) : Prop :=
  ∃ action, session.step action = some next ∧ session.Served action ∧ session.Reported action

theorem smooth_run_in_order {start : World} (started : start.JustStarted)
    (run : Relation.ReflTransGen SmoothStep ⟨start, []⟩ session) :
    session.InOrder ∧ session.world.Filled ∧ session.world.bufFailed = false := by
  induction run with
  | refl => exact ⟨started.storage, started.filled, started.flag⟩
  | tail _ stepped ih =>
      obtain ⟨inOrder, filled, _⟩ := ih
      obtain ⟨action, stepped, smooth, reported⟩ := stepped
      rcases inOrder.step stepped with ⟨flag, _⟩ | ⟨_, within⟩
      · rw [flag] at smooth
        cases smooth
      · obtain ⟨ordered, keeps⟩ := within reported
        exact ⟨ordered, keeps smooth filled, smooth⟩

theorem served_run_in_order {start : World} (started : start.JustStarted)
    (run : Relation.ReflTransGen ServedStep ⟨start, []⟩ session) : session.InOrder := by
  induction run with
  | refl => exact started.storage
  | tail _ stepped ih =>
      obtain ⟨action, stepped, served, reported⟩ := stepped
      rcases ih.step stepped with ⟨_, within⟩ | ⟨_, within⟩
      · exact within served reported
      · exact (within reported).1

theorem pins_on_pins (objects : List HeapObject) (frame : Nat) :
    pinsOn (pins objects) frame =
      (objects.countP fun object => object.base.headerPage = frame) +
        objects.countP fun object => object.base.curPage = some frame := by
  induction objects with
  | nil => rfl
  | cons object objects ih =>
      have split_ : pins (object :: objects) = object.base.pins ++ pins objects := rfl
      have mine : pinsOn object.base.pins frame =
          (if object.base.headerPage = frame then 1 else 0) +
            if object.base.curPage = some frame then 1 else 0 := by
        cases cur : object.base.curPage with
        | none => simp [HeapFile.pins_none cur, pinsOn, HeapFile.headerPin, List.countP_cons]
        | some other =>
            simp [HeapFile.pins_some cur, pinsOn, HeapFile.headerPin, HeapFile.curPin,
              List.countP_cons, add_comm]
      rw [split_, pinsOn, List.countP_append, ← pinsOn, ← pinsOn, mine, ih, List.countP_cons,
        List.countP_cons]
      simp only [decide_eq_true_eq]
      omega

/-- Every pin in the pool belongs to one object, and every object has pinned the
pages it points to. -/
structure PinsOwned (session : HeapSession) : Prop where
  counted : ∀ frame, frame < session.world.bufMgr.numBufs →
    (session.world.bufMgr.bufTable frame).pinCnt = session.holders frame
  header : ∀ object ∈ session.objects, session.world.bufMgr.Holds object.base.headerPage
    object.base.filePtr object.base.headerPageNo
  current : ∀ object ∈ session.objects, ∀ frame, object.base.curPage = some frame →
    session.world.bufMgr.Holds frame object.base.filePtr object.base.curPageNo

theorem InOrder.pins_owned (inOrder : session.InOrder) : session.PinsOwned where
  counted := by
    intro frame bound
    rw [inOrder.pinned frame bound, pins_on_pins]
    rfl
  header := by
    intro object member
    exact (inOrder.held_by object.base.headerPin
      (List.mem_flatMap.mpr ⟨object, member, by simp [HeapFile.pins]⟩)).1
  current := by
    intro object member frame cur
    exact (inOrder.held_by (object.base.curPin frame)
      (List.mem_flatMap.mpr ⟨object, member, by simp [HeapFile.pins, cur]⟩)).1

/-- The last object on a file can be destroyed, and then everything that was
given to the pages of the file is on the disk. -/
structure LastClose (session : HeapSession) (index : Nat) (object : HeapObject)
    (fileName : FileName) (fileObject : File) (w₁ w' : World) : Prop where
  named : session.world.nameOf object.base.filePtr = some fileName
  unpins : object.unpinPages session.world = (.ok (), w₁)
  opened : w₁.files object.base.filePtr = some fileObject ∧ fileObject.openCnt - 1 = 0
  unpinned : ∀ frame, frame < w₁.bufMgr.numBufs →
    (w₁.bufMgr.bufTable frame).file = object.base.filePtr →
    (w₁.bufMgr.bufTable frame).pinCnt = 0
  flushed : (BufMgr.flushFile object.base.filePtr (w₁.setFile object.base.filePtr
    (some { fileObject with openCnt := fileObject.openCnt - 1 }))).1 = .ok ()
  closed : DB.closeFile object.base.filePtr w₁ = (.ok (), w')
  destroyed : session.step (.delete index) =
    some { world := w', objects := session.objects.eraseIdx index }
  forgotten : ∀ frame, frame < w'.bufMgr.numBufs →
    (w'.bufMgr.bufTable frame).file ≠ object.base.filePtr
  durable : ∃ contents, w'.disk fileName = some contents ∧
    ∀ pageNo : Int, 1 ≤ pageNo → pageNo < contents.size →
      session.world.given fileName pageNo = some (contents.page pageNo.toNat)

theorem InOrder.last_close (inOrder : session.InOrder) (filled : session.world.Filled)
    (found : session.objects[index]? = some object)
    (last : object.base.filePtr ∉ handles (session.objects.eraseIdx index)) :
    ∃ fileName fileObject w₁ w',
      LastClose session index object fileName fileObject w₁ w' := by
  obtain ⟨fileName, lf, holding⟩ := inOrder.holding found
  obtain ⟨w₁, w', destroys⟩ := holding.destroys (HeapSession.pins_owned _)
  have storage₁ := destroys.unpinned
  have apart : ∀ pin ∈ pins (session.objects.eraseIdx index), pin.file ≠ object.base.filePtr := by
    intro pin member equal
    exact last (equal ▸ HeapSession.pins_owned _ pin member)
  obtain ⟨fileObject, live⟩ := (storage₁.live object.base.filePtr).mp List.mem_cons_self
  have one : fileObject.openCnt = 1 := by
    rw [storage₁.counted _ fileObject live, List.count_cons_self, List.count_eq_zero.mpr last]
    rfl
  have nonnull : object.base.filePtr ≠ 0 := by
    intro null
    rw [null, storage₁.null] at live
    cases live
  have named₁ : w₁.nameOf object.base.filePtr = some fileName := by
    rw [destroys.same.nameOf]
    exact holding.named
  have logical₁ : w₁.logical fileName = some lf := by
    rw [destroys.same.logical]
    exact holding.logical
  refine ⟨fileName, fileObject, w₁, w', holding.named, destroys.unpins, ⟨live, by omega⟩, ?_, ?_,
    destroys.closed, ?_, ?_, ?_⟩
  · intro frame bound mine
    rw [storage₁.pinned frame bound]
    by_contra pinned
    obtain ⟨pin, member, here⟩ := List.countP_pos_iff.mp (Nat.pos_of_ne_zero pinned)
    obtain ⟨_, _, file, _⟩ := (storage₁.held_by pin member).1
    rw [decide_eq_true_eq] at here
    rw [here, mine] at file
    exact apart pin member file.symm
  · obtain ⟨w₂, flushed, _⟩ := storage₁.last_flush live apart
    have zero : fileObject.openCnt - 1 = 0 := by omega
    rw [zero]
    exact congrArg Prod.fst flushed
  · have returned : object.delete.returns session.world = some ((), w') := by
      simp only [DbM.returns, destroys.deletes]
    simp only [HeapSession.step, found, Option.bind_eq_bind, Option.bind_some, returned]
    rfl
  · intro frame bound mine
    cases valid : (w'.bufMgr.bufTable frame).valid with
    | true => exact destroys.closes.gone last frame _ ⟨bound, valid, mine, rfl⟩
    | false =>
        have unused := destroys.storage.residency.free frame bound valid
        exact nonnull (mine.symm.trans unused.1)
  · have logical' : w'.logical fileName = some lf := by
      rw [destroys.closes.logical]
      exact logical₁
    have unopened : w'.openFiles.find fileName = none := by
      cases found' : w'.openFiles.find fileName with
      | none => rfl
      | some other =>
          obtain ⟨otherObject, otherLive, otherName⟩ := (destroys.storage.table _ _).mp found'
          have member := (destroys.storage.live other).mpr ⟨otherObject, otherLive⟩
          have sameName : w₁.nameOf other = some fileName := by
            rw [← destroys.closes.names other member, World.nameOf, otherLive, ← otherName]
            rfl
          obtain ⟨_, _, _, _, _, _, _, left, _⟩ := storage₁.handle_spec sameName logical₁
          obtain ⟨_, _, _, _, _, _, _, right, _⟩ := storage₁.handle_spec named₁ logical₁
          rw [left] at right
          exact absurd (Option.some.inj right ▸ member) last
    have shape := logical'
    simp only [World.logical, Option.map_eq_some_iff] at shape
    obtain ⟨contents, stored, rfl⟩ := shape
    refine ⟨contents, stored, ?_⟩
    intro pageNo lower upper
    obtain ⟨image, given⟩ := Option.isSome_iff_exists.mp
      (filled fileName _ holding.logical pageNo ⟨lower, upper⟩)
    obtain ⟨lf', logical'', _, page⟩ := inOrder.kept fileName pageNo image given
    rw [holding.logical] at logical''
    obtain rfl := Option.some.inj logical''
    rw [given, ← page]
    simp [lower, upper, World.filePage, unopened, stored]

/-- In a session in which every buffer call succeeds and every page that the
objects change is reported, the pins in the pool are those of the objects, and
destroying the last object on a file leaves the file on disk as it was last
given. -/
theorem pins_balanced_and_last_close_durable {start : World} (started : start.JustStarted)
    {session : HeapSession} (run : Relation.ReflTransGen SmoothStep ⟨start, []⟩ session) :
    session.PinsOwned ∧ ∀ index object, session.objects[index]? = some object →
      object.base.filePtr ∉ handles (session.objects.eraseIdx index) →
      ∃ fileName fileObject w₁ w',
        LastClose session index object fileName fileObject w₁ w' := by
  obtain ⟨inOrder, filled, _⟩ := smooth_run_in_order started run
  exact ⟨inOrder.pins_owned, fun index object found last =>
    inOrder.last_close filled found last⟩

def emptyHeapFile : UnixFile :=
  { size := 3
    page := fun pageNo =>
      if pageNo = 0 then
        PageImage.zero.setDBPage { nextFree := -1, firstPage := 1, numPages := 3 }
      else if pageNo = 1 then
        PageImage.zero.setFileHdr { fileName := headerName [102], firstPage := 2, lastPage := 2
                                    pageCnt := 1, recCnt := 0 }
      else .data (Page.zeroPage.init 2) }

/-- A process with four frames and a database of that one file, `f`. -/
def emptyStart : World :=
  { disk := fun fileName => if fileName = [102] then some emptyHeapFile else none
    files := fun _ => none
    brk := 1
    malloc := fun _ => 0
    openFiles := { ht := ChainedTable.empty }
    bufMgr := BufMgr.new 4
    faults := fun _ => false
    bufFailed := false
    given := fun fileName pageNo =>
      if fileName = [102] ∧ 1 ≤ pageNo ∧ pageNo < 3 then some (emptyHeapFile.page pageNo.toNat)
      else none }

theorem empty_start_just_started : emptyStart.JustStarted where
  reliable := rfl
  pool := ⟨4, by decide, rfl⟩
  files := rfl
  openFiles := rfl
  brk := by decide
  stored := by
    intro fileName contents stored
    simp only [emptyStart] at stored
    split_ifs at stored
    obtain rfl := Option.some.inj stored
    exact ⟨by decide, rfl, rfl, List.nodup_nil⟩
  flag := rfl
  given := by
    funext fileName pageNo
    simp only [emptyStart, storedPages]
    by_cases same : fileName = [102]
    · simp [same, emptyHeapFile]
    · simp [same]

def zeroMemory : Uninit :=
  { headerPageNo := 0, curPage := none, markedPageNo := 0, markedRec := NULLRID }

def afterStep (session : HeapSession) (action : HeapAction) : HeapSession :=
  (session.step action).getD session

theorem step_eq_after (returns : (session.step action).isSome) :
    session.step action = some (session.afterStep action) := by
  obtain ⟨after, stepped⟩ := Option.isSome_iff_exists.mp returns
  simp [HeapSession.afterStep, stepped]

def perform : List HeapAction → HeapSession → Option HeapSession
  | [], session => some session
  | action :: actions, session =>
      (session.step action).bind fun next =>
        if next.world.bufFailed then none else perform actions next

theorem perform_reaches (actions : List HeapAction) {start : HeapSession}
    (performed : perform actions start = some session) :
    Relation.ReflTransGen SucceedingStep start session := by
  induction actions generalizing start with
  | nil =>
      cases performed
      exact .refl
  | cons action actions ih =>
      simp only [perform, Option.bind_eq_some_iff] at performed
      obtain ⟨next, stepped, rest⟩ := performed
      split_ifs at rest with flag
      exact .head ⟨action, stepped, by simpa using flag⟩ (ih rest)

theorem perform_smooth {actions : List HeapAction}
    (reported : ∀ action ∈ actions, ∀ session : HeapSession, session.Reported action)
    {start : HeapSession} (performed : perform actions start = some session) :
    Relation.ReflTransGen SmoothStep start session := by
  induction actions generalizing start with
  | nil =>
      cases performed
      exact .refl
  | cons action actions ih =>
      simp only [perform, Option.bind_eq_some_iff] at performed
      obtain ⟨next, stepped, rest⟩ := performed
      split_ifs at rest with flag
      have smooth : next.world.bufFailed = false := by simpa using flag
      exact .head ⟨action, stepped, smooth, reported action List.mem_cons_self start⟩
        (ih (fun action later => reported action (List.mem_cons_of_mem _ later)) rest)

theorem perform_eq_after {actions : List HeapAction} {start : HeapSession}
    (performs : (perform actions start).isSome) :
    perform actions start = some (actions.foldl HeapSession.afterStep start) := by
  induction actions generalizing start with
  | nil => rfl
  | cons action actions ih =>
      rw [perform] at performs ⊢
      cases stepped : start.step action with
      | none =>
          rw [stepped] at performs
          cases performs
      | some after =>
          have same : start.afterStep action = after := by simp [HeapSession.afterStep, stepped]
          rw [stepped, Option.bind_some] at performs
          rw [Option.bind_some, List.foldl_cons, same]
          split_ifs at performs ⊢ with flag
          · cases performs
          · exact ih performs

def sharedActions : List HeapAction :=
  [.newInsertFileScan zeroMemory [102], .newHeapFileScan zeroMemory [102],
    .call 1 (.insertRecord [1, 2, 3]), .call 0 (.scanNext NULLRID)]

theorem shared_actions_reported :
    ∀ action ∈ sharedActions, ∀ session : HeapSession, session.Reported action := by
  simp only [sharedActions, List.forall_mem_cons, Reported, HeapCall.Reported]
  refine ⟨fun _ => trivial, fun _ => trivial, ?_, fun _ _ _ => trivial, by simp⟩
  intro session object _
  cases object <;> simp

/-- The inserter goes first; the scan is then the last object on the file. -/
theorem pins_balanced_and_last_close_durable_two_objects :
    ∃ busy session object, Relation.ReflTransGen SmoothStep ⟨emptyStart, []⟩ busy ∧
      busy.objects.length = 2 ∧ busy.PinsOwned ∧ SmoothStep busy session ∧
      session.PinsOwned ∧ session.objects = [object] ∧
      ∃ fileName fileObject w₁ w', LastClose session 0 object fileName fileObject w₁ w' := by
  let busy := sharedActions.foldl HeapSession.afterStep ⟨emptyStart, []⟩
  let session := busy.afterStep (.delete 1)
  have run : Relation.ReflTransGen SmoothStep ⟨emptyStart, []⟩ busy :=
    perform_smooth shared_actions_reported (perform_eq_after (by decide +kernel))
  have deletes : SmoothStep busy session :=
    ⟨.delete 1, step_eq_after (by decide +kernel), by decide +kernel, trivial⟩
  obtain ⟨owned, closes⟩ :=
    pins_balanced_and_last_close_durable empty_start_just_started (run.tail deletes)
  obtain ⟨object, alone⟩ : ∃ object, session.objects = [object] :=
    List.length_eq_one_iff.mp (by decide +kernel)
  refine ⟨busy, session, object, run, by decide +kernel,
    (pins_balanced_and_last_close_durable empty_start_just_started run).1, deletes, owned, alone,
    closes 0 object (by rw [alone]; rfl) ?_⟩
  rw [alone]
  exact List.not_mem_nil

/-- An inserter appends a page for a record of 1001 bytes, which does not fit
there either, and moves away to look up a record. -/
def lossyActions : List HeapAction :=
  [.newInsertFileScan zeroMemory [102], .call 0 (.insertRecord (List.replicate 1001 7)),
    .call 0 (.getRecord ⟨2, 0⟩)]

/-- No buffer call fails, but the link of the new page does not reach the disk:
there its `nextPage` is 0. -/
theorem appended_page_lost_at_last_close :
    ∃ session next, emptyStart.JustStarted ∧
      Relation.ReflTransGen SucceedingStep ⟨emptyStart, []⟩ session ∧
      session.objects.length = 1 ∧ session.step (.delete 0) = some next ∧
      next.world.bufFailed = false ∧
      ∃ contents, next.world.disk [102] = some contents ∧ contents.size = 4 ∧
        session.world.given [102] 3 ≠ some (contents.page 3) := by
  let session := lossyActions.foldl HeapSession.afterStep ⟨emptyStart, []⟩
  let closed := session.afterStep (.delete 0)
  let contents := (closed.world.disk [102]).getD emptyHeapFile
  have performed : perform lossyActions ⟨emptyStart, []⟩ = some session :=
    perform_eq_after (by decide +kernel)
  have stored : closed.world.disk [102] = some contents := by
    have some_ : (closed.world.disk [102]).isSome := by decide +kernel
    obtain ⟨found, equal⟩ := Option.isSome_iff_exists.mp some_
    simp [contents, equal]
  refine ⟨session, closed, empty_start_just_started, perform_reaches lossyActions performed,
    by decide +kernel, step_eq_after (by decide +kernel), by decide +kernel, contents, stored,
    by decide +kernel, ?_⟩
  intro equal
  have links := congrArg (Option.map fun image => image.asPage.nextPage) equal
  have apart : ¬((session.world.given [102] 3).map fun image => image.asPage.nextPage) =
      (some (contents.page 3)).map fun image => image.asPage.nextPage := by decide +kernel
  exact apart links

/-- In a session whose failed calls are harmless every object owns one pin on each
page it points to, so no page in use can be evicted. -/
theorem pins_owned_despite_failures {start : World} (started : start.JustStarted)
    {session : HeapSession} (run : Relation.ReflTransGen ServedStep ⟨start, []⟩ session) :
    session.PinsOwned ∧ ∀ object ∈ session.objects, ∀ frame,
      object.base.headerPage = frame ∨ object.base.curPage = some frame →
      0 < (session.world.bufMgr.bufTable frame).pinCnt := by
  have owned := (served_run_in_order started run).pins_owned
  refine ⟨owned, ?_⟩
  intro object member frame uses
  have bound : frame < session.world.bufMgr.numBufs := by
    rcases uses with rfl | cur
    · exact (owned.header object member).1
    · exact (owned.current object member frame cur).1
  rw [owned.counted frame bound, holders]
  rcases uses with header | cur
  · have some_ : 0 < session.objects.countP fun object => object.base.headerPage = frame :=
      List.countP_pos_iff.mpr ⟨object, member, by simpa using header⟩
    omega
  · have some_ : 0 < session.objects.countP fun object => object.base.curPage = some frame :=
      List.countP_pos_iff.mpr ⟨object, member, by simpa using cur⟩
    omega

def twoFrames : World := { emptyStart with bufMgr := BufMgr.new 2 }

theorem two_frames_just_started : twoFrames.JustStarted :=
  { empty_start_just_started with pool := ⟨2, by decide, rfl⟩ }

/-- The header and the only data page fill the pool, and the second record of
600 bytes needs another page: `allocPage` fails. -/
theorem pins_owned_despite_failures_full_pool :
    ∃ session, Relation.ReflTransGen ServedStep ⟨twoFrames, []⟩ session ∧
      session.objects.length = 2 ∧ session.world.bufFailed = true ∧ session.PinsOwned := by
  let long : Record := List.replicate 600 7
  let scanning := HeapSession.afterStep ⟨twoFrames, []⟩ (.newHeapFileScan zeroMemory [102])
  let opened := scanning.afterStep (.newInsertFileScan zeroMemory [102])
  let inserted := opened.afterStep (.call 0 (.insertRecord long))
  let refused := inserted.afterStep (.call 0 (.insertRecord long))
  have scans : ServedStep ⟨twoFrames, []⟩ scanning := by
    refine ⟨.newHeapFileScan zeroMemory [102], step_eq_after (by decide +kernel), ?_, trivial⟩
    intro lf logical
    have first : (twoFrames.logical [102]).all fun lf =>
        decide (lf.Inside (lf.header lf.firstPage).firstPage) := by decide +kernel
    rw [logical, Option.all_some, decide_eq_true_eq] at first
    exact ⟨first, .inl rfl⟩
  have opens : ServedStep scanning opened := by
    refine ⟨.newInsertFileScan zeroMemory [102], step_eq_after (by decide +kernel), ?_, trivial⟩
    intro lf logical
    have pages : (scanning.world.logical [102]).all fun lf =>
        decide (lf.Inside (lf.header lf.firstPage).firstPage ∧
          lf.Inside (lf.header lf.firstPage).lastPage ∧
          (lf.header lf.firstPage).firstPage = (lf.header lf.firstPage).lastPage) := by
      decide +kernel
    rw [logical, Option.all_some, decide_eq_true_eq] at pages
    exact ⟨pages.1, pages.2.1, .inl rfl, .inl pages.2.2⟩
  have inserts : ∀ before ∈ [opened, inserted],
      ServedStep before (before.afterStep (.call 0 (.insertRecord long))) := by
    have returns : ∀ before ∈ [opened, inserted],
        (before.step (.call 0 (.insertRecord long))).isSome ∧
          (before.objects[0]?).all fun object => object.base.curPage.isSome := by decide +kernel
    intro before either
    obtain ⟨steps, here⟩ := returns before either
    refine ⟨.call 0 (.insertRecord long), step_eq_after steps, ?_, ?_⟩
    · intro object found fileName lf _ _
      rw [found] at here
      cases object with
      | insertFileScan scan => exact .inl here
      | _ => trivial
    · intro object _
      have short : long.length = 600 := List.length_replicate
      cases object with
      | insertFileScan scan => exact fun tooLong => absurd tooLong (by omega)
      | _ => trivial
  have run : Relation.ReflTransGen ServedStep ⟨twoFrames, []⟩ refused :=
    .tail (.tail (.tail (.tail .refl scans) opens) (inserts opened (by simp)))
      (inserts inserted (by simp))
  exact ⟨refused, run, by decide +kernel, by decide +kernel,
    (pins_owned_despite_failures two_frames_just_started run).1⟩

def AnyStep (session next : HeapSession) : Prop := ∃ action, session.step action = some next

/-- After a `getRecord` of a page that does not exist the object points to a frame
that it has unpinned. -/
theorem pin_lost_by_failed_get_record :
    ∃ session, emptyStart.JustStarted ∧
      Relation.ReflTransGen AnyStep ⟨emptyStart, []⟩ session ∧ session.objects.length = 1 ∧
      ¬session.PinsOwned := by
  let opened := HeapSession.afterStep ⟨emptyStart, []⟩ (.newHeapFile zeroMemory [102])
  let asked := opened.afterStep (.call 0 (.getRecord ⟨9, 0⟩))
  refine ⟨asked, empty_start_just_started,
    .tail (.tail .refl ⟨_, step_eq_after (by decide +kernel)⟩)
      ⟨_, step_eq_after (by decide +kernel)⟩, by decide +kernel, ?_⟩
  intro owned
  have counted := owned.counted 1 (by decide +kernel)
  have apart : ¬(asked.world.bufMgr.bufTable 1).pinCnt = asked.holders 1 := by decide +kernel
  exact apart counted

end HeapSession

end PrimitiveDB

import PrimitiveDB.HeapFileScanning

/-!
# Heap file objects at work

A process works on any number of `HeapFile`, `HeapFileScan` and `InsertFileScan`
objects, several of them on one file if it likes. `HeapSession.step` is one
action of the process: an object is constructed or destroyed, or one method of
one object is called. A crash, or a call of a method that the class does not
have, is `none`.
-/

namespace PrimitiveDB

open BufMgr World

set_option autoImplicit false

inductive HeapObject where
  | heapFile (heap : HeapFile)
  | heapFileScan (scan : HeapFileScan)
  | insertFileScan (scan : InsertFileScan)

namespace HeapObject

def base : HeapObject → HeapFile
  | .heapFile heap => heap
  | .heapFileScan scan => scan.toHeapFile
  | .insertFileScan scan => scan.toHeapFile

def setBase : HeapObject → HeapFile → HeapObject
  | .heapFile _, heap => .heapFile heap
  | .heapFileScan scan, heap => .heapFileScan { scan with toHeapFile := heap }
  | .insertFileScan _, heap => .insertFileScan ⟨heap⟩

@[simp] theorem base_set_base (object : HeapObject) (heap : HeapFile) :
    (object.setBase heap).base = heap := by
  cases object <;> rfl

def delete : HeapObject → DbM Unit
  | .heapFile heap => heap.delete
  | .heapFileScan scan => scan.delete
  | .insertFileScan scan => scan.delete

def unpinPages : HeapObject → DbM Unit
  | .heapFile heap => do
      if heap.curPage.isSome then
        let _ ← callBufMgr (BufMgr.unPinPage heap.filePtr heap.curPageNo heap.curDirtyFlag)
      let _ ← callBufMgr (BufMgr.unPinPage heap.filePtr heap.headerPageNo heap.hdrDirtyFlag)
  | .heapFileScan scan => do
      let _ ← scan.endScan
      let _ ← callBufMgr (BufMgr.unPinPage scan.filePtr scan.headerPageNo scan.hdrDirtyFlag)
  | .insertFileScan scan => do
      if scan.curPage.isSome then
        let _ ← callBufMgr (BufMgr.unPinPage scan.filePtr scan.curPageNo true)
      let _ ← callBufMgr (BufMgr.unPinPage scan.filePtr scan.headerPageNo scan.hdrDirtyFlag)

end HeapObject

inductive HeapCall where
  | getRecCnt
  | getRecord (rid : RID)
  | startScan (offset length : Int) (type : Datatype) (filter : Option (List ByteMemory.Byte))
      (op : Operator)
  | endScan
  | markScan
  | resetScan
  | scanNext (tmpRid : RID)
  | current
  | deleteRecord
  | markDirty
  | insertRecord (rec : Record)

/-- The object after the call; the results go to the caller. -/
def HeapCall.run : HeapCall → HeapObject → Option (DbM HeapObject)
  | .getRecCnt, object => some do
      let _ ← object.base.getRecCnt
      pure object
  | .getRecord rid, object => some do
      let (_, heap) ← object.base.getRecord rid
      pure (object.setBase heap)
  | .startScan offset length type filter op, .heapFileScan scan =>
      some (pure (.heapFileScan (scan.startScan offset length type filter op).2))
  | .endScan, .heapFileScan scan => some do
      let (_, scan) ← scan.endScan
      pure (.heapFileScan scan)
  | .markScan, .heapFileScan scan => some (pure (.heapFileScan scan.markScan))
  | .resetScan, .heapFileScan scan => some do
      let (_, scan) ← scan.resetScan
      pure (.heapFileScan scan)
  | .scanNext tmpRid, .heapFileScan scan => some do
      let (_, scan) ← scan.scanNext tmpRid
      pure (.heapFileScan scan)
  | .current, .heapFileScan scan => some do
      let _ ← scan.current
      pure (.heapFileScan scan)
  | .deleteRecord, .heapFileScan scan => some do
      let (_, scan) ← scan.deleteRecord
      pure (.heapFileScan scan)
  | .markDirty, .heapFileScan scan => some (pure (.heapFileScan scan.markDirty))
  | .insertRecord rec, .insertFileScan scan => some do
      let (_, scan) ← scan.insertRecord rec
      pure (.insertFileScan scan)
  | _, _ => none

inductive HeapAction where
  | newHeapFile (mem : Uninit) (fileName : FileName)
  | newHeapFileScan (mem : Uninit) (fileName : FileName)
  | newInsertFileScan (mem : Uninit) (fileName : FileName)
  | delete (index : Nat)
  | call (index : Nat) (call : HeapCall)

structure HeapSession where
  world : World
  objects : List HeapObject

def DbM.returns {α : Type} (call : DbM α) (w : World) : Option (α × World) :=
  match call w with
  | (.ok value, w') => some (value, w')
  | _ => none

theorem DbM.returns_eq_some {α : Type} {call : DbM α} {w w' : World} {value : α}
    (returned : call.returns w = some (value, w')) : call w = (.ok value, w') := by
  unfold DbM.returns at returned
  rcases run : call w with ⟨result | status | _, w''⟩ <;> rw [run] at returned
  · obtain ⟨rfl, rfl⟩ := Prod.mk.inj (Option.some.inj returned)
    rfl
  · cases returned
  · cases returned

namespace HeapSession

def step (session : HeapSession) : HeapAction → Option HeapSession
  | .newHeapFile mem fileName => do
      match ← (HeapFile.new mem fileName).returns session.world with
      | (.error _, w) => pure { session with world := w }
      | (.ok heap, w) => pure { world := w, objects := .heapFile heap :: session.objects }
  | .newHeapFileScan mem fileName => do
      match ← (HeapFileScan.new mem fileName).returns session.world with
      | (.error _, w) => pure { session with world := w }
      | (.ok scan, w) => pure { world := w, objects := .heapFileScan scan :: session.objects }
  | .newInsertFileScan mem fileName => do
      match ← (InsertFileScan.new mem fileName).returns session.world with
      | ((_, none), w) => pure { session with world := w }
      | ((_, some scan), w) =>
          pure { world := w, objects := .insertFileScan scan :: session.objects }
  | .delete index => do
      let object ← session.objects[index]?
      let (_, w) ← object.delete.returns session.world
      pure { world := w, objects := session.objects.eraseIdx index }
  | .call index call => do
      let object ← session.objects[index]?
      let method ← call.run object
      let (after, w) ← method.returns session.world
      pure { world := w, objects := session.objects.set index after }

def pins (objects : List HeapObject) : List Pin := objects.flatMap fun object => object.base.pins

def handles (objects : List HeapObject) : List FilePtr :=
  objects.map fun object => object.base.filePtr

/-- The objects that have the frame as their header page, and those that have it
as their current page. -/
def holders (session : HeapSession) (frame : Nat) : Nat :=
  (session.objects.countP fun object => object.base.headerPage = frame) +
    session.objects.countP fun object => object.base.curPage = some frame

/-- The layers below are sound, and the pins and open counts they know of are
those of the objects. -/
def InOrder (session : HeapSession) : Prop :=
  session.world.Storage (pins session.objects) (handles session.objects)

end HeapSession

/-- The record fits on some page, or its caller is going to report its page
anyway; and a deletion names a slot (with a negative number the source writes in
front of the page). -/
def HeapCall.Reported : HeapCall → HeapObject → Prop
  | .insertRecord rec, .insertFileScan scan =>
      1000 < rec.length → rec.length ≤ DATASIZE → scan.curDirtyFlag = true
  | .deleteRecord, .heapFileScan scan => 0 ≤ scan.curRec.slotNo
  | _, _ => True

/-- The pages the call asks for exist, and a call that gives its page up first
can get the next one. -/
def HeapCall.Served (w : World) (rest : List Pin) (lf : LogicalFile) :
    HeapCall → HeapObject → Prop
  | .getRecord rid, object => lf.Inside rid.pageNo ∧
      (object.base.curPage = none ∨
        w.HasRoom (object.base.headerPin :: rest) object.base.filePtr rid.pageNo)
  | .resetScan, .heapFileScan scan => lf.Inside scan.markedPageNo ∧
      (scan.curPage = none ∨ w.HasRoom (scan.headerPin :: rest) scan.filePtr scan.markedPageNo)
  | .scanNext _, .heapFileScan scan => World.HeapFileScan.Linked scan lf
  | .insertRecord _, .insertFileScan scan =>
      scan.curPage.isSome ∨ lf.Inside (lf.header scan.headerPageNo).lastPage
  | _, _ => True

namespace World

variable {w w' : World} {rest : List Pin} {others : List FilePtr} {fileName : FileName}
  {lf : LogicalFile} {object after : HeapObject} {call : HeapCall} {method : DbM HeapObject}

theorem SameLogical.to_writes (same : SameLogical w w') (logical : w.logical fileName = some lf) :
    Writes w w' fileName lf where
  files := same.files
  openFiles := same.openFiles
  logical := by rw [same.logical, ← logical, Function.update_eq_self]
  given := by
    rw [same.given]
    exact fun _ _ => id

/-- A call has turned the file into `lf'`; pages it has added hold what it gave
them. -/
structure Turns (w w' : World) (heap : HeapFile) (rest : List Pin) (others : List FilePtr)
    (fileName : FileName) (lf lf' : LogicalFile) : Prop where
  writes : Writes w w' fileName lf'
  held : w'.Holding heap rest others fileName lf'
  pages : w'.bufFailed = false → ∀ pageNo, lf'.Inside pageNo →
    lf.Inside pageNo ∨ (w'.given fileName pageNo).isSome

/-- How a call ends: a buffer call has failed, or none has. -/
def CallEnds (w w' : World) (before after : HeapFile) (rest : List Pin) (others : List FilePtr)
    (fileName : FileName) (lf : LogicalFile) (served reported : Prop) : Prop :=
  after.filePtr = before.filePtr ∧
    ((w'.bufFailed = true ∧
        (served → reported → ∃ lf', Turns w w' after rest others fileName lf lf')) ∨
      (w'.bufFailed = w.bufFailed ∧
        (reported → ∃ lf', Turns w w' after rest others fileName lf lf')))

theorem Holding.turns {heap : HeapFile} (held : w'.Holding heap rest others fileName lf)
    (same : SameLogical w w') : ∃ lf', Turns w w' heap rest others fileName lf lf' := by
  have logical : w.logical fileName = some lf := by
    rw [← same.logical]
    exact held.logical
  exact ⟨lf, same.to_writes logical, held, fun _ _ inside => .inl inside⟩

theorem Holding.unchanged {before after : HeapFile} {served reported : Prop}
    (holding : w.Holding before rest others fileName lf) (same : after = before) :
    CallEnds w w before after rest others fileName lf served reported := by
  subst same
  exact ⟨rfl, .inr ⟨rfl, fun _ => holding.turns (.refl w)⟩⟩

theorem Passes.call_ends {before after : HeapFile} {sound served reported : Prop}
    (passes : Passes w w' before after rest others fileName lf sound) (enough : served → sound) :
    CallEnds w w' before after rest others fileName lf served reported := by
  obtain ⟨file, failed | ⟨flag, same, held⟩⟩ := passes
  · refine ⟨file, .inl ⟨failed.1, fun serves _ => ?_⟩⟩
    obtain ⟨same, held⟩ := failed.2 (enough serves)
    exact held.turns same
  · exact ⟨file, .inr ⟨flag, fun _ => held.turns same⟩⟩

theorem Holding.get_record_ends {rid : RID} {reported : Prop}
    (holding : w.Holding object.base rest others fileName lf)
    (returned : (do
      let (_, heap) ← object.base.getRecord rid
      pure (object.setBase heap)) w = (.ok after, w')) :
    CallEnds w w' object.base after.base rest others fileName lf
      (HeapCall.Served w rest lf (.getRecord rid) object) reported := by
  obtain ⟨result, heap', w₁, run, header, outcome⟩ := holding.get_record rid
  rw [DbM.bind_ok run] at returned
  cases returned
  rw [HeapObject.base_set_base]
  refine ⟨congrArg Pin.file header, ?_⟩
  rcases outcome with ⟨flag, within⟩ | ⟨flag, _, same, held, _⟩
  · refine .inl ⟨flag, fun served _ => ?_⟩
    obtain ⟨same, held⟩ := within served.1 served.2
    exact held.turns same
  · exact .inr ⟨flag, fun _ => held.turns same⟩

theorem Holding.reset_scan_ends {scan : HeapFileScan} {reported : Prop}
    (holding : w.Holding scan.toHeapFile rest others fileName lf)
    (returned : (do
      let (_, scan) ← scan.resetScan
      pure (HeapObject.heapFileScan scan)) w = (.ok after, w')) :
    CallEnds w w' scan.toHeapFile after.base rest others fileName lf
      (HeapCall.Served w rest lf .resetScan (.heapFileScan scan)) reported := by
  obtain ⟨status, scan', w₁, run, header, outcome⟩ := Holding.reset_scan holding
  rw [DbM.bind_ok run] at returned
  cases returned
  refine ⟨congrArg Pin.file header, ?_⟩
  rcases outcome with ⟨flag, within⟩ | ⟨flag, same, held⟩
  · refine .inl ⟨flag, fun served _ => ?_⟩
    obtain ⟨same, held⟩ := within served.1 served.2
    exact held.turns same
  · exact .inr ⟨flag, fun _ => held.turns same⟩

theorem current_returns {scan : HeapFileScan}
    (returned : (do
      let _ ← scan.current
      pure (HeapObject.heapFileScan scan)) w = (.ok after, w')) :
    after = .heapFileScan scan ∧ w' = w := by
  obtain ⟨value, w₁, run, last⟩ := DbM.bind_eq_ok_iff.mp returned
  cases last
  unfold HeapFileScan.current at run
  cases cur : scan.curPage with
  | none =>
      rw [cur] at run
      cases run
  | some frame =>
      rw [cur] at run
      cases run
      exact ⟨rfl, rfl⟩

theorem Holding.delete_record_ends {scan : HeapFileScan} {served reported : Prop}
    (holding : w.Holding scan.toHeapFile rest others fileName lf)
    (returned : (do
      let (_, scan) ← scan.deleteRecord
      pure (HeapObject.heapFileScan scan)) w = (.ok after, w')) :
    CallEnds w w' scan.toHeapFile after.base rest others fileName lf served reported := by
  cases cur : scan.curPage with
  | none =>
      have crashes : scan.deleteRecord w = (.crash, w) := by
        unfold HeapFileScan.deleteRecord
        rw [cur]
        rfl
      rw [DbM.bind_apply, crashes] at returned
      cases returned
  | some frame =>
      obtain ⟨w₁, run, held, writes, flag⟩ := Holding.delete_record holding cur
      rw [DbM.bind_ok run] at returned
      cases returned
      refine ⟨rfl, .inr ⟨flag, fun _ => ⟨_, writes, held, ?_⟩⟩⟩
      intro _ pageNo inside
      left
      unfold LogicalFile.deleteRecord at inside
      dsimp only at inside
      split_ifs at inside <;> exact inside

theorem Holding.insert_record_ends {scan : InsertFileScan} {rec : Record}
    (holding : w.Holding scan.toHeapFile rest others fileName lf)
    (returned : (do
      let (_, scan) ← scan.insertRecord rec
      pure (HeapObject.insertFileScan scan)) w = (.ok after, w')) :
    CallEnds w w' scan.toHeapFile after.base rest others fileName lf
      (HeapCall.Served w rest lf (.insertRecord rec) (.insertFileScan scan))
      (HeapCall.Reported (.insertRecord rec) (.insertFileScan scan)) := by
  obtain ⟨result, scan', w₁, run, outcome⟩ := Holding.insert_record holding rec
  rw [DbM.bind_ok run] at returned
  cases returned
  rcases outcome with ⟨_, _, rfl, rfl⟩ | ⟨flag, file, within⟩ | ⟨small, ends, _, inserts⟩
  · exact holding.unchanged rfl
  · refine ⟨file, .inl ⟨flag, fun served _ => ?_⟩⟩
    rcases within served with ⟨same, held⟩ | ⟨lf', writes, held⟩
    · exact held.turns same
    · refine ⟨lf', writes, held, fun unset => ?_⟩
      rw [flag] at unset
      cases unset
  · refine ⟨inserts.header.2, .inr ⟨inserts.bufFailed, fun reported => ?_⟩⟩
    exact ⟨_, inserts.writes, inserts.held (fun long => reported long small),
      fun _ => inserts.pages⟩

/-- The methods of `HeapFile` work for every object; the others only for an
object of their class. -/
theorem Holding.calls (holding : w.Holding object.base rest others fileName lf)
    (known : call.run object = some method) (returned : method w = (.ok after, w')) :
    CallEnds w w' object.base after.base rest others fileName lf
      (call.Served w rest lf object) (call.Reported object) := by
  cases call with
  | getRecCnt =>
      obtain rfl := Option.some.inj known
      cases returned
      exact holding.unchanged rfl
  | getRecord rid =>
      obtain rfl := Option.some.inj known
      exact holding.get_record_ends returned
  | startScan offset length type filter op =>
      cases object with
      | heapFileScan scan =>
          obtain rfl := Option.some.inj known
          cases returned
          exact holding.unchanged rfl
      | _ => cases known
  | endScan =>
      cases object with
      | heapFileScan scan =>
          obtain rfl := Option.some.inj known
          obtain ⟨scan', w₁, run, same, flag, header, _, held⟩ := Holding.end_scan holding
          rw [DbM.bind_ok run] at returned
          cases returned
          exact ⟨congrArg Pin.file header, .inr ⟨flag, fun _ => held.turns same⟩⟩
      | _ => cases known
  | markScan =>
      cases object with
      | heapFileScan scan =>
          obtain rfl := Option.some.inj known
          cases returned
          exact holding.unchanged rfl
      | _ => cases known
  | resetScan =>
      cases object with
      | heapFileScan scan =>
          obtain rfl := Option.some.inj known
          exact Holding.reset_scan_ends holding returned
      | _ => cases known
  | scanNext tmpRid =>
      cases object with
      | heapFileScan scan =>
          obtain rfl := Option.some.inj known
          obtain ⟨value, w₁, run, last⟩ := DbM.bind_eq_ok_iff.mp returned
          cases last
          rcases Holding.scan_next holding tmpRid run with crash | ⟨result, scan', ended, passes⟩
          · cases crash
          · cases ended
            exact passes.call_ends id
      | _ => cases known
  | current =>
      cases object with
      | heapFileScan scan =>
          obtain rfl := Option.some.inj known
          obtain ⟨rfl, rfl⟩ := current_returns returned
          exact holding.unchanged rfl
      | _ => cases known
  | deleteRecord =>
      cases object with
      | heapFileScan scan =>
          obtain rfl := Option.some.inj known
          exact Holding.delete_record_ends holding returned
      | _ => cases known
  | markDirty =>
      cases object with
      | heapFileScan scan =>
          obtain rfl := Option.some.inj known
          cases returned
          refine ⟨rfl, .inr ⟨rfl, fun _ => Holding.turns ?_ (.refl w)⟩⟩
          exact holding.promise ⟨rfl, rfl, rfl⟩ ⟨rfl, rfl⟩ id (fun _ => rfl)
      | _ => cases known
  | insertRecord rec =>
      cases object with
      | insertFileScan scan =>
          obtain rfl := Option.some.inj known
          exact Holding.insert_record_ends holding returned
      | _ => cases known

/-- The file of an object has been closed in `w'`; `w₁` is the world in which
`closeFile` was called. -/
structure Destroys (w w₁ w' : World) (object : HeapObject) (rest : List Pin)
    (others : List FilePtr) : Prop where
  unpins : object.unpinPages w = (.ok (), w₁)
  unpinned : w₁.Storage rest (object.base.filePtr :: others)
  same : SameLogical w w₁
  closed : DB.closeFile object.base.filePtr w₁ = (.ok (), w')
  deletes : object.delete w = (.ok (), w')
  storage : w'.Storage rest others
  closes : Closes w₁ w' others object.base.filePtr
  bufFailed : w'.bufFailed = w.bufFailed

theorem Holding.let_go {heap : HeapFile} (holding : w.Holding heap rest others fileName lf)
    (dirty : Bool) (reports : heap.curDirtyFlag = true → dirty = true) :
    ∃ w₀, (heap.curPage = none ∧ w₀ = w ∨ heap.curPage.isSome ∧
        callBufMgr (BufMgr.unPinPage heap.filePtr heap.curPageNo dirty) w = (.ok (.ok ()), w₀)) ∧
      SameLogical w w₀ ∧ w₀.bufFailed = w.bufFailed ∧
      w₀.Holding { heap with curPage := none } rest others fileName lf := by
  cases cur : heap.curPage with
  | none =>
      refine ⟨w, .inl ⟨rfl, rfl⟩, .refl w, rfl, ?_⟩
      rw [no_cur_page cur]
      exact holding
  | some frame =>
      obtain ⟨w₀, run, same, flag, held⟩ := holding.unpin cur dirty reports
      exact ⟨w₀, .inr ⟨rfl, run⟩, same, flag, held _ rfl rfl⟩

theorem Holding.destroys (holding : w.Holding object.base rest others fileName lf)
    (owned : ∀ pin ∈ rest, pin.file ∈ others) :
    ∃ w₁ w', Destroys w w₁ w' object rest others := by
  cases object with
  | heapFile heap =>
      obtain ⟨w₀, first, same₀, flag₀, held₀⟩ := Holding.let_go holding heap.curDirtyFlag id
      obtain ⟨w₁, w', run, unpinned, storage₁, same, closed, storage', closes, flag⟩ :=
        held₀.release rfl owned
      refine ⟨w₁, w', ?_, storage₁, same₀.trans same, closed, ?_, storage', closes,
        flag.trans flag₀⟩
      · rcases first with ⟨cur, rfl⟩ | ⟨cur, first⟩
        · simp only [HeapObject.unpinPages, (show heap.curPage = none from cur),
            Option.isSome_none]
          exact DbM.bind_ok unpinned
        · simp only [HeapObject.unpinPages, (show heap.curPage.isSome = true from cur), if_true]
          exact (DbM.bind_ok first).trans (DbM.bind_ok unpinned)
      · rcases first with ⟨cur, rfl⟩ | ⟨cur, first⟩
        · simp only [HeapObject.delete, HeapFile.delete, (show heap.curPage = none from cur),
            Option.isSome_none]
          exact run
        · simp only [HeapObject.delete, HeapFile.delete,
            (show heap.curPage.isSome = true from cur), if_true]
          exact (DbM.bind_ok first).trans run
  | heapFileScan scan =>
      obtain ⟨scan', w₀, ended, same₀, flag₀, header, none_, held₀⟩ := Holding.end_scan holding
      obtain ⟨w₁, w', run, unpinned, storage₁, same, closed, storage', closes, flag⟩ :=
        held₀.release none_ owned
      have file : scan'.filePtr = scan.filePtr := congrArg Pin.file header
      have number : scan'.headerPageNo = scan.headerPageNo := congrArg Pin.pageNo header
      have dirty : scan'.hdrDirtyFlag = scan.hdrDirtyFlag := congrArg Pin.owed header
      rw [file, number, dirty] at unpinned
      rw [file] at storage₁ closed closes
      refine ⟨w₁, w', ?_, storage₁, same₀.trans same, closed, ?_, storage', closes,
        flag.trans flag₀⟩
      · exact (DbM.bind_ok ended).trans (DbM.bind_ok unpinned)
      · refine (DbM.bind_ok ended).trans ?_
        simp only [HeapFile.delete, none_, Option.isSome_none]
        exact run
  | insertFileScan scan =>
      obtain ⟨w₀, first, same₀, flag₀, held₀⟩ := Holding.let_go holding true (fun _ => rfl)
      obtain ⟨w₁, w', run, unpinned, storage₁, same, closed, storage', closes, flag⟩ :=
        held₀.release rfl owned
      refine ⟨w₁, w', ?_, storage₁, same₀.trans same, closed, ?_, storage', closes,
        flag.trans flag₀⟩
      · rcases first with ⟨cur, rfl⟩ | ⟨cur, first⟩
        · simp only [HeapObject.unpinPages, (show scan.curPage = none from cur),
            Option.isSome_none]
          exact DbM.bind_ok unpinned
        · simp only [HeapObject.unpinPages, (show scan.curPage.isSome = true from cur), if_true]
          exact (DbM.bind_ok first).trans (DbM.bind_ok unpinned)
      · rcases first with ⟨cur, rfl⟩ | ⟨cur, first⟩
        · simp only [HeapObject.delete, InsertFileScan.delete,
            (show scan.curPage = none from cur), Option.isSome_none]
          exact run
        · simp only [HeapObject.delete, InsertFileScan.delete,
            (show scan.curPage.isSome = true from cur), if_true]
          exact (DbM.bind_ok first).trans run

end World

end PrimitiveDB

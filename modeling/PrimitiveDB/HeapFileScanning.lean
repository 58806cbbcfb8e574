import PrimitiveDB.HeapFileMethods

/-!
# What a scan does

`LogicalFile.scanLoop` is the loop of `scanNext` on the pages of a logical file,
without pins. `HeapFileScan::scanNext` computes it, unless a buffer call fails;
a page that cannot be read leaves the scan without a current page, so that the
object is in order all the same.
-/

namespace PrimitiveDB

open BufMgr World

set_option autoImplicit false

namespace LogicalFile

/-- The loop of `scanNext`: the result, the current page and the current record
when it stops. -/
def scanLoop (file : LogicalFile) (filter : Option ScanFilter) :
    Nat → Int → RID → Except Status RID → Option (Except Status RID × Int × RID)
  | 0, _, _, _ => none
  | fuel + 1, pageNo, _, .ok rid =>
      match (file.data pageNo).getRecord rid with
      | .error status => some (.error status, pageNo, rid)
      | .ok rec =>
          if ScanFilter.matchRec filter rec then some (.ok rid, pageNo, rid)
          else file.scanLoop filter fuel pageNo rid ((file.data pageNo).nextRecord rid)
  | fuel + 1, pageNo, curRec, .error _ =>
      let nextNo := (file.data pageNo).getNextPage
      if nextNo = -1 then some (.error .FILEEOF, pageNo, curRec)
      else file.scanLoop filter fuel nextNo curRec (file.data nextNo).firstRecord

def Follows (file : LogicalFile) (pageNo nextNo : Int) : Prop :=
  (file.data pageNo).getNextPage = nextNo ∧ nextNo ≠ -1

/-- The chain of pages from `pageNo` on does not leave the file. -/
def Linked (file : LogicalFile) (pageNo : Int) : Prop :=
  ∀ reached nextNo, Relation.ReflTransGen file.Follows pageNo reached →
    file.Follows reached nextNo → file.Inside nextNo

theorem Linked.next {file : LogicalFile} {pageNo nextNo : Int} (linked : file.Linked pageNo)
    (follows : file.Follows pageNo nextNo) : file.Inside nextNo ∧ file.Linked nextNo := by
  refine ⟨linked pageNo nextNo .refl follows, ?_⟩
  intro reached further reaches
  exact linked reached further (.head follows reaches)

end LogicalFile

namespace World

variable {w w' : World} {rest : List Pin} {others : List FilePtr} {fileName : FileName}
  {lf : LogicalFile}

/-- How a scan has ended: the loop did not come back, a buffer call failed, or it
has computed `result`. -/
inductive ScanEnds (w : World) (scan : HeapFileScan) (rest : List Pin) (others : List FilePtr)
    (fileName : FileName) (lf : LogicalFile) (linked : Prop)
    (computed : Option (Except Status RID × Int × RID)) :
    Outcome (Except Status RID × HeapFileScan) × World → Prop where
  | lost (w' : World) (endless : computed = none) :
      ScanEnds w scan rest others fileName lf linked computed (.crash, w')
  | failed (status : Status) (scan' : HeapFileScan) (w' : World) (flag : w'.bufFailed = true)
      (file : scan'.filePtr = scan.filePtr)
      (held : linked → SameLogical w w' ∧ w'.Holding scan'.toHeapFile rest others fileName lf) :
      ScanEnds w scan rest others fileName lf linked computed (.ok (.error status, scan'), w')
  | found (result : Except Status RID) (scan' : HeapFileScan) (w' : World)
      (agrees : computed = some (result, scan'.curPageNo, scan'.curRec))
      (flag : w'.bufFailed = w.bufFailed) (same : SameLogical w w')
      (pinned : scan'.curPage.isSome)
      (fields : scan'.headerPin = scan.headerPin ∧ scan'.filter = scan.filter ∧
        scan'.markedPageNo = scan.markedPageNo ∧ scan'.markedRec = scan.markedRec)
      (held : w'.Holding scan'.toHeapFile rest others fileName lf) :
      ScanEnds w scan rest others fileName lf linked computed (.ok (result, scan'), w')

theorem Holding.cur_data {heap : HeapFile} {frame : Nat}
    (holding : w.Holding heap rest others fileName lf) (cur : heap.curPage = some frame) :
    (w.bufMgr.bufPool frame).asPage = lf.data heap.curPageNo :=
  congrArg PageImage.asPage (holding.cur_page cur).2

theorem Holding.header_data {heap : HeapFile}
    (holding : w.Holding heap rest others fileName lf) :
    (w.bufMgr.bufPool heap.headerPage).asFileHdr = lf.header heap.headerPageNo :=
  congrArg PageImage.asFileHdr holding.header_page.2

theorem ScanEnds.resume {w w₁ : World} {scan scan₁ : HeapFileScan} {linked linked₁ : Prop}
    {computed : Option (Except Status RID × Int × RID)}
    {ends : Outcome (Except Status RID × HeapFileScan) × World}
    (later : ScanEnds w₁ scan₁ rest others fileName lf linked₁ computed ends)
    (flag : w₁.bufFailed = w.bufFailed) (same : SameLogical w w₁)
    (fields : scan₁.headerPin = scan.headerPin ∧ scan₁.filter = scan.filter ∧
      scan₁.markedPageNo = scan.markedPageNo ∧ scan₁.markedRec = scan.markedRec)
    (links : linked → linked₁) :
    ScanEnds w scan rest others fileName lf linked computed ends := by
  cases later with
  | lost w' endless => exact .lost w' endless
  | failed status scan' w' failed file held =>
      refine .failed status scan' w' failed (file.trans (congrArg Pin.file fields.1)) ?_
      intro inside
      obtain ⟨same', held'⟩ := held (links inside)
      exact ⟨same.trans same', held'⟩
  | found result scan' w' agrees flag' same' pinned fields' held =>
      exact .found result scan' w' agrees (flag'.trans flag) (same.trans same') pinned
        ⟨fields'.1.trans fields.1, fields'.2.1.trans fields.2.1,
          fields'.2.2.1.trans fields.2.2.1, fields'.2.2.2.trans fields.2.2.2⟩ held

theorem Holding.scan_loop (fuel : Nat) {w : World} {scan : HeapFileScan} {frame : Nat}
    (holding : w.Holding scan.toHeapFile rest others fileName lf)
    (cur : scan.curPage = some frame) (found : Except Status RID) :
    ScanEnds w scan rest others fileName lf (lf.Linked scan.curPageNo)
      (lf.scanLoop scan.filter fuel scan.curPageNo scan.curRec found)
      (HeapFileScan.scanLoop fuel scan frame found w) := by
  induction fuel generalizing w scan frame found with
  | zero => exact .lost w rfl
  | succ fuel ih =>
      have page := holding.cur_data cur
      cases found with
      | ok rid =>
          have moved : w.Holding { scan.toHeapFile with curRec := rid } rest others fileName lf :=
            holding.promise ⟨rfl, rfl, rfl⟩ ⟨rfl, rfl⟩ id id
          unfold HeapFileScan.scanLoop LogicalFile.scanLoop
          rw [page_at_bind, page]
          cases got : (lf.data scan.curPageNo).getRecord rid with
          | error status =>
              exact .found _ { scan with curRec := rid } w rfl rfl (.refl w) (by simp [cur])
                ⟨rfl, rfl, rfl, rfl⟩ moved
          | ok rec =>
              dsimp only
              by_cases wanted : ScanFilter.matchRec scan.filter rec = true
              · rw [if_pos wanted, if_pos wanted]
                exact .found _ { scan with curRec := rid } w rfl rfl (.refl w) (by simp [cur])
                  ⟨rfl, rfl, rfl, rfl⟩ moved
              · rw [if_neg wanted, if_neg wanted]
                have later := @ih w { scan with curRec := rid } frame moved cur
                  ((lf.data scan.curPageNo).nextRecord rid)
                exact later.resume rfl (.refl w) ⟨rfl, rfl, rfl, rfl⟩ id
      | error status =>
          unfold HeapFileScan.scanLoop LogicalFile.scanLoop
          rw [page_at_bind, page]
          by_cases last : (lf.data scan.curPageNo).getNextPage = -1
          · rw [if_pos last, if_pos last]
            exact .found _ scan w rfl rfl (.refl w) (by simp [cur]) ⟨rfl, rfl, rfl, rfl⟩ holding
          · rw [if_neg last, if_neg last]
            obtain ⟨w₁, unpinned, same₁, flag₁, held₁⟩ := holding.unpin cur scan.curDirtyFlag id
            have parked := held₁ { scan.toHeapFile with
              curPage := none, curPageNo := (lf.data scan.curPageNo).getNextPage
              curDirtyFlag := false } rfl rfl
            obtain ⟨result, w₂, read, outcome⟩ :=
              parked.read rfl (lf.data scan.curPageNo).getNextPage
            rw [DbM.bind_ok unpinned]
            dsimp only
            rw [DbM.bind_ok read]
            rcases outcome with ⟨status, rfl, flag₂, within⟩ |
              ⟨frame₂, rfl, inside, same₂, flag₂, page₂, held₂⟩
            · refine .failed status _ w₂ flag₂ rfl fun linked => ?_
              obtain ⟨_, same₂, held₂⟩ := within (linked.next ⟨rfl, last⟩).1
              exact ⟨same₁.trans same₂, held₂ _ rfl rfl⟩
            · dsimp only
              rw [page_at_bind, congrArg PageImage.asPage page₂]
              have later := @ih w₂ { scan with
                curPage := some frame₂, curPageNo := (lf.data scan.curPageNo).getNextPage
                curDirtyFlag := false } frame₂ (held₂ _ rfl rfl rfl) rfl
                (lf.data (lf.data scan.curPageNo).getNextPage).firstRecord
              exact later.resume (flag₂.trans flag₁) (same₁.trans same₂) ⟨rfl, rfl, rfl, rfl⟩
                fun linked => (linked.next ⟨rfl, last⟩).2

theorem Holding.scan_fuel {heap : HeapFile} (holding : w.Holding heap rest others fileName lf) :
    HeapFileScan.scanFuel w heap.filePtr = lf.size * 40000 := by
  obtain ⟨_, contents, _, _, _, _, opened, _, size, _⟩ :=
    holding.storage.handle_spec holding.named holding.logical
  simp only [HeapFileScan.scanFuel, opened, size]

theorem Holding.scan_next_here {scan : HeapFileScan}
    (holding : w.Holding scan.toHeapFile rest others fileName lf) (pinned : scan.curPage.isSome)
    (tmpRid : RID) :
    ScanEnds w scan rest others fileName lf (lf.Linked scan.curPageNo)
      (lf.scanLoop scan.filter (lf.size * 40000) scan.curPageNo scan.curRec
        ((lf.data scan.curPageNo).nextRecord scan.curRec))
      (scan.scanNext tmpRid w) := by
  obtain ⟨frame, cur⟩ := Option.isSome_iff_exists.mp pinned
  have inside := (holding.cur_page cur).1
  have fuel : HeapFileScan.scanFuel w scan.filePtr = lf.size * 40000 := holding.scan_fuel
  have lower : ¬scan.curPageNo < 0 := by
    have positive := inside.1
    omega
  unfold HeapFileScan.scanNext
  rw [DbM.read_bind, if_neg lower]
  simp only [cur]
  rw [page_at_bind, holding.cur_data cur, fuel]
  exact holding.scan_loop _ cur _

/-- What is left of an object after a call that changes no file: if a buffer call
has failed, it is in order under the condition `sound`. -/
def Passes (w w' : World) (heap heap' : HeapFile) (rest : List Pin) (others : List FilePtr)
    (fileName : FileName) (lf : LogicalFile) (sound : Prop) : Prop :=
  heap'.filePtr = heap.filePtr ∧
    ((w'.bufFailed = true ∧
        (sound → SameLogical w w' ∧ w'.Holding heap' rest others fileName lf)) ∨
      (w'.bufFailed = w.bufFailed ∧ SameLogical w w' ∧ w'.Holding heap' rest others fileName lf))

def HeapFileScan.Linked (scan : HeapFileScan) (lf : LogicalFile) : Prop :=
  if scan.curPage.isSome then lf.Linked scan.curPageNo
  else (lf.header scan.headerPageNo).firstPage ≠ -1 →
    lf.Inside (lf.header scan.headerPageNo).firstPage ∧
      lf.Linked (lf.header scan.headerPageNo).firstPage

theorem ScanEnds.passes {w : World} {scan : HeapFileScan} {linked : Prop}
    {computed : Option (Except Status RID × Int × RID)}
    {ends : Outcome (Except Status RID × HeapFileScan) × World}
    (scanned : ScanEnds w scan rest others fileName lf linked computed ends) :
    ends.1 = .crash ∨ ∃ result scan', ends.1 = .ok (result, scan') ∧
      Passes w ends.2 scan.toHeapFile scan'.toHeapFile rest others fileName lf linked := by
  cases scanned with
  | lost w' _ => exact .inl rfl
  | failed status scan' w' flag file held =>
      exact .inr ⟨_, scan', rfl, file, .inl ⟨flag, held⟩⟩
  | found result scan' w' _ flag same _ fields held =>
      exact .inr ⟨result, scan', rfl, congrArg Pin.file fields.1, .inr ⟨flag, same, held⟩⟩

theorem Holding.scan_next {scan : HeapFileScan}
    (holding : w.Holding scan.toHeapFile rest others fileName lf) (tmpRid : RID)
    {ends : Outcome (Except Status RID × HeapFileScan) × World}
    (run : scan.scanNext tmpRid w = ends) :
    ends.1 = .crash ∨ ∃ result scan', ends.1 = .ok (result, scan') ∧
      Passes w ends.2 scan.toHeapFile scan'.toHeapFile rest others fileName lf
        (HeapFileScan.Linked scan lf) := by
  cases cur : scan.curPage with
  | some frame =>
      have pinned : scan.curPage.isSome := by simp [cur]
      have scanned := (holding.scan_next_here pinned tmpRid).passes
      rw [HeapFileScan.Linked, if_pos pinned, ← run]
      exact scanned
  | none =>
      have header := holding.header_data
      have linked : HeapFileScan.Linked scan lf ↔
          ((lf.header scan.headerPageNo).firstPage ≠ -1 →
            lf.Inside (lf.header scan.headerPageNo).firstPage ∧
              lf.Linked (lf.header scan.headerPageNo).firstPage) := by
        simp [HeapFileScan.Linked, cur]
      unfold HeapFileScan.scanNext at run
      rw [DbM.read_bind] at run
      split_ifs at run with atEnd
      · subst run
        exact .inr ⟨_, scan, rfl, rfl, .inr ⟨rfl, .refl w, holding⟩⟩
      · simp only [cur] at run
        rw [header_at_bind, header] at run
        by_cases empty : (lf.header scan.headerPageNo).firstPage = -1
        · rw [if_pos empty] at run
          subst run
          exact .inr ⟨_, _, rfl, rfl, .inr ⟨rfl, .refl w, holding.idle cur rfl rfl⟩⟩
        · rw [if_neg empty] at run
          obtain ⟨result, w₁, read, outcome⟩ :=
            holding.read cur (lf.header scan.headerPageNo).firstPage
          rw [DbM.bind_ok read] at run
          rcases outcome with ⟨status, rfl, flag, within⟩ |
            ⟨frame, rfl, inside, same, flag, page, held⟩
          · subst run
            refine .inr ⟨_, _, rfl, rfl, .inl ⟨flag, fun sound => ?_⟩⟩
            obtain ⟨_, same, held⟩ := within (linked.mp sound empty).1
            exact ⟨same, held _ rfl rfl⟩
          · let pinned : HeapFileScan := { scan with
              curPage := some frame, curPageNo := (lf.header scan.headerPageNo).firstPage
              curDirtyFlag := false, curRec := NULLRID }
            have pinnedHeld : w₁.Holding pinned.toHeapFile rest others fileName lf :=
              held _ rfl rfl rfl
            dsimp only at run
            rw [page_at_bind, pinnedHeld.cur_data rfl] at run
            rcases first : (lf.data pinned.curPageNo).firstRecord with status | rid
            · rw [first] at run
              obtain ⟨w₂, unpinned, same₂, flag₂, held₂⟩ := pinnedHeld.unpin rfl false id
              change (callBufMgr (BufMgr.unPinPage pinned.filePtr pinned.curPageNo false) >>= _)
                w₁ = _ at run
              rw [DbM.bind_ok unpinned] at run
              subst run
              exact .inr ⟨_, _, rfl, rfl, .inr ⟨flag₂.trans flag, same.trans same₂,
                held₂ _ rfl rfl⟩⟩
            · rw [first] at run
              have scanned :
                  ScanEnds w scan rest others fileName lf (HeapFileScan.Linked scan lf) _ _ :=
                (pinnedHeld.scan_loop (HeapFileScan.scanFuel w scan.filePtr) rfl (.ok rid)).resume
                  flag same ⟨rfl, rfl, rfl, rfl⟩ (fun sound => (linked.mp sound empty).2)
              rw [← run]
              exact scanned.passes

end World

end PrimitiveDB

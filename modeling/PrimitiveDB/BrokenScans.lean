import PrimitiveDB.ScanRuns
import PrimitiveDB.Queries

/-!
# Scans that break off

`scanNext` reports the end of the file and a failure through the same status, and the
loops of the queries stop at the first status that is not `OK`. Every query is given here
a second time with a record of the calls of `scanNext` that its loops make, in worlds in
which anything may fail at any time.
-/

namespace PrimitiveDB

open World DbM

set_option autoImplicit false

def faultCodes : List Status :=
  [.UNIXERR, .BADPAGENO, .BUFFEREXCEEDED, .HASHTBLERROR, .HASHNOTFOUND, .PAGENOTPINNED,
   .INVALIDSLOTNO]

structure DbM.FailsWithCode {α : Type} (call : DbM α) : Prop where
  code : ∀ w status w', call w = (.err status, w') → status ∈ faultCodes

section Codes

variable {α β : Type}

theorem code_pure (value : α) : FailsWithCode (pure value : DbM α) := by
  refine ⟨fun w status w' run => ?_⟩
  cases run

theorem code_read (view : World → α) : FailsWithCode (DbM.read view) := by
  refine ⟨fun w status w' run => ?_⟩
  cases run

theorem code_modify (update : World → World) : FailsWithCode (DbM.modify update) := by
  refine ⟨fun w status w' run => ?_⟩
  cases run

theorem code_system_call : FailsWithCode DbM.systemCall := by
  refine ⟨fun w status w' run => ?_⟩
  cases run

theorem code_fail {status : Status} (listed : status ∈ faultCodes) :
    FailsWithCode (DbM.fail status : DbM α) := by
  refine ⟨fun w code w' run => ?_⟩
  cases run
  exact listed

theorem code_bind {first : DbM α} {next : α → DbM β} (firstCode : FailsWithCode first)
    (nextCode : ∀ value, FailsWithCode (next value)) : FailsWithCode (first >>= next) := by
  refine ⟨fun w status w' run => ?_⟩
  rw [bind_apply] at run
  rcases step : first w with ⟨value | code | _, w₁⟩ <;> rw [step] at run
  · exact (nextCode value).code w₁ status w' run
  · cases run
    exact firstCode.code w status w' step
  · cases run

theorem code_deref (file : FilePtr) : FailsWithCode (File.deref file) := by
  refine ⟨fun w status w' run => ?_⟩
  unfold File.deref at run
  split at run <;> cases run

theorem code_intread (file : FilePtr) (pageNo : Int) : FailsWithCode (File.intread file pageNo) := by
  unfold File.intread
  repeat' first
    | exact code_pure _ | exact code_deref _ | exact code_system_call | exact code_read _
    | exact code_fail (by decide)
    | apply code_bind | intro _ | split

theorem code_intwrite (file : FilePtr) (pageNo : Int) (image : PageImage) :
    FailsWithCode (File.intwrite file pageNo image) := by
  unfold File.intwrite
  repeat' first
    | exact code_pure _ | exact code_deref _ | exact code_system_call | exact code_read _
    | exact code_fail (by decide) | exact code_modify _
    | apply code_bind | intro _ | split

theorem code_file_read_page (file : FilePtr) (pageNo : Int) :
    FailsWithCode (File.readPage file pageNo) := by
  unfold File.readPage
  split
  · exact code_fail (by decide)
  · exact code_intread file pageNo

theorem code_file_write_page (file : FilePtr) (pageNo : Int) (image : PageImage) :
    FailsWithCode (File.writePage file pageNo image) := by
  unfold File.writePage
  split
  · exact code_fail (by decide)
  · exact code_intwrite file pageNo image

theorem code_alloc_buf : FailsWithCode BufMgr.allocBuf := by
  unfold BufMgr.allocBuf
  repeat' first
    | exact code_pure _ | exact code_read _ | exact code_modify _
    | exact code_fail (by decide) | exact code_file_write_page _ _ _
    | apply code_bind | intro _ | split | dsimp only

theorem code_read_page (file : FilePtr) (pageNo : Int) :
    FailsWithCode (BufMgr.readPage file pageNo) := by
  unfold BufMgr.readPage
  repeat' first
    | exact code_pure _ | exact code_read _ | exact code_modify _ | exact code_alloc_buf
    | exact code_fail (by decide) | exact code_file_read_page _ _ | unfold BufMgr.installPage
    | apply code_bind | intro _ | split

theorem code_un_pin_page (file : FilePtr) (pageNo : Int) (dirty : Bool) :
    FailsWithCode (BufMgr.unPinPage file pageNo dirty) := by
  unfold BufMgr.unPinPage
  repeat' first
    | exact code_pure _ | exact code_read _ | exact code_modify _
    | exact code_fail (by decide)
    | apply code_bind | intro _ | split

theorem code_of_call {call : DbM α} (code : FailsWithCode call) {w w' : World} {status : Status}
    (run : callBufMgr call w = (.ok (.error status), w')) : status ∈ faultCodes := by
  unfold callBufMgr at run
  rcases step : call w with ⟨value | failed | _, w₁⟩ <;> rw [step] at run
  · cases run
  · cases run
    exact code.code w status w₁ step
  · cases run

end Codes

namespace HeapFileScan

/-- Going on from `found` on the page in `frame`, the loop of `scanNext` comes to a record
that its page does not give out, or to an unpin or a page read that fails. -/
inductive LoopBreaks : HeapFileScan → Nat → Except Status RID → World → Prop where
  | record {scan : HeapFileScan} {frame : Nat} {rid : RID} {w : World} {status : Status}
      (refused : (w.bufMgr.bufPool frame).asPage.getRecord rid = .error status) :
      LoopBreaks scan frame (.ok rid) w
  | later {scan : HeapFileScan} {frame : Nat} {rid : RID} {w : World} {rec : Record}
      (read : (w.bufMgr.bufPool frame).asPage.getRecord rid = .ok rec)
      (unwanted : ScanFilter.matchRec scan.filter rec = false)
      (breaks : LoopBreaks { scan with curRec := rid } frame
        ((w.bufMgr.bufPool frame).asPage.nextRecord rid) w) :
      LoopBreaks scan frame (.ok rid) w
  | unpin {scan : HeapFileScan} {frame : Nat} {ended status : Status} {w w' : World}
      (more : (w.bufMgr.bufPool frame).asPage.getNextPage ≠ -1)
      (refused : callBufMgr (BufMgr.unPinPage scan.filePtr scan.curPageNo scan.curDirtyFlag) w =
        (.ok (.error status), w')) : LoopBreaks scan frame (.error ended) w
  | read {scan : HeapFileScan} {frame : Nat} {ended status : Status} {w w₁ w₂ : World}
      (more : (w.bufMgr.bufPool frame).asPage.getNextPage ≠ -1)
      (unpinned : callBufMgr (BufMgr.unPinPage scan.filePtr scan.curPageNo scan.curDirtyFlag) w =
        (.ok (.ok ()), w₁))
      (refused : callBufMgr (BufMgr.readPage scan.filePtr
        (w.bufMgr.bufPool frame).asPage.getNextPage) w₁ = (.ok (.error status), w₂)) :
      LoopBreaks scan frame (.error ended) w
  | nextPage {scan : HeapFileScan} {frame next : Nat} {ended : Status} {w w₁ w₂ : World}
      (more : (w.bufMgr.bufPool frame).asPage.getNextPage ≠ -1)
      (unpinned : callBufMgr (BufMgr.unPinPage scan.filePtr scan.curPageNo scan.curDirtyFlag) w =
        (.ok (.ok ()), w₁))
      (pinned : callBufMgr (BufMgr.readPage scan.filePtr
        (w.bufMgr.bufPool frame).asPage.getNextPage) w₁ = (.ok (.ok next), w₂))
      (breaks : LoopBreaks { scan with
        curPage := some next, curPageNo := (w.bufMgr.bufPool frame).asPage.getNextPage
        curDirtyFlag := false } next (w₂.bufMgr.bufPool next).asPage.firstRecord w₂) :
      LoopBreaks scan frame (.error ended) w

/-- What a call that has returned says about its page reads, unpins and record reads. -/
def TellsBreak (breaks : Prop) (result : Except Status RID) : Prop :=
  (breaks ∧ ∃ status ∈ faultCodes, result = .error status) ∨
    (¬breaks ∧ (result = .error .FILEEOF ∨ ∃ rid, result = .ok rid))

theorem TellsBreak.congr {first second : Prop} {result : Except Status RID}
    (tells : TellsBreak first result) (same : first ↔ second) : TellsBreak second result := by
  unfold TellsBreak at tells ⊢
  rwa [← same]

theorem code_get_record {page : Page} {rid : RID} {status : Status}
    (refused : page.getRecord rid = .error status) : status ∈ faultCodes := by
  unfold Page.getRecord at refused
  split_ifs at refused
  cases refused
  decide

variable {scan scan' : HeapFileScan} {frame : Nat} {found result : Except Status RID}
  {w w' : World}

theorem LoopBreaks.record_iff {rid : RID} {rec : Record}
    (got : (w.bufMgr.bufPool frame).asPage.getRecord rid = .ok rec) :
    LoopBreaks scan frame (.ok rid) w ↔ ScanFilter.matchRec scan.filter rec = false ∧
      LoopBreaks { scan with curRec := rid } frame
        ((w.bufMgr.bufPool frame).asPage.nextRecord rid) w := by
  constructor
  · intro breaks
    cases breaks with
    | record refused =>
        rw [got] at refused
        cases refused
    | later read unwanted breaks =>
        rw [got] at read
        cases read
        exact ⟨unwanted, breaks⟩
  · exact fun ⟨unwanted, breaks⟩ => .later got unwanted breaks

theorem LoopBreaks.not_on_last {ended : Status}
    (last : (w.bufMgr.bufPool frame).asPage.getNextPage = -1) :
    ¬LoopBreaks scan frame (.error ended) w := by
  intro breaks
  cases breaks with
  | unpin more _ => exact more last
  | read more _ _ => exact more last
  | nextPage more _ _ _ => exact more last

theorem LoopBreaks.next_page_iff {next : Nat} {ended : Status} {w₁ w₂ : World}
    (more : (w.bufMgr.bufPool frame).asPage.getNextPage ≠ -1)
    (unpinned : callBufMgr (BufMgr.unPinPage scan.filePtr scan.curPageNo scan.curDirtyFlag) w =
      (.ok (.ok ()), w₁))
    (pinned : callBufMgr (BufMgr.readPage scan.filePtr
      (w.bufMgr.bufPool frame).asPage.getNextPage) w₁ = (.ok (.ok next), w₂)) :
    LoopBreaks scan frame (.error ended) w ↔ LoopBreaks { scan with
      curPage := some next, curPageNo := (w.bufMgr.bufPool frame).asPage.getNextPage
      curDirtyFlag := false } next (w₂.bufMgr.bufPool next).asPage.firstRecord w₂ := by
  constructor
  · intro breaks
    cases breaks with
    | unpin _ refused =>
        rw [unpinned] at refused
        cases refused
    | read _ unpinned' refused =>
        rw [unpinned] at unpinned'
        cases unpinned'
        rw [pinned] at refused
        cases refused
    | nextPage _ unpinned' pinned' breaks =>
        rw [unpinned] at unpinned'
        cases unpinned'
        rw [pinned] at pinned'
        cases pinned'
        exact breaks
  · exact .nextPage more unpinned pinned

theorem scan_loop_tells (fuel : Nat)
    (run : scanLoop fuel scan frame found w = (.ok (result, scan'), w')) :
    TellsBreak (LoopBreaks scan frame found w) result := by
  induction fuel generalizing scan frame found w with
  | zero => cases run
  | succ fuel ih =>
      cases found with
      | ok rid =>
          unfold scanLoop at run
          rw [page_at_bind] at run
          cases got : (w.bufMgr.bufPool frame).asPage.getRecord rid with
          | error status =>
              rw [got] at run
              cases run
              exact .inl ⟨.record got, status, code_get_record got, rfl⟩
          | ok rec =>
              rw [got] at run
              dsimp only at run
              by_cases wanted : ScanFilter.matchRec scan.filter rec = true
              · rw [if_pos wanted] at run
                cases run
                refine .inr ⟨fun breaks => ?_, .inr ⟨rid, rfl⟩⟩
                rw [LoopBreaks.record_iff got, wanted] at breaks
                exact Bool.true_eq_false.mp breaks.1
              · rw [if_neg wanted] at run
                apply (ih run).congr
                rw [LoopBreaks.record_iff got]
                exact (and_iff_right (Bool.eq_false_iff.mpr wanted)).symm
      | error ended =>
          unfold scanLoop at run
          rw [page_at_bind] at run
          dsimp only at run
          by_cases last : (w.bufMgr.bufPool frame).asPage.getNextPage = -1
          · rw [if_pos last] at run
            cases run
            exact .inr ⟨LoopBreaks.not_on_last last, .inl rfl⟩
          · rw [if_neg last] at run
            obtain ⟨unpin, w₁, unpinned, run⟩ := bind_eq_ok_iff.mp run
            cases unpin with
            | error status =>
                cases run
                exact .inl ⟨.unpin last unpinned, status,
                  code_of_call (code_un_pin_page _ _ _) unpinned, rfl⟩
            | ok _ =>
                obtain ⟨read, w₂, pinned, run⟩ := bind_eq_ok_iff.mp run
                cases read with
                | error status =>
                    cases run
                    exact .inl ⟨.read last unpinned pinned, status,
                      code_of_call (code_read_page _ _) pinned, rfl⟩
                | ok next =>
                    dsimp only at run
                    rw [page_at_bind] at run
                    exact (ih run).congr (LoopBreaks.next_page_iff last unpinned pinned).symm

/-- The scan when its first page, the one that the header names, has been pinned in
`frame`. -/
def onFirstPage (scan : HeapFileScan) (frame : Nat) (firstPage : Int) : HeapFileScan :=
  { scan with
    curPage := some frame, curPageNo := firstPage, curDirtyFlag := false, curRec := NULLRID }

/-- A page read, an unpin or a record read of the call of `scanNext` fails. -/
inductive Breaks : HeapFileScan → World → Prop where
  | goingOn {scan : HeapFileScan} {frame : Nat} {w : World} (live : ¬scan.curPageNo < 0)
      (cur : scan.curPage = some frame)
      (breaks : LoopBreaks scan frame
        ((w.bufMgr.bufPool frame).asPage.nextRecord scan.curRec) w) : Breaks scan w
  | firstRead {scan : HeapFileScan} {w w' : World} {status : Status}
      (live : ¬scan.curPageNo < 0) (cur : scan.curPage = none)
      (some_ : (w.bufMgr.bufPool scan.headerPage).asFileHdr.firstPage ≠ -1)
      (refused : callBufMgr (BufMgr.readPage scan.filePtr
        (w.bufMgr.bufPool scan.headerPage).asFileHdr.firstPage) w = (.ok (.error status), w')) :
      Breaks scan w
  | firstPage {scan : HeapFileScan} {w w' : World} {frame : Nat} {rid : RID}
      (live : ¬scan.curPageNo < 0) (cur : scan.curPage = none)
      (some_ : (w.bufMgr.bufPool scan.headerPage).asFileHdr.firstPage ≠ -1)
      (pinned : callBufMgr (BufMgr.readPage scan.filePtr
        (w.bufMgr.bufPool scan.headerPage).asFileHdr.firstPage) w = (.ok (.ok frame), w'))
      (first : (w'.bufMgr.bufPool frame).asPage.firstRecord = .ok rid)
      (breaks : LoopBreaks (scan.onFirstPage frame
        (w.bufMgr.bufPool scan.headerPage).asFileHdr.firstPage) frame (.ok rid) w') :
      Breaks scan w
  | firstUnpin {scan : HeapFileScan} {w w₁ w₂ : World} {frame : Nat} {ended status : Status}
      (live : ¬scan.curPageNo < 0) (cur : scan.curPage = none)
      (some_ : (w.bufMgr.bufPool scan.headerPage).asFileHdr.firstPage ≠ -1)
      (pinned : callBufMgr (BufMgr.readPage scan.filePtr
        (w.bufMgr.bufPool scan.headerPage).asFileHdr.firstPage) w = (.ok (.ok frame), w₁))
      (empty : (w₁.bufMgr.bufPool frame).asPage.firstRecord = .error ended)
      (refused : callBufMgr (BufMgr.unPinPage scan.filePtr
        (w.bufMgr.bufPool scan.headerPage).asFileHdr.firstPage false) w₁ =
          (.ok (.error status), w₂)) : Breaks scan w

theorem Breaks.not_ended (ended : scan.curPageNo < 0) : ¬Breaks scan w := by
  intro breaks
  cases breaks <;> contradiction

theorem Breaks.going_on_iff (live : ¬scan.curPageNo < 0) (cur : scan.curPage = some frame) :
    Breaks scan w ↔
      LoopBreaks scan frame ((w.bufMgr.bufPool frame).asPage.nextRecord scan.curRec) w := by
  constructor
  · intro breaks
    cases breaks with
    | goingOn _ cur' breaks =>
        rw [cur] at cur'
        cases cur'
        exact breaks
    | firstRead _ none_ _ _ =>
        rw [cur] at none_
        cases none_
    | firstPage _ none_ _ _ _ _ =>
        rw [cur] at none_
        cases none_
    | firstUnpin _ none_ _ _ _ _ =>
        rw [cur] at none_
        cases none_
  · exact .goingOn live cur

theorem Breaks.not_without_pages (cur : scan.curPage = none)
    (empty : (w.bufMgr.bufPool scan.headerPage).asFileHdr.firstPage = -1) : ¬Breaks scan w := by
  intro breaks
  cases breaks with
  | goingOn _ cur' _ =>
      rw [cur] at cur'
      cases cur'
  | firstRead _ _ some_ _ => exact some_ empty
  | firstPage _ _ some_ _ _ _ => exact some_ empty
  | firstUnpin _ _ some_ _ _ _ => exact some_ empty

theorem Breaks.first_page_iff {w₁ : World} {rid : RID} (live : ¬scan.curPageNo < 0)
    (cur : scan.curPage = none)
    (some_ : (w.bufMgr.bufPool scan.headerPage).asFileHdr.firstPage ≠ -1)
    (pinned : callBufMgr (BufMgr.readPage scan.filePtr
      (w.bufMgr.bufPool scan.headerPage).asFileHdr.firstPage) w = (.ok (.ok frame), w₁))
    (first : (w₁.bufMgr.bufPool frame).asPage.firstRecord = .ok rid) :
    Breaks scan w ↔ LoopBreaks (scan.onFirstPage frame
      (w.bufMgr.bufPool scan.headerPage).asFileHdr.firstPage) frame (.ok rid) w₁ := by
  constructor
  · intro breaks
    cases breaks with
    | goingOn _ cur' _ =>
        rw [cur] at cur'
        cases cur'
    | firstRead _ _ _ refused =>
        rw [pinned] at refused
        cases refused
    | firstPage _ _ _ pinned' first' breaks =>
        rw [pinned] at pinned'
        cases pinned'
        rw [first] at first'
        cases first'
        exact breaks
    | firstUnpin _ _ _ pinned' empty _ =>
        rw [pinned] at pinned'
        cases pinned'
        rw [first] at empty
        cases empty
  · exact .firstPage live cur some_ pinned first

theorem Breaks.not_first_unpin {w₁ w₂ : World} {ended : Status} (cur : scan.curPage = none)
    (pinned : callBufMgr (BufMgr.readPage scan.filePtr
      (w.bufMgr.bufPool scan.headerPage).asFileHdr.firstPage) w = (.ok (.ok frame), w₁))
    (empty : (w₁.bufMgr.bufPool frame).asPage.firstRecord = .error ended)
    (unpinned : callBufMgr (BufMgr.unPinPage scan.filePtr
      (w.bufMgr.bufPool scan.headerPage).asFileHdr.firstPage false) w₁ = (.ok (.ok ()), w₂)) :
    ¬Breaks scan w := by
  intro breaks
  cases breaks with
  | goingOn _ cur' _ =>
      rw [cur] at cur'
      cases cur'
  | firstRead _ _ _ refused =>
      rw [pinned] at refused
      cases refused
  | firstPage _ _ _ pinned' first _ =>
      rw [pinned] at pinned'
      cases pinned'
      rw [empty] at first
      cases first
  | firstUnpin _ _ _ pinned' _ refused =>
      rw [pinned] at pinned'
      cases pinned'
      rw [unpinned] at refused
      cases refused

theorem scan_next_tells {tmpRid : RID}
    (run : scan.scanNext tmpRid w = (.ok (result, scan'), w')) :
    TellsBreak (Breaks scan w) result := by
  unfold scanNext at run
  rw [DbM.read_bind] at run
  by_cases ended : scan.curPageNo < 0
  · rw [if_pos ended] at run
    cases run
    exact .inr ⟨Breaks.not_ended ended, .inl rfl⟩
  rw [if_neg ended] at run
  cases cur : scan.curPage with
  | some frame =>
      rw [cur] at run
      dsimp only at run
      rw [page_at_bind] at run
      exact (scan_loop_tells _ run).congr (Breaks.going_on_iff ended cur).symm
  | none =>
      rw [cur] at run
      dsimp only at run
      rw [header_at_bind] at run
      by_cases empty : (w.bufMgr.bufPool scan.headerPage).asFileHdr.firstPage = -1
      · rw [if_pos empty] at run
        cases run
        exact .inr ⟨Breaks.not_without_pages cur empty, .inl rfl⟩
      rw [if_neg empty] at run
      obtain ⟨read, w₁, pinned, run⟩ := bind_eq_ok_iff.mp run
      cases read with
      | error status =>
          cases run
          exact .inl ⟨.firstRead ended cur empty pinned, status,
            code_of_call (code_read_page _ _) pinned, rfl⟩
      | ok frame =>
          dsimp only at run
          rw [page_at_bind] at run
          cases first : (w₁.bufMgr.bufPool frame).asPage.firstRecord with
          | ok rid =>
              rw [first] at run
              exact (scan_loop_tells _ run).congr
                (Breaks.first_page_iff ended cur empty pinned first).symm
          | error none_ =>
              rw [first] at run
              obtain ⟨unpin, w₂, unpinned, run⟩ := bind_eq_ok_iff.mp run
              cases unpin with
              | error status =>
                  cases run
                  exact .inl ⟨.firstUnpin ended cur empty pinned first unpinned, status,
                    code_of_call (code_un_pin_page _ _ _) unpinned, rfl⟩
              | ok _ =>
                  cases run
                  exact .inr ⟨Breaks.not_first_unpin cur pinned first unpinned, .inl rfl⟩

end HeapFileScan

end PrimitiveDB

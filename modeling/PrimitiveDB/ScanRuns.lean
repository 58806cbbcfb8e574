import PrimitiveDB.DatabaseImages

/-!
# Scans from beginning to end

Repeated calls of `scanNext`: what a new scan returns, and what a scan returns
that has been ended and is used again. The second one goes through the special case
of `scanNext` for the first page of the file, which gives up if that page has no
records.
-/

namespace PrimitiveDB

open World DbM

set_option autoImplicit false

namespace HeapFileScan

/-- Calls of `scanNext`, one for each value that its uninitialised local may have. -/
def scanAll : List RID → HeapFileScan → DbM (List (Except Status RID) × HeapFileScan)
  | [], scan => pure ([], scan)
  | tmpRid :: tmpRids, scan => do
      let (result, scan) ← scan.scanNext tmpRid
      let (results, scan) ← scanAll tmpRids scan
      pure (result :: results, scan)

def scanFresh (mem : Uninit) (fileName : FileName) (offset length : Int) (type : Datatype)
    (filter : Option (List ByteMemory.Byte)) (op : Operator) (tmpRids : List RID) :
    DbM (Except Status (List (Except Status RID))) := do
  match ← HeapFileScan.new mem fileName with
  | .error status => pure (.error status)
  | .ok scan =>
      let (status, scan) := scan.startScan offset length type filter op
      if status ≠ .OK then pure (.error status)
      else do
        let (results, _) ← scanAll tmpRids scan
        pure (.ok results)

def scanAgain (scan : HeapFileScan) (tmpRids : List RID) : DbM (List (Except Status RID)) := do
  let (_, scan) ← scan.endScan
  let (results, _) ← scanAll tmpRids scan
  pure results

theorem scan_all_keeps (tmpRids : List RID) (scan : HeapFileScan) :
    KeepsFlag (scanAll tmpRids scan) := by
  induction tmpRids generalizing scan with
  | nil => exact keeps_pure _
  | cons tmpRid tmpRids ih =>
      unfold scanAll
      apply keeps_bind (scan_next_keeps tmpRid scan)
      intro ends
      exact keeps_bind (ih ends.2) fun _ => keeps_pure _

end HeapFileScan

namespace LogicalFile

variable {file : LogicalFile} {filter : Option ScanFilter} {chain : List Int} {rid : RID}

def matching (file : LogicalFile) (filter : Option ScanFilter) (rids : List RID) : List RID :=
  rids.filter (file.wanted filter)

theorem matching_sought (rids : List RID) :
    file.matching filter (file.sought filter rids) = file.matching filter rids := by
  induction rids with
  | nil => rfl
  | cons rid rids ih =>
      cases accepts : file.wanted filter rid with
      | true => rw [sought_cons_wanted accepts]
      | false =>
          rw [sought_cons_other accepts, ih]
          simp [matching, accepts]

theorem sought_head_wanted {todo later : List RID}
    (sought : file.sought filter todo = rid :: later) : file.wanted filter rid = true := by
  induction todo with
  | nil => cases sought
  | cons other todo ih =>
      cases accepts : file.wanted filter other with
      | true =>
          rw [sought_cons_wanted accepts] at sought
          cases sought
          exact accepts
      | false =>
          rw [sought_cons_other accepts] at sought
          exact ih sought

theorem matching_nil {todo : List RID} (sought : file.sought filter todo = []) :
    file.matching filter todo = [] := by
  rw [← matching_sought, sought]
  rfl

theorem matching_cons {todo later : List RID} (sought : file.sought filter todo = rid :: later) :
    file.matching filter todo = rid :: file.matching filter later := by
  rw [← matching_sought, sought, matching, List.filter_cons_of_pos (sought_head_wanted sought)]
  rfl

def Precedes (chain : List Int) (first second : RID) : Prop :=
  chain.idxOf first.pageNo < chain.idxOf second.pageNo ∨
    (first.pageNo = second.pageNo ∧ first.slotNo < second.slotNo)

theorem rids_ordered (distinct : chain.Nodup) : (file.rids chain).Pairwise (Precedes chain) := by
  apply List.pairwise_flatMap.mpr
  constructor
  · intro pageNo _
    apply List.pairwise_map.mpr
    apply (Page.live_from_sorted 0).imp
    intro left right below
    exact .inr ⟨rfl, by simpa using below⟩
  · apply List.pairwise_iff_getElem.mpr
    intro i j inI inJ below left inLeft right inRight
    left
    rw [(mem_rids_from.mp inLeft).1, (mem_rids_from.mp inRight).1,
      distinct.idxOf_getElem i inI, distinct.idxOf_getElem j inJ]
    exact below

theorem mem_matching : rid ∈ file.matching filter (file.rids chain) ↔
    ∃ rec, file.contents chain rid = some rec ∧ ScanFilter.matchRec filter rec = true := by
  rw [matching, List.mem_filter, mem_rids, Option.isSome_iff_exists]
  constructor
  · rintro ⟨⟨rec, live⟩, accepts⟩
    refine ⟨rec, live, ?_⟩
    have member := (contents_number (Option.isSome_of_eq_some live)).1
    rw [record_of_contents member] at live
    rwa [wanted_of_record live] at accepts
  · rintro ⟨rec, live, accepts⟩
    refine ⟨⟨rec, live⟩, ?_⟩
    have member := (contents_number (Option.isSome_of_eq_some live)).1
    rw [record_of_contents member] at live
    rwa [wanted_of_record live]

/-- The RIDs in front of a scan that starts with the special case of `scanNext`. -/
def restarted (file : LogicalFile) (chain : List Int) : List RID :=
  match chain with
  | [] => []
  | first :: _ => if file.ridsFrom first 0 = [] then [] else file.rids chain

theorem HeapFormed.chain_cons {headerNo : Int} (formed : file.HeapFormed headerNo chain) :
    ∃ pages, chain = (file.header headerNo).firstPage :: pages := by
  have head := formed.first
  cases chain with
  | nil => cases head
  | cons first pages =>
      rw [List.head?_cons, Option.some.injEq] at head
      exact ⟨pages, by rw [head]⟩

end LogicalFile

/-- What `count` calls of `scanNext` return with `rids` in front of the scan. -/
def scanOutcomes (rids : List RID) (count : Nat) : List (Except Status RID) :=
  (rids.map Except.ok ++ List.replicate count (Except.error Status.FILEEOF)).take count

theorem scan_outcomes_nil (count : Nat) :
    scanOutcomes [] (count + 1) = .error .FILEEOF :: scanOutcomes [] count := by
  simp [scanOutcomes, List.replicate_succ]

theorem scan_outcomes_cons (rid : RID) (rids : List RID) (count : Nat) :
    scanOutcomes (rid :: rids) (count + 1) = .ok rid :: scanOutcomes rids count := by
  simp only [scanOutcomes, List.map_cons, List.cons_append, List.take_succ_cons,
    List.cons.injEq, true_and]
  rw [List.replicate_succ', ← List.append_assoc, List.take_append_of_le_length]
  simp

namespace World

variable {w w' : World} {rest : List Pin} {others : List FilePtr} {fileName : FileName}
  {lf : LogicalFile} {chain : List Int} {todo : List RID} {scan : HeapFileScan}

/-- A scan of which the next calls of `scanNext` return the matches in `todo`. -/
inductive ScanReady (w : World) (scan : HeapFileScan) (rest : List Pin) (others : List FilePtr)
    (fileName : FileName) (lf : LogicalFile) (chain : List Int) : List RID → Prop where
  | standing {todo : List RID} (scanAt : w.ScanAt scan rest others fileName lf chain todo) :
      ScanReady w scan rest others fileName lf chain todo
  | ended (holding : w.Holding scan.toHeapFile rest others fileName lf)
      (formed : lf.HeapFormed scan.headerPageNo chain) (cur : scan.curPage = none)
      (begins : 0 ≤ scan.curPageNo) :
      ScanReady w scan rest others fileName lf chain (lf.restarted chain)
  | exhausted (holding : w.Holding scan.toHeapFile rest others fileName lf)
      (formed : lf.HeapFormed scan.headerPageNo chain) (cur : scan.curPage = none)
      (negative : scan.curPageNo < 0) :
      ScanReady w scan rest others fileName lf chain []

/-- What one call of `scanNext` does to such a scan. -/
def StepsOn (w : World) (scan : HeapFileScan) (rest : List Pin) (others : List FilePtr)
    (fileName : FileName) (lf : LogicalFile) (chain : List Int) (todo : List RID)
    (ends : Except Status RID × HeapFileScan) (w' : World) : Prop :=
  SameLogical w w' ∧ ends.2.filter = scan.filter ∧
    match lf.sought scan.filter todo with
    | [] => ends.1 = .error .FILEEOF ∧
        ScanReady w' ends.2 rest others fileName lf chain []
    | rid :: later => ends.1 = .ok rid ∧
        ScanReady w' ends.2 rest others fileName lf chain later

theorem ScanEnds.steps_on {linked : Prop} {computed : Option (Except Status RID × Int × RID)}
    {call : DbM (Except Status RID × HeapFileScan)}
    (ends : ScanEnds w scan rest others fileName lf linked computed (call w))
    (formed : lf.HeapFormed scan.headerPageNo chain)
    (advances : lf.Advances scan.filter chain todo computed) :
    Smoothly call w (w.StepsOn scan rest others fileName lf chain todo) := by
  apply (ends.advances formed advances).mono
  rintro result w₁ ⟨same, _, _, filter, outcome⟩
  refine ⟨same, filter, ?_⟩
  cases sought : lf.sought scan.filter todo with
  | nil =>
      rw [sought] at outcome
      exact ⟨outcome.1, .standing outcome.2⟩
  | cons rid later =>
      rw [sought] at outcome
      exact ⟨outcome.1, .standing outcome.2.2.2⟩

theorem Holding.scan_next_first (holding : w.Holding scan.toHeapFile rest others fileName lf)
    (formed : lf.HeapFormed scan.headerPageNo chain) (cur : scan.curPage = none)
    (begins : 0 ≤ scan.curPageNo) (tmpRid : RID) :
    Smoothly (scan.scanNext tmpRid) w
      (w.StepsOn scan rest others fileName lf chain (lf.restarted chain)) := by
  obtain ⟨pages, split⟩ := formed.chain_cons
  set firstNo := (lf.header scan.headerPageNo).firstPage with firstDef
  have member : firstNo ∈ chain := by
    rw [split]
    exact List.mem_cons_self
  have inside := formed.inside firstNo (List.mem_cons_of_mem _ member)
  have exists_ : firstNo ≠ -1 := by
    have nonneg := inside.1
    omega
  have fuel : HeapFileScan.scanFuel w scan.filePtr = lf.size * 40000 := holding.scan_fuel
  have first := (formed.pages firstNo member).1.first_record
  unfold HeapFileScan.scanNext
  apply smoothly_bind_eq (rfl : DbM.read _ w = _)
  rw [if_neg (by omega), fuel]
  simp only [cur]
  have header : headerAt scan.headerPage w = (.ok (lf.header scan.headerPageNo), w) := by
    rw [← holding.header_data]
    rfl
  apply smoothly_bind_eq header
  rw [if_neg exists_]
  obtain ⟨result, w₁, read, outcome⟩ := holding.read cur firstNo
  apply smoothly_bind_eq read
  rcases outcome with ⟨status, rfl, failed, _⟩ | ⟨frame, rfl, _, same, flag, page, held⟩
  · exact smoothly_of_failed failed
  · let pinned : HeapFileScan := { scan with
      curPage := some frame, curPageNo := firstNo, curDirtyFlag := false, curRec := NULLRID }
    have pinnedHeld : w₁.Holding pinned.toHeapFile rest others fileName lf := held _ rfl rfl rfl
    have pageRead : pageAt frame w₁ = (.ok (lf.data firstNo), w₁) := by
      rw [← pinnedHeld.cur_data rfl]
      rfl
    dsimp only
    apply smoothly_bind_eq pageRead
    cases listed : lf.ridsFrom firstNo 0 with
    | nil =>
        -- the scan gives up, whatever the later pages hold
        have none_ : lf.restarted chain = [] := by
          rw [split, LogicalFile.restarted, if_pos listed]
        rw [first, LogicalFile.found_from_nil listed, none_]
        dsimp only
        obtain ⟨w₂, unpinned, same₂, _, held₂⟩ := pinnedHeld.unpin rfl false id
        apply smoothly_bind_eq unpinned
        have finished := held₂ { pinned.toHeapFile with
          curPage := none, curPageNo := -1, curRec := tmpRid } rfl rfl
        have negative : (-1 : Int) < 0 := by decide
        exact smoothly_pure ⟨same.trans same₂, rfl, rfl, .exhausted finished formed rfl negative⟩
    | cons rid later =>
        have whole : lf.restarted chain = lf.remaining (firstNo :: pages) 0 := by
          rw [split, LogicalFile.restarted, if_neg (by simp [listed])]
          simp only [LogicalFile.rids, LogicalFile.remaining, List.flatMap_cons]
        have found := (LogicalFile.found_from_cons .NORECORDS (formed.pages firstNo member).2
          listed).1
        have suffix : firstNo :: pages <:+ chain := by
          rw [split]
        have advances : lf.Advances scan.filter chain (lf.restarted chain)
            (lf.scanLoop scan.filter (lf.size * 40000) firstNo NULLRID (.ok rid)) := by
          rw [whole, ← found]
          exact formed.scan_loop _ suffix (by decide) (formed.remaining_lt suffix 0)
        rw [first, found]
        dsimp only
        have ends := pinnedHeld.scan_loop (lf.size * 40000) rfl (.ok rid)
        apply (ends.steps_on formed advances).mono
        rintro result w₂ ⟨same₂, filter, outcome⟩
        exact ⟨same.trans same₂, filter, outcome⟩

theorem ScanReady.scan_next (ready : w.ScanReady scan rest others fileName lf chain todo)
    (tmpRid : RID) :
    Smoothly (scan.scanNext tmpRid) w (w.StepsOn scan rest others fileName lf chain todo) := by
  cases ready with
  | standing scanAt =>
      exact (scanAt.holding.scan_next_here scanAt.pinned tmpRid).steps_on scanAt.formed
        (scanAt.formed.scan_next scanAt.stands)
  | ended holding formed cur begins => exact holding.scan_next_first formed cur begins tmpRid
  | exhausted holding formed cur negative =>
      unfold HeapFileScan.scanNext
      apply smoothly_bind_eq (rfl : DbM.read _ w = _)
      rw [if_pos negative]
      exact smoothly_pure ⟨.refl w, rfl, rfl, .exhausted holding formed cur negative⟩

theorem ScanReady.scan_all (ready : w.ScanReady scan rest others fileName lf chain todo)
    (tmpRids : List RID) :
    Smoothly (HeapFileScan.scanAll tmpRids scan) w fun ends w' => SameLogical w w' ∧
      ends.1 = scanOutcomes (lf.matching scan.filter todo) tmpRids.length := by
  induction tmpRids generalizing w scan todo with
  | nil => exact smoothly_pure ⟨.refl w, by simp [scanOutcomes]⟩
  | cons tmpRid tmpRids ih =>
      unfold HeapFileScan.scanAll
      apply smoothly_bind
      · intro ends
        exact keeps_bind (HeapFileScan.scan_all_keeps tmpRids ends.2) fun _ => keeps_pure _
      · apply (ready.scan_next tmpRid).mono
        rintro ⟨result, scan₁⟩ w₁ ⟨same, filter, outcome⟩
        apply smoothly_bind
        · intro ends
          exact keeps_pure _
        · rw [List.length_cons]
          dsimp only at filter
          cases sought : lf.sought scan.filter todo with
          | nil =>
              rw [sought] at outcome
              obtain ⟨rfl, ready₁⟩ := outcome
              apply (ih ready₁).mono
              rintro ends w₂ ⟨same₂, results⟩
              refine smoothly_pure ⟨same.trans same₂, ?_⟩
              rw [LogicalFile.matching_nil sought, scan_outcomes_nil, results]
              rfl
          | cons rid later =>
              rw [sought] at outcome
              obtain ⟨rfl, ready₁⟩ := outcome
              apply (ih ready₁).mono
              rintro ends w₂ ⟨same₂, results⟩
              refine smoothly_pure ⟨same.trans same₂, ?_⟩
              rw [LogicalFile.matching_cons sought, scan_outcomes_cons, results, filter]

theorem Storage.scan_fresh (storage : w.Storage rest others) (stores : w.Stores fileName lf chain)
    (nonempty : fileName ≠ []) (mem : Uninit) {offset length : Int} {type : Datatype}
    {bytes : Option (List ByteMemory.Byte)} {op : Operator} {filter : Option ScanFilter}
    (accepted : ScanFilter.startScan none offset length type bytes op = (.OK, filter))
    (tmpRids : List RID) :
    Smoothly (HeapFileScan.scanFresh mem fileName offset length type bytes op tmpRids) w
      fun results w' => w'.logical = w.logical ∧
        results = .ok (scanOutcomes (lf.matching filter (lf.rids chain)) tmpRids.length) := by
  unfold HeapFileScan.scanFresh
  apply smoothly_bind
  · intro result
    repeat' first
      | exact keeps_pure _ | exact HeapFileScan.scan_all_keeps _ _
      | apply keeps_bind | intro _ | split
  · apply (storage.new_scan stores.logical stores.formed nonempty mem).mono
    rintro result w₁ ⟨scan, rfl, scanAt, _, unfiltered, constructs⟩
    have started : scan.startScan offset length type bytes op =
        (.OK, { scan with filter := filter }) := by
      unfold HeapFileScan.startScan
      rw [unfiltered, accepted]
    dsimp only
    rw [started]
    dsimp only
    rw [if_neg (not_not.mpr rfl)]
    apply smoothly_bind
    · intro ends
      exact keeps_pure _
    · apply (ScanReady.scan_all (.standing (scanAt.start filter)) tmpRids).mono
      rintro ends w₂ ⟨same, results⟩
      exact smoothly_pure ⟨same.logical.trans constructs.logical, congrArg Except.ok results⟩

end World

section Fresh

variable {w : World} {rest : List Pin} {others : List FilePtr} {fileName : FileName}
  {lf : LogicalFile} {chain : List Int} {offset length : Int} {type : Datatype}
  {bytes : Option (List ByteMemory.Byte)} {op : Operator} {filter : Option ScanFilter}

/-- A new scan returns the live records that its filter accepts, each of them once and in the
order of pages and slots, and then the end of the file as often as it is asked. -/
theorem fresh_scan_complete (storage : w.Storage rest others)
    (stores : w.Stores fileName lf chain) (nonempty : fileName ≠ []) (mem : Uninit)
    (accepted : ScanFilter.startScan none offset length type bytes op = (.OK, filter))
    (tmpRids : List RID)
    (succeeds : (HeapFileScan.scanFresh mem fileName offset length type bytes op tmpRids
      w).2.bufFailed = false) :
    ∃ found w', HeapFileScan.scanFresh mem fileName offset length type bytes op tmpRids w =
        (.ok (.ok (scanOutcomes found tmpRids.length)), w') ∧
      w'.logical = w.logical ∧
      (∀ rid, rid ∈ found ↔ ∃ rec, lf.contents chain rid = some rec ∧
        ScanFilter.matchRec filter rec = true) ∧
      found.Nodup ∧ found.Pairwise (LogicalFile.Precedes chain) := by
  obtain ⟨results, w', run, logical, rfl⟩ :=
    storage.scan_fresh stores nonempty mem accepted tmpRids succeeds
  exact ⟨_, w', run, logical, fun rid => LogicalFile.mem_matching,
    (LogicalFile.rids_nodup stores.formed.nodup).filter _,
    (LogicalFile.rids_ordered stores.formed.nodup).filter _⟩

end Fresh

namespace HeapFileScan

def ended (scan : HeapFileScan) : HeapFileScan :=
  if scan.curPage.isSome then { scan with curPage := none, curPageNo := 0, curDirtyFlag := false }
  else scan

/-- The scan goes back to the first page, and finds a record there; or there is nothing that it
could miss. -/
def Restarts (scan : HeapFileScan) (lf : LogicalFile) (chain : List Int) : Prop :=
  (∀ rid rec, lf.contents chain rid = some rec → ScanFilter.matchRec scan.filter rec = false) ∨
    ((scan.curPage.isSome ∨ 0 ≤ scan.curPageNo) ∧
      ∃ rid, rid.pageNo = (lf.header lf.firstPage).firstPage ∧ (lf.contents chain rid).isSome)

end HeapFileScan

namespace World

variable {w : World} {rest : List Pin} {others : List FilePtr} {fileName : FileName}
  {lf : LogicalFile} {chain : List Int} {scan : HeapFileScan}

theorem Holding.ends (holding : w.Holding scan.toHeapFile rest others fileName lf) :
    ∃ w', scan.endScan w = (.ok (.OK, scan.ended), w') ∧
      w'.Holding scan.ended.toHeapFile rest others fileName lf := by
  unfold HeapFileScan.endScan HeapFileScan.ended
  cases cur : scan.curPage with
  | none => exact ⟨w, rfl, holding⟩
  | some frame =>
      obtain ⟨w₁, unpinned, _, _, held⟩ := holding.unpin cur scan.curDirtyFlag id
      simp only [Option.isSome_some, if_true]
      rw [DbM.bind_ok unpinned]
      exact ⟨w₁, rfl, held _ rfl rfl⟩

theorem Holding.ended_ready (holding : w.Holding scan.ended.toHeapFile rest others fileName lf)
    (formed : lf.HeapFormed scan.headerPageNo chain) :
    ScanReady w scan.ended rest others fileName lf chain
      (if scan.curPage.isSome ∨ 0 ≤ scan.curPageNo then lf.restarted chain else []) := by
  cases cur : scan.curPage with
  | none =>
      have same : scan.ended = scan := by simp [HeapFileScan.ended, cur]
      rw [same] at holding ⊢
      by_cases begins : 0 ≤ scan.curPageNo
      · rw [if_pos (.inr begins)]
        exact .ended holding formed cur begins
      · rw [if_neg (by simpa using begins)]
        exact .exhausted holding formed cur (by omega)
  | some frame =>
      have same : scan.ended =
          { scan with curPage := none, curPageNo := 0, curDirtyFlag := false } := by
        simp [HeapFileScan.ended, cur]
      rw [if_pos (.inl rfl)]
      rw [same] at holding ⊢
      exact .ended holding formed rfl (le_refl _)

theorem Holding.scan_again (holding : w.Holding scan.toHeapFile rest others fileName lf)
    (formed : lf.HeapFormed scan.headerPageNo chain) (tmpRids : List RID) :
    Smoothly (scan.scanAgain tmpRids) w fun results _ =>
      results = scanOutcomes (lf.matching scan.filter
        (if scan.curPage.isSome ∨ 0 ≤ scan.curPageNo then lf.restarted chain else []))
        tmpRids.length := by
  obtain ⟨w₁, ended, held⟩ := holding.ends
  have filter : scan.ended.filter = scan.filter := by
    unfold HeapFileScan.ended
    split <;> rfl
  unfold HeapFileScan.scanAgain
  apply smoothly_bind_eq ended
  apply smoothly_bind
  · intro ends
    exact keeps_pure _
  · apply ((held.ended_ready formed).scan_all tmpRids).mono
    rintro ends w₂ ⟨_, results⟩
    rw [filter] at results
    exact smoothly_pure results

end World

theorem scan_outcomes_inj_nil {rids : List RID} {count : Nat}
    (same : scanOutcomes [] (count + 1) = scanOutcomes rids (count + 1)) : rids = [] := by
  cases rids with
  | nil => rfl
  | cons rid rids =>
      rw [scan_outcomes_nil, scan_outcomes_cons] at same
      cases same

theorem LogicalFile.restarted_cases {lf : LogicalFile} {headerNo : Int} {chain : List Int}
    (formed : lf.HeapFormed headerNo chain) :
    (lf.restarted chain = lf.rids chain ∧
        ∃ rid, rid.pageNo = (lf.header headerNo).firstPage ∧ (lf.contents chain rid).isSome) ∨
      (lf.restarted chain = [] ∧
        ¬∃ rid, rid.pageNo = (lf.header headerNo).firstPage ∧ (lf.contents chain rid).isSome) := by
  obtain ⟨pages, split⟩ := formed.chain_cons
  set firstNo := (lf.header headerNo).firstPage
  have member : firstNo ∈ chain := by
    rw [split]
    exact List.mem_cons_self
  cases listed : lf.ridsFrom firstNo 0 with
  | nil =>
      right
      refine ⟨by rw [split, restarted, if_pos listed], ?_⟩
      rintro ⟨rid, onPage, live⟩
      obtain ⟨_, number, named⟩ := contents_number live
      have slot : (0 : Int) ≤ rid.slotNo := by
        rw [named]
        exact Int.natCast_nonneg number
      have found : rid ∈ lf.ridsFrom firstNo 0 := by
        apply mem_rids_from.mpr
        refine ⟨onPage, slot, ?_⟩
        rwa [record_of_contents (onPage ▸ member)] at live
      rw [listed] at found
      cases found
  | cons rid later =>
      left
      refine ⟨by rw [split, restarted, if_neg (by simp [listed])], rid, ?_⟩
      have found : rid ∈ lf.ridsFrom firstNo 0 := by
        rw [listed]
        exact List.mem_cons_self
      obtain ⟨onPage, _, live⟩ := mem_rids_from.mp found
      refine ⟨onPage, ?_⟩
      rwa [record_of_contents (onPage ▸ member)]

theorem LogicalFile.matching_eq_nil_iff {lf : LogicalFile} {filter : Option ScanFilter}
    {chain : List Int} : lf.matching filter (lf.rids chain) = [] ↔
      ∀ rid rec, lf.contents chain rid = some rec → ScanFilter.matchRec filter rec = false := by
  rw [List.eq_nil_iff_forall_not_mem]
  constructor
  · intro none_ rid rec live
    by_contra accepts
    exact none_ rid (mem_matching.mpr ⟨rec, live, by simpa using accepts⟩)
  · intro refused rid member
    obtain ⟨rec, live, accepts⟩ := mem_matching.mp member
    rw [refused rid rec live] at accepts
    cases accepts

section Again

variable {w w₂ : World} {rest rest₂ : List Pin} {others others₂ : List FilePtr}
  {fileName : FileName} {lf : LogicalFile} {chain : List Int} {offset length : Int}
  {type : Datatype} {bytes : Option (List ByteMemory.Byte)} {op : Operator} {scan : HeapFileScan}

/-- A scan on which `endScan` has been called returns what a new scan with its filter returns
exactly if it goes back to the first page and that page has a record, or if no record matches. -/
theorem ended_scan_equals_fresh_iff
    (holding : w.Holding scan.toHeapFile rest others fileName lf)
    (header : scan.headerPageNo = lf.firstPage) (formed : lf.HeapFormed lf.firstPage chain)
    (accepted : ScanFilter.startScan none offset length type bytes op = (.OK, scan.filter))
    (storage : w₂.Storage rest₂ others₂) (logical : w₂.logical fileName = some lf)
    (nonempty : fileName ≠ []) (mem : Uninit) (tmpRids tmpRids₂ : List RID)
    (calls : tmpRids₂.length = tmpRids.length) (some_ : tmpRids ≠ [])
    (succeeds : (scan.scanAgain tmpRids w).2.bufFailed = false)
    (succeeds₂ : (HeapFileScan.scanFresh mem fileName offset length type bytes op tmpRids₂
      w₂).2.bufFailed = false) :
    (∃ results w' w₂', scan.scanAgain tmpRids w = (.ok results, w') ∧
        HeapFileScan.scanFresh mem fileName offset length type bytes op tmpRids₂ w₂ =
          (.ok (.ok results), w₂')) ↔ scan.Restarts lf chain := by
  have formed' : lf.HeapFormed scan.headerPageNo chain := by
    rw [header]
    exact formed
  obtain ⟨again, w', run, results⟩ := holding.scan_again formed' tmpRids succeeds
  obtain ⟨fresh, w₂', run₂, _, results₂⟩ :=
    storage.scan_fresh ⟨logical, formed⟩ nonempty mem accepted tmpRids₂ succeeds₂
  obtain ⟨count, counted⟩ : ∃ count, tmpRids.length = count + 1 :=
    Nat.exists_eq_succ_of_ne_zero fun zero => some_ (List.length_eq_zero_iff.mp zero)
  rw [calls, counted] at results₂
  rw [counted] at results
  have compared : (∃ results w' w₂', scan.scanAgain tmpRids w = (.ok results, w') ∧
      HeapFileScan.scanFresh mem fileName offset length type bytes op tmpRids₂ w₂ =
        (.ok (.ok results), w₂')) ↔ fresh = .ok again := by
    rw [run, run₂]
    constructor
    · rintro ⟨_, _, _, ⟨⟩, same⟩
      cases same
      rfl
    · rintro rfl
      exact ⟨again, w', w₂', rfl, rfl⟩
  rw [compared, results, results₂, Except.ok.injEq]
  unfold HeapFileScan.Restarts
  rw [← LogicalFile.matching_eq_nil_iff, ← header]
  rcases LogicalFile.restarted_cases formed' with ⟨whole, found⟩ | ⟨nothing, missing⟩
  · by_cases begins : scan.curPage.isSome ∨ 0 ≤ scan.curPageNo
    · rw [if_pos begins, whole]
      exact ⟨fun _ => .inr ⟨begins, found⟩, fun _ => rfl⟩
    · rw [if_neg begins]
      constructor
      · intro same
        exact .inl (scan_outcomes_inj_nil same.symm)
      · rintro (none_ | ⟨begins', _⟩)
        · rw [none_]
          rfl
        · exact absurd begins' begins
  · rw [nothing, ite_self]
    constructor
    · intro same
      exact .inl (scan_outcomes_inj_nil same.symm)
    · rintro (none_ | ⟨_, found⟩)
      · rw [none_]
        rfl
      · exact absurd found missing

end Again

open HeapSession (zeroMemory)

/-- The records that differ from 2. -/
theorem fresh_scan_complete_two_of_three :
    ∃ found w', HeapFileScan.scanFresh zeroMemory [114] 0 1 .STRING (some [2]) .NE
        [NULLRID, NULLRID, NULLRID, NULLRID] threeRecords =
      (.ok (.ok (scanOutcomes found 4)), w') ∧ (⟨2, 2⟩ : RID) ∈ found := by
  obtain ⟨found, w', run, _, exact_, _, _⟩ := fresh_scan_complete three_records_storage
    three_records_stored (by decide) zeroMemory (rfl : ScanFilter.startScan none 0 1 .STRING
      (some [2]) .NE = _) [NULLRID, NULLRID, NULLRID, NULLRID] (by decide +kernel)
  exact ⟨found, w', run, (exact_ _).mpr ⟨[3], by decide +kernel, by decide⟩⟩

/-- A scan that stands behind its first record is ended and used again. -/
theorem ended_scan_equals_fresh_iff_three_records :
    ∃ scan w results w' w₂', HeapFileScan.new zeroMemory [114] threeRecords = (.ok (.ok scan), w) ∧
      scan.scanAgain [NULLRID, NULLRID] w = (.ok results, w') ∧
      HeapFileScan.scanFresh zeroMemory [114] 0 0 .STRING none .EQ [NULLRID, NULLRID]
        threeRecords = (.ok (.ok results), w₂') := by
  obtain ⟨_, w, run, scan, rfl, scanAt, header, filter, _⟩ :=
    three_records_storage.new_scan three_records_stored.logical three_records_stored.formed
      (by decide) zeroMemory (by decide +kernel)
  have accepted : ScanFilter.startScan none 0 0 .STRING none .EQ = (.OK, scan.filter) := by
    rw [filter]
    rfl
  have flag : ((HeapFileScan.new zeroMemory [114] >>= fun opened => match opened with
      | .ok scan => scan.scanAgain [NULLRID, NULLRID]
      | .error _ => DbM.crash) threeRecords).2.bufFailed = false := by
    decide +kernel
  rw [DbM.bind_ok run] at flag
  have restarts : scan.Restarts (tableFile [114] [[1], [2], [3]]) [2] :=
    .inr ⟨.inl scanAt.pinned, ⟨2, 0⟩, by decide, by decide +kernel⟩
  obtain ⟨results, w', w₂', again, fresh⟩ := (ended_scan_equals_fresh_iff scanAt.holding header
    three_records_stored.formed accepted three_records_storage three_records_stored.logical
    (by decide) zeroMemory [NULLRID, NULLRID] [NULLRID, NULLRID] rfl (by decide) flag
    (by decide +kernel)).mpr restarts
  exact ⟨scan, w, results, w', w₂', run, again, fresh⟩

/-- Two records on two pages; the first one is deleted. The scan is then ended and used again,
and beside it a new scan is made. -/
def restartSession : DbM (List (Except Status RID) × Except Status (List (Except Status RID))) := do
  match ← InsertFileScan.new zeroMemory [114] with
  | (.OK, some inserter) => do
      let (_, inserter) ← inserter.insertRecord (List.replicate 600 1)
      let (_, inserter) ← inserter.insertRecord (List.replicate 600 2)
      inserter.delete
      match ← HeapFileScan.new zeroMemory [114] with
      | .ok scan => do
          let (_, scan) ← scan.scanNext NULLRID
          let (_, scan) ← scan.deleteRecord
          let again ← scan.scanAgain [NULLRID]
          let fresh ← HeapFileScan.scanFresh zeroMemory [114] 0 0 .STRING none .EQ [NULLRID]
          pure (again, fresh)
      | .error _ => DbM.crash
  | _ => DbM.crash

theorem ended_scan_misses_second_page :
    (restartSession (databaseOf 8 [([114], [])])).1 =
        .ok ([.error .FILEEOF], .ok [.ok ⟨3, 0⟩]) ∧
      (restartSession (databaseOf 8 [([114], [])])).2.bufFailed = false := by
  decide +kernel

end PrimitiveDB

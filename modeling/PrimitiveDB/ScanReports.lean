import PrimitiveDB.BrokenScans

/-!
# What the queries report about their scans

The three queries with a record of the states in which their loops call `scanNext`.
Without the record they are the queries themselves.
-/

namespace PrimitiveDB

open World DbM

set_option autoImplicit false

structure ScanCall where
  scan : HeapFileScan
  world : World

namespace ScanCall

def endedBy (tmpRid : RID) (call : ScanCall) : Option Status :=
  match (call.scan.scanNext tmpRid call.world).1 with
  | .ok (.error status, _) => some status
  | _ => none

def Returns (tmpRid : RID) (call : ScanCall) : Prop :=
  ∃ result scan w, call.scan.scanNext tmpRid call.world = (.ok (result, scan), w)

def Breaks (call : ScanCall) : Prop := HeapFileScan.Breaks call.scan call.world

end ScanCall

section Recorded

variable (mem : Uninit) (tmpRid : RID)

def deleteLoopRecorded : Nat → HeapFileScan → DbM (List ScanCall × Status × HeapFileScan)
  | 0, _ => DbM.crash
  | fuel + 1, scan => do
      let call ← DbM.read (ScanCall.mk scan)
      match ← scan.scanNext tmpRid with
      | (.error _, scan) => pure ([call], .OK, scan)
      | (.ok _, scan) => do
          let (status, scan) ← scan.deleteRecord
          if status ≠ .OK then pure ([call], status, scan)
          else do
            let (calls, status, scan) ← deleteLoopRecorded fuel scan
            pure (call :: calls, status, scan)

def QU_DeleteRecorded (relation attrName : FileName) (op : Operator) (type : Datatype)
    (attrValue : List ByteMemory.Byte) : DbM (List ScanCall × Status) := do
  match ← HeapFileScan.new mem relation with
  | .error _ => DbM.crash
  | .ok scan => do
  let started ← (
    if attrName = [] then pure scan.startAll
    else do
      match ← AttrCatalog.getInfo mem tmpRid relation attrName with
      | .error status => pure (status, scan)
      | .ok attrdesc => pure (scan.startLiteral attrdesc type.code attrValue op)
    : DbM (Status × HeapFileScan))
  let (status, scan) := started
  if status ≠ .OK then do
    scan.delete
    pure ([], status)
  else
  let fuel ← DbM.read (HeapFileScan.scanFuel · scan.filePtr)
  let (calls, status, scan) ← deleteLoopRecorded tmpRid fuel scan
  scan.delete
  pure (calls, status)

def emitLoopRecorded (projNames : List AttrDesc) (source : Record → AttrDesc → Record) :
    Nat → HeapFileScan → InsertFileScan →
      DbM (List ScanCall × HeapFileScan × InsertFileScan)
  | 0, _, _ => DbM.crash
  | fuel + 1, scan, resultRel => do
      let call ← DbM.read (ScanCall.mk scan)
      match ← scan.scanNext tmpRid with
      | (.error _, scan) => pure ([call], scan, resultRel)
      | (.ok _, scan) => do
          let tuple ← currentRecord scan
          let outputRec ← copyAttrs (source tuple) projNames
          let resultRel ← insertOutput resultRel outputRec
          let (calls, scan, resultRel) ← emitLoopRecorded projNames source fuel scan resultRel
          pure (call :: calls, scan, resultRel)

def withResultRecorded (result : FileName)
    (body : InsertFileScan → DbM (List ScanCall × Status)) : DbM (List ScanCall × Status) := do
  let (status, resultRel) ← InsertFileScan.new mem result
  match resultRel with
  | none => DbM.crash
  | some resultRel =>
      if status ≠ .OK then do
        resultRel.delete
        pure ([], status)
      else body resultRel

def ScanSelectRecorded (result : FileName) (projNames : List AttrDesc)
    (attrDesc : Option AttrDesc) (op : Operator) (filter : List ByteMemory.Byte) :
    DbM (List ScanCall × Status) :=
  withResultRecorded mem result fun resultRel => do
  match projNames with
  | [] => DbM.crash
  | first :: _ => do
  match ← HeapFileScan.new mem first.relName with
  | .error _ => DbM.crash
  | .ok scan => do
  let (status, scan) := scan.startSelect attrDesc op filter
  if status ≠ .OK then do
    scan.delete
    resultRel.delete
    pure ([], status)
  else
  let fuel ← DbM.read (HeapFileScan.scanFuel · scan.filePtr)
  let (calls, scan, resultRel) ←
    emitLoopRecorded tmpRid projNames (fun tuple _ => tuple) fuel scan resultRel
  scan.delete
  resultRel.delete
  pure (calls, .OK)

def QU_SelectRecorded (result : FileName) (projNames : List AttrInfo)
    (attr : Option AttrInfo) (op : Operator) (attrValue : List ByteMemory.Byte) :
    DbM (List ScanCall × Status) := do
  match ← lookUpAttrs mem tmpRid projNames with
  | .error status => pure ([], status)
  | .ok attrDescArray => do
  match attr with
  | none => ScanSelectRecorded mem tmpRid result attrDescArray none op attrValue
  | some attr => do
  match ← AttrCatalog.getInfo mem tmpRid attr.relName attr.attrName with
  | .error status => pure ([], status)
  | .ok attrDesc => ScanSelectRecorded mem tmpRid result attrDescArray (some attrDesc) op attrValue

def joinWithRecorded (attrDescArray : List AttrDesc) (attrDesc1 attrDesc2 : AttrDesc)
    (myop : Operator) (outerRec : Record) (resultRel : InsertFileScan) :
    DbM (List ScanCall × Status × InsertFileScan) := do
  match ← HeapFileScan.new mem attrDesc2.relName with
  | .error _ => DbM.crash
  | .ok innerScan => do
  let (status, innerScan) := innerScan.startJoin attrDesc1 attrDesc2 myop outerRec
  if status ≠ .OK then do
    innerScan.delete
    pure ([], status, resultRel)
  else
  let fuel ← DbM.read (HeapFileScan.scanFuel · innerScan.filePtr)
  let (calls, innerScan, resultRel) ←
    emitLoopRecorded tmpRid attrDescArray (joinSide attrDesc1 outerRec) fuel innerScan resultRel
  innerScan.delete
  pure (calls, .OK, resultRel)

def outerLoopRecorded (attrDescArray : List AttrDesc) (attrDesc1 attrDesc2 : AttrDesc)
    (myop : Operator) :
    Nat → HeapFileScan → InsertFileScan →
      DbM (List ScanCall × Status × HeapFileScan × InsertFileScan)
  | 0, _, _ => DbM.crash
  | fuel + 1, outerScan, resultRel => do
      let call ← DbM.read (ScanCall.mk outerScan)
      match ← outerScan.scanNext tmpRid with
      | (.error _, outerScan) => pure ([call], .OK, outerScan, resultRel)
      | (.ok _, outerScan) => do
          let outerRec ← currentRecord outerScan
          let (inner, status, resultRel) ←
            joinWithRecorded mem tmpRid attrDescArray attrDesc1 attrDesc2 myop outerRec resultRel
          if status ≠ .OK then pure (call :: inner, status, outerScan, resultRel)
          else do
            let (calls, ends) ←
              outerLoopRecorded attrDescArray attrDesc1 attrDesc2 myop fuel outerScan resultRel
            pure (call :: (inner ++ calls), ends)

def joinScansRecorded (result : FileName) (attrDescArray : List AttrDesc)
    (attrDesc1 attrDesc2 : AttrDesc) (op : Operator) : DbM (List ScanCall × Status) :=
  withResultRecorded mem result fun resultRel => do
  match ← HeapFileScan.new mem attrDesc1.relName with
  | .error _ => DbM.crash
  | .ok outerScan => do
  let (status, outerScan) := outerScan.startAll
  if status ≠ .OK then do
    outerScan.delete
    resultRel.delete
    pure ([], status)
  else
  let fuel ← DbM.read (joinFuel · outerScan.filePtr attrDesc2.relName)
  let (calls, status, outerScan, resultRel) ←
    outerLoopRecorded mem tmpRid attrDescArray attrDesc1 attrDesc2 (mirrored op) fuel outerScan
      resultRel
  outerScan.delete
  resultRel.delete
  pure (calls, status)

def QU_NL_JoinRecorded (result : FileName) (projNames : List AttrInfo) (attr1 : AttrInfo)
    (op : Operator) (attr2 : AttrInfo) : DbM (List ScanCall × Status) := do
  if attr1.attrType ≠ attr2.attrType ∨ attr1.attrLen ≠ attr2.attrLen then
    pure ([], .ATTRTYPEMISMATCH)
  else
  match ← lookUpAttrs mem tmpRid projNames with
  | .error status => pure ([], status)
  | .ok attrDescArray => do
  match ← AttrCatalog.getInfo mem tmpRid attr1.relName attr1.attrName with
  | .error status => pure ([], status)
  | .ok attrDesc1 => do
  match ← AttrCatalog.getInfo mem tmpRid attr2.relName attr2.attrName with
  | .error status => pure ([], status)
  | .ok attrDesc2 => joinScansRecorded mem tmpRid result attrDescArray attrDesc1 attrDesc2 op

end Recorded

def DbM.unrecorded {α : Type} (call : DbM (List ScanCall × α)) : DbM α :=
  call >>= fun recorded => pure recorded.2

section Unrecorded

variable {α β : Type}

@[simp] theorem unrecorded_pure (calls : List ScanCall) (value : α) :
    DbM.unrecorded (pure (calls, value)) = pure value := rfl

@[simp] theorem unrecorded_crash :
    DbM.unrecorded (DbM.crash : DbM (List ScanCall × α)) = DbM.crash := rfl

@[simp] theorem unrecorded_bind (first : DbM β) (next : β → DbM (List ScanCall × α)) :
    DbM.unrecorded (first >>= next) = first >>= fun value => DbM.unrecorded (next value) :=
  DbM.bind_assoc first next _

theorem unrecorded_bind_recorded {first : DbM (List ScanCall × β)} {plain : DbM β}
    (same : first.unrecorded = plain) {next : List ScanCall × β → DbM (List ScanCall × α)}
    {plainNext : β → DbM α}
    (sameNext : ∀ calls value, (next (calls, value)).unrecorded = plainNext value) :
    (first >>= next).unrecorded = plain >>= plainNext := by
  rw [unrecorded_bind, ← same]
  conv_rhs => unfold DbM.unrecorded
  rw [DbM.bind_assoc]
  apply DbM.bind_congr
  intro recorded
  exact sameNext recorded.1 recorded.2

theorem delete_loop_unrecorded (tmpRid : RID) (fuel : Nat) (scan : HeapFileScan) :
    (deleteLoopRecorded tmpRid fuel scan).unrecorded = deleteLoop tmpRid fuel scan := by
  induction fuel generalizing scan with
  | zero => rfl
  | succ fuel ih =>
      unfold deleteLoopRecorded deleteLoop
      rw [unrecorded_bind]
      funext w
      rw [DbM.read_bind]
      apply congrFun
      rw [unrecorded_bind]
      apply DbM.bind_congr
      rintro ⟨result, scan⟩
      cases result with
      | error _ => rfl
      | ok _ =>
          dsimp only
          rw [unrecorded_bind]
          apply DbM.bind_congr
          rintro ⟨status, scan⟩
          dsimp only
          split
          · rfl
          · rw [unrecorded_bind, ← ih]
            rfl

theorem delete_unrecorded (mem : Uninit) (tmpRid : RID) (relation attrName : FileName)
    (op : Operator) (type : Datatype) (attrValue : List ByteMemory.Byte) :
    (QU_DeleteRecorded mem tmpRid relation attrName op type attrValue).unrecorded =
      QU_Delete mem tmpRid relation attrName op type attrValue := by
  unfold QU_DeleteRecorded QU_Delete
  rw [unrecorded_bind]
  apply DbM.bind_congr
  intro opened
  split
  · rfl
  · rw [unrecorded_bind]
    apply DbM.bind_congr
    intro started
    dsimp only
    split
    · simp only [unrecorded_bind, unrecorded_pure]
    · unfold deleteMatching
      rw [unrecorded_bind, DbM.bind_assoc]
      apply DbM.bind_congr
      intro fuel
      apply unrecorded_bind_recorded (delete_loop_unrecorded tmpRid fuel started.2)
      intro calls ends
      simp only [unrecorded_bind, unrecorded_pure]

theorem emit_loop_unrecorded (tmpRid : RID) (projNames : List AttrDesc)
    (source : Record → AttrDesc → Record) (fuel : Nat) (scan : HeapFileScan)
    (resultRel : InsertFileScan) :
    (emitLoopRecorded tmpRid projNames source fuel scan resultRel).unrecorded =
      emitLoop tmpRid projNames source fuel scan resultRel := by
  induction fuel generalizing scan resultRel with
  | zero => rfl
  | succ fuel ih =>
      unfold emitLoopRecorded emitLoop
      rw [unrecorded_bind]
      funext w
      rw [DbM.read_bind]
      apply congrFun
      rw [unrecorded_bind]
      apply DbM.bind_congr
      rintro ⟨result, scan⟩
      cases result with
      | error _ => rfl
      | ok _ =>
          dsimp only
          rw [unrecorded_bind]
          apply DbM.bind_congr
          intro tuple
          rw [unrecorded_bind]
          apply DbM.bind_congr
          intro outputRec
          rw [unrecorded_bind]
          apply DbM.bind_congr
          intro resultRel
          rw [unrecorded_bind, ← ih]
          rfl

theorem with_result_unrecorded (mem : Uninit) (result : FileName)
    {recorded : InsertFileScan → DbM (List ScanCall × Status)}
    {body : InsertFileScan → DbM Status}
    (same : ∀ resultRel, (recorded resultRel).unrecorded = body resultRel) :
    (withResultRecorded mem result recorded).unrecorded = withResult mem result body := by
  unfold withResultRecorded withResult
  rw [unrecorded_bind]
  apply DbM.bind_congr
  rintro ⟨status, resultRel⟩
  cases resultRel with
  | none => rfl
  | some resultRel =>
      dsimp only
      split
      · simp only [unrecorded_bind, unrecorded_pure]
      · exact same resultRel

theorem scan_select_unrecorded (mem : Uninit) (tmpRid : RID) (result : FileName)
    (projNames : List AttrDesc) (attrDesc : Option AttrDesc) (op : Operator)
    (filter : List ByteMemory.Byte) :
    (ScanSelectRecorded mem tmpRid result projNames attrDesc op filter).unrecorded =
      ScanSelect mem tmpRid result projNames attrDesc op filter := by
  apply with_result_unrecorded
  intro resultRel
  cases projNames with
  | nil => rfl
  | cons first rest =>
      dsimp only
      rw [unrecorded_bind]
      apply DbM.bind_congr
      intro opened
      cases opened with
      | error status => rfl
      | ok scan =>
          dsimp only
          split
          · simp only [unrecorded_bind, unrecorded_pure]
          · rw [unrecorded_bind]
            apply DbM.bind_congr
            intro fuel
            apply unrecorded_bind_recorded (emit_loop_unrecorded _ _ _ _ _ _)
            intro calls ends
            simp only [unrecorded_bind, unrecorded_pure]

theorem select_unrecorded (mem : Uninit) (tmpRid : RID) (result : FileName)
    (projNames : List AttrInfo) (attr : Option AttrInfo) (op : Operator)
    (attrValue : List ByteMemory.Byte) :
    (QU_SelectRecorded mem tmpRid result projNames attr op attrValue).unrecorded =
      QU_Select mem tmpRid result projNames attr op attrValue := by
  unfold QU_SelectRecorded QU_Select
  rw [unrecorded_bind]
  apply DbM.bind_congr
  intro found
  split
  · rfl
  · cases attr with
    | none => exact scan_select_unrecorded _ _ _ _ _ _ _
    | some attr =>
        dsimp only
        rw [unrecorded_bind]
        apply DbM.bind_congr
        intro desc
        split
        · rfl
        · exact scan_select_unrecorded _ _ _ _ _ _ _

theorem join_with_unrecorded (mem : Uninit) (tmpRid : RID) (attrDescArray : List AttrDesc)
    (attrDesc1 attrDesc2 : AttrDesc) (myop : Operator) (outerRec : Record)
    (resultRel : InsertFileScan) :
    (joinWithRecorded mem tmpRid attrDescArray attrDesc1 attrDesc2 myop outerRec
      resultRel).unrecorded =
      joinWith mem tmpRid attrDescArray attrDesc1 attrDesc2 myop outerRec resultRel := by
  unfold joinWithRecorded joinWith
  rw [unrecorded_bind]
  apply DbM.bind_congr
  intro opened
  split
  · rfl
  · dsimp only
    split
    · simp only [unrecorded_bind, unrecorded_pure]
    · rw [unrecorded_bind]
      apply DbM.bind_congr
      intro fuel
      apply unrecorded_bind_recorded (emit_loop_unrecorded _ _ _ _ _ _)
      intro calls ends
      simp only [unrecorded_bind, unrecorded_pure]

theorem outer_loop_unrecorded (mem : Uninit) (tmpRid : RID) (attrDescArray : List AttrDesc)
    (attrDesc1 attrDesc2 : AttrDesc) (myop : Operator) (fuel : Nat) (outerScan : HeapFileScan)
    (resultRel : InsertFileScan) :
    (outerLoopRecorded mem tmpRid attrDescArray attrDesc1 attrDesc2 myop fuel outerScan
      resultRel).unrecorded =
      outerLoop mem tmpRid attrDescArray attrDesc1 attrDesc2 myop fuel outerScan resultRel := by
  induction fuel generalizing outerScan resultRel with
  | zero => rfl
  | succ fuel ih =>
      unfold outerLoopRecorded outerLoop
      rw [unrecorded_bind]
      funext w
      rw [DbM.read_bind]
      apply congrFun
      rw [unrecorded_bind]
      apply DbM.bind_congr
      rintro ⟨result, scan⟩
      cases result with
      | error _ => rfl
      | ok _ =>
          dsimp only
          rw [unrecorded_bind]
          apply DbM.bind_congr
          intro outerRec
          apply unrecorded_bind_recorded (join_with_unrecorded _ _ _ _ _ _ _ _)
          rintro inner ⟨status, resultRel⟩
          dsimp only
          split
          · rfl
          · rw [unrecorded_bind, ← ih]
            rfl

theorem join_scans_unrecorded (mem : Uninit) (tmpRid : RID) (result : FileName)
    (attrDescArray : List AttrDesc) (attrDesc1 attrDesc2 : AttrDesc) (op : Operator) :
    (joinScansRecorded mem tmpRid result attrDescArray attrDesc1 attrDesc2 op).unrecorded =
      joinScans mem tmpRid result attrDescArray attrDesc1 attrDesc2 op := by
  apply with_result_unrecorded
  intro resultRel
  rw [unrecorded_bind]
  apply DbM.bind_congr
  intro opened
  split
  · rfl
  · dsimp only
    split
    · simp only [unrecorded_bind, unrecorded_pure]
    · rw [unrecorded_bind]
      apply DbM.bind_congr
      intro fuel
      apply unrecorded_bind_recorded (outer_loop_unrecorded _ _ _ _ _ _ _ _ _)
      intro calls ends
      simp only [unrecorded_bind, unrecorded_pure]

theorem join_unrecorded (mem : Uninit) (tmpRid : RID) (result : FileName)
    (projNames : List AttrInfo) (attr1 : AttrInfo) (op : Operator) (attr2 : AttrInfo) :
    (QU_NL_JoinRecorded mem tmpRid result projNames attr1 op attr2).unrecorded =
      QU_NL_Join mem tmpRid result projNames attr1 op attr2 := by
  unfold QU_NL_JoinRecorded QU_NL_Join
  split
  · rfl
  · rw [unrecorded_bind]
    apply DbM.bind_congr
    intro found
    split
    · rfl
    · rw [unrecorded_bind]
      apply DbM.bind_congr
      intro desc1
      split
      · rfl
      · rw [unrecorded_bind]
        apply DbM.bind_congr
        intro desc2
        split
        · rfl
        · exact join_scans_unrecorded _ _ _ _ _ _ _

end Unrecorded

/-- A status that says how the scans have ended: `OK` if all of them came to the end of
their file, and the status of a scan that did not. -/
structure HonestReport (tmpRid : RID) (calls : List ScanCall) (status : Status) : Prop where
  complete : status = .OK →
    ∀ call ∈ calls, ∀ code, call.endedBy tmpRid = some code → code = .FILEEOF
  passedOn : ∀ call ∈ calls, ∀ code, call.endedBy tmpRid = some code → code ≠ .FILEEOF →
    status = code

section Reports

variable {mem : Uninit} {tmpRid : RID} {w w' : World} {calls : List ScanCall} {status : Status}

theorem ScanCall.delivered {scan scan' : HeapFileScan} {rid : RID}
    (run : scan.scanNext tmpRid w = (.ok (.ok rid, scan'), w')) :
    ¬(ScanCall.mk scan w).Breaks := by
  rcases HeapFileScan.scan_next_tells run with ⟨_, _, _, impossible⟩ | ⟨whole, _⟩
  · cases impossible
  · exact whole

theorem honest_report_iff (returns : ∀ call ∈ calls, call.Returns tmpRid)
    (other : (∃ call ∈ calls, call.Breaks) → status ∉ faultCodes) :
    HonestReport tmpRid calls status ↔ ∀ call ∈ calls, ¬call.Breaks := by
  constructor
  · intro honest call member breaks
    obtain ⟨result, scan, w, run⟩ := returns call member
    rcases HeapFileScan.scan_next_tells run with ⟨_, code, listed, rfl⟩ | ⟨whole, _⟩
    · have ended : call.endedBy tmpRid = some code := by
        unfold ScanCall.endedBy
        rw [run]
      have failure : code ≠ .FILEEOF := by
        rintro rfl
        exact absurd listed (by decide)
      have same := honest.passedOn call member code ended failure
      rw [same] at other
      exact other ⟨call, member, breaks⟩ listed
    · exact whole breaks
  · intro whole
    have ends : ∀ call ∈ calls, ∀ code, call.endedBy tmpRid = some code → code = .FILEEOF := by
      intro call member code ended
      obtain ⟨result, scan, w, run⟩ := returns call member
      unfold ScanCall.endedBy at ended
      rw [run] at ended
      rcases HeapFileScan.scan_next_tells run with ⟨breaks, _⟩ | ⟨_, rfl | ⟨rid, rfl⟩⟩
      · exact absurd breaks (whole call member)
      · cases ended
        rfl
      · cases ended
    refine ⟨fun _ => ends, ?_⟩
    intro call member code ended failure
    exact absurd (ends call member code ended) failure

theorem delete_loop_calls {scan scan' : HeapFileScan} (fuel : Nat)
    (run : deleteLoopRecorded tmpRid fuel scan w = (.ok (calls, status, scan'), w')) :
    (∀ call ∈ calls, call.Returns tmpRid) ∧ ((∃ call ∈ calls, call.Breaks) → status = .OK) := by
  induction fuel generalizing scan w calls with
  | zero => cases run
  | succ fuel ih =>
      unfold deleteLoopRecorded at run
      rw [DbM.read_bind] at run
      obtain ⟨⟨result, scan₁⟩, w₁, next, run⟩ := bind_eq_ok_iff.mp run
      have returns : (ScanCall.mk scan w).Returns tmpRid := ⟨result, scan₁, w₁, next⟩
      cases result with
      | error code =>
          cases run
          simpa using returns
      | ok rid =>
          have whole := ScanCall.delivered next
          obtain ⟨⟨removed, scan₂⟩, w₂, deleted, run⟩ := bind_eq_ok_iff.mp run
          dsimp only at run
          split_ifs at run with failed
          · cases run
            simpa [whole] using returns
          · obtain ⟨⟨later, ends⟩, w₃, loop, run⟩ := bind_eq_ok_iff.mp run
            cases run
            obtain ⟨allReturn, report⟩ := ih loop
            constructor
            · intro call member
              rcases List.mem_cons.mp member with rfl | among
              · exact returns
              · exact allReturn call among
            · rintro ⟨call, member, breaks⟩
              rcases List.mem_cons.mp member with rfl | among
              · exact absurd breaks whole
              · exact report ⟨call, among, breaks⟩

theorem emit_loop_calls {projNames : List AttrDesc} {source : Record → AttrDesc → Record}
    {scan : HeapFileScan} {resultRel : InsertFileScan} {ends : HeapFileScan × InsertFileScan}
    (fuel : Nat)
    (run : emitLoopRecorded tmpRid projNames source fuel scan resultRel w =
      (.ok (calls, ends), w')) : ∀ call ∈ calls, call.Returns tmpRid := by
  induction fuel generalizing scan resultRel w calls with
  | zero => cases run
  | succ fuel ih =>
      unfold emitLoopRecorded at run
      rw [DbM.read_bind] at run
      obtain ⟨⟨result, scan₁⟩, w₁, next, run⟩ := bind_eq_ok_iff.mp run
      have returns : (ScanCall.mk scan w).Returns tmpRid := ⟨result, scan₁, w₁, next⟩
      cases result with
      | error code =>
          cases run
          simpa using returns
      | ok rid =>
          obtain ⟨tuple, w₂, _, run⟩ := bind_eq_ok_iff.mp run
          obtain ⟨outputRec, w₃, _, run⟩ := bind_eq_ok_iff.mp run
          obtain ⟨resultRel₁, w₄, _, run⟩ := bind_eq_ok_iff.mp run
          obtain ⟨⟨later, ends⟩, w₅, loop, run⟩ := bind_eq_ok_iff.mp run
          cases run
          simpa [returns] using ih loop

theorem start_scan_status (scan : HeapFileScan) (offset length : Int) (type : Datatype)
    (filter : Option (List ByteMemory.Byte)) (op : Operator) :
    (scan.startScan offset length type filter op).1 = .OK ∨
      (scan.startScan offset length type filter op).1 = .BADSCANPARM := by
  unfold HeapFileScan.startScan ScanFilter.startScan
  cases filter with
  | none => exact .inl rfl
  | some bytes =>
      dsimp only
      split_ifs
      · exact .inr rfl
      · exact .inl rfl

theorem join_with_calls {attrDescArray : List AttrDesc} {attrDesc1 attrDesc2 : AttrDesc}
    {myop : Operator} {outerRec : Record} {resultRel resultRel' : InsertFileScan}
    (run : joinWithRecorded mem tmpRid attrDescArray attrDesc1 attrDesc2 myop outerRec resultRel w =
      (.ok (calls, status, resultRel'), w')) :
    (∀ call ∈ calls, call.Returns tmpRid) ∧ (status = .OK ∨ status = .BADSCANPARM) := by
  unfold joinWithRecorded at run
  obtain ⟨opened, w₁, _, run⟩ := bind_eq_ok_iff.mp run
  cases opened with
  | error _ => cases run
  | ok innerScan =>
      dsimp only at run
      have started : (innerScan.startJoin attrDesc1 attrDesc2 myop outerRec).1 = .OK ∨
          (innerScan.startJoin attrDesc1 attrDesc2 myop outerRec).1 = .BADSCANPARM := by
        unfold HeapFileScan.startJoin
        split
        · exact start_scan_status _ _ _ _ _ _
        · exact .inr rfl
      split_ifs at run with failed
      · obtain ⟨_, w₂, _, run⟩ := bind_eq_ok_iff.mp run
        cases run
        exact ⟨by simp, started⟩
      · rw [DbM.read_bind] at run
        obtain ⟨⟨found, ends⟩, w₂, loop, run⟩ := bind_eq_ok_iff.mp run
        obtain ⟨_, w₃, _, run⟩ := bind_eq_ok_iff.mp run
        cases run
        exact ⟨emit_loop_calls _ loop, .inl rfl⟩

theorem outer_loop_calls {attrDescArray : List AttrDesc} {attrDesc1 attrDesc2 : AttrDesc}
    {myop : Operator} {outerScan : HeapFileScan} {resultRel : InsertFileScan}
    {ends : HeapFileScan × InsertFileScan} (fuel : Nat)
    (run : outerLoopRecorded mem tmpRid attrDescArray attrDesc1 attrDesc2 myop fuel outerScan
      resultRel w = (.ok (calls, status, ends), w')) :
    (∀ call ∈ calls, call.Returns tmpRid) ∧ (status = .OK ∨ status = .BADSCANPARM) := by
  induction fuel generalizing outerScan resultRel w calls with
  | zero => cases run
  | succ fuel ih =>
      unfold outerLoopRecorded at run
      rw [DbM.read_bind] at run
      obtain ⟨⟨result, scan₁⟩, w₁, next, run⟩ := bind_eq_ok_iff.mp run
      have returns : (ScanCall.mk outerScan w).Returns tmpRid := ⟨result, scan₁, w₁, next⟩
      cases result with
      | error code =>
          cases run
          exact ⟨by simpa using returns, .inl rfl⟩
      | ok rid =>
          obtain ⟨outerRec, w₂, _, run⟩ := bind_eq_ok_iff.mp run
          obtain ⟨⟨inner, joined, resultRel₁⟩, w₃, join, run⟩ := bind_eq_ok_iff.mp run
          obtain ⟨innerReturn, innerStatus⟩ := join_with_calls join
          dsimp only at run
          split_ifs at run with failed
          · cases run
            exact ⟨by simpa [returns] using innerReturn, innerStatus⟩
          · obtain ⟨⟨later, ends⟩, w₄, loop, run⟩ := bind_eq_ok_iff.mp run
            cases run
            obtain ⟨laterReturn, laterStatus⟩ := ih loop
            refine ⟨?_, laterStatus⟩
            intro call member
            rcases List.mem_cons.mp member with rfl | among
            · exact returns
            · rcases List.mem_append.mp among with early | late
              · exact innerReturn call early
              · exact laterReturn call late

structure Unreported (tmpRid : RID) (recorded : DbM (List ScanCall × Status)) : Prop where
  ends : ∀ w calls status w', recorded w = (.ok (calls, status), w') →
    (∀ call ∈ calls, call.Returns tmpRid) ∧
      ((∃ call ∈ calls, call.Breaks) → status ∉ faultCodes)

theorem unreported_early (status : Status) :
    Unreported tmpRid (pure ([], status) : DbM (List ScanCall × Status)) := by
  refine ⟨fun w calls status w' run => ?_⟩
  cases run
  simp

theorem unreported_crash : Unreported tmpRid (DbM.crash : DbM (List ScanCall × Status)) := by
  refine ⟨fun w calls status w' run => ?_⟩
  cases run

theorem unreported_bind {β : Type} {first : DbM β} {next : β → DbM (List ScanCall × Status)}
    (each : ∀ value, Unreported tmpRid (next value)) : Unreported tmpRid (first >>= next) := by
  refine ⟨fun w calls status w' run => ?_⟩
  obtain ⟨value, w₁, _, run⟩ := bind_eq_ok_iff.mp run
  exact (each value).ends w₁ calls status w' run

theorem with_result_unreported {result : FileName}
    {body : InsertFileScan → DbM (List ScanCall × Status)}
    (each : ∀ resultRel, Unreported tmpRid (body resultRel)) :
    Unreported tmpRid (withResultRecorded mem result body) := by
  unfold withResultRecorded
  repeat' first
    | exact unreported_crash | exact unreported_early _ | exact each _
    | apply unreported_bind | intro _ | split

theorem delete_unreported (relation attrName : FileName) (op : Operator) (type : Datatype)
    (attrValue : List ByteMemory.Byte) :
    Unreported tmpRid (QU_DeleteRecorded mem tmpRid relation attrName op type attrValue) := by
  unfold QU_DeleteRecorded
  apply unreported_bind
  intro opened
  split
  · exact unreported_crash
  · apply unreported_bind
    intro started
    dsimp only
    split_ifs
    · apply unreported_bind
      intro _
      exact unreported_early _
    · apply unreported_bind
      intro fuel
      refine ⟨fun w calls status w' run => ?_⟩
      obtain ⟨⟨found, ends⟩, w₁, loop, run⟩ := bind_eq_ok_iff.mp run
      obtain ⟨_, w₂, _, run⟩ := bind_eq_ok_iff.mp run
      cases run
      obtain ⟨returns, report⟩ := delete_loop_calls fuel loop
      refine ⟨returns, fun broken => ?_⟩
      rw [report broken]
      decide

theorem scan_select_unreported (result : FileName) (projNames : List AttrDesc)
    (attrDesc : Option AttrDesc) (op : Operator) (filter : List ByteMemory.Byte) :
    Unreported tmpRid (ScanSelectRecorded mem tmpRid result projNames attrDesc op filter) := by
  apply with_result_unreported
  intro resultRel
  split
  · exact unreported_crash
  · apply unreported_bind
    intro opened
    split
    · exact unreported_crash
    · dsimp only
      split_ifs
      · apply unreported_bind
        intro _
        apply unreported_bind
        intro _
        exact unreported_early _
      · apply unreported_bind
        intro fuel
        refine ⟨fun w calls status w' run => ?_⟩
        obtain ⟨⟨found, ends⟩, w₁, loop, run⟩ := bind_eq_ok_iff.mp run
        obtain ⟨_, w₂, _, run⟩ := bind_eq_ok_iff.mp run
        obtain ⟨_, w₃, _, run⟩ := bind_eq_ok_iff.mp run
        cases run
        exact ⟨emit_loop_calls fuel loop, fun _ => by decide⟩

theorem select_unreported (result : FileName) (projNames : List AttrInfo)
    (attr : Option AttrInfo) (op : Operator) (attrValue : List ByteMemory.Byte) :
    Unreported tmpRid (QU_SelectRecorded mem tmpRid result projNames attr op attrValue) := by
  unfold QU_SelectRecorded
  repeat' first
    | exact unreported_early _ | exact scan_select_unreported _ _ _ _ _
    | apply unreported_bind | intro _ | split

theorem join_scans_unreported (result : FileName) (attrDescArray : List AttrDesc)
    (attrDesc1 attrDesc2 : AttrDesc) (op : Operator) :
    Unreported tmpRid
      (joinScansRecorded mem tmpRid result attrDescArray attrDesc1 attrDesc2 op) := by
  apply with_result_unreported
  intro resultRel
  apply unreported_bind
  intro opened
  split
  · exact unreported_crash
  · dsimp only
    split_ifs
    · apply unreported_bind
      intro _
      apply unreported_bind
      intro _
      exact unreported_early _
    · apply unreported_bind
      intro fuel
      refine ⟨fun w calls status w' run => ?_⟩
      obtain ⟨⟨found, joined, ends⟩, w₁, loop, run⟩ := bind_eq_ok_iff.mp run
      obtain ⟨_, w₂, _, run⟩ := bind_eq_ok_iff.mp run
      obtain ⟨_, w₃, _, run⟩ := bind_eq_ok_iff.mp run
      cases run
      obtain ⟨returns, rfl | rfl⟩ := outer_loop_calls fuel loop
      · exact ⟨returns, fun _ => (by decide : Status.OK ∉ faultCodes)⟩
      · exact ⟨returns, fun _ => (by decide : Status.BADSCANPARM ∉ faultCodes)⟩

theorem join_unreported (result : FileName) (projNames : List AttrInfo) (attr1 : AttrInfo)
    (op : Operator) (attr2 : AttrInfo) :
    Unreported tmpRid (QU_NL_JoinRecorded mem tmpRid result projNames attr1 op attr2) := by
  unfold QU_NL_JoinRecorded
  repeat' first
    | exact unreported_early _ | exact join_scans_unreported _ _ _ _ _
    | apply unreported_bind | intro _ | split

end Reports

/-- `recorded` is `query` with its calls of `scanNext`, and wherever it returns, its status
says how its scans have ended exactly if no page read, no unpin and no record read has
failed in them. -/
structure ReportsUnlessBroken (tmpRid : RID) (query : DbM Status)
    (recorded : DbM (List ScanCall × Status)) : Prop where
  same : recorded.unrecorded = query
  honest_iff : ∀ w calls status w', recorded w = (.ok (calls, status), w') →
    (HonestReport tmpRid calls status ↔ ∀ call ∈ calls, ¬call.Breaks)

theorem Unreported.reports {tmpRid : RID} {query : DbM Status}
    {recorded : DbM (List ScanCall × Status)} (unreported : Unreported tmpRid recorded)
    (same : recorded.unrecorded = query) : ReportsUnlessBroken tmpRid query recorded := by
  refine ⟨same, fun w calls status w' run => ?_⟩
  obtain ⟨returns, other⟩ := unreported.ends w calls status w' run
  exact honest_report_iff returns other

/-- In any world, with any page read or unpin failing at any time. -/
theorem queries_report_unless_broken (mem : Uninit) (tmpRid : RID) :
    (∀ result projNames attr op attrValue, ReportsUnlessBroken tmpRid
        (QU_Select mem tmpRid result projNames attr op attrValue)
        (QU_SelectRecorded mem tmpRid result projNames attr op attrValue)) ∧
      (∀ result projNames attr1 op attr2, ReportsUnlessBroken tmpRid
        (QU_NL_Join mem tmpRid result projNames attr1 op attr2)
        (QU_NL_JoinRecorded mem tmpRid result projNames attr1 op attr2)) ∧
      ∀ relation attrName op type attrValue, ReportsUnlessBroken tmpRid
        (QU_Delete mem tmpRid relation attrName op type attrValue)
        (QU_DeleteRecorded mem tmpRid relation attrName op type attrValue) := by
  refine ⟨?_, ?_, ?_⟩
  · intro result projNames attr op attrValue
    exact (select_unreported _ _ _ _ _).reports (select_unrecorded _ _ _ _ _ _ _)
  · intro result projNames attr1 op attr2
    exact (join_unreported _ _ _ _ _).reports (join_unrecorded _ _ _ _ _ _ _)
  · intro relation attrName op type attrValue
    exact (delete_unreported _ _ _ _ _).reports (delete_unrecorded _ _ _ _ _ _ _)

open HeapSession (zeroMemory)

/-- The disk of `threeRecords` stops answering after `calls` system calls. -/
def dyingDisk (calls : Nat) : World := { threeRecords with faults := fun n => calls ≤ n }

def deleteAll : DbM (List ScanCall × Status) :=
  QU_DeleteRecorded zeroMemory NULLRID [114] [] .EQ .STRING []

theorem delete_all_seen (w : World) (status : Status) (ends : List (Option Status))
    (seen : ((deleteAll >>= fun recorded =>
      pure (recorded.2, recorded.1.map (ScanCall.endedBy NULLRID)) :
        DbM (Status × List (Option Status))) w).1 = .ok (status, ends)) :
    ∃ calls w', deleteAll w = (.ok (calls, status), w') ∧
      calls.map (ScanCall.endedBy NULLRID) = ends := by
  rw [bind_apply] at seen
  rcases run : deleteAll w with ⟨⟨calls, reported⟩ | _ | _, w'⟩
  · rw [run] at seen
    cases seen
    exact ⟨calls, w', rfl, rfl⟩
  · rw [run] at seen
    cases seen
  · rw [run] at seen
    cases seen

/-- On a disk that works, three records are deleted and the fourth call comes to the end. -/
theorem queries_report_unless_broken_working_disk :
    ∃ calls w', deleteAll threeRecords = (.ok (calls, .OK), w') ∧
      ∀ call ∈ calls, ¬call.Breaks := by
  obtain ⟨calls, w', run, ends⟩ := delete_all_seen threeRecords .OK
    [none, none, none, some .FILEEOF] (by decide +kernel)
  refine ⟨calls, w', run, ?_⟩
  have report := ((queries_report_unless_broken zeroMemory NULLRID).2.2 [114] [] .EQ .STRING
    []).honest_iff threeRecords calls .OK w' run
  apply report.mp
  have eof : ∀ call ∈ calls, ∀ code, call.endedBy NULLRID = some code → code = .FILEEOF := by
    intro call member code ended
    have listed : some code ∈ calls.map (ScanCall.endedBy NULLRID) :=
      List.mem_map.mpr ⟨call, member, ended⟩
    rw [ends] at listed
    simpa using listed
  exact ⟨fun _ => eof, fun call member code ended other =>
    absurd (eof call member code ended) other⟩

/-- The disk dies after the header page has been read: nothing is deleted and the status
is `OK`. -/
theorem broken_scan_reported_ok :
    ∃ calls w', QU_DeleteRecorded zeroMemory NULLRID [114] [] .EQ .STRING [] (dyingDisk 3) =
        (.ok (calls, .OK), w') ∧ ¬HonestReport NULLRID calls .OK := by
  obtain ⟨calls, w', run, ends⟩ := delete_all_seen (dyingDisk 3) .OK [some .UNIXERR]
    (by decide +kernel)
  refine ⟨calls, w', run, ?_⟩
  intro honest
  obtain ⟨call, rfl, ended⟩ := List.map_eq_singleton_iff.mp ends
  have wrong := honest.complete rfl call (by simp) .UNIXERR ended
  cases wrong

end PrimitiveDB

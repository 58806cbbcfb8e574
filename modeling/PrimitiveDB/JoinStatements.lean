import PrimitiveDB.Interpreter
import PrimitiveDB.BrokenScans
import PrimitiveDB.SelectQueries

/-!
# Join statements

`QU_Join` of `join.C` behind the interpreter. Each join method begins with a comparison of the
types and lengths of the two join attributes. The comparison reads the descriptions that the
interpreter has filled in, and the interpreter fills in `-1` on both sides: the types in the
catalog are never compared.
-/

namespace PrimitiveDB

open ByteMemory DbM

set_option autoImplicit false

inductive JoinType where
  | NLJoin | SMJoin | HashJoin
  deriving DecidableEq

def TypesDiffer (attr1 attr2 : AttrInfo) : Prop :=
  attr1.attrType ≠ attr2.attrType ∨ attr1.attrLen ≠ attr2.attrLen

instance (attr1 attr2 : AttrInfo) : Decidable (TypesDiffer attr1 attr2) :=
  inferInstanceAs (Decidable (_ ∨ _))

/-- The sort-merge join has no body behind the comparison. -/
def QU_SM_Join (attr1 attr2 : AttrInfo) : DbM Status :=
  pure (if TypesDiffer attr1 attr2 then .ATTRTYPEMISMATCH else .OK)

def QU_Hash_Join (attr1 attr2 : AttrInfo) : DbM Status :=
  pure (if TypesDiffer attr1 attr2 then .ATTRTYPEMISMATCH else .OK)

def QU_Join (joinMethod : JoinType) (mem : Uninit) (tmpRid : RID) (result : FileName)
    (projNames : List AttrInfo) (attr1 : AttrInfo) (op : Operator) (attr2 : AttrInfo) :
    DbM Status :=
  if joinMethod = .NLJoin ∨ joinMethod = .HashJoin ∧ op ≠ .EQ then
    QU_NL_Join mem tmpRid result projNames attr1 op attr2
  else if joinMethod = .SMJoin then QU_SM_Join attr1 attr2
  else QU_Hash_Join attr1 attr2

theorem DbM.then_pure {α : Type} (call : DbM α) : (call >>= pure) = call := by
  funext w
  rw [bind_apply]
  rcases call w with ⟨value | status | _, w'⟩ <;> rfl

theorem DbM.then_then {α β γ : Type} (first : DbM α) (second : α → DbM β) (third : β → DbM γ) :
    (first >>= second >>= third) = first >>= fun value => second value >>= third := by
  funext w
  simp only [bind_apply]
  rcases first w with ⟨value | status | _, w'⟩ <;> rfl

instance : LawfulMonad DbM :=
  LawfulMonad.mk' DbM DbM.then_pure (fun _ _ => rfl) DbM.then_then

structure DbM.Answers {α : Type} (call : DbM α) (good : α → Prop) : Prop where
  holds : ∀ w value w', call w = (.ok value, w') → good value

section Answers

variable {α β : Type}

theorem answers_pure {value : α} {good : α → Prop} (holds : good value) :
    Answers (pure value : DbM α) good := by
  refine ⟨fun w other w' run => ?_⟩
  cases run
  exact holds

theorem answers_crash {good : α → Prop} : Answers (DbM.crash : DbM α) good := by
  refine ⟨fun w value w' run => ?_⟩
  cases run

theorem answers_bind {first : DbM α} {next : α → DbM β} {between : α → Prop} {good : β → Prop}
    (firstAnswers : Answers first between)
    (nextAnswers : ∀ value, between value → Answers (next value) good) :
    Answers (first >>= next) good := by
  refine ⟨fun w value w' run => ?_⟩
  obtain ⟨middle, w₁, step, later⟩ := DbM.bind_eq_ok_iff.mp run
  exact (nextAnswers middle (firstAnswers.holds w middle w₁ step)).holds w₁ value w' later

theorem answers_after {first : DbM α} {next : α → DbM β} {good : β → Prop}
    (nextAnswers : ∀ value, Answers (next value) good) : Answers (first >>= next) good :=
  answers_bind (⟨fun _ _ _ _ => trivial⟩ : Answers first fun _ => True)
    fun value _ => nextAnswers value

end Answers

def Untyped (status : Status) : Prop := status ≠ .ATTRTYPEMISMATCH

def UntypedError {α : Type} (result : Except Status α) : Prop :=
  ∀ status, result = .error status → Untyped status

theorem untyped_error_of {α : Type} {status : Status} (untyped : Untyped status) :
    UntypedError (.error status : Except Status α) := by
  rintro _ ⟨⟩
  exact untyped

theorem untyped_error_ok {α : Type} (value : α) : UntypedError (.ok value : Except Status α) := by
  rintro _ ⟨⟩

theorem untyped_of_code {status : Status} (listed : status ∈ faultCodes) : Untyped status := by
  rintro rfl
  revert listed
  decide

theorem code_attempt {α β : Type} {call : DbM α} {next : Except Status α → DbM β}
    (code : FailsWithCode call) (okCode : ∀ value, FailsWithCode (next (.ok value)))
    (errorCode : ∀ status ∈ faultCodes, FailsWithCode (next (.error status))) :
    FailsWithCode (DbM.attempt call >>= next) := by
  refine ⟨fun w status w' run => ?_⟩
  rw [bind_apply] at run
  rcases step : call w with ⟨value | failed | _, w₁⟩
  · rw [World.attempt_ok step] at run
    exact (okCode value).code w₁ status w' run
  · rw [World.attempt_err step] at run
    exact (errorCode failed (code.code w failed w₁ step)).code w₁ status w' run
  · rw [DbM.attempt, step] at run
    cases run

theorem code_open (file : FilePtr) : FailsWithCode (File.open_ file) := by
  unfold File.open_
  repeat' first
    | exact code_deref _ | exact code_system_call | exact code_read _
    | exact code_fail (by decide) | exact code_modify _
    | apply code_bind | intro _ | split

theorem code_new_file (fileName : FileName) : FailsWithCode (File.new fileName) := by
  refine ⟨fun w status w' run => ?_⟩
  cases run

theorem code_open_file {fileName : FileName} (nonempty : fileName ≠ []) :
    FailsWithCode (DB.openFile fileName) := by
  unfold DB.openFile
  rw [if_neg nonempty]
  apply code_bind (code_read _)
  intro found
  cases found with
  | some file =>
      apply code_bind (code_open file)
      intro _
      exact code_pure file
  | none =>
      apply code_bind (code_new_file fileName)
      intro file
      apply code_attempt (code_open file)
      · intro _
        repeat' first
          | exact code_pure _ | exact code_read _ | exact code_fail (by decide)
          | exact code_modify _ | apply code_bind | intro _ | split
      · intro status listed
        apply code_bind (code_modify _)
        intro _
        exact code_fail listed

theorem open_file_untyped (fileName : FileName) :
    Answers (DbM.attempt (DB.openFile fileName)) UntypedError := by
  refine ⟨fun w result w' run status failed => ?_⟩
  subst failed
  by_cases empty : fileName = []
  · subst empty
    cases run
    exact fun mismatch => by cases mismatch
  · rcases step : DB.openFile fileName w with ⟨value | code | _, w₁⟩
    · rw [World.attempt_ok step] at run
      cases run
    · rw [World.attempt_err step] at run
      cases run
      exact untyped_of_code ((code_open_file empty).code w status _ step)
    · rw [DbM.attempt, step] at run
      cases run

theorem call_buf_mgr_untyped {α : Type} {call : DbM α} (code : FailsWithCode call) :
    Answers (callBufMgr call) UntypedError := by
  refine ⟨fun w result w' run status failed => ?_⟩
  subst failed
  exact untyped_of_code (code_of_call code run)

theorem heap_file_untyped (mem : Uninit) (fileName : FileName) :
    Answers (HeapFile.new mem fileName) UntypedError := by
  unfold HeapFile.new
  apply answers_bind (open_file_untyped fileName)
  intro opened untyped
  cases opened with
  | error status => exact answers_pure (untyped_error_of (untyped status rfl))
  | ok file =>
      dsimp only
      repeat' first
        | exact answers_crash | exact answers_pure (untyped_error_ok _)
        | apply answers_after | intro _ | split

theorem scan_untyped (mem : Uninit) (fileName : FileName) :
    Answers (HeapFileScan.new mem fileName) UntypedError := by
  unfold HeapFileScan.new
  apply answers_bind (heap_file_untyped mem fileName)
  intro opened untyped
  cases opened with
  | error status => exact answers_pure (untyped_error_of (untyped status rfl))
  | ok heap => exact answers_pure (untyped_error_ok _)

theorem insert_scan_untyped (mem : Uninit) (fileName : FileName) :
    Answers (InsertFileScan.new mem fileName) fun made => Untyped made.1 := by
  unfold InsertFileScan.new
  apply answers_bind (heap_file_untyped mem fileName)
  intro opened untyped
  cases opened with
  | error status =>
      dsimp only
      split
      · exact answers_crash
      · exact answers_pure (untyped status rfl)
  | ok heap =>
      dsimp only
      apply answers_after
      intro hdr
      split
      · unfold InsertFileScan.moveToLast
        apply answers_after
        intro _
        apply answers_bind (call_buf_mgr_untyped (code_read_page _ _))
        intro read untyped
        cases read with
        | error status => exact answers_pure (untyped status rfl)
        | ok frame => exact answers_pure (fun mismatch => by cases mismatch)
      · exact answers_pure (fun mismatch => by cases mismatch)

theorem scan_next_untyped (scan : HeapFileScan) (tmpRid : RID) :
    Answers (scan.scanNext tmpRid) fun result => UntypedError result.1 := by
  refine ⟨fun w found w' run status failed => ?_⟩
  obtain ⟨result, scan'⟩ := found
  dsimp only at failed
  subst failed
  rcases HeapFileScan.scan_next_tells run with ⟨_, code, listed, error⟩ | ⟨_, ended | ⟨rid, found⟩⟩
  · cases error
    exact untyped_of_code listed
  · cases ended
    exact fun mismatch => by cases mismatch
  · cases found

theorem current_untyped (scan : HeapFileScan) : Answers scan.current UntypedError := by
  unfold HeapFileScan.current
  split
  · exact answers_crash
  · apply answers_after
    intro page
    apply answers_pure
    intro status refused
    exact untyped_of_code (HeapFileScan.code_get_record refused)

theorem start_scan_untyped (scan : HeapFileScan) (offset length : Int) (type : Datatype)
    (filter : Option (List Byte)) (op : Operator) :
    Untyped (scan.startScan offset length type filter op).1 := by
  unfold HeapFileScan.startScan ScanFilter.startScan
  dsimp only
  repeat' split
  all_goals exact fun mismatch => by cases mismatch

theorem untyped_ok : Untyped .OK := by
  intro mismatch
  cases mismatch

theorem end_scan_untyped (scan : HeapFileScan) :
    Answers scan.endScan fun ended => Untyped ended.1 := by
  unfold HeapFileScan.endScan
  split
  · apply answers_bind (call_buf_mgr_untyped (code_un_pin_page _ _ _))
    intro unpinned untyped
    cases unpinned with
    | error status => exact answers_pure (untyped status rfl)
    | ok _ => exact answers_pure untyped_ok
  · exact answers_pure untyped_ok

theorem finish_untyped (scan : HeapFileScan) : Answers scan.finish Untyped := by
  unfold HeapFileScan.finish
  apply answers_bind (end_scan_untyped scan)
  intro ended untyped
  apply answers_after
  intro _
  exact answers_pure untyped

def UntypedSearch : AttrCatalog.Search → Prop
  | .gone status => Untyped status
  | .stopped status _ => Untyped status
  | .found _ _ => True

theorem search_untyped (tmpRid : RID) (attrName : FileName) (fuel : Nat) (hfs : HeapFileScan) :
    Answers (AttrCatalog.search tmpRid attrName fuel hfs) UntypedSearch := by
  induction fuel generalizing hfs with
  | zero => exact answers_crash
  | succ fuel ih =>
      unfold AttrCatalog.search
      apply answers_bind (scan_next_untyped hfs tmpRid)
      rintro ⟨result, hfs'⟩ untyped
      cases result with
      | error status => exact answers_pure (untyped status rfl)
      | ok rid =>
          apply answers_bind (current_untyped hfs')
          intro current untyped'
          cases current with
          | error status => exact answers_pure (untyped' status rfl)
          | ok rec =>
              dsimp only
              repeat' split
              · exact answers_crash
              · exact answers_pure trivial
              · exact ih hfs'

theorem get_info_untyped (mem : Uninit) (tmpRid : RID) (relation attrName : FileName) :
    Answers (AttrCatalog.getInfo mem tmpRid relation attrName) UntypedError := by
  unfold AttrCatalog.getInfo
  split
  · exact answers_pure (untyped_error_of fun mismatch => by cases mismatch)
  · apply answers_bind (scan_untyped mem ATTRCATNAME)
    intro opened untyped
    cases opened with
    | error status => exact answers_pure (untyped_error_of (untyped status rfl))
    | ok hfs =>
        dsimp only
        split
        · apply answers_after
          intro _
          exact answers_pure (untyped_error_of (start_scan_untyped _ _ _ _ _ _))
        · apply answers_after
          intro fuel
          apply answers_bind (search_untyped tmpRid attrName fuel _)
          intro ended untyped'
          cases ended with
          | gone status => exact answers_pure (untyped_error_of untyped')
          | stopped status hfs' =>
              apply answers_after
              intro _
              apply answers_pure (untyped_error_of _)
              split
              · exact fun mismatch => by cases mismatch
              · exact untyped'
          | found record hfs' =>
              apply answers_bind (finish_untyped hfs')
              intro status untyped''
              split
              · exact answers_pure (untyped_error_ok _)
              · exact answers_pure (untyped_error_of untyped'')

theorem look_up_attrs_untyped (mem : Uninit) (tmpRid : RID) (projNames : List AttrInfo) :
    Answers (lookUpAttrs mem tmpRid projNames) UntypedError := by
  induction projNames with
  | nil => exact answers_pure (untyped_error_ok _)
  | cons attr attrs ih =>
      unfold lookUpAttrs
      apply answers_bind (get_info_untyped mem tmpRid _ _)
      intro found untyped
      cases found with
      | error status => exact answers_pure (untyped_error_of (untyped status rfl))
      | ok desc =>
          apply answers_bind ih
          intro rest untyped'
          cases rest with
          | error status => exact answers_pure (untyped_error_of (untyped' status rfl))
          | ok descs => exact answers_pure (untyped_error_ok _)

theorem start_join_untyped (innerScan : HeapFileScan) (attrDesc1 attrDesc2 : AttrDesc)
    (myop : Operator) (outerRec : Record) :
    Untyped (innerScan.startJoin attrDesc1 attrDesc2 myop outerRec).1 := by
  unfold HeapFileScan.startJoin
  split
  · exact start_scan_untyped _ _ _ _ _ _
  · exact fun mismatch => by cases mismatch

theorem join_with_untyped (mem : Uninit) (tmpRid : RID) (attrDescArray : List AttrDesc)
    (attrDesc1 attrDesc2 : AttrDesc) (myop : Operator) (outerRec : Record)
    (resultRel : InsertFileScan) :
    Answers (joinWith mem tmpRid attrDescArray attrDesc1 attrDesc2 myop outerRec resultRel)
      fun joined => Untyped joined.1 := by
  unfold joinWith
  apply answers_after
  intro opened
  cases opened with
  | error status => exact answers_crash
  | ok innerScan =>
      dsimp only
      split
      · apply answers_after
        intro _
        exact answers_pure (start_join_untyped _ _ _ _ _)
      · repeat' first
          | exact answers_pure untyped_ok | apply answers_after | intro _

theorem outer_loop_untyped (mem : Uninit) (tmpRid : RID) (attrDescArray : List AttrDesc)
    (attrDesc1 attrDesc2 : AttrDesc) (myop : Operator) (fuel : Nat) (outerScan : HeapFileScan)
    (resultRel : InsertFileScan) :
    Answers (outerLoop mem tmpRid attrDescArray attrDesc1 attrDesc2 myop fuel outerScan resultRel)
      fun ended => Untyped ended.1 := by
  induction fuel generalizing outerScan resultRel with
  | zero => exact answers_crash
  | succ fuel ih =>
      unfold outerLoop
      apply answers_after
      rintro ⟨result, outerScan'⟩
      cases result with
      | error _ => exact answers_pure untyped_ok
      | ok _ =>
          apply answers_after
          intro outerRec
          apply answers_bind (join_with_untyped mem tmpRid _ _ _ _ _ _)
          rintro ⟨status, resultRel'⟩ untyped
          dsimp only
          split
          · exact answers_pure untyped
          · exact ih outerScan' resultRel'

theorem join_scans_untyped (mem : Uninit) (tmpRid : RID) (result : FileName)
    (attrDescArray : List AttrDesc) (attrDesc1 attrDesc2 : AttrDesc) (op : Operator) :
    Answers (joinScans mem tmpRid result attrDescArray attrDesc1 attrDesc2 op) Untyped := by
  unfold joinScans withResult
  apply answers_bind (insert_scan_untyped mem result)
  rintro ⟨status, resultRel⟩ untyped
  cases resultRel with
  | none => exact answers_crash
  | some resultRel =>
      dsimp only
      split
      · apply answers_after
        intro _
        exact answers_pure untyped
      · apply answers_after
        intro opened
        cases opened with
        | error _ => exact answers_crash
        | ok outerScan =>
            dsimp only
            split
            · repeat' first
                | exact answers_pure (start_scan_untyped _ _ _ _ _ _) | apply answers_after
                | intro _
            · apply answers_after
              intro fuel
              apply answers_bind (outer_loop_untyped mem tmpRid _ _ _ _ _ _ _)
              rintro ⟨status', outerScan', resultRel'⟩ untyped'
              repeat' first
                | exact answers_pure untyped' | apply answers_after | intro _

/-- With two attributes that have the same type and length in the statement, the join does not
report a mismatch, whatever the catalog says. -/
theorem nested_loops_untyped (mem : Uninit) (tmpRid : RID) (result : FileName)
    (projNames : List AttrInfo) {attr1 attr2 : AttrInfo} (op : Operator)
    (same : ¬TypesDiffer attr1 attr2) :
    Answers (QU_NL_Join mem tmpRid result projNames attr1 op attr2) Untyped := by
  unfold QU_NL_Join
  split
  · exact absurd ‹_› same
  · apply answers_bind (look_up_attrs_untyped mem tmpRid projNames)
    intro found untyped
    cases found with
    | error status => exact answers_pure (untyped status rfl)
    | ok attrDescArray =>
        apply answers_bind (get_info_untyped mem tmpRid _ _)
        intro first untyped1
        cases first with
        | error status => exact answers_pure (untyped1 status rfl)
        | ok attrDesc1 =>
            apply answers_bind (get_info_untyped mem tmpRid _ _)
            intro second untyped2
            cases second with
            | error status => exact answers_pure (untyped2 status rfl)
            | ok attrDesc2 => exact join_scans_untyped mem tmpRid _ _ _ _ _

/-- The functions that `interp` calls and that are not modelled here: loading, printing and help. -/
structure Utilities where
  UT_Load : FileName → FileName → DbM Status
  UT_Print : FileName → DbM Status
  help : FileName → DbM Status

/-- The database behind the interpreter. `data` and `behind` are the memory that `QU_Insert`
finds. -/
def databaseCalls (joinMethod : JoinType) (mem : Uninit) (tmpRid : RID) (data behind : Memory)
    (utilities : Utilities) : Calls DbM where
  attrGetRelInfo := AttrCatalog.getRelInfo mem tmpRid
  relGetInfo := RelCatalog.getInfo mem tmpRid
  attrGetInfo := AttrCatalog.getInfo mem tmpRid
  createRel := RelCatalog.createRel mem tmpRid
  destroyRel := RelCatalog.destroyRel mem tmpRid
  QU_Select := QU_Select mem tmpRid
  QU_Join := QU_Join joinMethod mem tmpRid
  QU_Insert := fun relation attrList =>
    QU_Insert mem tmpRid data relation (attrList.map fun attr => (attr, behind))
  QU_Delete := QU_Delete mem tmpRid
  UT_Load := utilities.UT_Load
  UT_Print := utilities.UT_Print
  help := utilities.help

/-- Calls with a record of what `QU_Join` has returned. -/
abbrev Recorded := StateT (List Status) DbM

def recordJoins (calls : Calls DbM) : Calls Recorded where
  attrGetRelInfo := fun name => StateT.lift (calls.attrGetRelInfo name)
  relGetInfo := fun name => StateT.lift (calls.relGetInfo name)
  attrGetInfo := fun relation attr => StateT.lift (calls.attrGetInfo relation attr)
  createRel := fun name infos => StateT.lift (calls.createRel name infos)
  destroyRel := fun name => StateT.lift (calls.destroyRel name)
  QU_Select := fun result names attr op value =>
    StateT.lift (calls.QU_Select result names attr op value)
  QU_Join := fun result names attr1 op attr2 => do
    let status ← StateT.lift (calls.QU_Join result names attr1 op attr2)
    modify (· ++ [status])
    pure status
  QU_Insert := fun relation infos => StateT.lift (calls.QU_Insert relation infos)
  QU_Delete := fun relation attr op type value =>
    StateT.lift (calls.QU_Delete relation attr op type value)
  UT_Load := fun relation file => StateT.lift (calls.UT_Load relation file)
  UT_Print := fun relation => StateT.lift (calls.UT_Print relation)
  help := fun relation => StateT.lift (calls.help relation)

def runStatement (calls : Calls DbM) (counter : Int) (statement : NODE) :
    DbM (Except Fault Int × List Status) :=
  (interp (recordJoins calls) counter statement).run.run []

structure Logs {α : Type} (good : Status → Prop) (call : Recorded α) : Prop where
  answers : ∀ log, (∀ status ∈ log, good status) →
    Answers (call log) fun result => ∀ status ∈ result.2, good status

section Logs

variable {α β : Type} {good : Status → Prop}

theorem logs_pure (value : α) : Logs good (pure value : Recorded α) := by
  refine ⟨fun log held => ?_⟩
  exact answers_pure held

theorem logs_lift (call : DbM α) : Logs good (StateT.lift call : Recorded α) := by
  refine ⟨fun log held => ?_⟩
  apply answers_after
  intro value
  exact answers_pure held

theorem logs_bind {first : Recorded α} {next : α → Recorded β} (firstLogs : Logs good first)
    (nextLogs : ∀ value, Logs good (next value)) : Logs good (first >>= next) := by
  refine ⟨fun log held => ?_⟩
  apply answers_bind (firstLogs.answers log held)
  rintro ⟨value, log'⟩ held'
  exact (nextLogs value).answers log' held'

theorem logs_reading (read : Except Fault α) :
    Logs good (reading read : ExceptT Fault Recorded α).run := logs_pure read

theorem logs_calling {call : Recorded α} (logs : Logs good call) :
    Logs good (calling call : ExceptT Fault Recorded α).run :=
  logs_bind logs fun _ => logs_pure _

theorem logs_except_pure (value : α) :
    Logs good (pure value : ExceptT Fault Recorded α).run := logs_pure _

theorem logs_except_bind {first : ExceptT Fault Recorded α} {next : α → ExceptT Fault Recorded β}
    (firstLogs : Logs good first.run) (nextLogs : ∀ value, Logs good (next value).run) :
    Logs good (first >>= next).run := by
  apply logs_bind firstLogs
  intro result
  cases result with
  | ok value => exact nextLogs value
  | error fault => exact logs_pure _

end Logs

section Interp

variable (calls : Calls DbM) {good : Status → Prop}

theorem create_attr_info_logs (resultName : FileName) (rename : Bool) (attrs done : List AttrInfo)
    (counter : Int) :
    Logs good (createAttrInfo (recordJoins calls) resultName rename attrs done counter) := by
  induction attrs generalizing done counter with
  | nil => exact logs_pure _
  | cons attr attrs ih =>
      unfold createAttrInfo
      dsimp only
      apply logs_bind (logs_lift _)
      intro found
      cases found with
      | error _ => exact logs_pure _
      | ok desc => exact ih _ _

theorem types_match_logs (attrs : List AttrInfo) (descs : List AttrDesc) :
    Logs good (typesMatch (recordJoins calls) attrs descs) := by
  induction attrs generalizing descs with
  | nil => exact logs_pure _
  | cons attr attrs ih =>
      cases descs with
      | nil => exact logs_pure _
      | cons desc descs =>
          unfold typesMatch
          apply logs_bind (logs_lift _)
          intro found
          cases found with
          | error _ => exact logs_pure _
          | ok attrDesc =>
              dsimp only
              split
              · exact logs_pure _
              · exact ih descs

theorem prepare_result_logs (resultName : FileName) (existing : Option (List AttrDesc))
    (rename : Bool) (attrList : List AttrInfo) (counter : Int) :
    Logs good (prepareResult (recordJoins calls) resultName existing rename attrList counter) := by
  unfold prepareResult
  cases existing with
  | none =>
      apply logs_bind (create_attr_info_logs calls resultName rename attrList [] counter)
      rintro ⟨infos, counter'⟩
      cases infos with
      | none => exact logs_pure _
      | some infos =>
          apply logs_bind (logs_lift _)
          intro _
          exact logs_pure _
  | some attrs =>
      dsimp only
      split
      · exact logs_pure _
      · apply logs_bind (types_match_logs calls attrList attrs)
        intro _
        exact logs_pure _

theorem finish_query_logs (resultName : FileName) :
    Logs good (finishQuery (recordJoins calls) resultName) := by
  unfold finishQuery
  repeat' first
    | exact logs_pure _ | exact logs_lift _ | apply logs_bind | intro _ | split

theorem mk_attrnames_logs (list : NODE) (relname : Option Text) :
    Logs good (mk_attrnames (recordJoins calls) list relname).run := by
  unfold mk_attrnames
  repeat' first
    | exact logs_except_pure _ | exact logs_reading _ | exact logs_calling (logs_lift _)
    | apply logs_except_bind | intro _ | split

theorem interp_select_logs (resultName : FileName) (existing : Option (List AttrDesc))
    (attrlist : NODE) (cond : Option (NODE × Operator × NODE)) (counter : Int) :
    Logs good (interpSelect (recordJoins calls) resultName existing attrlist cond counter).run := by
  unfold interpSelect
  repeat' first
    | exact logs_except_pure _ | exact logs_reading _ | exact logs_calling (logs_lift _)
    | exact mk_attrnames_logs calls _ _ | exact logs_calling (prepare_result_logs calls _ _ _ _ _)
    | exact logs_calling (finish_query_logs calls _)
    | apply logs_except_bind | intro _ | split

/-- The joins of a statement are given two attributes without type and length. -/
theorem interp_join_logs
    (joins : ∀ result names rel1 attr1 op rel2 attr2, Answers
      (calls.QU_Join result names (queryAttr rel1 attr1) op (queryAttr rel2 attr2)) good)
    (resultName : FileName) (existing : Option (List AttrDesc)) (attrlist joinattr1 : NODE)
    (op : Operator) (joinattr2 : NODE) (counter : Int) :
    Logs good (interpJoin (recordJoins calls) resultName existing attrlist joinattr1 op joinattr2
      counter).run := by
  have recorded : ∀ result names rel1 attr1 op rel2 attr2, Logs good
      ((recordJoins calls).QU_Join result names (queryAttr rel1 attr1) op
        (queryAttr rel2 attr2)) := by
    intro result names rel1 attr1 op rel2 attr2
    refine ⟨fun log held => ?_⟩
    have lifted : Answers ((StateT.lift (calls.QU_Join result names (queryAttr rel1 attr1) op
        (queryAttr rel2 attr2)) : Recorded Status) log) fun answer =>
        good answer.1 ∧ ∀ status ∈ answer.2, good status := by
      apply answers_bind (joins result names rel1 attr1 op rel2 attr2)
      intro status isGood
      exact answers_pure ⟨isGood, held⟩
    apply answers_bind lifted
    rintro ⟨status, log'⟩ ⟨isGood, held'⟩
    have appended : ∀ other ∈ log' ++ [status], good other := by
      intro other member
      rcases List.mem_append.mp member with earlier | last
      · exact held' other earlier
      · rw [List.mem_singleton.mp last]
        exact isGood
    change Answers (pure (status, log' ++ [status]) : DbM (Status × List Status)) _
    exact answers_pure appended
  unfold interpJoin
  repeat' first
    | exact logs_except_pure _ | exact logs_reading _
    | exact logs_calling (prepare_result_logs calls _ _ _ _ _)
    | exact logs_calling (finish_query_logs calls _)
    | exact logs_calling (recorded _ _ _ _ _ _ _)
    | apply logs_except_bind | intro _ | split

theorem result_relation_logs (relname : Option Text) :
    Logs good (resultRelation (recordJoins calls) relname) := by
  unfold resultRelation
  repeat' first
    | exact logs_pure _ | exact logs_lift _ | apply logs_bind | intro _ | split

/-- Whatever holds of the joins of attributes without type and length holds of every join that a
statement makes. -/
theorem interp_logs
    (joins : ∀ result names rel1 attr1 op rel2 attr2, Answers
      (calls.QU_Join result names (queryAttr rel1 attr1) op (queryAttr rel2 attr2)) good)
    (counter : Int) (statement : NODE) :
    Logs good (interp (recordJoins calls) counter statement).run := by
  cases statement with
  | QUERY relname attrlist qual =>
      unfold interp interpQuery
      repeat' first
        | exact logs_except_pure _ | exact logs_reading _
        | exact logs_calling (result_relation_logs calls _)
        | exact interp_select_logs calls _ _ _ _ _ | exact interp_join_logs calls joins _ _ _ _ _ _ _
        | apply logs_except_bind | intro _ | split
  | INSERT relname attrlist =>
      unfold interp interpInsert
      repeat' first
        | exact logs_except_pure _ | exact logs_reading _ | exact logs_calling (logs_lift _)
        | apply logs_except_bind | intro _ | split
  | DELETE relname qual =>
      unfold interp interpDelete
      repeat' first
        | exact logs_except_pure _ | exact logs_reading _ | exact logs_calling (logs_lift _)
        | apply logs_except_bind | intro _ | split
  | CREATE relname attrlist primattr =>
      unfold interp interpCreate
      repeat' first
        | exact logs_except_pure _ | exact logs_reading _ | exact logs_calling (logs_lift _)
        | apply logs_except_bind | intro _ | split
  | DESTROY relname =>
      exact logs_except_bind (logs_calling (logs_lift _)) fun _ => logs_except_pure _
  | LOAD relname filename =>
      exact logs_except_bind (logs_calling (logs_lift _)) fun _ => logs_except_pure _
  | PRINT relname =>
      exact logs_except_bind (logs_calling (logs_lift _)) fun _ => logs_except_pure _
  | HELP relname =>
      exact logs_except_bind (logs_calling (logs_lift _)) fun _ => logs_except_pure _
  | _ => exact logs_reading _

end Interp

/-- The statement makes a join that returns `ATTRTYPEMISMATCH`, and `resultName` has the tuples
it had. -/
def Refuses (calls : Calls DbM) (counter : Int) (statement : NODE) (resultName : FileName)
    (w : World) : Prop :=
  ∃ ended w', runStatement calls counter statement w = (.ok (ended, [.ATTRTYPEMISMATCH]), w') ∧
    ∀ lf, w.logical resultName = some lf → w'.logical resultName = some lf

/-- No statement is refused for the types of its join attributes, in any state of the database
and whatever types the catalog has. -/
theorem no_join_refused (mem : Uninit) (tmpRid : RID) (data behind : Memory)
    (utilities : Utilities) (counter : Int) (statement : NODE) (resultName : FileName)
    (w : World) :
    ¬Refuses (databaseCalls .NLJoin mem tmpRid data behind utilities) counter statement resultName
      w := by
  rintro ⟨ended, w', run, _⟩
  have joins : ∀ result names rel1 attr1 op rel2 attr2, Answers
      ((databaseCalls .NLJoin mem tmpRid data behind utilities).QU_Join result names
        (queryAttr rel1 attr1) op (queryAttr rel2 attr2)) Untyped := by
    intro result names rel1 attr1 op rel2 attr2
    have same : ¬TypesDiffer (queryAttr rel1 attr1) (queryAttr rel2 attr2) := by
      simp [TypesDiffer, queryAttr]
    exact nested_loops_untyped mem tmpRid result names op same
  have logs := (interp_logs _ joins counter statement).answers [] (by simp)
  exact logs.holds w _ w' run .ATTRTYPEMISMATCH (by simp) rfl

open HeapSession (zeroMemory)

def attrQC : AttrDesc :=
  { relName := [113], attrName := [99], attrOffset := 0
    attrType := Datatype.STRING.code, attrLen := 3 }

/-- The two relations, and `q` with an attribute for `s.c`. -/
def mismatchedStart : World :=
  databaseOf 8 [(ATTRCATNAME, (sampleAttrs ++ [attrQC]).map AttrDesc.toRecord),
    ([114], sampleR), ([115], sampleS), ([113], [])]

/-- `select s.c into q from r, s where r.a < s.c` -/
def mismatchedJoin : NODE :=
  .QUERY (some [113]) (.LIST (.QUALATTR (some [115]) [99]) .NULL)
    (.JOIN (.QUALATTR (some [114]) [97]) .LT (.QUALATTR (some [115]) [99]))

def noUtilities : Utilities :=
  { UT_Load := fun _ _ => pure .OK, UT_Print := fun _ => pure .OK, help := fun _ => pure .OK }

def sampleCalls : Calls DbM :=
  databaseCalls .NLJoin zeroMemory NULLRID (fun _ => 0) (fun _ => 0) noUtilities

/-- The integer `r.a` is compared with the string `s.c`: the join returns `OK`. -/
theorem mismatched_join_not_refused :
    attrRA.attrType ≠ attrSC.attrType ∧
      ¬Refuses (databaseCalls .NLJoin zeroMemory NULLRID (fun _ => 0) (fun _ => 0) noUtilities) 0
        mismatchedJoin [113] mismatchedStart := by
  refine ⟨by decide, ?_⟩
  rintro ⟨ended, w', run, _⟩
  have returned : ((runStatement (databaseCalls .NLJoin zeroMemory NULLRID (fun _ => 0)
      (fun _ => 0) noUtilities) 0 mismatchedJoin >>= fun answer => pure answer.2 :
      DbM (List Status)) mismatchedStart).1 = .ok [.OK] := by
    decide +kernel
  rw [DbM.bind_ok run] at returned
  cases returned

end PrimitiveDB

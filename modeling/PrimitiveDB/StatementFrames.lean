import PrimitiveDB.StatementRefinement

/-!
# What a statement leaves alone

A statement can change the relation that it names as its target and no other. A query without
`into` has no target: the relation that it creates for its result is gone when it ends. Proved of
the tables, this holds of the heap files of every database that represents them.
-/

namespace PrimitiveDB

open World DbM ByteMemory Relational

set_option autoImplicit false

def NODE.target : NODE → Option FileName
  | .QUERY relname _ _ => relname
  | .INSERT relname _ | .DELETE relname _ | .CREATE relname _ _ | .DESTROY relname
  | .LOAD relname _ => some relname
  | _ => none

namespace Relational

section Rules

variable {α β : Type} {name : FileName} {admits : Option Table → Prop}

/-- Wherever the query is defined, it leaves the tables as they are. -/
structure Reads (query : Query α) : Prop where
  same : ∀ db value db', query db = some (value, db') → db' = db

/-- If the table is admitted, then wherever the query is defined, it leaves the table as it is. -/
structure Spares (name : FileName) (admits : Option Table → Prop) (query : Query α) : Prop where
  same : ∀ db value db', admits (db.table name) → query db = some (value, db') →
    db'.table name = db.table name

theorem reads_pure (value : α) : Reads (pure value) where
  same := by
    intro db _ db' defined
    cases defined
    rfl

theorem bind_eq_some {query : Query α} {next : α → Query β} {db db' : Database} {value : β}
    (defined : (query >>= next) db = some (value, db')) :
    ∃ result db₁, query db = some (result, db₁) ∧ next result db₁ = some (value, db') := by
  obtain ⟨⟨result, db₁⟩, before, after⟩ := Option.bind_eq_some_iff.mp defined
  exact ⟨result, db₁, before, after⟩

theorem reads_bind {query : Query α} {next : α → Query β} (first : Reads query)
    (later : ∀ value, Reads (next value)) : Reads (query >>= next) where
  same := by
    intro db value db' defined
    obtain ⟨result, db₁, before, after⟩ := bind_eq_some defined
    exact ((later result).same db₁ value db' after).trans (first.same db result db₁ before)

theorem Reads.spares {query : Query α} (reads : Reads query) : Spares name admits query where
  same := by
    intro db value db' _ defined
    rw [reads.same db value db' defined]

theorem spares_pure (value : α) : Spares name admits (pure value : Query α) :=
  (reads_pure value).spares

theorem spares_bind {query : Query α} {next : α → Query β} (first : Spares name admits query)
    (later : ∀ value, Spares name admits (next value)) : Spares name admits (query >>= next) where
  same := by
    intro db value db' admitted defined
    obtain ⟨result, db₁, before, after⟩ := bind_eq_some defined
    have kept := first.same db result db₁ admitted before
    have admitted₁ : admits (db₁.table name) := by
      rw [kept]
      exact admitted
    exact ((later result).same db₁ value db' admitted₁ after).trans kept

theorem spares_undefined : Spares name admits (fun _ => none : Query α) where
  same := by
    intro db value db' _ defined
    cases defined

/-- A query of the tables that a statement calls, and what the statement does with its result. -/
theorem calling_bind_eq_some {query : Query α} {next : α → ExceptT Fault Query β}
    {db db' : Database} {value : Except Fault β}
    (defined : (calling query >>= next).run db = some (value, db')) :
    ∃ result db₁, query db = some (result, db₁) ∧
      (next result).run db₁ = some (value, db') := by
  obtain ⟨result, db₁, before, after⟩ := bind_eq_some defined
  obtain ⟨⟨returned, db₂⟩, called, passed⟩ := Option.bind_eq_some_iff.mp before
  cases passed
  exact ⟨returned, db₁, called, after⟩

theorem spares_run_bind {query : ExceptT Fault Query α} {next : α → ExceptT Fault Query β}
    (first : Spares name admits query.run) (later : ∀ value, Spares name admits (next value).run) :
    Spares name admits (query >>= next).run := by
  apply spares_bind first
  intro result
  cases result with
  | ok value => exact later value
  | error fault => exact spares_pure _

theorem spares_reading (read : Except Fault α) :
    Spares name admits (reading read : ExceptT Fault Query α).run := spares_pure read

theorem spares_returning (value : α) : Spares name admits (pure value : ExceptT Fault Query α).run :=
  spares_pure (Except.ok value : Except Fault α)

theorem spares_calling {query : Query α} (spares : Spares name admits query) :
    Spares name admits (calling query : ExceptT Fault Query α).run :=
  spares_bind spares fun value => spares_pure (Except.ok value : Except Fault α)

end Rules

section Functions

variable {name : FileName} {admits : Option Table → Prop}

theorem look_up_reads {α : Type} (relation : FileName) (view : Database → Except Status α) :
    Reads (lookUp relation view) where
  same := fun _ _ _ defined => (look_up_eq_some defined).1

theorem rel_get_info_reads (relation : FileName) : Reads (relGetInfo relation) :=
  look_up_reads _ _

theorem attr_get_info_reads (relName attrName : FileName) :
    Reads (attrGetInfo relName attrName) := by
  unfold attrGetInfo
  split
  · exact reads_pure _
  · exact look_up_reads _ _

theorem create_rel_spares (relation : FileName) (attrs : List AttrInfo)
    (other : relation ≠ name) : Spares name admits (createRel relation attrs) := by
  constructor
  intro db value db' _ defined
  unfold createRel at defined
  split at defined
  swap
  · cases defined
  split at defined
  · cases defined
    rfl
  split at defined
  · cases defined
    exact Function.update_of_ne other.symm _ _
  · cases defined

theorem create_rel_refused {relation : FileName} {attrs : List AttrInfo} {db db' : Database}
    {status : Status} (defined : createRel relation attrs db = some (status, db'))
    (refused : status ≠ .OK) : db' = db := by
  unfold createRel at defined
  split at defined
  swap
  · cases defined
  split at defined
  · cases defined
    rfl
  split at defined
  · cases defined
    exact absurd rfl refused
  · cases defined

theorem destroy_rel_spares (relation : FileName) (other : relation ≠ name) :
    Spares name admits (destroyRel relation) := by
  constructor
  intro db value db' _ defined
  unfold destroyRel at defined
  split_ifs at defined
  · cases defined
    rfl
  · cases defined
    rfl
  · cases defined
    exact Function.update_of_ne other.symm _ _

theorem add_rows_spares {relation : FileName} {rows : Multiset Record} {db db' : Database}
    (added : db.addRows relation rows = some db') (other : relation ≠ name) :
    db'.table name = db.table name := by
  obtain ⟨_, _, _, _, changed⟩ := Database.add_rows_eq_some added
  rw [changed, Function.update_of_ne other.symm]

theorem look_up_attrs_reads (attrs : List AttrInfo) : Reads (lookUpAttrs attrs) := by
  induction attrs with
  | nil => exact reads_pure _
  | cons attr attrs ih =>
      apply reads_bind (attr_get_info_reads _ _)
      intro found
      cases found with
      | error status => exact reads_pure _
      | ok desc =>
          apply reads_bind ih
          intro rest
          cases rest with
          | error status => exact reads_pure _
          | ok descs => exact reads_pure _

theorem put_projections_spares {result : FileName} {descs : List AttrDesc}
    {rows : Multiset Record} {db db' : Database} {status : Status}
    (defined : putProjections result descs rows db = some (status, db'))
    (other : result ≠ name) : db'.table name = db.table name :=
  add_rows_spares (put_projections_eq_some defined).2 other

theorem scan_select_spares (result : FileName) (projNames : List AttrDesc)
    (attrDesc : Option AttrDesc) (op : Operator) (filter : List Byte) (other : result ≠ name) :
    Spares name admits (ScanSelect result projNames attrDesc op filter) := by
  constructor
  intro db value db' _ defined
  obtain ⟨first, _, defined⟩ := Option.bind_eq_some_iff.mp defined
  obtain ⟨source, _, defined⟩ := Option.bind_eq_some_iff.mp defined
  split at defined
  swap
  · cases defined
  cases attrDesc with
  | none => exact put_projections_spares defined other
  | some attr =>
      obtain ⟨type, _, defined⟩ := Option.bind_eq_some_iff.mp defined
      split at defined
      · exact put_projections_spares defined other
      · cases defined

theorem qu_select_spares (result : FileName) (projNames : List AttrInfo)
    (attr : Option AttrInfo) (op : Operator) (attrValue : List Byte) (other : result ≠ name) :
    Spares name admits (QU_Select result projNames attr op attrValue) := by
  apply spares_bind ((look_up_attrs_reads projNames).spares)
  intro looked
  cases looked with
  | error status => exact spares_pure _
  | ok descs =>
      cases attr with
      | none => exact scan_select_spares _ _ _ _ _ other
      | some attr =>
          apply spares_bind ((attr_get_info_reads _ _).spares)
          intro found
          cases found with
          | error status => exact spares_pure _
          | ok attrDesc => exact scan_select_spares _ _ _ _ _ other

theorem join_scans_spares (result : FileName) (descs : List AttrDesc) (desc1 desc2 : AttrDesc)
    (op : Operator) (other : result ≠ name) :
    Spares name admits (joinScans result descs desc1 desc2 op) := by
  constructor
  intro db value db' _ defined
  obtain ⟨outer, _, defined⟩ := Option.bind_eq_some_iff.mp defined
  obtain ⟨inner, _, defined⟩ := Option.bind_eq_some_iff.mp defined
  obtain ⟨type, _, defined⟩ := Option.bind_eq_some_iff.mp defined
  split at defined
  · obtain ⟨db₁, added, same⟩ := Option.bind_eq_some_iff.mp defined
    cases same
    exact add_rows_spares added other
  · cases defined

theorem qu_nl_join_spares (result : FileName) (projNames : List AttrInfo) (attr1 : AttrInfo)
    (op : Operator) (attr2 : AttrInfo) (other : result ≠ name) :
    Spares name admits (QU_NL_Join result projNames attr1 op attr2) := by
  unfold QU_NL_Join
  split
  · exact spares_pure _
  apply spares_bind ((look_up_attrs_reads projNames).spares)
  intro looked
  cases looked with
  | error status => exact spares_pure _
  | ok descs =>
      apply spares_bind ((attr_get_info_reads _ _).spares)
      intro found1
      cases found1 with
      | error status => exact spares_pure _
      | ok desc1 =>
          apply spares_bind ((attr_get_info_reads _ _).spares)
          intro found2
          cases found2 with
          | error status => exact spares_pure _
          | ok desc2 => exact join_scans_spares _ _ _ _ _ other

theorem qu_join_spares (joinMethod : JoinType) (result : FileName) (projNames : List AttrInfo)
    (attr1 : AttrInfo) (op : Operator) (attr2 : AttrInfo) (other : result ≠ name) :
    Spares name admits (QU_Join joinMethod result projNames attr1 op attr2) := by
  unfold QU_Join
  split
  · exact qu_nl_join_spares result projNames attr1 op attr2 other
  · exact spares_undefined

theorem qu_insert_spares (data : Memory) (relation : FileName)
    (attrList : List (AttrInfo × Memory)) (other : relation ≠ name) :
    Spares name admits (QU_Insert data relation attrList) := by
  constructor
  intro db value db' _ defined
  unfold QU_Insert at defined
  split_ifs at defined with missing user
  · cases defined
    rfl
  · split at defined
    · cases defined
      rfl
    · split_ifs at defined
      · obtain ⟨db₁, added, same⟩ := Option.bind_eq_some_iff.mp defined
        cases same
        exact add_rows_spares added other
      · cases defined
        rfl

theorem keep_rows_spares {relation : FileName} {keeps : Record → Prop} [DecidablePred keeps]
    {db db' : Database} (kept : db.keepRows relation keeps = some db')
    (other : relation ≠ name) : db'.table name = db.table name := by
  obtain ⟨_, _, changed⟩ := Database.keep_rows_eq_some kept
  rw [changed, Function.update_of_ne other.symm]

theorem qu_delete_spares (relation attrName : FileName) (op : Operator) (type : Datatype)
    (attrValue : List Byte) (other : relation ≠ name) :
    Spares name admits (QU_Delete relation attrName op type attrValue) := by
  constructor
  intro db value db' _ defined
  obtain ⟨table, _, defined⟩ := Option.bind_eq_some_iff.mp defined
  split at defined
  · obtain ⟨db₁, kept, same⟩ := Option.bind_eq_some_iff.mp defined
    cases same
    exact keep_rows_spares kept other
  · split at defined
    · cases defined
      rfl
    · split at defined
      · obtain ⟨db₁, kept, same⟩ := Option.bind_eq_some_iff.mp defined
        cases same
        exact keep_rows_spares kept other
      · cases defined

theorem ut_load_spares (files : FileName → Option DataFile) (relation fileName : FileName)
    (other : relation ≠ name) : Spares name admits (UT_Load files relation fileName) := by
  constructor
  intro db value db' _ defined
  unfold UT_Load at defined
  split at defined
  · cases defined
    rfl
  split at defined
  · cases defined
    rfl
  split at defined
  swap
  · cases defined
  split at defined
  · cases defined
    rfl
  split at defined
  · obtain ⟨db₁, added, same⟩ := Option.bind_eq_some_iff.mp defined
    cases same
    exact add_rows_spares added other
  · cases defined

theorem scan_all_reads (relation : FileName) (attrs : List AttrDesc) :
    Reads (scanAll relation attrs) := by
  constructor
  intro db value db' defined
  unfold scanAll at defined
  split_ifs at defined
  cases defined
  rfl

theorem print_utility_reads (relation : FileName) : Reads (printUtility relation) := by
  apply reads_bind (look_up_reads _ _)
  intro looked
  cases looked with
  | error status => exact reads_pure _
  | ok rd =>
      apply reads_bind (look_up_reads _ _)
      intro described
      cases described with
      | error status => exact reads_pure _
      | ok descs => exact scan_all_reads _ _

theorem ut_print_reads (relation : FileName) : Reads (UT_Print relation) :=
  reads_bind (print_utility_reads relation) fun _ => reads_pure _

theorem help_utility_reads (relation : FileName) : Reads (helpUtility relation) := by
  unfold helpUtility
  split
  · exact print_utility_reads RELCATNAME
  apply reads_bind (look_up_reads _ _)
  intro looked
  cases looked with
  | error status => exact reads_pure _
  | ok rd =>
      apply reads_bind (look_up_reads _ _)
      intro described
      cases described with
      | error status => exact reads_pure _
      | ok descs => exact reads_pure _

theorem help_reads (relation : FileName) : Reads (help relation) :=
  reads_bind (help_utility_reads relation) fun _ => reads_pure _

end Functions

section Queries

variable {name : FileName} {admits : Option Table → Prop} (joinMethod : JoinType)
  (around : Surroundings)

theorem create_attr_info_reads (resultName : FileName) (rename : Bool)
    (attrs done : List AttrInfo) (counter : Int) :
    Reads (createAttrInfo (relationalCalls joinMethod around) resultName rename attrs done
      counter) := by
  induction attrs generalizing done counter with
  | nil => exact reads_pure _
  | cons attr attrs ih =>
      apply reads_bind (attr_get_info_reads _ _)
      intro found
      cases found with
      | error status => exact reads_pure _
      | ok desc => exact ih _ _

theorem types_match_reads (attrs : List AttrInfo) (descs : List AttrDesc) :
    Reads (typesMatch (relationalCalls joinMethod around) attrs descs) := by
  induction attrs generalizing descs with
  | nil => exact reads_pure _
  | cons attr attrs ih =>
      cases descs with
      | nil => exact reads_pure _
      | cons desc descs =>
          apply reads_bind (attr_get_info_reads _ _)
          intro found
          cases found with
          | error status => exact reads_pure _
          | ok attrDesc =>
              dsimp only
              split
              · exact reads_pure _
              · exact ih descs

theorem prepare_result_spares {resultName : FileName} (existing : Option (List AttrDesc))
    (rename : Bool) (attrList : List AttrInfo) (counter : Int) (other : resultName ≠ name) :
    Spares name admits (prepareResult (relationalCalls joinMethod around) resultName existing
      rename attrList counter) := by
  cases existing with
  | none =>
      apply spares_bind (create_attr_info_reads joinMethod around _ _ _ _ _).spares
      rintro ⟨infos, counter'⟩
      cases infos with
      | none => exact spares_pure _
      | some infos =>
          apply spares_bind (create_rel_spares _ _ other)
          intro status
          exact spares_pure _
  | some attrs =>
      unfold prepareResult
      dsimp only
      split
      · exact spares_pure _
      · apply spares_bind (types_match_reads joinMethod around _ _).spares
        intro fits
        exact spares_pure _

theorem prepare_result_refused {resultName : FileName} {rename : Bool}
    {attrList : List AttrInfo} {counter counter' : Int} {db db' : Database}
    (defined : prepareResult (relationalCalls joinMethod around) resultName none rename attrList
      counter db = some ((false, counter'), db')) : db' = db := by
  unfold prepareResult at defined
  obtain ⟨⟨infos, counter₁⟩, db₁, before, after⟩ := bind_eq_some defined
  have same := (create_attr_info_reads joinMethod around _ _ _ _ _).same _ _ _ before
  cases infos with
  | none =>
      cases after
      exact same
  | some infos =>
      obtain ⟨status, db₂, created, returned⟩ := bind_eq_some after
      obtain ⟨answer, rfl⟩ := Prod.mk.inj (Option.some.inj returned)
      have refused := of_decide_eq_false (Prod.mk.inj answer).1
      rw [create_rel_refused created refused, same]

theorem finish_query_spares {resultName : FileName} (other : resultName ≠ name) :
    Spares name admits (finishQuery (relationalCalls joinMethod around) resultName) := by
  unfold finishQuery
  split
  · apply spares_bind (ut_print_reads _).spares
    intro _
    apply spares_bind (destroy_rel_spares _ other)
    intro _
    exact spares_pure _
  · exact spares_pure _

theorem finish_query_ends {db db' : Database} {value : Unit}
    (defined : finishQuery (relationalCalls joinMethod around) TMPRESULT db =
      some (value, db')) : db'.table TMPRESULT = none := by
  unfold finishQuery at defined
  rw [if_pos rfl] at defined
  obtain ⟨printed, db₁, _, after⟩ := bind_eq_some defined
  obtain ⟨status, db₂, destroyed, returned⟩ := bind_eq_some after
  cases returned
  have user : UserName TMPRESULT := by decide
  obtain ⟨proper, notRel, notAttr⟩ := user
  change destroyRel TMPRESULT db₁ = _ at destroyed
  unfold destroyRel at destroyed
  rw [if_neg (not_or.mpr ⟨proper.nonempty, not_or.mpr ⟨notRel, notAttr⟩⟩), if_pos proper]
    at destroyed
  split_ifs at destroyed with missing
  · cases destroyed
    exact (Database.describe_nil_iff.mp missing).1
  · cases destroyed
    exact Function.update_self TMPRESULT none db₁.table

def Elsewhere (name : FileName) (admits : Option Table → Prop) (resultName : FileName)
    (existing : Option (List AttrDesc)) : Prop :=
  resultName ≠ name ∨
    resultName = TMPRESULT ∧ existing = none ∧ ∀ table, admits table → table = none

theorem prepared_spares {resultName : FileName} {existing : Option (List AttrDesc)}
    (elsewhere : Elsewhere name admits resultName existing) (rename : Bool)
    (attrList : List AttrInfo) (counter : Int) {fill : Query Status}
    (spares : resultName ≠ name → Spares name admits fill) :
    Spares name admits (do
      let (ready, counter) ← calling (prepareResult (relationalCalls joinMethod around) resultName
        existing rename attrList counter)
      if ready then do
        let _ ← calling fill
        calling (finishQuery (relationalCalls joinMethod around) resultName)
        pure counter
      else pure counter : ExceptT Fault Query Int).run := by
  by_cases other : resultName ≠ name
  · apply spares_run_bind
      (spares_calling (prepare_result_spares joinMethod around _ _ _ _ other))
    rintro ⟨ready, counter'⟩
    cases ready with
    | false => exact spares_returning _
    | true =>
        apply spares_run_bind (spares_calling (spares other))
        intro _
        apply spares_run_bind (spares_calling (finish_query_spares joinMethod around other))
        intro _
        exact spares_returning _
  obtain ⟨rfl, rfl, missing⟩ := elsewhere.resolve_left other
  constructor
  intro db value db' admitted defined
  rw [missing _ admitted]
  obtain rfl := not_not.mp other
  obtain ⟨⟨ready, counter'⟩, db₁, prepared, after⟩ := calling_bind_eq_some defined
  cases ready with
  | false =>
      cases after
      rw [prepare_result_refused joinMethod around prepared]
      exact missing _ admitted
  | true =>
      obtain ⟨status, db₂, _, after⟩ := calling_bind_eq_some after
      obtain ⟨_, db₃, finished, after⟩ := calling_bind_eq_some after
      cases after
      exact finish_query_ends joinMethod around finished

theorem attrnames_spares (list : NODE) (relname : Option Text) :
    Spares name admits (mk_attrnames (relationalCalls joinMethod around) list relname).run := by
  unfold mk_attrnames
  repeat' first
    | exact spares_returning _ | exact spares_reading _
    | exact spares_calling (look_up_reads _ _).spares
    | apply spares_run_bind | intro _ | split

theorem interp_select_spares {resultName : FileName} {existing : Option (List AttrDesc)}
    (elsewhere : Elsewhere name admits resultName existing) (attrlist : NODE)
    (cond : Option (NODE × Operator × NODE)) (counter : Int) :
    Spares name admits (interpSelect (relationalCalls joinMethod around) resultName existing
      attrlist cond counter).run := by
  unfold interpSelect
  repeat' first
    | exact spares_returning _ | exact spares_reading _
    | exact attrnames_spares joinMethod around _ _
    | exact prepared_spares joinMethod around elsewhere _ _ _ (qu_select_spares _ _ _ _ _)
    | apply spares_run_bind | intro _ | split

theorem interp_join_spares {resultName : FileName} {existing : Option (List AttrDesc)}
    (elsewhere : Elsewhere name admits resultName existing) (attrlist joinattr1 : NODE)
    (op : Operator) (joinattr2 : NODE) (counter : Int) :
    Spares name admits (interpJoin (relationalCalls joinMethod around) resultName existing
      attrlist joinattr1 op joinattr2 counter).run := by
  unfold interpJoin
  repeat' first
    | exact spares_returning _ | exact spares_reading _
    | exact prepared_spares joinMethod around elsewhere _ _ _ (qu_join_spares _ _ _ _ _ _)
    | apply spares_run_bind | intro _ | split

theorem result_relation_reads (relname : Option Text) :
    Reads (resultRelation (relationalCalls joinMethod around) relname) := by
  unfold resultRelation
  cases relname with
  | none =>
      apply reads_bind (rel_get_info_reads TMPRESULT)
      intro found
      cases found <;> exact reads_pure _
  | some resultName =>
      apply reads_bind (look_up_reads _ _)
      intro found
      cases found <;> exact reads_pure _

theorem temporary_missing {status : Status} {db db' : Database}
    (looked : relGetInfo TMPRESULT db = some (.error status, db')) :
    db.table TMPRESULT = none := by
  obtain ⟨_, ⟨empty, _⟩ | ⟨_, viewed⟩⟩ := look_up_eq_some looked
  · cases empty
  · split_ifs at viewed with missing
    exact (Database.describe_nil_iff.mp missing).1

/-- A query puts its result into its target, or creates a relation for it. -/
theorem result_relation_elsewhere {relname : Option Text} (other : relname ≠ some name)
    {resultName : FileName} {existing : Option (List AttrDesc)} {db db' : Database}
    (defined : resultRelation (relationalCalls joinMethod around) relname db =
      some (some (resultName, existing), db')) :
    Elsewhere name (· = db.table name) resultName existing := by
  cases relname with
  | some target =>
      left
      unfold resultRelation at defined
      obtain ⟨found, db₁, _, after⟩ := bind_eq_some defined
      cases found with
      | ok attrs =>
          cases after
          exact fun same => other (congrArg some same)
      | error status =>
          obtain ⟨chosen, _⟩ := Prod.mk.inj (Option.some.inj after)
          split_ifs at chosen
          cases chosen
          exact fun same => other (congrArg some same)
  | none =>
      unfold resultRelation at defined
      obtain ⟨found, db₁, looked, after⟩ := bind_eq_some defined
      cases found with
      | ok rd => cases after
      | error status =>
          obtain ⟨chosen, _⟩ := Prod.mk.inj (Option.some.inj after)
          split_ifs at chosen
          cases chosen
          by_cases other : TMPRESULT ≠ name
          · exact .inl other
          have missing := temporary_missing looked
          rw [not_not.mp other] at missing
          exact .inr ⟨rfl, rfl, fun table same => same.trans missing⟩

theorem interp_query_spares {relname : Option Text} (other : relname ≠ some name)
    (attrlist qual : NODE) (counter : Int) :
    Spares name admits
      (interpQuery (relationalCalls joinMethod around) relname attrlist qual counter).run := by
  constructor
  intro db value db' _ defined
  unfold interpQuery at defined
  obtain ⟨chosen, db₁, related, after⟩ := calling_bind_eq_some defined
  obtain rfl := (result_relation_reads joinMethod around relname).same _ _ _ related
  cases chosen with
  | none =>
      cases after
      rfl
  | some chosen =>
      obtain ⟨resultName, existing⟩ := chosen
      have elsewhere := result_relation_elsewhere joinMethod around other related
      suffices spares : Spares name (· = db₁.table name) (do
          if ¬qual.isNode then
            interpSelect (relationalCalls joinMethod around) resultName existing attrlist none
              counter
          else if (← reading qual.kind) = .N_SELECT then do
            let cond ← reading qual.asSELECT
            interpSelect (relationalCalls joinMethod around) resultName existing attrlist
              (some cond) counter
          else do
            let joined ← reading qual.asJOIN
            interpJoin (relationalCalls joinMethod around) resultName existing attrlist joined.1
              joined.2.1 joined.2.2 counter : ExceptT Fault Query Int).run from
        spares.same db₁ value db' rfl after
      repeat' first
        | exact spares_reading _
        | exact interp_select_spares joinMethod around elsewhere _ _ _
        | exact interp_join_spares joinMethod around elsewhere _ _ _ _ _
        | apply spares_run_bind | intro _ | split

theorem interp_spares {tree : NODE} (other : tree.target ≠ some name) (counter : Int) :
    Spares name admits (interp (relationalCalls joinMethod around) counter tree).run := by
  cases tree with
  | QUERY relname attrlist qual =>
      exact interp_query_spares joinMethod around other attrlist qual counter
  | INSERT relname attrlist =>
      unfold interp interpInsert
      have elsewhere : relname ≠ name := fun same => other (congrArg some same)
      repeat' first
        | exact spares_returning _ | exact spares_reading _
        | exact spares_calling (qu_insert_spares _ _ _ elsewhere)
        | apply spares_run_bind | intro _ | split
  | DELETE relname qual =>
      unfold interp interpDelete
      have elsewhere : relname ≠ name := fun same => other (congrArg some same)
      repeat' first
        | exact spares_returning _ | exact spares_reading _
        | exact spares_calling (qu_delete_spares _ _ _ _ _ elsewhere)
        | apply spares_run_bind | intro _ | split
  | CREATE relname attrlist primattr =>
      unfold interp interpCreate
      have elsewhere : relname ≠ name := fun same => other (congrArg some same)
      repeat' first
        | exact spares_returning _ | exact spares_reading _
        | exact spares_calling (create_rel_spares _ _ elsewhere)
        | apply spares_run_bind | intro _ | split
  | DESTROY relname =>
      have elsewhere : relname ≠ name := fun same => other (congrArg some same)
      exact spares_run_bind (spares_calling (destroy_rel_spares _ elsewhere))
        fun _ => spares_returning _
  | LOAD relname filename =>
      have elsewhere : relname ≠ name := fun same => other (congrArg some same)
      exact spares_run_bind (spares_calling (ut_load_spares _ _ _ elsewhere))
        fun _ => spares_returning _
  | PRINT relname =>
      exact spares_run_bind (spares_calling (ut_print_reads _).spares)
        fun _ => spares_returning _
  | HELP relname =>
      exact spares_run_bind (spares_calling (help_reads _).spares) fun _ => spares_returning _
  | _ => exact spares_reading _

end Queries

theorem interp_all_spares {name : FileName} {admits : Option Table → Prop}
    (joinMethod : JoinType) (counter : Int) {statements : List (Surroundings × NODE)}
    (others : ∀ statement ∈ statements, statement.2.target ≠ some name) :
    Spares name admits (interpAll (relationalCalls joinMethod) counter statements).run := by
  induction statements generalizing counter with
  | nil => exact spares_returning _
  | cons statement statements ih =>
      obtain ⟨around, tree⟩ := statement
      apply spares_run_bind
      · exact interp_spares joinMethod around (others _ List.mem_cons_self) counter
      · intro counter
        exact ih counter fun statement later => others statement (List.mem_cons_of_mem _ later)

end Relational

/-- Statements with other targets leave the tuples of a relation in its heap file, and make no
file for a relation that is not there. -/
theorem untargeted_tables_stay {w w' : World} {pins : List Pin} {opens : List FilePtr}
    {db db' : Database} {name : FileName} (represents : w.Represents pins opens db)
    (joinMethod : JoinType) (counter : Int) {statements : List (Surroundings × NODE)}
    (others : ∀ statement ∈ statements, statement.2.target ≠ some name)
    {result : Except Fault Int} (defined : interpAll (relationalCalls joinMethod) counter
      statements db = some (result, db')) {outcome : Outcome (Except Fault Int)}
    (run : interpAll (storedCalls joinMethod) counter statements w = (outcome, w'))
    (smooth : w'.bufFailed = false) :
    (∀ table, db.table name = some table → ∃ lf chain, w'.HoldsTable name table lf chain) ∧
      (UserName name → db.table name = none → w'.logical name = none) := by
  obtain ⟨_, _, _, represents'⟩ := ((interp_all_refines joinMethod counter
    statements).refines w db represents result db' defined).result run smooth
  have spares : Relational.Spares name (fun _ => True) _ :=
    interp_all_spares joinMethod counter others
  have same := spares.same db result db' trivial defined
  constructor
  · intro table found
    exact represents'.tables name table (same.trans found)
  · intro user missing
    exact represents'.absent name user (same.trans missing)

def createU : NODE := .CREATE [117] (.LIST (.ATTRTYPE [97] (105 - 128)) .NULL) .NULL

def selectT (n : Int) : NODE :=
  .QUERY none (.LIST (.QUALATTR (some [116]) [97]) .NULL)
    (.SELECT (.QUALATTR (some [116]) [97]) .LT (.VALUE (.INTEGER n)))

def besideT : List (Surroundings × NODE) :=
  [createU, selectT 9].map fun tree => (zeroSurroundings, tree)

theorem untargeted_tables_stay_session :
    ∃ (w : World) (table : Relational.Table), (∃ lf chain, w.HoldsTable [116] table lf chain) ∧
      table.rows = {[7, 0, 0, 0]} ∧ w.logical TMPRESULT = none := by
  obtain ⟨outcome₁, w₁, outcome, w', run₁, run, smooth⟩ : ∃ outcome₁ w₁ outcome w',
      interpAll (storedCalls .NLJoin) 0
          [(zeroSurroundings, createT), (zeroSurroundings, insertT 7)] newDatabase =
        (outcome₁, w₁) ∧
      interpAll (storedCalls .NLJoin) 0 besideT w₁ = (outcome, w') ∧
      w'.bufFailed = false := ⟨_, _, _, _, Prod.mk.eta.symm, Prod.mk.eta.symm, by decide +kernel⟩
  obtain ⟨db₁, defined₁, there, missing, ⟨answer, db'⟩, defined, rfl⟩ : ∃ db₁,
      interpAll (relationalCalls .NLJoin) 0
          [(zeroSurroundings, createT), (zeroSurroundings, insertT 7)] Database.empty =
        some (.ok 0, db₁) ∧
      (db₁.table [116]).map Relational.Table.rows = some {[7, 0, 0, 0]} ∧
      (db₁.table TMPRESULT).isNone ∧
      ∃ ends ∈ interpAll (relationalCalls .NLJoin) 0 besideT db₁,
        ends.1 = .ok 0 := Relational.exists_of_holds (by decide +kernel)
  obtain ⟨table, found, rows⟩ := Option.map_eq_some_iff.mp there
  have refines : Refines [] [] _ _ :=
    interp_all_refines .NLJoin 0 [(zeroSurroundings, createT), (zeroSurroundings, insertT 7)]
  have later : Refines [] [] _ _ := interp_all_refines .NLJoin 0 besideT
  obtain ⟨_, _, _, represents₁⟩ := (refines.refines newDatabase Database.empty
    new_database_represents _ _ defined₁).result run₁ (later.early run smooth)
  have others : ∀ statement ∈ besideT,
      statement.2.target ≠ some [116] ∧ statement.2.target ≠ some TMPRESULT := by
    simp only [besideT, List.map_cons, List.map_nil, List.forall_mem_cons]
    exact ⟨by decide, by decide, by simp⟩
  have stays := (untargeted_tables_stay represents₁ .NLJoin 0
    (fun statement listed => (others statement listed).1) defined run smooth).1
  have vanishes := (untargeted_tables_stay represents₁ .NLJoin 0
    (fun statement listed => (others statement listed).2) defined run smooth).2
  exact ⟨w', table, stays table found, rows,
    vanishes (by decide) (Option.isNone_iff_eq_none.mp missing)⟩

end PrimitiveDB

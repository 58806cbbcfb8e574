import PrimitiveDB.QueryRefinement

/-!
# Statements refine the tables

With the deletions and the printing utilities every function that `interp` calls refines the
function of the tables with the same name. So does `interp`, whatever tree it is given, and so
does every sequence of statements.
-/

namespace PrimitiveDB

open World DbM ByteMemory Relational

set_option autoImplicit false

variable {pins : List Pin} {opens : List FilePtr}

theorem qu_delete_keeps (mem : Uninit) (tmpRid : RID) (relation attrName : FileName)
    (op : Operator) (type : Datatype) (attrValue : List Byte) :
    KeepsFlag (QU_Delete mem tmpRid relation attrName op type attrValue) := by
  unfold QU_Delete
  repeat' first
    | exact keeps_pure _ | exact keeps_crash | exact HeapFileScan.new_keeps _ _
    | exact get_info_keeps _ _ _ _ | exact delete_matching_keeps _ _
    | exact HeapFileScan.delete_keeps _
    | apply keeps_bind | intro _ | split

section Delete

variable {w w₀ w₁ : World} {db db' : Database} {relation : FileName} {table : Relational.Table}
  {lf : LogicalFile} {chain : List Int} {scan : HeapFileScan}

/-- A scan that has been constructed and has only looked things up. -/
structure World.Begun (w w₁ : World) (scan : HeapFileScan) (pins : List Pin)
    (opens : List FilePtr) (relation : FileName) (lf : LogicalFile) (chain : List Int) : Prop where
  scanAt : w₁.ScanAt scan pins opens relation lf chain (lf.rids chain)
  header : scan.headerPageNo = lf.firstPage
  logical : w₁.logical = w.logical
  names : ∀ file ∈ opens, w₁.nameOf file = w.nameOf file

theorem World.Represents.delete_rest (represents : w.Represents pins opens db)
    (found : db.table relation = some table) (holds : w.HoldsTable relation table lf chain)
    (begun : w.Begun w₁ scan pins opens relation lf chain) (tmpRid : RID)
    {keeps : Record → Prop} [DecidablePred keeps]
    (agree : ∀ rec ∈ table.rows, (!ScanFilter.matchRec scan.filter rec) = true ↔ keeps rec)
    (kept : db.keepRows relation keeps = some db') :
    Smoothly (do
      let (status, scan) ← deleteMatching tmpRid scan
      scan.delete
      pure status) w₁ fun status w' => status = .OK ∧ w'.Represents pins opens db' := by
  apply smoothly_bind
  · intro ends
    repeat' first
      | exact keeps_pure _ | exact HeapFileScan.delete_keeps _ | apply keeps_bind | intro _
  · apply (begun.scanAt.delete_all tmpRid).mono
    rintro ⟨status, scan'⟩ w₂ ⟨lf', rfl, ended, _, header, touches, purged, first⟩
    obtain ⟨w₃, deleted, storage, logical, names, _⟩ := ended.delete represents.owned
    apply smoothly_bind_eq deleted
    apply smoothly_pure
    have changed : w₃.logical = Function.update w.logical relation (some lf') := by
      rw [logical, touches.logical, begun.logical]
    have formed : lf'.HeapFormed lf'.firstPage chain := by
      rw [first, ← begun.header]
      dsimp only at header
      rw [← header]
      exact ended.formed
    obtain ⟨table', there, updated⟩ := Database.keep_rows_eq_some kept
    rw [found] at there
    cases there
    refine ⟨rfl, represents.changed storage ?_ found changed ⟨⟨?_, formed⟩, ?_⟩ updated rfl⟩
    · intro file member
      rw [names file member, touches.names, begun.names file member]
    · rw [changed, Function.update_self]
    · rw [purged.tuples begun.scanAt.formed.nodup]
      exact coe_filter_of_forall holds.rows agree

theorem qu_delete_refines (mem : Uninit) (tmpRid : RID) (relation attrName : FileName)
    (op : Operator) (type : Datatype) (attrValue : List Byte) :
    Refines pins opens (QU_Delete mem tmpRid relation attrName op type attrValue)
      (Relational.QU_Delete relation attrName op type attrValue) where
  keeps := qu_delete_keeps mem tmpRid relation attrName op type attrValue
  refines := by
    intro w db represents value db' defined
    obtain ⟨table, found, defined⟩ := Option.bind_eq_some_iff.mp defined
    obtain ⟨lf, chain, holds⟩ := represents.tables relation table found
    have user := db.user relation table found
    unfold QU_Delete
    apply smoothly_bind
    · intro ends
      repeat' first
        | exact keeps_pure _ | exact keeps_crash | exact get_info_keeps _ _ _ _
        | exact delete_matching_keeps _ _ | exact HeapFileScan.delete_keeps _
        | apply keeps_bind | intro _ | split
    apply (represents.storage.new_scan holds.stores.logical holds.stores.formed user.1.nonempty
      mem).mono
    rintro ends w₁ ⟨scan, rfl, scanAt, header, _, constructs⟩
    dsimp only
    by_cases whole : attrName = []
    · rw [if_pos whole] at defined
      obtain ⟨db₁, kept, same⟩ := Option.bind_eq_some_iff.mp defined
      cases same
      rw [if_pos whole, start_all]
      apply smoothly_bind_eq rfl
      dsimp only
      rw [if_neg (not_not.mpr rfl)]
      refine represents.delete_rest found holds ⟨scanAt.start none, header, constructs.logical,
        constructs.names⟩ tmpRid ?_ kept
      intro rec _
      exact ⟨fun kept => absurd kept (by simp [ScanFilter.matchRec]), False.elim⟩
    rw [if_neg whole] at defined
    rw [if_neg whole]
    obtain ⟨attrLf, attrChain, attrStores, attrSized, described⟩ := represents.attrCat
    have attrStores₁ : w₁.Stores ATTRCATNAME attrLf attrChain := by
      refine ⟨?_, attrStores.formed⟩
      rw [constructs.logical]
      exact attrStores.logical
    have pinsOwned : ∀ pin ∈ scan.toHeapFile.pins ++ pins, pin.file ∈ scan.filePtr :: opens :=
      HeapFile.pins_owned represents.owned
    apply smoothly_bind
    · intro started
      repeat' first
        | exact keeps_pure _ | exact delete_matching_keeps _ _ | exact HeapFileScan.delete_keeps _
        | apply keeps_bind | intro _ | split
    -- the lookup leaves the scan where it is
    apply smoothly_bind
    · intro looked
      split <;> exact keeps_pure _
    apply (scanAt.holding.storage.attr_get_info pinsOwned attrStores₁ attrSized user.1 whole mem
      tmpRid).mono
    rintro looked w₂ ⟨undisturbed, rfl⟩
    have logical₂ : w₂.logical = w.logical := undisturbed.logical.trans constructs.logical
    have names₂ : ∀ file ∈ opens, w₂.nameOf file = w.nameOf file := by
      intro file member
      rw [undisturbed.names file (List.mem_cons_of_mem _ member), constructs.names file member]
    have scanAt₂ : w₂.ScanAt scan pins opens relation lf chain (lf.rids chain) := by
      refine ⟨⟨undisturbed.storage, ?_, ?_⟩, scanAt.formed, scanAt.pinned, scanAt.stands⟩
      · exact (undisturbed.names _ (List.mem_cons_self ..)).trans scanAt.holding.named
      · rw [undisturbed.logical]
        exact scanAt.holding.logical
    unfold AttrCatalog.lookup
    rw [described relation user.1, Database.describe_table found]
    cases attr : table.descs.find? fun desc => desc.attrName = attrName with
    | none =>
        rw [attr] at defined
        cases defined
        obtain ⟨w₃, deleted, storage, logical, names, _⟩ := scanAt₂.delete represents.owned
        apply smoothly_pure
        dsimp only
        rw [if_pos (by decide)]
        apply smoothly_bind_eq deleted
        apply smoothly_pure
        refine ⟨rfl, represents.undisturbed ⟨storage, logical.trans logical₂, ?_⟩⟩
        intro file member
        rw [names file member, names₂ file member]
    | some desc =>
        rw [attr] at defined
        dsimp only at defined
        by_cases comparable : table.Comparable desc type op attrValue
        swap
        · rw [if_neg comparable] at defined
          cases defined
        rw [if_pos comparable] at defined
        obtain ⟨db₁, kept, same⟩ := Option.bind_eq_some_iff.mp defined
        cases same
        have proper := table.proper_of_mem comparable.1 comparable.2.1
        apply smoothly_pure
        rw [start_literal_as proper proper.scannable attrValue op]
        dsimp only
        rw [if_neg (not_not.mpr rfl)]
        refine represents.delete_rest found holds ⟨scanAt₂.start
          (some (desc.predicate type op attrValue)), header, logical₂, names₂⟩ tmpRid ?_ kept
        intro rec member
        rw [← comparable.matches member, Bool.not_eq_true', Bool.not_eq_true]

end Delete

/-- Whatever is described has a heap file, with the tuples of the table unless it is a catalog. -/
theorem World.Represents.stored {w : World} {db : Database} {name : FileName}
    (represents : w.Represents pins opens db) (described : db.describe name ≠ []) :
    name ≠ [] ∧ ∃ lf chain, w.Stores name lf chain ∧
      (if name = RELCATNAME ∨ name = ATTRCATNAME then none
        else some (lf.tuples chain : Multiset Record)) =
          (db.table name).map Relational.Table.rows := by
  by_cases catalog : name = RELCATNAME ∨ name = ATTRCATNAME
  · have missing : db.table name = none := by
      rw [Option.eq_none_iff_forall_ne_some]
      intro table found
      obtain ⟨_, notRel, notAttr⟩ := db.user name table found
      exact catalog.elim notRel notAttr
    rw [missing]
    rcases catalog with rfl | rfl
    · obtain ⟨lf, chain, stores, _⟩ := represents.relCat
      exact ⟨by decide, lf, chain, stores, if_pos (.inl rfl)⟩
    · obtain ⟨lf, chain, stores, _⟩ := represents.attrCat
      exact ⟨by decide, lf, chain, stores, if_pos (.inr rfl)⟩
  · obtain ⟨isRel, isAttr⟩ := not_or.mp catalog
    obtain ⟨table, found⟩ : ∃ table, db.table name = some table := by
      rw [← Option.ne_none_iff_exists']
      exact fun missing => described (Database.describe_nil_iff.mpr ⟨missing, isRel, isAttr⟩)
    obtain ⟨lf, chain, stores, rows⟩ := represents.tables name table found
    refine ⟨(db.user name table found).1.nonempty, lf, chain, stores, ?_⟩
    rw [if_neg catalog, found, rows]
    rfl

/-- What is shown of an output: the tuples of a catalog are not, those of a table in no order. -/
def Output.shown : Output → Shown
  | .tuples relName attrs recs =>
      .tuples relName attrs (if relName = RELCATNAME ∨ relName = ATTRCATNAME then none
        else some (recs : Multiset Record))
  | .attributes relation attrs => .attributes relation attrs

def shows (call : DbM (Status × List Output)) : DbM (Status × List Shown) := do
  let (status, outputs) ← call
  pure (status, outputs.map Output.shown)

theorem shows_bind {α : Type} (call : DbM α) (next : α → DbM (Status × List Output)) :
    shows (call >>= next) = call >>= fun value => shows (next value) :=
  DbM.bind_assoc _ _ _

theorem status_of_shows (call : DbM (Status × List Output)) :
    (do
      let (status, _) ← call
      pure status) = shows call >>= fun ends => pure ends.1 := by
  unfold shows
  rw [DbM.bind_assoc]
  rfl

theorem scan_all_refines (mem : Uninit) (tmpRid : RID) (relation : FileName)
    (attrs : List AttrDesc) :
    Refines pins opens (shows (printRelation mem tmpRid relation attrs))
      (scanAll relation attrs) := by
  apply refines_of_undisturbed
  · exact keeps_bind (print_relation_keeps mem tmpRid relation attrs) fun _ => keeps_pure _
  intro w db represents value db' defined
  unfold scanAll at defined
  split_ifs at defined with nothing
  cases defined
  obtain ⟨named, lf, chain, stores, rows⟩ := represents.stored nothing
  refine ⟨rfl, ?_⟩
  apply smoothly_bind
  · exact fun _ => keeps_pure _
  · apply (represents.storage.print_relation represents.owned stores named attrs mem tmpRid).mono
    rintro _ w' ⟨rfl, undisturbed⟩
    apply smoothly_pure
    rw [← rows]
    exact ⟨rfl, undisturbed⟩

theorem print_utility_refines (mem : Uninit) (tmpRid : RID) (relation : FileName) :
    Refines pins opens (shows (printUtility mem tmpRid relation))
      (Relational.printUtility relation) := by
  unfold printUtility
  rw [shows_bind]
  apply refines_bind (rel_get_info_refines mem tmpRid _)
  intro looked
  cases looked with
  | error status => exact refines_pure _
  | ok rd =>
      dsimp only
      rw [shows_bind]
      apply refines_bind (attr_get_rel_info_refines mem tmpRid rd.relName)
      intro described
      cases described with
      | error status => exact refines_pure _
      | ok attrs => exact scan_all_refines mem tmpRid rd.relName attrs

theorem ut_print_refines (mem : Uninit) (tmpRid : RID) (relation : FileName) :
    Refines pins opens (UT_Print mem tmpRid relation) (Relational.UT_Print relation) := by
  unfold UT_Print
  rw [status_of_shows]
  exact refines_bind (print_utility_refines mem tmpRid relation) fun _ => refines_pure _

theorem help_utility_refines (mem : Uninit) (tmpRid : RID) (relation : FileName) :
    Refines pins opens (shows (RelCatalog.helpUtility mem tmpRid relation))
      (Relational.helpUtility relation) := by
  unfold RelCatalog.helpUtility Relational.helpUtility
  by_cases whole : relation = []
  · rw [if_pos whole, if_pos whole]
    exact print_utility_refines mem tmpRid RELCATNAME
  rw [if_neg whole, if_neg whole, shows_bind]
  apply refines_bind (rel_get_info_refines mem tmpRid relation)
  intro looked
  cases looked with
  | error status => exact refines_pure _
  | ok rd =>
      dsimp only
      rw [shows_bind]
      apply refines_bind (attr_get_rel_info_refines mem tmpRid relation)
      intro described
      cases described with
      | error status => exact refines_pure _
      | ok attrs => exact refines_pure _

theorem help_refines (mem : Uninit) (tmpRid : RID) (relation : FileName) :
    Refines pins opens (RelCatalog.help mem tmpRid relation) (Relational.help relation) := by
  unfold RelCatalog.help
  rw [status_of_shows]
  exact refines_bind (help_utility_refines mem tmpRid relation) fun _ => refines_pure _

/-- What a statement finds besides the database: memory that nothing has been written to, and
the files that can be loaded. -/
structure Surroundings where
  mem : Uninit
  tmpRid : RID
  data : Memory
  behind : Memory
  files : FileName → Option DataFile

/-- The functions of the database that `interp` calls. -/
def storedCalls (joinMethod : JoinType) (around : Surroundings) : Calls DbM :=
  databaseCalls joinMethod around.mem around.tmpRid around.data around.behind
    { UT_Load := UT_Load around.mem around.tmpRid around.files
      UT_Print := UT_Print around.mem around.tmpRid
      help := RelCatalog.help around.mem around.tmpRid }

def relationalCalls (joinMethod : JoinType) (around : Surroundings) : Calls Query :=
  tableCalls joinMethod around.data around.behind around.files

theorem calls_related (joinMethod : JoinType) (around : Surroundings) :
    Calls.Related (refinement pins opens) (storedCalls joinMethod around)
      (relationalCalls joinMethod around) where
  attrGetRelInfo := attr_get_rel_info_refines _ _
  relGetInfo := rel_get_info_refines _ _
  attrGetInfo := attr_get_info_refines _ _
  createRel := create_rel_refines _ _
  destroyRel := destroy_rel_refines _ _
  QU_Select := qu_select_refines _ _
  QU_Join := qu_join_refines _ _ _
  QU_Insert := fun _ _ => qu_insert_refines _ _ _ _ _
  QU_Delete := qu_delete_refines _ _
  UT_Load := ut_load_refines _ _ _
  UT_Print := ut_print_refines _ _
  help := help_refines _ _

/-- Statements one after the other, with the counter of `interp` between them. -/
def interpAll {m : Type → Type} [Monad m] (calls : Surroundings → Calls m) :
    Int → List (Surroundings × NODE) → ExceptT Fault m Int
  | counter, [] => pure counter
  | counter, (around, tree) :: statements => do
      let counter ← interp (calls around) counter tree
      interpAll calls counter statements

theorem interp_all_related {m n : Type → Type} [Monad m] [Monad n] [LawfulMonad m] [LawfulMonad n]
    {relation : MonadRelation m n} {calls : Surroundings → Calls m}
    {calls' : Surroundings → Calls n}
    (related : ∀ around, Calls.Related relation (calls around) (calls' around)) (counter : Int)
    (statements : List (Surroundings × NODE)) :
    (relation.withExceptions Fault).rel (interpAll calls counter statements)
      (interpAll calls' counter statements) := by
  induction statements generalizing counter with
  | nil => exact (relation.withExceptions Fault).rel_pure counter
  | cons statement statements ih =>
      obtain ⟨around, tree⟩ := statement
      exact (relation.withExceptions Fault).rel_bind
        ((related around).statement counter tree) fun counter => ih counter

theorem interp_all_refines (joinMethod : JoinType) (counter : Int)
    (statements : List (Surroundings × NODE)) :
    Refines pins opens (interpAll (storedCalls joinMethod) counter statements).run
      (interpAll (relationalCalls joinMethod) counter statements).run :=
  interp_all_related (calls_related joinMethod) counter statements

/-- Where the tables say what a sequence of statements does, the database does it: it ends with
the same answer, and its heap files and catalogs are again those of the tables. -/
theorem statements_refine_tables {w w' : World} {db db' : Database}
    (represents : w.Represents pins opens db) (joinMethod : JoinType) (counter : Int)
    (statements : List (Surroundings × NODE)) {result : Except Fault Int}
    (defined : interpAll (relationalCalls joinMethod) counter statements db =
      some (result, db')) {outcome : Outcome (Except Fault Int)}
    (run : interpAll (storedCalls joinMethod) counter statements w = (outcome, w'))
    (smooth : w'.bufFailed = false) :
    outcome = .ok result ∧ w'.Represents pins opens db' := by
  obtain ⟨value, rfl, rfl, represents'⟩ := ((interp_all_refines joinMethod counter
    statements).refines w db represents result db' defined).result run smooth
  exact ⟨rfl, represents'⟩

theorem new_database_represents : newDatabase.Represents [] [] Database.empty where
  storage := new_database_storage
  owned := by simp
  catalogsOpen := by simp
  relCat := ⟨_, _, new_database_rel_cat, lists_empty (by decide +kernel)⟩
  attrCat := ⟨_, _, new_database_attr_cat, describes_empty (by decide +kernel)⟩
  tables := fun _ _ found => nomatch found
  absent := by
    intro name ⟨_, notRel, notAttr⟩ _
    apply logical_eq_none_iff.mpr
    simp [newDatabase, databaseOf, notRel, notAttr]

theorem Relational.exists_of_holds {α : Type} {query : Option (α × Database)} {value : α}
    {holds : Database → Prop} (ends : ∃ answer ∈ query, answer.1 = value ∧ holds answer.2) :
    ∃ db, query = some (value, db) ∧ holds db := by
  obtain ⟨⟨_, db⟩, defined, rfl, held⟩ := ends
  exact ⟨db, defined, held⟩

open HeapSession (zeroMemory)

def zeroSurroundings : Surroundings :=
  ⟨zeroMemory, NULLRID, fun _ => 0, fun _ => 0, fun _ => none⟩

def createT : NODE := .CREATE [116] (.LIST (.ATTRTYPE [97] (105 - 128)) .NULL) .NULL

def insertT (n : Int) : NODE :=
  .INSERT [116] (.LIST (.ATTRVAL [97] (.VALUE (.INTEGER n))) .NULL)

def deleteT (n : Int) : NODE :=
  .DELETE [116] (.SELECT (.QUALATTR (some [116]) [97]) .LT (.VALUE (.INTEGER n)))

def session : List (Surroundings × NODE) :=
  [createT, insertT 5, insertT 7, deleteT 6, .PRINT [116]].map fun tree => (zeroSurroundings, tree)

theorem statements_refine_tables_session :
    ∃ w' db', interpAll (storedCalls .NLJoin) 0 session newDatabase = (.ok (.ok 0), w') ∧
      w'.Represents [] [] db' ∧
      (db'.table [116]).map Relational.Table.rows = some {[7, 0, 0, 0]} := by
  obtain ⟨outcome, w', run, smooth⟩ : ∃ outcome w',
      interpAll (storedCalls .NLJoin) 0 session newDatabase = (outcome, w') ∧
        w'.bufFailed = false := ⟨_, _, Prod.mk.eta.symm, by decide +kernel⟩
  obtain ⟨db', defined, rows⟩ : ∃ db', interpAll (relationalCalls .NLJoin) 0 session
      Database.empty = some (.ok 0, db') ∧
        (db'.table [116]).map Relational.Table.rows = some {[7, 0, 0, 0]} :=
    Relational.exists_of_holds (by decide +kernel)
  obtain ⟨rfl, represents⟩ :=
    statements_refine_tables new_database_represents .NLJoin 0 session defined run smooth
  exact ⟨w', db', run, represents, rows⟩

end PrimitiveDB

import PrimitiveDB.CatalogRemovals
import PrimitiveDB.InterpreterRelations
import PrimitiveDB.RelationalQueries

/-!
# The database refines the tables

A world represents a database of tables if `relcat` and `attrcat` describe exactly these tables
and the heap file of each holds its tuples in some order. A call refines a query if, wherever the
query is defined and no buffer call fails, the call returns the same value and the world it leaves
represents the tables that the query leaves. Returning and sequencing keep refinement.
-/

namespace PrimitiveDB

open World DbM ByteMemory Relational

set_option autoImplicit false

namespace World

variable {w w' : World} {pins : List Pin} {opens : List FilePtr} {db db' : Database}
  {name : FileName} {table : Relational.Table}

/-- `relcat` has one tuple for every relation, with the number of its attributes. -/
structure ListsTables (db : Database) (relLf : LogicalFile) (relChain : List Int) : Prop where
  sized : ∀ rec ∈ relLf.tuples relChain, rec.length = RelDesc.size
  listed : ∀ name, ProperName name →
    (relLf.tuples relChain).filter (fun rec => cString rec = name) =
      if db.describe name = [] then []
      else [(RelDesc.mk name (db.describe name).length).toRecord]

/-- `attrcat` has the attributes of every relation in their order. -/
structure DescribesTables (db : Database) (attrLf : LogicalFile) (attrChain : List Int) :
    Prop where
  sized : ∀ rec ∈ attrLf.tuples attrChain, rec.length = AttrDesc.size
  described : ∀ name, ProperName name →
    AttrCatalog.describe (attrLf.tuples attrChain) name = db.describe name

structure HoldsTable (w : World) (name : FileName) (table : Relational.Table) (lf : LogicalFile)
    (chain : List Int) : Prop where
  stores : w.Stores name lf chain
  rows : (lf.tuples chain : Multiset Record) = table.rows

/-- The tables of a world in which only the catalogs are open. -/
structure Represents (w : World) (pins : List Pin) (opens : List FilePtr) (db : Database) :
    Prop where
  storage : w.Storage pins opens
  owned : ∀ pin ∈ pins, pin.file ∈ opens
  catalogsOpen : ∀ file ∈ opens, w.nameOf file = some RELCATNAME ∨ w.nameOf file = some ATTRCATNAME
  relCat : ∃ relLf relChain, w.Stores RELCATNAME relLf relChain ∧ ListsTables db relLf relChain
  attrCat : ∃ attrLf attrChain,
    w.Stores ATTRCATNAME attrLf attrChain ∧ DescribesTables db attrLf attrChain
  tables : ∀ name table, db.table name = some table → ∃ lf chain, w.HoldsTable name table lf chain
  absent : ∀ name, UserName name → db.table name = none → w.logical name = none

/-- The catalogs and tables are in the files, whoever has them open. -/
theorem Represents.moved (represents : w.Represents pins opens db) {pins' : List Pin}
    {opens' : List FilePtr} (storage : w'.Storage pins' opens')
    (owned : ∀ pin ∈ pins', pin.file ∈ opens')
    (catalogsOpen : ∀ file ∈ opens',
      w'.nameOf file = some RELCATNAME ∨ w'.nameOf file = some ATTRCATNAME)
    (logical : w'.logical = w.logical) : w'.Represents pins' opens' db where
  storage := storage
  owned := owned
  catalogsOpen := catalogsOpen
  relCat := by
    obtain ⟨relLf, relChain, stores, lists⟩ := represents.relCat
    exact ⟨relLf, relChain, ⟨by rw [logical]; exact stores.logical, stores.formed⟩, lists⟩
  attrCat := by
    obtain ⟨attrLf, attrChain, stores, describes⟩ := represents.attrCat
    exact ⟨attrLf, attrChain, ⟨by rw [logical]; exact stores.logical, stores.formed⟩, describes⟩
  tables := by
    intro name table found
    obtain ⟨lf, chain, stores, rows⟩ := represents.tables name table found
    exact ⟨lf, chain, ⟨by rw [logical]; exact stores.logical, stores.formed⟩, rows⟩
  absent := by
    intro name user missing
    rw [logical]
    exact represents.absent name user missing

theorem Represents.undisturbed (represents : w.Represents pins opens db)
    (undisturbed : Undisturbed w w' pins opens) : w'.Represents pins opens db := by
  apply represents.moved undisturbed.storage represents.owned _ undisturbed.logical
  intro file member
  rw [undisturbed.names file member]
  exact represents.catalogsOpen file member

theorem Stores.elsewhere {fileName : FileName} {lf : LogicalFile} {chain : List Int}
    {new : Option LogicalFile} (stores : w.Stores fileName lf chain)
    (logical : w'.logical = Function.update w.logical name new) (other : fileName ≠ name) :
    w'.Stores fileName lf chain := by
  refine ⟨?_, stores.formed⟩
  rw [logical, Function.update_of_ne other]
  exact stores.logical

theorem Represents.changed (represents : w.Represents pins opens db)
    (storage : w'.Storage pins opens) (names : ∀ file ∈ opens, w'.nameOf file = w.nameOf file)
    {table' : Relational.Table} {lf' : LogicalFile} {chain' : List Int} (found : db.table name = some table)
    (logical : w'.logical = Function.update w.logical name (some lf'))
    (holds : w'.HoldsTable name table' lf' chain')
    (changed : db'.table = Function.update db.table name (some table'))
    (same : table'.descs = table.descs) : w'.Represents pins opens db' := by
  obtain ⟨_, notRel, notAttr⟩ := db.user name table found
  have describe := Database.describe_changed found changed same
  refine ⟨storage, represents.owned, ?_, ?_, ?_, ?_, ?_⟩
  · intro file member
    rw [names file member]
    exact represents.catalogsOpen file member
  · obtain ⟨relLf, relChain, stores, sized, listed⟩ := represents.relCat
    refine ⟨relLf, relChain, stores.elsewhere logical notRel.symm, sized, ?_⟩
    intro other proper
    rw [describe]
    exact listed other proper
  · obtain ⟨attrLf, attrChain, stores, sized, described⟩ := represents.attrCat
    refine ⟨attrLf, attrChain, stores.elsewhere logical notAttr.symm, sized, ?_⟩
    intro other proper
    rw [describe]
    exact described other proper
  · intro other found' there
    by_cases here : other = name
    · rw [changed, here, Function.update_self] at there
      cases there
      rw [here]
      exact ⟨lf', chain', holds⟩
    · rw [changed, Function.update_of_ne here] at there
      obtain ⟨lf, chain, stores, rows⟩ := represents.tables other found' there
      exact ⟨lf, chain, stores.elsewhere logical here, rows⟩
  · intro other user missing
    have here : other ≠ name := by
      rintro rfl
      rw [changed, Function.update_self] at missing
      cases missing
    rw [changed, Function.update_of_ne here] at missing
    rw [logical, Function.update_of_ne here]
    exact represents.absent other user missing

end World

/-- Where the query is defined, the call does the same. -/
structure Refines (pins : List Pin) (opens : List FilePtr) {α : Type} (call : DbM α)
    (query : Query α) : Prop where
  keeps : KeepsFlag call
  refines : ∀ w db, w.Represents pins opens db → ∀ value db', query db = some (value, db') →
    Smoothly call w fun result w' => result = value ∧ w'.Represents pins opens db'

section Refinement

variable {pins : List Pin} {opens : List FilePtr} {α β : Type}

theorem refines_pure (value : α) :
    Refines pins opens (pure value : DbM α) (pure value : Query α) where
  keeps := keeps_pure value
  refines := by
    intro w db represents result db' defined
    cases defined
    exact smoothly_pure ⟨rfl, represents⟩

theorem Refines.early {call : DbM α} {query : Query α} (refines : Refines pins opens call query)
    {w w' : World} {outcome : Outcome α} (run : call w = (outcome, w'))
    (smooth : w'.bufFailed = false) : w.bufFailed = false := by
  apply refines.keeps.early
  rw [run]
  exact smooth

theorem refines_bind {first : DbM α} {query : Query α} {next : α → DbM β} {later : α → Query β}
    (firstRefines : Refines pins opens first query)
    (nextRefines : ∀ value, Refines pins opens (next value) (later value)) :
    Refines pins opens (first >>= next) (query >>= later) where
  keeps := keeps_bind firstRefines.keeps fun value => (nextRefines value).keeps
  refines := by
    intro w db represents result db' defined
    obtain ⟨⟨value, db₁⟩, before, after⟩ := Option.bind_eq_some_iff.mp defined
    apply smoothly_bind
    · exact fun value => (nextRefines value).keeps
    · apply (firstRefines.refines w db represents value db₁ before).mono
      rintro _ w₁ ⟨rfl, represents₁⟩
      exact (nextRefines _).refines w₁ db₁ represents₁ result db' after

theorem refines_of_undisturbed {call : DbM α} {query : Query α} (keeps : KeepsFlag call)
    (reads : ∀ w db, w.Represents pins opens db → ∀ value db', query db = some (value, db') →
      db' = db ∧ Smoothly call w fun result w' =>
        result = value ∧ Undisturbed w w' pins opens) : Refines pins opens call query where
  keeps := keeps
  refines := by
    intro w db represents value db' defined
    obtain ⟨rfl, smooth⟩ := reads w db represents value db' defined
    apply smooth.mono
    rintro _ w₁ ⟨rfl, undisturbed⟩
    exact ⟨rfl, represents.undisturbed undisturbed⟩

theorem refines_undefined {call : DbM α} (keeps : KeepsFlag call) :
    Refines pins opens call (fun _ => none) where
  keeps := keeps
  refines := by
    intro w db _ value db' defined
    cases defined

def refinement (pins : List Pin) (opens : List FilePtr) : MonadRelation DbM Query where
  rel := Refines pins opens
  rel_pure := refines_pure
  rel_bind := refines_bind

end Refinement

section Lookups

variable {pins : List Pin} {opens : List FilePtr}

theorem look_up_eq_some {α : Type} {name : FileName} {view : Database → Except Status α}
    {db db' : Database} {value : Except Status α}
    (defined : lookUp name view db = some (value, db')) :
    db' = db ∧ (name = [] ∧ value = .error .BADCATPARM ∨ ProperName name ∧ value = view db) := by
  unfold lookUp at defined
  split_ifs at defined with missing proper
  · cases defined
    exact ⟨rfl, .inl ⟨missing, rfl⟩⟩
  · cases defined
    exact ⟨rfl, .inr ⟨proper, rfl⟩⟩

theorem look_up_missing {α : Type} {name : FileName} {view : Database → Except Status α}
    {db : Database} {status : Status} (proper : ProperName name)
    (missing : view db = .error status) :
    lookUp name view db = some (.error status, db) := by
  unfold lookUp
  rw [if_neg proper.nonempty, if_pos proper, missing]

theorem attr_get_rel_info_refines (mem : Uninit) (tmpRid : RID) (name : FileName) :
    Refines pins opens (AttrCatalog.getRelInfo mem tmpRid name) (attrGetRelInfo name) := by
  apply refines_of_undisturbed (AttrCatalog.get_rel_info_keeps mem tmpRid name)
  intro w db represents value db' defined
  obtain ⟨rfl, ⟨rfl, rfl⟩ | ⟨proper, rfl⟩⟩ := look_up_eq_some defined
  · exact ⟨rfl, smoothly_pure ⟨rfl, represents.storage, rfl, fun _ _ => rfl⟩⟩
  · obtain ⟨attrLf, attrChain, stores, sized, described⟩ := represents.attrCat
    refine ⟨rfl, ?_⟩
    apply (represents.storage.attr_get_rel_info represents.owned stores sized proper mem
      tmpRid).mono
    rintro result w₁ ⟨undisturbed, rfl⟩
    rw [described name proper]
    exact ⟨rfl, undisturbed⟩

theorem attr_get_info_refines (mem : Uninit) (tmpRid : RID) (relName attrName : FileName) :
    Refines pins opens (AttrCatalog.getInfo mem tmpRid relName attrName)
      (attrGetInfo relName attrName) := by
  apply refines_of_undisturbed (get_info_keeps mem tmpRid relName attrName)
  intro w db represents value db' defined
  unfold attrGetInfo at defined
  have refused : relName = [] ∨ attrName = [] →
      Smoothly (AttrCatalog.getInfo mem tmpRid relName attrName) w fun result w' =>
        result = .error .BADCATPARM ∧ Undisturbed w w' pins opens := by
    intro missing
    unfold AttrCatalog.getInfo
    rw [if_pos missing]
    exact smoothly_pure ⟨rfl, represents.storage, rfl, fun _ _ => rfl⟩
  by_cases unnamed : attrName = []
  · rw [if_pos unnamed] at defined
    cases defined
    exact ⟨rfl, refused (.inr unnamed)⟩
  rw [if_neg unnamed] at defined
  obtain ⟨rfl, ⟨missing, rfl⟩ | ⟨proper, rfl⟩⟩ := look_up_eq_some defined
  · exact ⟨rfl, refused (.inl missing)⟩
  · obtain ⟨attrLf, attrChain, stores, sized, described⟩ := represents.attrCat
    refine ⟨rfl, ?_⟩
    apply (represents.storage.attr_get_info represents.owned stores sized proper unnamed mem
      tmpRid).mono
    rintro result w₁ ⟨undisturbed, rfl⟩
    unfold AttrCatalog.lookup
    rw [described relName proper]
    exact ⟨rfl, undisturbed⟩

theorem Relational.Database.describe_count (db : Database) (name : FileName) :
    ((db.describe name).length : Int) ≤ PAGESIZE := by
  unfold describe
  split_ifs
  · decide
  · decide
  · cases found : db.table name with
    | none => decide
    | some table => exact table.count_le

theorem rel_desc_of_record {desc : RelDesc} (terminated : 0 ∉ desc.relName)
    (short : desc.relName.length < MAXNAME) (fits : toInt desc.attrCnt = desc.attrCnt) :
    RelDesc.ofRecord desc.toRecord = desc := by
  obtain ⟨relName, attrCnt⟩ := desc
  have length : (nameField relName).length = 32 := name_field_length short.le
  unfold RelDesc.ofRecord RelDesc.toRecord
  rw [RelDesc.mk.injEq]
  refine ⟨c_string_name_field terminated short _, ?_⟩
  have ends := int_behind _ attrCnt [] length
  rw [List.append_nil] at ends
  rw [ends]
  exact fits

theorem rel_get_info_refines (mem : Uninit) (tmpRid : RID) (name : FileName) :
    Refines pins opens (RelCatalog.getInfo mem tmpRid name) (relGetInfo name) := by
  apply refines_of_undisturbed (RelCatalog.get_info_keeps mem tmpRid name)
  intro w db represents value db' defined
  obtain ⟨rfl, ⟨rfl, rfl⟩ | ⟨proper, rfl⟩⟩ := look_up_eq_some defined
  · exact ⟨rfl, smoothly_pure ⟨rfl, represents.storage, rfl, fun _ _ => rfl⟩⟩
  · obtain ⟨relLf, relChain, stores, sized, listed⟩ := represents.relCat
    refine ⟨rfl, ?_⟩
    apply (represents.storage.rel_get_info represents.owned stores sized proper mem tmpRid).mono
    rintro result w₁ ⟨undisturbed, rfl⟩
    refine ⟨?_, undisturbed⟩
    rw [← List.head?_filter, listed name proper]
    by_cases nothing : db'.describe name = []
    · rw [if_pos nothing, if_pos nothing]
      rfl
    · rw [if_neg nothing, if_neg nothing]
      have small := db'.describe_count name
      have fits : toInt ((db'.describe name).length : Int) = (db'.describe name).length :=
        to_int_of_fits (by omega) (lt_of_le_of_lt small (by decide))
      have read : RelDesc.ofRecord (RelDesc.toRecord ⟨name, (db'.describe name).length⟩) = _ :=
        rel_desc_of_record proper.terminated proper.short fits
      exact congrArg Except.ok read

end Lookups

end PrimitiveDB

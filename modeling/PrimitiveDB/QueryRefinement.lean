import PrimitiveDB.CatalogRefinement
import PrimitiveDB.PredicateAgreement
import PrimitiveDB.PrintUtility

/-!
# Queries refine the functions of the tables

The order of a scan is forgotten: a query that has put the projections of a list of tuples into a
heap file has put their multiset into the table.
-/

namespace PrimitiveDB

open World DbM ByteMemory Relational FixedRows

set_option autoImplicit false

variable {pins : List Pin} {opens : List FilePtr}

theorem LogicalFile.tuples_perm {file file' : LogicalFile} {chain chain' : List Int}
    (distinct : chain.Nodup) (distinct' : chain'.Nodup)
    (same : file'.contents chain' = file.contents chain) :
    (file'.tuples chain').Perm (file.tuples chain) := by
  have keys : (file'.rids chain').Perm (file.rids chain) := by
    rw [List.perm_ext_iff_of_nodup (rids_nodup distinct') (rids_nodup distinct)]
    intro rid
    rw [mem_rids, mem_rids, same]
  have records : (file.rids chain).filterMap file'.record = file.tuples chain := by
    apply List.filterMap_congr
    intro rid member
    have live := mem_rids.mp member
    have live' : (file'.contents chain' rid).isSome := by
      rw [same]
      exact live
    rw [← record_of_contents (contents_some.mp live').1, same,
      record_of_contents (contents_some.mp live).1]
  rw [← records]
  exact keys.filterMap _

theorem LogicalFile.Purged.tuples {file file' : LogicalFile} {filter : Option ScanFilter}
    {chain : List Int} (purged : file.Purged file' filter chain (file.rids chain))
    (distinct : chain.Nodup) :
    file'.tuples chain =
      (file.tuples chain).filter fun rec => !ScanFilter.matchRec filter rec := by
  have kept : (file'.tuples chain).filter (fun rec => !ScanFilter.matchRec filter rec) =
      (file.tuples chain).filter fun rec => !ScanFilter.matchRec filter rec := by
    apply tuples_filter_congr (List.prefix_refl chain) distinct distinct
    intro rid rec accepted
    rw [purged.survive rid]
    unfold survivors
    rw [Option.filter_eq_some_iff]
    exact ⟨And.left, fun here => ⟨here, accepted⟩⟩
  rw [← kept, List.filter_eq_self.mpr]
  intro rec member
  obtain ⟨rid, here⟩ := mem_tuples.mp member
  rw [purged.survive rid] at here
  unfold survivors at here
  exact (Option.filter_eq_some_iff.mp here).2

theorem coe_filter_of_forall {recs : List Record} {accepts : Record → Bool}
    {keeps : Record → Prop} [DecidablePred keeps] {rows : Multiset Record}
    (same : (recs : Multiset Record) = rows)
    (agree : ∀ rec ∈ rows, accepts rec = true ↔ keeps rec) :
    ((recs.filter accepts : List Record) : Multiset Record) = rows.filter keeps := by
  subst same
  rw [Multiset.filter_coe]
  congr 1
  apply List.filter_congr
  intro rec member
  rw [Bool.eq_iff_iff, agree rec member, decide_eq_true_iff]

namespace World

variable {w w' : World} {db db' : Database} {name : FileName} {table : Relational.Table}
  {lf : LogicalFile} {chain : List Int}

theorem HoldsTable.mem_iff (holds : w.HoldsTable name table lf chain) (rec : Record) :
    rec ∈ lf.tuples chain ↔ rec ∈ table.rows := by
  rw [← holds.rows, Multiset.mem_coe]

theorem Represents.added (represents : w.Represents pins opens db) {rows : Multiset Record}
    (added : db.addRows name rows = some db') {recs : List Record}
    (same : (recs : Multiset Record) = rows) {lf' : LogicalFile} {chain' : List Int}
    (storage : w'.Storage pins opens) (names : ∀ file ∈ opens, w'.nameOf file = w.nameOf file)
    (stores : w.Stores name lf chain)
    (logical : w'.logical = Function.update w.logical name (some lf'))
    (stores' : w'.Stores name lf' chain')
    (perm : (lf'.tuples chain').Perm (lf.tuples chain ++ recs)) :
    w'.Represents pins opens db' := by
  obtain ⟨table, table', found, revised, changed⟩ := Database.add_rows_eq_some added
  obtain ⟨descs, rows', _⟩ := Table.add_eq_some revised
  obtain ⟨lf₀, chain₀, ⟨stores₀, held⟩⟩ := represents.tables name table found
  have file : lf₀ = lf := Option.some.inj (stores₀.logical.symm.trans stores.logical)
  subst file
  have pages := stores₀.formed.unique stores.formed
  subst pages
  apply represents.changed storage names found logical ⟨stores', ?_⟩ changed descs
  rw [rows', ← held, ← same, Multiset.coe_add]
  exact Multiset.coe_eq_coe.mpr perm

end World

theorem Relational.Table.proper_of_mem (table : Relational.Table) {desc : AttrDesc}
    (listed : desc ∈ table.descs) {type : Datatype}
    (code : Datatype.ofCode desc.attrType = some type) : desc.Proper type := by
  obtain ⟨declared, proper⟩ := table.schema.proper desc listed
  have same : type = declared := Option.some.inj (code.symm.trans proper.code)
  rw [same]
  exact proper

/-- Where no overflow can be seen, the filter of a scan decides the comparison. -/
theorem predicate_matches_iff {attr : AttrDesc} {type : Datatype} (proper : attr.Proper type)
    {rec : Record} (fits : attr.Fits rec) {op : Operator} {value : List Byte}
    (exactly : ComparesExactly type op (attr.bytes rec)
      ((literalBytes type value).take attr.attrLen.toNat)) :
    ScanFilter.matchRec (some (attr.predicate type op value)) rec = true ↔
      Satisfies attr type op value rec := by
  obtain ⟨lower, _, upper⟩ := fits
  have inside : ¬((attr.predicate type op value).offset +
      (attr.predicate type op value).length - 1 ≥ rec.length) := by
    simp only [AttrDesc.predicate]
    omega
  have attrBytes : ∀ index < attr.attrLen.toNat, ScanFilter.bytesAt rec attr.attrOffset.toNat index =
      ScanFilter.bytesAt (attr.bytes rec) 0 index := fun index bound => bytes_at_take rec _ bound
  have valueBytes : ∀ index < attr.attrLen.toNat,
      ScanFilter.bytesAt (literalBytes type value) 0 index =
        ScanFilter.bytesAt ((literalBytes type value).take attr.attrLen.toNat) 0 index :=
    fun index bound => bytes_at_take _ 0 bound
  unfold ScanFilter.matchRec Satisfies
  dsimp only
  rw [if_neg inside]
  cases type with
  | STRING =>
      obtain ⟨below, same⟩ := strncmp_cut rec (literalBytes .STRING value) attr.attrOffset.toNat
        attr.attrLen.toNat (by omega)
      exact Operator.op_holds_iff below same op
  | INTEGER =>
      have word : attr.attrLen.toNat = 4 := by
        rw [proper.word (by decide)]
        rfl
      rw [word] at attrBytes valueBytes
      simp only [ScanFilter.diff, AttrDesc.predicate]
      rw [read_int_congr attrBytes, read_int_congr valueBytes]
      rw [word] at exactly ⊢
      exact (integer_compares_iff op (read_int_bounds _ 0) (read_int_bounds _ 0)).mpr exactly
  | FLOAT =>
      have word : attr.attrLen.toNat = 4 := by
        rw [proper.word (by decide)]
        rfl
      rw [word] at attrBytes valueBytes
      simp only [ScanFilter.diff, AttrDesc.predicate]
      rw [read_float_congr attrBytes, read_float_congr valueBytes, word]
      exact Iff.rfl

theorem Relational.Table.Comparable.matches {table : Relational.Table} {attr : AttrDesc}
    {type : Datatype} {op : Operator} {value : List Byte}
    (comparable : table.Comparable attr type op value) {rec : Record} (member : rec ∈ table.rows) :
    ScanFilter.matchRec (some (attr.predicate type op value)) rec = true ↔
      Satisfies attr type op value rec := by
  obtain ⟨listed, code, exactly⟩ := comparable
  exact predicate_matches_iff (table.proper_of_mem listed code) (table.fits listed member)
    (exactly rec member)

theorem projected_width {descs : List AttrDesc} {source : AttrDesc → Record}
    (positive : ∀ desc ∈ descs, 1 ≤ desc.attrLen)
    (fits : ∀ desc ∈ descs, desc.Fits (source desc)) :
    ((projected source descs).length : Int) = width descs := by
  induction descs with
  | nil => rfl
  | cons desc descs ih =>
      obtain ⟨here, later⟩ := List.forall_mem_cons.mp fits
      obtain ⟨one, more⟩ := List.forall_mem_cons.mp positive
      have bytes := AttrDesc.bytes_length here
      have rest := ih more later
      unfold projected width at rest ⊢
      rw [List.flatMap_cons, List.length_append, bytes, List.map_cons, List.sum_cons, ← rest]
      push_cast
      omega

theorem projects_of_fits {descs : List AttrDesc} {source : AttrDesc → Record}
    (some_ : descs ≠ []) (positive : ∀ desc ∈ descs, 1 ≤ desc.attrLen)
    (fits : ∀ desc ∈ descs, desc.Fits (source desc)) (narrow : width descs ≤ MAXTUPLE) :
    Projects descs source := by
  have length := projected_width positive fits
  have least : 1 ≤ width descs := by
    obtain ⟨desc, listed⟩ := List.exists_mem_of_ne_nil descs some_
    have one := positive desc listed
    have bounded : desc.attrLen ≤ width descs := by
      apply List.single_le_sum
      · simp only [List.mem_map]
        rintro _ ⟨other, member, rfl⟩
        exact (zero_le_one.trans (positive other member))
      · exact List.mem_map_of_mem listed
    omega
  refine ⟨fits, by omega, ?_⟩
  have bound : ((projected source descs).length : Int) ≤ 1000 := length.trans_le narrow
  have room : (1000 : Int) + SLOTSIZE ≤ DATASIZE := by decide
  omega

theorem look_up_attrs_refines (mem : Uninit) (tmpRid : RID) (attrs : List AttrInfo) :
    Refines pins opens (lookUpAttrs mem tmpRid attrs) (Relational.lookUpAttrs attrs) := by
  induction attrs with
  | nil => exact refines_pure _
  | cons attr attrs ih =>
      apply refines_bind (attr_get_info_refines mem tmpRid attr.relName attr.attrName)
      intro result
      cases result with
      | error status => exact refines_pure _
      | ok desc =>
          apply refines_bind ih
          intro rest
          cases rest with
          | error status => exact refines_pure _
          | ok descs => exact refines_pure _

theorem put_projections_eq_some {result : FileName} {descs : List AttrDesc}
    {rows : Multiset Record} {db db' : Database} {status : Status}
    (defined : putProjections result descs rows db = some (status, db')) :
    status = .OK ∧
      db.addRows result (rows.map fun rec => projected (fun _ => rec) descs) = some db' := by
  obtain ⟨db₁, added, same⟩ := Option.bind_eq_some_iff.mp defined
  cases same
  exact ⟨rfl, added⟩

theorem World.Represents.scan_select {w : World} {db db' : Database}
    (represents : w.Represents pins opens db) (mem : Uninit) (tmpRid : RID) {result : FileName}
    {first : AttrDesc} {rest : List AttrDesc} {source : Relational.Table}
    (found : db.table first.relName = some source) (different : first.relName ≠ result)
    (described : ∀ desc ∈ first :: rest, desc ∈ source.descs)
    (narrow : width (first :: rest) ≤ MAXTUPLE) {attrDesc : Option AttrDesc} {op : Operator}
    {value : List Byte} {filter : Option ScanFilter}
    (selects : SelectFilter attrDesc op value filter) {rows : Multiset Record}
    (matched : ∀ recs : List Record, (recs : Multiset Record) = source.rows →
      ((recs.filter (ScanFilter.matchRec filter) : List Record) : Multiset Record) = rows)
    {status : Status}
    (defined : putProjections result (first :: rest) rows db = some (status, db')) :
    Smoothly (ScanSelect mem tmpRid result (first :: rest) attrDesc op value) w fun status' w' =>
      status' = status ∧ w'.Represents pins opens db' := by
  obtain ⟨rfl, added⟩ := put_projections_eq_some defined
  obtain ⟨target, _, there, _, _⟩ := Database.add_rows_eq_some added
  obtain ⟨lf, chain, holds⟩ := represents.tables first.relName source found
  obtain ⟨out, outChain, outHolds⟩ := represents.tables result target there
  have positive : ∀ desc ∈ first :: rest, 1 ≤ desc.attrLen := by
    intro desc listed
    obtain ⟨type, proper⟩ := source.schema.proper desc (described desc listed)
    exact proper.positive
  have projects : ∀ rec ∈ (lf.tuples chain).filter (ScanFilter.matchRec filter),
      Projects (first :: rest) fun _ => rec := by
    intro rec member
    have inTable := (holds.mem_iff rec).mp (List.mem_of_mem_filter member)
    exact projects_of_fits (List.cons_ne_nil _ _) positive
      (fun desc listed => source.fits (described desc listed) inTable) narrow
  apply (represents.storage.scan_select represents.owned holds.stores outHolds.stores different
    (db.user _ source found).1.nonempty (db.user _ target there).1.nonempty mem tmpRid rfl selects
    projects).mono
  rintro status w' ⟨rfl, storage, names, out', outChain', logical, stores', appended⟩
  refine ⟨rfl, represents.added added ?_ storage names outHolds.stores logical stores'
    appended.perm⟩
  unfold queryOutput
  rw [← matched _ holds.rows, Multiset.map_coe]

theorem scan_select_refines (mem : Uninit) (tmpRid : RID) (result : FileName)
    (projNames : List AttrDesc) (attrDesc : Option AttrDesc) (op : Operator)
    (filter : List Byte) :
    Refines pins opens (ScanSelect mem tmpRid result projNames attrDesc op filter)
      (Relational.ScanSelect result projNames attrDesc op filter) where
  keeps := scan_select_keeps mem tmpRid result projNames attrDesc op filter
  refines := by
    intro w db represents value db' defined
    obtain ⟨first, head, defined⟩ := Option.bind_eq_some_iff.mp defined
    obtain ⟨rest, rfl⟩ := List.head?_eq_some_iff.mp head
    obtain ⟨source, found, defined⟩ := Option.bind_eq_some_iff.mp defined
    by_cases checks : first.relName ≠ result ∧ (∀ desc ∈ first :: rest, desc ∈ source.descs) ∧
        width (first :: rest) ≤ MAXTUPLE
    swap
    · rw [if_neg checks] at defined
      cases defined
    rw [if_pos checks] at defined
    obtain ⟨different, described, narrow⟩ := checks
    cases attrDesc with
    | none =>
        apply represents.scan_select mem tmpRid found different described narrow
          (SelectFilter.all op filter) _ defined
        intro recs same
        rw [filter_unfiltered]
        exact same
    | some attr =>
        obtain ⟨type, code, defined⟩ := Option.bind_eq_some_iff.mp defined
        by_cases comparable : source.Comparable attr type op filter
        swap
        · rw [if_neg comparable] at defined
          cases defined
        rw [if_pos comparable] at defined
        apply represents.scan_select mem tmpRid found different described narrow
          (.literal (source.proper_of_mem comparable.1 code) op filter) _ defined
        intro recs same
        exact coe_filter_of_forall same fun rec member => comparable.matches member

theorem qu_select_refines (mem : Uninit) (tmpRid : RID) (result : FileName)
    (projNames : List AttrInfo) (attr : Option AttrInfo) (op : Operator) (attrValue : List Byte) :
    Refines pins opens (QU_Select mem tmpRid result projNames attr op attrValue)
      (Relational.QU_Select result projNames attr op attrValue) := by
  apply refines_bind (look_up_attrs_refines mem tmpRid projNames)
  intro looked
  cases looked with
  | error status => exact refines_pure _
  | ok descs =>
      cases attr with
      | none => exact scan_select_refines mem tmpRid result descs none op attrValue
      | some attr =>
          apply refines_bind (attr_get_info_refines mem tmpRid attr.relName attr.attrName)
          intro found
          cases found with
          | error status => exact refines_pure _
          | ok desc => exact scan_select_refines mem tmpRid result descs (some desc) op attrValue

theorem coe_join_output {descs : List AttrDesc} {desc1 desc2 : AttrDesc} {type : Datatype}
    {op : Operator} {outerRecs innerRecs : List Record} {outer inner : Multiset Record}
    (sameOuter : (outerRecs : Multiset Record) = outer)
    (sameInner : (innerRecs : Multiset Record) = inner) (proper : desc2.Proper type)
    (alike : desc1.attrLen = desc2.attrLen) (fits1 : ∀ rec ∈ outer, desc1.Fits rec)
    (fits2 : ∀ rec ∈ inner, desc2.Fits rec)
    (differences : ∀ outerRec ∈ outer, ∀ innerRec ∈ inner,
      DifferenceFits type (desc1.bytes outerRec) (desc2.bytes innerRec)) :
    (joinOutput descs desc1 desc2 type op outerRecs innerRecs : Multiset Record) =
      joined descs desc1 desc2 type op outer inner := by
  subst sameOuter
  unfold joinOutput joined
  rw [← Multiset.coe_bind]
  apply Multiset.bind_congr
  intro outerRec outerListed
  unfold queryOutput
  rw [← Multiset.map_coe]
  congr 1
  apply coe_filter_of_forall sameInner
  intro innerRec innerListed
  exact match_join_iff proper alike (fits1 outerRec outerListed) (fits2 innerRec innerListed) op
    (differences outerRec outerListed innerRec innerListed)

theorem join_scans_refines (mem : Uninit) (tmpRid : RID) (result : FileName)
    (descs : List AttrDesc) (desc1 desc2 : AttrDesc) (op : Operator) :
    Refines pins opens (joinScans mem tmpRid result descs desc1 desc2 op)
      (Relational.joinScans result descs desc1 desc2 op) where
  keeps := join_scans_keeps mem tmpRid result descs desc1 desc2 op
  refines := by
    intro w db represents value db' defined
    obtain ⟨outer, found1, defined⟩ := Option.bind_eq_some_iff.mp defined
    obtain ⟨inner, found2, defined⟩ := Option.bind_eq_some_iff.mp defined
    obtain ⟨type, code, defined⟩ := Option.bind_eq_some_iff.mp defined
    split at defined
    swap
    · cases defined
    rename_i checks
    obtain ⟨different, innerDifferent, listed1, listed2, some_, described, narrow, alike,
      differences⟩ := checks
    obtain ⟨db₁, added, same⟩ := Option.bind_eq_some_iff.mp defined
    cases same
    obtain ⟨target, _, there, _, _⟩ := Database.add_rows_eq_some added
    obtain ⟨lf, chain, holds1⟩ := represents.tables desc1.relName outer found1
    obtain ⟨lfInner, innerChain, holds2⟩ := represents.tables desc2.relName inner found2
    obtain ⟨out, outChain, outHolds⟩ := represents.tables result target there
    have proper := inner.proper_of_mem listed2 code
    have positive : ∀ desc ∈ descs, 1 ≤ desc.attrLen := by
      intro desc listed
      rcases described desc listed with ofOuter | ofInner
      · obtain ⟨_, proper⟩ := outer.schema.proper desc ofOuter
        exact proper.positive
      · obtain ⟨_, proper⟩ := inner.schema.proper desc ofInner
        exact proper.positive
    -- an attribute goes to the tuple of the relation whose name it has
    have fits : ∀ outerRec ∈ outer.rows, ∀ innerRec ∈ inner.rows, ∀ desc ∈ descs,
        desc.Fits (joinSide desc1 outerRec innerRec desc) := by
      intro outerRec outerListed innerRec innerListed desc listed
      have ofOuter : desc.relName = desc1.relName → desc ∈ outer.descs := by
        intro same
        rcases described desc listed with ofOuter | ofInner
        · exact ofOuter
        · rw [← same, db.own _ inner found2 desc ofInner, found2] at found1
          cases found1
          exact ofInner
      unfold joinSide
      by_cases same : desc.relName = desc1.relName
      · rw [if_pos same]
        exact outer.fits (ofOuter same) outerListed
      · rw [if_neg same]
        have ofInner : desc ∈ inner.descs := (described desc listed).resolve_left fun ofOuter =>
          same (db.own _ outer found1 desc ofOuter)
        exact inner.fits ofInner innerListed
    apply (represents.storage.join_scans represents.owned holds1.stores holds2.stores
      outHolds.stores different innerDifferent (db.user _ outer found1).1.nonempty
      (db.user _ inner found2).1.nonempty (db.user _ target there).1.nonempty mem tmpRid rfl rfl
      proper ?_).mono
    · rintro status w' ⟨rfl, storage, names, out', outChain', logical, stores', appended⟩
      refine ⟨rfl, represents.added added ?_ storage names outHolds.stores logical stores'
        appended.perm⟩
      exact coe_join_output holds1.rows holds2.rows proper alike
        (fun rec member => outer.fits listed1 member) (fun rec member => inner.fits listed2 member)
        differences
    · intro outerRec outerListed innerRec innerListed
      exact projects_of_fits some_ positive (fits outerRec ((holds1.mem_iff _).mp outerListed)
        innerRec ((holds2.mem_iff _).mp (List.mem_of_mem_filter innerListed))) narrow

theorem qu_nl_join_refines (mem : Uninit) (tmpRid : RID) (result : FileName)
    (projNames : List AttrInfo) (attr1 : AttrInfo) (op : Operator) (attr2 : AttrInfo) :
    Refines pins opens (QU_NL_Join mem tmpRid result projNames attr1 op attr2)
      (Relational.QU_NL_Join result projNames attr1 op attr2) := by
  unfold QU_NL_Join Relational.QU_NL_Join
  by_cases differ : attr1.attrType ≠ attr2.attrType ∨ attr1.attrLen ≠ attr2.attrLen
  · have typed : TypesDiffer attr1 attr2 := differ
    rw [if_pos differ, if_pos typed]
    exact refines_pure _
  have alike : ¬TypesDiffer attr1 attr2 := differ
  rw [if_neg differ, if_neg alike]
  apply refines_bind (look_up_attrs_refines mem tmpRid projNames)
  intro looked
  cases looked with
  | error status => exact refines_pure _
  | ok descs =>
      apply refines_bind (attr_get_info_refines mem tmpRid attr1.relName attr1.attrName)
      intro found1
      cases found1 with
      | error status => exact refines_pure _
      | ok desc1 =>
          apply refines_bind (attr_get_info_refines mem tmpRid attr2.relName attr2.attrName)
          intro found2
          cases found2 with
          | error status => exact refines_pure _
          | ok desc2 => exact join_scans_refines mem tmpRid result descs desc1 desc2 op

theorem qu_join_refines (joinMethod : JoinType) (mem : Uninit) (tmpRid : RID) (result : FileName)
    (projNames : List AttrInfo) (attr1 : AttrInfo) (op : Operator) (attr2 : AttrInfo) :
    Refines pins opens (QU_Join joinMethod mem tmpRid result projNames attr1 op attr2)
      (Relational.QU_Join joinMethod result projNames attr1 op attr2) := by
  unfold QU_Join Relational.QU_Join
  by_cases nested : joinMethod = .NLJoin ∨ joinMethod = .HashJoin ∧ op ≠ .EQ
  · rw [if_pos nested, if_pos nested]
    exact qu_nl_join_refines mem tmpRid result projNames attr1 op attr2
  · rw [if_neg nested, if_neg nested]
    apply refines_undefined
    unfold QU_SM_Join QU_Hash_Join
    split <;> exact keeps_pure _

theorem qu_insert_keeps (mem : Uninit) (tmpRid : RID) (data : Memory) (relation : FileName)
    (attrList : List (AttrInfo × Memory)) :
    KeepsFlag (QU_Insert mem tmpRid data relation attrList) := by
  unfold QU_Insert
  repeat' first
    | exact keeps_pure _ | exact AttrCatalog.get_rel_info_keeps _ _ _
    | exact place_values_keeps _ _ _ _ | exact insert_once_keeps _ _ _
    | apply keeps_bind | intro _ | split

theorem qu_insert_refines (mem : Uninit) (tmpRid : RID) (data : Memory) (relation : FileName)
    (attrList : List (AttrInfo × Memory)) :
    Refines pins opens (QU_Insert mem tmpRid data relation attrList)
      (Relational.QU_Insert data relation attrList) where
  keeps := qu_insert_keeps mem tmpRid data relation attrList
  refines := by
    intro w db represents value db' defined
    unfold Relational.QU_Insert at defined
    -- the answers of the lookup
    have refused : ∀ {status : Status},
        attrGetRelInfo relation db = some (.error status, db) →
        Smoothly (QU_Insert mem tmpRid data relation attrList) w fun result w' =>
          result = status ∧ w'.Represents pins opens db := by
      intro status looked
      unfold QU_Insert
      apply smoothly_bind
      · intro result
        repeat' first
          | exact keeps_pure _ | exact place_values_keeps _ _ _ _ | exact insert_once_keeps _ _ _
          | apply keeps_bind | intro _ | split
      · apply ((attr_get_rel_info_refines mem tmpRid relation).refines w db represents _ _
          looked).mono
        rintro result w₁ ⟨rfl, represents₁⟩
        exact smoothly_pure ⟨rfl, represents₁⟩
    by_cases missing : relation = []
    · rw [if_pos missing] at defined
      cases defined
      apply refused
      unfold attrGetRelInfo lookUp
      rw [if_pos missing]
    rw [if_neg missing] at defined
    by_cases user : UserName relation
    swap
    · rw [if_neg user] at defined
      cases defined
    rw [if_pos user] at defined
    cases found : db.table relation with
    | none =>
        rw [found] at defined
        cases defined
        exact refused (look_up_missing user.1
          (if_pos (Database.describe_nil_iff.mpr ⟨found, user.2⟩)))
    | some table =>
        rw [found] at defined
        obtain ⟨attrLf, attrChain, attrStores, attrSized, described⟩ := represents.attrCat
        obtain ⟨lf, chain, stores, rows⟩ := represents.tables relation table found
        have descs : AttrCatalog.describe (attrLf.tuples attrChain) relation = table.descs := by
          rw [described relation user.1, Database.describe_table found]
        apply (represents.storage.insert_ends represents.owned attrStores attrSized stores user.1
          descs table.schema mem tmpRid data attrList).mono
        intro status w' ends
        dsimp only at defined
        by_cases fits : attrList.length = table.descs.length ∧
            Known table.descs (attrList.map Prod.fst)
        · rw [if_pos fits] at defined
          by_cases narrow : width table.descs ≤ MAXTUPLE
          swap
          · rw [if_neg narrow] at defined
            cases defined
          rw [if_pos narrow] at defined
          obtain ⟨db₁, added, same⟩ := Option.bind_eq_some_iff.mp defined
          cases same
          have ok : status = .OK := ends.accepts.mpr ⟨table.described, fits.1, fits.2, narrow⟩
          obtain ⟨lf', chain', logical, stores', appended⟩ := ends.added ok
          refine ⟨ok, represents.added added ?_ ends.storage ends.names stores logical stores'
            appended.perm⟩
          rfl
        · rw [if_neg fits] at defined
          cases defined
          have refused : status = .BADCATPARM := ends.misfit table.described fits
          obtain ⟨lf', chain', logical, stores', same⟩ := ends.nothing (by rw [refused]; decide)
          have perm := LogicalFile.tuples_perm stores.formed.nodup stores'.formed.nodup same
          refine ⟨refused, represents.changed ends.storage ends.names found logical ⟨stores', ?_⟩
            ?_ rfl⟩
          · rw [← rows]
            exact Multiset.coe_eq_coe.mpr perm
          · rw [← found, Function.update_eq_self]

theorem ut_load_refines (mem : Uninit) (tmpRid : RID) (files : FileName → Option DataFile)
    (relation fileName : FileName) :
    Refines pins opens (UT_Load mem tmpRid files relation fileName)
      (Relational.UT_Load files relation fileName) where
  keeps := ut_load_keeps mem tmpRid files relation fileName
  refines := by
    intro w db represents value db' defined
    unfold Relational.UT_Load at defined
    by_cases refused : relation = [] ∨ fileName = [] ∨ relation = RELCATNAME ∨
        relation = ATTRCATNAME
    · rw [if_pos refused] at defined
      cases defined
      unfold UT_Load
      rw [if_pos refused]
      exact smoothly_pure ⟨rfl, represents⟩
    rw [if_neg refused] at defined
    cases file : files fileName with
    | none =>
        rw [file] at defined
        cases defined
        unfold UT_Load
        rw [if_neg refused, file]
        exact smoothly_pure ⟨rfl, represents⟩
    | some fd =>
        rw [file] at defined
        dsimp only at defined
        by_cases user : UserName relation
        swap
        · rw [if_neg user] at defined
          cases defined
        rw [if_pos user] at defined
        cases found : db.table relation with
        | none =>
            rw [found] at defined
            cases defined
            have looked : relGetInfo relation db = some (.error .RELNOTFOUND, db) :=
              look_up_missing user.1 (if_pos (Database.describe_nil_iff.mpr ⟨found, user.2⟩))
            unfold UT_Load
            rw [if_neg refused, file]
            dsimp only
            apply smoothly_bind
            · intro result
              repeat' first
                | exact keeps_pure _ | exact keeps_crash
                | exact AttrCatalog.get_rel_info_keeps _ _ _ | exact InsertFileScan.new_keeps _ _
                | exact load_rows_keeps _ _ _ _ | exact InsertFileScan.delete_keeps _
                | apply keeps_bind | intro _ | split
            · apply ((rel_get_info_refines mem tmpRid relation).refines w db represents _ _
                looked).mono
              rintro result w₁ ⟨rfl, represents₁⟩
              exact smoothly_pure ⟨rfl, represents₁⟩
        | some table =>
            rw [found] at defined
            dsimp only at defined
            by_cases narrow : width table.descs ≤ MAXTUPLE
            swap
            · rw [if_neg narrow] at defined
              cases defined
            rw [if_pos narrow] at defined
            obtain ⟨db₁, added, same⟩ := Option.bind_eq_some_iff.mp defined
            cases same
            obtain ⟨relLf, relChain, relStores, lists⟩ := represents.relCat
            obtain ⟨attrLf, attrChain, attrStores, describes⟩ := represents.attrCat
            obtain ⟨lf, chain, stores, rows⟩ := represents.tables relation table found
            have positive := table.width_positive
            have bound : width table.descs ≤ 1000 := narrow
            have listed : ∃ rec ∈ relLf.tuples relChain, cString rec = relation := by
              rw [lists.listed_iff user.1, Database.describe_table found]
              exact table.described
            have loadable : Loadable w relLf attrLf relChain attrChain relation lf chain
                (width table.descs).toNat := by
              refine ⟨relStores, attrStores, lists.sized, describes.sized, user.1, user.2, listed,
                stores, ?_, by omega, by omega⟩
              rw [describes.described relation user.1, Database.describe_table found,
                Int.toNat_of_nonneg (by omega)]
              rfl
            have fileNamed : fileName ≠ [] := (not_or.mp (not_or.mp refused).2).1
            apply (represents.storage.ut_load_ends represents.owned loadable fileNamed file mem
              tmpRid).mono
            rintro status w' ⟨rfl, storage, names, lf', chain', logical, stores', appended⟩
            exact ⟨rfl, represents.added added rfl storage names stores logical stores'
              appended.perm⟩

end PrimitiveDB

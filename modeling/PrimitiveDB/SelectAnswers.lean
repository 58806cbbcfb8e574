import PrimitiveDB.ShownAnswers

/-!
# What a selection answers

`select (t.a, ...) where t.b op v` creates a relation for its result, fills it, prints it and
destroys it. On the tables this is evaluated step by step; the database then shows the same.
-/

namespace PrimitiveDB

open World DbM Relational

set_option autoImplicit false

def attrList (relName : FileName) : List AttrDesc → NODE
  | [] => .NULL
  | desc :: descs => .LIST (.QUALATTR (some relName) desc.attrName) (attrList relName descs)

def selection (relName : FileName) (descs : List AttrDesc) (attr : AttrDesc) (op : Operator)
    (value : Value) : NODE :=
  .QUERY none (attrList relName descs)
    (.SELECT (.QUALATTR (some relName) attr.attrName) op (.VALUE value))

def resultInfos (descs : List AttrDesc) : List AttrInfo :=
  descs.map fun desc =>
    { relName := TMPRESULT, attrName := desc.attrName, attrType := desc.attrType
      attrLen := desc.attrLen, attrValue := none }

namespace Relational

/-- Attributes of a table that can be selected: no more than a statement may have, no wider than
a tuple, and no result in the way. -/
structure Selectable (db : Database) (relName : FileName) (table : Table)
    (descs : List AttrDesc) : Prop where
  found : db.table relName = some table
  free : db.table TMPRESULT = none
  listed : ∀ desc ∈ descs, desc ∈ table.descs
  nonempty : descs ≠ []
  distinct : (descs.map AttrDesc.attrName).Nodup
  few : descs.length < MAXATTRS
  named : ∀ desc ∈ descs, ProperName desc.attrName
  narrow : width descs ≤ MAXTUPLE

section Running

variable {α β : Type} {db db' : Database} {shown shown' : List Shown}

theorem run_bind_ok {first : ExceptT Fault (Showing Query) α}
    {next : α → ExceptT Fault (Showing Query) β} {value : α}
    (run : first.run shown db = some ((.ok value, shown'), db')) :
    (first >>= next).run shown db = (next value).run shown' db' := by
  change (first.run shown db).bind _ = _
  rw [run]
  rfl

theorem run_calling {call : Showing Query α} {value : α}
    (run : call shown db = some ((value, shown'), db')) :
    (calling call : ExceptT Fault (Showing Query) α).run shown db =
      some ((.ok value, shown'), db') := by
  change (call shown db).bind _ = _
  rw [run]
  rfl

theorem showing_bind {call : Showing Query α} {next : α → Showing Query β} {value : α}
    (run : call shown db = some ((value, shown'), db')) :
    (call >>= next) shown db = next value shown' db' := by
  change (call shown db).bind _ = _
  rw [run]
  rfl

theorem run_recording {call : Query α} {value : α} (run : call db = some (value, db'))
    (record : α → List Shown) :
    recording call record shown db = some ((value, shown ++ record value), db') := by
  change (call db).bind _ = _
  rw [run]
  rfl

theorem run_reading {read : Except Fault α} {value : α} (ok : read = .ok value) :
    (reading read : ExceptT Fault (Showing Query) α).run shown db =
      some ((.ok value, shown), db) := by
  rw [ok]
  rfl

theorem query_bind {call : Query α} {next : α → Query β} {value : α}
    (run : call db = some (value, db')) : (call >>= next) db = next value db' := by
  change (call db).bind _ = _
  rw [run]
  rfl

end Running

theorem find_named {descs : List AttrDesc} (distinct : (descs.map AttrDesc.attrName).Nodup)
    {desc : AttrDesc} (listed : desc ∈ descs) :
    descs.find? (fun other => other.attrName = desc.attrName) = some desc := by
  cases found : descs.find? (fun other => other.attrName = desc.attrName) with
  | none => exact absurd (decide_eq_true rfl) (List.find?_eq_none.mp found desc listed)
  | some other =>
      have member := List.mem_of_find?_eq_some found
      have accepted := List.find?_some found
      have same : other.attrName = desc.attrName := of_decide_eq_true accepted
      rw [List.inj_on_of_nodup_map distinct member listed same]

theorem Database.add_rows_sized {db : Database} {name : FileName} {table : Table}
    {rows : Multiset Record} (found : db.table name = some table)
    (sized : ∀ rec ∈ rows, (rec.length : Int) = width table.descs) :
    ∃ db' table', db.addRows name rows = some db' ∧
      db'.table = Function.update db.table name (some table') ∧
      table'.descs = table.descs ∧ table'.rows = table.rows + rows := by
  unfold Database.addRows Database.change
  split
  · rename_i missing
    rw [found] at missing
    cases missing
  · rename_i table₁ found₁
    have same : table = table₁ := Option.some.inj (found.symm.trans found₁)
    subst same
    split
    · rename_i refused
      unfold Table.add at refused
      dsimp only at refused
      rw [dif_pos sized] at refused
      cases refused
    · rename_i table' added
      obtain ⟨descs, more, _⟩ := Table.add_eq_some added
      exact ⟨_, table', rfl, rfl, descs, more⟩

theorem look_up_proper {α : Type} {name : FileName} (proper : ProperName name)
    (view : Database → Except Status α) (db : Database) :
    lookUp name view db = some (view db, db) := by
  unfold lookUp
  rw [if_neg proper.nonempty, if_pos proper]

theorem print_table {db : Database} {name : FileName} {table : Table}
    (found : db.table name = some table) :
    Relational.printUtility name db =
      some ((.OK, [.tuples name table.descs (some table.rows)]), db) := by
  have proper : ProperName name := (db.user name table found).1
  have described := Database.describe_table found
  have looked : relGetInfo name db =
      some (.ok { relName := name, attrCnt := table.descs.length }, db) := by
    unfold relGetInfo
    rw [look_up_proper proper, described, if_neg table.described]
  have attrs : attrGetRelInfo name db = some (.ok table.descs, db) := by
    unfold attrGetRelInfo
    rw [look_up_proper proper, described, if_neg table.described]
  have scanned : scanAll name table.descs db =
      some ((.OK, [.tuples name table.descs (some table.rows)]), db) := by
    unfold scanAll
    rw [described, if_neg table.described, found]
    rfl
  unfold Relational.printUtility
  rw [if_neg proper.nonempty]
  refine (query_bind looked).trans ?_
  exact (query_bind attrs).trans scanned

theorem destroy_table {db : Database} {name : FileName} {table : Table}
    (found : db.table name = some table) : destroyRel name db = some (.OK, db.drop name) := by
  obtain ⟨proper, notRel, notAttr⟩ := db.user name table found
  unfold destroyRel
  rw [if_neg (not_or.mpr ⟨proper.nonempty, not_or.mpr ⟨notRel, notAttr⟩⟩), if_pos proper,
    Database.describe_table found, if_neg table.described]

theorem Database.eq_of_table {db db' : Database} (same : db.table = db'.table) : db = db' := by
  cases db
  cases db'
  cases same
  rfl

namespace Selectable

variable {db : Database} {relName : FileName} {table : Table} {descs : List AttrDesc}

theorem other (selectable : Selectable db relName table descs) : relName ≠ TMPRESULT := by
  intro same
  have found := selectable.found
  rw [same, selectable.free] at found
  cases found

theorem attr_get_info {db₁ : Database} (there : db₁.table relName = some table)
    {desc : AttrDesc} (listed : desc ∈ table.descs) (named : desc.attrName ≠ []) :
    attrGetInfo relName desc.attrName db₁ = some (.ok desc, db₁) := by
  have proper : ProperName relName := (db₁.user relName table there).1
  unfold attrGetInfo
  rw [if_neg named, look_up_proper proper, Database.describe_table there,
    find_named table.schema.names listed]

theorem infos_width (descs : List AttrDesc) :
    ((resultInfos descs).map AttrInfo.attrLen).sum = width descs := by
  unfold resultInfos width
  rw [List.map_map]
  rfl

theorem positive (selectable : Selectable db relName table descs) :
    ∀ desc ∈ descs, 1 ≤ desc.attrLen := by
  intro desc listed
  obtain ⟨type, proper⟩ := table.schema.proper desc (selectable.listed desc listed)
  exact proper.positive

theorem infos_creatable (selectable : Selectable db relName table descs) :
    Creatable (resultInfos descs) := by
  have narrow := selectable.narrow
  unfold MAXTUPLE at narrow
  constructor
  · intro attr member
    obtain ⟨desc, listed, rfl⟩ := List.mem_map.mp member
    have named := selectable.named desc listed
    dsimp only
    rw [Scanner.c_string_whole named.terminated]
    exact ⟨named.nonempty, named.short⟩
  · intro attr member
    obtain ⟨desc, listed, rfl⟩ := List.mem_map.mp member
    obtain ⟨type, proper⟩ := table.schema.proper desc (selectable.listed desc listed)
    refine ⟨Option.ne_none_iff_exists'.mpr ⟨type, proper.code⟩, fun other => proper.word ?_⟩
    rintro rfl
    have code := proper.code
    unfold Datatype.ofCode at code
    split_ifs at code with isString
    · exact other isString
    all_goals cases code
  · intro attr member
    obtain ⟨desc, listed, rfl⟩ := List.mem_map.mp member
    exact selectable.positive desc listed
  · unfold RelCatalog.width
    rw [infos_width descs]
    omega

theorem infos_accepted (selectable : Selectable db relName table descs) :
    db.refusal TMPRESULT (resultInfos descs) = none := by
  have narrow := selectable.narrow
  unfold MAXTUPLE at narrow
  have creatable := selectable.infos_creatable
  have nonneg := RelCatalog.width_nonneg creatable.lengths
  have columns : resultInfos descs ≠ [] := by
    unfold resultInfos
    rw [ne_eq, List.map_eq_nil_iff]
    exact selectable.nonempty
  have missing : db.describe TMPRESULT = [] :=
    Database.describe_nil_iff.mpr ⟨selectable.free, by decide, by decide⟩
  have distinct : ((resultInfos descs).map fun attr => cString attr.attrName).Nodup := by
    have names : ((resultInfos descs).map fun attr => cString attr.attrName) =
        descs.map AttrDesc.attrName := by
      unfold resultInfos
      rw [List.map_map]
      apply List.map_congr_left
      intro desc listed
      exact Scanner.c_string_whole (selectable.named desc listed).terminated
    rw [names]
    exact selectable.distinct
  have fits : RelCatalog.tupleWidth (resultInfos descs) ≤ PAGESIZE := by
    unfold RelCatalog.width at nonneg
    unfold RelCatalog.tupleWidth
    rw [infos_width descs] at nonneg ⊢
    rw [Int.emod_eq_of_lt nonneg (by omega)]
    exact narrow.trans (by decide)
  unfold Database.refusal
  rw [if_neg (not_or.mpr ⟨by decide, columns⟩), if_neg (by decide), if_neg (not_not.mpr missing),
    if_neg (not_not.mpr distinct), if_neg (not_lt.mpr fits)]

theorem create_result (selectable : Selectable db relName table descs) :
    ∃ db₁ result, createRel TMPRESULT (resultInfos descs) db = some (.OK, db₁) ∧
      db₁.table = Function.update db.table TMPRESULT (some result) ∧
      result.descs = RelCatalog.attrDescs TMPRESULT 0 (resultInfos descs) ∧ result.rows = 0 := by
  have terminated : 0 ∉ TMPRESULT := by decide
  unfold createRel
  rw [dif_pos terminated]
  split
  · rename_i status refused
    rw [selectable.infos_accepted] at refused
    cases refused
  · rw [dif_pos selectable.infos_creatable]
    exact ⟨_, _, rfl, rfl, rfl, rfl⟩

theorem attrnames_list (relName : FileName) (descs : List AttrDesc) (i : Nat)
    (few : i + descs.length < MAXATTRS) :
    attrnames (attrList relName descs) i (some relName) =
      .ok (some (descs.map AttrDesc.attrName, some relName)) := by
  induction descs generalizing i with
  | nil =>
      have below : i ≠ MAXATTRS := by
        rw [List.length_nil] at few
        omega
      unfold attrList attrnames
      rw [if_neg below]
      rfl
  | cons desc descs ih =>
      rw [List.length_cons] at few
      have below : i ≠ MAXATTRS := by omega
      have later := ih (i + 1) (by omega)
      simp [attrList, attrnames, below, NODE.qualattrRelname, NODE.qualattrAttrname, readString,
        later, Bind.bind, Except.bind, pure, Except.pure]

theorem create_attr_info (joinMethod : JoinType) (around : Surroundings) {descs : List AttrDesc}
    (there : db.table relName = some table) (listed : ∀ desc ∈ descs, desc ∈ table.descs)
    (named : ∀ desc ∈ descs, desc.attrName ≠ []) (done : List AttrInfo) (counter : Int)
    (shown : List Shown) :
    createAttrInfo (relationalShowing joinMethod around) TMPRESULT false
        ((descs.map AttrDesc.attrName).map (queryAttr relName)) done counter shown db =
      some (((some (done ++ resultInfos descs), counter), shown), db) := by
  induction descs generalizing done with
  | nil =>
      change some (((some done, counter), shown), db) = _
      unfold resultInfos
      rw [List.map_nil, List.append_nil]
  | cons desc descs ih =>
      obtain ⟨here, more⟩ := List.forall_mem_cons.mp listed
      obtain ⟨name, names⟩ := List.forall_mem_cons.mp named
      have looked : (relationalShowing joinMethod around).attrGetInfo relName desc.attrName shown
          db = some ((.ok desc, shown), db) := by
        refine (run_recording (attr_get_info there here name) reportedLookup).trans ?_
        unfold reportedLookup
        rw [List.append_nil]
      have plain : resultAttrName false done (queryAttr relName desc.attrName).attrName counter =
          (desc.attrName, counter) := rfl
      rw [List.map_cons, List.map_cons]
      unfold createAttrInfo
      rw [plain]
      refine (showing_bind looked).trans ?_
      refine (ih more names _).trans ?_
      rw [List.append_assoc]
      rfl

theorem look_up_attrs {db₁ : Database} (there : db₁.table relName = some table)
    {descs : List AttrDesc} (listed : ∀ desc ∈ descs, desc ∈ table.descs)
    (named : ∀ desc ∈ descs, desc.attrName ≠ []) :
    lookUpAttrs ((descs.map AttrDesc.attrName).map (queryAttr relName)) db₁ =
      some (.ok descs, db₁) := by
  induction descs with
  | nil => rfl
  | cons desc descs ih =>
      obtain ⟨here, more⟩ := List.forall_mem_cons.mp listed
      obtain ⟨name, names⟩ := List.forall_mem_cons.mp named
      refine (query_bind (attr_get_info there here name)).trans ?_
      refine (query_bind (ih more names)).trans ?_
      rfl

theorem scan_result (selectable : Selectable db relName table descs) {db₁ db₂ : Database}
    (there : db₁.table relName = some table) {attr : AttrDesc} {type : Datatype} {op : Operator}
    {text : Text} (comparable : table.Comparable attr type op text)
    (added : db₁.addRows TMPRESULT ((table.rows.filter (Satisfies attr type op text)).map
      fun rec => projected (fun _ => rec) descs) = some db₂) :
    ScanSelect TMPRESULT descs (some attr) op text db₁ = some (.OK, db₂) := by
  obtain ⟨first, rest, cons⟩ := List.exists_cons_of_ne_nil selectable.nonempty
  have listed : first ∈ descs := by
    rw [cons]
    exact List.mem_cons_self
  have source : first.relName = relName :=
    db.own relName table selectable.found first (selectable.listed first listed)
  have head : descs.head? = some first := by
    rw [cons]
    rfl
  have allowed : first.relName ≠ TMPRESULT ∧ (∀ desc ∈ descs, desc ∈ table.descs) ∧
      width descs ≤ MAXTUPLE := by
    rw [source]
    exact ⟨selectable.other, selectable.listed, selectable.narrow⟩
  unfold ScanSelect putProjections
  rw [head]
  change (db₁.table first.relName).bind _ = _
  rw [source] at allowed ⊢
  rw [there]
  change (if _ then _ else _) = _
  rw [if_pos allowed]
  change (Datatype.ofCode attr.attrType).bind _ = _
  rw [comparable.2.1]
  change (if _ then _ else _) = _
  rw [if_pos comparable]
  change (db₁.addRows _ _).bind _ = _
  rw [added]
  rfl

/-- The result gets the projections of the tuples in which the comparison holds. -/
theorem fill_result (selectable : Selectable db relName table descs) {db₁ : Database}
    {result : Table} (created : db₁.table = Function.update db.table TMPRESULT (some result))
    (described : result.descs = RelCatalog.attrDescs TMPRESULT 0 (resultInfos descs))
    (empty : result.rows = 0) {attr : AttrDesc} {type : Datatype} {op : Operator} {text : Text}
    (comparable : table.Comparable attr type op text) (named : attr.attrName ≠ [])
    (info : AttrInfo) (relation : info.relName = relName) (name : info.attrName = attr.attrName) :
    ∃ db₂ filled, QU_Select TMPRESULT ((descs.map AttrDesc.attrName).map (queryAttr relName))
        (some info) op text db₁ = some (.OK, db₂) ∧
      db₂.table = Function.update db.table TMPRESULT (some filled) ∧
      filled.descs = result.descs ∧
      filled.rows = (table.rows.filter (Satisfies attr type op text)).map fun rec =>
        projected (fun _ => rec) descs := by
  have there : db₁.table relName = some table := by
    rw [created, Function.update_of_ne selectable.other]
    exact selectable.found
  have here : db₁.table TMPRESULT = some result := by
    rw [created, Function.update_self]
  have looked : lookUpAttrs ((descs.map AttrDesc.attrName).map (queryAttr relName)) db₁ =
      some (.ok descs, db₁) :=
    look_up_attrs there selectable.listed fun desc listed =>
      (selectable.named desc listed).nonempty
  have condition : attrGetInfo info.relName info.attrName db₁ = some (.ok attr, db₁) := by
    rw [relation, name]
    exact attr_get_info there comparable.1 named
  have sized : ∀ rec ∈ (table.rows.filter (Satisfies attr type op text)).map fun rec =>
      projected (fun _ => rec) descs, (rec.length : Int) = width result.descs := by
    intro rec member
    obtain ⟨source, kept, rfl⟩ := Multiset.mem_map.mp member
    have inside := Multiset.mem_of_mem_filter kept
    rw [projected_width selectable.positive fun desc listed =>
      table.fits (selectable.listed desc listed) inside, described]
    unfold width
    rw [RelCatalog.attr_descs_lengths]
    exact (infos_width descs).symm
  obtain ⟨db₂, filled, added, changed, same, rows⟩ := Database.add_rows_sized here sized
  refine ⟨db₂, filled, ?_, ?_, same, ?_⟩
  · refine (query_bind looked).trans ?_
    refine (query_bind condition).trans ?_
    exact selectable.scan_result there comparable added
  · rw [changed, created, Function.update_idem]
  · rw [rows, empty, zero_add]

section Statement

variable (selectable : Selectable db relName table descs) (joinMethod : JoinType)
  (around : Surroundings) (counter : Int)

include selectable

theorem attrnames_run (shown : List Shown) :
    (mk_attrnames (relationalShowing joinMethod around) (attrList relName descs)
        (some relName)).run shown db =
      some ((.ok (some (descs.map AttrDesc.attrName, some relName)), shown), db) := by
  have listKind : (attrList relName descs).kind = .ok .N_LIST := by
    obtain ⟨first, rest, cons⟩ := List.exists_cons_of_ne_nil selectable.nonempty
    rw [cons]
    rfl
  have few := selectable.few
  unfold mk_attrnames
  refine (run_bind_ok (run_reading listKind)).trans ?_
  rw [if_neg (by decide)]
  exact run_reading (attrnames_list relName descs 0 (by omega))

theorem result_relation_run :
    resultRelation (relationalShowing joinMethod around) none [] db =
      some ((some (TMPRESULT, none), []), db) := by
  have missing : db.describe TMPRESULT = [] :=
    Database.describe_nil_iff.mpr ⟨selectable.free, by decide, by decide⟩
  have user : UserName TMPRESULT := by decide
  have looked : relGetInfo TMPRESULT db = some (.error .RELNOTFOUND, db) := by
    apply look_up_missing user.1
    rw [if_pos missing]
  unfold resultRelation
  refine (showing_bind (run_recording looked _)).trans ?_
  rfl

theorem prepare_result_run {db₁ : Database}
    (created : createRel TMPRESULT (resultInfos descs) db = some (.OK, db₁)) :
    prepareResult (relationalShowing joinMethod around) TMPRESULT none false
        ((descs.map AttrDesc.attrName).map (queryAttr relName)) counter [] db =
      some (((true, counter), []), db₁) := by
  have infos := create_attr_info joinMethod around selectable.found selectable.listed
    (fun desc listed => (selectable.named desc listed).nonempty) [] counter []
  unfold prepareResult
  refine (showing_bind infos).trans ?_
  refine (showing_bind (run_recording created reported)).trans ?_
  rfl

end Statement

theorem finish_query_run (joinMethod : JoinType) (around : Surroundings) {db₂ : Database}
    {filled : Table} (found : db₂.table TMPRESULT = some filled) :
    finishQuery (relationalShowing joinMethod around) TMPRESULT [] db₂ =
      some (((), [.tuples TMPRESULT filled.descs (some filled.rows)]), db₂.drop TMPRESULT) := by
  unfold finishQuery
  rw [if_pos rfl]
  refine (showing_bind (showing_bind (run_recording (print_table found) _))).trans ?_
  refine (showing_bind (run_recording (destroy_table found) reported)).trans ?_
  rfl

/-- The statement shows the projections of the tuples in which the comparison holds, and leaves
the tables as they were. -/
theorem selection_run (selectable : Selectable db relName table descs) {attr : AttrDesc}
    {type : Datatype} {op : Operator} {value : Value}
    (comparable : table.Comparable attr type op value.text) (joinMethod : JoinType)
    (around : Surroundings) (counter : Int) :
    (interp (relationalShowing joinMethod around) counter
        (selection relName descs attr op value)).run [] db =
      some ((.ok counter, [.tuples TMPRESULT (RelCatalog.attrDescs TMPRESULT 0
        (resultInfos descs)) (some ((table.rows.filter (Satisfies attr type op value.text)).map
          fun rec => projected (fun _ => rec) descs))]), db) := by
  have named := table.named attr comparable.1
  obtain ⟨db₁, result, created, changed, described, empty⟩ := selectable.create_result
  obtain ⟨db₂, filled, selected, changed₂, described₂, rows⟩ :=
    selectable.fill_result changed described empty comparable named
      { queryAttr relName attr.attrName with
        attrType := value.type.code, attrValue := some value.text } rfl rfl
  have there : db₂.table TMPRESULT = some filled := by
    rw [changed₂, Function.update_self]
  have finished := finish_query_run joinMethod around there
  rw [described₂, described, rows] at finished
  have restored : db₂.drop TMPRESULT = db := by
    apply Database.eq_of_table
    change Function.update db₂.table TMPRESULT none = db.table
    rw [changed₂, Function.update_idem, ← selectable.free, Function.update_eq_self]
  rw [restored] at finished
  unfold selection interp interpQuery
  refine (run_bind_ok (run_calling (selectable.result_relation_run joinMethod around))).trans ?_
  dsimp only
  have qualified : (NODE.SELECT (.QUALATTR (some relName) attr.attrName) op
    (.VALUE value)).isNode = true := rfl
  rw [if_neg (not_not.mpr qualified)]
  refine (run_bind_ok (run_reading rfl)).trans ?_
  rw [if_pos rfl]
  refine (run_bind_ok (run_reading rfl)).trans ?_
  unfold interpSelect
  refine (run_bind_ok (run_reading rfl)).trans ?_
  refine (run_bind_ok (selectable.attrnames_run joinMethod around [])).trans ?_
  dsimp only
  refine (run_bind_ok (run_reading rfl)).trans ?_
  refine (run_bind_ok rfl).trans ?_
  dsimp only
  refine (run_bind_ok (run_calling
    (selectable.prepare_result_run joinMethod around counter created))).trans ?_
  dsimp only
  rw [if_pos rfl]
  refine (run_bind_ok (run_calling (run_recording selected reported))).trans ?_
  refine (run_bind_ok (run_calling finished)).trans ?_
  rfl

end Selectable

end Relational

theorem selection_refines {pins : List Pin} {opens : List FilePtr} (joinMethod : JoinType)
    (around : Surroundings) (counter : Int) (tree : NODE) :
    Refines pins opens ((interp (storedShowing joinMethod around) counter tree).run [])
      ((interp (relationalShowing joinMethod around) counter tree).run []) :=
  (showing_related joinMethod around).statement counter tree []

/-- A selection from a table shows, as its only output, the projections of the tuples in which
the comparison holds, and afterwards the files hold the tables that they held before. -/
theorem selection_shows_rows {w w' : World} {pins : List Pin} {opens : List FilePtr}
    {db : Database} (represents : w.Represents pins opens db) {relName : FileName}
    {table : Relational.Table} {descs : List AttrDesc}
    (selectable : Selectable db relName table descs) {attr : AttrDesc} {type : Datatype}
    {op : Operator} {value : Value} (comparable : table.Comparable attr type op value.text)
    (joinMethod : JoinType) (around : Surroundings) (counter : Int)
    {outcome : Outcome (Except Fault Int × List Shown)}
    (run : (interp (storedShowing joinMethod around) counter
      (selection relName descs attr op value)).run [] w = (outcome, w'))
    (smooth : w'.bufFailed = false) :
    outcome = .ok (.ok counter, [.tuples TMPRESULT (RelCatalog.attrDescs TMPRESULT 0
      (resultInfos descs)) (some ((table.rows.filter (Satisfies attr type op value.text)).map
        fun rec => projected (fun _ => rec) descs))]) ∧ w'.Represents pins opens db := by
  have defined := selectable.selection_run comparable joinMethod around counter
  obtain ⟨_, rfl, rfl, represents'⟩ := ((selection_refines joinMethod around counter
    _).refines w db represents _ db defined).result run smooth
  exact ⟨rfl, represents'⟩

def columnB : AttrDesc := { columnT with attrName := [98], attrOffset := 4 }

theorem pair_storable : ∀ desc ∈ relCatAttrs ++ attrCatAttrs ++ [columnT, columnB],
    desc.Storable := by
  intro desc member
  rw [List.mem_append, List.mem_pair] at member
  rcases member with old | rfl | rfl
  · exact catalog_attrs_storable desc old
  · exact ⟨by decide, by decide, by decide, by decide, rfl, rfl, rfl⟩
  · exact ⟨by decide, by decide, by decide, by decide, rfl, rfl, rfl⟩

def pairTable : Relational.Table where
  descs := [columnT, columnB]
  rows := {[7, 0, 0, 0, 1, 0, 0, 0], [9, 0, 0, 0, 2, 0, 0, 0]}
  described := by simp
  schema :=
    { proper := by
        intro desc member
        rcases List.mem_pair.mp member with rfl | rfl
        · exact ⟨.INTEGER, by decide, by decide, by decide, fun _ => rfl⟩
        · exact ⟨.INTEGER, by decide, by decide, by decide, fun _ => rfl⟩
      names := by decide
      apart := by
        rw [List.pairwise_pair]
        exact .inl (by decide)
      inside := by decide }
  named := by decide
  narrow := by decide
  sized := by decide

theorem pair_user : UserName [116] :=
  ⟨⟨by decide, by decide, by decide⟩, by decide, by decide⟩

def pairTables : Database := Database.empty.put [116] pairTable pair_user (by decide)

theorem pair_tables_describe (name : FileName) : pairTables.describe name =
    if name = [116] then [columnT, columnB] else Database.empty.describe name :=
  Database.describe_put name

def pairDatabase : World :=
  databaseOf 8 [(RELCATNAME, [relCatDesc.toRecord, attrCatDesc.toRecord] ++
      [(RelDesc.mk [116] 2).toRecord]),
    (ATTRCATNAME, (relCatAttrs ++ attrCatAttrs ++ [columnT, columnB]).map AttrDesc.toRecord),
    ([116], [[7, 0, 0, 0, 1, 0, 0, 0], [9, 0, 0, 0, 2, 0, 0, 0]])]

theorem pair_database_lists : ListsTables pairTables (tableFile RELCATNAME
    ([relCatDesc.toRecord, attrCatDesc.toRecord] ++ [(RelDesc.mk [116] 2).toRecord])) [2] where
  sized := by decide +kernel
  listed := by
    intro name proper
    have tuples : (tableFile RELCATNAME ([relCatDesc.toRecord, attrCatDesc.toRecord] ++
        [(RelDesc.mk [116] 2).toRecord])).tuples [2] =
          [relCatDesc.toRecord, attrCatDesc.toRecord] ++ [(RelDesc.mk [116] 2).toRecord] := by
      decide +kernel
    rw [tuples, List.filter_append, pair_tables_describe]
    by_cases here : name = [116]
    · subst here
      decide
    · have old : (tableFile RELCATNAME
          [relCatDesc.toRecord, attrCatDesc.toRecord]).tuples [2] =
            [relCatDesc.toRecord, attrCatDesc.toRecord] := by decide +kernel
      have named : cString (RelDesc.mk [116] 2).toRecord = [116] := by decide
      rw [if_neg here, ← (lists_empty old).listed name proper, old, List.filter_singleton, named,
        decide_eq_false (Ne.symm here)]
      exact List.append_nil _

theorem pair_database_describes : DescribesTables pairTables (tableFile ATTRCATNAME
    ((relCatAttrs ++ attrCatAttrs ++ [columnT, columnB]).map AttrDesc.toRecord)) [2] where
  sized := by decide +kernel
  described := by
    intro name proper
    have tuples : (tableFile ATTRCATNAME ((relCatAttrs ++ attrCatAttrs ++
        [columnT, columnB]).map AttrDesc.toRecord)).tuples [2] =
          (relCatAttrs ++ attrCatAttrs ++ [columnT, columnB]).map AttrDesc.toRecord := by
      decide +kernel
    rw [tuples, describe_records pair_storable, List.filter_append, pair_tables_describe]
    by_cases here : name = [116]
    · subst here
      decide
    · have old : (tableFile ATTRCATNAME
          ((relCatAttrs ++ attrCatAttrs).map AttrDesc.toRecord)).tuples [2] =
            (relCatAttrs ++ attrCatAttrs).map AttrDesc.toRecord := by decide +kernel
      have new : [columnT, columnB].filter (fun desc => desc.relName = name) = [] := by
        simp [columnT, columnB, Ne.symm here]
      rw [if_neg here, ← (describes_empty old).described name proper, old,
        describe_records catalog_attrs_storable, new, List.append_nil]

theorem pair_database_represents : pairDatabase.Represents [] [] pairTables where
  storage := (database_just_started (by decide) _).storage
  owned := by simp
  catalogsOpen := by simp
  relCat := ⟨_, _, database_stores 8 rfl (by decide +kernel), pair_database_lists⟩
  attrCat := ⟨_, _, database_stores 8 rfl (by decide +kernel), pair_database_describes⟩
  tables := by
    intro name table found
    by_cases here : name = [116]
    · subst here
      obtain rfl := Option.some.inj found
      refine ⟨_, _, database_stores 8 rfl (by decide), ?_⟩
      have tuples : (tableFile [116] [[7, 0, 0, 0, 1, 0, 0, 0],
          [9, 0, 0, 0, 2, 0, 0, 0]]).tuples [2] =
            [[7, 0, 0, 0, 1, 0, 0, 0], [9, 0, 0, 0, 2, 0, 0, 0]] := by decide +kernel
      rw [tuples]
      rfl
    · have nothing : pairTables.table name = none := Function.update_of_ne here _ _
      rw [nothing] at found
      cases found
  absent := by
    intro name ⟨_, notRel, notAttr⟩ missing
    have notT : name ≠ [116] := by
      rintro rfl
      cases missing
    apply logical_eq_none_iff.mpr
    simp [pairDatabase, databaseOf, notRel, notAttr, notT]

/-- `select (t.b) where t.a < 8` -/
theorem selection_shows_rows_one_of_two :
    ∃ w' columns, (interp (storedShowing .NLJoin zeroSurroundings) 0
      (selection [116] [columnB] columnT .LT (.INTEGER 8))).run [] pairDatabase =
        (.ok (.ok 0, [.tuples TMPRESULT columns (some {[1, 0, 0, 0]})]), w') := by
  obtain ⟨outcome, w', run, smooth⟩ : ∃ outcome w',
      (interp (storedShowing .NLJoin zeroSurroundings) 0
        (selection [116] [columnB] columnT .LT (.INTEGER 8))).run [] pairDatabase =
          (outcome, w') ∧ w'.bufFailed = false := ⟨_, _, Prod.mk.eta.symm, by decide +kernel⟩
  have selectable : Selectable pairTables [116] pairTable [columnB] :=
    { found := rfl
      free := rfl
      listed := by decide
      nonempty := by decide
      distinct := by decide
      few := by decide
      named := by decide
      narrow := by decide }
  have comparable : pairTable.Comparable columnT .INTEGER .LT (Value.INTEGER 8).text :=
    ⟨by decide, by decide, by decide +kernel⟩
  obtain ⟨rfl, _⟩ := selection_shows_rows pair_database_represents selectable comparable .NLJoin
    zeroSurroundings 0 run smooth
  have answers : (pairTable.rows.filter (Satisfies columnT .INTEGER .LT
      (Value.INTEGER 8).text)).map (fun rec => projected (fun _ => rec) [columnB]) =
        {[1, 0, 0, 0]} := by decide +kernel
  rw [answers] at run
  exact ⟨w', _, run⟩

end PrimitiveDB

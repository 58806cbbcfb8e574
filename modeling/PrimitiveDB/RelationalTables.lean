import PrimitiveDB.CreatedRelations
import PrimitiveDB.FilterComparisons
import PrimitiveDB.LoadUtility

/-!
# Tables

What the database is for, without pages, slots and catalogs: tables under names, each with a list
of attributes and a multiset of tuples. The functions that statements are made of are given as
partial functions of the tables. Where one is undefined, for instance because an overflow would
decide a comparison or a relation is read while it is written, nothing is said about the code.
-/

namespace PrimitiveDB.Relational

open ByteMemory

set_option autoImplicit false

def UserName (name : FileName) : Prop := ProperName name ∧ name ≠ RELCATNAME ∧ name ≠ ATTRCATNAME

instance (name : FileName) : Decidable (ProperName name) :=
  decidable_of_iff (name ≠ [] ∧ 0 ∉ name ∧ name.length < MAXNAME)
    ⟨fun ⟨nonempty, terminated, short⟩ => ⟨nonempty, terminated, short⟩,
      fun ⟨nonempty, terminated, short⟩ => ⟨nonempty, terminated, short⟩⟩

instance (name : FileName) : Decidable (UserName name) :=
  inferInstanceAs (Decidable (_ ∧ _ ∧ _))

def width (descs : List AttrDesc) : Int := (descs.map AttrDesc.attrLen).sum

/-- The attributes of a table in their order, and its tuples in none. -/
structure Table where
  descs : List AttrDesc
  rows : Multiset Record
  described : descs ≠ []
  schema : Schema descs
  named : ∀ desc ∈ descs, desc.attrName ≠ []
  narrow : width descs ≤ PAGESIZE
  sized : ∀ rec ∈ rows, (rec.length : Int) = width descs

namespace Table

def keep (table : Table) (keeps : Record → Prop) [DecidablePred keeps] : Table :=
  { table with
    rows := table.rows.filter keeps
    sized := fun rec member => table.sized rec (Multiset.mem_of_mem_filter member) }

def add (table : Table) (rows : Multiset Record) : Option Table :=
  if sized : ∀ rec ∈ rows, (rec.length : Int) = width table.descs then
    some { table with
      rows := table.rows + rows
      sized := fun rec member =>
        (Multiset.mem_add.mp member).elim (table.sized rec) (sized rec) }
  else none

@[simp] theorem keep_descs (table : Table) (keeps : Record → Prop) [DecidablePred keeps] :
    (table.keep keeps).descs = table.descs := rfl

theorem add_eq_some {table table' : Table} {rows : Multiset Record}
    (added : table.add rows = some table') :
    table'.descs = table.descs ∧ table'.rows = table.rows + rows ∧
      ∀ rec ∈ rows, (rec.length : Int) = width table.descs := by
  unfold add at added
  split_ifs at added with sized
  cases added
  exact ⟨rfl, rfl, sized⟩

theorem width_positive (table : Table) : 1 ≤ width table.descs :=
  table.schema.width_positive table.described

theorem fits (table : Table) {desc : AttrDesc} (listed : desc ∈ table.descs) {rec : Record}
    (member : rec ∈ table.rows) : desc.Fits rec := by
  obtain ⟨type, proper⟩ := table.schema.proper desc listed
  have inside := table.schema.inside desc listed
  have length := table.sized rec member
  unfold width at length
  have offset := proper.offset
  have positive := proper.positive
  exact ⟨offset, by omega, by omega⟩

theorem count_le (table : Table) : (table.descs.length : Int) ≤ PAGESIZE := by
  have lengths : ∀ desc ∈ table.descs, 1 ≤ desc.attrLen := by
    intro desc listed
    obtain ⟨type, proper⟩ := table.schema.proper desc listed
    exact proper.positive
  have bound : (table.descs.length : Int) ≤ width table.descs := by
    unfold width
    have summed := List.card_nsmul_le_sum (table.descs.map AttrDesc.attrLen) 1 (by simpa using lengths)
    simpa using summed
  exact bound.trans table.narrow

end Table

structure Database where
  table : FileName → Option Table
  user : ∀ name found, table name = some found → UserName name
  own : ∀ name found, table name = some found → ∀ desc ∈ found.descs, desc.relName = name

namespace Database

def empty : Database where
  table := fun _ => none
  user := fun _ _ impossible => nomatch impossible
  own := fun _ _ impossible => nomatch impossible

def put (db : Database) (name : FileName) (new : Table) (user : UserName name)
    (own : ∀ desc ∈ new.descs, desc.relName = name) : Database where
  table := Function.update db.table name (some new)
  user := by
    intro other found there
    by_cases same : other = name
    · rw [same]
      exact user
    · rw [Function.update_of_ne same] at there
      exact db.user other found there
  own := by
    intro other found there
    by_cases same : other = name
    · rw [same, Function.update_self] at there
      cases there
      rw [same]
      exact own
    · rw [Function.update_of_ne same] at there
      exact db.own other found there

def drop (db : Database) (name : FileName) : Database where
  table := Function.update db.table name none
  user := by
    intro other found there
    by_cases same : other = name
    · rw [same, Function.update_self] at there
      cases there
    · rw [Function.update_of_ne same] at there
      exact db.user other found there
  own := by
    intro other found there
    by_cases same : other = name
    · rw [same, Function.update_self] at there
      cases there
    · rw [Function.update_of_ne same] at there
      exact db.own other found there

def change (db : Database) (name : FileName) (revise : Table → Option Table)
    (same : ∀ table table', revise table = some table' → table'.descs = table.descs) :
    Option Database :=
  match found : db.table name with
  | none => none
  | some table =>
      match revised : revise table with
      | none => none
      | some table' =>
          some (db.put name table' (db.user name table found) (by
            rw [same table table' revised]
            exact db.own name table found))

def addRows (db : Database) (name : FileName) (rows : Multiset Record) : Option Database :=
  db.change name (·.add rows) fun _ _ added => (Table.add_eq_some added).1

def keepRows (db : Database) (name : FileName) (keeps : Record → Prop) [DecidablePred keeps] :
    Option Database :=
  db.change name (fun table => some (table.keep keeps)) fun table table' kept => by
    cases kept
    rfl

def describe (db : Database) (name : FileName) : List AttrDesc :=
  if name = RELCATNAME then relCatAttrs
  else if name = ATTRCATNAME then attrCatAttrs
  else ((db.table name).map Table.descs).getD []

variable {db db' : Database} {name : FileName} {table : Table}

theorem describe_table (found : db.table name = some table) : db.describe name = table.descs := by
  obtain ⟨_, notRel, notAttr⟩ := db.user name table found
  unfold describe
  rw [if_neg notRel, if_neg notAttr, found]
  rfl

theorem describe_nil_iff :
    db.describe name = [] ↔ db.table name = none ∧ name ≠ RELCATNAME ∧ name ≠ ATTRCATNAME := by
  unfold describe
  split_ifs with isRel isAttr
  · simp [isRel, relCatAttrs]
  · simp [isAttr, attrCatAttrs]
  · cases found : db.table name with
    | none => simp [isRel, isAttr]
    | some table => simp [table.described]

theorem describe_put {new : Table} {user : UserName name}
    {own : ∀ desc ∈ new.descs, desc.relName = name} (other : FileName) :
    (db.put name new user own).describe other =
      if other = name then new.descs else db.describe other := by
  obtain ⟨_, notRel, notAttr⟩ := user
  by_cases same : other = name
  · rw [if_pos same, same]
    unfold describe
    rw [if_neg notRel, if_neg notAttr]
    simp [put]
  · rw [if_neg same]
    unfold describe
    simp [put, Function.update_of_ne same]

theorem describe_drop (user : UserName name) (other : FileName) :
    (db.drop name).describe other = if other = name then [] else db.describe other := by
  obtain ⟨_, notRel, notAttr⟩ := user
  by_cases same : other = name
  · rw [if_pos same, same]
    unfold describe
    rw [if_neg notRel, if_neg notAttr]
    simp [drop]
  · rw [if_neg same]
    unfold describe
    simp [drop, Function.update_of_ne same]

theorem change_eq_some {revise : Table → Option Table}
    {same : ∀ table table', revise table = some table' → table'.descs = table.descs}
    (changed : db.change name revise same = some db') :
    ∃ table table', db.table name = some table ∧ revise table = some table' ∧
      db'.table = Function.update db.table name (some table') := by
  unfold change at changed
  split at changed
  · cases changed
  · rename_i table found
    split at changed
    · cases changed
    · rename_i table' revised
      cases changed
      exact ⟨table, table', found, revised, rfl⟩

theorem add_rows_eq_some {rows : Multiset Record} (added : db.addRows name rows = some db') :
    ∃ table table', db.table name = some table ∧ table.add rows = some table' ∧
      db'.table = Function.update db.table name (some table') :=
  change_eq_some added

theorem keep_rows_eq_some {keeps : Record → Prop} [DecidablePred keeps]
    (kept : db.keepRows name keeps = some db') :
    ∃ table, db.table name = some table ∧
      db'.table = Function.update db.table name (some (table.keep keeps)) := by
  obtain ⟨table, table', found, revised, changed⟩ := change_eq_some kept
  cases revised
  exact ⟨table, found, changed⟩

theorem describe_changed {table table' : Table} (found : db.table name = some table)
    (changed : db'.table = Function.update db.table name (some table'))
    (same : table'.descs = table.descs) (other : FileName) :
    db'.describe other = db.describe other := by
  unfold describe
  by_cases here : other = name
  · rw [changed, here, Function.update_self, found, Option.map_some, Option.map_some, same]
  · rw [changed, Function.update_of_ne here]

end Database

abbrev Query := StateT Database Option

section Lookups

def lookUp {α : Type} (name : FileName) (view : Database → Except Status α) :
    Query (Except Status α) := fun db =>
  if name = [] then some (.error .BADCATPARM, db)
  else if ProperName name then some (view db, db)
  else none

def attrGetRelInfo (name : FileName) : Query (Except Status (List AttrDesc)) :=
  lookUp name fun db =>
    if db.describe name = [] then .error .RELNOTFOUND else .ok (db.describe name)

def relGetInfo (name : FileName) : Query (Except Status RelDesc) :=
  lookUp name fun db =>
    if db.describe name = [] then .error .RELNOTFOUND
    else .ok { relName := name, attrCnt := (db.describe name).length }

def attrGetInfo (relName attrName : FileName) : Query (Except Status AttrDesc) :=
  if attrName = [] then pure (.error .BADCATPARM)
  else lookUp relName fun db =>
    match (db.describe relName).find? fun desc => desc.attrName = attrName with
    | some desc => .ok desc
    | none => .error .ATTRNOTFOUND

end Lookups

section Definitions

/-- The attributes of a new relation, as the parser gives them: with names that fit into the
catalog and the lengths of their types. -/
structure Creatable (attrs : List AttrInfo) : Prop where
  named : ∀ attr ∈ attrs, cString attr.attrName ≠ [] ∧ (cString attr.attrName).length < MAXNAME
  typed : ∀ attr ∈ attrs, Datatype.ofCode attr.attrType ≠ none ∧
    (attr.attrType ≠ Datatype.STRING.code → attr.attrLen = 4)
  lengths : ∀ attr ∈ attrs, 1 ≤ attr.attrLen
  width : RelCatalog.width attrs < 2147483648

instance (attrs : List AttrInfo) : Decidable (Creatable attrs) :=
  decidable_of_iff
    ((∀ attr ∈ attrs, cString attr.attrName ≠ [] ∧ (cString attr.attrName).length < MAXNAME) ∧
      (∀ attr ∈ attrs, Datatype.ofCode attr.attrType ≠ none ∧
        (attr.attrType ≠ Datatype.STRING.code → attr.attrLen = 4)) ∧
      (∀ attr ∈ attrs, 1 ≤ attr.attrLen) ∧ RelCatalog.width attrs < 2147483648)
    ⟨fun ⟨named, typed, lengths, width⟩ => ⟨named, typed, lengths, width⟩,
      fun ⟨named, typed, lengths, width⟩ => ⟨named, typed, lengths, width⟩⟩

theorem Creatable.type {attrs : List AttrInfo} (creatable : Creatable attrs) {attr : AttrInfo}
    (member : attr ∈ attrs) : ∃ type, Datatype.ofCode attr.attrType = some type ∧
      attr.attrType = type.code ∧ (type ≠ .STRING → attr.attrLen = 4) := by
  obtain ⟨known, word⟩ := creatable.typed attr member
  obtain ⟨type, code⟩ := Option.ne_none_iff_exists'.mp known
  have same : attr.attrType = type.code := by
    unfold Datatype.ofCode at code
    split_ifs at code with isString isInteger isFloat <;> cases code <;> assumption
  refine ⟨type, code, same, fun notString => word ?_⟩
  rw [same]
  cases type with
  | STRING => exact absurd rfl notString
  | INTEGER => decide
  | FLOAT => decide

def Database.refusal (db : Database) (name : FileName) (attrs : List AttrInfo) : Option Status :=
  if name = [] ∨ attrs = [] then some .BADCATPARM
  else if name.length ≥ MAXNAME then some .NAMETOOLONG
  else if db.describe name ≠ [] then some .RELEXISTS
  else if ¬(attrs.map fun attr => cString attr.attrName).Nodup then some .DUPLATTR
  else if RelCatalog.tupleWidth attrs > PAGESIZE then some .ATTRTOOLONG
  else none

variable {db : Database} {name : FileName} {attrs : List AttrInfo}

theorem Database.refusal_none (accepted : db.refusal name attrs = none) :
    name ≠ [] ∧ attrs ≠ [] ∧ name.length < MAXNAME ∧ db.describe name = [] ∧
      (attrs.map fun attr => cString attr.attrName).Nodup ∧
      RelCatalog.tupleWidth attrs ≤ PAGESIZE := by
  unfold refusal at accepted
  split_ifs at accepted with missing long listed duplicate wide
  obtain ⟨nonempty, some_⟩ := not_or.mp missing
  exact ⟨nonempty, some_, Nat.lt_of_not_le long, not_not.mp listed, duplicate, not_lt.mp wide⟩

/-- The refusal is that of `createRel` if `relcat` says the same as the database. -/
theorem Database.refusal_eq {relTuples : List Record}
    (listed : name ≠ [] → name.length < MAXNAME →
      ((∃ rec ∈ relTuples, cString rec = name) ↔ db.describe name ≠ [])) :
    RelCatalog.refusal relTuples name attrs = db.refusal name attrs := by
  unfold RelCatalog.refusal refusal
  have none_ : attrs.length < 1 ↔ attrs = [] := by
    rw [Nat.lt_one_iff, List.length_eq_zero_iff]
  by_cases missing : name = [] ∨ attrs = []
  · rw [if_pos missing, if_pos (by rwa [none_])]
  · rw [if_neg missing, if_neg (by rwa [none_])]
    by_cases long : name.length ≥ MAXNAME
    · rw [if_pos long, if_pos long]
    · rw [if_neg long, if_neg long]
      have same := listed (not_or.mp missing).1 (Nat.lt_of_not_le long)
      by_cases there : db.describe name ≠ []
      · rw [if_pos there, if_pos (same.mpr there)]
      · rw [if_neg there, if_neg (fun here => there (same.mp here))]

theorem Database.accepted_width (accepted : db.refusal name attrs = none)
    (creatable : Creatable attrs) : RelCatalog.width attrs ≤ PAGESIZE := by
  have bound := (refusal_none accepted).2.2.2.2.2
  have nonneg := RelCatalog.width_nonneg creatable.lengths
  have small := creatable.width
  unfold RelCatalog.tupleWidth at bound
  unfold RelCatalog.width at nonneg small ⊢
  rw [Int.emod_eq_of_lt nonneg (by omega)] at bound
  exact bound

def newTable (name : FileName) (attrs : List AttrInfo) (accepted : db.refusal name attrs = none)
    (creatable : Creatable attrs) : Table where
  descs := RelCatalog.attrDescs name 0 attrs
  rows := 0
  described := by
    have some_ := (Database.refusal_none accepted).2.1
    cases attrs with
    | nil => exact absurd rfl some_
    | cons attr attrs => exact List.cons_ne_nil _ _
  schema := by
    obtain ⟨nonempty, some_, short, _, distinct, fits⟩ := Database.refusal_none accepted
    have unlisted : RelCatalog.refusal [] name attrs = none := by
      unfold RelCatalog.refusal
      have present : ¬(name = [] ∨ attrs.length < 1) := by
        rw [Nat.lt_one_iff, List.length_eq_zero_iff]
        exact not_or.mpr ⟨nonempty, some_⟩
      rw [if_neg present, if_neg (Nat.not_le.mpr short), if_neg (by simp),
        if_neg (not_not.mpr distinct), if_neg (not_lt.mpr fits)]
    apply RelCatalog.attr_descs_schema unlisted creatable.lengths
    intro attr member
    obtain ⟨type, code, _, word⟩ := creatable.type member
    exact ⟨type, code, word⟩
  named := by
    intro desc member
    obtain ⟨_, attr, listed, same, _⟩ := attr_descs_mem member
    rw [same]
    exact (creatable.named attr listed).1
  narrow := by
    unfold width
    rw [RelCatalog.attr_descs_lengths]
    exact Database.accepted_width accepted creatable
  sized := by simp

theorem accepted_user (terminated : 0 ∉ name) (accepted : db.refusal name attrs = none) :
    UserName name := by
  obtain ⟨nonempty, _, short, fresh, _⟩ := Database.refusal_none accepted
  exact ⟨⟨nonempty, terminated, short⟩, (Database.describe_nil_iff.mp fresh).2⟩

theorem new_table_own (terminated : 0 ∉ name) :
    ∀ desc ∈ RelCatalog.attrDescs name 0 attrs, desc.relName = name := by
  intro desc member
  rw [(attr_descs_mem member).1, Scanner.c_string_whole terminated]

def createRel (name : FileName) (attrs : List AttrInfo) : Query Status := fun db =>
  if terminated : 0 ∉ name then
    match accepted : db.refusal name attrs with
    | some status => some (status, db)
    | none =>
        if creatable : Creatable attrs then
          some (.OK, db.put name (newTable name attrs accepted creatable)
            (accepted_user terminated accepted) (new_table_own terminated))
        else none
  else none

def destroyRel (name : FileName) : Query Status := fun db =>
  if name = [] ∨ name = RELCATNAME ∨ name = ATTRCATNAME then some (.BADCATPARM, db)
  else if ProperName name then
    if db.describe name = [] then some (.RELNOTFOUND, db) else some (.OK, db.drop name)
  else none

end Definitions

end PrimitiveDB.Relational

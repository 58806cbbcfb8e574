import PrimitiveDB.CreatedRelations
import PrimitiveDB.GeneratedSchemas
import PrimitiveDB.LoadUtility
import PrimitiveDB.TupleWidths

/-!
# Generated data loads back

The layout of a generated row is written three times: as a row format, as a DDL from which
`createRel` computes offsets, and as the widths that `UT_Load` adds up. They agree, so a scan of
the loaded relation returns the generated rows, and each value lies where the catalog says.
-/

namespace PrimitiveDB

open World DbM ByteMemory FixedRows Grammar

set_option autoImplicit false

/-- A database between two statements. `attrcat` describes attributes of the relations that
`relcat` lists, and of no others. -/
structure Catalogs (w : World) where
  pins : List Pin
  opens : List FilePtr
  relLf : LogicalFile
  attrLf : LogicalFile
  relChain : List Int
  attrChain : List Int
  storage : w.Storage pins opens
  owned : ∀ pin ∈ pins, pin.file ∈ opens
  relStores : w.Stores RELCATNAME relLf relChain
  attrStores : w.Stores ATTRCATNAME attrLf attrChain
  relSized : ∀ rec ∈ relLf.tuples relChain, rec.length = RelDesc.size
  attrSized : ∀ rec ∈ attrLf.tuples attrChain, rec.length = AttrDesc.size
  described : ∀ rec ∈ attrLf.tuples attrChain,
    ∃ listing ∈ relLf.tuples relChain, cString listing = cString rec

namespace DataGenerator

def rowSize (columns : List Column) : Nat :=
  (columns.map fun column => column.fmt.size).sum

section Layout

variable {packFloat : PackFloat} {columns front back : List Column} {column : Column} {i : Nat}

theorem encodes_lengths {parts : List (List Byte)}
    (encodes : List.Forall₂ (Column.Encodes packFloat i) columns parts) :
    parts.map List.length = columns.map fun column => column.fmt.size := by
  induction encodes with
  | nil => rfl
  | cons here _ ih => rw [List.map_cons, List.map_cons, here.length, ih]

theorem pack_row_length {row : List Byte} (packed : packRow packFloat columns i = .ok row) :
    row.length = rowSize columns := by
  obtain ⟨parts, encodes, rfl⟩ := pack_row_ok packed
  rw [List.length_flatten, encodes_lengths encodes]
  rfl

theorem encodes_split {parts : List (List Byte)}
    (encodes : List.Forall₂ (Column.Encodes packFloat i) (front ++ column :: back) parts) :
    ∃ before part behind, parts = before ++ part :: behind ∧
      List.Forall₂ (Column.Encodes packFloat i) front before ∧
      column.Encodes packFloat i part := by
  induction front generalizing parts with
  | nil =>
      cases encodes with
      | @cons _ part _ behind here _ => exact ⟨[], part, behind, rfl, .nil, here⟩
  | cons first front ih =>
      cases encodes with
      | @cons _ part' _ parts here rest =>
          obtain ⟨before, part, behind, rfl, befores, encoded⟩ := ih rest
          exact ⟨part' :: before, part, behind, rfl, .cons here befores, encoded⟩

/-- The value of a column lies behind those of the columns before it. -/
theorem pack_row_column {row : List Byte}
    (packed : packRow packFloat (front ++ column :: back) i = .ok row) :
    column.Encodes packFloat i ((row.drop (rowSize front)).take column.fmt.size) := by
  obtain ⟨parts, encodes, rfl⟩ := pack_row_ok packed
  obtain ⟨before, part, behind, rfl, befores, encoded⟩ := encodes_split encodes
  have field := field_of_flatten before part behind
  rw [encodes_lengths befores, encoded.length] at field
  unfold rowSize
  rw [field]
  exact encoded

theorem width_columns (relation : FileName) (columns : List Column) :
    RelCatalog.width (columns.map (Column.info relation)) = rowSize columns := by
  induction columns with
  | nil => rfl
  | cons column columns ih =>
      unfold RelCatalog.width rowSize at ih ⊢
      simp only [List.map_cons, List.sum_cons] at ih ⊢
      rw [ih, Nat.cast_add]
      rfl

def Column.desc (relation : FileName) (offset : Int) (column : Column) : AttrDesc :=
  { relName := cString relation, attrName := cString (encode column.name), attrOffset := offset
    attrType := column.fmt.datatype.code, attrLen := column.fmt.size }

/-- `createRel` puts the column at the offset that it has in the row. -/
theorem attr_descs_column (relation : FileName) (offset : Int) (front back : List Column)
    (column : Column) :
    column.desc relation (offset + rowSize front) ∈
      RelCatalog.attrDescs relation offset
        ((front ++ column :: back).map (Column.info relation)) := by
  induction front generalizing offset with
  | nil =>
      simp only [rowSize, List.map_nil, List.sum_nil, Nat.cast_zero, Int.add_zero]
      exact List.mem_cons_self
  | cons first front ih =>
      have later := ih (offset + first.fmt.size)
      have total : ((rowSize (first :: front) : Nat) : Int) =
          first.fmt.size + rowSize front := by
        unfold rowSize
        rw [List.map_cons, List.sum_cons, Nat.cast_add]
      rw [total, ← Int.add_assoc]
      exact List.mem_cons_of_mem _ later

theorem info_types (relation : FileName) (columns : List Column) :
    ∀ attr ∈ columns.map (Column.info relation), ∃ type : Datatype, attr.attrType = type.code ∧
      Datatype.ofCode attr.attrType = some type ∧ (type ≠ .STRING → attr.attrLen = 4) := by
  rw [List.forall_mem_map]
  intro column _
  obtain ⟨name, gen, fmt, ddl⟩ := column
  cases fmt with
  | i => exact ⟨.INTEGER, rfl, rfl, fun _ => rfl⟩
  | f => exact ⟨.FLOAT, rfl, rfl, fun _ => rfl⟩
  | s width => exact ⟨.STRING, rfl, rfl, fun other => absurd rfl other⟩

end Layout

/-- At the place in the row that the catalog gives for the column there are the bytes of the
value that the column generates. -/
def HoldsColumn (packFloat : PackFloat) (w : World) (relation : FileName) (i : Nat) (row : Record)
    (column : Column) : Prop :=
  ∃ desc, (∀ mem tmpRid, Smoothly (AttrCatalog.getInfo mem tmpRid relation (encode column.name)) w
      fun result _ => result = .ok desc) ∧
    column.Encodes packFloat i (desc.bytes row)

section Table

variable {w w' : World} {relation : FileName} {columns : List Column}

/-- The database behind the DDL: the catalogs and the empty heap file of the table. -/
structure Prepared (w : World) (relation : FileName) (columns : List Column) where
  pins : List Pin
  opens : List FilePtr
  relLf : LogicalFile
  attrLf : LogicalFile
  lf : LogicalFile
  relChain : List Int
  attrChain : List Int
  storage : w.Storage pins opens
  owned : ∀ pin ∈ pins, pin.file ∈ opens
  loadable : Loadable w relLf attrLf relChain attrChain relation lf [2] (rowSize columns)
  empty : lf.tuples [2] = []
  described : (AttrCatalog.describe (attrLf.tuples attrChain) relation).Perm
    (RelCatalog.attrDescs relation 0 (columns.map (Column.info relation)))
  schema : Schema (AttrCatalog.describe (attrLf.tuples attrChain) relation)

theorem prepared_of_created (catalogs : Catalogs w) {mem : Uninit} {tmpRid : RID}
    (created : RelCatalog.createRel mem tmpRid relation (columns.map (Column.info relation)) w =
      (.ok .OK, w')) (terminated : 0 ∉ relation)
    (positive : ∀ column ∈ columns, 1 ≤ column.fmt.size) (narrow : rowSize columns ≤ 1000)
    (smooth : w'.bufFailed = false) : Nonempty (Prepared w' relation columns) := by
  obtain ⟨pins, opens, relLf₀, attrLf₀, relChain₀, attrChain₀, storage, owned, relStores,
    attrStores, relSized, attrSized, listed⟩ := catalogs
  obtain ⟨relLf, attrLf, lf, relChain, attrChain, created⟩ :=
    storage.created owned relStores attrStores relSized terminated created smooth
  obtain ⟨nonempty, short, fresh, names, _⟩ := RelCatalog.refusal_none created.accepted
  have lengths : ∀ attr ∈ columns.map (Column.info relation), 1 ≤ attr.attrLen := by
    rw [List.forall_mem_map]
    intro column member
    have least := positive column member
    change (1 : Int) ≤ (column.fmt.size : Int)
    omega
  have width := width_columns relation columns
  have storable := attr_descs_storable short created.short lengths (by omega)
    fun attr member => (info_types relation columns attr member).imp fun _ => And.left
  have described := created.described terminated (fun rec member same => by
    obtain ⟨listing, inside, equal⟩ := listed rec member
    exact fresh ⟨listing, inside, equal.trans same⟩) storable
  have schema : Schema (AttrCatalog.describe (attrLf.tuples attrChain) relation) :=
    (RelCatalog.attr_descs_schema created.accepted lengths fun attr member =>
      (info_types relation columns attr member).imp fun _ => And.right).perm described
  obtain ⟨relSized', attrSized'⟩ := created.sized relSized attrSized
  have summed : ((AttrCatalog.describe (attrLf.tuples attrChain) relation).map
      AttrDesc.attrLen).sum = (rowSize columns : Int) := by
    rw [(described.map AttrDesc.attrLen).sum_eq, RelCatalog.attr_descs_lengths]
    exact width
  have wide : 0 < rowSize columns := by
    obtain ⟨attr, member⟩ := List.exists_mem_of_ne_nil _ created.nonempty
    obtain ⟨column, inside, rfl⟩ := List.mem_map.mp member
    have least := List.single_le_sum (fun size _ => Nat.zero_le size) column.fmt.size
      (List.mem_map_of_mem (f := fun column => column.fmt.size) inside)
    have one := positive column inside
    unfold rowSize
    omega
  exact ⟨⟨pins, opens, relLf, attrLf, lf, relChain, attrChain, created.storage, owned,
    ⟨created.relStores, created.attrStores, relSized', attrSized',
      ⟨nonempty, terminated, short⟩, created.user, created.listed terminated, created.stores,
      summed, wide, narrow⟩, created.empty, described, schema⟩⟩

theorem Prepared.holds_column (prepared : Prepared w relation columns) {opens : List FilePtr}
    {pins : List Pin} (storage : w'.Storage pins opens) (owned : ∀ pin ∈ pins, pin.file ∈ opens)
    (attrStores : w'.Stores ATTRCATNAME prepared.attrLf prepared.attrChain)
    {packFloat : PackFloat} {i : Nat} {row : Record}
    (packed : packRow packFloat columns i = .ok row) {column : Column} (member : column ∈ columns)
    (named : IsIdentifier column.name) : HoldsColumn packFloat w' relation i row column := by
  obtain ⟨front, back, rfl⟩ := List.append_of_mem member
  have listed := prepared.described.mem_iff.mpr (attr_descs_column relation 0 front back column)
  have found := prepared.schema.lookup_listed listed
  rw [show (column.desc relation (0 + rowSize front)).attrName = encode column.name from
    Scanner.c_string_whole named.terminated] at found
  refine ⟨column.desc relation (0 + rowSize front), fun mem tmpRid => ?_, ?_⟩
  · apply (storage.attr_get_info owned attrStores prepared.loadable.attrSized
      prepared.loadable.proper named.encode_ne_nil mem tmpRid).mono
    rintro result w₁ ⟨_, rfl⟩
    rw [found]
  · have encoded := pack_row_column packed
    rw [← Int.toNat_natCast (rowSize front), ← Int.toNat_natCast column.fmt.size,
      ← Int.zero_add (rowSize front : Int)] at encoded
    exact encoded

theorem Prepared.load_and_scan (prepared : Prepared w relation columns)
    {files : FileName → Option DataFile} {fileName : FileName} {fd : DataFile}
    (named : fileName ≠ []) (found : files fileName = some fd) (mem : Uninit) (tmpRid : RID) :
    Smoothly (UT_Load mem tmpRid files relation fileName) w fun status w' =>
      status = (if fd.closes then .OK else .UNIXERR) ∧ w'.Storage prepared.pins prepared.opens ∧
        w'.Stores ATTRCATNAME prepared.attrLf prepared.attrChain ∧
        ∀ mem' tmpRid', Smoothly (HeapFileScan.readRecords mem' tmpRid' relation) w'
          fun result _ => result = .ok (wholeRows (rowSize columns) fd.bytes) := by
  have loadable := prepared.loadable
  apply (prepared.storage.ut_load prepared.owned loadable named found mem tmpRid).mono
  rintro status w' ⟨rfl, storage, lf, chain, logical, stores, appended⟩
  refine ⟨rfl, storage, ⟨?_, loadable.attrStores.formed⟩, fun mem' tmpRid' => ?_⟩
  · rw [logical, Function.update_of_ne loadable.user.2.symm]
    exact loadable.attrStores.logical
  · apply (storage.read_records prepared.owned stores loadable.proper.nonempty mem' tmpRid').mono
    rintro result w₁ ⟨rfl, _⟩
    -- nothing was in front of the rows
    rw [(appended.ordered (loadable.stores.formed.packed_of_empty prepared.empty)).2,
      prepared.empty, List.nil_append]

end Table

/-- A file that was loaded into the table of a printed DDL is scanned as its whole rows. If it
is the generated file, whatever is cut off behind it, these are the generated rows. -/
theorem generated_rows_load_back {table : CharTable} {random : Nat → Random}
    {packFloat : PackFloat} {args : Args} {output : Output} {columns : List Column}
    (generated : main table random packFloat args = .ok output)
    (parsed : parse_schema table random args.schema args.rows.toNat = .ok columns)
    (relationNamed : IsIdentifier args.table)
    (columnsNamed : ∀ column ∈ columns, IsIdentifier column.name)
    (narrow : rowSize columns ≤ 1000) {w w₁ w₂ w₃ : World} (catalogs : Catalogs w)
    {toFloat : List Byte → List Byte} {address : Text → Int} {mem mem' mem'' : Uninit}
    {tmpRid tmpRid' tmpRid'' : RID}
    (accepts : Accepts toFloat address mem tmpRid (encode output.ddl) w w₁)
    {files : FileName → Option DataFile} {fileName : FileName} {fd : DataFile}
    (fileNamed : fileName ≠ []) (found : files fileName = some fd) {loaded : Outcome Status}
    (loads : UT_Load mem' tmpRid' files (encode args.table) fileName w₁ = (loaded, w₂))
    {scanned : Outcome (Except Status (List Record))}
    (scans : HeapFileScan.readRecords mem'' tmpRid'' (encode args.table) w₂ = (scanned, w₃))
    (smooth : w₃.bufFailed = false) :
    loaded = .ok (if fd.closes then .OK else .UNIXERR) ∧
      scanned = .ok (.ok (wholeRows (rowSize columns) fd.bytes)) ∧
      ∀ rest, fd.bytes = output.file ++ rest → rest.length < rowSize columns →
        (wholeRows (rowSize columns) fd.bytes).length = args.rows.toNat ∧
          ∀ i row, (wholeRows (rowSize columns) fd.bytes)[i]? = some row →
            ∀ column ∈ columns,
              HoldsColumn packFloat w₂ (encode args.table) i row column := by
  obtain ⟨columns', rows, parsed', packed, file, ddl⟩ := main_ok generated
  rw [parsed] at parsed'
  cases parsed'
  have bounded : ∀ column ∈ columns, column.fmt.size ≤ 1000 := by
    intro column member
    exact (List.single_le_sum (fun size _ => Nat.zero_le size) column.fmt.size
      (List.mem_map_of_mem (f := fun column => column.fmt.size) member)).trans narrow
  rw [ddl] at accepts
  obtain ⟨created, positive⟩ :=
    accepts.creates relationNamed (parse_fields_ddl parsed) columnsNamed bounded
  -- no call has failed on the way
  have smooth₂ : w₂.bufFailed = false := by
    apply (HeapFileScan.read_records_keeps mem'' tmpRid'' (encode args.table)).early
    rw [scans]
    exact smooth
  have smooth₁ : w₁.bufFailed = false := by
    apply (ut_load_keeps mem' tmpRid' files (encode args.table) fileName).early
    rw [loads]
    exact smooth₂
  obtain ⟨prepared⟩ :=
    prepared_of_created catalogs created relationNamed.terminated positive narrow smooth₁
  obtain ⟨status, rfl, rfl, storage, attrStores, reads⟩ :=
    (prepared.load_and_scan fileNamed found mem' tmpRid').result loads smooth₂
  obtain ⟨records, rfl, rfl⟩ := (reads mem'' tmpRid'').result scans smooth
  refine ⟨rfl, rfl, ?_⟩
  intro rest bytes cut
  have sized : ∀ row ∈ rows, row.length = rowSize columns := by
    intro row member
    obtain ⟨index, bound, rfl⟩ := List.mem_iff_getElem.mp member
    exact pack_row_length (packed.get (by rw [packed.length_eq]; exact bound) bound)
  rw [bytes, file, whole_rows_flatten sized cut]
  refine ⟨by rw [← packed.length_eq, List.length_range'], ?_⟩
  intro i row here column member
  obtain ⟨inside, rfl⟩ := List.getElem?_eq_some_iff.mp here
  have this := packed.get (by rw [packed.length_eq]; exact inside) inside
  rw [List.get_eq_getElem, List.getElem_range', Nat.zero_add, Nat.one_mul] at this
  exact prepared.holds_column storage prepared.owned attrStores this member
    (columnsNamed column member)

open HeapSession (zeroMemory)

def asciiTable : CharTable where
  isSpace := fun char => char = ' '
  decimal := fun char =>
    if digit : 48 ≤ char.toNat ∧ char.toNat ≤ 57 then some ⟨char.toNat - 48, by omega⟩ else none

def unshuffled : Random := ⟨fun _ => 1, fun _ => 0⟩

def newCatalogs : Catalogs newDatabase where
  pins := []
  opens := []
  relLf := tableFile RELCATNAME [relCatDesc.toRecord, attrCatDesc.toRecord]
  attrLf := tableFile ATTRCATNAME ((relCatAttrs ++ attrCatAttrs).map AttrDesc.toRecord)
  relChain := [2]
  attrChain := [2]
  storage := new_database_storage
  owned := by simp
  relStores := new_database_rel_cat
  attrStores := new_database_attr_cat
  relSized := by decide +kernel
  attrSized := by decide +kernel
  described := by decide +kernel

def oneFile (bytes : List Byte) (fileName : FileName) : Option DataFile :=
  if fileName = [102] then some ⟨bytes, true⟩ else none

def intAndChar : Args :=
  { rows := 2, table := ['R']
    schema := ['a', ':', 'i', 'n', 't', ',', ' ', 'b', ':', 'c', 'h', 'a', 'r', '(', '3', ')'] }

theorem generated_rows_load_back_two :
    ∃ output w₁ w₂ w₃, main asciiTable (fun _ => unshuffled) (fun _ => none) intAndChar =
        .ok output ∧
      Accepts id (fun _ => 0) zeroMemory NULLRID (encode output.ddl) newDatabase w₁ ∧
      UT_Load zeroMemory NULLRID (oneFile (output.file ++ [9])) [82] [102] w₁ = (.ok .OK, w₂) ∧
      HeapFileScan.readRecords zeroMemory NULLRID [82] w₂ =
        (.ok (.ok [[0, 0, 0, 0, 48, 48, 0], [1, 0, 0, 0, 48, 49, 0]]), w₃) := by
  have parsed : ∃ columns, parse_schema asciiTable (fun _ => unshuffled) intAndChar.schema
      intAndChar.rows.toNat = .ok columns ∧ columns.map Column.name = [['a'], ['b']] ∧
      rowSize columns = 7 := ⟨_, rfl, rfl, rfl⟩
  obtain ⟨columns, parsed, names, size⟩ := parsed
  have generated : main asciiTable (fun _ => unshuffled) (fun _ => none) intAndChar =
      .ok ⟨[0, 0, 0, 0, 48, 48, 0, 1, 0, 0, 0, 48, 49, 0], ddlStr ['R']
        [['a', ' ', 'i', 'n', 't'], ['b', ' ', 'c', 'h', 'a', 'r', '(', '3', ')']]⟩ := rfl
  obtain ⟨w₁, created, smooth⟩ : ∃ w₁, RelCatalog.createRel zeroMemory NULLRID [82]
      (createAttrs [82] [([97], .INTEGER, 4), ([98], .STRING, 3)]) newDatabase = (.ok .OK, w₁) ∧
        (HeapFileScan.readRecords zeroMemory NULLRID [82] (UT_Load zeroMemory NULLRID
          (oneFile [0, 0, 0, 0, 48, 48, 0, 1, 0, 0, 0, 48, 49, 0, 9]) [82] [102] w₁).2).2.bufFailed =
            false :=
    ⟨_, DbM.run_of_value (by decide +kernel), by decide +kernel⟩
  have accepts : Accepts id (fun _ => 0) zeroMemory NULLRID (encode (ddlStr ['R']
      [['a', ' ', 'i', 'n', 't'], ['b', ' ', 'c', 'h', 'a', 'r', '(', '3', ')']])) newDatabase w₁ :=
    ⟨[82], .cons (.int [97]) (.single (.char [98] (.INTEGER 3))), none, _, _, _,
      [([97], .INTEGER, 4), ([98], .STRING, 3)], by decide +kernel, rfl, rfl, created⟩
  have named : ∀ column ∈ columns, IsIdentifier column.name := by
    intro column member
    have listed := List.mem_map_of_mem (f := Column.name) member
    rw [names, List.mem_cons, List.mem_singleton] at listed
    rcases listed with same | same
    · exact ⟨'a', [], same, by decide, by simp⟩
    · exact ⟨'b', [], same, by decide, by simp⟩
  rcases loads : UT_Load zeroMemory NULLRID
    (oneFile [0, 0, 0, 0, 48, 48, 0, 1, 0, 0, 0, 48, 49, 0, 9]) [82] [102] w₁ with ⟨loaded, w₂⟩
  rcases scans : HeapFileScan.readRecords zeroMemory NULLRID [82] w₂ with ⟨scanned, w₃⟩
  rw [loads, scans] at smooth
  obtain ⟨rfl, rfl, _⟩ := generated_rows_load_back generated parsed
    ⟨'R', [], rfl, by decide, by simp⟩ named (by rw [size]; decide) newCatalogs accepts
    (List.cons_ne_nil 102 []) rfl loads scans smooth
  rw [size] at scans
  exact ⟨_, w₁, w₂, w₃, generated, accepts, loads, scans⟩

def commentedColumn : Args :=
  { rows := 1, table := ['R']
    schema := ['x', '/', '*', ':', 'i', 'n', 't', ',', '*', '/', ':', 'i', 'n', 't'] }

/-- `create table R (x/* int, */ int);` has one column for the two of the schema, and the one
row of eight bytes is loaded as two. -/
theorem commented_column_row_loads_twice :
    ∃ output w₁ w₂ w₃, main asciiTable (fun _ => unshuffled) (fun _ => none) commentedColumn =
        .ok output ∧
      Accepts id (fun _ => 0) zeroMemory NULLRID (encode output.ddl) newDatabase w₁ ∧
      UT_Load zeroMemory NULLRID (oneFile output.file) [82] [102] w₁ = (.ok .OK, w₂) ∧
      HeapFileScan.readRecords zeroMemory NULLRID [82] w₂ =
        (.ok (.ok [[0, 0, 0, 0], [0, 0, 0, 0]]), w₃) ∧
      w₃.bufFailed = false ∧ commentedColumn.rows = 1 := by
  have generated : main asciiTable (fun _ => unshuffled) (fun _ => none) commentedColumn =
      .ok ⟨[0, 0, 0, 0, 0, 0, 0, 0], ddlStr ['R']
        [['x', '/', '*', ' ', 'i', 'n', 't'], ['*', '/', ' ', 'i', 'n', 't']]⟩ := rfl
  obtain ⟨w₁, created, loaded, scanned, smooth⟩ : ∃ w₁,
      RelCatalog.createRel zeroMemory NULLRID [82] (createAttrs [82] [([120], .INTEGER, 4)])
        newDatabase = (.ok .OK, w₁) ∧
      (UT_Load zeroMemory NULLRID (oneFile [0, 0, 0, 0, 0, 0, 0, 0]) [82] [102] w₁).1 = .ok .OK ∧
      (HeapFileScan.readRecords zeroMemory NULLRID [82] (UT_Load zeroMemory NULLRID
        (oneFile [0, 0, 0, 0, 0, 0, 0, 0]) [82] [102] w₁).2).1 =
          .ok (.ok [[0, 0, 0, 0], [0, 0, 0, 0]]) ∧
      (HeapFileScan.readRecords zeroMemory NULLRID [82] (UT_Load zeroMemory NULLRID
        (oneFile [0, 0, 0, 0, 0, 0, 0, 0]) [82] [102] w₁).2).2.bufFailed = false :=
    ⟨_, DbM.run_of_value (by decide +kernel), by decide +kernel, by decide +kernel,
      by decide +kernel⟩
  have accepts : Accepts id (fun _ => 0) zeroMemory NULLRID (encode (ddlStr ['R']
      [['x', '/', '*', ' ', 'i', 'n', 't'], ['*', '/', ' ', 'i', 'n', 't']])) newDatabase w₁ :=
    ⟨[82], .single (.int [120]), none, _, _, _, [([120], .INTEGER, 4)], by decide +kernel, rfl,
      rfl, created⟩
  exact ⟨_, w₁, _, _, generated, accepts, DbM.run_of_value loaded, DbM.run_of_value scanned,
    smooth, rfl⟩

end DataGenerator

end PrimitiveDB

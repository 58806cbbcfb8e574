import PrimitiveDB.InsertQueries
import PrimitiveDB.Scanner

/-!
# Relations that have been created

What the catalogs say after `createRel` has returned `OK`: their old tuples, one tuple for the
relation and one for every attribute, which read back as they were described. Where in the
catalogs the new tuples are depends on the holes of their last pages.
-/

namespace PrimitiveDB

open World DbM ByteMemory

set_option autoImplicit false

theorem c_string_name_field {name : List Byte} (terminated : 0 ∉ name)
    (short : name.length < MAXNAME) (rest : List Byte) : cString (nameField name ++ rest) = name := by
  have more : MAXNAME - name.length = (MAXNAME - name.length - 1) + 1 := by omega
  rw [nameField, more, List.replicate_succ, List.append_assoc, List.cons_append]
  exact Scanner.c_string_ended name _ terminated

theorem int_behind (front : List Byte) (value : Int) (rest : List Byte) {offset : Nat}
    (length : front.length = offset) :
    readInt (ScanFilter.bytesAt (front ++ (intBytes value ++ rest)) offset) 0 = toInt value := by
  rw [← int_of_int_bytes, intOf, ← bytes_at_drop, List.drop_left' length]
  apply read_int_congr
  intro index bound
  have inside : index < (intBytes value).length := bound
  simp only [ScanFilter.bytesAt, Nat.zero_add, List.getD_eq_getElem?_getD,
    List.getElem?_append_left inside]

/-- A description that a tuple of `attrcat` can hold. -/
structure AttrDesc.Storable (desc : AttrDesc) : Prop where
  relTerminated : 0 ∉ desc.relName
  relShort : desc.relName.length < MAXNAME
  attrTerminated : 0 ∉ desc.attrName
  attrShort : desc.attrName.length < MAXNAME
  offset : toInt desc.attrOffset = desc.attrOffset
  type : toInt desc.attrType = desc.attrType
  len : toInt desc.attrLen = desc.attrLen

theorem AttrDesc.Storable.of_record {desc : AttrDesc} (storable : desc.Storable) :
    AttrDesc.ofRecord desc.toRecord = desc := by
  obtain ⟨relName, attrName, attrOffset, attrType, attrLen⟩ := desc
  obtain ⟨relTerminated, relShort, attrTerminated, attrShort, offset, type, len⟩ := storable
  have relLength : (nameField relName).length = 32 := name_field_length relShort.le
  have attrLength : (nameField attrName).length = 32 := name_field_length attrShort.le
  unfold AttrDesc.ofRecord AttrDesc.toRecord
  rw [AttrDesc.mk.injEq]
  refine ⟨?_, ?_, ?_, ?_, ?_⟩
  · simp only [List.append_assoc]
    exact c_string_name_field relTerminated relShort _
  · simp only [List.append_assoc]
    rw [List.drop_left' relLength]
    exact c_string_name_field attrTerminated attrShort _
  · rw [List.append_assoc, List.append_assoc, int_behind _ _ _ (by simp [relLength, attrLength])]
    exact offset
  · rw [List.append_assoc, int_behind _ _ _ (by simp [relLength, attrLength, intBytes])]
    exact type
  · have behind : (nameField relName ++ nameField attrName ++ intBytes attrOffset ++
        intBytes attrType).length = 72 := by simp [relLength, attrLength, intBytes]
    have ends := int_behind _ attrLen [] behind
    rw [List.append_nil] at ends
    rw [ends]
    exact len

theorem c_string_attr_record {desc : AttrDesc} (terminated : 0 ∉ desc.relName)
    (short : desc.relName.length < MAXNAME) : cString desc.toRecord = desc.relName := by
  simp only [AttrDesc.toRecord, List.append_assoc]
  exact c_string_name_field terminated short _

theorem c_string_rel_record {desc : RelDesc} (terminated : 0 ∉ desc.relName)
    (short : desc.relName.length < MAXNAME) : cString desc.toRecord = desc.relName :=
  c_string_name_field terminated short _

/-- The catalogs and the heap file of a relation that has just been created. -/
structure Created (w : World) (pins : List Pin) (opens : List FilePtr)
    (relTuples attrTuples : List Record) (relation : FileName) (attrList : List AttrInfo)
    (relLf attrLf lf : LogicalFile) (relChain attrChain : List Int) : Prop where
  storage : w.Storage pins opens
  relStores : w.Stores RELCATNAME relLf relChain
  relPerm : (relLf.tuples relChain).Perm
    (relTuples ++ [(RelCatalog.relDesc relation attrList).toRecord])
  attrStores : w.Stores ATTRCATNAME attrLf attrChain
  attrPerm : (attrLf.tuples attrChain).Perm
    (attrTuples ++ (RelCatalog.attrDescs relation 0 attrList).map AttrDesc.toRecord)
  stores : w.Stores relation lf [2]
  empty : lf.tuples [2] = []
  accepted : RelCatalog.refusal relTuples relation attrList = none
  short : ∀ attr ∈ attrList, (cString attr.attrName).length < MAXNAME
  user : relation ≠ RELCATNAME ∧ relation ≠ ATTRCATNAME

theorem World.Storage.created {w w' : World} {pins : List Pin} {opens : List FilePtr}
    {relation : FileName} {relLf attrLf : LogicalFile} {relChain attrChain : List Int}
    (storage : w.Storage pins opens) (owned : ∀ pin ∈ pins, pin.file ∈ opens)
    (relStores : w.Stores RELCATNAME relLf relChain)
    (attrStores : w.Stores ATTRCATNAME attrLf attrChain)
    (relSized : ∀ rec ∈ relLf.tuples relChain, rec.length = RelDesc.size)
    (terminated : 0 ∉ relation) {attrList : List AttrInfo} {mem : Uninit} {tmpRid : RID}
    (created : RelCatalog.createRel mem tmpRid relation attrList w = (.ok .OK, w'))
    (smooth : w'.bufFailed = false) :
    ∃ relLf' attrLf' lf relChain' attrChain',
      Created w' pins opens (relLf.tuples relChain) (attrLf.tuples attrChain) relation attrList
        relLf' attrLf' lf relChain' attrChain' := by
  obtain ⟨_, same, outcome⟩ := (storage.create_rel owned relStores attrStores relSized terminated
    attrList mem tmpRid).result created smooth
  cases same
  rcases outcome with ⟨refused, _⟩ |
    ⟨accepted, done, rest, w₁, whole, describes, ⟨wrong, _⟩ | ⟨all, creates⟩⟩
  · exact absurd refused RelCatalog.refusal_ne_ok
  · cases wrong
  subst all
  rw [List.append_nil] at whole
  subst whole
  obtain ⟨w₂, relLf', attrLf', relAdds, attrAdds⟩ := describes.adds
  obtain ⟨relChain', relStores', _, relAppended⟩ := relAdds.stores relStores
  have attrStores₂ : w₂.Stores ATTRCATNAME attrLf attrChain := by
    refine ⟨?_, attrStores.formed⟩
    rw [relAdds.logical, Function.update_of_ne (by decide)]
    exact attrStores.logical
  obtain ⟨attrChain', attrStores', _, attrAppended⟩ := attrAdds.stores attrStores₂
  have relLogical : w₁.logical RELCATNAME = some relLf' := by
    rw [attrAdds.logical, Function.update_of_ne (by decide)]
    exact relStores'.logical
  cases creates with
  | @created lf absent storage' names logical first formed noRids =>
      have notRel : relation ≠ RELCATNAME := by
        rintro rfl
        rw [absent] at relLogical
        cases relLogical
      have notAttr : relation ≠ ATTRCATNAME := by
        rintro rfl
        have present := attrStores'.logical
        rw [absent] at present
        cases present
      refine ⟨relLf', attrLf', lf, relChain', attrChain', storage', ⟨?_, relStores'.formed⟩,
        relAppended.perm, ⟨?_, attrStores'.formed⟩, attrAppended.perm, ⟨?_, ?_⟩, ?_, accepted,
        describes.short, notRel, notAttr⟩
      · rw [logical, Function.update_of_ne notRel.symm]
        exact relLogical
      · rw [logical, Function.update_of_ne notAttr.symm]
        exact attrStores'.logical
      · rw [logical, Function.update_self]
      · rw [first]
        exact formed
      · exact LogicalFile.tuples_nil_iff.mpr noRids

section Described

variable {relation : FileName} {attrs : List AttrInfo}

theorem c_string_terminated_self (bytes : List Byte) : 0 ∉ cString bytes := by
  intro member
  have nonzero := List.mem_takeWhile_imp member
  simp at nonzero

theorem attr_descs_mem {offset : Int} {desc : AttrDesc}
    (member : desc ∈ RelCatalog.attrDescs relation offset attrs) :
    desc.relName = cString relation ∧ ∃ attr ∈ attrs, desc.attrName = cString attr.attrName ∧
      desc.attrType = attr.attrType ∧ desc.attrLen = attr.attrLen := by
  induction attrs generalizing offset with
  | nil => cases member
  | cons attr attrs ih =>
      rcases List.mem_cons.mp member with rfl | later
      · exact ⟨rfl, attr, List.mem_cons_self, rfl, rfl, rfl⟩
      · obtain ⟨relName, other, listed, same⟩ := ih later
        exact ⟨relName, other, List.mem_cons_of_mem attr listed, same⟩

/-- Attributes of a relation that is not too wide can be described. -/
theorem attr_descs_storable (short : relation.length < MAXNAME)
    (named : ∀ attr ∈ attrs, (cString attr.attrName).length < MAXNAME)
    (lengths : ∀ attr ∈ attrs, 1 ≤ attr.attrLen) (width : RelCatalog.width attrs < 2147483648)
    (types : ∀ attr ∈ attrs, ∃ type : Datatype, attr.attrType = type.code) :
    ∀ desc ∈ RelCatalog.attrDescs relation 0 attrs, desc.Storable := by
  intro desc member
  obtain ⟨relName, attr, listed, attrName, attrType, attrLen⟩ := attr_descs_mem member
  have bounds := RelCatalog.attr_descs_bounds lengths desc member
  have positive := lengths attr listed
  obtain ⟨type, code⟩ := types attr listed
  refine ⟨?_, ?_, ?_, ?_, ?_, ?_, ?_⟩
  · rw [relName]
    exact c_string_terminated_self _
  · rw [relName]
    exact (c_string_length relation).trans_lt short
  · rw [attrName]
    exact c_string_terminated_self _
  · rw [attrName]
    exact named attr listed
  · exact to_int_of_fits (by omega) (by omega)
  · rw [attrType, code]
    cases type <;> rfl
  · exact to_int_of_fits (by omega) (by omega)

variable {w : World} {pins : List Pin} {opens : List FilePtr} {relTuples attrTuples : List Record}
  {relLf attrLf lf : LogicalFile} {relChain attrChain : List Int}

/-- A relation of which nothing was left in `attrcat` is described by its attributes. -/
theorem Created.described (created : Created w pins opens relTuples attrTuples relation attrs
      relLf attrLf lf relChain attrChain) (terminated : 0 ∉ relation)
    (fresh : ∀ rec ∈ attrTuples, cString rec ≠ relation)
    (storable : ∀ desc ∈ RelCatalog.attrDescs relation 0 attrs, desc.Storable) :
    (AttrCatalog.describe (attrLf.tuples attrChain) relation).Perm
      (RelCatalog.attrDescs relation 0 attrs) := by
  have old : attrTuples.filter (fun rec => cString rec = relation) = [] := by
    rw [List.filter_eq_nil_iff]
    intro rec member
    simpa using fresh rec member
  have new : ((RelCatalog.attrDescs relation 0 attrs).map AttrDesc.toRecord).filter
      (fun rec => cString rec = relation) =
        (RelCatalog.attrDescs relation 0 attrs).map AttrDesc.toRecord := by
    rw [List.filter_eq_self, List.forall_mem_map]
    intro desc member
    have named := c_string_attr_record (storable desc member).relTerminated
      (storable desc member).relShort
    rw [(attr_descs_mem member).1, Scanner.c_string_whole terminated] at named
    simpa using named
  have reads : ((RelCatalog.attrDescs relation 0 attrs).map AttrDesc.toRecord).map
      AttrDesc.ofRecord = RelCatalog.attrDescs relation 0 attrs := by
    rw [List.map_map]
    conv_rhs => rw [← List.map_id (RelCatalog.attrDescs relation 0 attrs)]
    apply List.map_congr_left
    exact fun desc member => (storable desc member).of_record
  have listed := (created.attrPerm.filter fun rec => cString rec = relation).map AttrDesc.ofRecord
  rw [List.filter_append, old, List.nil_append, new, reads] at listed
  exact listed

theorem Created.nonempty (created : Created w pins opens relTuples attrTuples relation attrs
    relLf attrLf lf relChain attrChain) : attrs ≠ [] := by
  rintro rfl
  have accepted := created.accepted
  unfold RelCatalog.refusal at accepted
  rw [if_pos (.inr (by decide))] at accepted
  cases accepted

theorem Created.listed (created : Created w pins opens relTuples attrTuples relation attrs
      relLf attrLf lf relChain attrChain) (terminated : 0 ∉ relation) :
    ∃ rec ∈ relLf.tuples relChain, cString rec = relation := by
  have short := (RelCatalog.refusal_none created.accepted).2.1
  refine ⟨(RelCatalog.relDesc relation attrs).toRecord, ?_, ?_⟩
  · rw [created.relPerm.mem_iff]
    simp
  · have name : (RelCatalog.relDesc relation attrs).relName = relation :=
      Scanner.c_string_whole terminated
    rw [c_string_rel_record (by rw [name]; exact terminated) (by rw [name]; exact short), name]

theorem Created.sized (created : Created w pins opens relTuples attrTuples relation attrs
      relLf attrLf lf relChain attrChain)
    (relSized : ∀ rec ∈ relTuples, rec.length = RelDesc.size)
    (attrSized : ∀ rec ∈ attrTuples, rec.length = AttrDesc.size) :
    (∀ rec ∈ relLf.tuples relChain, rec.length = RelDesc.size) ∧
      ∀ rec ∈ attrLf.tuples attrChain, rec.length = AttrDesc.size := by
  have short := (RelCatalog.refusal_none created.accepted).2.1
  have relShort : (cString relation).length ≤ MAXNAME := (c_string_length relation).trans short.le
  constructor
  · intro rec member
    rw [created.relPerm.mem_iff, List.mem_append, List.mem_singleton] at member
    rcases member with old | rfl
    · exact relSized rec old
    · exact RelDesc.to_record_length relShort
  · intro rec member
    rw [created.attrPerm.mem_iff, List.mem_append, List.mem_map] at member
    rcases member with old | ⟨desc, listed, rfl⟩
    · exact attrSized rec old
    · obtain ⟨relName, attr, inside, attrName, _⟩ := attr_descs_mem listed
      apply AttrDesc.to_record_length
      · rw [relName]
        exact relShort
      · rw [attrName]
        exact (created.short attr inside).le

end Described

end PrimitiveDB

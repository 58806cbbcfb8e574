import PrimitiveDB.HeapFileCreation
import PrimitiveDB.CatalogLookups

/-!
# Describing a new relation

`createRel` adds one tuple to `relcat` and one for every attribute to `attrcat`, each
through an inserter of its own, and then creates the heap file. What it has written when
it gives up stays.
-/

namespace PrimitiveDB

open World DbM ByteMemory

set_option autoImplicit false

namespace LogicalFile

/-- The records are inserted one after the other, each behind the last page. -/
inductive InsertedAll (headerNo : Int) : LogicalFile → List Record → LogicalFile → Prop where
  | nil (lf : LogicalFile) : InsertedAll headerNo lf [] lf
  | cons {lf lf₁ lf' : LogicalFile} {image : PageImage} {rec : Record} {recs : List Record}
      {rid : RID} {curNo : Int}
      (source : lf.insertRecord headerNo (lf.header headerNo).lastPage image rec =
        (.ok rid, lf₁, curNo))
      (later : InsertedAll headerNo lf₁ recs lf') : InsertedAll headerNo lf (rec :: recs) lf'

variable {lf lf' : LogicalFile} {headerNo : Int} {chain : List Int} {recs : List Record}

theorem InsertedAll.append {lf'' : LogicalFile} {recs' : List Record}
    (first : InsertedAll headerNo lf recs lf') (second : InsertedAll headerNo lf' recs' lf'') :
    InsertedAll headerNo lf (recs ++ recs') lf'' := by
  induction first with
  | nil _ => exact second
  | cons source _ ih => exact .cons source (ih second)

theorem InsertedAll.formed (inserted : InsertedAll headerNo lf recs lf')
    (formed : lf.HeapFormed headerNo chain) (nonempty : ∀ rec ∈ recs, 1 ≤ rec.length) :
    ∃ chain', lf'.HeapFormed headerNo chain' ∧ Appended lf lf' headerNo chain chain' recs ∧
      (lf.firstPage = headerNo → lf'.firstPage = headerNo) := by
  induction inserted generalizing chain with
  | nil lf => exact ⟨chain, formed, .refl lf headerNo chain, id⟩
  | @cons lf lf₁ lf' image rec recs rid curNo source later ih =>
      obtain ⟨result, lf₂, curNo₂, chain₁, source', effect⟩ := formed.insert_record
        formed.last_mem (nonempty rec (by simp)) (.inr rfl) image
      rw [source] at source'
      cases source'
      obtain ⟨chain', formed', appended, first⟩ := ih effect.formed
        (fun other member => nonempty other (by simp [member]))
      exact ⟨chain', formed', (effect.appended formed rfl).trans appended,
        fun same => first (effect.first same)⟩

end LogicalFile

namespace World

variable {w w' w'' : World} {pins : List Pin} {opens : List FilePtr} {fileName : FileName}
  {lf lf' lf'' : LogicalFile} {chain : List Int} {recs recs' : List Record}

/-- Records have been inserted into one file, and nothing else has happened. -/
structure Adds (before after : World) (pins : List Pin) (opens : List FilePtr)
    (fileName : FileName) (lf lf' : LogicalFile) (recs : List Record) : Prop where
  storage : after.Storage pins opens
  logical : after.logical = Function.update before.logical fileName (some lf')
  names : ∀ file ∈ opens, after.nameOf file = before.nameOf file
  inserted : lf.InsertedAll lf.firstPage recs lf'
  nonempty : ∀ rec ∈ recs, 1 ≤ rec.length

theorem Undisturbed.adds (undisturbed : Undisturbed w w' pins opens)
    (logical : w.logical fileName = some lf) : Adds w w' pins opens fileName lf lf [] where
  storage := undisturbed.storage
  logical := by rw [undisturbed.logical, ← logical, Function.update_eq_self]
  names := undisturbed.names
  inserted := .nil lf
  nonempty := by simp

theorem Adds.stores (adds : Adds w w' pins opens fileName lf lf' recs)
    (stores : w.Stores fileName lf chain) :
    ∃ chain', w'.Stores fileName lf' chain' ∧ lf'.firstPage = lf.firstPage ∧
      lf.Appended lf' lf.firstPage chain chain' recs := by
  obtain ⟨chain', formed, appended, first⟩ := adds.inserted.formed stores.formed adds.nonempty
  refine ⟨chain', ⟨?_, ?_⟩, first rfl, appended⟩
  · rw [adds.logical, Function.update_self]
  · rw [first rfl]
    exact formed

theorem Adds.trans (first : Adds w w' pins opens fileName lf lf' recs)
    (second : Adds w' w'' pins opens fileName lf' lf'' recs')
    (sameFirst : lf'.firstPage = lf.firstPage) :
    Adds w w'' pins opens fileName lf lf'' (recs ++ recs') where
  storage := second.storage
  logical := by rw [second.logical, first.logical, Function.update_idem]
  names := by
    intro file member
    rw [second.names file member, first.names file member]
  inserted := by
    have later := second.inserted
    rw [sameFirst] at later
    exact first.inserted.append later
  nonempty := by
    intro rec member
    rcases List.mem_append.mp member with early | late
    · exact first.nonempty rec early
    · exact second.nonempty rec late

theorem Storage.add_tuple (storage : w.Storage pins opens)
    (owned : ∀ pin ∈ pins, pin.file ∈ opens) (stores : w.Stores fileName lf chain)
    (named : fileName ≠ []) {rec : Record} (positive : 1 ≤ rec.length)
    (fits : rec.length + SLOTSIZE ≤ DATASIZE) (mem : Uninit) :
    Smoothly (addTuple mem fileName rec) w fun status w' => status = .OK ∧
      ∃ lf', Adds w w' pins opens fileName lf lf' [rec] := by
  unfold addTuple
  apply smoothly_bind
  · intro result
    repeat' first
      | exact keeps_pure _ | exact InsertFileScan.insert_record_keeps _ _
      | exact InsertFileScan.delete_keeps _
      | apply keeps_bind | intro _ | split
  · apply (storage.new_inserter stores.logical stores.formed named mem).mono
    rintro result w₁ ⟨ifs, rfl, insertsAt, atEnd, headerNo, constructs⟩
    dsimp only
    rw [if_neg (not_not.mpr rfl)]
    apply smoothly_bind
    · intro result
      repeat' first
        | exact keeps_pure _ | exact InsertFileScan.delete_keeps _
        | apply keeps_bind | intro _ | split
    · apply (insertsAt.insert_record positive (.inr atEnd)).mono
      rintro ⟨result, ifs'⟩ w₂ ⟨lf', chain', insertsAt', _, _, touches, source, inserted⟩
      obtain ⟨rid, rfl⟩ := inserted.accepts fits
      obtain ⟨w₃, run, storage₃, same, names, _⟩ := insertsAt'.delete owned
      obtain ⟨image, source⟩ := source (by omega)
      dsimp only
      apply smoothly_bind_eq run
      refine smoothly_pure ⟨rfl, lf', storage₃, ?_, ?_, ?_, ?_⟩
      · rw [same, touches.logical, constructs.logical]
      · intro file member
        rw [names file member, touches.names, constructs.names file member]
      · rw [← atEnd, headerNo] at source
        exact .cons source (.nil lf')
      · intro other member
        rw [List.mem_singleton.mp member]
        exact positive

theorem add_tuple_keeps (mem : Uninit) (fileName : FileName) (rec : Record) :
    KeepsFlag (addTuple mem fileName rec) := by
  unfold addTuple
  repeat' first
    | exact keeps_pure _ | exact InsertFileScan.new_keeps _ _
    | exact InsertFileScan.insert_record_keeps _ _ | exact InsertFileScan.delete_keeps _
    | apply keeps_bind | intro _ | split

end World

theorem RelCatalog.add_attrs_keeps (mem : Uninit) (relation : FileName) (offset : Int)
    (attrs : List AttrInfo) : KeepsFlag (RelCatalog.addAttrs mem relation offset attrs) := by
  induction attrs generalizing offset with
  | nil => exact keeps_pure _
  | cons attr attrs ih =>
      rw [RelCatalog.addAttrs]
      repeat' first
        | exact keeps_pure _ | exact World.add_tuple_keeps _ _ _ | exact ih _
        | apply keeps_bind | intro _ | split

namespace RelCatalog

/-- The tuples of `attrcat` for attributes from `offset` on. -/
def attrDescs (relation : FileName) : Int → List AttrInfo → List AttrDesc
  | _, [] => []
  | offset, attr :: attrs =>
      { relName := cString relation, attrName := cString attr.attrName
        attrOffset := offset, attrType := attr.attrType, attrLen := attr.attrLen } ::
        attrDescs relation (offset + attr.attrLen) attrs

def relDesc (relation : FileName) (attrList : List AttrInfo) : RelDesc :=
  { relName := cString relation, attrCnt := attrList.length }

/-- The checks that `createRel` makes before it writes anything. -/
def refusal (relTuples : List Record) (relation : FileName) (attrList : List AttrInfo) :
    Option Status :=
  if relation = [] ∨ attrList.length < 1 then some .BADCATPARM
  else if relation.length ≥ MAXNAME then some .NAMETOOLONG
  else if ∃ rec ∈ relTuples, cString rec = relation then some .RELEXISTS
  else if ¬(attrList.map fun attr => cString attr.attrName).Nodup then some .DUPLATTR
  else if tupleWidth attrList > PAGESIZE then some .ATTRTOOLONG
  else none

section Refusal

variable {relTuples : List Record} {relation : FileName} {attrList : List AttrInfo}

theorem refusal_ne_ok : refusal relTuples relation attrList ≠ some .OK := by
  unfold refusal
  split_ifs <;> simp

theorem refusal_none (accepted : refusal relTuples relation attrList = none) :
    relation ≠ [] ∧ relation.length < MAXNAME ∧ (¬∃ rec ∈ relTuples, cString rec = relation) ∧
      (attrList.map fun attr => cString attr.attrName).Nodup ∧
      tupleWidth attrList ≤ PAGESIZE := by
  unfold refusal at accepted
  split_ifs at accepted with missing long listed duplicate wide
  exact ⟨fun empty => missing (.inl empty), Nat.lt_of_not_le long, listed, duplicate, not_lt.mp wide⟩

end Refusal

end RelCatalog

theorem name_field_length {name : List Byte} (short : name.length ≤ MAXNAME) :
    (nameField name).length = MAXNAME := by
  rw [nameField, List.length_append, List.length_replicate]
  omega

theorem c_string_length (name : List Byte) : (cString name).length ≤ name.length :=
  (List.takeWhile_prefix _).length_le

theorem RelDesc.to_record_length {desc : RelDesc} (short : desc.relName.length ≤ MAXNAME) :
    desc.toRecord.length = RelDesc.size := by
  rw [RelDesc.toRecord, List.length_append, name_field_length short]
  rfl

theorem AttrDesc.to_record_length {desc : AttrDesc} (shortRel : desc.relName.length ≤ MAXNAME)
    (shortAttr : desc.attrName.length ≤ MAXNAME) : desc.toRecord.length = AttrDesc.size := by
  simp only [AttrDesc.toRecord, List.length_append, name_field_length shortRel,
    name_field_length shortAttr]
  rfl

namespace World

open RelCatalog

variable {w : World} {pins : List Pin} {opens : List FilePtr} {relation : FileName}
  {lf relLf attrLf : LogicalFile} {chain relChain attrChain : List Int}

theorem Storage.add_attrs (storage : w.Storage pins opens)
    (owned : ∀ pin ∈ pins, pin.file ∈ opens) (stores : w.Stores ATTRCATNAME lf chain)
    (short : relation.length < MAXNAME) (attrs : List AttrInfo) (offset : Int) (mem : Uninit) :
    Smoothly (addAttrs mem relation offset attrs) w fun status w' => ∃ done rest lf',
      attrs = done ++ rest ∧
      Adds w w' pins opens ATTRCATNAME lf lf'
        ((attrDescs relation offset done).map AttrDesc.toRecord) ∧
      (∀ attr ∈ done, (cString attr.attrName).length < MAXNAME) ∧
      ((status = .OK ∧ rest = []) ∨ (status = .NAMETOOLONG ∧ ∃ attr later, rest = attr :: later ∧
        MAXNAME ≤ (cString attr.attrName).length)) := by
  induction attrs generalizing w lf chain offset with
  | nil =>
      apply smoothly_pure
      exact ⟨[], [], lf, rfl, Undisturbed.adds ⟨storage, rfl, fun _ _ => rfl⟩ stores.logical,
        by simp, .inl ⟨rfl, rfl⟩⟩
  | cons attr attrs ih =>
      rw [addAttrs]
      by_cases long : (cString attr.attrName).length ≥ MAXNAME
      · rw [if_pos long]
        apply smoothly_pure
        exact ⟨[], attr :: attrs, lf, rfl,
          Undisturbed.adds ⟨storage, rfl, fun _ _ => rfl⟩ stores.logical, by simp,
          .inr ⟨rfl, attr, attrs, rfl, long⟩⟩
      · rw [if_neg long]
        set desc : AttrDesc :=
          { relName := cString relation, attrName := cString attr.attrName
            attrOffset := offset, attrType := attr.attrType, attrLen := attr.attrLen }
        have length : desc.toRecord.length = AttrDesc.size :=
          AttrDesc.to_record_length ((c_string_length relation).trans short.le)
            (Nat.le_of_not_le long)
        apply smoothly_bind
        · intro status
          repeat' first
            | exact keeps_pure _ | exact add_attrs_keeps _ _ _ _ | split
        · apply (storage.add_tuple owned stores (by decide) (by rw [length]; decide)
            (by rw [length]; decide) mem).mono
          rintro status w₁ ⟨rfl, lf₁, adds⟩
          obtain ⟨chain₁, stores₁, first, _⟩ := adds.stores stores
          rw [if_neg (not_not.mpr rfl)]
          apply (ih adds.storage stores₁ (offset + attr.attrLen)).mono
          rintro status w₂ ⟨done, rest, lf₂, rfl, adds', named, ended⟩
          refine ⟨attr :: done, rest, lf₂, rfl, adds.trans adds' first, ?_, ended⟩
          intro other member
          rcases List.mem_cons.mp member with rfl | later
          · exact Nat.lt_of_not_le long
          · exact named other later

/-- The world in which `createRel` gives up on a name or turns to the heap file: the
tuples of `relcat` and of the attributes `done` have been written. -/
structure Describes (w w' : World) (pins : List Pin) (opens : List FilePtr)
    (relation : FileName) (relLf attrLf : LogicalFile) (attrList done : List AttrInfo) : Prop where
  adds : ∃ w₁ relLf' attrLf',
    Adds w w₁ pins opens RELCATNAME relLf relLf' [(relDesc relation attrList).toRecord] ∧
    Adds w₁ w' pins opens ATTRCATNAME attrLf attrLf'
      ((attrDescs relation 0 done).map AttrDesc.toRecord)
  short : ∀ attr ∈ done, (cString attr.attrName).length < MAXNAME

theorem Storage.create_rel (storage : w.Storage pins opens)
    (owned : ∀ pin ∈ pins, pin.file ∈ opens) (relStores : w.Stores RELCATNAME relLf relChain)
    (attrStores : w.Stores ATTRCATNAME attrLf attrChain)
    (relSized : ∀ rec ∈ relLf.tuples relChain, rec.length = RelDesc.size)
    (terminated : 0 ∉ relation) (attrList : List AttrInfo) (mem : Uninit) (tmpRid : RID) :
    Smoothly (createRel mem tmpRid relation attrList) w fun status w' =>
      (refusal (relLf.tuples relChain) relation attrList = some status ∧
          Undisturbed w w' pins opens) ∨
        (refusal (relLf.tuples relChain) relation attrList = none ∧ ∃ done rest w₁,
          attrList = done ++ rest ∧
          Describes w w₁ pins opens relation relLf attrLf attrList done ∧
          ((status = .NAMETOOLONG ∧ w' = w₁ ∧ ∃ attr later, rest = attr :: later ∧
              MAXNAME ≤ (cString attr.attrName).length) ∨
            (rest = [] ∧ CreatesFile w₁ w' pins opens relation status))) := by
  unfold createRel refusal
  by_cases missing : relation = [] ∨ attrList.length < 1
  · rw [if_pos missing, if_pos missing]
    exact smoothly_pure (.inl ⟨rfl, storage, rfl, fun _ _ => rfl⟩)
  rw [if_neg missing, if_neg missing]
  by_cases long : relation.length ≥ MAXNAME
  · rw [if_pos long, if_pos long]
    exact smoothly_pure (.inl ⟨rfl, storage, rfl, fun _ _ => rfl⟩)
  rw [if_neg long, if_neg long]
  have proper : ProperName relation :=
    ⟨fun empty => missing (.inl empty), terminated, Nat.lt_of_not_le long⟩
  apply smoothly_bind
  · intro result
    repeat' first
      | exact keeps_pure _ | exact add_tuple_keeps _ _ _ | exact add_attrs_keeps _ _ _ _
      | exact create_heap_file_keeps _
      | apply keeps_bind | intro _ | split
  apply (storage.rel_get_info owned relStores relSized proper mem tmpRid).mono
  rintro result w₁ ⟨undisturbed, rfl⟩
  cases found : (relLf.tuples relChain).find? fun rec => cString rec = relation with
  | some rec =>
      have listed : ∃ rec ∈ relLf.tuples relChain, cString rec = relation :=
        ⟨rec, List.mem_of_find?_eq_some found, by simpa using List.find?_some found⟩
      rw [if_pos listed]
      dsimp only
      exact smoothly_pure (.inl ⟨rfl, undisturbed⟩)
  | none =>
      have unlisted : ¬∃ rec ∈ relLf.tuples relChain, cString rec = relation := by
        rintro ⟨rec, member, equal⟩
        have different := List.find?_eq_none.mp found rec member
        simp [equal] at different
      rw [if_neg unlisted]
      dsimp only
      rw [if_neg (not_not.mpr rfl)]
      by_cases duplicate : ¬(attrList.map fun attr => cString attr.attrName).Nodup
      · rw [if_pos duplicate, if_pos duplicate]
        exact smoothly_pure (.inl ⟨rfl, undisturbed⟩)
      rw [if_neg duplicate, if_neg duplicate]
      by_cases wide : tupleWidth attrList > PAGESIZE
      · rw [if_pos wide, if_pos wide]
        exact smoothly_pure (.inl ⟨rfl, undisturbed⟩)
      · rw [if_neg wide, if_neg wide]
        have length : (relDesc relation attrList).toRecord.length = RelDesc.size :=
          RelDesc.to_record_length ((c_string_length relation).trans proper.short.le)
        have positive : 1 ≤ (relDesc relation attrList).toRecord.length := by
          rw [length]
          decide
        have fits : (relDesc relation attrList).toRecord.length + SLOTSIZE ≤ DATASIZE := by
          rw [length]
          decide
        have added := undisturbed.storage.add_tuple owned (undisturbed.stores relStores)
          (by decide) positive fits mem
        apply smoothly_bind
        · intro status
          repeat' first
            | exact keeps_pure _ | exact add_attrs_keeps _ _ _ _
            | exact create_heap_file_keeps _
            | apply keeps_bind | intro _ | split
        apply added.mono
        rintro status w₂ ⟨rfl, relLf', adds⟩
        rw [if_neg (not_not.mpr rfl)]
        have attrStores₂ : w₂.Stores ATTRCATNAME attrLf attrChain := by
          refine ⟨?_, attrStores.formed⟩
          rw [adds.logical, Function.update_of_ne (by decide), undisturbed.logical]
          exact attrStores.logical
        have adds₀ := (undisturbed.adds relStores.logical).trans adds rfl
        apply smoothly_bind
        · intro status
          repeat' first
            | exact keeps_pure _ | exact create_heap_file_keeps _ | split
        apply (adds.storage.add_attrs owned attrStores₂ proper.short attrList 0 mem).mono
        rintro status w₃ ⟨done, rest, attrLf', whole, adds', short, ended⟩
        have describes : Describes w w₃ pins opens relation relLf attrLf attrList done :=
          ⟨⟨w₂, relLf', attrLf', adds₀, adds'⟩, short⟩
        rcases ended with ⟨rfl, all⟩ | ⟨rfl, tooLong⟩
        · rw [if_neg (not_not.mpr rfl)]
          apply (adds'.storage.creates_file proper.nonempty).mono
          intro status w₄ creates
          exact .inr ⟨rfl, done, rest, w₃, whole, describes, .inr ⟨all, creates⟩⟩
        · rw [if_pos (by decide)]
          exact smoothly_pure (.inr ⟨rfl, done, rest, w₃, whole, describes,
            .inl ⟨rfl, rfl, tooLong⟩⟩)

end World

end PrimitiveDB

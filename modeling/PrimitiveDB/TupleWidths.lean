import PrimitiveDB.CatalogUpdates
import PrimitiveDB.RejectedInserts
import PrimitiveDB.Queries

/-!
# The width of a tuple

`createRel` lets a relation through if its tuples are no longer than a page. A tuple needs
a slot beside its bytes and a page has a header, so a relation can be created whose tuples
no page can hold.
-/

namespace PrimitiveDB

open World DbM

set_option autoImplicit false

def RelCatalog.width (attrList : List AttrInfo) : Int := (attrList.map AttrInfo.attrLen).sum

namespace World

variable {w : World} {scan : InsertFileScan} {rest : List Pin} {others : List FilePtr}
  {fileName : FileName} {lf : LogicalFile} {chain : List Int}

/-- An inserter takes the records of up to 1000 bytes and no others. -/
theorem InsertsAt.accepts_iff (insertsAt : w.InsertsAt scan rest others fileName lf chain)
    (rec : Record) :
    Smoothly (scan.insertRecord rec) w fun result w' =>
      ((∃ rid, result.1 = .ok rid) ↔ rec.length ≤ 1000) ∧ result.1 ≠ .error .OK ∧
        ∃ lf', w'.Holding result.2.reporting.toHeapFile rest others fileName lf' := by
  obtain ⟨result, scan₁, w', run, outcome⟩ := insertsAt.holding.insert_record rec
  obtain ⟨scan', run', same⟩ := InsertFileScan.insert_record_of_reporting run
  have bases : scan'.reporting.toHeapFile = scan₁.reporting.toHeapFile :=
    congrArg InsertFileScan.toHeapFile same
  rcases outcome with ⟨large, rfl, rfl, rfl⟩ | ⟨failed, _⟩ | ⟨small, ends, rfl, inserts⟩
  · apply smoothly_of_eq run'
    refine ⟨⟨?_, ?_⟩, by simp, lf, ?_⟩
    · rintro ⟨_, accepted⟩
      cases accepted
    · intro short
      have limit : DATASIZE = 1004 := rfl
      omega
    · rw [bases]
      exact insertsAt.holding
  · apply smoothly_of_failed
    rw [run']
    exact failed
  · apply smoothly_of_eq run'
    obtain ⟨image, source⟩ := inserts.source
    have onPage : InsertFileScan.insertPageNo scan.reporting lf ∈ chain := by
      rw [InsertFileScan.insertPageNo, if_pos (show scan.reporting.curPage.isSome from
        insertsAt.pinned)]
      exact insertsAt.member
    have held : w'.Holding scan'.reporting.toHeapFile rest others fileName ends.2.1 := by
      rw [bases]
      exact (inserts.held fun _ => rfl).promise ⟨rfl, rfl, rfl⟩ ⟨rfl, rfl⟩ id fun _ => rfl
    rcases insertsAt.formed.insert_rejected_iff onPage image source with
      ⟨long, rejected, _⟩ | ⟨short, rid, accepted⟩
    · refine ⟨⟨?_, fun short => by omega⟩, by rw [rejected]; simp, ends.2.1, held⟩
      rintro ⟨_, accepted⟩
      rw [rejected] at accepted
      cases accepted
    · exact ⟨⟨fun _ => short, fun _ => ⟨rid, accepted⟩⟩, by rw [accepted]; simp, ends.2.1, held⟩

theorem Storage.add_tuple_accepts_iff {pins : List Pin} {opens : List FilePtr}
    (storage : w.Storage pins opens) (owned : ∀ pin ∈ pins, pin.file ∈ opens)
    (stores : w.Stores fileName lf chain) (named : fileName ≠ []) (rec : Record) (mem : Uninit) :
    Smoothly (addTuple mem fileName rec) w fun status _ => (status = .OK ↔ rec.length ≤ 1000) := by
  unfold addTuple
  apply smoothly_bind
  · intro result
    repeat' first
      | exact keeps_pure _ | exact InsertFileScan.insert_record_keeps _ _
      | exact InsertFileScan.delete_keeps _
      | apply keeps_bind | intro _ | split
  · apply (storage.new_inserter stores.logical stores.formed named mem).mono
    rintro result w₁ ⟨ifs, rfl, insertsAt, _⟩
    dsimp only
    rw [if_neg (not_not.mpr rfl)]
    apply smoothly_bind
    · intro result
      repeat' first
        | exact keeps_pure _ | exact InsertFileScan.delete_keeps _
        | apply keeps_bind | intro _ | split
    · apply (insertsAt.accepts_iff rec).mono
      rintro ⟨result, ifs'⟩ w₂ ⟨accepts, honest, lf', held⟩
      have object : w₂.Holding (HeapObject.insertFileScan ifs'.reporting).base pins opens
          fileName lf' := held
      obtain ⟨w₃, w₄, destroys⟩ := object.destroys owned
      apply smoothly_bind_eq (destroys.deletes : ifs'.delete w₂ = (.ok (), w₄))
      dsimp only at accepts
      rw [← accepts]
      cases result with
      | ok rid => exact smoothly_pure ⟨fun _ => ⟨rid, rfl⟩, fun _ => rfl⟩
      | error status =>
          apply smoothly_pure
          constructor
          · rintro rfl
            exact absurd rfl honest
          · rintro ⟨_, accepted⟩
            cases accepted

theorem InsertsAt.insert_output_crashes_iff
    (insertsAt : w.InsertsAt scan rest others fileName lf chain) (rec : Record)
    (smooth : (insertOutput scan rec w).2.bufFailed = false) :
    (insertOutput scan rec w).1 = .crash ↔ 1000 < rec.length := by
  have accepts := insertsAt.accepts_iff rec
  unfold insertOutput at smooth ⊢
  rcases run : scan.insertRecord rec w with ⟨⟨status | rid, resultRel⟩ | status | _, w'⟩
  · rw [DbM.bind_ok run] at smooth ⊢
    obtain ⟨_, same, accepts, _⟩ := accepts.result run smooth
    cases same
    rw [← not_iff_not, Nat.not_lt, ← accepts]
    simp [DbM.crash]
  · rw [DbM.bind_ok run] at smooth ⊢
    obtain ⟨_, same, accepts, _⟩ := accepts.result run smooth
    cases same
    rw [← not_iff_not, Nat.not_lt, ← accepts]
    simp
  · rw [bind_apply, run] at smooth
    obtain ⟨_, impossible, _⟩ := accepts.result run smooth
    cases impossible
  · rw [bind_apply, run] at smooth
    obtain ⟨_, impossible, _⟩ := accepts.result run smooth
    cases impossible

end World

section Creation

variable {w w₁ : World} {pins : List Pin} {opens : List FilePtr} {relation : FileName}
  {relLf attrLf : LogicalFile} {relChain attrChain : List Int}

/-- A tuple of the full width can be stored in the new relation, and the queries that
write into it get past their `ASSERT`, exactly if it has at most 1000 bytes. -/
theorem creatable_relation_holds_tuple_iff (storage : w.Storage pins opens)
    (owned : ∀ pin ∈ pins, pin.file ∈ opens) (relStores : w.Stores RELCATNAME relLf relChain)
    (attrStores : w.Stores ATTRCATNAME attrLf attrChain)
    (relSized : ∀ rec ∈ relLf.tuples relChain, rec.length = RelDesc.size)
    (terminated : 0 ∉ relation) (attrList : List AttrInfo) (mem : Uninit) (tmpRid : RID)
    (created : RelCatalog.createRel mem tmpRid relation attrList w = (.ok .OK, w₁))
    (smooth : w₁.bufFailed = false) {rec : Record}
    (full : (rec.length : Int) = RelCatalog.width attrList) :
    Smoothly (addTuple mem relation rec) w₁
        (fun status _ => (status = .OK ↔ RelCatalog.width attrList ≤ 1000)) ∧
      ∀ (w₂ : World) (resultRel : InsertFileScan) (rest : List Pin) (others : List FilePtr)
        (lf : LogicalFile) (chain : List Int),
        w₂.InsertsAt resultRel rest others relation lf chain →
        (insertOutput resultRel rec w₂).2.bufFailed = false →
        ((insertOutput resultRel rec w₂).1 ≠ .crash ↔ RelCatalog.width attrList ≤ 1000) := by
  have limit : RelCatalog.width attrList ≤ 1000 ↔ rec.length ≤ 1000 := by
    rw [← full]
    omega
  constructor
  · obtain ⟨_, same, outcome⟩ := (storage.create_rel owned relStores attrStores relSized terminated
      attrList mem tmpRid).result created smooth
    cases same
    rcases outcome with ⟨refused, _⟩ |
      ⟨accepted, done, rest, w₂, _, _, ⟨wrong, _⟩ | ⟨_, creates⟩⟩
    · exact absurd refused RelCatalog.refusal_ne_ok
    · cases wrong
    · cases creates with
      | @created lf _ storage₁ _ logical first formed _ =>
          have stores : w₁.Stores relation lf [2] := by
            refine ⟨?_, ?_⟩
            · rw [logical, Function.update_self]
            · rw [first]
              exact formed
          rw [limit]
          exact storage₁.add_tuple_accepts_iff owned stores (RelCatalog.refusal_none accepted).1
            rec mem
  · intro w₂ resultRel rest others lf chain insertsAt calm
    rw [limit, ne_eq, insertsAt.insert_output_crashes_iff rec calm, Nat.not_lt]

end Creation

open HeapSession (zeroMemory)

def newDatabase : World :=
  databaseOf 8 [(RELCATNAME, [relCatDesc.toRecord, attrCatDesc.toRecord]),
    (ATTRCATNAME, (relCatAttrs ++ attrCatAttrs).map AttrDesc.toRecord)]

theorem new_database_storage : newDatabase.Storage [] [] :=
  (database_just_started (by decide) _).storage

theorem new_database_rel_cat : newDatabase.Stores RELCATNAME
    (tableFile RELCATNAME [relCatDesc.toRecord, attrCatDesc.toRecord]) [2] :=
  database_stores 8 rfl (by decide +kernel)

theorem new_database_attr_cat : newDatabase.Stores ATTRCATNAME
    (tableFile ATTRCATNAME ((relCatAttrs ++ attrCatAttrs).map AttrDesc.toRecord)) [2] :=
  database_stores 8 rfl (by decide +kernel)

/-- An attribute as `create table` describes it. -/
def newAttr (attrName : List ByteMemory.Byte) (type : Datatype) (attrLen : Int) : AttrInfo :=
  { relName := [116], attrName, attrType := type.code, attrLen, attrValue := none }

theorem creatable_relation_holds_tuple_iff_int :
    ∃ w₁ w₂, RelCatalog.createRel zeroMemory NULLRID [116] [newAttr [97] .INTEGER 4] newDatabase =
        (.ok .OK, w₁) ∧ addTuple zeroMemory [116] [7, 0, 0, 0] w₁ = (.ok .OK, w₂) := by
  have result : (RelCatalog.createRel zeroMemory NULLRID [116] [newAttr [97] .INTEGER 4]
      newDatabase).1 = .ok .OK := by decide +kernel
  have full : (([7, 0, 0, 0] : Record).length : Int) =
      RelCatalog.width [newAttr [97] .INTEGER 4] := by decide
  have created := DbM.run_of_value result
  obtain ⟨inserts, _⟩ := creatable_relation_holds_tuple_iff new_database_storage (by simp)
    new_database_rel_cat new_database_attr_cat (by decide +kernel) (by decide)
    [newAttr [97] .INTEGER 4] zeroMemory NULLRID created (by decide +kernel) full
  obtain ⟨status, w₂, run, accepts⟩ := inserts (by decide +kernel)
  rw [accepts.mpr (by decide)] at run
  exact ⟨_, w₂, created, run⟩

def wideAttrs : List AttrInfo :=
  [newAttr [97] .STRING 255, newAttr [98] .STRING 255, newAttr [99] .STRING 255,
   newAttr [100] .STRING 255]

/-- The relation is created and holds no tuple. -/
theorem creatable_relation_without_tuple :
    RelCatalog.width wideAttrs = 1020 ∧
      ((do
        let created ← RelCatalog.createRel zeroMemory NULLRID [116] wideAttrs
        let inserted ← addTuple zeroMemory [116] (List.replicate 1020 97)
        pure (created, inserted) : DbM (Status × Status)) newDatabase).1 =
        .ok (.OK, .INVALIDRECLEN) := by
  constructor
  · rfl
  · decide +kernel

end PrimitiveDB

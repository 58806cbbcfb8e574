import PrimitiveDB.CatalogRemovals
import PrimitiveDB.CreatedRelations
import PrimitiveDB.TupleWidths

/-!
# What failed `create` and `destroy` leave behind

`createRel` makes most of its checks before it writes anything, but looks at the names of the
attributes one by one while it describes them, and finds out last that there is a file of the
name. `destroyRel` takes a relation out of both catalogs before it knows whether the file can go.
What they have done by then stays.
-/

namespace PrimitiveDB

open World DbM RelCatalog

set_option autoImplicit false

namespace World

variable {w w' : World} {pins : List Pin} {opens : List FilePtr} {relation : FileName}
  {relLf attrLf : LogicalFile} {relChain attrChain : List Int} {attrList done : List AttrInfo}

/-- What a statement that fails should leave as it was: the catalogs, the set of files and the
open files with their counts. -/
structure Untouched (w w' : World) : Prop where
  relCat : w'.logical RELCATNAME = w.logical RELCATNAME
  attrCat : w'.logical ATTRCATNAME = w.logical ATTRCATNAME
  files : ∀ fileName, w'.logical fileName = none ↔ w.logical fileName = none
  names : ∀ file, w'.nameOf file = w.nameOf file
  counts : ∀ file, (w'.files file).map File.openCnt = (w.files file).map File.openCnt

theorem Undisturbed.untouched (storage : w.Storage pins opens)
    (undisturbed : Undisturbed w w' pins opens) : Untouched w w' := by
  have closed : ∀ file, file ∉ opens → w.files file = none ∧ w'.files file = none := by
    intro file absent
    constructor
    · rw [Option.eq_none_iff_forall_ne_some]
      exact fun object live => absent ((storage.live file).mpr ⟨object, live⟩)
    · rw [Option.eq_none_iff_forall_ne_some]
      exact fun object live => absent ((undisturbed.storage.live file).mpr ⟨object, live⟩)
  refine ⟨?_, ?_, ?_, ?_, ?_⟩
  · rw [undisturbed.logical]
  · rw [undisturbed.logical]
  · intro fileName
    rw [undisturbed.logical]
  · intro file
    by_cases member : file ∈ opens
    · exact undisturbed.names file member
    · obtain ⟨before, after⟩ := closed file member
      unfold nameOf
      rw [before, after]
  · intro file
    by_cases member : file ∈ opens
    · obtain ⟨object, live⟩ := (storage.live file).mp member
      obtain ⟨object', live'⟩ := (undisturbed.storage.live file).mp member
      rw [live, live', Option.map_some, Option.map_some, storage.counted file object live,
        undisturbed.storage.counted file object' live']
    · obtain ⟨before, after⟩ := closed file member
      rw [before, after]

theorem Describes.touches (describes : Describes w w' pins opens relation relLf attrLf attrList done)
    (relStores : w.Stores RELCATNAME relLf relChain) :
    w'.logical RELCATNAME ≠ w.logical RELCATNAME := by
  obtain ⟨w₁, relLf', attrLf', relAdds, attrAdds⟩ := describes.adds
  obtain ⟨relChain', relStores', _, appended⟩ := relAdds.stores relStores
  rw [attrAdds.logical, Function.update_of_ne (by decide), relStores'.logical, relStores.logical]
  intro same
  cases same
  have chains := relStores'.formed.unique relStores.formed
  subst chains
  have length := appended.perm.length_eq
  rw [List.length_append, List.length_singleton] at length
  omega

theorem Describes.absent_iff
    (describes : Describes w w' pins opens relation relLf attrLf attrList done)
    (relStores : w.Stores RELCATNAME relLf relChain)
    (attrStores : w.Stores ATTRCATNAME attrLf attrChain) (fileName : FileName) :
    w'.logical fileName = none ↔ w.logical fileName = none := by
  obtain ⟨w₁, relLf', attrLf', relAdds, attrAdds⟩ := describes.adds
  rw [attrAdds.logical, relAdds.logical]
  by_cases isAttr : fileName = ATTRCATNAME
  · subst isAttr
    simp [attrStores.logical]
  · rw [Function.update_of_ne isAttr]
    by_cases isRel : fileName = RELCATNAME
    · subst isRel
      simp [relStores.logical]
    · rw [Function.update_of_ne isRel]

/-- A call of `createRel` that fails leaves everything as it was exactly if it is refused before
anything is written, or cannot fail any more. -/
theorem create_rel_atomic_iff (storage : w.Storage pins opens)
    (owned : ∀ pin ∈ pins, pin.file ∈ opens) (relStores : w.Stores RELCATNAME relLf relChain)
    (attrStores : w.Stores ATTRCATNAME attrLf attrChain)
    (relSized : ∀ rec ∈ relLf.tuples relChain, rec.length = RelDesc.size)
    (terminated : 0 ∉ relation) (attrList : List AttrInfo) (mem : Uninit) (tmpRid : RID)
    {outcome : Outcome Status}
    (run : createRel mem tmpRid relation attrList w = (outcome, w'))
    (smooth : w'.bufFailed = false) :
    (outcome ≠ .ok .OK → Untouched w w') ↔
      (refusal (relLf.tuples relChain) relation attrList ≠ none ∨
        (∀ attr ∈ attrList, (cString attr.attrName).length < MAXNAME) ∧
          w.logical relation = none) := by
  obtain ⟨status, rfl, outcome⟩ := (storage.create_rel owned relStores attrStores relSized
    terminated attrList mem tmpRid).result run smooth
  rcases outcome with ⟨refused, undisturbed⟩ |
    ⟨accepted, done, rest, w₁, rfl, describes, ⟨rfl, rfl, attr, later, rfl, long⟩ | ⟨rfl, creates⟩⟩
  · rw [refused]
    exact ⟨fun _ => .inl (Option.some_ne_none _), fun _ _ => undisturbed.untouched storage⟩
  · rw [accepted]
    constructor
    · intro atomic
      exact absurd (atomic (by decide)).relCat (describes.touches relStores)
    · rintro (refused | ⟨short, _⟩)
      · exact absurd rfl refused
      · exact absurd (short attr (by simp)) (Nat.not_lt.mpr long)
  · rw [accepted, List.append_nil]
    have absent_iff := describes.absent_iff relStores attrStores relation
    cases creates with
    | taken present storage' opened =>
        constructor
        · intro atomic
          have same := (atomic (by decide)).relCat
          rw [opened.logical] at same
          exact absurd same (describes.touches relStores)
        · rintro (refused | ⟨_, absent⟩)
          · exact absurd rfl refused
          · exact absurd (absent_iff.mpr absent) present
    | created absent _ _ _ _ _ _ =>
        constructor
        · intro _
          exact .inr ⟨describes.short, absent_iff.mp absent⟩
        · intro _ failed
          exact absurd rfl failed

/-- What is left of `attrcat` differs if an attribute has been removed. -/
theorem Drops.touches {attrLf' : LogicalFile}
    (drops : Drops w w' pins opens ATTRCATNAME relation attrLf attrLf' attrChain)
    (attrStores : w.Stores ATTRCATNAME attrLf attrChain)
    (fewer : (AttrCatalog.attrNames (attrLf'.tuples attrChain) relation).length ≠
      (AttrCatalog.attrNames (attrLf.tuples attrChain) relation).length) :
    w'.logical ATTRCATNAME ≠ w.logical ATTRCATNAME := by
  rw [drops.logical, Function.update_self, attrStores.logical]
  intro same
  cases same
  exact fewer rfl

/-- Once all attributes are gone, `attrcat` is no longer what it was. -/
theorem Drops.emptied {attrLf' : LogicalFile}
    (drops : Drops w w' pins opens ATTRCATNAME relation attrLf attrLf' attrChain)
    (attrStores : w.Stores ATTRCATNAME attrLf attrChain)
    (described : AttrCatalog.describe (attrLf.tuples attrChain) relation ≠ [])
    (gone : AttrCatalog.describe (attrLf'.tuples attrChain) relation = []) :
    w'.logical ATTRCATNAME ≠ w.logical ATTRCATNAME := by
  apply drops.touches attrStores
  unfold AttrCatalog.attrNames
  rw [gone, List.length_map, List.length_map]
  exact (List.length_pos_iff.mpr described).ne

/-- The attributes in front of the first one without a name are gone. -/
theorem Drops.untouched_iff {attrLf' : LogicalFile} {done later : List AttrDesc} {attr : AttrDesc}
    (drops : Drops w w' pins opens ATTRCATNAME relation attrLf attrLf' attrChain)
    (storage : w.Storage pins opens) (attrStores : w.Stores ATTRCATNAME attrLf attrChain)
    (whole : AttrCatalog.describe (attrLf.tuples attrChain) relation = done ++ attr :: later)
    (nameless : attr.attrName = [])
    (left : (AttrCatalog.attrNames (attrLf'.tuples attrChain) relation).Perm
      ((attr :: later).map AttrDesc.attrName))
    (named : ∀ other ∈ done, other.attrName ≠ [])
    (first : done = [] → Undisturbed w w' pins opens) :
    Untouched w w' ↔ ∃ attr later,
      AttrCatalog.describe (attrLf.tuples attrChain) relation = attr :: later ∧
        attr.attrName = [] := by
  cases done with
  | nil => exact ⟨fun _ => ⟨attr, later, whole, nameless⟩, fun _ => (first rfl).untouched storage⟩
  | cons other done =>
      constructor
      · intro untouched
        refine absurd untouched.attrCat (drops.touches attrStores ?_)
        rw [left.length_eq]
        unfold AttrCatalog.attrNames
        rw [whole]
        simp only [List.length_map, List.length_append, List.length_cons]
        omega
      · rintro ⟨first', later', same, nameless'⟩
        rw [whole] at same
        cases same
        exact absurd nameless' (named _ List.mem_cons_self)

theorem not_nameless_first {descs : List AttrDesc} (named : ∀ attr ∈ descs, attr.attrName ≠ []) :
    ¬∃ attr later, descs = attr :: later ∧ attr.attrName = [] := by
  rintro ⟨attr, later, rfl, nameless⟩
  exact named attr List.mem_cons_self nameless

/-- The file goes if it is there and nobody has it open, and nothing happens otherwise. -/
theorem DestroysFile.ok_iff {fileName : FileName} {status : Status}
    (destroys : DestroysFile w w' pins opens fileName status) :
    status = .OK ↔ w.logical fileName ≠ none ∧ ∀ file ∈ opens, w.nameOf file ≠ some fileName := by
  cases destroys with
  | opened inUse _ =>
      obtain ⟨file, member, held⟩ := inUse
      exact ⟨nofun, fun free => absurd held (free.2 file member)⟩
  | missing absent _ => exact ⟨nofun, fun free => absurd absent free.1⟩
  | destroyed present unused _ _ _ => exact ⟨fun _ => ⟨present, unused⟩, fun _ => rfl⟩

theorem DestroysFile.stays {fileName : FileName} {status : Status}
    (destroys : DestroysFile w w' pins opens fileName status) (failed : status ≠ .OK) :
    w' = w := by
  cases destroys with
  | opened _ same => exact same
  | missing _ same => exact same
  | destroyed _ _ _ _ _ => exact absurd rfl failed

/-- A call of `destroyRel` that fails leaves everything as it was exactly if it is refused before
an attribute has been removed, or cannot fail any more. -/
theorem destroy_rel_atomic_iff (storage : w.Storage pins opens)
    (owned : ∀ pin ∈ pins, pin.file ∈ opens) (relStores : w.Stores RELCATNAME relLf relChain)
    (attrStores : w.Stores ATTRCATNAME attrLf attrChain)
    (relSized : ∀ rec ∈ relLf.tuples relChain, rec.length = RelDesc.size)
    (attrSized : ∀ rec ∈ attrLf.tuples attrChain, rec.length = AttrDesc.size)
    (terminated : 0 ∉ relation) (short : relation.length < MAXNAME) (mem : Uninit)
    (tmpRid : RID) {outcome : Outcome Status}
    (run : destroyRel mem tmpRid relation w = (outcome, w')) (smooth : w'.bufFailed = false) :
    (outcome ≠ .ok .OK → Untouched w w') ↔
      (destroyRefusal (attrLf.tuples attrChain) relation ≠ none ∨
        (∃ attr later, AttrCatalog.describe (attrLf.tuples attrChain) relation = attr :: later ∧
          attr.attrName = []) ∨
        (∀ attr ∈ AttrCatalog.describe (attrLf.tuples attrChain) relation, attr.attrName ≠ []) ∧
          (∃ rec ∈ relLf.tuples relChain, cString rec = relation) ∧
          w.logical relation ≠ none ∧ ∀ file ∈ opens, w.nameOf file ≠ some relation) := by
  obtain ⟨status, rfl, outcome⟩ := (storage.destroy_rel owned relStores attrStores relSized
    attrSized terminated short mem tmpRid).result run smooth
  rcases outcome with ⟨refused, undisturbed⟩ | ⟨accepted, destroys⟩
  · rw [refused]
    exact ⟨fun _ => .inl (Option.some_ne_none _), fun _ _ => undisturbed.untouched storage⟩
  have described : AttrCatalog.describe (attrLf.tuples attrChain) relation ≠ [] := by
    intro nothing
    unfold destroyRefusal at accepted
    rw [if_pos nothing] at accepted
    split_ifs at accepted
  have user : relation ≠ RELCATNAME ∧ relation ≠ ATTRCATNAME := by
    unfold destroyRefusal at accepted
    split_ifs at accepted with refused
    exact (not_or.mp (not_or.mp refused).2)
  rw [accepted]
  cases destroys with
  | @unnamed attrLf' done later attr whole nameless drops left named first =>
      have untouched_iff :=
        drops.untouched_iff storage attrStores whole nameless left named first
      constructor
      · exact fun atomic => .inr (.inl (untouched_iff.mp (atomic (by decide))))
      · rintro (refused | firstNameless | ⟨all, _⟩) _
        · exact absurd rfl refused
        · exact untouched_iff.mpr firstNameless
        · refine absurd nameless (all attr ?_)
          rw [whole]
          simp
  | unlisted named drops gone missing undisturbed =>
      constructor
      · intro atomic
        have same := (atomic (by decide)).attrCat
        rw [undisturbed.logical] at same
        exact absurd same (drops.emptied attrStores described gone)
      · rintro (refused | nameless | ⟨_, ⟨rec, member, same⟩, _⟩)
        · exact absurd rfl refused
        · exact absurd nameless (not_nameless_first named)
        · have refused := List.filter_eq_nil_iff.mp missing rec member
          simp [same] at refused
  | @listed w₁ w₂ attrLf' relLf' rec status named drops gone takes same destroys =>
      -- both catalogs have been changed, and the file is still what it was
      have attrCat : w₂.logical ATTRCATNAME = w₁.logical ATTRCATNAME := by
        rw [takes.logical, Function.update_of_ne (by decide)]
      have file : w₂.logical relation = w.logical relation := by
        rw [takes.logical, Function.update_of_ne user.1, drops.logical,
          Function.update_of_ne user.2]
      have nameOf : ∀ file ∈ opens, w₂.nameOf file = w.nameOf file := fun file member =>
        (takes.names file member).trans (drops.names file member)
      have goes : status = .OK ↔
          w.logical relation ≠ none ∧ ∀ file ∈ opens, w.nameOf file ≠ some relation := by
        rw [destroys.ok_iff, file]
        refine and_congr_right fun _ => forall₂_congr fun other member => ?_
        rw [nameOf other member]
      by_cases ok : status = .OK
      · obtain ⟨rid, live, _⟩ := takes.removed.gone
        have listed := LogicalFile.mem_tuples.mpr ⟨rid, live⟩
        exact ⟨fun _ => .inr (.inr ⟨named, ⟨rec, listed, same⟩, goes.mp ok⟩),
          fun _ failed => absurd (by rw [ok]) failed⟩
      · have stays := destroys.stays ok
        subst stays
        constructor
        · intro atomic
          have same := (atomic (by simpa using ok)).attrCat
          rw [attrCat] at same
          exact absurd same (drops.emptied attrStores described gone)
        · rintro (refused | nameless | ⟨_, _, free⟩)
          · exact absurd rfl refused
          · exact absurd nameless (not_nameless_first named)
          · exact absurd (goes.mpr free) ok

end World

open HeapSession (zeroMemory)

def longNamed : List AttrInfo :=
  [newAttr [97] .INTEGER 4, newAttr (List.replicate 32 98) .INTEGER 4]

theorem create_rel_atomic_iff_long :
    ∃ w', createRel zeroMemory NULLRID [116] longNamed newDatabase = (.ok .NAMETOOLONG, w') ∧
      ¬Untouched newDatabase w' := by
  obtain ⟨w', run, smooth⟩ : ∃ w', createRel zeroMemory NULLRID [116] longNamed newDatabase =
      (.ok .NAMETOOLONG, w') ∧ w'.bufFailed = false :=
    ⟨_, DbM.run_of_value (by decide +kernel), by decide +kernel⟩
  refine ⟨w', run, fun untouched => ?_⟩
  have atomic := create_rel_atomic_iff new_database_storage (by simp) new_database_rel_cat
    new_database_attr_cat (by decide +kernel) (by decide) longNamed zeroMemory NULLRID run smooth
  rcases atomic.mp fun _ => untouched with refused | ⟨short, _⟩
  · exact absurd refused (by decide +kernel)
  · exact absurd short (by decide)

/-- A database in which `attrcat` describes a relation that `relcat` does not list. -/
def halfListed : World :=
  databaseOf 8 [(RELCATNAME, [relCatDesc.toRecord, attrCatDesc.toRecord]),
    (ATTRCATNAME, (relCatAttrs ++ attrCatAttrs ++
      attrDescs [116] 0 [newAttr [97] .INTEGER 4]).map AttrDesc.toRecord)]

theorem destroy_rel_atomic_iff_half :
    ∃ w', destroyRel zeroMemory NULLRID [116] halfListed = (.ok .RELNOTFOUND, w') ∧
      ¬Untouched halfListed w' := by
  obtain ⟨w', run, smooth⟩ : ∃ w', destroyRel zeroMemory NULLRID [116] halfListed =
      (.ok .RELNOTFOUND, w') ∧ w'.bufFailed = false :=
    ⟨_, DbM.run_of_value (by decide +kernel), by decide +kernel⟩
  have relStores : halfListed.Stores RELCATNAME
      (tableFile RELCATNAME [relCatDesc.toRecord, attrCatDesc.toRecord]) [2] :=
    database_stores 8 rfl (by decide +kernel)
  have attrStores : halfListed.Stores ATTRCATNAME (tableFile ATTRCATNAME ((relCatAttrs ++
      attrCatAttrs ++ attrDescs [116] 0 [newAttr [97] .INTEGER 4]).map AttrDesc.toRecord)) [2] :=
    database_stores 8 rfl (by decide +kernel)
  have storage : halfListed.Storage [] [] := (database_just_started (by decide) _).storage
  refine ⟨w', run, fun untouched => ?_⟩
  have atomic := destroy_rel_atomic_iff storage (by simp) relStores attrStores
    (by decide +kernel) (by decide +kernel) (by decide) (by decide) zeroMemory NULLRID run smooth
  rcases atomic.mp fun _ => untouched with refused | ⟨attr, later, same, nameless⟩ |
    ⟨_, listed, _⟩
  · exact absurd refused (by decide +kernel)
  · have named : ∀ attr ∈ AttrCatalog.describe ((tableFile ATTRCATNAME ((relCatAttrs ++
        attrCatAttrs ++ attrDescs [116] 0 [newAttr [97] .INTEGER 4]).map
          AttrDesc.toRecord)).tuples [2]) [116], attr.attrName ≠ [] := by
      decide +kernel
    refine absurd nameless (named attr ?_)
    rw [same]
    exact List.mem_cons_self
  · exact absurd listed (by decide +kernel)

end PrimitiveDB

import PrimitiveDB.DeleteQueries
import PrimitiveDB.JoinQueries

/-!
# Predicates of `delete` and `select`

Both statements compare an attribute with a literal. `select` converts the literal
to the type that the catalog gives the attribute, `delete` to the type of the
literal itself. They agree if the types do; otherwise it depends on the tuples
whether the two readings of the attribute can be told apart.
-/

namespace PrimitiveDB

open World DbM ByteMemory ScanFilter

set_option autoImplicit false

/-- `startScan` takes the attribute for one of this type. -/
def AttrDesc.Scannable (attr : AttrDesc) (type : Datatype) : Prop :=
  type = .STRING ∨ attr.attrLen = 4

instance (attr : AttrDesc) (type : Datatype) : Decidable (attr.Scannable type) :=
  inferInstanceAs (Decidable (_ ∨ _))

theorem AttrDesc.Proper.scannable {attr : AttrDesc} {type : Datatype} (proper : attr.Proper type) :
    attr.Scannable type := by
  by_cases string : type = .STRING
  · exact .inl string
  · exact .inr (proper.word string)

section Start

variable {scan : HeapFileScan} {attr : AttrDesc} {declared type : Datatype}

theorem start_literal_as (proper : attr.Proper declared) (scannable : attr.Scannable type)
    (value : List Byte) (op : Operator) :
    scan.startLiteral attr type.code value op =
      (.OK, { scan with filter := some (attr.predicate type op value) }) := by
  have retyped : ({ attr with attrType := type.code } : AttrDesc).Proper type := by
    refine ⟨by cases type <;> rfl, proper.offset, proper.positive, ?_⟩
    intro number
    exact scannable.resolve_left number
  exact start_literal_accepted retyped value op

theorem start_literal_refused (wrong : ¬attr.Scannable type) (value : List Byte)
    (op : Operator) :
    scan.startLiteral attr type.code value op = (.BADSCANPARM, scan) := by
  have length : attr.attrLen ≠ 4 := fun four => wrong (.inr four)
  cases type with
  | STRING => exact absurd (.inl rfl) wrong
  | INTEGER =>
      change scan.startScan attr.attrOffset attr.attrLen .INTEGER _ op = _
      unfold HeapFileScan.startScan ScanFilter.startScan
      dsimp only
      rw [if_pos (.inr (.inl ⟨rfl, length⟩))]
  | FLOAT =>
      change scan.startScan attr.attrOffset attr.attrLen .FLOAT _ op = _
      unfold HeapFileScan.startScan ScanFilter.startScan
      dsimp only
      rw [if_pos (.inr (.inr ⟨rfl, length⟩))]

end Start

def removedTuples (lf lf' : LogicalFile) (chain : List Int) : List Record :=
  lf.recordsAt ((lf.rids chain).filter fun rid => (lf'.contents chain rid).isNone)

theorem LogicalFile.Purged.removed {file file' : LogicalFile} {filter : Option ScanFilter}
    {chain : List Int} (purged : file.Purged file' filter chain (file.rids chain)) :
    removedTuples file file' chain = (file.tuples chain).filter (matchRec filter) := by
  have gone : (file.rids chain).filter (fun rid => (file'.contents chain rid).isNone) =
      (file.rids chain).filter fun rid => file.wanted filter rid := by
    apply List.filter_congr
    intro rid member
    rw [purged rid]
    by_cases wanted : file.wanted filter rid = true
    · rw [if_pos ⟨member, wanted⟩, wanted]
      rfl
    · rw [if_neg fun both => wanted both.2]
      have live := LogicalFile.mem_rids.mp member
      simp only [Bool.not_eq_true] at wanted
      rw [wanted, Option.isNone_eq_false_iff]
      exact live
  unfold removedTuples
  rw [gone]
  unfold LogicalFile.tuples LogicalFile.recordsAt
  rw [List.filter_filterMap, List.filterMap_filter]
  apply List.filterMap_congr
  intro rid member
  have live := LogicalFile.mem_rids.mp member
  rw [LogicalFile.record_of_contents (LogicalFile.contents_number live).1] at live
  obtain ⟨rec, record⟩ := Option.isSome_iff_exists.mp live
  rw [LogicalFile.wanted_of_record record, record, Option.filter_some]

section Delete

variable {w : World} {pins : List Pin} {opens : List FilePtr} {cat : LogicalFile}
  {catChain : List Int} {relation : FileName} {lf : LogicalFile} {chain : List Int}
  {attrName : FileName} {desc : AttrDesc}

/-- `QU_Delete` with a qualification on an attribute of the relation. -/
theorem World.Storage.delete_query (storage : w.Storage pins opens)
    (owned : ∀ pin ∈ pins, pin.file ∈ opens) (catalog : w.Stores ATTRCATNAME cat catChain)
    (sized : ∀ rec ∈ cat.tuples catChain, rec.length = AttrDesc.size)
    (source : Relation w (cat.tuples catChain) relation lf chain) (named : attrName ≠ [])
    (found : AttrCatalog.lookup (cat.tuples catChain) relation attrName = some desc)
    (op : Operator) (type : Datatype) (value : List Byte) (mem : Uninit) (tmpRid : RID) :
    Smoothly (QU_Delete mem tmpRid relation attrName op type value) w fun status w' =>
      w'.Storage pins opens ∧
        ((desc.Scannable type ∧ status = .OK ∧ ∃ lf', w'.logical relation = some lf' ∧
            lf.Purged lf' (some (desc.predicate type op value)) chain (lf.rids chain)) ∨
          (¬desc.Scannable type ∧ status = .BADSCANPARM ∧ w'.logical = w.logical)) := by
  obtain ⟨declared, proper⟩ := source.schema desc (AttrCatalog.lookup_mem found)
  unfold QU_Delete
  apply smoothly_bind
  · intro ends
    repeat' first
      | exact keeps_pure _ | exact keeps_crash | exact get_info_keeps _ _ _ _
      | exact delete_matching_keeps _ _ | exact HeapFileScan.delete_keeps _
      | apply keeps_bind | intro _ | split
  · apply (storage.new_scan source.logical source.formed source.name.nonempty mem).mono
    rintro ends w₁ ⟨scan, rfl, scanAt, headerNo, _, constructs⟩
    have pinsOwned : ∀ pin ∈ scan.toHeapFile.pins ++ pins, pin.file ∈ scan.filePtr :: opens :=
      HeapFile.pins_owned owned
    have catalog₁ : w₁.Stores ATTRCATNAME cat catChain := by
      refine ⟨?_, catalog.formed⟩
      rw [constructs.logical]
      exact catalog.logical
    dsimp only
    rw [if_neg named]
    apply smoothly_bind
    · intro started
      repeat' first
        | exact keeps_pure _ | exact delete_matching_keeps _ _ | exact HeapFileScan.delete_keeps _
        | apply keeps_bind | intro _ | split
    · -- the lookup leaves the scan where it is
      apply smoothly_bind
      · intro found
        split <;> exact keeps_pure _
      · apply (scanAt.holding.storage.attr_found pinsOwned catalog₁ sized source.name named found
          mem tmpRid).mono
        rintro found w₂ ⟨undisturbed, rfl⟩
        apply smoothly_pure
        have scanAt₂ : w₂.ScanAt scan pins opens relation lf chain (lf.rids chain) := by
          refine ⟨⟨undisturbed.storage, ?_, ?_⟩, scanAt.formed, scanAt.pinned, scanAt.stands⟩
          · exact (undisturbed.names _ (List.mem_cons_self ..)).trans scanAt.holding.named
          · rw [undisturbed.logical]
            exact scanAt.holding.logical
        by_cases scannable : desc.Scannable type
        · have filtered := scanAt₂.start (some (desc.predicate type op value))
          rw [start_literal_as proper scannable value op]
          dsimp only
          rw [if_neg (not_not.mpr rfl)]
          apply smoothly_bind
          · intro ends
            repeat' first
              | exact keeps_pure _ | exact HeapFileScan.delete_keeps _
              | apply keeps_bind | intro _
          · apply (filtered.delete_matching tmpRid).mono
            rintro ⟨status, scan'⟩ w₃ ⟨lf', rfl, scanAt', _, _, touches, purged⟩
            obtain ⟨w₄, deleted, storage₄, logical₄, _, _⟩ := scanAt'.delete owned
            dsimp only
            apply smoothly_bind_eq deleted
            apply smoothly_pure
            refine ⟨storage₄, .inl ⟨scannable, rfl, lf', ?_, purged⟩⟩
            rw [logical₄]
            exact touches.here
        · obtain ⟨w₃, deleted, storage₃, logical₃, _, _⟩ := scanAt₂.delete owned
          rw [start_literal_refused scannable value op]
          dsimp only
          rw [if_pos (by decide)]
          apply smoothly_bind_eq deleted
          apply smoothly_pure
          refine ⟨storage₃, .inr ⟨scannable, rfl, ?_⟩⟩
          rw [logical₃, undisturbed.logical, constructs.logical]

end Delete

/-- The outcome of a comparison depends on the bytes of the attribute only. -/
theorem match_predicate_congr {attr : AttrDesc} {type : Datatype}
    (scannable : attr.Scannable type) (op : Operator) (value : List Byte) {rec rec' : Record}
    (fits : attr.Fits rec) (fits' : attr.Fits rec') (same : attr.bytes rec = attr.bytes rec') :
    matchRec (some (attr.predicate type op value)) rec =
      matchRec (some (attr.predicate type op value)) rec' := by
  have inside : ∀ {rec : Record}, attr.Fits rec →
      ¬((attr.predicate type op value).offset + (attr.predicate type op value).length - 1 ≥
        rec.length) := by
    intro rec fits
    have upper := fits.2.2
    simp only [AttrDesc.predicate]
    omega
  have bytes : ∀ index < attr.attrLen.toNat, bytesAt rec attr.attrOffset.toNat index =
      bytesAt rec' attr.attrOffset.toNat index := by
    intro index bound
    rw [bytes_at_attr rec bound, bytes_at_attr rec' bound, same]
  have words : type ≠ .STRING → ∀ index < 4, bytesAt rec attr.attrOffset.toNat index =
      bytesAt rec' attr.attrOffset.toNat index := by
    intro number index bound
    apply bytes
    rw [scannable.resolve_left number]
    exact bound
  have differences : (attr.predicate type op value).diff rec =
      (attr.predicate type op value).diff rec' := by
    cases type with
    | STRING =>
        simp only [diff, AttrDesc.predicate]
        rw [strncmp_congr _ 0 (by simpa using bytes) fun _ _ => rfl]
    | INTEGER =>
        simp only [diff, AttrDesc.predicate]
        rw [read_int_congr (words (by decide))]
    | FLOAT =>
        simp only [diff, AttrDesc.predicate]
        rw [read_float_congr (words (by decide))]
  unfold matchRec
  dsimp only
  rw [if_neg (inside fits), if_neg (inside fits'), differences]

theorem projected_inj {attrs : List AttrDesc} {rec rec' : Record}
    (fits : ∀ attr ∈ attrs, attr.Fits rec) (fits' : ∀ attr ∈ attrs, attr.Fits rec')
    (same : projected (fun _ => rec) attrs = projected (fun _ => rec') attrs) :
    ∀ attr ∈ attrs, attr.bytes rec = attr.bytes rec' := by
  induction attrs with
  | nil => simp
  | cons attr attrs ih =>
      have lengths : (attr.bytes rec).length = (attr.bytes rec').length := by
        rw [AttrDesc.bytes_length (fits attr (by simp)),
          AttrDesc.bytes_length (fits' attr (by simp))]
      unfold projected at same
      rw [List.flatMap_cons, List.flatMap_cons] at same
      obtain ⟨first, rest⟩ := List.append_inj same lengths
      intro other member
      rcases List.mem_cons.mp member with rfl | later
      · exact first
      · exact ih (fun other member => fits other (by simp [member]))
          (fun other member => fits' other (by simp [member])) rest other later

/-- The literal has the type of the attribute, or no tuple tells the two readings of the
attribute apart. -/
def LiteralAgrees (desc : AttrDesc) (declared type : Datatype) (op : Operator)
    (value : List Byte) (tuples : List Record) : Prop :=
  type = declared ∨ (desc.Scannable type ∧ ∀ rec ∈ tuples,
    matchRec (some (desc.predicate type op value)) rec =
      matchRec (some (desc.predicate declared op value)) rec)

instance (desc : AttrDesc) (declared type : Datatype) (op : Operator) (value : List Byte)
    (tuples : List Record) : Decidable (LiteralAgrees desc declared type op value tuples) :=
  inferInstanceAs (Decidable (_ ∨ _))

/-- `delete from relation where attrName op value` and `select ... into result from relation
where attrName op value`, each run on the same world: one is rejected if and only if
the other is, and the tuples that the former removes are those that the latter returns. -/
def DeleteAgreesWithSelect (w : World) (mem : Uninit) (tmpRid : RID) (relation result : FileName)
    (lf out : LogicalFile) (chain outChain : List Int) (projNames : List AttrInfo)
    (descs : List AttrDesc) (attr : AttrInfo) (op : Operator) (type : Datatype)
    (value : List Byte) : Prop :=
  ∃ deleted selected wd ws,
    QU_Delete mem tmpRid relation attr.attrName op type value w = (.ok deleted, wd) ∧
    QU_Select mem tmpRid result projNames (some attr) op value w = (.ok selected, ws) ∧
    (deleted = .OK ↔ selected = .OK) ∧
    (deleted = .OK → ∃ lf' out' outChain', wd.logical relation = some lf' ∧
      ws.Stores result out' outChain' ∧
      (out'.tuples outChain').Perm (out.tuples outChain ++
        (removedTuples lf lf' chain).map fun rec => projected (fun _ => rec) descs))

section Readings

variable {desc : AttrDesc} {descs : List AttrDesc} {declared type : Datatype} {op : Operator}
  {value : List Byte} {tuples : List Record}

/-- The two readings of the attribute agree on the tuples of the relation. -/
theorem literal_agrees_readings (proper : desc.Proper declared)
    (agrees : LiteralAgrees desc declared type op value tuples) : desc.Scannable type ∧
      ∀ rec ∈ tuples, matchRec (some (desc.predicate type op value)) rec =
        matchRec (some (desc.predicate declared op value)) rec := by
  rcases agrees with rfl | agrees
  · exact ⟨proper.scannable, fun _ _ => rfl⟩
  · exact agrees

/-- If the projections of the tuples that match are the same and the attribute is among
them, no tuple tells the two readings apart. -/
theorem readings_of_projections (proper : desc.Proper declared)
    (scannable : desc.Scannable type) (listed : desc ∈ descs)
    (fits : ∀ rec ∈ tuples, ∀ desc ∈ descs, desc.Fits rec)
    (same : ((tuples.filter (matchRec (some (desc.predicate declared op value)))).map
      fun rec => projected (fun _ => rec) descs).Perm
      ((tuples.filter (matchRec (some (desc.predicate type op value)))).map
        fun rec => projected (fun _ => rec) descs)) :
    ∀ rec ∈ tuples, matchRec (some (desc.predicate type op value)) rec =
      matchRec (some (desc.predicate declared op value)) rec := by
  -- a tuple that one reading accepts has a tuple with the same attribute that the other accepts
  have carries : ∀ {first second : Datatype}, desc.Scannable second →
      (∀ bytes, bytes ∈ (tuples.filter (matchRec (some (desc.predicate first op value)))).map
          (fun rec => projected (fun _ => rec) descs) →
        bytes ∈ (tuples.filter (matchRec (some (desc.predicate second op value)))).map
          fun rec => projected (fun _ => rec) descs) →
      ∀ rec ∈ tuples, matchRec (some (desc.predicate first op value)) rec = true →
        matchRec (some (desc.predicate second op value)) rec = true := by
    intro first second scannable subset rec member accepted
    have there := subset _ (List.mem_map_of_mem (List.mem_filter.mpr ⟨member, accepted⟩))
    obtain ⟨rec', listed', equal⟩ := List.mem_map.mp there
    obtain ⟨member', accepted'⟩ := List.mem_filter.mp listed'
    have bytes := projected_inj (fits rec' member') (fits rec member) equal desc listed
    rw [← match_predicate_congr scannable op value (fits rec' member' desc listed)
      (fits rec member desc listed) bytes]
    exact accepted'
  intro rec member
  rw [Bool.eq_iff_iff]
  constructor
  · exact carries proper.scannable (fun bytes there => same.symm.subset there) rec member
  · exact carries scannable (fun bytes there => same.subset there) rec member

end Readings

section Statement

variable {w : World} {pins : List Pin} {opens : List FilePtr} {cat : LogicalFile}
  {catChain : List Int} {relation result : FileName} {lf out : LogicalFile}
  {chain outChain : List Int} {projNames : List AttrInfo} {descs : List AttrDesc}
  {attr : AttrInfo} {desc : AttrDesc} {declared type : Datatype} {op : Operator}
  {value : List Byte} {mem : Uninit} {tmpRid : RID}

variable (storage : w.Storage pins opens) (owned : ∀ pin ∈ pins, pin.file ∈ opens)
  (catalog : w.Stores ATTRCATNAME cat catChain)
  (sized : ∀ rec ∈ cat.tuples catChain, rec.length = AttrDesc.size)
  (source : Relation w (cat.tuples catChain) relation lf chain)
  (target : w.Stores result out outChain) (resultNamed : result ≠ [])
  (different : relation ≠ result) (nonempty : projNames ≠ [])
  (own : ∀ info ∈ projNames, info.relName = relation)
  (resolves : AttrCatalog.Resolves (cat.tuples catChain) projNames descs)
  (width : (descs.map AttrDesc.attrLen).sum + SLOTSIZE ≤ DATASIZE)
  (ofRelation : attr.relName = relation) (named : attr.attrName ≠ [])
  (found : AttrCatalog.lookup (cat.tuples catChain) relation attr.attrName = some desc)
  (code : Datatype.ofCode desc.attrType = some declared)
  (deletes : (QU_Delete mem tmpRid relation attr.attrName op type value w).2.bufFailed = false)
  (selects : (QU_Select mem tmpRid result projNames (some attr) op value w).2.bufFailed = false)

include source found code in
theorem declared_proper : desc.Proper declared := by
  obtain ⟨declared', proper⟩ := source.schema desc (AttrCatalog.lookup_mem found)
  have same : declared' = declared := Option.some.inj (proper.code.symm.trans code)
  exact same ▸ proper

include storage owned catalog sized source target resultNamed different nonempty own resolves
  width ofRelation named found code deletes selects

theorem delete_and_select_runs :
    ∃ deleted wd ws out' outChain',
      QU_Delete mem tmpRid relation attr.attrName op type value w = (.ok deleted, wd) ∧
      QU_Select mem tmpRid result projNames (some attr) op value w = (.ok .OK, ws) ∧
      ws.Stores result out' outChain' ∧
      (out'.tuples outChain').Perm (out.tuples outChain ++ ((lf.tuples chain).filter
        (matchRec (some (desc.predicate declared op value)))).map
          fun rec => projected (fun _ => rec) descs) ∧
      ((desc.Scannable type ∧ deleted = .OK ∧ ∃ lf', wd.logical relation = some lf' ∧
          removedTuples lf lf' chain = (lf.tuples chain).filter
            (matchRec (some (desc.predicate type op value)))) ∨
        (¬desc.Scannable type ∧ deleted = .BADSCANPARM)) := by
  have decides : Decides (cat.tuples catChain) relation (some attr) op value
      (some (desc.predicate declared op value)) :=
    ⟨ofRelation, named, desc, declared, found, code, rfl⟩
  obtain ⟨deleted, wd, runD, _, outcome⟩ := storage.delete_query owned catalog sized source named
    found op type value mem tmpRid deletes
  obtain ⟨selected, ws, runS, rfl, _, out', outChain', _, stores, appended⟩ :=
    storage.select_query owned catalog sized source target resultNamed different nonempty own
      resolves width decides mem tmpRid selects
  refine ⟨deleted, wd, ws, out', outChain', runD, runS, stores, appended.perm, ?_⟩
  rcases outcome with ⟨scannable, ok, lf', logical, purged⟩ | ⟨refused, bad, _⟩
  · exact .inl ⟨scannable, ok, lf', logical, purged.removed⟩
  · exact .inr ⟨refused, bad⟩

theorem agrees_of_readings
    (agrees : LiteralAgrees desc declared type op value (lf.tuples chain)) :
    DeleteAgreesWithSelect w mem tmpRid relation result lf out chain outChain projNames descs attr
      op type value := by
  obtain ⟨scannable, same⟩ := literal_agrees_readings (declared_proper source found code) agrees
  obtain ⟨deleted, wd, ws, out', outChain', runD, runS, stores, perm, outcome⟩ :=
    delete_and_select_runs storage owned catalog sized source target resultNamed different nonempty
      own resolves width ofRelation named found code deletes selects
  rcases outcome with ⟨_, rfl, lf', logical, removed⟩ | ⟨refused, _⟩
  · refine ⟨.OK, .OK, wd, ws, runD, runS, Iff.rfl, fun _ => ?_⟩
    refine ⟨lf', out', outChain', logical, stores, ?_⟩
    rw [removed, List.filter_congr same]
    exact perm
  · exact absurd scannable refused

theorem readings_of_agrees (listed : desc ∈ descs)
    (agrees : DeleteAgreesWithSelect w mem tmpRid relation result lf out chain outChain projNames
      descs attr op type value) :
    LiteralAgrees desc declared type op value (lf.tuples chain) := by
  have described := resolved_described resolves own
  obtain ⟨deleted, wd, ws, out', outChain', runD, runS, stores, perm, outcome⟩ :=
    delete_and_select_runs storage owned catalog sized source target resultNamed different nonempty
      own resolves width ofRelation named found code deletes selects
  obtain ⟨deleted₂, selected₂, wd₂, ws₂, runD₂, runS₂, rejected, returned⟩ := agrees
  obtain ⟨sameDeleted, rfl⟩ := Prod.mk.inj (runD₂.symm.trans runD)
  obtain ⟨sameSelected, rfl⟩ := Prod.mk.inj (runS₂.symm.trans runS)
  obtain rfl := Outcome.ok.inj sameDeleted
  obtain rfl := Outcome.ok.inj sameSelected
  have accepted := rejected.mpr rfl
  rcases outcome with ⟨scannable, _, lf', logical, removed⟩ | ⟨_, refused⟩
  · obtain ⟨lf₂, out₂, outChain₂, logical₂, stores₂, perm₂⟩ := returned accepted
    obtain rfl := Option.some.inj (logical₂.symm.trans logical)
    obtain rfl := Option.some.inj (stores₂.logical.symm.trans stores.logical)
    obtain rfl := stores₂.formed.unique stores.formed
    rw [removed] at perm₂
    refine .inr ⟨scannable, ?_⟩
    apply readings_of_projections (declared_proper source found code) scannable listed
    · intro rec member desc listed
      exact source.conforms rec member desc (described desc listed)
    · exact (List.perm_append_left_iff _).mp (perm.symm.trans perm₂)
  · rw [refused] at accepted
    cases accepted

/-- The two statements agree if the literal has the type of the attribute or no tuple of
the relation tells the two readings of the attribute apart; and if the attribute is in the
projection list, only then. -/
theorem delete_agrees_with_select :
    (LiteralAgrees desc declared type op value (lf.tuples chain) →
      DeleteAgreesWithSelect w mem tmpRid relation result lf out chain outChain projNames descs
        attr op type value) ∧
    (desc ∈ descs → DeleteAgreesWithSelect w mem tmpRid relation result lf out chain outChain
        projNames descs attr op type value →
      LiteralAgrees desc declared type op value (lf.tuples chain)) := by
  constructor
  · exact agrees_of_readings storage owned catalog sized source target resultNamed different
      nonempty own resolves width ofRelation named found code deletes selects
  · exact readings_of_agrees storage owned catalog sized source target resultNamed different
      nonempty own resolves width ofRelation named found code deletes selects

end Statement

open HeapSession (zeroMemory)

/-- Relation `r` with the numbers 1 and 49; the latter is the character `1`. -/
def quotedR : List Record := [[1, 0, 0, 0, 120, 0], [49, 0, 0, 0, 121, 0]]

def quotedStart : World := sampleDatabase [([114], quotedR), ([113], [])]

theorem quoted_relation :
    Relation quotedStart sampleDescs [114] (tableFile [114] quotedR) [2] :=
  sample_relation rfl (by decide) ⟨by decide, by decide, by decide⟩ (by decide +kernel)
    (by decide +kernel) (by decide +kernel)

theorem quoted_start_storage : quotedStart.Storage [] [] := sample_storage _

theorem quoted_start_catalog :
    quotedStart.Stores ATTRCATNAME (tableFile ATTRCATNAME sampleCatalog) [2] :=
  sample_catalog_stored _

theorem quoted_result_stored : quotedStart.Stores [113] (tableFile [113] []) [2] :=
  database_stores 8 rfl (by decide)

theorem quoted_found :
    AttrCatalog.lookup sampleDescs [114] (AttrInfo.named [114] [97]).attrName = some attrRA := by
  decide +kernel

theorem quoted_resolves :
    AttrCatalog.Resolves sampleDescs [.named [114] [97]] [attrRA] :=
  .cons ⟨⟨by decide, by decide, by decide⟩, by decide, quoted_found⟩ .nil

/-- `delete from r where a = 1`: the number agrees with the attribute. -/
theorem delete_agrees_with_select_number : DeleteAgreesWithSelect quotedStart zeroMemory NULLRID
    [114] [113] (tableFile [114] quotedR) (tableFile [113] []) [2] [2] [.named [114] [97]] [attrRA]
    (.named [114] [97]) .EQ .INTEGER [49] :=
  (delete_agrees_with_select quoted_start_storage (by simp) quoted_start_catalog
    (by decide +kernel) quoted_relation quoted_result_stored (by decide) (by decide) (by decide)
    (by decide) quoted_resolves (by decide) rfl (by decide) quoted_found rfl
    (by decide +kernel) (by decide +kernel)).1 (.inl rfl)

/-- `delete from r where a = '1'` removes the tuple with 49, and `select` returns the one
with 1. -/
theorem delete_differs_from_select : ¬DeleteAgreesWithSelect quotedStart zeroMemory NULLRID
    [114] [113] (tableFile [114] quotedR) (tableFile [113] []) [2] [2] [.named [114] [97]] [attrRA]
    (.named [114] [97]) .EQ .STRING [49] := by
  intro agrees
  have readings := readings_of_agrees quoted_start_storage (by simp) quoted_start_catalog
    (by decide +kernel) quoted_relation quoted_result_stored (by decide) (by decide) (by decide)
    (by decide) quoted_resolves (by decide) rfl (by decide) quoted_found
    (show Datatype.ofCode attrRA.attrType = some .INTEGER from rfl) (by decide +kernel)
    (by decide +kernel) (by decide) agrees
  revert readings
  decide +kernel

end PrimitiveDB

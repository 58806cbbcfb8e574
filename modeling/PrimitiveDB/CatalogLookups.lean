import PrimitiveDB.HeapTuples
import PrimitiveDB.StringOrder

/-!
# Looking things up in the catalogs

A catalog is a well-formed heap file whose tuples all have the size of its
descriptor. Then every lookup is a function of the list of its tuples, and leaves
the rest of the world as it found it.
-/

namespace PrimitiveDB

open World DbM

set_option autoImplicit false

structure ProperName (name : FileName) : Prop where
  nonempty : name ≠ []
  terminated : 0 ∉ name
  short : name.length < MAXNAME

def nameFilter (relation : FileName) : ScanFilter :=
  { offset := 0, length := relation.length + 1, type := .STRING, filter := relation ++ [0]
    op := .EQ }

theorem start_by_name (hfs : HeapFileScan) (relation : FileName) :
    hfs.startByName relation = (.OK, { hfs with filter := some (nameFilter relation) }) := by
  have accepted : ScanFilter.startScan hfs.filter 0 (relation.length + 1) .STRING
      (some (relation ++ [0])) .EQ = (.OK, some (nameFilter relation)) := by
    unfold ScanFilter.startScan
    dsimp only
    rw [if_neg]
    · rfl
    · simp only [reduceCtorEq, false_and, or_self, or_false]
      omega
  unfold HeapFileScan.startByName HeapFileScan.startScan
  rw [accepted]

theorem match_name_iff {relation : FileName} (terminated : 0 ∉ relation) {rec : Record}
    (longer : relation.length < rec.length) :
    ScanFilter.matchRec (some (nameFilter relation)) rec = true ↔ cString rec = relation := by
  have inside : ¬((nameFilter relation).offset + (nameFilter relation).length - 1 ≥ rec.length) := by
    simp only [nameFilter]
    omega
  have difference : (nameFilter relation).diff rec = some (ScanFilter.strncmp
      (ScanFilter.bytesAt rec 0) (ScanFilter.bytesAt (relation ++ [0]) 0) 0
      (relation.length + 1)) := rfl
  unfold ScanFilter.matchRec
  dsimp only
  rw [if_neg inside, difference, ← strncmp_name terminated longer]
  simp [ScanFilter.opHolds, nameFilter]

namespace World

variable {w w' w'' : World} {pins rest : List Pin} {opens others : List FilePtr}
  {fileName : FileName} {lf : LogicalFile} {chain : List Int} {todo : List RID}

structure Undisturbed (before after : World) (pins : List Pin) (opens : List FilePtr) :
    Prop where
  storage : after.Storage pins opens
  logical : after.logical = before.logical
  names : ∀ file ∈ opens, after.nameOf file = before.nameOf file

theorem Undisturbed.trans (first : Undisturbed w w' pins opens)
    (second : Undisturbed w' w'' pins opens) : Undisturbed w w'' pins opens :=
  ⟨second.storage, second.logical.trans first.logical, fun file member =>
    (second.names file member).trans (first.names file member)⟩

structure Stores (w : World) (fileName : FileName) (lf : LogicalFile) (chain : List Int) :
    Prop where
  logical : w.logical fileName = some lf
  formed : lf.HeapFormed lf.firstPage chain

theorem Undisturbed.stores (undisturbed : Undisturbed w w' pins opens)
    (stores : w.Stores fileName lf chain) : w'.Stores fileName lf chain :=
  ⟨by rw [undisturbed.logical]; exact stores.logical, stores.formed⟩

/-- A destructor ends what a constructor began, if only reads lie between them. -/
theorem Constructs.between {w₁ w₂ w₃ : World} (constructs : Constructs w w₁ opens)
    (same : SameLogical w₁ w₂) (undisturbed : Undisturbed w₂ w₃ pins opens) :
    Undisturbed w w₃ pins opens := by
  refine ⟨undisturbed.storage, ?_, fun file member => ?_⟩
  · rw [undisturbed.logical, same.logical, constructs.logical]
  · rw [undisturbed.names file member, same.nameOf, constructs.names file member]

theorem ScanAt.finish {scan : HeapFileScan}
    (scanAt : w.ScanAt scan rest others fileName lf chain todo)
    (owned : ∀ pin ∈ rest, pin.file ∈ others) :
    ∃ w', scan.finish w = (.ok .OK, w') ∧ Undisturbed w w' rest others := by
  obtain ⟨scan', w₁, ended, same, _, _, _, held⟩ := scanAt.holding.end_scan
  have object : w₁.Holding (HeapObject.heapFileScan scan').base rest others fileName lf := held
  obtain ⟨w₂, w', destroys⟩ := object.destroys owned
  have deletes : scan'.delete w₁ = (.ok (), w') := destroys.deletes
  refine ⟨w', ?_, destroys.storage, ?_, ?_⟩
  · unfold HeapFileScan.finish
    rw [bind_ok ended]
    dsimp only
    rw [bind_ok deletes]
    rfl
  · exact destroys.closes.logical.trans (destroys.same.logical.trans same.logical)
  · intro file member
    rw [destroys.closes.names file member, destroys.same.nameOf, same.nameOf]

theorem ScanAt.search_fuel {scan : HeapFileScan}
    (scanAt : w.ScanAt scan rest others fileName lf chain todo) :
    AttrCatalog.searchFuel scan w = (.ok (lf.size * 40000), w) := by
  have fuel := scanAt.holding.scan_fuel
  unfold AttrCatalog.searchFuel DbM.read
  dsimp only
  rw [fuel]

theorem ScanAt.next_record {scan : HeapFileScan}
    (scanAt : w.ScanAt scan rest others fileName lf chain todo) (tmpRid : RID) :
    Smoothly (scan.scanNext tmpRid) w fun result w' => SameLogical w w' ∧
      result.2.filter = scan.filter ∧ result.2.filePtr = scan.filePtr ∧
      result.2.headerPageNo = scan.headerPageNo ∧
      ((result.1 = .error .FILEEOF ∧ w'.ScanAt result.2 rest others fileName lf chain [] ∧
          (lf.recordsAt todo).filter (ScanFilter.matchRec scan.filter) = []) ∨
        ∃ rid rec later, result.1 = .ok rid ∧ result.2.curRec = rid ∧
          w'.ScanAt result.2 rest others fileName lf chain later ∧
          lf.contents chain rid = some rec ∧ result.2.current w' = (.ok (.ok rec), w') ∧
          result.2.curPageNo = rid.pageNo ∧ later.length < todo.length ∧
          (lf.recordsAt todo).filter (ScanFilter.matchRec scan.filter) =
            rec :: (lf.recordsAt later).filter (ScanFilter.matchRec scan.filter)) := by
  apply (scanAt.scan_next tmpRid).mono
  rintro ⟨result, scan₁⟩ w₁ ⟨same, file, headerNo, filter, outcome⟩
  refine ⟨same, filter, file, headerNo, ?_⟩
  rw [LogicalFile.records_at_sought]
  cases sought : lf.sought scan.filter todo with
  | nil =>
      rw [sought] at outcome
      obtain ⟨rfl, scanAt₁⟩ := outcome
      exact .inl ⟨rfl, scanAt₁, rfl⟩
  | cons rid later =>
      rw [sought] at outcome
      obtain ⟨rfl, curRec, curNo, scanAt₁⟩ := outcome
      right
      have shorter : (rid :: later).length ≤ todo.length := by
        rw [← sought]
        exact List.length_dropWhile_le _ _
      have inTodo : rid ∈ todo := by
        obtain ⟨skipped, split, _⟩ := @LogicalFile.sought_split lf scan.filter todo
        rw [split, sought]
        simp
      have alive := LogicalFile.mem_rids.mp (scanAt.stands.sublist.subset inTodo)
      obtain ⟨rec, live⟩ := Option.isSome_iff_exists.mp alive
      have record : lf.record rid = some rec := by
        rw [← LogicalFile.record_of_contents (LogicalFile.contents_number alive).1]
        exact live
      have accepted : ScanFilter.matchRec scan.filter rec = true := by
        have wanted := LogicalFile.wanted_of_sought sought
        rwa [LogicalFile.wanted_of_record record] at wanted
      refine ⟨rid, rec, later, rfl, curRec, scanAt₁, live, ?_, curNo, shorter, ?_⟩
      · apply scanAt₁.current
        · exact curNo.trans (by rw [curRec])
        · rw [curRec]
          exact live
      · rw [LogicalFile.records_at_cons record, List.filter_cons_of_pos accepted]

end World

theorem HeapFileScan.finish_keeps (scan : HeapFileScan) : KeepsFlag scan.finish :=
  keeps_bind (HeapFileScan.end_scan_keeps scan) fun _ =>
    keeps_bind (HeapFileScan.delete_keeps _) fun _ => keeps_pure _

namespace AttrCatalog

variable {w : World} {rest : List Pin} {others : List FilePtr} {fileName : FileName}
  {lf : LogicalFile} {chain : List Int} {todo : List RID}

theorem search_keeps (tmpRid : RID) (attrName : FileName) (fuel : Nat) (hfs : HeapFileScan) :
    KeepsFlag (search tmpRid attrName fuel hfs) := by
  induction fuel generalizing hfs with
  | zero => exact keeps_crash
  | succ fuel ih =>
      unfold search
      repeat' first
        | exact keeps_pure _ | exact keeps_crash | exact HeapFileScan.scan_next_keeps _ _
        | exact HeapFileScan.current_keeps _ | exact ih _
        | apply keeps_bind | intro _ | split | dsimp only

theorem collect_keeps (tmpRid : RID) (fuel : Nat) (attrs : List AttrDesc) (hfs : HeapFileScan) :
    KeepsFlag (collect tmpRid fuel attrs hfs) := by
  induction fuel generalizing attrs hfs with
  | zero => exact keeps_crash
  | succ fuel ih =>
      unfold collect
      repeat' first
        | exact keeps_pure _ | exact keeps_crash | exact HeapFileScan.scan_next_keeps _ _
        | exact HeapFileScan.current_keeps _ | exact ih _ _
        | apply keeps_bind | intro _ | split

/-- How the loop of `getInfo` and `removeInfo` ends on the records in front of it. -/
theorem scan_search (fuel : Nat) {w : World} {hfs : HeapFileScan} {todo : List RID}
    (scanAt : w.ScanAt hfs rest others fileName lf chain todo) (tmpRid : RID)
    (attrName : FileName) (enough : todo.length < fuel)
    (sized : ∀ rec ∈ (lf.recordsAt todo).filter (ScanFilter.matchRec hfs.filter),
      rec.length = AttrDesc.size) :
    Smoothly (search tmpRid attrName fuel hfs) w fun result w' => SameLogical w w' ∧
      match ((lf.recordsAt todo).filter (ScanFilter.matchRec hfs.filter)).find?
          fun rec => (AttrDesc.ofRecord rec).attrName = attrName with
      | none => ∃ hfs', result = .stopped .FILEEOF hfs' ∧
          w'.ScanAt hfs' rest others fileName lf chain []
      | some rec => ∃ hfs' later, result = .found (AttrDesc.ofRecord rec) hfs' ∧
          w'.ScanAt hfs' rest others fileName lf chain later ∧
          hfs'.curPageNo = hfs'.curRec.pageNo ∧ lf.contents chain hfs'.curRec = some rec ∧
          hfs'.headerPageNo = hfs.headerPageNo := by
  induction fuel generalizing w hfs todo with
  | zero => exact absurd enough (Nat.not_lt_zero _)
  | succ fuel ih =>
      unfold search
      apply smoothly_bind
      · intro result
        repeat' first
          | exact keeps_pure _ | exact keeps_crash | exact HeapFileScan.current_keeps _
          | exact search_keeps _ _ _ _
          | apply keeps_bind | intro _ | split | dsimp only
      · apply (scanAt.next_record tmpRid).mono
        rintro ⟨result, hfs₁⟩ w₁ ⟨same, filter, _, headerNo, outcome⟩
        rcases outcome with ⟨rfl, scanAt₁, none_⟩ |
          ⟨rid, rec, later, rfl, curRec, scanAt₁, live, current, curNo, shorter, split⟩
        · apply smoothly_pure
          rw [none_]
          exact ⟨same, hfs₁, rfl, scanAt₁⟩
        · rw [split] at sized ⊢
          dsimp only at filter curRec curNo headerNo scanAt₁ current
          apply smoothly_bind_eq current
          dsimp only
          rw [if_neg (not_not.mpr (sized rec (by simp))), List.find?_cons]
          by_cases found : (AttrDesc.ofRecord rec).attrName = attrName
          · rw [if_pos found]
            simp only [found, decide_true]
            apply smoothly_pure
            refine ⟨same, hfs₁, later, rfl, scanAt₁, ?_, ?_, headerNo⟩
            · rw [curRec]
              exact curNo
            · rw [curRec]
              exact live
          · rw [if_neg found]
            simp only [found, decide_false]
            rw [← filter] at sized ⊢
            rw [← headerNo]
            apply (ih scanAt₁ (by omega) fun rec member => sized rec (by simp [member])).mono
            rintro result w₂ ⟨same₂, ends⟩
            exact ⟨same.trans same₂, ends⟩

/-- The loop of `getRelInfo` takes all the records in front of it. -/
theorem scan_collect (fuel : Nat) {w : World} {hfs : HeapFileScan} {todo : List RID}
    (scanAt : w.ScanAt hfs rest others fileName lf chain todo) (tmpRid : RID)
    (attrs : List AttrDesc) (enough : todo.length < fuel)
    (sized : ∀ rec ∈ (lf.recordsAt todo).filter (ScanFilter.matchRec hfs.filter),
      rec.length = AttrDesc.size) :
    Smoothly (collect tmpRid fuel attrs hfs) w fun result w' => SameLogical w w' ∧
      ∃ hfs', result = (attrs ++ ((lf.recordsAt todo).filter
          (ScanFilter.matchRec hfs.filter)).map AttrDesc.ofRecord, .ok (.FILEEOF, hfs')) ∧
        w'.ScanAt hfs' rest others fileName lf chain [] := by
  induction fuel generalizing w hfs todo attrs with
  | zero => exact absurd enough (Nat.not_lt_zero _)
  | succ fuel ih =>
      unfold collect
      apply smoothly_bind
      · intro result
        repeat' first
          | exact keeps_pure _ | exact keeps_crash | exact HeapFileScan.current_keeps _
          | exact collect_keeps _ _ _ _
          | apply keeps_bind | intro _ | split
      · apply (scanAt.next_record tmpRid).mono
        rintro ⟨result, hfs₁⟩ w₁ ⟨same, filter, _, _, outcome⟩
        rcases outcome with ⟨rfl, scanAt₁, none_⟩ |
          ⟨rid, rec, later, rfl, curRec, scanAt₁, live, current, curNo, shorter, split⟩
        · apply smoothly_pure
          rw [none_, List.map_nil, List.append_nil]
          exact ⟨same, hfs₁, rfl, scanAt₁⟩
        · rw [split] at sized ⊢
          dsimp only at filter scanAt₁ current
          apply smoothly_bind_eq current
          dsimp only
          rw [if_neg (not_not.mpr (sized rec (by simp)))]
          rw [← filter] at sized ⊢
          apply (ih scanAt₁ (attrs ++ [AttrDesc.ofRecord rec]) (by omega)
            fun rec member => sized rec (by simp [member])).mono
          rintro result w₂ ⟨same₂, hfs₂, rfl, scanAt₂⟩
          refine ⟨same.trans same₂, hfs₂, ?_, scanAt₂⟩
          simp

def describe (tuples : List Record) (relation : FileName) : List AttrDesc :=
  (tuples.filter fun rec => cString rec = relation).map AttrDesc.ofRecord

def lookup (tuples : List Record) (relation attrName : FileName) : Option AttrDesc :=
  (describe tuples relation).find? fun attr => attr.attrName = attrName

theorem lookup_eq (tuples : List Record) (relation attrName : FileName) :
    lookup tuples relation attrName =
      ((tuples.filter fun rec => cString rec = relation).find?
        fun rec => (AttrDesc.ofRecord rec).attrName = attrName).map AttrDesc.ofRecord := by
  unfold lookup describe
  rw [List.find?_map]
  rfl

end AttrCatalog

theorem filter_by_name {relation : FileName} (proper : ProperName relation) {size : Nat}
    (large : MAXNAME ≤ size) {tuples : List Record} (sized : ∀ rec ∈ tuples, rec.length = size) :
    tuples.filter (ScanFilter.matchRec (some (nameFilter relation))) =
      tuples.filter fun rec => cString rec = relation := by
  apply List.filter_congr
  intro rec member
  have short := proper.short
  have length := sized rec member
  rw [Bool.eq_iff_iff, match_name_iff proper.terminated (by omega)]
  simp

namespace World

variable {w : World} {pins : List Pin} {opens : List FilePtr} {lf : LogicalFile}
  {chain : List Int} {relation : FileName}

/-- The start of every catalog method: a scan by name of the whole catalog. -/
theorem Storage.open_catalog (storage : w.Storage pins opens) {catalog : FileName}
    (stores : w.Stores catalog lf chain) (named : catalog ≠ []) (mem : Uninit)
    (relation : FileName) :
    Smoothly (HeapFileScan.new mem catalog) w fun result w' =>
      ∃ hfs, result = .ok hfs ∧ Constructs w w' opens ∧
        w'.ScanAt { hfs with filter := some (nameFilter relation) } pins opens catalog lf chain
          (lf.rids chain) := by
  apply (storage.new_scan stores.logical stores.formed named mem).mono
  rintro result w₁ ⟨hfs, rfl, scanAt, _, _, constructs⟩
  exact ⟨hfs, rfl, constructs, scanAt.start _⟩

/-- `AttrCatalog::getInfo` returns the first description of the attribute. -/
theorem Storage.attr_get_info (storage : w.Storage pins opens)
    (owned : ∀ pin ∈ pins, pin.file ∈ opens) (stores : w.Stores ATTRCATNAME lf chain)
    (sized : ∀ rec ∈ lf.tuples chain, rec.length = AttrDesc.size) (proper : ProperName relation)
    {attrName : FileName} (nonempty : attrName ≠ []) (mem : Uninit) (tmpRid : RID) :
    Smoothly (AttrCatalog.getInfo mem tmpRid relation attrName) w fun result w' =>
      Undisturbed w w' pins opens ∧
      result = match AttrCatalog.lookup (lf.tuples chain) relation attrName with
        | some desc => .ok desc
        | none => .error .ATTRNOTFOUND := by
  have filtered := filter_by_name proper (by decide) sized
  unfold AttrCatalog.getInfo
  rw [if_neg (not_or.mpr ⟨proper.nonempty, nonempty⟩)]
  apply smoothly_bind
  · intro result
    repeat' first
      | exact keeps_pure _ | exact keeps_read _ | exact HeapFileScan.delete_keeps _
      | exact AttrCatalog.search_keeps _ _ _ _ | exact HeapFileScan.finish_keeps _
      | apply keeps_bind | intro _ | split
  · apply (storage.open_catalog stores (by decide) mem relation).mono
    rintro result w₁ ⟨hfs, rfl, constructs, scanAt⟩
    dsimp only
    rw [start_by_name]
    dsimp only
    rw [if_neg (not_not.mpr rfl)]
    apply smoothly_bind_eq scanAt.search_fuel
    apply smoothly_bind
    · intro result
      repeat' first
        | exact keeps_pure _ | exact HeapFileScan.finish_keeps _
        | apply keeps_bind | intro _ | split
    · apply (AttrCatalog.scan_search _ scanAt tmpRid attrName scanAt.formed.rids_lt
        fun rec member => sized rec (List.mem_of_mem_filter member)).mono
      rintro result w₂ ⟨same, ends⟩
      rw [AttrCatalog.lookup_eq, ← filtered]
      unfold LogicalFile.tuples
      dsimp only at ends
      cases found : ((lf.recordsAt (lf.rids chain)).filter
          (ScanFilter.matchRec (some (nameFilter relation)))).find?
          fun rec => (AttrDesc.ofRecord rec).attrName = attrName with
      | none =>
          rw [found] at ends
          obtain ⟨hfs', rfl, scanAt'⟩ := ends
          obtain ⟨w₃, finishes, undisturbed⟩ := scanAt'.finish owned
          apply smoothly_bind_eq finishes
          exact smoothly_pure ⟨constructs.between same undisturbed, rfl⟩
      | some rec =>
          rw [found] at ends
          obtain ⟨hfs', later, rfl, scanAt', _⟩ := ends
          obtain ⟨w₃, finishes, undisturbed⟩ := scanAt'.finish owned
          apply smoothly_bind_eq finishes
          exact smoothly_pure ⟨constructs.between same undisturbed, rfl⟩

/-- `AttrCatalog::getRelInfo` returns all descriptions of the relation. -/
theorem Storage.attr_get_rel_info (storage : w.Storage pins opens)
    (owned : ∀ pin ∈ pins, pin.file ∈ opens) (stores : w.Stores ATTRCATNAME lf chain)
    (sized : ∀ rec ∈ lf.tuples chain, rec.length = AttrDesc.size) (proper : ProperName relation)
    (mem : Uninit) (tmpRid : RID) :
    Smoothly (AttrCatalog.getRelInfo mem tmpRid relation) w fun result w' =>
      Undisturbed w w' pins opens ∧
      result = if AttrCatalog.describe (lf.tuples chain) relation = [] then .error .RELNOTFOUND
        else .ok (AttrCatalog.describe (lf.tuples chain) relation) := by
  have filtered := filter_by_name proper (by decide) sized
  unfold AttrCatalog.getRelInfo
  rw [if_neg proper.nonempty]
  apply smoothly_bind
  · intro result
    repeat' first
      | exact keeps_pure _ | exact keeps_read _ | exact HeapFileScan.delete_keeps _
      | exact AttrCatalog.collect_keeps _ _ _ _ | exact HeapFileScan.finish_keeps _
      | apply keeps_bind | intro _ | split
  · apply (storage.open_catalog stores (by decide) mem relation).mono
    rintro result w₁ ⟨hfs, rfl, constructs, scanAt⟩
    dsimp only
    rw [start_by_name]
    dsimp only
    rw [if_neg (not_not.mpr rfl)]
    apply smoothly_bind_eq scanAt.search_fuel
    apply smoothly_bind
    · intro result
      repeat' first
        | exact keeps_pure _ | exact HeapFileScan.finish_keeps _
        | apply keeps_bind | intro _ | split
    · apply (AttrCatalog.scan_collect _ scanAt tmpRid [] scanAt.formed.rids_lt
        fun rec member => sized rec (List.mem_of_mem_filter member)).mono
      rintro result w₂ ⟨same, hfs', rfl, scanAt'⟩
      obtain ⟨w₃, finishes, undisturbed⟩ := scanAt'.finish owned
      have listed : [] ++ ((lf.recordsAt (lf.rids chain)).filter (ScanFilter.matchRec
          (some (nameFilter relation)))).map AttrDesc.ofRecord =
          AttrCatalog.describe (lf.tuples chain) relation := by
        rw [List.nil_append, AttrCatalog.describe, ← filtered]
        rfl
      dsimp only
      rw [listed]
      apply smoothly_bind_eq finishes
      rw [if_pos rfl]
      split
      · exact smoothly_pure ⟨constructs.between same undisturbed, rfl⟩
      · rw [if_pos rfl]
        exact smoothly_pure ⟨constructs.between same undisturbed, rfl⟩

/-- `RelCatalog::getInfo` returns the first description of the relation. -/
theorem Storage.rel_get_info (storage : w.Storage pins opens)
    (owned : ∀ pin ∈ pins, pin.file ∈ opens) (stores : w.Stores RELCATNAME lf chain)
    (sized : ∀ rec ∈ lf.tuples chain, rec.length = RelDesc.size) (proper : ProperName relation)
    (mem : Uninit) (tmpRid : RID) :
    Smoothly (RelCatalog.getInfo mem tmpRid relation) w fun result w' =>
      Undisturbed w w' pins opens ∧
      result = match (lf.tuples chain).find? fun rec => cString rec = relation with
        | some rec => .ok (RelDesc.ofRecord rec)
        | none => .error .RELNOTFOUND := by
  have filtered := filter_by_name proper (by decide) sized
  unfold RelCatalog.getInfo
  rw [if_neg proper.nonempty]
  apply smoothly_bind
  · intro result
    repeat' first
      | exact keeps_pure _ | exact keeps_crash | exact HeapFileScan.delete_keeps _
      | exact HeapFileScan.scan_next_keeps _ _ | exact HeapFileScan.current_keeps _
      | exact HeapFileScan.finish_keeps _
      | apply keeps_bind | intro _ | split
  · apply (storage.open_catalog stores (by decide) mem relation).mono
    rintro result w₁ ⟨hfs, rfl, constructs, scanAt⟩
    dsimp only
    rw [start_by_name]
    dsimp only
    rw [if_neg (not_not.mpr rfl)]
    apply smoothly_bind
    · intro result
      repeat' first
        | exact keeps_pure _ | exact keeps_crash | exact HeapFileScan.finish_keeps _
        | exact HeapFileScan.current_keeps _
        | apply keeps_bind | intro _ | split
    · apply (scanAt.next_record tmpRid).mono
      rintro ⟨result, hfs₁⟩ w₂ ⟨same, _, _, _, outcome⟩
      rw [← List.head?_filter, ← filtered]
      rcases outcome with ⟨rfl, scanAt', none_⟩ |
        ⟨rid, rec, later, rfl, _, scanAt', live, current, _, _, split⟩
      · have empty : (lf.tuples chain).filter
            (ScanFilter.matchRec (some (nameFilter relation))) = [] := none_
        obtain ⟨w₃, finishes, undisturbed⟩ := scanAt'.finish owned
        dsimp only
        rw [empty]
        apply smoothly_bind_eq finishes
        exact smoothly_pure ⟨constructs.between same undisturbed, rfl⟩
      · have first : (lf.tuples chain).filter
            (ScanFilter.matchRec (some (nameFilter relation))) = rec :: _ := split
        obtain ⟨w₃, finishes, undisturbed⟩ := scanAt'.finish owned
        dsimp only
        rw [first]
        apply smoothly_bind_eq current
        dsimp only
        rw [if_neg (not_not.mpr (sized rec (LogicalFile.mem_tuples.mpr ⟨rid, live⟩)))]
        apply smoothly_bind_eq finishes
        rw [if_pos rfl]
        exact smoothly_pure ⟨constructs.between same undisturbed, rfl⟩

end World

end PrimitiveDB

import PrimitiveDB.CatalogLookups
import PrimitiveDB.Queries
import PrimitiveDB.DatabaseImages

/-!
# Selection

`QU_Select` looks its attributes up, then scans the relation and inserts the
projection of every tuple that matches into the result relation. Two objects are
open at a time; each of them only sees the pins and the handle of the other.
-/

namespace PrimitiveDB

open World DbM ByteMemory

set_option autoImplicit false

namespace AttrDesc

def bytes (attr : AttrDesc) (rec : Record) : List Byte :=
  (rec.drop attr.attrOffset.toNat).take attr.attrLen.toNat

def Fits (attr : AttrDesc) (rec : Record) : Prop :=
  0 ≤ attr.attrOffset ∧ 0 ≤ attr.attrLen ∧ attr.attrOffset + attr.attrLen ≤ rec.length

theorem bytes_length {attr : AttrDesc} {rec : Record} (fits : attr.Fits rec) :
    (attr.bytes rec).length = attr.attrLen.toNat := by
  obtain ⟨lower, size, upper⟩ := fits
  simp only [bytes, List.length_take, List.length_drop]
  omega

end AttrDesc

def projected (source : AttrDesc → Record) (attrs : List AttrDesc) : Record :=
  attrs.flatMap fun attr => attr.bytes (source attr)

theorem copy_attrs_eq (source : AttrDesc → Record) (attrs : List AttrDesc)
    (fits : ∀ attr ∈ attrs, attr.Fits (source attr)) (w : World) :
    copyAttrs source attrs w = (.ok (projected source attrs), w) := by
  induction attrs with
  | nil => rfl
  | cons attr attrs ih =>
      have copied : copyAttr (source attr) attr w = (.ok (attr.bytes (source attr)), w) := by
        have inside : attr.Fits (source attr) := fits attr (by simp)
        unfold AttrDesc.Fits at inside
        unfold copyAttr
        rw [if_pos inside]
        rfl
      rw [copyAttrs, bind_ok copied, bind_ok (ih fun other member => fits other (by simp [member]))]
      rfl

theorem projected_length {source : AttrDesc → Record} {attrs : List AttrDesc}
    (fits : ∀ attr ∈ attrs, attr.Fits (source attr)) :
    (projected source attrs).length = (attrs.map fun attr => attr.attrLen.toNat).sum := by
  unfold projected
  rw [List.length_flatMap]
  congr 1
  apply List.map_congr_left
  intro attr member
  exact AttrDesc.bytes_length (fits attr member)

theorem HeapFile.pins_file (heap : HeapFile) : ∀ pin ∈ heap.pins, pin.file = heap.filePtr := by
  intro pin member
  simp only [HeapFile.pins, List.mem_cons, List.mem_map] at member
  rcases member with rfl | ⟨frame, _, rfl⟩ <;> rfl

theorem HeapFile.pins_owned {heap : HeapFile} {rest : List Pin} {others : List FilePtr}
    (owned : ∀ pin ∈ rest, pin.file ∈ others) :
    ∀ pin ∈ heap.pins ++ rest, pin.file ∈ heap.filePtr :: others := by
  intro pin member
  rcases List.mem_append.mp member with own | other
  · rw [heap.pins_file pin own]
    exact List.mem_cons_self ..
  · exact List.mem_cons_of_mem _ (owned pin other)

namespace World

variable {w w' : World} {rest : List Pin} {others : List FilePtr}
  {relation result : FileName} {lf out : LogicalFile} {chain outChain : List Int}
  {todo : List RID}

theorem Holding.beside {first second : HeapFile}
    (holding : w.Holding first (second.pins ++ rest) (second.filePtr :: others) relation lf)
    (named : w.nameOf second.filePtr = some result) (logical : w.logical result = some out) :
    w.Holding second (first.pins ++ rest) (first.filePtr :: others) result out := by
  refine ⟨?_, named, logical⟩
  have swapped : (first.pins ++ (second.pins ++ rest)).Perm
      (second.pins ++ (first.pins ++ rest)) := by
    rw [← List.append_assoc, ← List.append_assoc]
    exact List.perm_append_comm.append_right rest
  exact (holding.storage.perm swapped).perm_opens (List.Perm.swap _ _ _)

/-- A scan of one relation and an inserter at the end of another. -/
structure Emits (w : World) (scan : HeapFileScan) (resultRel : InsertFileScan)
    (rest : List Pin) (others : List FilePtr) (relation : FileName) (lf : LogicalFile)
    (chain : List Int) (todo : List RID) (result : FileName) (out : LogicalFile)
    (outChain : List Int) : Prop where
  scanAt : w.ScanAt scan (resultRel.reporting.toHeapFile.pins ++ rest)
    (resultRel.filePtr :: others) relation lf chain todo
  insertsAt : w.InsertsAt resultRel (scan.toHeapFile.pins ++ rest) (scan.filePtr :: others)
    result out outChain
  atEnd : InsertFileScan.AtEnd resultRel out
  first : out.firstPage = resultRel.headerPageNo

theorem Emits.scanned {scan scan' : HeapFileScan} {resultRel : InsertFileScan} {later : List RID}
    (emits : w.Emits scan resultRel rest others relation lf chain todo result out outChain)
    (same : SameLogical w w') (scanAt : w'.ScanAt scan' (resultRel.reporting.toHeapFile.pins ++ rest)
      (resultRel.filePtr :: others) relation lf chain later) :
    w'.Emits scan' resultRel rest others relation lf chain later result out outChain := by
  refine ⟨scanAt, ⟨?_, emits.insertsAt.formed, emits.insertsAt.pinned, emits.insertsAt.member⟩,
    emits.atEnd, emits.first⟩
  apply Holding.beside scanAt.holding
  · rw [same.nameOf]
    exact emits.insertsAt.holding.named
  · rw [same.logical]
    exact emits.insertsAt.holding.logical

theorem Emits.resume {scan : HeapFileScan} {resultRel resultRel' : InsertFileScan}
    {out' : LogicalFile} {outChain' : List Int}
    (emits : w.Emits scan resultRel rest others relation lf chain todo result out outChain)
    (named : w'.nameOf scan.filePtr = w.nameOf scan.filePtr)
    (same : w'.logical relation = w.logical relation)
    (insertsAt : w'.InsertsAt resultRel' (scan.toHeapFile.pins ++ rest) (scan.filePtr :: others)
      result out' outChain') (atEnd : InsertFileScan.AtEnd resultRel' out')
    (first : out'.firstPage = resultRel'.headerPageNo) :
    w'.Emits scan resultRel' rest others relation lf chain todo result out' outChain' := by
  refine ⟨⟨?_, emits.scanAt.formed, emits.scanAt.pinned, emits.scanAt.stands⟩, insertsAt, atEnd,
    first⟩
  apply Holding.beside insertsAt.holding
  · exact named.trans emits.scanAt.holding.named
  · exact same.trans emits.scanAt.holding.logical

theorem Emits.emitted {scan : HeapFileScan} {resultRel resultRel' : InsertFileScan}
    {out' : LogicalFile} {outChain' : List Int}
    (emits : w.Emits scan resultRel rest others relation lf chain todo result out outChain)
    (different : relation ≠ result) (touches : Touches w w' result out')
    (insertsAt : w'.InsertsAt resultRel' (scan.toHeapFile.pins ++ rest) (scan.filePtr :: others)
      result out' outChain') (atEnd : InsertFileScan.AtEnd resultRel' out')
    (first : out'.firstPage = resultRel'.headerPageNo) :
    w'.Emits scan resultRel' rest others relation lf chain todo result out' outChain' :=
  emits.resume (touches.names _) (touches.elsewhere different) insertsAt atEnd first

end World

theorem World.Emits.insert_output {w : World} {rest : List Pin} {others : List FilePtr}
    {relation result : FileName} {lf out : LogicalFile} {chain outChain : List Int}
    {todo : List RID} {scan : HeapFileScan} {resultRel : InsertFileScan}
    (emits : w.Emits scan resultRel rest others relation lf chain todo result out outChain)
    (different : relation ≠ result) {rec : Record} (positive : 1 ≤ rec.length)
    (room : rec.length + SLOTSIZE ≤ DATASIZE) :
    Smoothly (insertOutput resultRel rec) w fun resultRel' w' =>
      ∃ out' outChain', w'.Emits scan resultRel' rest others relation lf chain todo result out'
          outChain' ∧ resultRel'.headerPageNo = resultRel.headerPageNo ∧
        Touches w w' result out' ∧
        out.Appended out' resultRel.headerPageNo outChain outChain' [rec] := by
  unfold insertOutput
  apply smoothly_bind
  · intro ends
    repeat' first
      | exact keeps_pure _ | exact keeps_crash | split
  · apply (emits.insertsAt.insert_record positive (.inr emits.atEnd)).mono
    rintro ⟨ends, resultRel'⟩ w' ⟨out', outChain', insertsAt', headerNo, _, touches, _, inserted⟩
    obtain ⟨rid, rfl⟩ := inserted.accepts room
    dsimp only at headerNo insertsAt'
    apply smoothly_pure
    refine ⟨out', outChain', emits.emitted different touches insertsAt' ?_ ?_, headerNo,
      touches, inserted.appended emits.insertsAt.formed emits.atEnd⟩
    · unfold InsertFileScan.AtEnd
      rw [headerNo]
      exact inserted.atEnd emits.atEnd
    · rw [headerNo]
      exact inserted.first emits.first

theorem insert_output_keeps (resultRel : InsertFileScan) (rec : Record) :
    KeepsFlag (insertOutput resultRel rec) := by
  unfold insertOutput
  apply keeps_bind (InsertFileScan.insert_record_keeps resultRel rec)
  intro ends
  split
  · exact keeps_pure _
  · exact keeps_crash

theorem current_record_keeps (scan : HeapFileScan) : KeepsFlag (currentRecord scan) := by
  unfold currentRecord
  apply keeps_bind (HeapFileScan.current_keeps scan)
  intro ends
  split
  · exact keeps_pure _
  · exact keeps_crash

theorem copy_attrs_keeps (source : AttrDesc → Record) (attrs : List AttrDesc) :
    KeepsFlag (copyAttrs source attrs) := by
  induction attrs with
  | nil => exact keeps_pure _
  | cons attr attrs ih =>
      unfold copyAttrs copyAttr
      repeat' first
        | exact keeps_pure _ | exact keeps_crash | exact ih
        | apply keeps_bind | intro _ | split

theorem emit_loop_keeps (tmpRid : RID) (attrs : List AttrDesc)
    (source : Record → AttrDesc → Record) (fuel : Nat) (scan : HeapFileScan)
    (resultRel : InsertFileScan) : KeepsFlag (emitLoop tmpRid attrs source fuel scan resultRel) := by
  induction fuel generalizing scan resultRel with
  | zero => exact keeps_crash
  | succ fuel ih =>
      unfold emitLoop
      repeat' first
        | exact keeps_pure _ | exact HeapFileScan.scan_next_keeps _ _
        | exact current_record_keeps _ | exact copy_attrs_keeps _ _
        | exact insert_output_keeps _ _ | exact ih _ _
        | apply keeps_bind | intro _ | split

/-- The tuples that a loop over `records` puts out. -/
def queryOutput (attrs : List AttrDesc) (source : Record → AttrDesc → Record)
    (filter : Option ScanFilter) (records : List Record) : List Record :=
  (records.filter (ScanFilter.matchRec filter)).map fun rec => projected (source rec) attrs

structure Projects (attrs : List AttrDesc) (source : AttrDesc → Record) : Prop where
  fits : ∀ attr ∈ attrs, attr.Fits (source attr)
  positive : 1 ≤ (projected source attrs).length
  room : (projected source attrs).length + SLOTSIZE ≤ DATASIZE

/-- The loop puts out the projections of the records that match, in scan order. -/
theorem World.Emits.emit_loop (fuel : Nat) {w : World} {rest : List Pin} {others : List FilePtr}
    {relation result : FileName} {lf out : LogicalFile} {chain outChain : List Int}
    {todo : List RID} {scan : HeapFileScan} {resultRel : InsertFileScan}
    (emits : w.Emits scan resultRel rest others relation lf chain todo result out outChain)
    (different : relation ≠ result) (tmpRid : RID) (attrs : List AttrDesc)
    (source : Record → AttrDesc → Record) (enough : todo.length < fuel)
    (projects : ∀ rec ∈ (lf.recordsAt todo).filter (ScanFilter.matchRec scan.filter),
      Projects attrs (source rec)) :
    Smoothly (emitLoop tmpRid attrs source fuel scan resultRel) w fun ends w' =>
      ∃ out' outChain', w'.Emits ends.1 ends.2 rest others relation lf chain [] result out'
          outChain' ∧ ends.2.headerPageNo = resultRel.headerPageNo ∧ Touches w w' result out' ∧
        out.Appended out' resultRel.headerPageNo outChain outChain'
          (queryOutput attrs source scan.filter (lf.recordsAt todo)) := by
  induction fuel generalizing w scan resultRel todo out outChain with
  | zero => exact absurd enough (Nat.not_lt_zero _)
  | succ fuel ih =>
      unfold emitLoop
      apply smoothly_bind
      · intro ends
        repeat' first
          | exact keeps_pure _ | exact current_record_keeps _ | exact copy_attrs_keeps _ _
          | exact insert_output_keeps _ _ | exact emit_loop_keeps _ _ _ _ _ _
          | apply keeps_bind | intro _ | split
      · apply (emits.scanAt.next_record tmpRid).mono
        rintro ⟨ends, scan₁⟩ w₁ ⟨same, filter, _, _, outcome⟩
        rcases outcome with ⟨rfl, scanAt₁, none_⟩ |
          ⟨rid, rec, later, rfl, _, scanAt₁, _, current, _, shorter, split⟩
        · apply smoothly_pure
          refine ⟨out, outChain, emits.scanned same scanAt₁, rfl,
            same.touches emits.insertsAt.holding.logical, ?_⟩
          rw [queryOutput, none_]
          exact LogicalFile.Appended.refl _ _ _
        · dsimp only at filter scanAt₁ current
          have projects₁ : Projects attrs (source rec) := projects rec (by rw [split]; simp)
          have copied := copy_attrs_eq (source rec) attrs projects₁.fits w₁
          have tuple : currentRecord scan₁ w₁ = (.ok rec, w₁) := by
            unfold currentRecord
            rw [bind_ok current]
            rfl
          apply smoothly_bind_eq tuple
          apply smoothly_bind_eq copied
          apply smoothly_bind
          · intro resultRel₁
            exact emit_loop_keeps _ _ _ _ _ _
          · apply ((emits.scanned same scanAt₁).insert_output different projects₁.positive
              projects₁.room).mono
            rintro resultRel₁ w₂ ⟨out₁, outChain₁, emits₁, headerNo, touches, appended⟩
            have later_projects : ∀ rec ∈ (lf.recordsAt later).filter
                (ScanFilter.matchRec scan₁.filter), Projects attrs (source rec) := by
              intro rec member
              apply projects
              rw [split]
              rw [filter] at member
              simp [member]
            apply (ih emits₁ (by omega) later_projects).mono
            rintro ⟨scan₂, resultRel₂⟩ w₃ ⟨out₂, outChain₂, emits₂, headerNo₂, touches₂, appended₂⟩
            refine ⟨out₂, outChain₂, emits₂, headerNo₂.trans headerNo,
              ((same.touches emits.insertsAt.holding.logical).trans touches).trans touches₂, ?_⟩
            rw [headerNo] at appended₂
            have both := appended.trans appended₂
            rw [queryOutput, filter] at both
            rw [queryOutput, split, List.map_cons]
            exact both

namespace World

variable {w w' : World} {pins rest : List Pin} {opens others : List FilePtr}
  {relation result : FileName} {lf out : LogicalFile} {chain outChain : List Int}
  {todo : List RID} {scan : HeapFileScan} {resultRel : InsertFileScan}

theorem InsertsAt.open_scan (insertsAt : w.InsertsAt resultRel rest others result out outChain)
    (atEnd : InsertFileScan.AtEnd resultRel out) (first : out.firstPage = resultRel.headerPageNo)
    (stores : w.Stores relation lf chain) (nonempty : relation ≠ []) (mem : Uninit) :
    Smoothly (HeapFileScan.new mem relation) w fun ends w' =>
      ∃ scan, ends = .ok scan ∧
        w'.Emits scan resultRel rest others relation lf chain (lf.rids chain) result out
          outChain ∧ w'.logical = w.logical ∧
        (∀ file ∈ resultRel.filePtr :: others, w'.nameOf file = w.nameOf file) ∧
        scan.headerPageNo = lf.firstPage := by
  apply (insertsAt.holding.storage.new_scan stores.logical stores.formed nonempty mem).mono
  rintro ends w₁ ⟨scan, rfl, scanAt, headerNo, _, constructs⟩
  have mine : w₁.nameOf resultRel.filePtr = w.nameOf resultRel.filePtr :=
    constructs.names _ (List.mem_cons_self ..)
  refine ⟨scan, rfl, ⟨scanAt, ⟨?_, insertsAt.formed, insertsAt.pinned, insertsAt.member⟩,
    atEnd, first⟩, constructs.logical, fun file member => constructs.names file member, headerNo⟩
  apply Holding.beside scanAt.holding
  · exact mine.trans insertsAt.holding.named
  · rw [constructs.logical]
    exact insertsAt.holding.logical

theorem Emits.start
    (emits : w.Emits scan resultRel rest others relation lf chain todo result out outChain)
    (filter : Option ScanFilter) :
    w.Emits { scan with filter := filter } resultRel rest others relation lf chain todo result out
      outChain :=
  ⟨emits.scanAt.start filter, emits.insertsAt, emits.atEnd, emits.first⟩

theorem Emits.delete_scan
    (emits : w.Emits scan resultRel rest others relation lf chain todo result out outChain)
    (owned : ∀ pin ∈ rest, pin.file ∈ others) :
    ∃ w', scan.delete w = (.ok (), w') ∧
      w'.InsertsAt resultRel rest others result out outChain ∧ w'.logical = w.logical ∧
      ∀ file ∈ resultRel.filePtr :: others, w'.nameOf file = w.nameOf file := by
  obtain ⟨w', run, storage, logical, names, _⟩ :=
    emits.scanAt.delete (HeapFile.pins_owned owned)
  refine ⟨w', run, ⟨⟨storage, ?_, ?_⟩, emits.insertsAt.formed, emits.insertsAt.pinned,
    emits.insertsAt.member⟩, logical, names⟩
  · exact (names _ (List.mem_cons_self ..)).trans emits.insertsAt.holding.named
  · rw [logical]
    exact emits.insertsAt.holding.logical

end World

def literalBytes : Datatype → List Byte → List Byte
  | .INTEGER, value => intBytes (Literal.atoi value)
  | .FLOAT, value => Literal.atof value
  | .STRING, value => value ++ [0]

/-- The filter `attr op value`, with the value read as `type` says. -/
def AttrDesc.predicate (attr : AttrDesc) (type : Datatype) (op : Operator) (value : List Byte) :
    ScanFilter :=
  { offset := attr.attrOffset, length := attr.attrLen, type, filter := literalBytes type value, op }

/-- An attribute as `createRel` is asked for: of one of the three types, with the length
of its type, inside the tuple. -/
structure AttrDesc.Proper (attr : AttrDesc) (type : Datatype) : Prop where
  code : Datatype.ofCode attr.attrType = some type
  offset : 0 ≤ attr.attrOffset
  positive : 1 ≤ attr.attrLen
  word : type ≠ .STRING → attr.attrLen = 4

theorem start_scan_accepted {scan : HeapFileScan} {attr : AttrDesc} {type : Datatype}
    (proper : attr.Proper type) (bytes : List Byte) (op : Operator) :
    scan.startScan attr.attrOffset attr.attrLen type (some bytes) op =
      (.OK, { scan with
        filter := some ⟨attr.attrOffset, attr.attrLen, type, bytes, op⟩ }) := by
  have accepted : ScanFilter.startScan scan.filter attr.attrOffset attr.attrLen type (some bytes)
      op = (.OK, some ⟨attr.attrOffset, attr.attrLen, type, bytes, op⟩) := by
    have lower := proper.offset
    have positive := proper.positive
    have word := proper.word
    unfold ScanFilter.startScan
    dsimp only
    rw [if_neg]
    rintro ((low | short) | (⟨rfl, wrong⟩ | ⟨rfl, wrong⟩))
    · omega
    · omega
    · exact wrong (word (by decide))
    · exact wrong (word (by decide))
  unfold HeapFileScan.startScan
  rw [accepted]

theorem start_literal_accepted {scan : HeapFileScan} {attr : AttrDesc} {type : Datatype}
    (proper : attr.Proper type) (value : List Byte) (op : Operator) :
    scan.startLiteral attr attr.attrType value op =
      (.OK, { scan with filter := some (attr.predicate type op value) }) := by
  unfold HeapFileScan.startLiteral
  rw [proper.code]
  cases type <;> exact start_scan_accepted proper _ op

/-- The filter that a selection on `attrDesc` uses. -/
inductive SelectFilter : Option AttrDesc → Operator → List Byte → Option ScanFilter → Prop
  | all (op : Operator) (value : List Byte) : SelectFilter none op value none
  | literal {attr : AttrDesc} {type : Datatype} (proper : attr.Proper type) (op : Operator)
      (value : List Byte) :
      SelectFilter (some attr) op value (some (attr.predicate type op value))

theorem start_select_accepted {scan : HeapFileScan} {attrDesc : Option AttrDesc} {op : Operator}
    {value : List Byte} {filter : Option ScanFilter}
    (selects : SelectFilter attrDesc op value filter) :
    scan.startSelect attrDesc op value = (.OK, { scan with filter := filter }) := by
  cases selects with
  | all => rfl
  | literal proper => exact start_literal_accepted proper value op

theorem scan_select_keeps (mem : Uninit) (tmpRid : RID) (result : FileName)
    (projNames : List AttrDesc) (attrDesc : Option AttrDesc) (op : Operator)
    (value : List Byte) : KeepsFlag (ScanSelect mem tmpRid result projNames attrDesc op value) := by
  unfold ScanSelect withResult
  repeat' first
    | exact keeps_pure _ | exact keeps_crash | exact keeps_read _
    | exact InsertFileScan.new_keeps _ _ | exact InsertFileScan.delete_keeps _
    | exact HeapFileScan.new_keeps _ _ | exact HeapFileScan.delete_keeps _
    | exact emit_loop_keeps _ _ _ _ _ _
    | apply keeps_bind | intro _ | split

theorem World.Storage.scan_select {w : World} {pins : List Pin} {opens : List FilePtr}
    {relation result : FileName} {lf out : LogicalFile} {chain outChain : List Int}
    (storage : w.Storage pins opens) (owned : ∀ pin ∈ pins, pin.file ∈ opens)
    (source : w.Stores relation lf chain) (target : w.Stores result out outChain)
    (different : relation ≠ result) (named : relation ≠ []) (resultNamed : result ≠ [])
    (mem : Uninit) (tmpRid : RID) {attr : AttrDesc} {attrs : List AttrDesc}
    (first : attr.relName = relation) {attrDesc : Option AttrDesc} {op : Operator}
    {value : List Byte} {filter : Option ScanFilter}
    (selects : SelectFilter attrDesc op value filter)
    (projects : ∀ rec ∈ (lf.tuples chain).filter (ScanFilter.matchRec filter),
      Projects (attr :: attrs) fun _ => rec) :
    Smoothly (ScanSelect mem tmpRid result (attr :: attrs) attrDesc op value) w fun status w' =>
      status = .OK ∧ w'.Storage pins opens ∧
        (∀ file ∈ opens, w'.nameOf file = w.nameOf file) ∧
        ∃ out' outChain', w'.logical = Function.update w.logical result (some out') ∧
          w'.Stores result out' outChain' ∧
          out.Appended out' out.firstPage outChain outChain'
            (queryOutput (attr :: attrs) (fun rec _ => rec) filter (lf.tuples chain)) := by
  subst first
  unfold ScanSelect withResult
  apply smoothly_bind
  · intro ends
    repeat' first
      | exact keeps_pure _ | exact keeps_crash | exact keeps_read _
      | exact InsertFileScan.delete_keeps _ | exact HeapFileScan.new_keeps _ _
      | exact HeapFileScan.delete_keeps _ | exact emit_loop_keeps _ _ _ _ _ _
      | apply keeps_bind | intro _ | split
  · apply (storage.new_inserter target.logical target.formed resultNamed mem).mono
    rintro ends w₁ ⟨resultRel, rfl, insertsAt, atEnd, headerNo, constructs⟩
    have source₁ : w₁.Stores attr.relName lf chain := by
      refine ⟨?_, source.formed⟩
      rw [constructs.logical]
      exact source.logical
    dsimp only
    rw [if_neg (not_not.mpr rfl)]
    apply smoothly_bind
    · intro ends
      repeat' first
        | exact keeps_pure _ | exact keeps_crash | exact keeps_read _
        | exact InsertFileScan.delete_keeps _
        | exact HeapFileScan.delete_keeps _ | exact emit_loop_keeps _ _ _ _ _ _
        | apply keeps_bind | intro _ | split
    · apply (insertsAt.open_scan atEnd headerNo.symm source₁ named mem).mono
      rintro ends w₂ ⟨scan, rfl, emits, logical₂, names₂, _⟩
      dsimp only
      rw [start_select_accepted selects]
      dsimp only
      rw [if_neg (not_not.mpr rfl)]
      have filtered := emits.start filter
      apply smoothly_bind_eq filtered.scanAt.search_fuel
      apply smoothly_bind
      · intro ends
        repeat' first
          | exact keeps_pure _ | exact InsertFileScan.delete_keeps _
          | exact HeapFileScan.delete_keeps _
          | apply keeps_bind | intro _
      · apply (filtered.emit_loop _ different tmpRid (attr :: attrs) (fun rec _ => rec)
          filtered.scanAt.formed.rids_lt projects).mono
        rintro ⟨scan', resultRel'⟩ w₃ ⟨out', outChain', emits', headerNo', touches, appended⟩
        obtain ⟨w₄, deleted, insertsAt', logical₄, names₄⟩ := emits'.delete_scan owned
        obtain ⟨w₅, deleted', storage₅, logical₅, names₅, _⟩ := insertsAt'.delete owned
        dsimp only
        apply smoothly_bind_eq deleted
        apply smoothly_bind_eq deleted'
        apply smoothly_pure
        have changed : w₅.logical = Function.update w.logical result (some out') := by
          rw [logical₅, logical₄, touches.logical, logical₂, constructs.logical]
        refine ⟨rfl, storage₅, ?_, out', outChain', changed, ⟨?_, ?_⟩, ?_⟩
        · intro file member
          rw [names₅ file member, names₄ file (List.mem_cons_of_mem _ member), touches.names,
            names₂ file (List.mem_cons_of_mem _ member), constructs.names file member]
        · rw [changed, Function.update_self]
        · have formed := emits'.insertsAt.formed
          rw [← emits'.first] at formed
          exact formed
        · rw [← headerNo]
          exact appended

namespace AttrCatalog

variable {tuples : List Record} {relation attrName : FileName} {desc : AttrDesc}

theorem lookup_mem (found : lookup tuples relation attrName = some desc) :
    desc ∈ describe tuples relation := List.mem_of_find?_eq_some found

theorem describe_rel_name (member : desc ∈ describe tuples relation) : desc.relName = relation := by
  obtain ⟨rec, listed, rfl⟩ := List.mem_map.mp member
  have name := List.of_mem_filter listed
  exact of_decide_eq_true name

def Resolves (tuples : List Record) : List AttrInfo → List AttrDesc → Prop :=
  List.Forall₂ fun info desc => ProperName info.relName ∧ info.attrName ≠ [] ∧
    lookup tuples info.relName info.attrName = some desc

end AttrCatalog

theorem get_info_keeps (mem : Uninit) (tmpRid : RID) (relation attrName : FileName) :
    KeepsFlag (AttrCatalog.getInfo mem tmpRid relation attrName) := by
  unfold AttrCatalog.getInfo AttrCatalog.searchFuel
  repeat' first
    | exact keeps_pure _ | exact keeps_read _ | exact HeapFileScan.new_keeps _ _
    | exact HeapFileScan.delete_keeps _ | exact AttrCatalog.search_keeps _ _ _ _
    | exact HeapFileScan.finish_keeps _
    | apply keeps_bind | intro _ | split

theorem look_up_attrs_keeps (mem : Uninit) (tmpRid : RID) (attrs : List AttrInfo) :
    KeepsFlag (lookUpAttrs mem tmpRid attrs) := by
  induction attrs with
  | nil => exact keeps_pure _
  | cons attr attrs ih =>
      unfold lookUpAttrs
      repeat' first
        | exact keeps_pure _ | exact get_info_keeps _ _ _ _ | exact ih
        | apply keeps_bind | intro _ | split

namespace World

variable {w : World} {pins : List Pin} {opens : List FilePtr} {cat : LogicalFile}
  {catChain : List Int}

theorem Storage.attr_found (storage : w.Storage pins opens)
    (owned : ∀ pin ∈ pins, pin.file ∈ opens) (catalog : w.Stores ATTRCATNAME cat catChain)
    (sized : ∀ rec ∈ cat.tuples catChain, rec.length = AttrDesc.size)
    {relation attrName : FileName} (proper : ProperName relation) (nonempty : attrName ≠ [])
    {desc : AttrDesc}
    (found : AttrCatalog.lookup (cat.tuples catChain) relation attrName = some desc)
    (mem : Uninit) (tmpRid : RID) :
    Smoothly (AttrCatalog.getInfo mem tmpRid relation attrName) w fun result w' =>
      Undisturbed w w' pins opens ∧ result = .ok desc := by
  apply (storage.attr_get_info owned catalog sized proper nonempty mem tmpRid).mono
  rintro result w' ⟨undisturbed, rfl⟩
  rw [found]
  exact ⟨undisturbed, rfl⟩

theorem Storage.look_up_attrs (storage : w.Storage pins opens)
    (owned : ∀ pin ∈ pins, pin.file ∈ opens) (catalog : w.Stores ATTRCATNAME cat catChain)
    (sized : ∀ rec ∈ cat.tuples catChain, rec.length = AttrDesc.size)
    {attrs : List AttrInfo} {descs : List AttrDesc}
    (resolves : AttrCatalog.Resolves (cat.tuples catChain) attrs descs) (mem : Uninit)
    (tmpRid : RID) :
    Smoothly (lookUpAttrs mem tmpRid attrs) w fun result w' =>
      Undisturbed w w' pins opens ∧ result = .ok descs := by
  induction resolves generalizing w with
  | nil => exact smoothly_pure ⟨⟨storage, rfl, fun _ _ => rfl⟩, rfl⟩
  | @cons info desc attrs descs found _ ih =>
      unfold lookUpAttrs
      apply smoothly_bind
      · intro result
        repeat' first
          | exact keeps_pure _ | exact look_up_attrs_keeps _ _ _
          | apply keeps_bind | intro _ | split
      · apply (storage.attr_found owned catalog sized found.1 found.2.1 found.2.2 mem tmpRid).mono
        rintro result w₁ ⟨undisturbed, rfl⟩
        apply smoothly_bind
        · intro result
          split <;> exact keeps_pure _
        · apply (ih undisturbed.storage (undisturbed.stores catalog)).mono
          rintro result w₂ ⟨undisturbed₂, rfl⟩
          exact smoothly_pure ⟨undisturbed.trans undisturbed₂, rfl⟩

end World

/-- A relation of the database: its tuples have room for the attributes that the catalog
describes. -/
structure Relation (w : World) (catalog : List Record) (relation : FileName) (lf : LogicalFile)
    (chain : List Int) : Prop extends w.Stores relation lf chain where
  name : ProperName relation
  schema : ∀ desc ∈ AttrCatalog.describe catalog relation, ∃ type, desc.Proper type
  conforms : ∀ rec ∈ lf.tuples chain, ∀ desc ∈ AttrCatalog.describe catalog relation,
    desc.Fits rec

/-- The filter of `where attr op value`, by the type that the catalog gives the attribute. -/
def Decides (catalog : List Record) (relation : FileName) (attr : Option AttrInfo)
    (op : Operator) (value : List Byte) (filter : Option ScanFilter) : Prop :=
  match attr with
  | none => filter = none
  | some info => info.relName = relation ∧ info.attrName ≠ [] ∧ ∃ desc type,
      AttrCatalog.lookup catalog relation info.attrName = some desc ∧
        Datatype.ofCode desc.attrType = some type ∧
        filter = some (desc.predicate type op value)

theorem resolved_described {tuples : List Record} {relation : FileName} {attrs : List AttrInfo}
    {descs : List AttrDesc} (resolves : AttrCatalog.Resolves tuples attrs descs)
    (own : ∀ info ∈ attrs, info.relName = relation) :
    ∀ desc ∈ descs, desc ∈ AttrCatalog.describe tuples relation := by
  induction resolves with
  | nil => simp
  | @cons info desc attrs descs found _ ih =>
      intro other member
      rcases List.mem_cons.mp member with rfl | later
      · have here := own info (by simp)
        rw [here] at found
        exact AttrCatalog.lookup_mem found.2.2
      · exact ih (fun info listed => own info (by simp [listed])) other later

theorem attr_len_sum (attrs : List AttrDesc) (lengths : ∀ attr ∈ attrs, 0 ≤ attr.attrLen) :
    (((attrs.map fun attr => attr.attrLen.toNat).sum : Nat) : Int) =
      (attrs.map AttrDesc.attrLen).sum := by
  induction attrs with
  | nil => rfl
  | cons attr attrs ih =>
      have first := lengths attr (by simp)
      have later := ih fun other member => lengths other (by simp [member])
      rw [List.map_cons, List.map_cons, List.sum_cons, List.sum_cons, Nat.cast_add]
      omega

/-- The projections of the tuples of a relation, provided their width fits on a page. -/
theorem relation_projects {tuples : List Record} {relation : FileName} {w : World}
    {lf : LogicalFile} {chain : List Int} (rel : Relation w tuples relation lf chain)
    {attr : AttrDesc} {attrs : List AttrDesc}
    (described : ∀ desc ∈ attr :: attrs, desc ∈ AttrCatalog.describe tuples relation)
    (width : ((attr :: attrs).map AttrDesc.attrLen).sum + SLOTSIZE ≤ DATASIZE) {rec : Record}
    (listed : rec ∈ lf.tuples chain) : Projects (attr :: attrs) fun _ => rec := by
  have fits : ∀ desc ∈ attr :: attrs, desc.Fits rec := fun desc member =>
    rel.conforms rec listed desc (described desc member)
  have length := projected_length fits
  have same := attr_len_sum (attr :: attrs) fun desc member => (fits desc member).2.1
  obtain ⟨type, proper⟩ := rel.schema attr (described attr (by simp))
  refine ⟨fits, ?_, ?_⟩
  · rw [length]
    have positive := proper.positive
    simp only [List.map_cons, List.sum_cons]
    omega
  · rw [length]
    omega

section Statement

variable {w : World} {pins : List Pin} {opens : List FilePtr} {cat : LogicalFile}
  {catChain : List Int} {relation result : FileName} {lf out : LogicalFile}
  {chain outChain : List Int} {projNames : List AttrInfo} {descs : List AttrDesc}
  {attr : Option AttrInfo} {op : Operator} {value : List Byte} {filter : Option ScanFilter}

/-- `QU_Select`, seen from one of its calls in the middle of a session. -/
theorem World.Storage.select_query (storage : w.Storage pins opens)
    (owned : ∀ pin ∈ pins, pin.file ∈ opens) (catalog : w.Stores ATTRCATNAME cat catChain)
    (sized : ∀ rec ∈ cat.tuples catChain, rec.length = AttrDesc.size)
    (source : Relation w (cat.tuples catChain) relation lf chain)
    (target : w.Stores result out outChain) (resultNamed : result ≠ [])
    (different : relation ≠ result) (nonempty : projNames ≠ [])
    (own : ∀ info ∈ projNames, info.relName = relation)
    (resolves : AttrCatalog.Resolves (cat.tuples catChain) projNames descs)
    (width : (descs.map AttrDesc.attrLen).sum + SLOTSIZE ≤ DATASIZE)
    (decides : Decides (cat.tuples catChain) relation attr op value filter)
    (mem : Uninit) (tmpRid : RID) :
    Smoothly (QU_Select mem tmpRid result projNames attr op value) w fun status w' =>
      status = .OK ∧ w'.Storage pins opens ∧
        ∃ out' outChain', w'.logical = Function.update w.logical result (some out') ∧
          w'.Stores result out' outChain' ∧
          out.Appended out' out.firstPage outChain outChain'
            (queryOutput descs (fun rec _ => rec) filter (lf.tuples chain)) := by
  have described := resolved_described resolves own
  -- the selection proper, behind the catalog lookups
  have selection : ∀ {w₁ : World}, Undisturbed w w₁ pins opens →
      ∀ {attrDesc : Option AttrDesc}, SelectFilter attrDesc op value filter →
      Smoothly (ScanSelect mem tmpRid result descs attrDesc op value) w₁ fun status w' =>
        status = .OK ∧ w'.Storage pins opens ∧
          ∃ out' outChain', w'.logical = Function.update w.logical result (some out') ∧
            w'.Stores result out' outChain' ∧
            out.Appended out' out.firstPage outChain outChain'
              (queryOutput descs (fun rec _ => rec) filter (lf.tuples chain)) := by
    intro w₁ undisturbed attrDesc selects
    cases descs with
    | nil =>
        cases resolves
        exact absurd rfl nonempty
    | cons desc descs =>
        have first := AttrCatalog.describe_rel_name (described desc (by simp))
        apply (undisturbed.storage.scan_select owned (undisturbed.stores source.toStores)
          (undisturbed.stores target) different source.name.nonempty resultNamed mem tmpRid
          first selects fun rec listed => relation_projects source described width
            (List.mem_of_mem_filter listed)).mono
        rintro status w₂ ⟨ok, storage₂, _, out', outChain', changed, stores', appended⟩
        rw [undisturbed.logical] at changed
        exact ⟨ok, storage₂, out', outChain', changed, stores', appended⟩
  unfold QU_Select
  apply smoothly_bind
  · intro found
    repeat' first
      | exact keeps_pure _ | exact get_info_keeps _ _ _ _ | exact scan_select_keeps _ _ _ _ _ _ _
      | apply keeps_bind | intro _ | split
  · apply (storage.look_up_attrs owned catalog sized resolves mem tmpRid).mono
    rintro found w₁ ⟨undisturbed, rfl⟩
    dsimp only
    cases attr with
    | none =>
        obtain rfl : filter = none := decides
        exact selection undisturbed (.all op value)
    | some info =>
        obtain ⟨rfl, named, desc, type, looked, code, rfl⟩ := decides
        have member := AttrCatalog.lookup_mem looked
        obtain ⟨type', proper⟩ := source.schema desc member
        have same : type' = type := Option.some.inj (proper.code.symm.trans code)
        subst same
        dsimp only
        apply smoothly_bind
        · intro found
          repeat' first
            | exact keeps_pure _ | exact scan_select_keeps _ _ _ _ _ _ _ | split
        · apply (undisturbed.storage.attr_found owned (undisturbed.stores catalog) sized
            source.name named looked mem tmpRid).mono
          rintro found w₂ ⟨undisturbed₂, rfl⟩
          exact selection (undisturbed.trans undisturbed₂) (.literal proper op value)

/-- `QU_Select` on a relation, a projection list of its attributes, and a predicate on one
of them or none: it succeeds, changes no other relation than the result, and adds to that
the projection of every tuple that matches, in scan order if there was none before. -/
theorem select_filters_then_projects
    (storage : w.Storage pins opens) (owned : ∀ pin ∈ pins, pin.file ∈ opens)
    (catalog : w.Stores ATTRCATNAME cat catChain)
    (sized : ∀ rec ∈ cat.tuples catChain, rec.length = AttrDesc.size)
    (source : Relation w (cat.tuples catChain) relation lf chain)
    (target : w.Stores result out outChain) (resultNamed : result ≠ [])
    (different : relation ≠ result)
    (nonempty : projNames ≠ []) (own : ∀ info ∈ projNames, info.relName = relation)
    (resolves : AttrCatalog.Resolves (cat.tuples catChain) projNames descs)
    (width : (descs.map AttrDesc.attrLen).sum + SLOTSIZE ≤ DATASIZE)
    (decides : Decides (cat.tuples catChain) relation attr op value filter)
    (mem : Uninit) (tmpRid : RID)
    (succeeds : (QU_Select mem tmpRid result projNames attr op value w).2.bufFailed = false) :
    ∃ w' out' outChain', QU_Select mem tmpRid result projNames attr op value w = (.ok .OK, w') ∧
      w'.Storage pins opens ∧ w'.logical = Function.update w.logical result (some out') ∧
      w'.logical relation = some lf ∧ w'.Stores result out' outChain' ∧
      out.Appended out' out.firstPage outChain outChain'
        (((lf.tuples chain).filter (ScanFilter.matchRec filter)).map
          fun rec => projected (fun _ => rec) descs) ∧
      (out.tuples outChain = [] → out'.tuples outChain' =
        ((lf.tuples chain).filter (ScanFilter.matchRec filter)).map
          fun rec => projected (fun _ => rec) descs) := by
  obtain ⟨status, w', run, rfl, storage', out', outChain', changed, stores', appended⟩ :=
    storage.select_query owned catalog sized source target resultNamed different nonempty own
      resolves width decides mem tmpRid succeeds
  refine ⟨w', out', outChain', run, storage', changed, ?_, stores', appended, ?_⟩
  · rw [changed, Function.update_of_ne different]
    exact source.logical
  · intro empty
    have listed := (appended.ordered (target.formed.packed_of_empty empty)).2
    rw [empty, List.nil_append] at listed
    exact listed

end Statement

open HeapSession (zeroMemory)

def AttrInfo.named (relName attrName : FileName) : AttrInfo :=
  { relName, attrName, attrType := -1, attrLen := -1, attrValue := none }

def attrRA : AttrDesc :=
  { relName := [114], attrName := [97], attrOffset := 0
    attrType := Datatype.INTEGER.code, attrLen := 4 }

def attrRB : AttrDesc :=
  { relName := [114], attrName := [98], attrOffset := 4
    attrType := Datatype.STRING.code, attrLen := 2 }

def attrSA : AttrDesc :=
  { relName := [115], attrName := [97], attrOffset := 0
    attrType := Datatype.INTEGER.code, attrLen := 4 }

def attrSC : AttrDesc :=
  { relName := [115], attrName := [99], attrOffset := 4
    attrType := Datatype.STRING.code, attrLen := 3 }

def sampleAttrs : List AttrDesc := [attrRA, attrRB, attrSA, attrSC]

def sampleCatalog : List Record := sampleAttrs.map AttrDesc.toRecord

def sampleR : List Record := [[1, 0, 0, 0, 120, 0], [3, 0, 0, 0, 121, 0], [2, 0, 0, 0, 122, 0]]

def sampleS : List Record := [[2, 0, 0, 0, 117, 118, 0], [1, 0, 0, 0, 119, 0, 0]]

def sampleDatabase (tables : List Table) : World :=
  databaseOf 8 ((ATTRCATNAME, sampleCatalog) :: tables)

def sampleStart : World := sampleDatabase [([114], sampleR), ([115], sampleS), ([113], [])]

theorem sample_catalog_tuples :
    (tableFile ATTRCATNAME sampleCatalog).tuples [2] = sampleCatalog := by decide +kernel

theorem sample_storage (tables : List Table) : (sampleDatabase tables).Storage [] [] :=
  (database_just_started (by decide) _).storage

instance (attr : AttrDesc) (rec : Record) : Decidable (attr.Fits rec) :=
  inferInstanceAs (Decidable (_ ∧ _ ∧ _))

def sampleDescs : List Record := (tableFile ATTRCATNAME sampleCatalog).tuples [2]

theorem sample_catalog_stored (tables : List Table) :
    (sampleDatabase tables).Stores ATTRCATNAME (tableFile ATTRCATNAME sampleCatalog) [2] :=
  database_stores 8 rfl (by decide +kernel)

theorem sample_relation {tables : List Table} {relation : FileName} {records : List Record}
    (listed : ((ATTRCATNAME, sampleCatalog) :: tables).lookup relation = some records)
    (nonempty : ∀ rec ∈ records, 1 ≤ rec.length) (name : ProperName relation)
    (stored : (tableFile relation records).tuples [2] = records)
    (schema : ∀ desc ∈ AttrCatalog.describe sampleCatalog relation, desc ∈ sampleAttrs)
    (conforms : ∀ rec ∈ records, ∀ desc ∈ AttrCatalog.describe sampleCatalog relation,
      desc.Fits rec) :
    Relation (sampleDatabase tables) sampleDescs relation (tableFile relation records) [2] := by
  unfold sampleDescs
  refine ⟨database_stores 8 listed nonempty, name, ?_, ?_⟩
  · intro desc member
    rw [sample_catalog_tuples] at member
    have one := schema desc member
    simp only [sampleAttrs, List.mem_cons, List.not_mem_nil, or_false] at one
    rcases one with rfl | rfl | rfl | rfl
    · exact ⟨.INTEGER, rfl, by decide, by decide, fun _ => rfl⟩
    · exact ⟨.STRING, rfl, by decide, by decide, fun wrong => absurd rfl wrong⟩
    · exact ⟨.INTEGER, rfl, by decide, by decide, fun _ => rfl⟩
    · exact ⟨.STRING, rfl, by decide, by decide, fun wrong => absurd rfl wrong⟩
  · rw [stored, sample_catalog_tuples]
    exact conforms

theorem sample_relation_r :
    Relation sampleStart sampleDescs [114] (tableFile [114] sampleR) [2] :=
  sample_relation rfl (by decide) ⟨by decide, by decide, by decide⟩ (by decide +kernel)
    (by decide +kernel) (by decide +kernel)

theorem sample_start_storage : sampleStart.Storage [] [] := sample_storage _

theorem sample_start_catalog :
    sampleStart.Stores ATTRCATNAME (tableFile ATTRCATNAME sampleCatalog) [2] :=
  sample_catalog_stored _

theorem sample_result_stored : sampleStart.Stores [113] (tableFile [113] []) [2] :=
  database_stores 8 rfl (by decide)

/-- `select r.b, r.a into q from r where r.a > 1`. -/
theorem select_filters_then_projects_two_of_three : ∃ w' out' outChain',
    QU_Select zeroMemory NULLRID [113] [.named [114] [98], .named [114] [97]]
      (some (.named [114] [97])) .GT [49] sampleStart = (.ok .OK, w') ∧
    w'.Stores [113] out' outChain' ∧
    out'.tuples outChain' = [[121, 0, 3, 0, 0, 0], [122, 0, 2, 0, 0, 0]] := by
  have proper : ProperName [114] := ⟨by decide, by decide, by decide⟩
  have resolves : AttrCatalog.Resolves sampleDescs [.named [114] [98], .named [114] [97]]
      [attrRB, attrRA] := by
    refine .cons ⟨proper, by decide, ?_⟩ (.cons ⟨proper, by decide, ?_⟩ .nil)
    · decide +kernel
    · decide +kernel
  have decides : Decides sampleDescs [114] (some (.named [114] [97])) .GT [49]
      (some (attrRA.predicate .INTEGER .GT [49])) :=
    ⟨rfl, by decide, attrRA, .INTEGER, by decide +kernel, rfl, rfl⟩
  obtain ⟨w', out', outChain', run, _, _, _, stores, _, listed⟩ :=
    select_filters_then_projects sample_start_storage (by simp) sample_start_catalog
      (by decide +kernel) sample_relation_r sample_result_stored (by decide) (by decide)
      (by decide) (by decide) resolves (by decide) decides zeroMemory NULLRID (by decide +kernel)
  refine ⟨w', out', outChain', run, stores, ?_⟩
  rw [listed (by decide +kernel)]
  decide +kernel

end PrimitiveDB

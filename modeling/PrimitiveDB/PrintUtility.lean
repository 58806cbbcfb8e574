import PrimitiveDB.LoadUtility

/-!
# `UT_Print` and `help`

`print.C` and `help.C`. Both look a relation up in the catalogs, and `UT_Print` scans it and
prints every tuple under a heading, `help` prints the attributes. The layout of the text is left
out: what is printed are attributes, and tuples in the order of the scan. Early returns leave the
scan open.
-/

namespace PrimitiveDB

open World DbM

set_option autoImplicit false

inductive Output where
  | tuples (relName : FileName) (attrs : List AttrDesc) (recs : List Record)
  | attributes (relation : RelDesc) (attrs : List AttrDesc)

/-- The loop of `UT_Print`: the tuples that have been printed, and how the scan has ended. -/
def printTuples (tmpRid : RID) : Nat → List Record → HeapFileScan →
    DbM (List Record × Except Status HeapFileScan)
  | 0, _, _ => DbM.crash
  | fuel + 1, printed, hfile => do
      match ← hfile.scanNext tmpRid with
      | (.error status, hfile) =>
          pure (printed, if status = .FILEEOF then .ok hfile else .error status)
      | (.ok _, hfile) => do
          match ← hfile.current with
          | .error status => pure (printed, .error status)
          | .ok rec => printTuples tmpRid fuel (printed ++ [rec]) hfile

/-- The part of `UT_Print` that has the relation open. -/
def printRelation (mem : Uninit) (tmpRid : RID) (relName : FileName) (attrs : List AttrDesc) :
    DbM (Status × List Output) := do
  match ← HeapFileScan.new mem relName with
  | .error status => pure (status, [])
  | .ok hfile => do
  -- the heading is printed before the scan starts
  let (status, hfile) := hfile.startScan 0 0 .INTEGER none .EQ
  if status ≠ .OK then pure (status, [.tuples relName attrs []])
  else do
  let fuel ← AttrCatalog.searchFuel hfile
  match ← printTuples tmpRid fuel [] hfile with
  | (printed, .error status) => pure (status, [.tuples relName attrs printed])
  | (printed, .ok hfile) => do
      -- close scan and data file
      let (status, hfile) ← hfile.endScan
      if status ≠ .OK then pure (status, [.tuples relName attrs printed])
      else do
        hfile.delete
        pure (.OK, [.tuples relName attrs printed])

def printUtility (mem : Uninit) (tmpRid : RID) (relation : FileName) :
    DbM (Status × List Output) := do
  let relation := if relation = [] then RELCATNAME else relation
  -- get relation data
  match ← RelCatalog.getInfo mem tmpRid relation with
  | .error status => pure (status, [])
  | .ok rd => do
  -- get attribute data
  match ← AttrCatalog.getRelInfo mem tmpRid rd.relName with
  | .error status => pure (status, [])
  | .ok attrs => printRelation mem tmpRid rd.relName attrs

def UT_Print (mem : Uninit) (tmpRid : RID) (relation : FileName) : DbM Status := do
  let (status, _) ← printUtility mem tmpRid relation
  pure status

def RelCatalog.helpUtility (mem : Uninit) (tmpRid : RID) (relation : FileName) :
    DbM (Status × List Output) := do
  if relation = [] then printUtility mem tmpRid RELCATNAME
  else
  -- get relation data
  match ← getInfo mem tmpRid relation with
  | .error status => pure (status, [])
  | .ok rd => do
  -- get attribute data
  match ← AttrCatalog.getRelInfo mem tmpRid relation with
  | .error status => pure (status, [])
  | .ok attrs => pure (.OK, [.attributes rd attrs])

def RelCatalog.help (mem : Uninit) (tmpRid : RID) (relation : FileName) : DbM Status := do
  let (status, _) ← helpUtility mem tmpRid relation
  pure status

theorem print_tuples_keeps (tmpRid : RID) (fuel : Nat) (printed : List Record)
    (hfile : HeapFileScan) : KeepsFlag (printTuples tmpRid fuel printed hfile) := by
  induction fuel generalizing printed hfile with
  | zero => exact keeps_crash
  | succ fuel ih =>
      unfold printTuples
      repeat' first
        | exact keeps_pure _ | exact HeapFileScan.scan_next_keeps _ _
        | exact HeapFileScan.current_keeps _ | exact ih _ _
        | apply keeps_bind | intro _ | split

theorem print_relation_keeps (mem : Uninit) (tmpRid : RID) (relName : FileName)
    (attrs : List AttrDesc) : KeepsFlag (printRelation mem tmpRid relName attrs) := by
  unfold printRelation
  repeat' first
    | exact keeps_pure _ | exact keeps_read _ | exact HeapFileScan.new_keeps _ _
    | exact print_tuples_keeps _ _ _ _ | exact HeapFileScan.end_scan_keeps _
    | exact HeapFileScan.delete_keeps _
    | apply keeps_bind | intro _ | split

section Printing

variable {w : World} {pins : List Pin} {opens : List FilePtr} {fileName : FileName}
  {lf : LogicalFile} {chain : List Int}

theorem World.ScanAt.print_tuples (fuel : Nat) {hfile : HeapFileScan} {todo : List RID}
    (scanAt : w.ScanAt hfile pins opens fileName lf chain todo) (tmpRid : RID)
    (printed : List Record) (enough : todo.length < fuel) :
    Smoothly (printTuples tmpRid fuel printed hfile) w fun result w' =>
      ∃ hfile', result = (printed ++ (lf.recordsAt todo).filter
          (ScanFilter.matchRec hfile.filter), .ok hfile') ∧ SameLogical w w' ∧
        w'.ScanAt hfile' pins opens fileName lf chain [] := by
  induction fuel generalizing w hfile todo printed with
  | zero => exact absurd enough (Nat.not_lt_zero _)
  | succ fuel ih =>
      unfold printTuples
      apply smoothly_bind
      · intro result
        repeat' first
          | exact keeps_pure _ | exact HeapFileScan.current_keeps _
          | exact print_tuples_keeps _ _ _ _
          | apply keeps_bind | intro _ | split
      · apply (scanAt.next_record tmpRid).mono
        rintro ⟨result, hfile₁⟩ w₁ ⟨same, filter, _, _, outcome⟩
        rcases outcome with ⟨rfl, scanAt₁, none_⟩ |
          ⟨rid, rec, later, rfl, _, scanAt₁, live, current, _, shorter, split⟩
        · apply smoothly_pure
          rw [none_, List.append_nil, if_pos rfl]
          exact ⟨hfile₁, rfl, same, scanAt₁⟩
        · rw [split]
          dsimp only at filter scanAt₁ current
          apply smoothly_bind_eq current
          dsimp only
          apply (ih scanAt₁ (printed ++ [rec]) (by omega)).mono
          rintro result w₂ ⟨hfile₂, rfl, same₂, scanAt₂⟩
          rw [filter, List.append_assoc, List.singleton_append]
          exact ⟨hfile₂, rfl, same.trans same₂, scanAt₂⟩

theorem World.Storage.print_relation (storage : w.Storage pins opens)
    (owned : ∀ pin ∈ pins, pin.file ∈ opens) (stores : w.Stores fileName lf chain)
    (named : fileName ≠ []) (attrs : List AttrDesc) (mem : Uninit) (tmpRid : RID) :
    Smoothly (printRelation mem tmpRid fileName attrs) w fun result w' =>
      result = (.OK, [.tuples fileName attrs (lf.tuples chain)]) ∧
        Undisturbed w w' pins opens := by
  unfold printRelation
  apply smoothly_bind
  · intro result
    repeat' first
      | exact keeps_pure _ | exact keeps_read _ | exact print_tuples_keeps _ _ _ _
      | exact HeapFileScan.end_scan_keeps _ | exact HeapFileScan.delete_keeps _
      | apply keeps_bind | intro _ | split
  · apply (storage.new_scan stores.logical stores.formed named mem).mono
    rintro result w₁ ⟨hfile, rfl, scanAt, _, unfiltered, constructs⟩
    have started : hfile.startScan 0 0 .INTEGER none .EQ =
        (.OK, { hfile with filter := none }) := by
      unfold HeapFileScan.startScan
      rw [unfiltered]
      rfl
    have scanAt' := scanAt.start none
    dsimp only
    rw [started]
    dsimp only
    rw [if_neg (not_not.mpr rfl)]
    apply smoothly_bind_eq scanAt'.search_fuel
    apply smoothly_bind
    · intro result
      repeat' first
        | exact keeps_pure _ | exact HeapFileScan.end_scan_keeps _
        | exact HeapFileScan.delete_keeps _
        | apply keeps_bind | intro _ | split
    · apply (scanAt'.print_tuples _ tmpRid [] scanAt'.formed.rids_lt).mono
      rintro result w₂ ⟨hfile', rfl, same, ended⟩
      obtain ⟨hfile'', w₃, ends, same₃, _, _, _, held⟩ := ended.holding.end_scan
      have object : w₃.Holding (HeapObject.heapFileScan hfile'').base pins opens fileName lf := held
      obtain ⟨w₄, w₅, destroys⟩ := object.destroys owned
      have deletes : hfile''.delete w₃ = (.ok (), w₅) := destroys.deletes
      dsimp only
      apply smoothly_bind_eq ends
      dsimp only
      rw [if_neg (not_not.mpr rfl)]
      apply smoothly_bind_eq deletes
      have returned : Undisturbed w₃ w₅ pins opens := ⟨destroys.storage,
        destroys.closes.logical.trans destroys.same.logical, fun file member => by
          rw [destroys.closes.names file member, destroys.same.nameOf]⟩
      apply smoothly_pure
      refine ⟨?_, constructs.between (same.trans same₃) returned⟩
      rw [List.nil_append, filter_unfiltered]
      rfl

end Printing

end PrimitiveDB

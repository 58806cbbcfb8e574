import PrimitiveDB.SortOutcomes

/-!
# Partitioning a heap file

`class Partition` of `partition.C`: the records of an open scan are spread over `P` heap files
by a hash function of the caller. The constructor opens the partition files with
`InsertFileScan`, which opens a file and does not create one, so there is no file that it can
partition into files that do not exist yet.
-/

namespace PrimitiveDB

set_option autoImplicit false

/-- `class Partition`. `partName` is `NULL` until all the files have been opened. -/
structure Partition where
  P : Nat
  partName : Option (List FileName)
  deriving DecidableEq

namespace Partition

/-- `/tmp/fileName.p`. `ends` adds a NUL that ends the string for the system calls. -/
def nameOf (fileName : FileName) (p : Nat) : FileName :=
  [47, 116, 109, 112, 47] ++ fileName ++ [46] ++ Literal.decimal p

def openParts (mem : Uninit) (fileName : FileName) : List Nat → DbM (Status × List InsertFileScan)
  | [] => pure (.OK, [])
  | p :: ps => do
      match ← InsertFileScan.new mem (nameOf fileName p) with
      | (.OK, some part) => do
          let (status, parts) ← openParts mem fileName ps
          pure (status, part :: parts)
      | (status, _) => pure (status, [])

def scatter (tmpRid : RID) (P : Nat) (hashfcn : Record → Nat → Int) :
    Nat → HeapFileScan → List InsertFileScan →
      DbM (Except Status Unit × HeapFileScan × List InsertFileScan)
  | 0, _, _ => DbM.crash
  | fuel + 1, rel, part => do
      let (next, rel) ← rel.scanNext tmpRid
      match next with
      | .error status =>
          pure (if status = .FILEEOF then .ok () else .error status, rel, part)
      | .ok _ => do
          match ← rel.current with
          | .error status => pure (.error status, rel, part)
          | .ok rec => do
              let p := hashfcn rec P
              match if 0 ≤ p then part[p.toNat]? else none with
              | none => DbM.crash
              | some target => do
                  let (inserted, target) ← target.insertRecord rec
                  let part := part.set p.toNat target
                  match inserted with
                  | .error status => pure (.error status, rel, part)
                  | .ok _ => scatter tmpRid P hashfcn fuel rel part

def deleteParts : List InsertFileScan → DbM Unit
  | [] => pure ()
  | part :: parts => do
      part.delete
      deleteParts parts

/-- The constructor: the status, the object, and the scan that the caller has passed. -/
def new (mem : Uninit) (tmpRid : RID) (rel : HeapFileScan) (fileName : FileName) (P : Nat)
    (hashfcn : Record → Nat → Int) : DbM (Status × Partition × HeapFileScan) := do
  -- construct names of partition files and create heap files on disk, says the source
  let (status, part) ← openParts mem fileName (List.range P)
  if status ≠ .OK then pure (status, { P, partName := none }, rel)
  else
  let partition : Partition := { P, partName := some ((List.range P).map (nameOf fileName)) }
  let (status, rel) := rel.startScan 0 4 .INTEGER none .EQ
  if status ≠ .OK then pure (status, partition, rel)
  else do
  let fuel ← DbM.read (HeapFileScan.scanFuel · rel.filePtr)
  let (scanned, rel, part) ← scatter tmpRid P hashfcn fuel rel part
  match scanned with
  | .error status => pure (status, partition, rel)
  | .ok () => do
      -- close partition files
      deleteParts part
      let (status, rel) ← rel.endScan
      pure (status, partition, rel)

def destroyAll : List FileName → DbM Unit
  | [] => pure ()
  | name :: names => do
      let _ ← DbM.attempt (DB.destroyFile name)
      destroyAll names

def delete (partition : Partition) : DbM Unit :=
  match partition.partName with
  | none => pure ()
  | some names => destroyAll names

/-- The constructor reports success, partition `p` has the records with hash value `p` in the
order of the source, the source is as before, and the destructor removes the partitions. -/
def Partitions (w : World) (mem : Uninit) (tmpRid : RID) (rel : HeapFileScan)
    (fileName : FileName) (P : Nat) (hashfcn : Record → Nat → Int) (source : FileName)
    (lf : LogicalFile) (chain : List Int) : Prop :=
  ∃ partition rel' w', new mem tmpRid rel fileName P hashfcn w =
      (.ok (.OK, partition, rel'), w') ∧
    (∀ p < P, ∃ lf' chain', w'.Stores (nameOf fileName p) lf' chain' ∧
      lf'.tuples chain' = (lf.tuples chain).filter fun rec => hashfcn rec P = p) ∧
    w'.logical source = some lf ∧
    ∃ w'', partition.delete w' = (.ok (), w'') ∧ ∀ p < P, w''.disk (nameOf fileName p) = none

theorem open_parts_missing {w w' : World} {mem : Uninit} {fileName : FileName} {p : Nat}
    {ps : List Nat} {status : Status} {parts : List InsertFileScan}
    (closed : w.openFiles.find (nameOf fileName p) = none)
    (missing : w.disk (nameOf fileName p) = none)
    (run : openParts mem fileName (p :: ps) w = (.ok (status, parts), w')) : status ≠ .OK := by
  unfold openParts at run
  obtain ⟨⟨opened, object⟩, w₁, insert, run⟩ := DbM.bind_eq_ok_iff.mp run
  have nonempty : nameOf fileName p ≠ [] := by simp [nameOf]
  have bad := SortedFile.insert_scan_missing nonempty closed missing insert
  cases opened <;> first | exact absurd rfl bad | cases run; simp

/-- No heap file is partitioned into files that do not exist. -/
theorem partitions_nothing {w : World} {rest : List Pin} {others : List FilePtr}
    {source : FileName} {lf : LogicalFile} {chain : List Int} {rel : HeapFileScan}
    (scanAt : w.ScanAt rel rest others source lf chain (lf.rids chain)) (fileName : FileName)
    (P : Nat) (positive : 1 ≤ P) (hashfcn : Record → Nat → Int)
    (absent : ∀ p < P, w.disk (nameOf fileName p) = none) (mem : Uninit) (tmpRid : RID) :
    ¬Partitions w mem tmpRid rel fileName P hashfcn source lf chain := by
  rintro ⟨partition, rel', w', run, _⟩
  obtain ⟨count, rfl⟩ : ∃ count, P = count + 1 := ⟨P - 1, by omega⟩
  have missing := absent 0 (Nat.succ_pos count)
  have closed := scanAt.holding.storage.toFiled.unopened missing
  unfold new at run
  rw [List.range_succ_eq_map] at run
  obtain ⟨⟨status, part⟩, w₁, opened, run⟩ := DbM.bind_eq_ok_iff.mp run
  have bad := open_parts_missing closed missing opened
  dsimp only at run
  rw [if_pos bad] at run
  cases run
  exact bad rfl

open HeapSession (zeroMemory)

/-- Three records, and two partitions by their first byte. -/
theorem partitions_nothing_three_records :
    ∃ rel w, HeapFileScan.new zeroMemory [114] threeRecords = (.ok (.ok rel), w) ∧
      ¬Partitions w zeroMemory NULLRID rel [114] 2 (fun rec _ => ((rec.headD 0).val : Int) % 2)
        [114] (tableFile [114] [[1], [2], [3]]) [2] := by
  have calm : (HeapFileScan.new zeroMemory [114] threeRecords).2.bufFailed = false := by
    decide +kernel
  obtain ⟨_, w, opened, rel, rfl, scanAt, _, _, constructs⟩ :=
    three_records_storage.new_scan three_records_stored.logical three_records_stored.formed
      (by decide) zeroMemory calm
  refine ⟨rel, w, opened, partitions_nothing scanAt [114] 2 (by decide) _ ?_ zeroMemory NULLRID⟩
  intro p _
  apply World.logical_eq_none_iff.mp
  rw [constructs.logical]
  apply World.logical_eq_none_iff.mpr
  simp [threeRecords, databaseOf, nameOf]

/-- The constructor reports that the first partition file cannot be opened. -/
theorem three_records_not_partitioned :
    ∃ rel w, HeapFileScan.new zeroMemory [114] threeRecords = (.ok (.ok rel), w) ∧
      ¬Partitions w zeroMemory NULLRID rel [114] 1 (fun _ _ => 0) [114]
        (tableFile [114] [[1], [2], [3]]) [2] := by
  have status : ((HeapFileScan.new zeroMemory [114] >>= fun opened =>
      opened.toOption.elim DbM.crash fun rel =>
        new zeroMemory NULLRID rel [114] 1 (fun _ _ => 0) >>= fun made => pure made.1)
      threeRecords).1 = .ok .UNIXERR := by
    decide +kernel
  have calm : (HeapFileScan.new zeroMemory [114] threeRecords).2.bufFailed = false := by
    decide +kernel
  obtain ⟨_, w, opened, rel, rfl, _⟩ :=
    three_records_storage.new_scan three_records_stored.logical three_records_stored.formed
      (by decide) zeroMemory calm
  refine ⟨rel, w, opened, ?_⟩
  rintro ⟨partition, rel', w', run, _⟩
  rw [DbM.bind_ok opened] at status
  change ((new zeroMemory NULLRID rel [114] 1 (fun _ _ => 0) >>= fun made => pure made.1 :
    DbM Status) w).1 = .ok .UNIXERR at status
  rw [DbM.bind_ok run] at status
  cases status

end Partition

end PrimitiveDB

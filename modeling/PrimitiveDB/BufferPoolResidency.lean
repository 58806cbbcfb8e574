import PrimitiveDB.BufferManager

/-!
# Which page is in which frame

`Residency` ties the hash table to the frame descriptors. `ResidencyApart frame`
is the same statement with one frame left out: the state between the choice of
a frame by `allocBuf` and its `Set`. The clock keeps the first or ends in the
second, and installing a page in the frame that was left out restores it.
-/

namespace PrimitiveDB

set_option autoImplicit false

namespace BufHashTbl

variable {table after : BufHashTbl} {file : FilePtr} {pageNo : Int} {frameNo : Nat}

theorem lookup_insert (inserted : table.insert file pageNo frameNo = some after)
    (other : FilePtr) (otherNo : Int) :
    after.lookup other otherNo =
      if (other, otherNo) = (file, pageNo) then some frameNo
      else table.lookup other otherNo := by
  simp only [insert, Option.map_eq_some_iff] at inserted
  obtain ⟨ht, inserted, rfl⟩ := inserted
  exact ChainedTable.find_insert inserted (other, otherNo)

theorem insert_of_absent (frameNo : Nat) (absent : table.lookup file pageNo = none) :
    ∃ after, table.insert file pageNo frameNo = some after := by
  exact ⟨_, congrArg _ (ChainedTable.insert_of_absent frameNo absent)⟩

theorem distinct_insert (distinct : ChainedTable.DistinctKeys table.ht)
    (inserted : table.insert file pageNo frameNo = some after) :
    ChainedTable.DistinctKeys after.ht := by
  simp only [insert, Option.map_eq_some_iff] at inserted
  obtain ⟨ht, inserted, rfl⟩ := inserted
  exact ChainedTable.distinct_keys_insert distinct inserted

/-- The table after `remove`, whose status the buffer manager ignores. -/
theorem lookup_remove (distinct : ChainedTable.DistinctKeys table.ht)
    (other : FilePtr) (otherNo : Int) :
    ((table.remove file pageNo).getD table).lookup other otherNo =
      if (other, otherNo) = (file, pageNo) then none else table.lookup other otherNo := by
  cases removed : ChainedTable.remove table.hash table.ht (file, pageNo) with
  | none =>
      have absent := ChainedTable.remove_eq_none_iff.mp removed
      simp only [remove, removed, Option.map_none, Option.getD_none]
      split_ifs with same
      · obtain ⟨rfl, rfl⟩ := Prod.mk.inj same
        exact absent
      · rfl
  | some ht =>
      simp only [remove, removed, Option.map_some, Option.getD_some]
      exact ChainedTable.find_remove distinct removed (other, otherNo)

theorem distinct_remove (distinct : ChainedTable.DistinctKeys table.ht) :
    ChainedTable.DistinctKeys ((table.remove file pageNo).getD table).ht := by
  cases removed : ChainedTable.remove table.hash table.ht (file, pageNo) with
  | none => simpa only [remove, removed, Option.map_none, Option.getD_none] using distinct
  | some ht =>
      simp only [remove, removed, Option.map_some, Option.getD_some]
      exact ChainedTable.distinct_keys_remove distinct removed

end BufHashTbl

def BufDesc.unref (desc : BufDesc) : BufDesc := { desc with refbit := false }

namespace BufMgr

/-- `frame` is valid and holds page `pageNo` of `file`. -/
def Holds (pool : BufMgr) (frame : Nat) (file : FilePtr) (pageNo : Int) : Prop :=
  frame < pool.numBufs ∧ (pool.bufTable frame).valid = true ∧
    (pool.bufTable frame).file = file ∧ (pool.bufTable frame).pageNo = pageNo

/-- An unused frame, as `Clear` and `flushFile` leave it. -/
def Unused (pool : BufMgr) (frame : Nat) : Prop :=
  (pool.bufTable frame).file = 0 ∧ (pool.bufTable frame).dirty = false ∧
    (pool.bufTable frame).pinCnt = 0

structure Residency (pool : BufMgr) : Prop where
  hand : pool.clockHand < pool.numBufs
  distinct : ChainedTable.DistinctKeys pool.hashTable.ht
  mapped : ∀ file pageNo frame,
    pool.hashTable.lookup file pageNo = some frame ↔ pool.Holds frame file pageNo
  free : ∀ frame, frame < pool.numBufs → (pool.bufTable frame).valid = false →
    pool.Unused frame

structure ResidencyApart (pool : BufMgr) (apart : Nat) : Prop where
  bound : apart < pool.numBufs
  hand : pool.clockHand < pool.numBufs
  distinct : ChainedTable.DistinctKeys pool.hashTable.ht
  mapped : ∀ file pageNo frame,
    pool.hashTable.lookup file pageNo = some frame ↔
      pool.Holds frame file pageNo ∧ frame ≠ apart
  free : ∀ frame, frame < pool.numBufs → frame ≠ apart →
    (pool.bufTable frame).valid = false → pool.Unused frame
  unpinned : (pool.bufTable apart).pinCnt = 0

theorem new_residency (bufs : Nat) (positive : 0 < bufs) : Residency (new bufs) where
  hand := by simp only [new]; omega
  distinct := ChainedTable.distinct_keys_empty
  mapped := by
    intro file pageNo frame
    simp [new, BufHashTbl.lookup, ChainedTable.find_empty, Holds, BufDesc.blank]
  free := by
    intro frame _ _
    exact ⟨rfl, rfl, rfl⟩

theorem Residency.holds_unique {pool : BufMgr} (res : pool.Residency) {first second : Nat}
    {file : FilePtr} {pageNo : Int} (left : pool.Holds first file pageNo)
    (right : pool.Holds second file pageNo) : first = second := by
  have leftMapped := (res.mapped file pageNo first).mpr left
  have rightMapped := (res.mapped file pageNo second).mpr right
  exact Option.some.inj (leftMapped.symm.trans rightMapped)

theorem Residency.apart_of_invalid {pool : BufMgr} (res : pool.Residency) {frame : Nat}
    (bound : frame < pool.numBufs) (invalid : (pool.bufTable frame).valid = false) :
    ResidencyApart pool frame where
  bound := bound
  hand := res.hand
  distinct := res.distinct
  mapped := by
    intro file pageNo other
    rw [res.mapped]
    constructor
    · intro holds
      refine ⟨holds, ?_⟩
      rintro rfl
      rw [holds.2.1] at invalid
      cases invalid
    · exact And.left
  free := fun other otherBound _ unused => res.free other otherBound unused
  unpinned := (res.free frame bound invalid).2.2

/-- What two pools agree on when they differ in the clock and reference bits. -/
structure SameFrames (before after : BufMgr) : Prop where
  numBufs : after.numBufs = before.numBufs
  descs : ∀ frame, (after.bufTable frame).unref = (before.bufTable frame).unref
  images : after.bufPool = before.bufPool

theorem SameFrames.refl (pool : BufMgr) : SameFrames pool pool := ⟨rfl, fun _ => rfl, rfl⟩

theorem SameFrames.trans {first second third : BufMgr} (left : SameFrames first second)
    (right : SameFrames second third) : SameFrames first third :=
  ⟨right.1.trans left.1, fun frame => (right.2 frame).trans (left.2 frame),
    right.3.trans left.3⟩

section SameFrames

variable {before after : BufMgr} (same : SameFrames before after)

include same

theorem SameFrames.file (frame : Nat) :
    (after.bufTable frame).file = (before.bufTable frame).file := by
  simpa only [BufDesc.unref] using congrArg BufDesc.file (same.descs frame)

theorem SameFrames.pageNo (frame : Nat) :
    (after.bufTable frame).pageNo = (before.bufTable frame).pageNo := by
  simpa only [BufDesc.unref] using congrArg BufDesc.pageNo (same.descs frame)

theorem SameFrames.pinCnt (frame : Nat) :
    (after.bufTable frame).pinCnt = (before.bufTable frame).pinCnt := by
  simpa only [BufDesc.unref] using congrArg BufDesc.pinCnt (same.descs frame)

theorem SameFrames.dirty (frame : Nat) :
    (after.bufTable frame).dirty = (before.bufTable frame).dirty := by
  simpa only [BufDesc.unref] using congrArg BufDesc.dirty (same.descs frame)

theorem SameFrames.valid (frame : Nat) :
    (after.bufTable frame).valid = (before.bufTable frame).valid := by
  simpa only [BufDesc.unref] using congrArg BufDesc.valid (same.descs frame)

theorem SameFrames.holds_iff (frame : Nat) (file : FilePtr) (pageNo : Int) :
    after.Holds frame file pageNo ↔ before.Holds frame file pageNo := by
  simp only [Holds, same.numBufs, same.file, same.pageNo, same.valid]

theorem SameFrames.unused_iff (frame : Nat) : after.Unused frame ↔ before.Unused frame := by
  simp only [Unused, same.file, same.dirty, same.pinCnt]

theorem SameFrames.residency (res : before.Residency)
    (hand : after.clockHand < after.numBufs) (table : after.hashTable = before.hashTable) :
    after.Residency where
  hand := hand
  distinct := by rw [table]; exact res.distinct
  mapped := by
    intro file pageNo frame
    rw [table, res.mapped, same.holds_iff]
  free := by
    intro frame bound invalid
    rw [same.numBufs] at bound
    rw [same.valid] at invalid
    exact (same.unused_iff frame).mpr (res.free frame bound invalid)

end SameFrames

theorem advance_clock_same (pool : BufMgr) : SameFrames pool pool.advanceClock :=
  ⟨rfl, fun _ => rfl, rfl⟩

theorem set_refbit_same (pool : BufMgr) (frame : Nat) (refbit : Bool) :
    SameFrames pool (pool.setDesc frame { pool.bufTable frame with refbit := refbit }) := by
  refine ⟨rfl, fun other => ?_, rfl⟩
  by_cases equal : other = frame
  · subst equal
    simp [setDesc, BufDesc.unref]
  · simp [setDesc, Function.update_of_ne equal]

/-- Dropping the hash entry of a frame leaves exactly that frame out. -/
theorem Residency.remove_entry {pool : BufMgr} (res : pool.Residency) {frame : Nat}
    (bound : frame < pool.numBufs) (valid : (pool.bufTable frame).valid = true)
    (unpinned : (pool.bufTable frame).pinCnt = 0) :
    ResidencyApart
      (pool.removeEntry (pool.bufTable frame).file (pool.bufTable frame).pageNo) frame where
  bound := bound
  hand := res.hand
  distinct := BufHashTbl.distinct_remove res.distinct
  mapped := by
    intro file pageNo other
    have self : pool.Holds frame (pool.bufTable frame).file (pool.bufTable frame).pageNo :=
      ⟨bound, valid, rfl, rfl⟩
    change ((pool.hashTable.remove _ _).getD pool.hashTable).lookup file pageNo = _ ↔
      pool.Holds other file pageNo ∧ other ≠ frame
    rw [BufHashTbl.lookup_remove res.distinct]
    split_ifs with same
    · obtain ⟨rfl, rfl⟩ := Prod.mk.inj same
      simp only [false_iff, not_and, not_not]
      exact fun holds => res.holds_unique holds self
    · rw [res.mapped]
      constructor
      · intro holds
        refine ⟨holds, ?_⟩
        rintro rfl
        exact same (by rw [holds.2.2.1, holds.2.2.2])
      · exact And.left
  free := fun other otherBound _ invalid => res.free other otherBound invalid
  unpinned := unpinned

/-- How the clock ends in any pool: it has gone all the way, it has stopped at a frame that is
not valid, or it has taken the page of an unpinned frame out of the hash table. It changes
nothing else but reference bits. -/
theorem clock_scan_outcome (remaining numScanned : Nat) (pool : BufMgr)
    (hand : pool.clockHand < pool.numBufs) :
    let result := clockScan remaining numScanned pool
    let desc := result.2.2.bufTable result.2.2.clockHand
    SameFrames pool result.2.2 ∧ result.2.2.clockHand < pool.numBufs ∧
      ((result.1 = false ∧ result.2.1 = numScanned + remaining ∧
          result.2.2.hashTable = pool.hashTable) ∨
        (result.1 = false ∧ result.2.1 ≤ numScanned + remaining ∧
          result.2.2.hashTable = pool.hashTable ∧ desc.valid = false) ∨
        (result.1 = true ∧ desc.valid = true ∧ desc.pinCnt = 0 ∧
          result.2.2.hashTable = (pool.removeEntry desc.file desc.pageNo).hashTable)) := by
  induction remaining generalizing numScanned pool with
  | zero => exact ⟨SameFrames.refl pool, hand, .inl ⟨rfl, rfl, rfl⟩⟩
  | succ remaining ih =>
      have moved := advance_clock_same pool
      have advanced : pool.advanceClock.clockHand < pool.numBufs :=
        Nat.mod_lt _ (lt_of_le_of_lt (Nat.zero_le _) hand)
      set desc := pool.advanceClock.bufTable pool.advanceClock.clockHand with descDef
      have total : numScanned + 1 + remaining = numScanned + (remaining + 1) := by omega
      by_cases valid : desc.valid = true
      · by_cases referenced : desc.refbit = true
        · -- has been referenced, clear the bit and go on
          set cleared := pool.advanceClock.setDesc pool.advanceClock.clockHand
            { desc with refbit := false } with clearedDef
          have step : clockScan (remaining + 1) numScanned pool =
              clockScan remaining (numScanned + 1) cleared := by
            simp only [clockScan, ← descDef, valid, referenced, not_true_eq_false, if_false,
              clearedDef]
          have clearing : SameFrames pool.advanceClock cleared := set_refbit_same _ _ _
          obtain ⟨same, bound, cases_⟩ := ih (numScanned + 1) cleared advanced
          rw [total] at cases_
          rw [step]
          exact ⟨(moved.trans clearing).trans same, bound, cases_⟩
        · by_cases unpinned : desc.pinCnt = 0
          · have step : clockScan (remaining + 1) numScanned pool =
                (true, numScanned + 1, pool.advanceClock.removeEntry desc.file desc.pageNo) := by
              simp only [clockScan, ← descDef, valid, referenced, unpinned,
                not_true_eq_false, if_false, not_false_eq_true, if_true, Bool.false_eq_true]
            rw [step]
            exact ⟨moved.trans ⟨rfl, fun _ => rfl, rfl⟩, advanced,
              .inr (.inr ⟨rfl, valid, unpinned, rfl⟩)⟩
          · have step : clockScan (remaining + 1) numScanned pool =
                clockScan remaining (numScanned + 1) pool.advanceClock := by
              simp only [clockScan, ← descDef, valid, referenced, unpinned,
                not_true_eq_false, if_false, not_false_eq_true, if_true, Bool.false_eq_true]
            obtain ⟨same, bound, cases_⟩ := ih (numScanned + 1) pool.advanceClock advanced
            rw [total] at cases_
            rw [step]
            exact ⟨moved.trans same, bound, cases_⟩
      · have step : clockScan (remaining + 1) numScanned pool =
            (false, numScanned + 1, pool.advanceClock) := by
          simp only [clockScan, ← descDef, valid, not_false_eq_true, if_true, Bool.false_eq_true]
        rw [step]
        refine ⟨moved, advanced, .inr (.inl ⟨rfl, by dsimp only; omega, rfl, ?_⟩)⟩
        simpa using valid

theorem clock_scan_spec (remaining numScanned : Nat) (pool : BufMgr) (res : pool.Residency) :
    let result := clockScan remaining numScanned pool
    SameFrames pool result.2.2 ∧
      ((result.1 = false ∧ result.2.1 = numScanned + remaining ∧ result.2.2.Residency ∧
          result.2.2.hashTable = pool.hashTable) ∨
        (result.1 = false ∧ result.2.1 ≤ numScanned + remaining ∧ result.2.2.Residency ∧
          result.2.2.hashTable = pool.hashTable ∧
          (result.2.2.bufTable result.2.2.clockHand).valid = false) ∨
        (result.1 = true ∧
          (result.2.2.bufTable result.2.2.clockHand).valid = true ∧
          ResidencyApart result.2.2 result.2.2.clockHand)) := by
  obtain ⟨same, bound, cases_⟩ := clock_scan_outcome remaining numScanned pool res.hand
  rcases scan : clockScan remaining numScanned pool with ⟨found, count, scanned⟩
  rw [scan] at same bound cases_
  dsimp only at same bound cases_ ⊢
  have hand : scanned.clockHand < scanned.numBufs := by rwa [same.numBufs]
  refine ⟨same, ?_⟩
  rcases cases_ with ⟨lost, counted, table⟩ | ⟨lost, counted, table, invalid⟩ |
    ⟨taken, valid, unpinned, table⟩
  · exact .inl ⟨lost, counted, same.residency res hand table, table⟩
  · exact .inr (.inl ⟨lost, counted, same.residency res hand table, table, invalid⟩)
  · -- the frames as the clock left them, under the table as it was
    have before : Residency { scanned with hashTable := pool.hashTable } :=
      SameFrames.residency ⟨same.numBufs, same.descs, same.images⟩ res hand rfl
    have removed := before.remove_entry hand valid unpinned
    have result : { scanned with hashTable := pool.hashTable }.removeEntry
        (scanned.bufTable scanned.clockHand).file (scanned.bufTable scanned.clockHand).pageNo =
          scanned := by
      unfold removeEntry at table ⊢
      dsimp only at table ⊢
      rw [← table]
    rw [result] at removed
    exact .inr (.inr ⟨taken, valid, removed⟩)

/-- The first step of the clock when it goes on: the frame it passes is valid, it
was referenced or is pinned, and is not referenced afterwards. -/
theorem clock_scan_step (remaining numScanned : Nat) (pool : BufMgr)
    (lost : (clockScan (remaining + 1) numScanned pool).1 = false) :
    let frame := (pool.clockHand + 1) % pool.numBufs
    ((pool.bufTable frame).valid = false ∧
        (clockScan (remaining + 1) numScanned pool).2.1 = numScanned + 1) ∨
      ((pool.bufTable frame).valid = true ∧
        ((pool.bufTable frame).refbit = false → 0 < (pool.bufTable frame).pinCnt) ∧
        ∃ passed : BufMgr,
          clockScan (remaining + 1) numScanned pool =
            clockScan remaining (numScanned + 1) passed ∧
          SameFrames pool passed ∧ passed.clockHand = frame ∧
          ∀ other, (passed.bufTable other).refbit =
            if other = frame then false else (pool.bufTable other).refbit) := by
  intro frame
  have here : pool.advanceClock.bufTable pool.advanceClock.clockHand = pool.bufTable frame := rfl
  have moved := advance_clock_same pool
  by_cases valid : (pool.bufTable frame).valid = true
  · right
    by_cases referenced : (pool.bufTable frame).refbit = true
    · refine ⟨valid, fun clear => absurd (clear.symm.trans referenced) (by simp), ?_⟩
      refine ⟨pool.advanceClock.setDesc frame { pool.bufTable frame with refbit := false }, ?_,
        moved.trans (set_refbit_same _ _ _), rfl, ?_⟩
      · simp only [clockScan, here, valid, referenced, not_true_eq_false, if_false]
        rfl
      · intro other
        split_ifs with same
        · rw [same]
          simp
        · rw [set_desc_other _ _ _ same]
          rfl
    · have clear : (pool.bufTable frame).refbit = false := by simpa using referenced
      have pinned : (pool.bufTable frame).pinCnt ≠ 0 := by
        intro unpinned
        simp [clockScan, here, valid, clear, unpinned] at lost
      refine ⟨valid, fun _ => Nat.pos_of_ne_zero pinned, pool.advanceClock, ?_, moved, rfl, ?_⟩
      · simp only [clockScan, here, valid, clear, pinned, not_true_eq_false, if_false,
          Bool.false_eq_true, not_false_eq_true, if_true]
      · intro other
        split_ifs with same
        · rw [same]
          exact clear
        · rfl
  · left
    have invalid : (pool.bufTable frame).valid = false := by simpa using valid
    refine ⟨invalid, ?_⟩
    simp [clockScan, here, invalid]

/-- A clock that has gone `steps` frames and will go on has passed valid frames
only, and none of them is referenced any more. -/
theorem clock_scan_passes (steps rest numScanned : Nat) (pool : BufMgr)
    (lost : (clockScan (steps + rest) numScanned pool).1 = false) (more : 0 < rest)
    (count : numScanned + (steps + rest) ≤ (clockScan (steps + rest) numScanned pool).2.1) :
    ∃ passed : BufMgr,
      clockScan (steps + rest) numScanned pool = clockScan rest (numScanned + steps) passed ∧
      SameFrames pool passed ∧ passed.clockHand % pool.numBufs =
        (pool.clockHand + steps) % pool.numBufs ∧
      (∀ other, (pool.bufTable other).refbit = false → (passed.bufTable other).refbit = false) ∧
      ∀ offset, 0 < offset → offset ≤ steps →
        (pool.bufTable ((pool.clockHand + offset) % pool.numBufs)).valid = true ∧
        (passed.bufTable ((pool.clockHand + offset) % pool.numBufs)).refbit = false := by
  induction steps generalizing numScanned pool with
  | zero =>
      refine ⟨pool, by rw [Nat.zero_add, Nat.add_zero], SameFrames.refl pool, rfl,
        fun _ clear => clear, fun offset lower upper => by omega⟩
  | succ steps ih =>
      have shape : steps + 1 + rest = (steps + rest) + 1 := by omega
      rw [shape] at lost count ⊢
      rcases clock_scan_step (steps + rest) numScanned pool lost with ⟨_, stopped⟩ |
        ⟨valid, _, first, run, same, hand, bits⟩
      · omega
      · rw [run] at lost count ⊢
        obtain ⟨passed, run', same', hand', kept, passedBits⟩ :=
          ih (numScanned + 1) first lost (by omega)
        rw [same.numBufs, hand] at hand' passedBits
        have shift : ∀ offset, ((pool.clockHand + 1) % pool.numBufs + offset) % pool.numBufs =
            (pool.clockHand + (offset + 1)) % pool.numBufs := by
          intro offset
          rw [Nat.mod_add_mod]
          congr 1
          omega
        refine ⟨passed, by rw [run']; congr 1; omega, same.trans same', by rw [hand', shift], ?_, ?_⟩
        · intro other clear
          refine kept other ?_
          rw [bits]
          split_ifs
          · rfl
          · exact clear
        · intro offset lower upper
          by_cases now : offset = 1
          · subst now
            refine ⟨valid, kept _ ?_⟩
            rw [bits, if_pos rfl]
          · obtain ⟨earlier, cleared⟩ := passedBits (offset - 1) (by omega) (by omega)
            rw [shift, Nat.sub_add_cancel lower] at earlier cleared
            rw [same.valid] at earlier
            exact ⟨earlier, cleared⟩

/-- The clock gives up only if every frame is in use and pinned: after one round
no frame is referenced, so the second round would take an unpinned one. -/
theorem clock_scan_gives_up (pool : BufMgr) (hand : pool.clockHand < pool.numBufs)
    (lost : (clockScan (2 * pool.numBufs) 0 pool).1 = false)
    (count : 2 * pool.numBufs ≤ (clockScan (2 * pool.numBufs) 0 pool).2.1) :
    ∀ frame, frame < pool.numBufs →
      (pool.bufTable frame).valid = true ∧ 0 < (pool.bufTable frame).pinCnt := by
  intro frame bound
  -- the frame is `offset` steps ahead of the hand
  obtain ⟨offset, lower, upper, place⟩ : ∃ offset, 0 < offset ∧ offset ≤ pool.numBufs ∧
      (pool.clockHand + offset) % pool.numBufs = frame := by
    by_cases behind : frame ≤ pool.clockHand
    · refine ⟨pool.numBufs - pool.clockHand + frame, by omega, by omega, ?_⟩
      have total : pool.clockHand + (pool.numBufs - pool.clockHand + frame) =
        frame + pool.numBufs := by omega
      rw [total, Nat.add_mod_right, Nat.mod_eq_of_lt bound]
    · refine ⟨frame - pool.clockHand, by omega, by omega, ?_⟩
      have total : pool.clockHand + (frame - pool.clockHand) = frame := by omega
      rw [total, Nat.mod_eq_of_lt bound]
  have two : 2 * pool.numBufs = pool.numBufs + pool.numBufs := by omega
  rw [two] at lost count
  obtain ⟨first, run, same, hand', _, passedBits⟩ :=
    clock_scan_passes pool.numBufs pool.numBufs 0 pool lost (by omega) (by omega)
  rw [Nat.add_mod_right] at hand'
  rw [run] at lost count
  -- the second round, up to the step that meets the frame
  have shape : pool.numBufs = (offset - 1) + (pool.numBufs - offset + 1) := by omega
  rw [shape] at lost count
  obtain ⟨second, run', same', hand'', kept, _⟩ :=
    clock_scan_passes (offset - 1) (pool.numBufs - offset + 1) _ first lost (by omega) (by omega)
  rw [run'] at lost count
  obtain ⟨valid, cleared⟩ := passedBits offset lower upper
  rw [place] at valid cleared
  have total := same.trans same'
  have met : (second.clockHand + 1) % second.numBufs = frame := by
    rw [total.numBufs]
    rw [same.numBufs] at hand''
    rw [← Nat.mod_add_mod, hand'', Nat.mod_add_mod, Nat.add_assoc, Nat.sub_add_cancel lower,
      ← Nat.mod_add_mod, hand', Nat.mod_add_mod, place]
  rcases clock_scan_step _ _ second lost with ⟨invalid, _⟩ | ⟨_, pinned, _⟩
  · rw [met, total.valid, valid] at invalid
    cases invalid
  · rw [met, total.pinCnt] at pinned
    exact ⟨valid, pinned (kept frame cleared)⟩

/-- Installing a page that is in no frame puts the frame left out back under the
hash table. -/
theorem ResidencyApart.install {pool : BufMgr} {frame : Nat} (res : ResidencyApart pool frame)
    (file : FilePtr) (pageNo : Int) (absent : pool.hashTable.lookup file pageNo = none)
    {table : BufHashTbl}
    (inserted : pool.hashTable.insert file pageNo frame = some table) :
    Residency { pool.setDesc frame (BufDesc.Set file pageNo) with hashTable := table } where
  hand := res.hand
  distinct := BufHashTbl.distinct_insert res.distinct inserted
  mapped := by
    intro other otherNo index
    change table.lookup other otherNo = some index ↔ _
    rw [BufHashTbl.lookup_insert inserted]
    by_cases here : index = frame
    · subst here
      have holds : Holds { pool.setDesc index (BufDesc.Set file pageNo) with hashTable := table }
          index other otherNo ↔ (other, otherNo) = (file, pageNo) := by
        simp [Holds, setDesc, BufDesc.Set, res.bound, eq_comm]
      rw [holds]
      split_ifs with same
      · simp [same]
      · simp only [same, iff_false]
        intro mapped
        exact ((res.mapped _ _ _).mp mapped).2 rfl
    · have holds : Holds { pool.setDesc frame (BufDesc.Set file pageNo) with hashTable := table }
          index other otherNo ↔ pool.Holds index other otherNo := by
        simp [Holds, setDesc, Function.update_of_ne here]
      rw [holds]
      split_ifs with same
      · obtain ⟨rfl, rfl⟩ := Prod.mk.inj same
        have missing := (res.mapped other otherNo index).not.mp (by rw [absent]; simp)
        simp only [Option.some.injEq, Ne.symm here, false_iff]
        exact fun held => missing ⟨held, here⟩
      · rw [res.mapped]
        simp [here]
  free := by
    intro index bound invalid
    by_cases here : index = frame
    · subst here
      simp [setDesc, BufDesc.Set] at invalid
    · have valid' : (pool.bufTable index).valid = false := by
        simpa [setDesc, Function.update_of_ne here] using invalid
      have unused := res.free index bound here valid'
      simpa [Unused, setDesc, Function.update_of_ne here] using unused

/-- Changing pins, dirty and reference bits of a frame that holds a page. -/
theorem Residency.set_desc {pool : BufMgr} (res : pool.Residency) {frame : Nat}
    {file : FilePtr} {pageNo : Int} (holds : pool.Holds frame file pageNo) (desc : BufDesc)
    (valid : desc.valid = true) (sameFile : desc.file = file) (samePage : desc.pageNo = pageNo) :
    (pool.setDesc frame desc).Residency where
  hand := res.hand
  distinct := res.distinct
  mapped := by
    intro other otherNo index
    change pool.hashTable.lookup other otherNo = some index ↔ _
    rw [res.mapped]
    by_cases here : index = frame
    · subst here
      obtain ⟨bound, wasValid, rfl, rfl⟩ := holds
      simp [Holds, setDesc, valid, wasValid, sameFile, samePage]
    · simp [Holds, setDesc, Function.update_of_ne here]
  free := by
    intro index bound invalid
    by_cases here : index = frame
    · subst here
      simp [setDesc, valid] at invalid
    · have invalid' : (pool.bufTable index).valid = false := by
        simpa [setDesc, Function.update_of_ne here] using invalid
      have unused := res.free index bound invalid'
      simpa [Unused, setDesc, Function.update_of_ne here] using unused

theorem Residency.release {pool : BufMgr} (res : pool.Residency) {frame : Nat}
    {file : FilePtr} {pageNo : Int} (holds : pool.Holds frame file pageNo) (desc : BufDesc)
    (invalid : desc.valid = false) (noFile : desc.file = 0) (clean : desc.dirty = false)
    (unpinned : desc.pinCnt = 0) :
    ((pool.removeEntry file pageNo).setDesc frame desc).Residency where
  hand := res.hand
  distinct := BufHashTbl.distinct_remove res.distinct
  mapped := by
    intro other otherNo index
    change ((pool.hashTable.remove file pageNo).getD pool.hashTable).lookup other otherNo =
      some index ↔ _
    rw [BufHashTbl.lookup_remove res.distinct]
    by_cases here : index = frame
    · subst here
      have empty : ¬Holds ((pool.removeEntry file pageNo).setDesc index desc) index
          other otherNo := by
        simp [Holds, setDesc, invalid]
      simp only [empty, iff_false]
      split_ifs with same
      · simp
      · rw [res.mapped]
        rintro ⟨_, _, rfl, rfl⟩
        exact same (by rw [holds.2.2.1, holds.2.2.2])
    · have kept : Holds ((pool.removeEntry file pageNo).setDesc frame desc) index
          other otherNo ↔ pool.Holds index other otherNo := by
        simp [Holds, setDesc, removeEntry, Function.update_of_ne here]
      rw [kept]
      split_ifs with same
      · obtain ⟨rfl, rfl⟩ := Prod.mk.inj same
        simp only [false_iff]
        exact fun held => here (res.holds_unique held holds)
      · rw [res.mapped]
  free := by
    intro index bound unused
    by_cases here : index = frame
    · subst here
      simp [Unused, setDesc, noFile, clean, unpinned]
    · have invalid' : (pool.bufTable index).valid = false := by
        simpa [setDesc, removeEntry, Function.update_of_ne here] using unused
      have unused' := res.free index bound invalid'
      simpa [Unused, setDesc, removeEntry, Function.update_of_ne here] using unused'

end BufMgr

end PrimitiveDB

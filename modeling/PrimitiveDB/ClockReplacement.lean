import PrimitiveDB.BufferContracts

/-!
# The clock

What a pool keeps whatever calls fail: an entry of the hash table leads to the frame that
holds its page, a frame that is not valid is unused, and a valid frame has a file. Frames
that the table has lost may be valid. In every such pool two rounds of the clock find a frame
unless all of them are valid and pinned.
-/

namespace PrimitiveDB

open World

set_option autoImplicit false

namespace BufMgr

structure Orderly (pool : BufMgr) : Prop where
  hand : pool.clockHand < pool.numBufs
  distinct : ChainedTable.DistinctKeys pool.hashTable.ht
  mapped : ∀ file pageNo frame, pool.hashTable.lookup file pageNo = some frame →
    pool.Holds frame file pageNo
  free : ∀ frame, frame < pool.numBufs → (pool.bufTable frame).valid = false → pool.Unused frame
  named : ∀ frame, frame < pool.numBufs → (pool.bufTable frame).valid = true →
    (pool.bufTable frame).file ≠ 0

def AllPinned (pool : BufMgr) : Prop :=
  ∀ frame, frame < pool.numBufs →
    (pool.bufTable frame).valid = true ∧ 0 < (pool.bufTable frame).pinCnt

theorem new_orderly (bufs : Nat) (positive : 0 < bufs) : Orderly (new bufs) where
  hand := (new_residency bufs positive).hand
  distinct := (new_residency bufs positive).distinct
  mapped := fun file pageNo frame => ((new_residency bufs positive).mapped file pageNo frame).mp
  free := (new_residency bufs positive).free
  named := by
    intro frame _ valid
    cases valid

theorem SameFrames.orderly {before after : BufMgr} (same : SameFrames before after)
    (orderly : before.Orderly) (hand : after.clockHand < after.numBufs)
    (distinct : ChainedTable.DistinctKeys after.hashTable.ht)
    (fewer : ∀ file pageNo frame, after.hashTable.lookup file pageNo = some frame →
      before.hashTable.lookup file pageNo = some frame) : after.Orderly where
  hand := hand
  distinct := distinct
  mapped := fun file pageNo frame found =>
    (same.holds_iff _ _ _).mpr (orderly.mapped file pageNo frame (fewer file pageNo frame found))
  free := by
    intro frame bound invalid
    rw [same.numBufs] at bound
    rw [same.valid] at invalid
    exact (same.unused_iff frame).mpr (orderly.free frame bound invalid)
  named := by
    intro frame bound valid
    rw [same.numBufs] at bound
    rw [same.valid] at valid
    rw [same.file]
    exact orderly.named frame bound valid

theorem lookup_remove_fewer {table : BufHashTbl} (distinct : ChainedTable.DistinctKeys table.ht)
    {file other : FilePtr} {pageNo otherNo : Int} {frame : Nat}
    (found : ((table.remove file pageNo).getD table).lookup other otherNo = some frame) :
    table.lookup other otherNo = some frame ∧ (other, otherNo) ≠ (file, pageNo) := by
  rw [BufHashTbl.lookup_remove distinct] at found
  split_ifs at found with same
  exact ⟨found, same⟩

/-- The pool that `allocBuf` leaves, and the frame that it may have found. -/
theorem Orderly.clock_scan {pool : BufMgr} (orderly : pool.Orderly) :
    let scanned := (clockScan (2 * pool.numBufs) 0 pool).2.2
    SameFrames pool scanned ∧ scanned.Orderly ∧
      (((clockScan (2 * pool.numBufs) 0 pool).1 = false ∧
          2 * pool.numBufs ≤ (clockScan (2 * pool.numBufs) 0 pool).2.1 ∧ pool.AllPinned) ∨
        (¬((clockScan (2 * pool.numBufs) 0 pool).1 = false ∧
            2 * pool.numBufs ≤ (clockScan (2 * pool.numBufs) 0 pool).2.1) ∧
          ((pool.bufTable scanned.clockHand).valid = false ∨
            (pool.bufTable scanned.clockHand).pinCnt = 0) ∧
          ∀ file pageNo, scanned.hashTable.lookup file pageNo ≠ some scanned.clockHand)) := by
  obtain ⟨same, bound, cases_⟩ := clock_scan_outcome (2 * pool.numBufs) 0 pool orderly.hand
  have givesUp := clock_scan_gives_up pool orderly.hand
  rcases scan : clockScan (2 * pool.numBufs) 0 pool with ⟨found, count, scanned⟩
  rw [scan] at same bound cases_ givesUp
  dsimp only at same bound cases_ givesUp ⊢
  have hand : scanned.clockHand < scanned.numBufs := by rwa [same.numBufs]
  refine ⟨same, ?_⟩
  rcases cases_ with ⟨lost, counted, table⟩ | ⟨lost, _, table, invalid⟩ |
    ⟨taken, valid, unpinned, table⟩
  · have kept : scanned.Orderly := by
      apply same.orderly orderly hand
      · rw [table]
        exact orderly.distinct
      · rw [table]
        exact fun _ _ _ => id
    exact ⟨kept, .inl ⟨lost, by omega, givesUp lost (by omega)⟩⟩
  · have kept : scanned.Orderly := by
      apply same.orderly orderly hand
      · rw [table]
        exact orderly.distinct
      · rw [table]
        exact fun _ _ _ => id
    rw [same.valid] at invalid
    refine ⟨kept, .inr ⟨?_, .inl invalid, ?_⟩⟩
    · rintro ⟨_, exhausted⟩
      rw [(givesUp lost exhausted _ bound).1] at invalid
      cases invalid
    · intro file pageNo found
      have valid := (kept.mapped file pageNo _ found).2.1
      rw [same.valid, invalid] at valid
      cases valid
  · have kept : scanned.Orderly := by
      apply same.orderly orderly hand
      · rw [table]
        exact BufHashTbl.distinct_remove orderly.distinct
      · rw [table]
        exact fun _ _ _ found => (lookup_remove_fewer orderly.distinct found).1
    refine ⟨kept, .inr ⟨?_, .inr (by rw [← same.pinCnt]; exact unpinned), ?_⟩⟩
    · rintro ⟨lost, _⟩
      rw [taken] at lost
      cases lost
    · intro file pageNo found
      have holds := kept.mapped file pageNo _ found
      rw [table] at found
      apply (lookup_remove_fewer orderly.distinct found).2
      rw [← holds.2.2.1, ← holds.2.2.2]

/-- What `allocBuf` does to an orderly pool: with every frame pinned it gives up, else it
stops at a frame that can be had, and no entry of the table leads to that frame. -/
theorem Orderly.alloc_buf {w : World} (orderly : w.bufMgr.Orderly) :
    ∃ scanned, SameFrames w.bufMgr scanned ∧ scanned.Orderly ∧
      ((w.bufMgr.AllPinned ∧ allocBuf w = (.err .BUFFEREXCEEDED, w.setPool scanned)) ∨
        (¬w.bufMgr.AllPinned ∧
          ((w.bufMgr.bufTable scanned.clockHand).valid = false ∨
            (w.bufMgr.bufTable scanned.clockHand).pinCnt = 0) ∧
          (∀ file pageNo, scanned.hashTable.lookup file pageNo ≠ some scanned.clockHand) ∧
          allocBuf w =
            if (w.bufMgr.bufTable scanned.clockHand).dirty then
              (File.writePage (w.bufMgr.bufTable scanned.clockHand).file
                (w.bufMgr.bufTable scanned.clockHand).pageNo
                (w.bufMgr.bufPool scanned.clockHand) >>= fun _ => pure scanned.clockHand)
                (w.setPool scanned)
            else (.ok scanned.clockHand, w.setPool scanned))) := by
  obtain ⟨same, kept, cases_⟩ := orderly.clock_scan
  have equation := alloc_buf_eq w
  dsimp only at equation
  rw [same.numBufs, same.dirty, same.file, same.pageNo, same.images] at equation
  refine ⟨_, same, kept, ?_⟩
  rcases cases_ with ⟨lost, exhausted, pinned⟩ | ⟨goes, free, fresh⟩
  · left
    rw [equation, if_pos ⟨lost, exhausted⟩]
    exact ⟨pinned, rfl⟩
  · right
    rw [if_neg goes] at equation
    refine ⟨?_, free, fresh, equation⟩
    intro pinned
    have bound := kept.hand
    rw [same.numBufs] at bound
    rcases free with invalid | unpinned
    · rw [(pinned _ bound).1] at invalid
      cases invalid
    · have positive := (pinned _ bound).2
      omega

/-- The pool after `allocBuf`, whatever becomes of the write-back. -/
theorem Orderly.alloc_buf_pool {w : World} (orderly : w.bufMgr.Orderly) :
    ∃ scanned, SameFrames w.bufMgr scanned ∧ scanned.Orderly ∧
      (allocBuf w).2.bufMgr = scanned ∧ (allocBuf w).2.files = w.files ∧
      ∀ frame, (allocBuf w).1 = .ok frame → frame = scanned.clockHand ∧
        (w.bufMgr.bufTable frame).pinCnt = 0 ∧
        ∀ file pageNo, scanned.hashTable.lookup file pageNo ≠ some frame := by
  obtain ⟨scanned, same, kept, ⟨_, run⟩ | ⟨_, free, fresh, run⟩⟩ := orderly.alloc_buf
  · refine ⟨scanned, same, kept, by rw [run]; rfl, by rw [run]; rfl, ?_⟩
    intro frame found
    rw [run] at found
    cases found
  · have unpinned : (w.bufMgr.bufTable scanned.clockHand).pinCnt = 0 := by
      rcases free with invalid | unpinned
      · have bound := kept.hand
        rw [same.numBufs] at bound
        exact (orderly.free _ bound invalid).2.2
      · exact unpinned
    refine ⟨scanned, same, kept, ?_⟩
    split_ifs at run with dirty
    · rw [run]
      have quiet := File.write_page_moves (w.bufMgr.bufTable scanned.clockHand).file
        (w.bufMgr.bufTable scanned.clockHand).pageNo (w.bufMgr.bufPool scanned.clockHand)
        (w.setPool scanned)
      rw [DbM.bind_apply]
      rcases write : File.writePage (w.bufMgr.bufTable scanned.clockHand).file
        (w.bufMgr.bufTable scanned.clockHand).pageNo (w.bufMgr.bufPool scanned.clockHand)
        (w.setPool scanned) with ⟨_ | status | _, w'⟩ <;> rw [write] at quiet
      · refine ⟨quiet.1.bufMgr, quiet.1.files, ?_⟩
        intro frame found
        cases found
        exact ⟨rfl, unpinned, fresh⟩
      · refine ⟨quiet.1.bufMgr, quiet.1.files, ?_⟩
        intro frame found
        cases found
      · refine ⟨quiet.1.bufMgr, quiet.1.files, ?_⟩
        intro frame found
        cases found
    · rw [run]
      refine ⟨rfl, rfl, ?_⟩
      intro frame found
      cases found
      exact ⟨rfl, unpinned, fresh⟩

theorem Orderly.install_page {w : World} (orderly : w.bufMgr.Orderly) {file : FilePtr}
    {frame : Nat} (bound : frame < w.bufMgr.numBufs)
    (fresh : ∀ other otherNo, w.bufMgr.hashTable.lookup other otherNo ≠ some frame)
    (real : file ≠ 0) (pageNo : Int) :
    (installPage file pageNo frame w).2.bufMgr.Orderly ∧
      (installPage file pageNo frame w).2.files = w.files := by
  have elsewhere : ∀ {other : FilePtr} {otherNo : Int} {index : Nat},
      w.bufMgr.hashTable.lookup other otherNo = some index → index ≠ frame := by
    rintro other otherNo index found rfl
    exact fresh other otherNo found
  have kept : ∀ {other : FilePtr} {otherNo : Int} {index : Nat},
      w.bufMgr.hashTable.lookup other otherNo = some index →
      (w.bufMgr.setDesc frame (BufDesc.Set file pageNo)).Holds index other otherNo := by
    intro other otherNo index found
    have holds := orderly.mapped other otherNo index found
    unfold Holds at holds ⊢
    rw [set_desc_other _ _ _ (elsewhere found)]
    exact holds
  have free : ∀ index, index < w.bufMgr.numBufs →
      ((w.bufMgr.setDesc frame (BufDesc.Set file pageNo)).bufTable index).valid = false →
      (w.bufMgr.setDesc frame (BufDesc.Set file pageNo)).Unused index := by
    intro index inside invalid
    by_cases here : index = frame
    · subst here
      rw [set_desc_self] at invalid
      cases invalid
    · rw [set_desc_other _ _ _ here] at invalid
      unfold Unused
      rw [set_desc_other _ _ _ here]
      exact orderly.free index inside invalid
  have named : ∀ index, index < w.bufMgr.numBufs →
      ((w.bufMgr.setDesc frame (BufDesc.Set file pageNo)).bufTable index).valid = true →
      ((w.bufMgr.setDesc frame (BufDesc.Set file pageNo)).bufTable index).file ≠ 0 := by
    intro index inside valid
    by_cases here : index = frame
    · subst here
      rw [set_desc_self]
      exact real
    · rw [set_desc_other _ _ _ here] at valid ⊢
      exact orderly.named index inside valid
  rw [install_page_eq]
  dsimp only
  cases inserted : w.bufMgr.hashTable.insert file pageNo frame with
  | none => exact ⟨⟨orderly.hand, orderly.distinct, fun _ _ _ => kept, free, named⟩, rfl⟩
  | some table =>
      refine ⟨⟨orderly.hand, BufHashTbl.distinct_insert orderly.distinct inserted, ?_, free,
        named⟩, rfl⟩
      intro other otherNo index found
      change table.lookup other otherNo = some index at found
      rw [BufHashTbl.lookup_insert inserted] at found
      split_ifs at found with same
      · cases found
        cases same
        refine ⟨bound, ?_⟩
        change ((w.bufMgr.setDesc frame (BufDesc.Set file pageNo)).bufTable frame).valid = true ∧ _
        rw [set_desc_self]
        exact ⟨rfl, by simp [setDesc, BufDesc.Set]⟩
      · exact kept found

theorem Orderly.set_desc {pool : BufMgr} (orderly : pool.Orderly) {frame : Nat} {desc : BufDesc}
    (was : (pool.bufTable frame).valid = true) (valid : desc.valid = true)
    (sameFile : desc.file = (pool.bufTable frame).file)
    (samePage : desc.pageNo = (pool.bufTable frame).pageNo) :
    (pool.setDesc frame desc).Orderly where
  hand := orderly.hand
  distinct := orderly.distinct
  mapped := by
    intro file pageNo index found
    have holds := orderly.mapped file pageNo index found
    unfold Holds at holds ⊢
    by_cases here : index = frame
    · subst here
      rw [set_desc_self, valid, sameFile, samePage]
      exact ⟨holds.1, rfl, holds.2.2⟩
    · rw [set_desc_other _ _ _ here]
      exact holds
  free := by
    intro index inside invalid
    by_cases here : index = frame
    · subst here
      rw [set_desc_self, valid] at invalid
      cases invalid
    · rw [set_desc_other _ _ _ here] at invalid
      unfold Unused
      rw [set_desc_other _ _ _ here]
      exact orderly.free index inside invalid
  named := by
    intro index inside isValid
    by_cases here : index = frame
    · subst here
      rw [set_desc_self, sameFile]
      exact orderly.named index inside was
    · rw [set_desc_other _ _ _ here] at isValid ⊢
      exact orderly.named index inside isValid

/-- A frame goes back to the pool together with the one entry that leads to it. -/
theorem Orderly.release {pool : BufMgr} (orderly : pool.Orderly) {file : FilePtr} {pageNo : Int}
    {frame : Nat} {desc : BufDesc} (invalid : desc.valid = false)
    (unused : desc.file = 0 ∧ desc.dirty = false ∧ desc.pinCnt = 0)
    (only : ∀ other otherNo, pool.hashTable.lookup other otherNo = some frame →
      (other, otherNo) = (file, pageNo)) :
    ((pool.removeEntry file pageNo).setDesc frame desc).Orderly where
  hand := orderly.hand
  distinct := BufHashTbl.distinct_remove orderly.distinct
  mapped := by
    intro other otherNo index found
    obtain ⟨was, different⟩ := lookup_remove_fewer orderly.distinct found
    have elsewhere : index ≠ frame := by
      rintro rfl
      exact different (only other otherNo was)
    have holds := orderly.mapped other otherNo index was
    unfold Holds at holds ⊢
    rw [set_desc_other _ _ _ elsewhere]
    exact holds
  free := by
    intro index inside _
    by_cases here : index = frame
    · subst here
      unfold Unused
      rw [set_desc_self]
      exact unused
    · rename_i isInvalid
      rw [set_desc_other _ _ _ here] at isInvalid
      unfold Unused
      rw [set_desc_other _ _ _ here]
      exact orderly.free index inside isInvalid
  named := by
    intro index inside valid
    by_cases here : index = frame
    · subst here
      rw [set_desc_self, invalid] at valid
      cases valid
    · rw [set_desc_other _ _ _ here] at valid ⊢
      exact orderly.named index inside valid

theorem Orderly.remove_entry {pool : BufMgr} (orderly : pool.Orderly) (file : FilePtr)
    (pageNo : Int) : (pool.removeEntry file pageNo).Orderly where
  hand := orderly.hand
  distinct := BufHashTbl.distinct_remove orderly.distinct
  mapped := fun other otherNo frame found =>
    orderly.mapped other otherNo frame (lookup_remove_fewer orderly.distinct found).1
  free := orderly.free
  named := orderly.named

end BufMgr

namespace World

/-- The pool is in order, and no object lies at the null address. -/
structure PoolInOrder (w : World) : Prop where
  orderly : w.bufMgr.Orderly
  null : w.files 0 = none

variable {w : World}

theorem PoolInOrder.quiet {w' : World} (order : w.PoolInOrder) (same : SameMemory w w') :
    w'.PoolInOrder :=
  ⟨by rw [same.bufMgr]; exact order.orderly, by rw [same.files]; exact order.null⟩

theorem read_page_live {file : FilePtr} {pageNo : Int} {image : PageImage} {w' : World}
    (run : File.readPage file pageNo w = (.ok image, w')) : w.files file ≠ none := by
  unfold File.readPage at run
  split_ifs at run
  · cases run
  · obtain ⟨contents, opened, _⟩ := File.intread_inv run
    obtain ⟨object, live, _⟩ := unix_file_live opened
    rw [live]
    exact Option.some_ne_none object

theorem PoolInOrder.alloc_buf (order : w.PoolInOrder) :
    (BufMgr.allocBuf w).2.PoolInOrder ∧
      ∀ frame, (BufMgr.allocBuf w).1 = .ok frame →
        frame < (BufMgr.allocBuf w).2.bufMgr.numBufs ∧
        ∀ file pageNo, (BufMgr.allocBuf w).2.bufMgr.hashTable.lookup file pageNo ≠ some frame := by
  obtain ⟨scanned, _, kept, pool, files, took⟩ := order.orderly.alloc_buf_pool
  refine ⟨⟨by rw [pool]; exact kept, by rw [files]; exact order.null⟩, ?_⟩
  intro frame found
  obtain ⟨rfl, _, fresh⟩ := took frame found
  rw [pool]
  exact ⟨kept.hand, fresh⟩

theorem PoolInOrder.read_page (order : w.PoolInOrder) (file : FilePtr) (pageNo : Int) :
    (BufMgr.readPage file pageNo w).2.PoolInOrder := by
  cases hit : w.bufMgr.hashTable.lookup file pageNo with
  | some frame =>
      have holds := order.orderly.mapped file pageNo frame hit
      rw [BufMgr.read_page_hit w file pageNo frame hit]
      exact ⟨order.orderly.set_desc holds.2.1 holds.2.1 rfl rfl, order.null⟩
  | none =>
      obtain ⟨chosen, took⟩ := order.alloc_buf
      rw [BufMgr.read_page_miss w file pageNo hit, DbM.bind_apply]
      rcases choose : BufMgr.allocBuf w with ⟨frame | status | _, w₁⟩ <;>
        rw [choose] at chosen took
      · obtain ⟨bound, fresh⟩ := took frame rfl
        have quiet := File.read_page_moves file pageNo w₁
        dsimp only
        rw [DbM.bind_apply]
        rcases fetch : File.readPage file pageNo w₁ with ⟨image | status | _, w₂⟩ <;>
          rw [fetch] at quiet
        · have real : file ≠ 0 := by
            rintro rfl
            exact read_page_live fetch chosen.null
          have read : w₂.PoolInOrder := chosen.quiet quiet.1
          have pool : w₂.bufMgr = w₁.bufMgr := quiet.1.bufMgr
          have stored : (w₂.setPool (w₂.bufMgr.setImage frame image)).PoolInOrder :=
            ⟨⟨read.orderly.hand, read.orderly.distinct, read.orderly.mapped, read.orderly.free,
              read.orderly.named⟩, read.null⟩
          dsimp only
          rw [DbM.modify_pool_bind]
          have bound' : frame < (w₂.setPool (w₂.bufMgr.setImage frame image)).bufMgr.numBufs := by
            rw [set_pool_pool, BufMgr.set_image_num_bufs, pool]
            exact bound
          have fresh' : ∀ other otherNo,
              (w₂.setPool (w₂.bufMgr.setImage frame image)).bufMgr.hashTable.lookup
                other otherNo ≠ some frame := by
            rw [set_pool_pool, BufMgr.set_image_hash_table, pool]
            exact fresh
          obtain ⟨installed, files⟩ := stored.orderly.install_page bound' fresh' real pageNo
          exact ⟨installed, by rw [files]; exact stored.null⟩
        · exact chosen.quiet quiet.1
        · exact chosen.quiet quiet.1
      · exact chosen
      · exact chosen

theorem PoolInOrder.alloc_page (order : w.PoolInOrder) (file : FilePtr) :
    (BufMgr.allocPage file w).2.PoolInOrder := by
  have quiet := File.allocate_page_moves file w
  unfold BufMgr.allocPage
  rw [DbM.bind_apply]
  rcases allocate : File.allocatePage file w with ⟨pageNo | status | _, w₁⟩ <;>
    rw [allocate] at quiet
  · have allocated : w₁.PoolInOrder := order.quiet quiet.1
    obtain ⟨chosen, took⟩ := allocated.alloc_buf
    have real : file ≠ 0 := by
      rintro rfl
      obtain ⟨contents, opened, _⟩ := File.allocate_page_ok allocate
      obtain ⟨object, live, _⟩ := unix_file_live opened
      rw [order.null] at live
      cases live
    dsimp only
    rw [DbM.bind_apply]
    rcases choose : BufMgr.allocBuf w₁ with ⟨frame | status | _, w₂⟩ <;>
      rw [choose] at chosen took
    · obtain ⟨bound, fresh⟩ := took frame rfl
      obtain ⟨installed, files⟩ := chosen.orderly.install_page bound fresh real pageNo
      have kept : (BufMgr.installPage file pageNo frame w₂).2.PoolInOrder :=
        ⟨installed, by rw [files]; exact chosen.null⟩
      dsimp only
      rw [DbM.bind_apply]
      rcases install : BufMgr.installPage file pageNo frame w₂ with ⟨_ | status | _, w₃⟩ <;>
        rw [install] at kept <;> exact kept
    · exact chosen
    · exact chosen
  · exact order.quiet quiet.1
  · exact order.quiet quiet.1

theorem PoolInOrder.un_pin_page (order : w.PoolInOrder) (file : FilePtr) (pageNo : Int)
    (dirty : Bool) : (BufMgr.unPinPage file pageNo dirty w).2.PoolInOrder := by
  cases hit : w.bufMgr.hashTable.lookup file pageNo with
  | none => simpa [BufMgr.unPinPage, DbM.read_bind, hit, DbM.fail] using order
  | some frame =>
      have holds := order.orderly.mapped file pageNo frame hit
      rw [BufMgr.un_pin_page_hit w file pageNo dirty frame hit]
      dsimp only
      split_ifs
      · exact ⟨order.orderly.set_desc holds.2.1 holds.2.1 rfl rfl, order.null⟩
      · exact ⟨order.orderly.set_desc holds.2.1 holds.2.1 rfl rfl, order.null⟩

theorem PoolInOrder.flush_frame (order : w.PoolInOrder) (file : FilePtr) (frame : Nat) :
    (BufMgr.flushFrame file frame w).2.PoolInOrder := by
  by_cases mine : (w.bufMgr.bufTable frame).file = file
  · by_cases valid : (w.bufMgr.bufTable frame).valid = true
    · by_cases unpinned : (w.bufMgr.bufTable frame).pinCnt = 0
      · have released : (BufMgr.releaseFrame file frame (w.bufMgr.bufTable frame)
            w.bufMgr).Orderly := by
          unfold BufMgr.releaseFrame
          apply order.orderly.release
          · rfl
          · exact ⟨rfl, rfl, unpinned⟩
          intro other otherNo found
          have holds := order.orderly.mapped other otherNo frame found
          rw [← holds.2.2.1, ← holds.2.2.2, mine]
        rw [BufMgr.flush_frame_unpinned w file frame ⟨valid, mine⟩ unpinned]
        split_ifs
        · have quiet := File.write_page_moves file (w.bufMgr.bufTable frame).pageNo
            (w.bufMgr.bufPool frame) w
          rw [DbM.bind_apply]
          rcases write : File.writePage file (w.bufMgr.bufTable frame).pageNo
            (w.bufMgr.bufPool frame) w with ⟨_ | status | _, w'⟩ <;> rw [write] at quiet
          · refine ⟨?_, by rw [← order.null]; exact congrFun quiet.1.files 0⟩
            change (BufMgr.releaseFrame file frame (w.bufMgr.bufTable frame) w'.bufMgr).Orderly
            rw [quiet.1.bufMgr]
            exact released
          · exact order.quiet quiet.1
          · exact order.quiet quiet.1
        · exact ⟨released, order.null⟩
      · rw [BufMgr.flush_frame_pinned w file frame ⟨valid, mine⟩ (by omega)]
        exact order
    · simp only [BufMgr.flushFrame, DbM.read_bind]
      rw [if_neg (fun both => valid both.1), if_pos ⟨valid, mine⟩]
      exact order
  · rw [BufMgr.flush_frame_other w file frame mine]
    exact order

theorem PoolInOrder.flush_file (order : w.PoolInOrder) (file : FilePtr) :
    (BufMgr.flushFile file w).2.PoolInOrder := by
  have rounds : ∀ (frames : List Nat) (v : World), v.PoolInOrder →
      (BufMgr.flushFrames file frames v).2.PoolInOrder := by
    intro frames
    induction frames with
    | nil => exact fun v kept => kept
    | cons frame rest ih =>
        intro v kept
        have round := kept.flush_frame file frame
        rw [BufMgr.flushFrames, DbM.bind_apply]
        rcases step : BufMgr.flushFrame file frame v with ⟨_ | status | _, v'⟩ <;>
          rw [step] at round
        · exact ih v' round
        · exact round
        · exact round
  exact rounds _ w order

/-- Where `disposePage` of the file layer moves the world: its own file only. -/
theorem dispose_page_moves (file : FilePtr) (pageNo : Int) :
    DbM.Moves File.Quiet (File.disposePage file pageNo) := by
  unfold File.disposePage
  split_ifs
  · exact fun w => File.quiet_refl w
  · apply DbM.moves_bind @File.Quiet.trans (File.intread_moves _ _)
    intro header
    dsimp only
    split_ifs
    · exact fun w => File.quiet_refl w
    · apply DbM.moves_bind @File.Quiet.trans (File.intread_moves _ _)
      intro _
      apply DbM.moves_bind @File.Quiet.trans (File.intwrite_moves _ _ _)
      exact fun _ => File.intwrite_moves _ _ _

theorem PoolInOrder.dispose_page (order : w.PoolInOrder) (file : FilePtr) (pageNo : Int) :
    (BufMgr.disposePage file pageNo w).2.PoolInOrder := by
  have finish : ∀ v : World, v.PoolInOrder → (File.disposePage file pageNo v).2.PoolInOrder :=
    fun v kept => kept.quiet (dispose_page_moves file pageNo v).1
  unfold BufMgr.disposePage
  rw [DbM.read_bind]
  cases hit : w.bufMgr.hashTable.lookup file pageNo with
  | none =>
      dsimp only
      exact finish _ ⟨order.orderly.remove_entry file pageNo, order.null⟩
  | some frame =>
      dsimp only
      rw [DbM.modify_pool_bind, DbM.modify_pool_bind]
      apply finish
      refine ⟨?_, order.null⟩
      have only : ∀ other otherNo, w.bufMgr.hashTable.lookup other otherNo = some frame →
          (other, otherNo) = (file, pageNo) := by
        intro other otherNo found
        have holds := order.orderly.mapped other otherNo frame found
        have mine := order.orderly.mapped file pageNo frame hit
        rw [← holds.2.2.1, ← holds.2.2.2, mine.2.2.1, mine.2.2.2]
      have cleared : (w.bufMgr.bufTable frame).Clear.valid = false := rfl
      exact order.orderly.release cleared ⟨rfl, rfl, rfl⟩ only

/-- One step of a process as the pool sees it: a call of the buffer manager with any arguments
and any outcome, a store through a page pointer, or something that leaves the pool alone. -/
inductive PoolStep : World → World → Prop where
  | readPage (w : World) (file : FilePtr) (pageNo : Int) :
      PoolStep w (BufMgr.readPage file pageNo w).2
  | allocPage (w : World) (file : FilePtr) : PoolStep w (BufMgr.allocPage file w).2
  | unPinPage (w : World) (file : FilePtr) (pageNo : Int) (dirty : Bool) :
      PoolStep w (BufMgr.unPinPage file pageNo dirty w).2
  | flushFile (w : World) (file : FilePtr) : PoolStep w (BufMgr.flushFile file w).2
  | disposePage (w : World) (file : FilePtr) (pageNo : Int) :
      PoolStep w (BufMgr.disposePage file pageNo w).2
  | store (w : World) (frame : Nat) (image : PageImage) : PoolStep w (w.storeImage frame image)
  | outside (w w' : World) (pool : w'.bufMgr = w.bufMgr) (null : w'.files 0 = none) :
      PoolStep w w'

theorem PoolInOrder.step {w' : World} (order : w.PoolInOrder) (step : PoolStep w w') :
    w'.PoolInOrder := by
  cases step with
  | readPage file pageNo => exact order.read_page file pageNo
  | allocPage file => exact order.alloc_page file
  | unPinPage file pageNo dirty => exact order.un_pin_page file pageNo dirty
  | flushFile file => exact order.flush_file file
  | disposePage file pageNo => exact order.dispose_page file pageNo
  | store frame image =>
      exact ⟨⟨order.orderly.hand, order.orderly.distinct, order.orderly.mapped,
        order.orderly.free, order.orderly.named⟩, order.null⟩
  | outside _ pool null => exact ⟨by rw [pool]; exact order.orderly, null⟩

theorem PoolInOrder.run {w' : World} (order : w.PoolInOrder)
    (run : Relation.ReflTransGen PoolStep w w') : w'.PoolInOrder := by
  induction run with
  | refl => exact order
  | tail _ step ih => exact ih.step step

/-- The disk after frame `frame` has been written back. -/
def writtenBack (w : World) (frame : Nat) : FileName → Option UnixFile :=
  match w.files (w.bufMgr.bufTable frame).file, w.unixFile (w.bufMgr.bufTable frame).file with
  | some object, some contents =>
      Function.update w.disk object.fileName
        (some (contents.writeAt (w.bufMgr.bufTable frame).pageNo.toNat (w.bufMgr.bufPool frame)))
  | _, _ => w.disk

/-- `allocBuf` finds a frame unless all are pinned, takes only a frame that nobody has pinned,
stores it first if it is dirty, and leaves the other frames alone. -/
structure ClockContract (w : World) : Prop where
  exceeded : (BufMgr.allocBuf w).1 = .err .BUFFEREXCEEDED ↔ w.bufMgr.AllPinned
  takes : (∀ frame, frame < w.bufMgr.numBufs → BufMgr.WriteBackSucceeds w 0 frame) →
    ¬w.bufMgr.AllPinned → ∃ frame w', BufMgr.allocBuf w = (.ok frame, w') ∧
      frame < w.bufMgr.numBufs ∧
      ((w.bufMgr.bufTable frame).valid = false ∨ (w.bufMgr.bufTable frame).pinCnt = 0) ∧
      w'.disk = (if (w.bufMgr.bufTable frame).dirty then w.writtenBack frame else w.disk) ∧
      w'.faults = (if (w.bufMgr.bufTable frame).dirty then w.tick.faults else w.faults) ∧
      ∀ other, other ≠ frame →
        (w'.bufMgr.bufTable other).unref = (w.bufMgr.bufTable other).unref ∧
        w'.bufMgr.bufPool other = w.bufMgr.bufPool other
  no_null : ∀ frame, frame < w.bufMgr.numBufs → (w.bufMgr.bufTable frame).dirty = true →
    (w.bufMgr.bufTable frame).file ≠ 0

theorem PoolInOrder.exceeded_iff (order : w.PoolInOrder) :
    (BufMgr.allocBuf w).1 = .err .BUFFEREXCEEDED ↔ w.bufMgr.AllPinned := by
  obtain ⟨scanned, _, _, ⟨pinned, run⟩ | ⟨free, _, _, run⟩⟩ := order.orderly.alloc_buf
  · rw [run]
    exact ⟨fun _ => pinned, fun _ => rfl⟩
  · refine ⟨?_, fun pinned => absurd pinned free⟩
    intro exceeded
    exfalso
    rw [run] at exceeded
    split_ifs at exceeded
    rw [DbM.bind_apply] at exceeded
    rcases write : File.writePage (w.bufMgr.bufTable scanned.clockHand).file
      (w.bufMgr.bufTable scanned.clockHand).pageNo (w.bufMgr.bufPool scanned.clockHand)
      (w.setPool scanned) with ⟨_ | status | _, w'⟩ <;> rw [write] at exceeded <;>
      cases exceeded
    rcases File.write_page_err write with wrong | wrong <;> cases wrong

theorem PoolInOrder.takes_frame (order : w.PoolInOrder)
    (stores : ∀ frame, frame < w.bufMgr.numBufs → BufMgr.WriteBackSucceeds w 0 frame)
    (some_ : ¬w.bufMgr.AllPinned) :
    ∃ frame w', BufMgr.allocBuf w = (.ok frame, w') ∧ frame < w.bufMgr.numBufs ∧
      ((w.bufMgr.bufTable frame).valid = false ∨ (w.bufMgr.bufTable frame).pinCnt = 0) ∧
      w'.disk = (if (w.bufMgr.bufTable frame).dirty then w.writtenBack frame else w.disk) ∧
      w'.faults = (if (w.bufMgr.bufTable frame).dirty then w.tick.faults else w.faults) ∧
      ∀ other, other ≠ frame →
        (w'.bufMgr.bufTable other).unref = (w.bufMgr.bufTable other).unref ∧
        w'.bufMgr.bufPool other = w.bufMgr.bufPool other := by
  obtain ⟨scanned, same, kept, ⟨pinned, _⟩ | ⟨_, free, _, run⟩⟩ := order.orderly.alloc_buf
  · exact absurd pinned some_
  · have bound : scanned.clockHand < w.bufMgr.numBufs := by
      rw [← same.numBufs]
      exact kept.hand
    by_cases dirty : (w.bufMgr.bufTable scanned.clockHand).dirty = true
    · have ready : (w.setPool scanned).WriteSucceeds 0
          (w.bufMgr.bufTable scanned.clockHand).file
          (w.bufMgr.bufTable scanned.clockHand).pageNo := stores _ bound dirty
      obtain ⟨object, contents, live, opened, write⟩ :=
        File.write_page_succeeds ready (w.bufMgr.bufPool scanned.clockHand)
      rw [if_pos dirty, DbM.bind_ok write] at run
      refine ⟨_, _, run, bound, free, ?_, by rw [if_pos dirty]; rfl,
        fun other _ => ⟨same.descs other, ?_⟩⟩
      · have live' : w.files (w.bufMgr.bufTable scanned.clockHand).file = some object := live
        have opened' : w.unixFile (w.bufMgr.bufTable scanned.clockHand).file = some contents :=
          opened
        rw [if_pos dirty, writtenBack, live', opened']
        rfl
      · exact congrFun same.images other
    · rw [if_neg dirty] at run
      refine ⟨_, _, run, bound, free, ?_, by rw [if_neg dirty]; rfl,
        fun other _ => ⟨same.descs other, ?_⟩⟩
      · rw [if_neg dirty]
        rfl
      · exact congrFun same.images other

theorem PoolInOrder.dirty_has_file (order : w.PoolInOrder) {frame : Nat}
    (bound : frame < w.bufMgr.numBufs) (dirty : (w.bufMgr.bufTable frame).dirty = true) :
    (w.bufMgr.bufTable frame).file ≠ 0 := by
  apply order.orderly.named frame bound
  by_contra invalid
  have clean := (order.orderly.free frame bound (by simpa using invalid)).2.1
  rw [dirty] at clean
  cases clean

/-- However a process has used its pool, the clock keeps its contract. -/
theorem clock_finds_a_frame_unless_all_pinned {w' : World} (bufs : Nat) (positive : 0 < bufs)
    (fresh : w.bufMgr = BufMgr.new bufs) (null : w.files 0 = none)
    (run : Relation.ReflTransGen PoolStep w w') : w'.ClockContract := by
  have order : w.PoolInOrder := ⟨by rw [fresh]; exact BufMgr.new_orderly bufs positive, null⟩
  have reached := order.run run
  exact ⟨reached.exceeded_iff, reached.takes_frame, fun frame => reached.dirty_has_file⟩

/-- Page 1 is read and unpinned dirty: the clock takes its frame again. -/
theorem clock_finds_a_frame_one_page :
    let used := (BufMgr.unPinPage 1 1 true (BufMgr.readPage 1 1 BufMgr.onePageWorld).2).2
    used.ClockContract ∧ (used.bufMgr.bufTable 0).dirty = true ∧
      (BufMgr.allocBuf used).1 = .ok 0 := by
  refine ⟨?_, by decide, by decide⟩
  apply clock_finds_a_frame_unless_all_pinned (w := BufMgr.onePageWorld) 1 (by decide) rfl rfl
  exact (Relation.ReflTransGen.single (.readPage _ 1 1)).tail (.unPinPage _ 1 1 true)

end World

end PrimitiveDB

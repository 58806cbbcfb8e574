import PrimitiveDB.BufferCoherence

/-!
# Contracts of the buffer manager

One lemma for each call, over a healthy world and any list of pins: what the
call may return, that the world stays healthy under the new list of pins, and
that the pages look as before. Callers cite these and never unfold the pool.
-/

namespace PrimitiveDB.World

open BufMgr

set_option autoImplicit false

variable {w w' : World} {pins : List Pin} {file : FilePtr} {pageNo : Int} {frame : Nat}

theorem Healthy.lookup_of_pin (healthy : w.Healthy pins) {pin : Pin} (member : pin ∈ pins) :
    w.bufMgr.hashTable.lookup pin.file pin.pageNo = some pin.frame :=
  (healthy.residency.mapped _ _ _).mpr (healthy.held_by pin member).1

theorem Healthy.view_of_pin (healthy : w.Healthy pins) {pin : Pin} (member : pin ∈ pins) :
    w.view pin.file pin.pageNo = w.bufMgr.bufPool pin.frame := by
  simp [view, healthy.lookup_of_pin member]

theorem Healthy.has_page_of_pin (healthy : w.Healthy pins) {pin : Pin} (member : pin ∈ pins) :
    w.HasPage pin.file pin.pageNo :=
  healthy.held _ _ _ trivial (healthy.held_by pin member).1

theorem Healthy.frame_unique (healthy : w.Healthy pins) {first second : Pin}
    (firstMember : first ∈ pins) (secondMember : second ∈ pins)
    (sameFile : first.file = second.file) (samePage : first.pageNo = second.pageNo) :
    first.frame = second.frame := by
  have left := healthy.lookup_of_pin firstMember
  rw [sameFile, samePage, healthy.lookup_of_pin secondMember] at left
  exact (Option.some.inj left).symm

theorem Sound.perm {pins' : List Pin} {inUse : Nat → Prop} (sound : w.Sound pins inUse)
    (perm : pins.Perm pins') : w.Sound pins' inUse where
  reliable := sound.reliable
  files := sound.files
  held := sound.held
  pinned := by
    intro frame bound
    rw [sound.pinned frame bound]
    exact perm.countP_eq _
  held_by := fun pin member => sound.held_by pin (perm.mem_iff.mpr member)
  clean := fun frame file pageNo inUse holds clean settled =>
    sound.clean frame file pageNo inUse holds clean
      (fun pin member => settled pin (perm.mem_iff.mp member))

theorem Healthy.perm {pins' : List Pin} (healthy : w.Healthy pins) (perm : pins.Perm pins') :
    w.Healthy pins' :=
  ⟨healthy.toSound.perm perm, healthy.residency⟩

/-- A client may always resolve to report a change it has not made. -/
theorem Healthy.owe {pin : Pin} (healthy : w.Healthy (pin :: pins)) (owed : Bool)
    (more : pin.owed = true → owed = true) : w.Healthy ({ pin with owed := owed } :: pins) where
  reliable := healthy.reliable
  files := healthy.files
  held := healthy.held
  pinned := by
    intro frame bound
    rw [healthy.pinned frame bound, pins_on_cons, pins_on_cons]
  held_by := by
    intro other member
    rcases List.mem_cons.mp member with rfl | member
    · exact healthy.held_by pin (by simp)
    · exact healthy.held_by other (by simp [member])
  clean := by
    intro frame file pageNo inUse holds clean settled
    refine healthy.clean frame file pageNo inUse holds clean ?_
    intro other member here
    rcases List.mem_cons.mp member with rfl | member
    · have settledHere : owed = false := settled { other with owed := owed } (by simp) here
      by_contra unsettled
      have := more (by simpa using unsettled)
      rw [settledHere] at this
      cases this
    · exact settled other (by simp [member]) here
  residency := healthy.residency

def Exhausted (w : World) : Prop :=
  ∀ frame, frame < w.bufMgr.numBufs → 0 < (w.bufMgr.bufTable frame).pinCnt

theorem lookup_congr {first second : BufHashTbl}
    (same : ∀ file pageNo frame, second.lookup file pageNo = some frame ↔
      first.lookup file pageNo = some frame) (file : FilePtr) (pageNo : Int) :
    second.lookup file pageNo = first.lookup file pageNo :=
  Option.ext fun frame => same file pageNo frame

theorem Sound.same_frames {inUse : Nat → Prop} {pool : BufMgr} (sound : w.Sound pins inUse)
    (same : SameFrames w.bufMgr pool) : (w.setPool pool).Sound pins inUse where
  reliable := sound.reliable
  files := ⟨sound.files.apart, sound.files.formed⟩
  held := fun frame file pageNo use holds =>
    sound.held frame file pageNo use ((same.holds_iff frame file pageNo).mp holds)
  pinned := by
    intro frame bound
    change (pool.bufTable frame).pinCnt = _
    rw [same.pinCnt, sound.pinned frame (by rw [← same.numBufs]; exact bound)]
  held_by := fun pin member =>
    ⟨(same.holds_iff _ _ _).mpr (sound.held_by pin member).1, (sound.held_by pin member).2⟩
  clean := by
    intro frame file pageNo use holds clean settled
    change pool.bufPool frame = w.diskPage file pageNo
    rw [same.images]
    exact sound.clean frame file pageNo use ((same.holds_iff _ _ _).mp holds)
      (by rw [← same.dirty]; exact clean) settled

theorem Sound.fewer_frames {more fewer : Nat → Prop} (sound : w.Sound pins more)
    (less : ∀ frame, fewer frame → more frame) (held : ∀ pin ∈ pins, fewer pin.frame) :
    w.Sound pins fewer :=
  ⟨sound.reliable, sound.files, fun frame file pageNo use => sound.held frame file pageNo
    (less frame use), sound.pinned, fun pin member => ⟨(sound.held_by pin member).1,
    held pin member⟩, fun frame file pageNo use => sound.clean frame file pageNo (less frame use)⟩

theorem Healthy.scanned {pool : BufMgr} (healthy : w.Healthy pins)
    (same : SameFrames w.bufMgr pool) (residency : pool.Residency) :
    (w.setPool pool).Healthy pins ∧ SameView w (w.setPool pool) := by
  refine ⟨⟨healthy.toSound.same_frames same, residency⟩, ?_⟩
  intro file pageNo _
  have lookups : pool.hashTable.lookup file pageNo = w.bufMgr.hashTable.lookup file pageNo :=
    lookup_congr (fun file pageNo frame => by
      rw [residency.mapped, healthy.residency.mapped, same.holds_iff]) file pageNo
  simp only [view, set_pool_pool, lookups, same.images]
  rfl

theorem Healthy.vacate_unused (healthy : w.Healthy pins) (bound : frame < w.bufMgr.numBufs)
    (invalid : (w.bufMgr.bufTable frame).valid = false) : w.Vacated pins frame where
  toSound := by
    refine healthy.toSound.fewer_frames (fun _ _ => trivial) ?_
    intro pin member same
    have valid := (healthy.held_by pin member).1.2.1
    rw [same, invalid] at valid
    cases valid
  residency := healthy.residency.apart_of_invalid bound invalid

theorem Healthy.vacate {pool : BufMgr} (healthy : w.Healthy pins)
    (same : SameFrames w.bufMgr pool) (apart : ResidencyApart pool frame)
    (holds : w.bufMgr.Holds frame file pageNo) (poolEq : w'.bufMgr = pool)
    (reliable : w'.Reliable) (steady : Steady w w')
    (stored : w'.diskPage file pageNo = w.bufMgr.bufPool frame)
    (others : ∀ other otherNo, w.HasPage other otherNo → (other, otherNo) ≠ (file, pageNo) →
      w'.diskPage other otherNo = w.diskPage other otherNo) :
    w'.Vacated pins frame ∧ SameView w w' := by
  subst poolEq
  have unpinned : pinsOn pins frame = 0 := by
    rw [← healthy.pinned frame holds.1, ← same.pinCnt]
    exact apart.unpinned
  have outside : ∀ pin ∈ pins, pin.frame ≠ frame := by
    intro pin member here
    have none_ := List.countP_eq_zero.mp unpinned pin member
    simp [here] at none_
  -- Another frame in use holds another page.
  have different : ∀ other otherFile otherNo, other ≠ frame →
      w.bufMgr.Holds other otherFile otherNo → (otherFile, otherNo) ≠ (file, pageNo) := by
    intro other otherFile otherNo apartFrom otherHolds equal
    obtain ⟨rfl, rfl⟩ := Prod.mk.inj equal
    exact apartFrom (healthy.residency.holds_unique otherHolds holds)
  refine ⟨⟨⟨reliable, steady.files_sound healthy.files, ?_, ?_, ?_, ?_⟩, apart⟩, ?_⟩
  · intro other otherFile otherNo _ otherHolds
    rw [steady.has_page_iff]
    exact healthy.held other otherFile otherNo trivial ((same.holds_iff _ _ _).mp otherHolds)
  · intro other bound
    rw [same.pinCnt]
    exact healthy.pinned other (by rw [← same.numBufs]; exact bound)
  · exact fun pin member =>
      ⟨(same.holds_iff _ _ _).mpr (healthy.held_by pin member).1, outside pin member⟩
  · intro other otherFile otherNo apartFrom otherHolds clean settled
    have held := (same.holds_iff _ _ _).mp otherHolds
    rw [others otherFile otherNo (healthy.held _ _ _ trivial held)
      (different other otherFile otherNo apartFrom held), same.images]
    exact healthy.clean other otherFile otherNo trivial held
      (by rw [← same.dirty]; exact clean) settled
  · intro otherFile otherNo page
    by_cases victim : (otherFile, otherNo) = (file, pageNo)
    · obtain ⟨rfl, rfl⟩ := Prod.mk.inj victim
      have before := (healthy.residency.mapped otherFile otherNo frame).mpr holds
      have after : w'.bufMgr.hashTable.lookup otherFile otherNo = none := by
        cases found : w'.bufMgr.hashTable.lookup otherFile otherNo with
        | none => rfl
        | some other =>
            obtain ⟨otherHolds, apartFrom⟩ := (apart.mapped _ _ _).mp found
            exact absurd rfl (different other _ _ apartFrom ((same.holds_iff _ _ _).mp otherHolds))
      simp only [view, before, after, stored]
    · have lookups : w'.bufMgr.hashTable.lookup otherFile otherNo =
          w.bufMgr.hashTable.lookup otherFile otherNo := by
        refine Option.ext fun other => ?_
        rw [apart.mapped, healthy.residency.mapped, same.holds_iff]
        constructor
        · exact And.left
        · intro otherHolds
          refine ⟨otherHolds, ?_⟩
          rintro rfl
          exact victim (by rw [← otherHolds.2.2.1, ← otherHolds.2.2.2, holds.2.2.1,
            holds.2.2.2])
      simp only [view, lookups, same.images, others otherFile otherNo page victim]

theorem alloc_buf_spec (healthy : w.Healthy pins) :
    (∃ w', allocBuf w = (.err .BUFFEREXCEEDED, w') ∧ w'.Healthy pins ∧ Steady w w' ∧
        SameView w w' ∧ SameFrames w.bufMgr w'.bufMgr ∧ w.Exhausted) ∨
      ∃ frame w', allocBuf w = (.ok frame, w') ∧ w'.Vacated pins frame ∧ Steady w w' ∧
        SameView w w' ∧ SameFrames w.bufMgr w'.bufMgr := by
  obtain ⟨scanned, same, cases_⟩ := alloc_buf_cases w healthy.residency
  have steady := steady_set_pool w same.numBufs
  rcases cases_ with ⟨_, residency, pinned, run⟩ | ⟨_, residency, _, invalid, run⟩ |
    ⟨_, valid, apart, run⟩
  · obtain ⟨healthy', view'⟩ := healthy.scanned same residency
    exact .inl ⟨_, run, healthy', steady, view', same, pinned⟩
  · obtain ⟨healthy', view'⟩ := healthy.scanned same residency
    exact .inr ⟨_, _, run, healthy'.vacate_unused residency.hand invalid, steady, view', same⟩
  · right
    set frame := scanned.clockHand
    have holds : w.bufMgr.Holds frame (scanned.bufTable frame).file
        (scanned.bufTable frame).pageNo :=
      (same.holds_iff _ _ _).mp ⟨apart.bound, valid, rfl, rfl⟩
    have page := healthy.held _ _ _ trivial holds
    by_cases dirty : (scanned.bufTable frame).dirty = true
    · obtain ⟨w₁, write, pool, reliable, steady', stored, others⟩ :=
        write_back_spec (w := w.setPool scanned) healthy.reliable
          (steady.files_sound healthy.files) page (scanned.bufPool frame)
      rw [if_pos dirty, DbM.bind_ok write] at run
      obtain ⟨vacated, view'⟩ := healthy.vacate same apart holds pool reliable
        (steady.trans steady') (by rw [stored, same.images]) others
      exact ⟨frame, w₁, run, vacated, steady.trans steady', view', by rw [pool]; exact same⟩
    · rw [if_neg dirty] at run
      have settled : Settled pins frame := settled_of_no_pins (by
        rw [← healthy.pinned frame holds.1, ← same.pinCnt]
        exact apart.unpinned)
      have clean := healthy.clean frame _ _ trivial holds
        (by rw [← same.dirty]; simpa using dirty) settled
      obtain ⟨vacated, view'⟩ := healthy.vacate same apart holds (set_pool_pool w scanned)
        healthy.reliable steady clean.symm (fun _ _ _ _ => rfl)
      exact ⟨frame, _, run, vacated, steady, view', same⟩

theorem Vacated.set_image (vacated : w.Vacated pins frame) (image : PageImage) :
    (w.setPool (w.bufMgr.setImage frame image)).Vacated pins frame where
  reliable := vacated.reliable
  files := ⟨vacated.files.apart, vacated.files.formed⟩
  held := vacated.held
  pinned := vacated.pinned
  held_by := vacated.held_by
  clean := by
    intro other file pageNo apartFrom holds clean settled
    rw [set_pool_pool, set_image_other _ _ _ apartFrom]
    exact vacated.clean other file pageNo apartFrom holds clean settled
  residency := vacated.residency.set_image image

/-- The frame left out belongs to no page, so its image is not seen. -/
theorem Vacated.view_set_image (vacated : w.Vacated pins frame) (image : PageImage)
    (file : FilePtr) (pageNo : Int) :
    (w.setPool (w.bufMgr.setImage frame image)).view file pageNo = w.view file pageNo := by
  simp only [view, set_pool_pool, set_image_hash_table]
  cases found : w.bufMgr.hashTable.lookup file pageNo with
  | none => rfl
  | some other =>
      have apartFrom := ((vacated.residency.mapped _ _ _).mp found).2
      exact set_image_other _ _ _ apartFrom

theorem Vacated.install (vacated : w.Vacated pins frame) (page : w.HasPage file pageNo)
    (absent : w.bufMgr.hashTable.lookup file pageNo = none) (owed : Bool)
    (clean : owed = false → w.bufMgr.bufPool frame = w.diskPage file pageNo) :
    ∃ w', installPage file pageNo frame w = (.ok frame, w') ∧
      w'.Healthy ({ file, pageNo, frame, owed } :: pins) ∧ Steady w w' ∧ w'.disk = w.disk ∧
      w'.view file pageNo = w.bufMgr.bufPool frame ∧
      ∀ other otherNo, (other, otherNo) ≠ (file, pageNo) →
        w'.view other otherNo = w.view other otherNo := by
  obtain ⟨table, inserted⟩ := BufHashTbl.insert_of_absent frame absent
  have residency := vacated.residency.install file pageNo absent inserted
  have lookups := BufHashTbl.lookup_insert inserted
  have bound := vacated.residency.bound
  have unpinned : pinsOn pins frame = 0 := by
    rw [← vacated.pinned frame bound]
    exact vacated.residency.unpinned
  set pool := { w.bufMgr.setDesc frame (BufDesc.Set file pageNo) with hashTable := table }
    with poolDef
  have self : pool.bufTable frame = BufDesc.Set file pageNo := by
    simp [poolDef, BufMgr.setDesc]
  have other : ∀ index, index ≠ frame → pool.bufTable index = w.bufMgr.bufTable index := by
    intro index apartFrom
    simp [poolDef, BufMgr.setDesc, Function.update_of_ne apartFrom]
  have holdsOther : ∀ index otherFile otherNo, index ≠ frame →
      (pool.Holds index otherFile otherNo ↔ w.bufMgr.Holds index otherFile otherNo) := by
    intro index otherFile otherNo apartFrom
    simp only [BufMgr.Holds, other index apartFrom]
    rfl
  have holdsSelf : ∀ otherFile otherNo, pool.Holds frame otherFile otherNo ↔
      otherFile = file ∧ otherNo = pageNo := by
    intro otherFile otherNo
    simp only [BufMgr.Holds, self, BufDesc.Set, true_and, eq_comm]
    exact ⟨fun holds => holds.2, fun equal => ⟨bound, equal⟩⟩
  refine ⟨w.setPool pool, by rw [install_page_eq, inserted], ?_, steady_set_pool w rfl, rfl,
    ?_, ?_⟩
  · refine ⟨⟨vacated.reliable, ⟨vacated.files.apart, vacated.files.formed⟩, ?_, ?_, ?_, ?_⟩,
      residency⟩
    · intro index otherFile otherNo _ holds
      by_cases here : index = frame
      · subst here
        obtain ⟨rfl, rfl⟩ := (holdsSelf _ _).mp holds
        exact page
      · exact vacated.held index otherFile otherNo here ((holdsOther _ _ _ here).mp holds)
    · intro index indexBound
      rw [pins_on_cons, set_pool_pool]
      by_cases here : index = frame
      · subst here
        rw [self, unpinned]
        simp [BufDesc.Set]
      · rw [other index here, vacated.pinned index indexBound]
        simp [Ne.symm here]
    · intro pin member
      rcases List.mem_cons.mp member with rfl | member
      · exact ⟨(holdsSelf _ _).mpr ⟨rfl, rfl⟩, trivial⟩
      · obtain ⟨holds, apartFrom⟩ := vacated.held_by pin member
        exact ⟨(holdsOther _ _ _ apartFrom).mpr holds, trivial⟩
    · intro index otherFile otherNo _ holds undirtied settled
      by_cases here : index = frame
      · subst here
        obtain ⟨rfl, rfl⟩ := (holdsSelf _ _).mp holds
        exact clean (settled { file := otherFile, pageNo := otherNo, frame := index, owed }
          (by simp) rfl)
      · refine vacated.clean index otherFile otherNo here ((holdsOther _ _ _ here).mp holds) ?_ ?_
        · rw [set_pool_pool, other index here] at undirtied
          exact undirtied
        · exact fun pin member => settled pin (by simp [member])
  · have found : table.lookup file pageNo = some frame := by rw [lookups]; simp
    simp only [view, set_pool_pool, poolDef, found]
    rfl
  · intro otherFile otherNo different
    have found : table.lookup otherFile otherNo =
        w.bufMgr.hashTable.lookup otherFile otherNo := by
      rw [lookups, if_neg different]
    simp only [view, set_pool_pool, poolDef, found]
    rfl

/-- A change of pins, dirty bit and reference bit of one frame in use. -/
theorem Healthy.set_desc {pins' : List Pin} (healthy : w.Healthy pins)
    (holds : w.bufMgr.Holds frame file pageNo) (desc : BufDesc) (valid : desc.valid = true)
    (sameFile : desc.file = file) (samePage : desc.pageNo = pageNo)
    (pinned : desc.pinCnt = pinsOn pins' frame)
    (pinnedOther : ∀ other, other ≠ frame → pinsOn pins' other = pinsOn pins other)
    (heldBy : ∀ pin ∈ pins', w.bufMgr.Holds pin.frame pin.file pin.pageNo)
    (clean : desc.dirty = false → Settled pins' frame →
      (w.bufMgr.bufTable frame).dirty = false ∧ Settled pins frame)
    (settledOther : ∀ other, other ≠ frame → Settled pins' other → Settled pins other) :
    (w.setPool (w.bufMgr.setDesc frame desc)).Healthy pins' := by
  have other : ∀ index, index ≠ frame →
      (w.bufMgr.setDesc frame desc).bufTable index = w.bufMgr.bufTable index :=
    fun index apartFrom => set_desc_other _ _ _ apartFrom
  have holdsIff : ∀ index otherFile otherNo,
      (w.bufMgr.setDesc frame desc).Holds index otherFile otherNo ↔
        w.bufMgr.Holds index otherFile otherNo := by
    intro index otherFile otherNo
    by_cases here : index = frame
    · subst here
      obtain ⟨bound, wasValid, rfl, rfl⟩ := holds
      simp [BufMgr.Holds, valid, wasValid, sameFile, samePage]
    · simp [BufMgr.Holds, other index here]
  refine ⟨⟨healthy.reliable, ⟨healthy.files.apart, healthy.files.formed⟩, ?_, ?_, ?_, ?_⟩,
    healthy.residency.set_desc holds desc valid sameFile samePage⟩
  · exact fun index otherFile otherNo use held =>
      healthy.held index otherFile otherNo use ((holdsIff _ _ _).mp held)
  · intro index bound
    rw [set_pool_pool]
    by_cases here : index = frame
    · subst here
      rw [set_desc_self]
      exact pinned
    · rw [other index here, healthy.pinned index bound, pinnedOther index here]
  · exact fun pin member => ⟨(holdsIff _ _ _).mpr (heldBy pin member), trivial⟩
  · intro index otherFile otherNo use held undirtied settled
    rw [set_pool_pool] at undirtied
    have was := (holdsIff _ _ _).mp held
    by_cases here : index = frame
    · subst here
      rw [set_desc_self] at undirtied
      obtain ⟨wasClean, wasSettled⟩ := clean undirtied settled
      exact healthy.clean index otherFile otherNo use was wasClean wasSettled
    · rw [other index here] at undirtied
      exact healthy.clean index otherFile otherNo use was undirtied
        (settledOther index here settled)

theorem view_set_desc (w : World) (frame : Nat) (desc : BufDesc) (file : FilePtr) (pageNo : Int) :
    (w.setPool (w.bufMgr.setDesc frame desc)).view file pageNo = w.view file pageNo := rfl

theorem read_page_spec (healthy : w.Healthy pins) (page : w.HasPage file pageNo) :
    (∃ w', BufMgr.readPage file pageNo w = (.err .BUFFEREXCEEDED, w') ∧ w'.Healthy pins ∧
        Steady w w' ∧ SameView w w' ∧ w.Exhausted ∧
        w.bufMgr.hashTable.lookup file pageNo = none) ∨
      ∃ frame w', BufMgr.readPage file pageNo w = (.ok frame, w') ∧
        w'.Healthy ({ file, pageNo, frame, owed := false } :: pins) ∧ Steady w w' ∧
        SameView w w' := by
  cases found : w.bufMgr.hashTable.lookup file pageNo with
  | some frame =>
      right
      have holds := (healthy.residency.mapped _ _ _).mp found
      refine ⟨frame, _, read_page_hit w file pageNo frame found, ?_, steady_set_pool w rfl,
        fun _ _ _ => view_set_desc w _ _ _ _⟩
      refine healthy.set_desc holds _ holds.2.1 holds.2.2.1 holds.2.2.2 ?_ ?_ ?_ ?_ ?_
      · dsimp only
        rw [pins_on_cons, healthy.pinned frame holds.1]
        simp
      · intro other apartFrom
        rw [pins_on_cons]
        simp [Ne.symm apartFrom]
      · intro pin member
        rcases List.mem_cons.mp member with rfl | member
        · exact holds
        · exact (healthy.held_by pin member).1
      · exact fun clean settled => ⟨clean, fun pin member => settled pin (by simp [member])⟩
      · exact fun _ _ settled pin member => settled pin (by simp [member])
  | none =>
      rw [read_page_miss w file pageNo found]
      rcases alloc_buf_spec healthy with ⟨w₁, run, healthy₁, steady, view₁, _, pinned⟩ |
        ⟨frame, w₁, run, vacated, steady, view₁, same⟩
      · exact .inl ⟨w₁, DbM.bind_err run, healthy₁, steady, view₁, pinned, rfl⟩
      · right
        have page₁ := (steady.has_page_iff file pageNo).mpr page
        obtain ⟨contents, opened, allocated⟩ := page₁
        have read := File.read_page_reliable vacated.reliable opened allocated.1 allocated.2.1
        have absent := vacated.residency.absent healthy.residency same found
        obtain ⟨w₂, install, healthy₂, steady₂, _, self, others⟩ :=
          (vacated.set_image (contents.page pageNo.toNat)).install
            ⟨contents, opened, allocated⟩ absent false (fun _ => by
              rw [set_pool_pool, set_image_self]
              exact (disk_page_of_open opened pageNo).symm)
        have loaded : Steady w₁
            (w₁.setPool (w₁.bufMgr.setImage frame (contents.page pageNo.toNat))) :=
          steady_set_pool w₁ rfl
        refine ⟨frame, w₂, ?_, healthy₂, (steady.trans loaded).trans steady₂, ?_⟩
        · rw [DbM.bind_ok run, DbM.bind_ok read, DbM.modify_pool_bind]
          exact install
        · intro other otherNo otherPage
          rw [← view₁ other otherNo otherPage]
          by_cases here : (other, otherNo) = (file, pageNo)
          · obtain ⟨rfl, rfl⟩ := Prod.mk.inj here
            rw [self, set_pool_pool, set_image_self]
            simp only [view, absent, disk_page_of_open opened]
          · rw [others other otherNo here]
            exact vacated.view_set_image _ other otherNo

/-- A client that lets go of a pin, and reports its change if it owes one. -/
theorem un_pin_page_spec {pin : Pin} (healthy : w.Healthy (pin :: pins)) (dirty : Bool)
    (reports : pin.owed = true → dirty = true) :
    ∃ w', BufMgr.unPinPage pin.file pin.pageNo dirty w = (.ok (), w') ∧ w'.Healthy pins ∧
      Steady w w' ∧ SameView w w' := by
  have found := healthy.lookup_of_pin (List.mem_cons_self)
  have holds := (healthy.held_by pin (List.mem_cons_self)).1
  have count := healthy.pinned pin.frame holds.1
  rw [pins_on_cons, if_pos rfl] at count
  have equation := un_pin_page_hit w pin.file pin.pageNo dirty pin.frame found
  dsimp only at equation
  rw [if_neg (by omega)] at equation
  refine ⟨_, equation, ?_, steady_set_pool w rfl, fun _ _ _ => view_set_desc w _ _ _ _⟩
  refine healthy.set_desc holds _ holds.2.1 holds.2.2.1 holds.2.2.2 ?_ ?_ ?_ ?_ ?_
  · dsimp only
    omega
  · intro other apartFrom
    rw [pins_on_cons]
    simp [Ne.symm apartFrom]
  · exact fun other member => (healthy.held_by other (by simp [member])).1
  · intro clean settled
    simp only [Bool.or_eq_false_iff] at clean
    refine ⟨clean.1, ?_⟩
    intro other member here
    rcases List.mem_cons.mp member with rfl | member
    · by_contra owes
      have := reports (by simpa using owes)
      rw [clean.2] at this
      cases this
    · exact settled other member here
  · intro other apartFrom settled pin' member here
    rcases List.mem_cons.mp member with rfl | member
    · exact absurd here (Ne.symm apartFrom)
    · exact settled pin' member here

theorem un_pin_page_refused (healthy : w.Healthy pins) (dirty : Bool)
    (nobody : ∀ pin ∈ pins, (pin.file, pin.pageNo) ≠ (file, pageNo)) :
    ∃ status w', BufMgr.unPinPage file pageNo dirty w = (.err status, w') ∧
      (status = .HASHNOTFOUND ∨ status = .PAGENOTPINNED) ∧ w'.Healthy pins ∧
      Steady w w' ∧ SameView w w' := by
  cases found : w.bufMgr.hashTable.lookup file pageNo with
  | none =>
      refine ⟨.HASHNOTFOUND, w, ?_, .inl rfl, healthy, .refl w, fun _ _ _ => rfl⟩
      simp [BufMgr.unPinPage, DbM.read_bind, found, DbM.fail]
  | some frame =>
      have holds := (healthy.residency.mapped _ _ _).mp found
      have unpinned : (w.bufMgr.bufTable frame).pinCnt = 0 := by
        rw [healthy.pinned frame holds.1, pinsOn, List.countP_eq_zero]
        intro pin member here
        have held := (healthy.held_by pin member).1
        simp only [decide_eq_true_eq] at here
        rw [here] at held
        exact nobody pin member (by rw [← held.2.2.1, ← held.2.2.2, holds.2.2.1, holds.2.2.2])
      have equation := un_pin_page_hit w file pageNo dirty frame found
      dsimp only at equation
      rw [if_pos unpinned] at equation
      refine ⟨.PAGENOTPINNED, _, equation, .inr rfl, ?_, steady_set_pool w rfl,
        fun _ _ _ => view_set_desc w _ _ _ _⟩
      refine healthy.set_desc holds _ holds.2.1 holds.2.2.1 holds.2.2.2
        (healthy.pinned frame holds.1) (fun _ _ => rfl)
        (fun pin member => (healthy.held_by pin member).1) ?_ (fun _ _ settled => settled)
      intro clean settled
      simp only [Bool.or_eq_false_iff] at clean
      exact ⟨clean.1, settled⟩

def storeImage (w : World) (frame : Nat) (image : PageImage) : World :=
  w.setPool (w.bufMgr.setImage frame image)

theorem store_image_steady (w : World) (frame : Nat) (image : PageImage) :
    Steady w (w.storeImage frame image) :=
  steady_set_pool w rfl

theorem Healthy.store_image (healthy : w.Healthy pins) {pin : Pin} (member : pin ∈ pins)
    (owes : pin.owed = true) (image : PageImage) :
    (w.storeImage pin.frame image).Healthy pins where
  reliable := healthy.reliable
  files := ⟨healthy.files.apart, healthy.files.formed⟩
  held := healthy.held
  pinned := healthy.pinned
  held_by := healthy.held_by
  clean := by
    intro frame file pageNo use holds clean settled
    have apartFrom : frame ≠ pin.frame := by
      rintro rfl
      rw [settled pin member rfl] at owes
      cases owes
    simp only [storeImage, set_pool_pool]
    rw [set_image_other _ _ _ apartFrom]
    exact healthy.clean frame file pageNo use holds clean settled
  residency := ⟨healthy.residency.hand, healthy.residency.distinct, healthy.residency.mapped,
    healthy.residency.free⟩

theorem Healthy.view_store_image (healthy : w.Healthy pins) {pin : Pin} (member : pin ∈ pins)
    (image : PageImage) (file : FilePtr) (pageNo : Int) :
    (w.storeImage pin.frame image).view file pageNo =
      if (file, pageNo) = (pin.file, pin.pageNo) then image else w.view file pageNo := by
  have holds := (healthy.held_by pin member).1
  simp only [storeImage, view, set_pool_pool, set_image_hash_table]
  split_ifs with same
  · obtain ⟨rfl, rfl⟩ := Prod.mk.inj same
    simp [healthy.lookup_of_pin member]
  · cases found : w.bufMgr.hashTable.lookup file pageNo with
    | none => rfl
    | some frame =>
        have apartFrom : frame ≠ pin.frame := by
          rintro rfl
          have held := (healthy.residency.mapped _ _ _).mp found
          exact same (by rw [← held.2.2.1, ← held.2.2.2, holds.2.2.1, holds.2.2.2])
        exact set_image_other _ _ _ apartFrom

section Grow

variable {object : File} {contents after : UnixFile}

theorem has_page_grow (live : w.files file = some object) (openFd : object.unixFile = true)
    (stored : w.disk object.fileName = some contents) (grows : contents.Grows after pageNo)
    (sound : w.FilesSound) (other : FilePtr) (otherNo : Int) :
    (w.setDisk object.fileName (some after)).HasPage other otherNo ↔
      (other, otherNo) = (file, pageNo) ∨ w.HasPage other otherNo := by
  have opened : w.unixFile file = some contents := by
    simp [World.unixFile, live, openFd, stored]
  have opened' := unix_file_set_disk live openFd after
  by_cases same : other = file
  · subst same
    simp only [HasPage, opened, opened', Option.some.injEq, exists_eq_left', grows.allocated,
      Prod.mk.injEq, true_and]
  · have untouched : (w.setDisk object.fileName (some after)).unixFile other =
        w.unixFile other := by
      simp only [World.unixFile, setDisk]
      cases otherLive : w.files other with
      | none => rfl
      | some otherObject =>
          dsimp only
          split_ifs with otherFd
          · have different : otherObject.fileName ≠ object.fileName :=
              fun equal => same (sound.apart other file otherObject object otherLive live
                otherFd openFd equal)
            exact Function.update_of_ne different _ _
          · rfl
    simp only [HasPage, untouched, Prod.mk.injEq, same, false_and, false_or]

theorem disk_page_grow (stored : w.disk object.fileName = some contents)
    (grows : contents.Grows after pageNo) {other : FilePtr} {otherNo : Int}
    (page : w.HasPage other otherNo) :
    (w.setDisk object.fileName (some after)).diskPage other otherNo =
      w.diskPage other otherNo := by
  obtain ⟨otherContents, otherOpened, otherAllocated⟩ := page
  obtain ⟨otherObject, otherLive, otherFd, otherStored⟩ := unix_file_live otherOpened
  by_cases same : otherObject.fileName = object.fileName
  · rw [same, stored] at otherStored
    obtain rfl := Option.some.inj otherStored
    have opened' : (w.setDisk object.fileName (some after)).unixFile other = some after := by
      rw [← same]
      exact unix_file_set_disk otherLive otherFd after
    have inside := otherAllocated
    obtain ⟨lower, upper, _⟩ := inside
    rw [disk_page_of_open opened', disk_page_of_open otherOpened]
    refine grows.kept otherNo.toNat (by omega) (by omega) ?_
    intro equal
    have : otherNo = pageNo := by omega
    exact grows.fresh (this ▸ otherAllocated)
  · have opened' : (w.setDisk object.fileName (some after)).unixFile other =
        some otherContents := by
      simp [World.unixFile, setDisk, otherLive, otherFd, same, otherStored]
    rw [disk_page_of_open opened', disk_page_of_open otherOpened]

theorem Healthy.grow (healthy : w.Healthy pins) (live : w.files file = some object)
    (openFd : object.unixFile = true) (stored : w.disk object.fileName = some contents)
    (grows : contents.Grows after pageNo) :
    (w.setDisk object.fileName (some after)).Healthy pins where
  reliable := healthy.reliable
  files := by
    refine ⟨healthy.files.apart, ?_⟩
    intro other otherContents otherOpened
    obtain ⟨otherObject, otherLive, otherFd, otherStored⟩ := unix_file_live otherOpened
    by_cases same : otherObject.fileName = object.fileName
    · simp only [setDisk, same, Function.update_self, Option.some.injEq] at otherStored
      subst otherStored
      obtain ⟨_, _, free, list, _⟩ := (grows.allocated pageNo).mpr (.inl rfl)
      exact ⟨free, list⟩
    · have otherOpened' : w.unixFile other = some otherContents := by
        simp only [setDisk, Function.update_of_ne same] at otherStored otherLive
        simp [World.unixFile, otherLive, otherFd, otherStored]
      exact healthy.files.formed other otherContents otherOpened'
  held := by
    intro frame other otherNo use holds
    rw [has_page_grow live openFd stored grows healthy.files]
    exact .inr (healthy.held frame other otherNo use holds)
  pinned := healthy.pinned
  held_by := healthy.held_by
  clean := by
    intro frame other otherNo use holds clean settled
    rw [disk_page_grow stored grows (healthy.held frame other otherNo use holds)]
    exact healthy.clean frame other otherNo use holds clean settled
  residency := healthy.residency

theorem view_grow (stored : w.disk object.fileName = some contents)
    (grows : contents.Grows after pageNo) :
    SameView w (w.setDisk object.fileName (some after)) := by
  intro other otherNo page
  simp only [view]
  rw [disk_page_grow stored grows page]
  rfl

theorem Healthy.lookup_fresh (healthy : w.Healthy pins) (live : w.files file = some object)
    (openFd : object.unixFile = true) (stored : w.disk object.fileName = some contents)
    (grows : contents.Grows after pageNo) :
    w.bufMgr.hashTable.lookup file pageNo = none := by
  cases found : w.bufMgr.hashTable.lookup file pageNo with
  | none => rfl
  | some frame =>
      have holds := (healthy.residency.mapped _ _ _).mp found
      obtain ⟨contents', opened, allocated⟩ := healthy.held frame file pageNo trivial holds
      simp only [World.unixFile, live, openFd, if_true, stored, Option.some.injEq] at opened
      subst opened
      exact absurd allocated grows.fresh

end Grow

/-- `allocPage` adds a page to the file in any case; it returns it, pinned, if
there is a frame for it. -/
theorem alloc_page_spec {object : File} {contents : UnixFile} (healthy : w.Healthy pins)
    (live : w.files file = some object) (openFd : object.unixFile = true)
    (stored : w.disk object.fileName = some contents) :
    ∃ pageNo after, contents.Grows after pageNo ∧
      ((∃ w', BufMgr.allocPage file w = (.err .BUFFEREXCEEDED, w') ∧ w'.Healthy pins ∧
          Steady (w.setDisk object.fileName (some after)) w' ∧
          SameView (w.setDisk object.fileName (some after)) w' ∧ w.Exhausted ∧
          w'.bufMgr.hashTable.lookup file pageNo = none) ∨
        ∃ frame w', BufMgr.allocPage file w = (.ok (pageNo, frame), w') ∧
          w'.Healthy ({ file, pageNo, frame, owed := true } :: pins) ∧
          Steady (w.setDisk object.fileName (some after)) w' ∧ SameView w w') := by
  have opened : w.unixFile file = some contents := by
    simp [World.unixFile, live, openFd, stored]
  obtain ⟨free, list⟩ := healthy.files.formed file contents opened
  obtain ⟨pageNo, after, grows, allocate⟩ :=
    File.allocate_page_spec healthy.reliable live openFd stored list
  refine ⟨pageNo, after, grows, ?_⟩
  have grown := healthy.grow live openFd stored grows
  have viewGrown := view_grow stored grows
  have pages := has_page_grow live openFd stored grows healthy.files
  have absent : (w.setDisk object.fileName (some after)).bufMgr.hashTable.lookup file pageNo =
      none := healthy.lookup_fresh live openFd stored grows
  unfold BufMgr.allocPage
  rw [DbM.bind_ok allocate]
  rcases alloc_buf_spec grown with ⟨w₁, run, healthy₁, steady, view₁, same, pinned⟩ |
    ⟨frame, w₁, run, vacated, steady, view₁, same⟩
  · refine .inl ⟨w₁, DbM.bind_err run, healthy₁, steady, view₁, pinned, ?_⟩
    cases found : w₁.bufMgr.hashTable.lookup file pageNo with
    | none => rfl
    | some frame =>
        have holds := (same.holds_iff _ _ _).mp ((healthy₁.residency.mapped _ _ _).mp found)
        rw [(grown.residency.mapped _ _ _).mpr holds] at absent
        cases absent
  · right
    have page := (steady.has_page_iff file pageNo).mpr ((pages file pageNo).mpr (.inl rfl))
    obtain ⟨w₂, install, healthy₂, steady₂, _, _, others⟩ := vacated.install page
      (vacated.residency.absent grown.residency same absent) true (fun clean => by cases clean)
    refine ⟨frame, w₂, ?_, healthy₂, steady.trans steady₂, ?_⟩
    · rw [DbM.bind_ok run, DbM.bind_ok install]
      rfl
    · intro other otherNo otherPage
      have different : (other, otherNo) ≠ (file, pageNo) := by
        intro equal
        obtain ⟨rfl, rfl⟩ := Prod.mk.inj equal
        obtain ⟨contents', opened', allocated⟩ := otherPage
        rw [opened] at opened'
        obtain rfl := Option.some.inj opened'
        exact grows.fresh allocated
      rw [others other otherNo different,
        view₁ other otherNo ((pages other otherNo).mpr (.inr otherPage)),
        viewGrown other otherNo otherPage]

theorem Healthy.release (healthy : w.Healthy pins) (holds : w.bufMgr.Holds frame file pageNo)
    (unpinned : (w.bufMgr.bufTable frame).pinCnt = 0) (reliable : w'.Reliable)
    (steady : Steady w w')
    (stored : w'.diskPage file pageNo = w.bufMgr.bufPool frame)
    (others : ∀ other otherNo, w.HasPage other otherNo → (other, otherNo) ≠ (file, pageNo) →
      w'.diskPage other otherNo = w.diskPage other otherNo) :
    let released := releaseFrame file frame (w.bufMgr.bufTable frame) w.bufMgr
    (w'.setPool released).Healthy pins ∧ SameView w (w'.setPool released) ∧
      ∀ other, other ≠ frame → released.bufTable other = w.bufMgr.bufTable other := by
  obtain ⟨bound, valid, rfl, rfl⟩ := holds
  have holds : w.bufMgr.Holds frame (w.bufMgr.bufTable frame).file
    (w.bufMgr.bufTable frame).pageNo := ⟨bound, valid, rfl, rfl⟩
  set file := (w.bufMgr.bufTable frame).file with fileDef
  set pageNo := (w.bufMgr.bufTable frame).pageNo with pageDef
  set released := releaseFrame file frame (w.bufMgr.bufTable frame) w.bufMgr with releasedDef
  have none_ : pinsOn pins frame = 0 := by rw [← healthy.pinned frame bound, unpinned]
  have outside : ∀ pin ∈ pins, pin.frame ≠ frame := by
    intro pin member here
    have absent := List.countP_eq_zero.mp none_ pin member
    simp [here] at absent
  have kept : ∀ other, other ≠ frame → released.bufTable other = w.bufMgr.bufTable other := by
    intro other apartFrom
    simp [releasedDef, releaseFrame, BufMgr.setDesc, BufMgr.removeEntry,
      Function.update_of_ne apartFrom]
  have self : (released.bufTable frame).valid = false ∧ (released.bufTable frame).pinCnt = 0 := by
    simp [releasedDef, releaseFrame, unpinned]
  have residency : released.Residency := healthy.residency.release holds
    { w.bufMgr.bufTable frame with dirty := false, file := 0, pageNo := -1, valid := false }
    rfl rfl rfl unpinned
  have holdsIff : ∀ other otherFile otherNo, released.Holds other otherFile otherNo ↔
      w.bufMgr.Holds other otherFile otherNo ∧ other ≠ frame := by
    intro other otherFile otherNo
    by_cases here : other = frame
    · subst here
      simp [BufMgr.Holds, self.1]
    · simp only [BufMgr.Holds, kept other here, ne_eq, here, not_false_eq_true, and_true]
      rfl
  have different : ∀ other otherFile otherNo, other ≠ frame →
      w.bufMgr.Holds other otherFile otherNo → (otherFile, otherNo) ≠ (file, pageNo) := by
    intro other otherFile otherNo apartFrom otherHolds equal
    obtain ⟨rfl, rfl⟩ := Prod.mk.inj equal
    exact apartFrom (healthy.residency.holds_unique otherHolds holds)
  have pages : ∀ other otherNo,
      (w'.setPool released).HasPage other otherNo ↔ w.HasPage other otherNo :=
    steady.has_page_iff
  have disks : ∀ other otherNo,
      (w'.setPool released).diskPage other otherNo = w'.diskPage other otherNo := fun _ _ => rfl
  refine ⟨⟨⟨reliable, ?_, ?_, ?_, ?_, ?_⟩, residency⟩, ?_, kept⟩
  · have sound := steady.files_sound healthy.files
    exact ⟨sound.apart, sound.formed⟩
  · intro other otherFile otherNo use otherHolds
    rw [pages]
    exact healthy.held other otherFile otherNo use ((holdsIff _ _ _).mp otherHolds).1
  · intro other otherBound
    rw [set_pool_pool]
    by_cases here : other = frame
    · subst here
      rw [self.2, none_]
    · rw [kept other here]
      exact healthy.pinned other otherBound
  · exact fun pin member => ⟨(holdsIff _ _ _).mpr
      ⟨(healthy.held_by pin member).1, outside pin member⟩, trivial⟩
  · intro other otherFile otherNo use otherHolds clean settled
    obtain ⟨held, apartFrom⟩ := (holdsIff _ _ _).mp otherHolds
    rw [set_pool_pool, kept other apartFrom] at clean
    rw [disks, others otherFile otherNo (healthy.held _ _ _ trivial held)
      (different other otherFile otherNo apartFrom held)]
    exact healthy.clean other otherFile otherNo use held clean settled
  · intro otherFile otherNo page
    by_cases here : (otherFile, otherNo) = (file, pageNo)
    · have before := (healthy.residency.mapped file pageNo frame).mpr holds
      have after : released.hashTable.lookup file pageNo = none := by
        cases found : released.hashTable.lookup file pageNo with
        | none => rfl
        | some other =>
            obtain ⟨held, apartFrom⟩ := (holdsIff _ _ _).mp ((residency.mapped _ _ _).mp found)
            exact absurd rfl (different other _ _ apartFrom held)
      obtain ⟨rfl, rfl⟩ := Prod.mk.inj here
      simp only [view, set_pool_pool, before, after, disks, stored]
    · have lookups : released.hashTable.lookup otherFile otherNo =
          w.bufMgr.hashTable.lookup otherFile otherNo := by
        refine Option.ext fun other => ?_
        rw [residency.mapped, healthy.residency.mapped, holdsIff]
        constructor
        · exact And.left
        · intro otherHolds
          refine ⟨otherHolds, ?_⟩
          rintro rfl
          exact here (by rw [← otherHolds.2.2.1, ← otherHolds.2.2.2])
      simp only [view, set_pool_pool, lookups, disks, others otherFile otherNo page here]
      rfl

theorem flush_frame_spec (healthy : w.Healthy pins) (file : FilePtr)
    (bound : frame < w.bufMgr.numBufs) :
    ∃ outcome w', flushFrame file frame w = (outcome, w') ∧ w'.Healthy pins ∧ Steady w w' ∧
      SameView w w' ∧
      (∀ other, other ≠ frame → w'.bufMgr.bufTable other = w.bufMgr.bufTable other) ∧
      ((outcome = .ok () ∧ ∀ pageNo, ¬w'.bufMgr.Holds frame file pageNo) ∨
        ∃ status, outcome = .err status ∧
          (file = 0 ∨ ∃ pin ∈ pins, pin.file = file)) := by
  by_cases mine : (w.bufMgr.bufTable frame).file = file
  · by_cases valid : (w.bufMgr.bufTable frame).valid = true
    · have holds : w.bufMgr.Holds frame file (w.bufMgr.bufTable frame).pageNo :=
        ⟨bound, valid, mine, rfl⟩
      by_cases unpinned : (w.bufMgr.bufTable frame).pinCnt = 0
      · have run := flush_frame_unpinned w file frame ⟨valid, mine⟩ unpinned
        have gone : ∀ w₁ : World, ∀ pageNo, ¬(w₁.setPool (releaseFrame file frame
            (w.bufMgr.bufTable frame) w.bufMgr)).bufMgr.Holds frame file pageNo := by
          rintro w₁ pageNo ⟨_, valid', _⟩
          simp [releaseFrame] at valid'
        by_cases dirty : (w.bufMgr.bufTable frame).dirty = true
        · obtain ⟨w₁, write, pool, reliable, steady, stored, others⟩ :=
            write_back_spec healthy.reliable healthy.files
              (healthy.held _ _ _ trivial holds) (w.bufMgr.bufPool frame)
          rw [if_pos dirty, DbM.bind_ok write] at run
          obtain ⟨healthy', view', kept⟩ :=
            healthy.release holds unpinned reliable steady stored others
          refine ⟨_, w₁.setPool (releaseFrame file frame (w.bufMgr.bufTable frame) w.bufMgr), ?_,
            healthy', ?_, view', kept, .inl ⟨rfl, gone w₁⟩⟩
          · rw [run]
            simp only [DbM.modifyPool, DbM.modify, pool]
          · exact steady.trans (steady_set_pool w₁ (by rw [pool]; rfl))
        · rw [if_neg dirty] at run
          have settled : Settled pins frame := settled_of_no_pins (by
            rw [← healthy.pinned frame bound, unpinned])
          have clean := healthy.clean frame _ _ trivial holds (by simpa using dirty) settled
          obtain ⟨healthy', view', kept⟩ := healthy.release holds unpinned
            healthy.reliable (.refl w) clean.symm (fun _ _ _ _ => rfl)
          exact ⟨_, _, run, healthy', steady_set_pool w rfl, view', kept, .inl ⟨rfl, gone w⟩⟩
      · refine ⟨_, w, flush_frame_pinned w file frame ⟨valid, mine⟩ (by omega), healthy, .refl w,
          fun _ _ _ => rfl, fun _ _ => rfl, .inr ⟨_, rfl, .inr ?_⟩⟩
        rw [healthy.pinned frame bound] at unpinned
        obtain ⟨pin, member, here⟩ := List.countP_pos_iff.mp (Nat.pos_of_ne_zero unpinned)
        simp only [decide_eq_true_eq] at here
        refine ⟨pin, member, ?_⟩
        have held := (healthy.held_by pin member).1
        rw [← held.2.2.1, here, mine]
    · have unused := healthy.residency.free frame bound (by simpa using valid)
      have run : flushFrame file frame w = (.err .BADBUFFER, w) := by
        simp only [flushFrame, DbM.read_bind]
        rw [if_neg (fun both => valid both.1), if_pos ⟨valid, mine⟩]
        rfl
      exact ⟨_, w, run, healthy, .refl w, fun _ _ _ => rfl, fun _ _ => rfl,
        .inr ⟨_, rfl, .inl (mine.symm.trans unused.1)⟩⟩
  · exact ⟨_, w, flush_frame_other w file frame mine, healthy, .refl w, fun _ _ _ => rfl,
      fun _ _ => rfl, .inl ⟨rfl, fun _ holds => mine holds.2.2.1⟩⟩

theorem flush_frames_spec (healthy : w.Healthy pins) (file : FilePtr) (frames : List Nat)
    (bound : ∀ frame ∈ frames, frame < w.bufMgr.numBufs) :
    ∃ outcome w', flushFrames file frames w = (outcome, w') ∧ w'.Healthy pins ∧ Steady w w' ∧
      SameView w w' ∧
      (∀ other, other ∉ frames → w'.bufMgr.bufTable other = w.bufMgr.bufTable other) ∧
      ((outcome = .ok () ∧ ∀ frame ∈ frames, ∀ pageNo, ¬w'.bufMgr.Holds frame file pageNo) ∨
        ∃ status, outcome = .err status ∧
          (file = 0 ∨ ∃ pin ∈ pins, pin.file = file)) := by
  induction frames generalizing w with
  | nil =>
      exact ⟨_, w, rfl, healthy, .refl w, fun _ _ _ => rfl, fun _ _ => rfl, .inl ⟨rfl, by simp⟩⟩
  | cons frame rest ih =>
      obtain ⟨outcome, w₁, run, healthy₁, steady₁, view₁, kept₁, result⟩ :=
        flush_frame_spec healthy file (bound frame (by simp))
      rcases result with ⟨rfl, gone⟩ | ⟨status, rfl, why⟩
      · obtain ⟨outcome', w₂, run', healthy₂, steady₂, view₂, kept₂, result'⟩ := ih healthy₁
          (fun other member => by rw [steady₁.numBufs]; exact bound other (by simp [member]))
        refine ⟨outcome', w₂, ?_, healthy₂, steady₁.trans steady₂,
          SameView.trans steady₁ view₁ view₂, ?_, ?_⟩
        · rw [flushFrames, DbM.bind_ok run]
          exact run'
        · intro other outside
          simp only [List.mem_cons, not_or] at outside
          rw [kept₂ other outside.2, kept₁ other outside.1]
        · rcases result' with ⟨rfl, gone'⟩ | failed
          · refine .inl ⟨rfl, ?_⟩
            intro other member pageNo
            by_cases later : other ∈ rest
            · exact gone' other later pageNo
            · obtain rfl : other = frame := by
                rcases List.mem_cons.mp member with same | later'
                · exact same
                · exact absurd later' later
              intro holds
              refine gone pageNo ?_
              rw [BufMgr.Holds, kept₂ other later, steady₂.numBufs] at holds
              exact holds
          · exact .inr failed
      · refine ⟨_, w₁, ?_, healthy₁, steady₁, view₁, ?_, .inr ⟨status, rfl, why⟩⟩
        · rw [flushFrames, DbM.bind_err run]
        · intro other outside
          simp only [List.mem_cons, not_or] at outside
          exact kept₁ other outside.1

/-- `flushFile` is refused only for a page of the file that is pinned (or a null
file); when it succeeds the pool has let go of the file and the disk has its pages. -/
theorem flush_file_spec (healthy : w.Healthy pins) (file : FilePtr) :
    ∃ outcome w', BufMgr.flushFile file w = (outcome, w') ∧ w'.Healthy pins ∧ Steady w w' ∧
      SameView w w' ∧
      ((outcome = .ok () ∧ (∀ frame pageNo, ¬w'.bufMgr.Holds frame file pageNo) ∧
          ∀ pageNo, w.HasPage file pageNo →
            w'.diskPage file pageNo = w.view file pageNo) ∨
        ∃ status, outcome = .err status ∧
          (file = 0 ∨ ∃ pin ∈ pins, pin.file = file)) := by
  obtain ⟨outcome, w', run, healthy', steady, view', _, result⟩ :=
    flush_frames_spec healthy file (List.range w.bufMgr.numBufs)
      (fun _ member => List.mem_range.mp member)
  refine ⟨outcome, w', run, healthy', steady, view', ?_⟩
  rcases result with ⟨done, gone⟩ | failed
  · have none_ : ∀ frame pageNo, ¬w'.bufMgr.Holds frame file pageNo := by
      intro frame pageNo holds
      refine gone frame (List.mem_range.mpr ?_) pageNo holds
      rw [← steady.numBufs]
      exact holds.1
    refine .inl ⟨done, none_, ?_⟩
    intro pageNo page
    rw [← view' file pageNo page]
    have absent : w'.bufMgr.hashTable.lookup file pageNo = none := by
      cases found : w'.bufMgr.hashTable.lookup file pageNo with
      | none => rfl
      | some frame => exact absurd ((healthy'.residency.mapped _ _ _).mp found) (none_ _ _)
    simp only [view, absent]
  · exact .inr failed

end PrimitiveDB.World

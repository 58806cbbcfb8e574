import PrimitiveDB.SlottedPageLayout

/-!
# The slotted page is a finite map

`WellFormed` is the invariant of a page: the live records tile `[0, freePtr)`,
`freeSpace` accounts for every byte, and the slot array ends with a live slot.
`insertRecord` and `deleteRecord` keep it, and through `record` they are the
insertion and the removal of one key of a finite map from slot numbers to
bytes. Everything above the page layer uses only the two `_spec` theorems.
-/

namespace PrimitiveDB.Page

open ByteMemory

set_option autoImplicit false

/-- `slot` holds a record: the test that `getRecord` and `deleteRecord` make. -/
def Live (page : Page) (number : Nat) : Prop :=
  number < page.slotCount ∧ 0 < (page.slotAt number).length

instance (page : Page) (number : Nat) : Decidable (page.Live number) :=
  inferInstanceAs (Decidable (_ ∧ _))

/-- Byte `byte` of `data` belongs to the record of slot `number`. -/
def Covers (page : Page) (number : Nat) (byte : Int) : Prop :=
  page.Live number ∧ (page.slotAt number).offset ≤ byte ∧
    byte < (page.slotAt number).offset + (page.slotAt number).length

structure WellFormed (page : Page) : Prop where
  slotCnt_nonpos : page.slotCnt ≤ 0
  freePtr_nonneg : 0 ≤ page.freePtr
  freeSpace_nonneg : 0 ≤ page.freeSpace
  space : page.freeSpace = 1004 - page.freePtr - 4 * page.slotCount
  entry : ∀ number, number < page.slotCount →
    ((page.slotAt number).length = -1 ∧ (page.slotAt number).offset = 0) ∨
      (0 < (page.slotAt number).length ∧ 0 ≤ (page.slotAt number).offset ∧
        (page.slotAt number).offset + (page.slotAt number).length ≤ page.freePtr)
  tiled : ∀ byte, 0 ≤ byte → byte < page.freePtr → ∃! number, page.Covers number byte
  last : 0 < page.slotCount → page.Live (page.slotCount - 1)

/-- The contents of slot `number`: the abstract value of the page. -/
def record (page : Page) (number : Nat) : Option Record :=
  if page.Live number then
    some (readBytes page.data (page.slotAt number).offset.toNat
      (page.slotAt number).length.toNat)
  else none

theorem record_is_some_iff (page : Page) (number : Nat) :
    (page.record number).isSome ↔ page.Live number := by
  unfold record
  split_ifs with live <;> simp [live]

theorem record_congr {left right : Page} {number other : Nat}
    (live : left.Live number ↔ right.Live other)
    (bytes : left.Live number →
      readBytes left.data (left.slotAt number).offset.toNat (left.slotAt number).length.toNat =
        readBytes right.data (right.slotAt other).offset.toNat
          (right.slotAt other).length.toNat) :
    left.record number = right.record other := by
  unfold record
  by_cases alive : left.Live number
  · rw [if_pos alive, if_pos (live.mp alive), bytes alive]
  · rw [if_neg alive, if_neg (fun other => alive (live.mpr other))]

section WellFormedPage

variable {page : Page}

theorem WellFormed.count (wf : page.WellFormed) : page.slotCnt = -(page.slotCount : Int) := by
  have nonpos := wf.slotCnt_nonpos
  simp only [slotCount]
  omega

theorem WellFormed.count_le (wf : page.WellFormed) : page.slotCount ≤ MAXSLOTS := by
  have space := wf.space
  have free := wf.freeSpace_nonneg
  have ptr := wf.freePtr_nonneg
  simp only [MAXSLOTS]
  omega

theorem WellFormed.live_bounds (wf : page.WellFormed) {number : Nat}
    (live : page.Live number) :
    0 < (page.slotAt number).length ∧ 0 ≤ (page.slotAt number).offset ∧
      (page.slotAt number).offset + (page.slotAt number).length ≤ page.freePtr := by
  have positive := live.2
  rcases wf.entry number live.1 with hole | used
  · omega
  · exact used

theorem WellFormed.free_entry (wf : page.WellFormed) {number : Nat}
    (bound : number < page.slotCount) (dead : ¬page.Live number) :
    (page.slotAt number).length = -1 ∧ (page.slotAt number).offset = 0 := by
  rcases wf.entry number bound with hole | used
  · exact hole
  · exact absurd ⟨bound, used.1⟩ dead

theorem WellFormed.live_of_used (wf : page.WellFormed) {number : Nat}
    (bound : number < page.slotCount) (used : (page.slotAt number).length ≠ -1) :
    page.Live number := by
  by_contra dead
  exact used (wf.free_entry bound dead).1

theorem WellFormed.entries_in_range (wf : page.WellFormed) :
    EntriesInRange page page.slotCount := by
  intro number bound
  have space := wf.space
  have free := wf.freeSpace_nonneg
  have ptr := wf.freePtr_nonneg
  rcases wf.entry number bound with hole | used <;> omega

theorem WellFormed.disjoint (wf : page.WellFormed) {first second : Nat}
    (firstLive : page.Live first) (secondLive : page.Live second) (different : first ≠ second) :
    (page.slotAt first).offset + (page.slotAt first).length ≤ (page.slotAt second).offset ∨
      (page.slotAt second).offset + (page.slotAt second).length ≤
        (page.slotAt first).offset := by
  by_contra overlap
  have firstBounds := wf.live_bounds firstLive
  have secondBounds := wf.live_bounds secondLive
  let byte := max (page.slotAt first).offset (page.slotAt second).offset
  obtain ⟨owner, _, unique⟩ := wf.tiled byte (by omega) (by omega)
  have firstOwns := unique first ⟨firstLive, by omega, by omega⟩
  have secondOwns := unique second ⟨secondLive, by omega, by omega⟩
  exact different (firstOwns.trans secondOwns.symm)

theorem WellFormed.empty_of_no_live (wf : page.WellFormed)
    (dead : ∀ number, ¬page.Live number) :
    page.slotCnt = 0 ∧ page.freePtr = 0 ∧ page.freeSpace = DATASIZE := by
  have count : page.slotCount = 0 := by
    by_contra some_
    exact dead _ (wf.last (by omega))
  have ptr : page.freePtr = 0 := by
    by_contra some_
    have nonneg := wf.freePtr_nonneg
    obtain ⟨owner, owned, _⟩ := wf.tiled 0 (by omega) (by omega)
    exact dead owner owned.1
  have slotCnt := wf.count
  have space := wf.space
  simp only [DATASIZE, PAGESIZE, DPFIXED, SLOTSIZE]
  omega

/-- `getRecord` reads the map, whatever page number the RID carries. -/
theorem get_record_eq (nonpos : page.slotCnt ≤ 0) (pageNo : Int) (number : Nat) :
    page.getRecord ⟨pageNo, number⟩ =
      match page.record number with
      | some bytes => .ok bytes
      | none => .error .INVALIDSLOTNO := by
  have bound : -(number : Int) > page.slotCnt ↔ number < page.slotCount := by
    simp only [slotCount]
    omega
  by_cases live : page.Live number
  · simp only [getRecord, record, if_pos live]
    rw [if_pos ⟨bound.mpr live.1, live.2⟩]
    rfl
  · simp only [getRecord, record, if_neg live]
    rw [if_neg (fun both => live ⟨bound.mp both.1, both.2⟩)]

theorem init_well_formed (page : Page) (pageNo : Int) : (page.init pageNo).WellFormed where
  slotCnt_nonpos := le_refl _
  freePtr_nonneg := le_refl _
  freeSpace_nonneg := by simp only [init]; decide
  space := by simp only [init, slotCount]; decide
  entry := by
    intro number bound
    simp [init, slotCount] at bound
  tiled := by
    intro byte lower upper
    simp only [init] at upper
    omega
  last := by
    intro some_
    simp [init, slotCount] at some_

theorem init_record (page : Page) (pageNo : Int) (number : Nat) :
    (page.init pageNo).record number = none := by
  have dead : ¬(page.init pageNo).Live number := by
    rintro ⟨bound, _⟩
    simp [init, slotCount] at bound
  exact if_neg dead

end WellFormedPage

theorem slot_at_set_next_page (page : Page) (pageNo : Int) (number : Nat) :
    (page.setNextPage pageNo).slotAt number = page.slotAt number := by
  rw [slot_at_eq, slot_at_eq]
  rfl

theorem set_next_page_record (page : Page) (pageNo : Int) (number : Nat) :
    (page.setNextPage pageNo).record number = page.record number := by
  simp only [record, Live, slot_at_set_next_page]
  rfl

theorem WellFormed.set_next_page {page : Page} (wf : page.WellFormed) (pageNo : Int) :
    (page.setNextPage pageNo).WellFormed where
  slotCnt_nonpos := wf.slotCnt_nonpos
  freePtr_nonneg := wf.freePtr_nonneg
  freeSpace_nonneg := wf.freeSpace_nonneg
  space := wf.space
  entry := by
    simp only [slot_at_set_next_page]
    exact wf.entry
  tiled := by
    simp only [Covers, Live, slot_at_set_next_page]
    exact wf.tiled
  last := by
    simp only [Live, slot_at_set_next_page]
    exact wf.last

/-- What a successful `insertRecord` leaves behind: slot `number` is new, the
rest of the page is where it was. -/
structure InsertLayout (before after : Page) (rec : Record) (number : Nat) : Prop where
  slotCnt : after.slotCnt = -((max before.slotCount (number + 1) : Nat) : Int)
  freePtr : after.freePtr = before.freePtr + rec.length
  freeSpace : after.freeSpace = 1004 - after.freePtr -
    4 * ((max before.slotCount (number + 1) : Nat) : Int)
  nextPage : after.nextPage = before.nextPage
  curPage : after.curPage = before.curPage
  lowest : ∀ other, other < number → before.Live other
  fresh : ¬before.Live number
  bound : number ≤ before.slotCount
  target : after.slotAt number = { offset := before.freePtr, length := rec.length }
  others : ∀ other, other < before.slotCount → other ≠ number →
    after.slotAt other = before.slotAt other
  copied : readBytes after.data before.freePtr.toNat rec.length = rec
  bytes : ∀ address : Nat, (address : Int) < before.freePtr →
    after.data address = before.data address

theorem insert_record_layout (page : Page) (wf : page.WellFormed) (rec : Record)
    (fits : (rec.length : Int) + SLOTSIZE ≤ page.freeSpace) :
    ∃ number : Nat, (page.insertRecord rec).1 = .ok ⟨page.curPage, number⟩ ∧
      InsertLayout page (page.insertRecord rec).2 rec number := by
  have count := wf.count
  have countBound := wf.count_le
  have space := wf.space
  have ptr := wf.freePtr_nonneg
  simp only [SLOTSIZE] at fits
  obtain ⟨number, stop, _, upper, used, hole⟩ :=
    empty_slot_from_spec page page.slotCount 0 (by omega) wf.slotCnt_nonpos
  have lowest : ∀ other, other < number → page.Live other := by
    intro other below
    exact wf.live_of_used (by omega) (used other (by omega) below)
  have fresh : ¬page.Live number := by
    intro live
    have empty := hole live.1
    have positive := live.2
    omega
  -- The counters as the two branches leave them.
  let counted : Page := { page with
    freeSpace := 1004 - (page.freePtr + rec.length) -
      4 * ((max page.slotCount (number + 1) : Nat) : Int)
    slotCnt := -((max page.slotCount (number + 1) : Nat) : Int) }
  let slotted := counted.setSlot (-(number : Int)) ⟨page.freePtr, rec.length⟩
  have result : page.insertRecord rec =
      (.ok ⟨page.curPage, number⟩,
        { slotted with
          data := writeBytes slotted.data page.freePtr.toNat rec
          freePtr := page.freePtr + rec.length }) := by
    have start : page.emptySlotFrom (-page.slotCnt).toNat 0 = -(number : Int) := by
      simpa [slotCount] using stop
    have branch : (if -(number : Int) = page.slotCnt then
        { page with
          freeSpace := toShort (page.freeSpace - ((rec.length : Int) + SLOTSIZE))
          slotCnt := toShort (page.slotCnt - 1) }
        else { page with freeSpace := toShort (page.freeSpace - rec.length) }) = counted := by
      simp only [MAXSLOTS] at countBound
      split_ifs with newSlot
      · have atEnd : number = page.slotCount := by omega
        have larger : max page.slotCount (number + 1) = page.slotCount + 1 := by omega
        simp only [counted, larger, SLOTSIZE, Page.mk.injEq, true_and, and_true]
        rw [to_short_of_range (by omega) (by omega), to_short_of_range (by omega) (by omega)]
        push_cast
        omega
      · have inside : number < page.slotCount := by omega
        have same : max page.slotCount (number + 1) = page.slotCount := by omega
        simp only [counted, same, Page.mk.injEq, true_and, and_true]
        rw [to_short_of_range (by omega) (by omega)]
        omega
    have ptr' : toShort (page.freePtr + rec.length) = page.freePtr + rec.length := by
      rw [to_short_of_range (by omega) (by omega)]
    simp only [insertRecord, start, branch, ptr', Int.neg_neg]
    rw [if_neg (by simp only [SLOTSIZE]; omega)]
  have numberBound : number ≤ MAXSLOTS := by omega
  have numberAddress := slot_address_of_number numberBound
  have fields := set_slot_same_fields counted number ⟨page.freePtr, rec.length⟩
  -- The copy stays below every slot entry, old or new.
  have entryAbove : ∀ other, other ≤ page.slotCount → ∀ byte, byte < 4 →
      (writeBytes slotted.data page.freePtr.toNat rec)
        (slotAddress (-(other : Int)) + byte) =
      slotted.data (slotAddress (-(other : Int)) + byte) := by
    intro other otherBound byte inside
    apply write_bytes_outside
    rw [slot_address_of_number (by omega)]
    simp only [MAXSLOTS] at countBound
    omega
  refine ⟨number, by rw [result], ?_⟩
  rw [result]
  refine ⟨fields.slotCnt, rfl, fields.freeSpace, fields.nextPage, fields.curPage,
    lowest, fresh, upper, ?_, ?_, ?_, ?_⟩
  · have target := slot_at_set_same counted number ⟨page.freePtr, rec.length⟩
    dsimp only at target
    rw [to_short_of_range (by omega) (by omega), to_short_of_range (by omega) (by omega)]
      at target
    rw [← target]
    exact slot_at_congr (entryAbove number upper)
  · intro other bound different
    have kept := slot_at_set_other counted number other ⟨page.freePtr, rec.length⟩
      numberBound (by omega) different
    have unchanged : counted.slotAt other = page.slotAt other :=
      slot_at_congr (fun _ _ => rfl)
    rw [← unchanged, ← kept]
    exact slot_at_congr (entryAbove other (by omega))
  · exact read_bytes_write_same _ _ _
  · intro address below
    have copyAbove := write_bytes_outside slotted.data page.freePtr.toNat rec address
      (by omega)
    refine copyAbove.trans (set_slot_data_outside counted number _ address ?_)
    rw [numberAddress]
    simp only [MAXSLOTS] at countBound
    omega

section InsertedPage

variable {before after : Page} {rec : Record} {number : Nat}

theorem InsertLayout.slot_count (layout : InsertLayout before after rec number) :
    after.slotCount = max before.slotCount (number + 1) := by
  have slotCnt := layout.slotCnt
  simp only [slotCount] at *
  omega

theorem InsertLayout.live_iff (layout : InsertLayout before after rec number)
    (nonempty : 1 ≤ rec.length) (other : Nat) :
    after.Live other ↔ other = number ∨ before.Live other := by
  have count := layout.slot_count
  have bound := layout.bound
  by_cases same : other = number
  · subst same
    simp only [Live, layout.target, true_or, iff_true]
    omega
  · simp only [same, false_or, Live]
    constructor
    · rintro ⟨inside, positive⟩
      have below : other < before.slotCount := by omega
      rw [layout.others other below same] at positive
      exact ⟨below, positive⟩
    · rintro ⟨below, positive⟩
      rw [layout.others other below same]
      exact ⟨by omega, positive⟩

theorem InsertLayout.slot_of_live (layout : InsertLayout before after rec number)
    {other : Nat} (live : before.Live other) : after.slotAt other = before.slotAt other :=
  layout.others other live.1 (fun same => layout.fresh (same ▸ live))

/-- The new record owns the bytes from the old `freePtr` on, and every old
record keeps its own. -/
theorem InsertLayout.covers_iff (layout : InsertLayout before after rec number)
    (nonempty : 1 ≤ rec.length) (other : Nat) (byte : Int) :
    after.Covers other byte ↔
      (other = number ∧ before.freePtr ≤ byte ∧ byte < before.freePtr + rec.length) ∨
        before.Covers other byte := by
  have live := layout.live_iff nonempty other
  constructor
  · rintro ⟨alive, lower, upper⟩
    rcases live.mp alive with same | old
    · subst same
      rw [layout.target] at lower upper
      exact .inl ⟨rfl, lower, upper⟩
    · rw [layout.slot_of_live old] at lower upper
      exact .inr ⟨old, lower, upper⟩
  · rintro (⟨same, lower, upper⟩ | ⟨old, lower, upper⟩)
    · subst same
      refine ⟨live.mpr (.inl rfl), ?_⟩
      rw [layout.target]
      exact ⟨lower, upper⟩
    · refine ⟨live.mpr (.inr old), ?_⟩
      rw [layout.slot_of_live old]
      exact ⟨lower, upper⟩

theorem InsertLayout.well_formed (layout : InsertLayout before after rec number)
    (wf : before.WellFormed) (nonempty : 1 ≤ rec.length)
    (fits : (rec.length : Int) + SLOTSIZE ≤ before.freeSpace) : after.WellFormed := by
  have count := layout.slot_count
  have ptr := layout.freePtr
  have ptrNonneg := wf.freePtr_nonneg
  have space := wf.space
  have bound := layout.bound
  simp only [SLOTSIZE] at fits
  refine ⟨by rw [layout.slotCnt]; omega, by omega, ?_, by rw [layout.freeSpace, count],
    ?_, ?_, ?_⟩
  · rw [layout.freeSpace]
    omega
  · intro other inside
    by_cases same : other = number
    · right
      rw [same, layout.target]
      dsimp only
      omega
    · have below : other < before.slotCount := by omega
      rw [layout.others other below same]
      rcases wf.entry other below with hole | used
      · exact .inl hole
      · exact .inr ⟨used.1, used.2.1, by omega⟩
  · intro byte lower upper
    by_cases old : byte < before.freePtr
    · obtain ⟨owner, owns, unique⟩ := wf.tiled byte lower old
      refine ⟨owner, (layout.covers_iff nonempty owner byte).mpr (.inr owns), ?_⟩
      intro other claim
      rcases (layout.covers_iff nonempty other byte).mp claim with new | kept
      · omega
      · exact unique other kept
    · refine ⟨number,
        (layout.covers_iff nonempty number byte).mpr (.inl ⟨rfl, by omega, by omega⟩), ?_⟩
      intro other claim
      rcases (layout.covers_iff nonempty other byte).mp claim with new | kept
      · exact new.1
      · have inside := wf.live_bounds kept.1
        have upper' := kept.2.2
        omega
  · intro _
    rw [layout.live_iff nonempty, count]
    by_cases atEnd : before.slotCount ≤ number
    · left
      omega
    · right
      have same : max before.slotCount (number + 1) = before.slotCount := by omega
      rw [same]
      exact wf.last (by omega)

theorem InsertLayout.record_inserted (layout : InsertLayout before after rec number)
    (nonempty : 1 ≤ rec.length) : after.record number = some rec := by
  have live := (layout.live_iff nonempty number).mpr (.inl rfl)
  simp only [record, if_pos live, layout.target, Int.toNat_natCast]
  rw [layout.copied]

theorem InsertLayout.record_other (layout : InsertLayout before after rec number)
    (wf : before.WellFormed) (nonempty : 1 ≤ rec.length) {other : Nat}
    (different : other ≠ number) : after.record other = before.record other := by
  apply record_congr
  · rw [layout.live_iff nonempty]
    simp [different]
  · intro alive
    have old := ((layout.live_iff nonempty other).mp alive).resolve_left different
    have inside := wf.live_bounds old
    rw [layout.slot_of_live old]
    apply read_bytes_congr
    intro index below
    exact layout.bytes _ (by omega)

end InsertedPage

/-- What a successful `deleteRecord` leaves behind: the bytes behind the removed
record move down by its length, their slots follow, and the slot array keeps
its first `kept` entries. -/
structure DeleteLayout (before after : Page) (removed kept : Nat) : Prop where
  slotCnt : after.slotCnt = -(kept : Int)
  kept_le : kept ≤ before.slotCount
  freePtr : after.freePtr = before.freePtr - (before.slotAt removed).length
  freeSpace : after.freeSpace = 1004 - after.freePtr - 4 * (kept : Int)
  nextPage : after.nextPage = before.nextPage
  curPage : after.curPage = before.curPage
  hole : removed < kept → after.slotAt removed = { offset := 0, length := -1 }
  others : ∀ other, other < kept → other ≠ removed →
    after.slotAt other = before.shiftedEntry removed other
  dropped : ∀ other, kept ≤ other → before.Live other → other = removed
  last : 0 < kept → kept - 1 ≠ removed ∧ before.Live (kept - 1)
  bytes : ∀ address : Nat, (address : Int) < after.freePtr → after.data address =
    if (address : Int) < (before.slotAt removed).offset then before.data address
    else before.data (address + (before.slotAt removed).length.toNat)

theorem shifted_entry_length (page : Page) (removed number : Nat) :
    (page.shiftedEntry removed number).length = (page.slotAt number).length := by
  simp only [shiftedEntry]
  split_ifs <;> rfl

/-- `deleteRecord` before it gives the slot up: the bytes have moved and the
other slots have followed. -/
structure FreedLayout (before freed : Page) (removed : Nat) : Prop where
  slotCnt : freed.slotCnt = -(before.slotCount : Int)
  freePtr : freed.freePtr = before.freePtr - (before.slotAt removed).length
  freeSpace : freed.freeSpace = before.freeSpace + (before.slotAt removed).length
  nextPage : freed.nextPage = before.nextPage
  curPage : freed.curPage = before.curPage
  slots : ∀ other, other < before.slotCount →
    freed.slotAt other = before.shiftedEntry removed other
  bytes : ∀ address : Nat, (address : Int) < freed.freePtr → freed.data address =
    if (address : Int) < (before.slotAt removed).offset then before.data address
    else before.data (address + (before.slotAt removed).length.toNat)

theorem delete_record_frees (page : Page) (wf : page.WellFormed) (pageNo : Int)
    (removed : Nat) (live : page.Live removed) :
    ∃ freed, FreedLayout page freed removed ∧ page.deleteRecord ⟨pageNo, removed⟩ =
      if -(removed : Int) = freed.slotCnt + 1 then
        (.OK, compactSlots (-freed.slotCnt).toNat freed)
      else (.OK, freed.setSlot (-(removed : Int)) { offset := 0, length := -1 }) := by
  have count := wf.count
  have countBound := wf.count_le
  have space := wf.space
  have free := wf.freeSpace_nonneg
  have ptr := wf.freePtr_nonneg
  have inside := wf.live_bounds live
  have removedBound := live.1
  set offset := (page.slotAt removed).offset with offsetDef
  set recLen := (page.slotAt removed).length with recLenDef
  let moved : Page := { page with
    data := moveBytes page.data (offset + recLen).toNat offset.toNat
      (page.freePtr - (offset + recLen)).toNat }
  -- The compaction stays below the slot array.
  have movedSlots : ∀ other, other < page.slotCount → moved.slotAt other = page.slotAt other := by
    intro other bound
    apply slot_at_congr
    intro byte _
    apply move_bytes_outside
    rw [slot_address_of_number (by omega)]
    simp only [MAXSLOTS] at countBound
    omega
  have ranges : EntriesInRange moved page.slotCount := by
    intro other bound
    rw [movedSlots other bound]
    exact wf.entries_in_range other bound
  obtain ⟨fields, slots, bytes⟩ := adjust_offsets_spec moved removed page.slotCount
    page.slotCount countBound removedBound (le_refl _) ranges
  rw [movedSlots removed removedBound, ← recLenDef] at fields slots bytes
  set adjusted := (List.range page.slotCount).foldl
    (adjustOffset (-(removed : Int)) recLen) moved with adjustedDef
  have shifted : ∀ other, other < page.slotCount →
      adjusted.slotAt other = page.shiftedEntry removed other := by
    intro other bound
    rw [slots other bound, if_pos bound]
    simp only [shiftedEntry, movedSlots other bound, movedSlots removed removedBound]
  let freed : Page := { adjusted with
    freePtr := page.freePtr - recLen
    freeSpace := page.freeSpace + recLen }
  refine ⟨freed, ⟨?_, rfl, rfl, fields.nextPage, fields.curPage, ?_, ?_⟩, ?_⟩
  · rw [← count]
    exact fields.slotCnt
  · intro other bound
    rw [← shifted other bound]
    exact slot_at_congr (fun _ _ => rfl)
  · intro address below
    have unslotted : freed.data address = moved.data address := by
      apply bytes
      dsimp only [freed] at below
      simp only [MAXSLOTS] at countBound
      omega
    dsimp only [freed] at below
    rw [unslotted]
    split_ifs with front
    · exact move_bytes_outside _ _ _ _ _ (by omega)
    · obtain ⟨index, rfl⟩ : ∃ index, address = offset.toNat + index :=
        ⟨address - offset.toNat, by omega⟩
      refine (move_bytes_inside _ _ _ _ _ (by omega)).trans ?_
      congr 1
      omega
  · have valid : -(removed : Int) > page.slotCnt ∧ (page.slot (-(removed : Int))).length > 0 :=
      ⟨by omega, live.2⟩
    have freePtr' : toShort (adjusted.freePtr - recLen) = page.freePtr - recLen := by
      rw [fields.freePtr, to_short_of_range] <;> dsimp only [moved] <;> omega
    have freeSpace' : toShort (adjusted.freeSpace + recLen) = page.freeSpace + recLen := by
      rw [fields.freeSpace, to_short_of_range] <;> dsimp only [moved] <;> omega
    unfold deleteRecord
    simp only [if_pos valid]
    change (if -(removed : Int) = adjusted.slotCnt + 1 then
        (Status.OK, compactSlots (-adjusted.slotCnt).toNat
          { adjusted with
            freePtr := toShort (adjusted.freePtr - recLen)
            freeSpace := toShort (adjusted.freeSpace + recLen) })
      else (Status.OK, Page.setSlot
          { adjusted with
            freePtr := toShort (adjusted.freePtr - recLen)
            freeSpace := toShort (adjusted.freeSpace + recLen) }
          (-(removed : Int)) { offset := 0, length := -1 })) = _
    rw [freePtr', freeSpace']

/-- The removed slot ends the array: it goes with the holes in front of it. -/
theorem FreedLayout.compacted {page freed : Page} {removed : Nat}
    (layout : FreedLayout page freed removed) (wf : page.WellFormed) (live : page.Live removed)
    (isLast : removed + 1 = page.slotCount) :
    ∃ kept, DeleteLayout page (compactSlots (-freed.slotCnt).toNat freed) removed kept := by
  have countBound := wf.count_le
  have space := wf.space
  have free := wf.freeSpace_nonneg
  have ptr := wf.freePtr_nonneg
  have inside := wf.live_bounds live
  have count := wf.count
  have freedCnt := layout.slotCnt
  have freedPtr := layout.freePtr
  have freedSpace := layout.freeSpace
  have steps : (-freed.slotCnt).toNat = page.slotCount := by omega
  obtain ⟨kept, below, result, holes, used⟩ := compact_slots_spec page.slotCount freed
    (by omega) freedCnt countBound (by omega) (by omega)
  rw [steps, result]
  refine ⟨kept, rfl, by omega, layout.freePtr, ?_, layout.nextPage, layout.curPage,
    by intros; omega, ?_, ?_, ?_, layout.bytes⟩
  · dsimp only
    omega
  · intro other bound _
    rw [← layout.slots other (by omega)]
    exact slot_at_congr (fun _ _ => rfl)
  · intro other from_ alive
    by_contra different
    have bound := alive.1
    have empty := holes other from_ (by omega)
    rw [layout.slots other bound, shifted_entry_length] at empty
    have positive := alive.2
    omega
  · intro some_
    refine ⟨by omega, ?_⟩
    have notEmpty := used some_
    rw [layout.slots _ (by omega), shifted_entry_length] at notEmpty
    exact wf.live_of_used (by omega) notEmpty

theorem FreedLayout.emptied {page freed : Page} {removed : Nat}
    (layout : FreedLayout page freed removed) (wf : page.WellFormed) (live : page.Live removed)
    (notLast : removed + 1 ≠ page.slotCount) :
    DeleteLayout page (freed.setSlot (-(removed : Int)) { offset := 0, length := -1 }) removed
      page.slotCount := by
  have countBound := wf.count_le
  have space := wf.space
  have free := wf.freeSpace_nonneg
  have count := wf.count
  have inside := wf.live_bounds live
  have removedBound := live.1
  have freedPtr := layout.freePtr
  have freedSpace := layout.freeSpace
  have fields := set_slot_same_fields freed removed { offset := 0, length := -1 }
  refine ⟨?_, le_refl _, ?_, ?_, ?_, ?_, ?_, ?_, ?_, ?_, ?_⟩
  · exact fields.slotCnt.trans layout.slotCnt
  · exact fields.freePtr.trans layout.freePtr
  · rw [fields.freeSpace, fields.freePtr]
    omega
  · exact fields.nextPage.trans layout.nextPage
  · exact fields.curPage.trans layout.curPage
  · intro _
    rw [slot_at_set_same]
    rfl
  · intro other bound different
    rw [slot_at_set_other _ _ _ _ (by omega) (by omega) different, layout.slots other bound]
  · intro other from_ alive
    have bound := alive.1
    omega
  · intro some_
    exact ⟨by omega, wf.last some_⟩
  · intro address below
    rw [fields.freePtr] at below
    rw [← layout.bytes address below]
    apply set_slot_data_outside
    rw [slot_address_of_number (by omega)]
    simp only [MAXSLOTS] at countBound
    omega

theorem delete_record_layout (page : Page) (wf : page.WellFormed) (pageNo : Int)
    (removed : Nat) (live : page.Live removed) :
    (page.deleteRecord ⟨pageNo, removed⟩).1 = .OK ∧
      ∃ kept, DeleteLayout page (page.deleteRecord ⟨pageNo, removed⟩).2 removed kept := by
  obtain ⟨freed, layout, deletes⟩ := delete_record_frees page wf pageNo removed live
  have freedCnt := layout.slotCnt
  rw [deletes]
  split_ifs with atEnd
  · exact ⟨rfl, layout.compacted wf live (by omega)⟩
  · exact ⟨rfl, _, layout.emptied wf live (by omega)⟩

section DeletedPage

variable {before after : Page} {removed kept : Nat}

theorem DeleteLayout.slot_count (layout : DeleteLayout before after removed kept) :
    after.slotCount = kept := by
  have slotCnt := layout.slotCnt
  simp only [slotCount]
  omega

theorem DeleteLayout.live_iff (layout : DeleteLayout before after removed kept) (other : Nat) :
    after.Live other ↔ before.Live other ∧ other ≠ removed := by
  have keptBound := layout.kept_le
  simp only [Live, layout.slot_count]
  constructor
  · rintro ⟨inside, positive⟩
    have different : other ≠ removed := by
      rintro rfl
      rw [layout.hole inside] at positive
      exact absurd positive (by decide)
    rw [layout.others other inside different, shifted_entry_length] at positive
    exact ⟨⟨by omega, positive⟩, different⟩
  · rintro ⟨alive, different⟩
    have inside : other < kept := by
      by_contra outside
      exact different (layout.dropped other (by omega) alive)
    rw [layout.others other inside different, shifted_entry_length]
    exact ⟨inside, alive.2⟩

/-- The record of a surviving slot lies in front of the removed record and does
not move, or lies behind it and moves down by the removed length. -/
theorem DeleteLayout.slot_of_live (layout : DeleteLayout before after removed kept)
    (wf : before.WellFormed) (removedLive : before.Live removed) {other : Nat}
    (live : before.Live other) (different : other ≠ removed) :
    (after.slotAt other).length = (before.slotAt other).length ∧
      (((before.slotAt other).offset + (before.slotAt other).length ≤
            (before.slotAt removed).offset ∧
          (after.slotAt other).offset = (before.slotAt other).offset) ∨
        ((before.slotAt removed).offset + (before.slotAt removed).length ≤
            (before.slotAt other).offset ∧
          (after.slotAt other).offset =
            (before.slotAt other).offset - (before.slotAt removed).length)) := by
  have inside : other < kept := by
    have alive := (layout.live_iff other).mpr ⟨live, different⟩
    have bound := alive.1
    rwa [layout.slot_count] at bound
  have bounds := wf.live_bounds live
  have removedBounds := wf.live_bounds removedLive
  rw [layout.others other inside different, shifted_entry_length]
  refine ⟨rfl, ?_⟩
  rcases wf.disjoint live removedLive different with front | behind
  · left
    refine ⟨front, ?_⟩
    simp only [shiftedEntry]
    rw [if_neg (by omega)]
  · right
    refine ⟨behind, ?_⟩
    simp only [shiftedEntry]
    rw [if_pos (by omega)]

def sourceByte (page : Page) (removed : Nat) (byte : Int) : Int :=
  if byte < (page.slotAt removed).offset then byte
  else byte + (page.slotAt removed).length

theorem DeleteLayout.covers_iff (layout : DeleteLayout before after removed kept)
    (wf : before.WellFormed) (removedLive : before.Live removed) (other : Nat) (byte : Int) :
    after.Covers other byte ↔
      other ≠ removed ∧ before.Covers other (before.sourceByte removed byte) := by
  have removedBounds := wf.live_bounds removedLive
  have live := layout.live_iff other
  by_cases alive : before.Live other ∧ other ≠ removed
  · obtain ⟨lengths, places⟩ := layout.slot_of_live wf removedLive alive.1 alive.2
    have bounds := wf.live_bounds alive.1
    simp only [Covers, live, alive, true_and, lengths, sourceByte, ne_eq, not_false_eq_true]
    split_ifs <;> omega
  · constructor
    · intro covered
      exact absurd (live.mp covered.1) alive
    · rintro ⟨different, covered⟩
      exact absurd ⟨covered.1, different⟩ alive

theorem DeleteLayout.well_formed (layout : DeleteLayout before after removed kept)
    (wf : before.WellFormed) (removedLive : before.Live removed) : after.WellFormed := by
  have count := layout.slot_count
  have ptr := layout.freePtr
  have space := wf.space
  have free := wf.freeSpace_nonneg
  have keptBound := layout.kept_le
  have removedBounds := wf.live_bounds removedLive
  have covers := layout.covers_iff wf removedLive
  refine ⟨by rw [layout.slotCnt]; omega, by omega, ?_, by rw [layout.freeSpace, count],
    ?_, ?_, ?_⟩
  · rw [layout.freeSpace]
    omega
  · intro other inside
    by_cases same : other = removed
    · rw [same, layout.hole (by omega)]
      exact .inl ⟨rfl, rfl⟩
    by_cases alive : before.Live other
    · right
      obtain ⟨lengths, places⟩ := layout.slot_of_live wf removedLive alive same
      have bounds := wf.live_bounds alive
      omega
    · left
      have empty := wf.free_entry (by omega) alive
      rw [layout.others other (by omega) same]
      simp only [shiftedEntry]
      rw [if_neg (by omega)]
      exact empty
  · intro byte lower upper
    have source : before.sourceByte removed byte < before.freePtr ∧
        0 ≤ before.sourceByte removed byte ∧
        ¬before.Covers removed (before.sourceByte removed byte) := by
      simp only [sourceByte, Covers]
      split_ifs <;> omega
    obtain ⟨owner, owns, unique⟩ := wf.tiled _ source.2.1 source.1
    have different : owner ≠ removed := by
      rintro rfl
      exact source.2.2 owns
    refine ⟨owner, (covers owner byte).mpr ⟨different, owns⟩, ?_⟩
    intro other claim
    exact unique other ((covers other byte).mp claim).2
  · intro some_
    rw [count] at some_ ⊢
    rw [layout.live_iff]
    exact (layout.last some_).symm

theorem DeleteLayout.record_removed (layout : DeleteLayout before after removed kept) :
    after.record removed = none := by
  have dead : ¬after.Live removed := by
    rw [layout.live_iff]
    exact fun both => both.2 rfl
  exact if_neg dead

theorem DeleteLayout.record_other (layout : DeleteLayout before after removed kept)
    (wf : before.WellFormed) (removedLive : before.Live removed) {other : Nat}
    (different : other ≠ removed) : after.record other = before.record other := by
  apply record_congr
  · rw [layout.live_iff]
    simp [different]
  · intro alive
    have old := ((layout.live_iff other).mp alive).1
    have bounds := wf.live_bounds old
    have removedBounds := wf.live_bounds removedLive
    have ptr := layout.freePtr
    obtain ⟨lengths, places⟩ := layout.slot_of_live wf removedLive old different
    rw [lengths]
    apply read_bytes_congr
    intro index below
    rw [layout.bytes _ (by omega)]
    rcases places with ⟨front, place⟩ | ⟨behind, place⟩
    · rw [if_pos (by omega), place]
    · rw [if_neg (by omega)]
      congr 1
      omega

end DeletedPage

/-- `insertRecord` binds one fresh key, the lowest free one, and says so through
the RID; it refuses exactly the records that do not fit with a new slot. -/
theorem insert_record_spec (page : Page) (wf : page.WellFormed) (rec : Record)
    (nonempty : 1 ≤ rec.length) (fits : (rec.length : Int) + SLOTSIZE ≤ page.freeSpace) :
    ∃ (number : Nat) (after : Page),
      page.insertRecord rec = (.ok ⟨page.curPage, number⟩, after) ∧
        after.WellFormed ∧ ¬page.Live number ∧
        (∀ other, other < number → page.Live other) ∧
        after.record number = some rec ∧
        (∀ other, other ≠ number → after.record other = page.record other) ∧
        after.nextPage = page.nextPage ∧ after.curPage = page.curPage := by
  obtain ⟨number, status, layout⟩ := insert_record_layout page wf rec fits
  exact ⟨number, _, Prod.ext status rfl, layout.well_formed wf nonempty fits, layout.fresh,
    layout.lowest, layout.record_inserted nonempty,
    fun other different => layout.record_other wf nonempty different,
    layout.nextPage, layout.curPage⟩

theorem insert_record_no_space (page : Page) (rec : Record)
    (full : ¬(rec.length : Int) + SLOTSIZE ≤ page.freeSpace) :
    page.insertRecord rec = (.error .NOSPACE, page) := by
  simp only [insertRecord]
  rw [if_pos (by omega)]

theorem delete_record_spec (page : Page) (wf : page.WellFormed) (pageNo : Int) (number : Nat)
    (live : page.Live number) :
    ∃ after : Page, page.deleteRecord ⟨pageNo, number⟩ = (.OK, after) ∧
      after.WellFormed ∧ after.record number = none ∧
      (∀ other, other ≠ number → after.record other = page.record other) ∧
      after.nextPage = page.nextPage ∧ after.curPage = page.curPage := by
  obtain ⟨status, kept, layout⟩ := delete_record_layout page wf pageNo number live
  exact ⟨_, Prod.ext status rfl, layout.well_formed wf live, layout.record_removed,
    fun other different => layout.record_other wf live different,
    layout.nextPage, layout.curPage⟩

theorem delete_record_dead (page : Page) (nonpos : page.slotCnt ≤ 0) (pageNo : Int)
    (number : Nat) (dead : ¬page.Live number) :
    page.deleteRecord ⟨pageNo, number⟩ = (.INVALIDSLOTNO, page) := by
  simp only [deleteRecord]
  rw [if_neg]
  rintro ⟨bound, positive⟩
  refine dead ⟨?_, positive⟩
  simp only [slotCount]
  omega

end PrimitiveDB.Page

import PrimitiveDB.SlottedPageHistory

/-!
# The slot entries that a RID reaches

`getRecord` and `deleteRecord` of a page with a note of every slot entry that they
read or write. A RID whose slot number is not negative never leads out of the slot
array. A negative one always does, since only one side of the array is checked.
-/

namespace PrimitiveDB

open ByteMemory

set_option autoImplicit false

/-- A value, and the indices of the slot entries that were read or written for it. -/
structure Traced (α : Type) where
  value : α
  slots : List Int

namespace Traced

variable {α β : Type}

instance : Monad Traced where
  pure value := ⟨value, []⟩
  bind first next :=
    ⟨(next first.value).value, first.slots ++ (next first.value).slots⟩

@[simp] theorem pure_value (value : α) : (pure value : Traced α).value = value := rfl

@[simp] theorem pure_slots (value : α) : (pure value : Traced α).slots = [] := rfl

@[simp] theorem bind_value (first : Traced α) (next : α → Traced β) :
    (first >>= next).value = (next first.value).value := rfl

@[simp] theorem bind_slots (first : Traced α) (next : α → Traced β) :
    (first >>= next).slots = first.slots ++ (next first.value).slots := rfl

end Traced

namespace Page

def readSlot (page : Page) (index : Int) : Traced SlotEntry := ⟨page.slot index, [index]⟩

def writeSlot (page : Page) (index : Int) (entry : SlotEntry) : Traced Page :=
  ⟨page.setSlot index entry, [index]⟩

@[simp] theorem read_slot_value (page : Page) (index : Int) :
    (page.readSlot index).value = page.slot index := rfl

@[simp] theorem read_slot_slots (page : Page) (index : Int) :
    (page.readSlot index).slots = [index] := rfl

@[simp] theorem write_slot_value (page : Page) (index : Int) (entry : SlotEntry) :
    (page.writeSlot index entry).value = page.setSlot index entry := rfl

@[simp] theorem write_slot_slots (page : Page) (index : Int) (entry : SlotEntry) :
    (page.writeSlot index entry).slots = [index] := rfl

def getRecordTraced (page : Page) (rid : RID) : Traced (Except Status Record) :=
  if -rid.slotNo > page.slotCnt then do
    let entry ← page.readSlot (-rid.slotNo)
    if entry.length > 0 then
      pure (.ok (readBytes page.data entry.offset.toNat entry.length.toNat))
    else pure (.error .INVALIDSLOTNO)
  else pure (.error .INVALIDSLOTNO)

def adjustOffsetTraced (slotNo recLen : Int) (page : Page) (index : Nat) : Traced Page := do
  let entry ← page.readSlot (-index)
  if entry.length ≥ 0 then do
    let removed ← page.readSlot slotNo
    if entry.offset > removed.offset then
      page.writeSlot (-index) { entry with offset := entry.offset - recLen }
    else pure page
  else pure page

def compactSlotsTraced : Nat → Page → Traced Page
  | 0, page => pure page
  | steps + 1, page =>
      let shrunk := { page with
        slotCnt := toShort (page.slotCnt + 1)
        freeSpace := toShort (page.freeSpace + SLOTSIZE) }
      if shrunk.slotCnt < 0 then do
        let last ← shrunk.readSlot (shrunk.slotCnt + 1)
        if last.length = -1 then compactSlotsTraced steps shrunk else pure shrunk
      else pure shrunk

def deleteRecordTraced (page : Page) (rid : RID) : Traced (Status × Page) :=
  let slotNo := -rid.slotNo
  if slotNo > page.slotCnt then do
    let entry ← page.readSlot slotNo
    if entry.length > 0 then do
      let nextOffset := entry.offset + entry.length
      let moved := { page with
        data := moveBytes page.data nextOffset.toNat entry.offset.toNat
          (page.freePtr - nextOffset).toNat }
      let adjusted ←
        (List.range (-page.slotCnt).toNat).foldlM (adjustOffsetTraced slotNo entry.length) moved
      let freed := { adjusted with
        freePtr := toShort (adjusted.freePtr - entry.length)
        freeSpace := toShort (adjusted.freeSpace + entry.length) }
      if slotNo = freed.slotCnt + 1 then do
        let compacted ← compactSlotsTraced (-freed.slotCnt).toNat freed
        pure (.OK, compacted)
      else do
        let emptied ← freed.writeSlot slotNo { offset := 0, length := -1 }
        pure (.OK, emptied)
    else pure (.INVALIDSLOTNO, page)
  else pure (.INVALIDSLOTNO, page)

theorem get_record_traced_value (page : Page) (rid : RID) :
    (page.getRecordTraced rid).value = page.getRecord rid := by
  unfold getRecordTraced getRecord
  by_cases inside : -rid.slotNo > page.slotCnt
  · by_cases live : (page.slot (-rid.slotNo)).length > 0
    · simp [inside, live]
    · simp [inside, live]
  · simp [inside]

theorem adjust_offset_traced_value (slotNo recLen : Int) (page : Page) (index : Nat) :
    (adjustOffsetTraced slotNo recLen page index).value = adjustOffset slotNo recLen page index := by
  unfold adjustOffsetTraced adjustOffset
  by_cases used : (page.slot (-index)).length ≥ 0
  · by_cases behind : (page.slot (-index)).offset > (page.slot slotNo).offset
    · simp [used, behind]
    · simp [used, behind]
  · simp [used]

theorem adjust_offsets_traced_value (slotNo recLen : Int) (page : Page) (indices : List Nat) :
    (indices.foldlM (adjustOffsetTraced slotNo recLen) page).value =
      indices.foldl (adjustOffset slotNo recLen) page := by
  induction indices generalizing page with
  | nil => rfl
  | cons index indices ih =>
      rw [List.foldlM_cons, Traced.bind_value, adjust_offset_traced_value, ih, List.foldl_cons]

theorem compact_slots_traced_value (steps : Nat) (page : Page) :
    (compactSlotsTraced steps page).value = compactSlots steps page := by
  induction steps generalizing page with
  | zero => rfl
  | succ steps ih =>
      unfold compactSlotsTraced compactSlots
      dsimp only
      by_cases more : toShort (page.slotCnt + 1) < 0
      · rw [if_pos more, Traced.bind_value, read_slot_value]
        split
        · rw [if_pos ⟨more, ‹_›⟩, ih]
        · rw [if_neg fun both => by simp_all]
          rfl
      · rw [if_neg more, if_neg fun both => more both.1]
        rfl

theorem delete_record_traced_value (page : Page) (rid : RID) :
    (page.deleteRecordTraced rid).value = page.deleteRecord rid := by
  unfold deleteRecordTraced deleteRecord
  dsimp only
  by_cases inside : -rid.slotNo > page.slotCnt
  · rw [if_pos inside, Traced.bind_value, read_slot_value]
    by_cases live : (page.slot (-rid.slotNo)).length > 0
    · rw [if_pos live, if_pos ⟨inside, live⟩, Traced.bind_value, adjust_offsets_traced_value]
      split
      · rw [Traced.bind_value, compact_slots_traced_value]
        rfl
      · rfl
    · rw [if_neg live, if_neg fun both => live both.2]
      rfl
  · rw [if_neg inside, if_neg fun both => inside both.1]
    rfl

def InArray (page : Page) (index : Int) : Prop := page.slotCnt < index ∧ index ≤ 0

theorem adjust_offsets_slots {slotNo recLen : Int} (page : Page) (indices : List Nat) {index : Int}
    (member : index ∈ (indices.foldlM (adjustOffsetTraced slotNo recLen) page).slots) :
    index = slotNo ∨ ∃ number ∈ indices, index = -(number : Int) := by
  induction indices generalizing page with
  | nil => cases member
  | cons number indices ih =>
      rw [List.foldlM_cons, Traced.bind_slots, List.mem_append] at member
      rcases member with here | later
      · have own : index = slotNo ∨ index = -(number : Int) := by
          unfold adjustOffsetTraced at here
          rw [Traced.bind_slots, List.mem_append, read_slot_slots, List.mem_singleton] at here
          rcases here with first | here
          · exact .inr first
          · split at here
            · rw [Traced.bind_slots, List.mem_append, read_slot_slots, List.mem_singleton] at here
              rcases here with second | here
              · exact .inl second
              · split at here
                · exact .inr (List.mem_singleton.mp here)
                · cases here
            · cases here
        exact own.imp id fun same => ⟨number, List.mem_cons_self, same⟩
      · rcases ih _ later with same | ⟨other, listed, same⟩
        · exact .inl same
        · exact .inr ⟨other, List.mem_cons_of_mem _ listed, same⟩

theorem adjust_offsets_slot_cnt {slotNo recLen : Int} (page : Page) (indices : List Nat) :
    (indices.foldl (adjustOffset slotNo recLen) page).slotCnt = page.slotCnt := by
  induction indices generalizing page with
  | nil => rfl
  | cons number indices ih =>
      rw [List.foldl_cons, ih]
      unfold adjustOffset
      dsimp only
      split
      · exact (set_slot_same_fields page number _).slotCnt
      · rfl

/-- The compaction looks only at slots behind the end that it has reached. -/
theorem compact_slots_slots {steps : Nat} {page : Page} (lower : -32768 ≤ page.slotCnt)
    (nonpos : page.slotCnt ≤ 0) {index : Int}
    (member : index ∈ (compactSlotsTraced steps page).slots) : page.InArray index := by
  induction steps generalizing page with
  | zero => cases member
  | succ steps ih =>
      have count : toShort (page.slotCnt + 1) = page.slotCnt + 1 :=
        to_short_of_range (by omega) (by omega)
      unfold compactSlotsTraced at member
      dsimp only at member
      rw [count] at member
      split at member
      · rw [Traced.bind_slots, List.mem_append, read_slot_slots, List.mem_singleton] at member
        rcases member with here | later
        · constructor <;> omega
        · split at later
          · have inside := ih (by dsimp only; omega) (by dsimp only; omega) later
            have below := inside.1
            dsimp only at below
            exact ⟨by omega, inside.2⟩
          · cases later
      · cases member

theorem get_record_slots {page : Page} {rid : RID} (nonneg : 0 ≤ rid.slotNo) {index : Int}
    (member : index ∈ (page.getRecordTraced rid).slots) : page.InArray index := by
  unfold getRecordTraced at member
  split at member
  · rw [Traced.bind_slots, List.mem_append, read_slot_slots, List.mem_singleton] at member
    rcases member with here | later
    · constructor <;> omega
    · split at later <;> cases later
  · cases member

theorem delete_record_slots {page : Page} (lower : -32768 ≤ page.slotCnt)
    (nonpos : page.slotCnt ≤ 0) {rid : RID} (nonneg : 0 ≤ rid.slotNo) {index : Int}
    (member : index ∈ (page.deleteRecordTraced rid).slots) : page.InArray index := by
  unfold deleteRecordTraced at member
  dsimp only at member
  split at member
  · have own : page.InArray (-rid.slotNo) := by
      constructor <;> omega
    rw [Traced.bind_slots, List.mem_append, read_slot_slots, List.mem_singleton] at member
    rcases member with here | later
    · exact here ▸ own
    · split at later
      · rw [Traced.bind_slots, List.mem_append] at later
        rcases later with loop | ending
        · rcases adjust_offsets_slots _ _ loop with same | ⟨number, listed, same⟩
          · exact same ▸ own
          · have bound := List.mem_range.mp listed
            constructor <;> omega
        · rw [adjust_offsets_traced_value] at ending
          rw [adjust_offsets_slot_cnt] at ending
          split at ending
          · rw [Traced.bind_slots, Traced.pure_slots, List.append_nil] at ending
            have inside := compact_slots_slots (by exact lower) (by exact nonpos) ending
            exact inside
          · rw [Traced.bind_slots, Traced.pure_slots, List.append_nil, write_slot_slots,
              List.mem_singleton] at ending
            exact ending ▸ own
      · cases later
  · cases member

def Names (page : Page) (rid : RID) : Prop :=
  0 ≤ rid.slotNo ∧ rid.slotNo < -page.slotCnt ∧ 0 < (page.slot (-rid.slotNo)).length

/-- A RID is honoured exactly if it names a record, and no slot entry outside the slot array is
read or written for it. -/
structure HonoursOnlyLive (page : Page) (rid : RID) : Prop where
  get_ok : (∃ rec, page.getRecord rid = .ok rec) ↔ page.Names rid
  get_refused : ¬page.Names rid → page.getRecord rid = .error .INVALIDSLOTNO
  delete_ok : (page.deleteRecord rid).1 = .OK ↔ page.Names rid
  delete_refused : ¬page.Names rid → page.deleteRecord rid = (.INVALIDSLOTNO, page)
  get_inside : ∀ index ∈ (page.getRecordTraced rid).slots, page.InArray index
  delete_inside : ∀ index ∈ (page.deleteRecordTraced rid).slots, page.InArray index

theorem get_record_cases (page : Page) {rid : RID} (nonneg : 0 ≤ rid.slotNo) :
    (page.Names rid ∧ ∃ rec, page.getRecord rid = .ok rec) ∨
      (¬page.Names rid ∧ page.getRecord rid = .error .INVALIDSLOTNO) := by
  unfold getRecord Names
  by_cases honoured : -rid.slotNo > page.slotCnt ∧ (page.slot (-rid.slotNo)).length > 0
  · rw [if_pos honoured]
    exact .inl ⟨⟨nonneg, by omega, honoured.2⟩, _, rfl⟩
  · rw [if_neg honoured]
    exact .inr ⟨fun names => honoured ⟨by omega, names.2.2⟩, rfl⟩

theorem delete_record_cases (page : Page) {rid : RID} (nonneg : 0 ≤ rid.slotNo) :
    (page.Names rid ∧ (page.deleteRecord rid).1 = .OK) ∨
      (¬page.Names rid ∧ page.deleteRecord rid = (.INVALIDSLOTNO, page)) := by
  unfold deleteRecord Names
  dsimp only
  by_cases honoured : -rid.slotNo > page.slotCnt ∧ (page.slot (-rid.slotNo)).length > 0
  · rw [if_pos honoured]
    refine .inl ⟨⟨nonneg, by omega, honoured.2⟩, ?_⟩
    split <;> rfl
  · rw [if_neg honoured]
    exact .inr ⟨fun names => honoured ⟨by omega, names.2.2⟩, rfl⟩

/-- On every page, a RID is treated as it should be exactly if its slot number is not negative. -/
theorem honours_only_live_iff (page : Page) (reachable : Reachable page) (rid : RID) :
    page.HonoursOnlyLive rid ↔ 0 ≤ rid.slotNo := by
  have wf := reachable_well_formed reachable
  have nonpos := wf.slotCnt_nonpos
  constructor
  · intro honours
    by_contra negative
    -- the entry is read before anything else, and it is not in the array
    have read : -rid.slotNo ∈ (page.getRecordTraced rid).slots := by
      unfold getRecordTraced
      rw [if_pos (by omega), Traced.bind_slots, read_slot_slots]
      exact List.mem_append_left _ List.mem_cons_self
    have inside := (honours.get_inside _ read).2
    omega
  · intro nonneg
    have lower : -32768 ≤ page.slotCnt := by
      have count := wf.count
      have bound := wf.count_le
      simp only [MAXSLOTS] at bound
      omega
    have gets := get_record_cases page nonneg
    have deletes := delete_record_cases page nonneg
    refine ⟨?_, ?_, ?_, ?_, fun index => get_record_slots nonneg,
      fun index => delete_record_slots lower nonpos nonneg⟩
    · rcases gets with ⟨names, found⟩ | ⟨unnamed, refused⟩
      · exact ⟨fun _ => names, fun _ => found⟩
      · simp [unnamed, refused]
    · intro unnamed
      exact (gets.resolve_left fun named => unnamed named.1).2
    · rcases deletes with ⟨names, deleted⟩ | ⟨unnamed, refused⟩
      · exact ⟨fun _ => names, fun _ => deleted⟩
      · simp [unnamed, refused]
    · intro unnamed
      exact (deletes.resolve_left fun named => unnamed named.1).2

theorem honours_only_live_iff_compacted : compactedPage.HonoursOnlyLive ⟨2, 1⟩ :=
  (honours_only_live_iff compactedPage compacted_page_reachable ⟨2, 1⟩).mpr (by decide)

/-- `freePtr` lies where `NULLRID` looks for the length of its record. -/
theorem null_rid_honoured : Reachable compactedPage ∧ ¬compactedPage.HonoursOnlyLive NULLRID := by
  refine ⟨compacted_page_reachable, ?_⟩
  intro honours
  have found : ∃ rec, compactedPage.getRecord NULLRID = .ok rec := ⟨_, rfl⟩
  have names := honours.get_ok.mp found
  exact absurd names.1 (by decide)

end Page

end PrimitiveDB

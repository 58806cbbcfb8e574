import PrimitiveDB.SlottedPage

/-!
# Slots and bytes of a slotted page

What the primitive steps of `page.C` do to one slot entry and to the bytes in
front of the slot array: a store to one slot leaves every other slot and every
byte below it alone, the search loops stop at the first slot of the kind they
look for, and the two loops of `deleteRecord` touch exactly the slots they
should. The page invariant is proved from these rules without unfolding the
layout again.
-/

namespace PrimitiveDB.Page

open ByteMemory

set_option autoImplicit false

/-- The slot numbered `number` as clients number slots, from zero upwards. -/
def slotAt (page : Page) (number : Nat) : SlotEntry := page.slot (-(number : Int))

def slotCount (page : Page) : Nat := (-page.slotCnt).toNat

/-- No page has room for more slot entries than this. -/
def MAXSLOTS : Nat := 251

theorem slot_address_of_number {number : Nat} (bound : number ≤ MAXSLOTS) :
    slotAddress (-(number : Int)) = 1004 - 4 * number := by
  simp only [MAXSLOTS] at bound
  simp only [slotAddress, DATASIZE, PAGESIZE, DPFIXED, SLOTSIZE]
  omega

theorem slot_at_eq (page : Page) (number : Nat) :
    page.slotAt number =
      { offset := readShort page.data (slotAddress (-(number : Int)))
        length := readShort page.data (slotAddress (-(number : Int)) + 2) } := by
  simp only [slotAt, slot]
  rw [if_pos (by omega)]

/-- A slot entry is four bytes of `data`; nothing else of the page matters. -/
theorem slot_at_congr {left right : Page} {number : Nat}
    (same : ∀ byte, byte < 4 →
      left.data (slotAddress (-(number : Int)) + byte) =
        right.data (slotAddress (-(number : Int)) + byte)) :
    left.slotAt number = right.slotAt number := by
  rw [slot_at_eq, slot_at_eq]
  have offsets := read_short_congr (same 0 (by omega)) (same 1 (by omega))
  have lengths := read_short_congr (same 2 (by omega)) (same 3 (by omega))
  simp only [Nat.add_zero] at offsets
  rw [offsets, lengths]

theorem set_slot_number (page : Page) (number : Nat) (entry : SlotEntry) :
    page.setSlot (-(number : Int)) entry =
      { page with
        data := writeShort
          (writeShort page.data (slotAddress (-(number : Int))) entry.offset)
          (slotAddress (-(number : Int)) + 2) entry.length } := by
  simp only [setSlot]
  rw [if_pos (by omega)]

theorem set_slot_data_outside (page : Page) (number : Nat) (entry : SlotEntry)
    (address : Nat)
    (outside : address < slotAddress (-(number : Int)) ∨
      slotAddress (-(number : Int)) + 4 ≤ address) :
    (page.setSlot (-(number : Int)) entry).data address = page.data address := by
  rw [set_slot_number]
  exact (write_short_outside _ _ _ _ (by omega)).trans
    (write_short_outside _ _ _ _ (by omega))

theorem slot_at_set_same (page : Page) (number : Nat) (entry : SlotEntry) :
    (page.setSlot (-(number : Int)) entry).slotAt number =
      { offset := toShort entry.offset, length := toShort entry.length } := by
  rw [slot_at_eq, set_slot_number]
  simp only [read_short_write_same, SlotEntry.mk.injEq, and_true]
  rw [read_short_congr (write_short_outside _ _ _ _ (by omega))
    (write_short_outside _ _ _ _ (by omega))]
  exact read_short_write_same _ _ _

theorem slot_at_set_other (page : Page) (number other : Nat) (entry : SlotEntry)
    (numberBound : number ≤ MAXSLOTS) (otherBound : other ≤ MAXSLOTS)
    (different : other ≠ number) :
    (page.setSlot (-(number : Int)) entry).slotAt other = page.slotAt other := by
  apply slot_at_congr
  intro byte inside
  apply set_slot_data_outside
  rw [slot_address_of_number numberBound, slot_address_of_number otherBound]
  simp only [MAXSLOTS] at numberBound otherBound
  omega

/-- The search of `insertRecord` stops at the lowest empty slot, or just past
the last slot. -/
theorem empty_slot_from_spec (page : Page) (steps number : Nat)
    (total : number + steps = page.slotCount) (negative : page.slotCnt ≤ 0) :
    ∃ found : Nat, page.emptySlotFrom steps (-(number : Int)) = -(found : Int) ∧
      number ≤ found ∧ found ≤ page.slotCount ∧
      (∀ between, number ≤ between → between < found →
        (page.slotAt between).length ≠ -1) ∧
      (found < page.slotCount → (page.slotAt found).length = -1) := by
  have count : (page.slotCount : Int) = -page.slotCnt := by
    simp only [slotCount]
    omega
  induction steps generalizing number with
  | zero =>
      refine ⟨number, rfl, le_refl _, by omega, ?_, ?_⟩ <;> intros <;> omega
  | succ steps ih =>
      have inside : -(number : Int) > page.slotCnt := by omega
      simp only [emptySlotFrom, if_pos inside]
      by_cases empty : (page.slot (-(number : Int))).length = -1
      · rw [if_pos empty]
        exact ⟨number, rfl, le_refl _, by omega, by intros; omega, fun _ => empty⟩
      · rw [if_neg empty]
        have next : (-(number : Int) - 1) = -((number + 1 : Nat) : Int) := by omega
        rw [next]
        obtain ⟨found, stop, lower, upper, used, hole⟩ := ih (number + 1) (by omega)
        refine ⟨found, stop, by omega, upper, ?_, hole⟩
        intro between from_ below
        by_cases same : between = number
        · rw [same]
          exact empty
        · exact used between (by omega) below

/-- The search of `firstRecord` and `nextRecord` stops at the lowest slot in
use, or just past the last slot. -/
theorem used_slot_from_spec (page : Page) (steps number : Nat)
    (total : number + steps = page.slotCount) (negative : page.slotCnt ≤ 0) :
    ∃ found : Nat, page.usedSlotFrom steps (-(number : Int)) = -(found : Int) ∧
      number ≤ found ∧ found ≤ page.slotCount ∧
      (∀ between, number ≤ between → between < found →
        (page.slotAt between).length = -1) ∧
      (found < page.slotCount → (page.slotAt found).length ≠ -1) := by
  have count : (page.slotCount : Int) = -page.slotCnt := by
    simp only [slotCount]
    omega
  induction steps generalizing number with
  | zero =>
      refine ⟨number, rfl, le_refl _, by omega, ?_, ?_⟩ <;> intros <;> omega
  | succ steps ih =>
      have inside : -(number : Int) > page.slotCnt := by omega
      simp only [usedSlotFrom, if_pos inside]
      by_cases empty : (page.slot (-(number : Int))).length = -1
      · rw [if_pos empty]
        have next : (-(number : Int) - 1) = -((number + 1 : Nat) : Int) := by omega
        rw [next]
        obtain ⟨found, stop, lower, upper, holes, used⟩ := ih (number + 1) (by omega)
        refine ⟨found, stop, by omega, upper, ?_, used⟩
        intro between from_ below
        by_cases same : between = number
        · rw [same]
          exact empty
        · exact holes between (by omega) below
      · rw [if_neg empty]
        exact ⟨number, rfl, le_refl _, by omega, by intros; omega, fun _ => empty⟩

structure SameFields (left right : Page) : Prop where
  slotCnt : left.slotCnt = right.slotCnt
  freePtr : left.freePtr = right.freePtr
  freeSpace : left.freeSpace = right.freeSpace
  nextPage : left.nextPage = right.nextPage
  curPage : left.curPage = right.curPage

theorem SameFields.refl (page : Page) : SameFields page page := ⟨rfl, rfl, rfl, rfl, rfl⟩

theorem SameFields.trans {first second third : Page} (left : SameFields first second)
    (right : SameFields second third) : SameFields first third :=
  ⟨left.1.trans right.1, left.2.trans right.2, left.3.trans right.3,
    left.4.trans right.4, left.5.trans right.5⟩

theorem set_slot_same_fields (page : Page) (number : Nat) (entry : SlotEntry) :
    SameFields (page.setSlot (-(number : Int)) entry) page := by
  rw [set_slot_number]
  exact ⟨rfl, rfl, rfl, rfl, rfl⟩

/-- Where the compaction moves the record of slot `number` when the record of
slot `removed` goes away. -/
def shiftedEntry (page : Page) (removed : Nat) (number : Nat) : SlotEntry :=
  if (page.slotAt number).length ≥ 0 ∧
      (page.slotAt number).offset > (page.slotAt removed).offset then
    { page.slotAt number with
      offset := (page.slotAt number).offset - (page.slotAt removed).length }
  else page.slotAt number

/-- Offsets and lengths that survive a store into a `short`. -/
def EntriesInRange (page : Page) (count : Nat) : Prop :=
  ∀ number, number < count →
    -1 ≤ (page.slotAt number).length ∧ (page.slotAt number).length ≤ 1004 ∧
      0 ≤ (page.slotAt number).offset ∧ (page.slotAt number).offset ≤ 1004

/-- The offset loop after `rounds` rounds. Slot `removed` itself is never
changed, since its offset is not above itself, so each round compares with the
same offset. -/
theorem adjust_offsets_spec (page : Page) (removed count rounds : Nat)
    (countBound : count ≤ MAXSLOTS) (removedBound : removed < count)
    (roundsBound : rounds ≤ count) (ranges : EntriesInRange page count) :
    let adjusted := (List.range rounds).foldl
      (adjustOffset (-(removed : Int)) (page.slotAt removed).length) page
    SameFields adjusted page ∧
      (∀ number, number < count → adjusted.slotAt number =
        if number < rounds then page.shiftedEntry removed number
        else page.slotAt number) ∧
      ∀ address, address < 1008 - 4 * count → adjusted.data address = page.data address := by
  induction rounds with
  | zero =>
      exact ⟨SameFields.refl page, fun number _ => by simp, fun _ _ => rfl⟩
  | succ rounds ih =>
      obtain ⟨fields, slots, bytes⟩ := ih (by omega)
      rw [List.range_succ, List.foldl_append]
      simp only [List.foldl_cons, List.foldl_nil]
      set adjusted := (List.range rounds).foldl
        (adjustOffset (-(removed : Int)) (page.slotAt removed).length) page with adjustedDef
      have current : adjusted.slot (-(rounds : Int)) = page.slotAt rounds := by
        have here := slots rounds (by omega)
        rw [if_neg (lt_irrefl rounds)] at here
        exact here
      have pivot : (adjusted.slot (-(removed : Int))).offset = (page.slotAt removed).offset := by
        have here := slots removed removedBound
        change adjusted.slot (-(removed : Int)) = _ at here
        rw [here]
        split_ifs
        · simp [shiftedEntry]
        · rfl
      have removedRange := ranges removed removedBound
      have roundsRange := ranges rounds (by omega)
      simp only [adjustOffset, current, pivot]
      split_ifs with moves
      · refine ⟨(set_slot_same_fields _ _ _).trans fields, ?_, ?_⟩
        · intro number bound
          by_cases same : number = rounds
          · subst same
            rw [slot_at_set_same, if_pos (by omega)]
            simp only [shiftedEntry, if_pos moves]
            rw [to_short_of_range (by omega) (by omega), to_short_of_range (by omega) (by omega)]
          · rw [slot_at_set_other _ _ _ _ (by omega) (by omega) same, slots number bound]
            by_cases before : number < rounds
            · rw [if_pos before, if_pos (by omega)]
            · rw [if_neg before, if_neg (by omega)]
        · intro address below
          rw [set_slot_data_outside _ _ _ _ ?_, bytes address below]
          rw [slot_address_of_number (by omega)]
          simp only [MAXSLOTS] at countBound
          omega
      · refine ⟨fields, ?_, bytes⟩
        intro number bound
        rw [slots number bound]
        by_cases same : number = rounds
        · subst same
          rw [if_neg (lt_irrefl _), if_pos (by omega)]
          simp only [shiftedEntry, if_neg moves]
        · by_cases before : number < rounds
          · rw [if_pos before, if_pos (by omega)]
          · rw [if_neg before, if_neg (by omega)]

theorem compact_slots_spec (steps : Nat) (page : Page) (positive : 0 < steps)
    (count : page.slotCnt = -(steps : Int)) (bound : steps ≤ MAXSLOTS)
    (space : 0 ≤ page.freeSpace) (room : page.freeSpace + 4 * steps ≤ 1004) :
    ∃ kept : Nat, kept < steps ∧
      compactSlots steps page =
        { page with
          slotCnt := -(kept : Int)
          freeSpace := page.freeSpace + 4 * ((steps : Int) - kept) } ∧
      (∀ number, kept ≤ number → number + 1 < steps → (page.slotAt number).length = -1) ∧
      (0 < kept → (page.slotAt (kept - 1)).length ≠ -1) := by
  induction steps generalizing page with
  | zero => omega
  | succ steps ih =>
      simp only [MAXSLOTS] at bound
      have slotCnt' : toShort (page.slotCnt + 1) = -(steps : Int) := by
        rw [count, to_short_of_range (by omega) (by omega)]
        omega
      have freeSpace' : toShort (page.freeSpace + (SLOTSIZE : Int)) = page.freeSpace + 4 := by
        simp only [SLOTSIZE]
        rw [to_short_of_range (by push_cast at *; omega) (by push_cast at *; omega)]
        rfl
      simp only [compactSlots, slotCnt', freeSpace']
      set shrunk : Page := { page with
        slotCnt := -(steps : Int), freeSpace := page.freeSpace + 4 } with shrunkDef
      have slots : ∀ number, shrunk.slotAt number = page.slotAt number :=
        fun number => slot_at_congr (fun _ _ => rfl)
      split_ifs with more
      · obtain ⟨some_, hole⟩ := more
        have stepsPos : 0 < steps := by omega
        obtain ⟨kept, below, result, holes, used⟩ := ih shrunk stepsPos rfl
          (by simp only [MAXSLOTS]; omega)
          (by simp only [shrunkDef]; omega)
          (by simp only [shrunkDef]; push_cast at *; omega)
        simp only [slots] at holes used
        refine ⟨kept, by omega, ?_, ?_, used⟩
        · rw [result, shrunkDef]
          simp only [Page.mk.injEq, true_and, and_true]
          push_cast
          omega
        · intro number from_ upper
          by_cases same : number + 1 = steps
          · have index : -(steps : Int) + 1 = -(number : Int) := by omega
            rw [index] at hole
            rw [← slots]
            exact hole
          · exact holes number from_ (by omega)
      · refine ⟨steps, by omega, ?_, by intros; omega, ?_⟩
        · rw [shrunkDef]
          simp only [Page.mk.injEq, true_and, and_true]
          push_cast
          omega
        · intro stepsPos hole
          apply more
          refine ⟨by omega, ?_⟩
          have index : -(steps : Int) + 1 = -((steps - 1 : Nat) : Int) := by omega
          rw [index]
          rw [← slots] at hole
          exact hole

end PrimitiveDB.Page

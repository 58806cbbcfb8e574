import PrimitiveDB.ErrorCodes

/-!
# The slotted page

A transcription of `page.h` and `page.C`. A page is `data[PAGESIZE - DPFIXED]`
followed by `slot[1]`; the slot array grows backwards, so `slot[-1]`, `slot[-2]`
and so on are laid over the end of `data`. The model keeps that aliasing: there
is one byte memory, and `slot[i]` is read from its bytes `1004 + 4 i`. Slot
indices above zero, which the code reaches with a negative `slotNo`, run into
the fields that follow the array. `short` fields are truncated at every store.
-/

namespace PrimitiveDB

open ByteMemory

set_option autoImplicit false

structure RID where
  pageNo : Int
  slotNo : Int
  deriving DecidableEq, Repr

def NULLRID : RID := ⟨-1, -1⟩

/-- The bytes of a record; `rec.length` is the length of the list. -/
abbrev Record := List Byte

/-- A slot; the length is `-1` if the slot is not in use. -/
structure SlotEntry where
  offset : Int
  length : Int
  deriving DecidableEq, Repr

def PAGESIZE : Nat := 1024

def SLOTSIZE : Nat := 4

def DPFIXED : Nat := SLOTSIZE + 4 * 2 + 2 * 4

/-- Bytes of `data[]`: everything in front of `slot[0]`. -/
def DATASIZE : Nat := PAGESIZE - DPFIXED

structure Page where
  data : Memory
  slotCnt : Int
  freePtr : Int
  freeSpace : Int
  dummy : Int
  nextPage : Int
  curPage : Int

namespace Page

/-- A page after `memset(&page, 0, sizeof page)`. -/
def zeroPage : Page :=
  { data := fun _ => 0, slotCnt := 0, freePtr := 0, freeSpace := 0, dummy := 0
    nextPage := 0, curPage := 0 }

def slotAddress (index : Int) : Nat := ((DATASIZE : Int) + SLOTSIZE * index).toNat

/-- `slot[index]`. An index above zero names the struct fields behind the slot
array, two `short`s at a time; past `curPage` there is nothing of this page. -/
def slot (page : Page) (index : Int) : SlotEntry :=
  if index ≤ 0 then
    { offset := readShort page.data (slotAddress index)
      length := readShort page.data (slotAddress index + 2) }
  else if index = 1 then { offset := page.slotCnt, length := page.freePtr }
  else if index = 2 then { offset := page.freeSpace, length := page.dummy }
  else if index = 3 then
    { offset := toShort page.nextPage, length := toShort (page.nextPage / 65536) }
  else if index = 4 then
    { offset := toShort page.curPage, length := toShort (page.curPage / 65536) }
  else { offset := 0, length := 0 }

/-- `slot[index] = entry`, with the same aliasing as `slot`. -/
def setSlot (page : Page) (index : Int) (entry : SlotEntry) : Page :=
  if index ≤ 0 then
    { page with
      data := writeShort (writeShort page.data (slotAddress index) entry.offset)
        (slotAddress index + 2) entry.length }
  else if index = 1 then
    { page with slotCnt := toShort entry.offset, freePtr := toShort entry.length }
  else if index = 2 then
    { page with freeSpace := toShort entry.offset, dummy := toShort entry.length }
  else if index = 3 then
    { page with nextPage := toShort entry.length * 65536 + entry.offset % 65536 }
  else if index = 4 then
    { page with curPage := toShort entry.length * 65536 + entry.offset % 65536 }
  else page

/-- `Page::init`. The data bytes, the slot entries and `dummy` stay as they
were in the frame. -/
def init (page : Page) (pageNo : Int) : Page :=
  { page with
    nextPage := -1
    slotCnt := 0
    curPage := pageNo
    freePtr := 0
    freeSpace := toShort DATASIZE }

def setNextPage (page : Page) (pageNo : Int) : Page := { page with nextPage := pageNo }

def getNextPage (page : Page) : Int := page.nextPage

def getFreeSpace (page : Page) : Int := page.freeSpace

/-- The loop that looks for an empty slot: from `index` down to `slotCnt`. -/
def emptySlotFrom (page : Page) : Nat → Int → Int
  | 0, index => index
  | steps + 1, index =>
      if index > page.slotCnt then
        if (page.slot index).length = -1 then index
        else emptySlotFrom page steps (index - 1)
      else index

def insertRecord (page : Page) (rec : Record) : Except Status RID × Page :=
  let spaceNeeded : Int := rec.length + SLOTSIZE
  if spaceNeeded > page.freeSpace then (.error .NOSPACE, page)
  else
    let index := page.emptySlotFrom (-page.slotCnt).toNat 0
    let counted :=
      if index = page.slotCnt then
        -- using a new slot
        { page with
          freeSpace := toShort (page.freeSpace - spaceNeeded)
          slotCnt := toShort (page.slotCnt - 1) }
      else
        -- reusing an existing slot
        { page with freeSpace := toShort (page.freeSpace - rec.length) }
    let slotted := counted.setSlot index { offset := page.freePtr, length := rec.length }
    let copied := { slotted with
      data := writeBytes slotted.data page.freePtr.toNat rec
      freePtr := toShort (page.freePtr + rec.length) }
    (.ok { pageNo := page.curPage, slotNo := -index }, copied)

/-- One round of the loop that moves the offsets of all valid slots to the
right of the removed record. -/
def adjustOffset (slotNo recLen : Int) (page : Page) (index : Nat) : Page :=
  let entry := page.slot (-index)
  if entry.length ≥ 0 ∧ entry.offset > (page.slot slotNo).offset then
    page.setSlot (-index) { entry with offset := entry.offset - recLen }
  else page

/-- The `do ... while` that gives the end of the slot array back, together with
the slots in front of it that were emptied earlier. -/
def compactSlots : Nat → Page → Page
  | 0, page => page
  | steps + 1, page =>
      let shrunk := { page with
        slotCnt := toShort (page.slotCnt + 1)
        freeSpace := toShort (page.freeSpace + SLOTSIZE) }
      if shrunk.slotCnt < 0 ∧ (shrunk.slot (shrunk.slotCnt + 1)).length = -1 then
        compactSlots steps shrunk
      else shrunk

/-- With a negative slot number the entry may lie in the fields of the page, and its
offset in front of the page; such an offset counts as 0. -/
def deleteRecord (page : Page) (rid : RID) : Status × Page :=
  let slotNo := -rid.slotNo
  if slotNo > page.slotCnt ∧ (page.slot slotNo).length > 0 then
    let offset := (page.slot slotNo).offset
    let recLen := (page.slot slotNo).length
    let nextOffset := offset + recLen
    -- shift bytes to the left
    let moved := { page with
      data := moveBytes page.data nextOffset.toNat offset.toNat
        (page.freePtr - nextOffset).toNat }
    let adjusted := (List.range (-page.slotCnt).toNat).foldl (adjustOffset slotNo recLen) moved
    let freed := { adjusted with
      freePtr := toShort (adjusted.freePtr - recLen)
      freeSpace := toShort (adjusted.freeSpace + recLen) }
    if slotNo = freed.slotCnt + 1 then
      (.OK, compactSlots (-freed.slotCnt).toNat freed)
    else
      (.OK, freed.setSlot slotNo { offset := 0, length := -1 })
  else (.INVALIDSLOTNO, page)

/-- The loop of `firstRecord` and `nextRecord`: skip empty slots. -/
def usedSlotFrom (page : Page) : Nat → Int → Int
  | 0, index => index
  | steps + 1, index =>
      if index > page.slotCnt then
        if (page.slot index).length = -1 then usedSlotFrom page steps (index - 1)
        else index
      else index

def firstRecord (page : Page) : Except Status RID :=
  let index := page.usedSlotFrom (-page.slotCnt).toNat 0
  if index = page.slotCnt ∨ (page.slot index).length = -1 then .error .NORECORDS
  else .ok { pageNo := page.curPage, slotNo := -index }

def nextRecord (page : Page) (curRid : RID) : Except Status RID :=
  let start := -curRid.slotNo - 1
  let index := page.usedSlotFrom (start - page.slotCnt).toNat start
  if index ≤ page.slotCnt ∨ (page.slot index).length = -1 then .error .ENDOFPAGE
  else .ok { pageNo := page.curPage, slotNo := -index }

def getRecord (page : Page) (rid : RID) : Except Status Record :=
  if -rid.slotNo > page.slotCnt ∧ (page.slot (-rid.slotNo)).length > 0 then
    let entry := page.slot (-rid.slotNo)
    .ok (readBytes page.data entry.offset.toNat entry.length.toNat)
  else .error .INVALIDSLOTNO

end Page

end PrimitiveDB

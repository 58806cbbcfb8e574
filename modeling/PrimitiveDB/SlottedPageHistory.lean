import PrimitiveDB.SlottedPageMap

/-!
# Every insert and delete history of a page

The invariant of `SlottedPageMap` holds after any sequence of inserts and
deletes that starts at `Page::init`. `PageContract` spells out what that gives
the clients of the page: the byte ranges, the space accounting, and the effect
of the next call on every RID.
-/

namespace PrimitiveDB.Page

open ByteMemory

set_option autoImplicit false

inductive PageCall where
  | insert (rec : Record)
  | delete (rid : RID)

/-- An insert that passes the length check of `InsertFileScan::insertRecord`,
or a delete that names a slot of the slot array. -/
def PageCall.Allowed (page : Page) : PageCall → Prop
  | .insert rec => 1 ≤ rec.length ∧ rec.length ≤ DATASIZE
  | .delete rid => 0 ≤ rid.slotNo ∧ rid.slotNo < page.slotCount

def PageCall.run (page : Page) : PageCall → Page
  | .insert rec => (page.insertRecord rec).2
  | .delete rid => (page.deleteRecord rid).2

/-- The pages that inserts and deletes make out of a newly initialized frame,
whatever bytes the frame held before. -/
inductive Reachable : Page → Prop where
  | init (stale : Page) (pageNo : Int) : Reachable (stale.init pageNo)
  | call {page : Page} (prior : Reachable page) (call : PageCall)
      (allowed : call.Allowed page) : Reachable (call.run page)

theorem page_call_well_formed {page : Page} (wf : page.WellFormed) (call : PageCall)
    (allowed : call.Allowed page) : (call.run page).WellFormed := by
  cases call with
  | insert rec =>
      by_cases fits : (rec.length : Int) + SLOTSIZE ≤ page.freeSpace
      · obtain ⟨number, after, result, wf', _⟩ := insert_record_spec page wf rec allowed.1 fits
        simpa only [PageCall.run, result] using wf'
      · simpa only [PageCall.run, insert_record_no_space page rec fits] using wf
  | delete rid =>
      obtain ⟨pageNo, slotNo⟩ := rid
      obtain ⟨lower, _⟩ := allowed
      obtain ⟨number, rfl⟩ := Int.eq_ofNat_of_zero_le lower
      by_cases live : page.Live number
      · obtain ⟨after, result, wf', _⟩ := delete_record_spec page wf pageNo number live
        simpa only [PageCall.run, result] using wf'
      · have result := delete_record_dead page wf.slotCnt_nonpos pageNo number live
        simpa only [PageCall.run, result] using wf

theorem reachable_well_formed {page : Page} (reachable : Reachable page) :
    page.WellFormed := by
  induction reachable with
  | init stale pageNo => exact init_well_formed stale pageNo
  | call prior call allowed ih => exact page_call_well_formed ih call allowed

/-- `deleteRecord` of each of `numbers`, in that order. -/
def deleteAll (page : Page) (numbers : List Nat) : Page :=
  numbers.foldl (fun current number => (current.deleteRecord ⟨current.curPage, number⟩).2) page

theorem delete_all_live (numbers : List Nat) (page : Page) (wf : page.WellFormed) :
    (page.deleteAll numbers).WellFormed ∧
      ∀ number, (page.deleteAll numbers).Live number ↔
        page.Live number ∧ number ∉ numbers := by
  induction numbers generalizing page with
  | nil => simpa [deleteAll] using wf
  | cons head rest ih =>
      have step : (page.deleteRecord ⟨page.curPage, head⟩).2.WellFormed ∧
          ∀ number, (page.deleteRecord ⟨page.curPage, head⟩).2.Live number ↔
            page.Live number ∧ number ≠ head := by
        by_cases live : page.Live head
        · obtain ⟨_, kept, layout⟩ := delete_record_layout page wf page.curPage head live
          exact ⟨layout.well_formed wf live, layout.live_iff⟩
        · rw [delete_record_dead page wf.slotCnt_nonpos page.curPage head live]
          refine ⟨wf, fun number => ⟨fun alive => ⟨alive, ?_⟩, And.left⟩⟩
          rintro rfl
          exact live alive
      obtain ⟨wf', live'⟩ := ih _ step.1
      refine ⟨wf', fun number => ?_⟩
      have unfolded : page.deleteAll (head :: rest) =
          (page.deleteRecord ⟨page.curPage, head⟩).2.deleteAll rest := rfl
      rw [unfolded, live', step.2]
      simp only [List.mem_cons, not_or, and_assoc]

structure PageContract (page : Page) : Prop where
  /-- Live records lie in `[0, freePtr)` and share no byte. -/
  ranges : ∀ number, page.Live number → 0 ≤ (page.slotAt number).offset ∧
    (page.slotAt number).offset + (page.slotAt number).length ≤ page.freePtr
  disjoint : ∀ first second, page.Live first → page.Live second → first ≠ second →
    ∀ byte, ¬(page.Covers first byte ∧ page.Covers second byte)
  /-- No byte of `[0, freePtr)` is left over. -/
  tiled : ∀ byte, 0 ≤ byte → byte < page.freePtr → ∃ number, page.Covers number byte
  space : page.freeSpace = (PAGESIZE - DPFIXED : Int) - page.freePtr - 4 * -page.slotCnt
  /-- The record bytes end below every entry of the slot array. -/
  separate : ∀ number, number < page.slotCount →
    page.freePtr ≤ slotAddress (-(number : Int))
  last : page.slotCnt < 0 → page.Live (page.slotCount - 1)
  emptied : ∀ order : List Nat, (∀ number, number ∈ order ↔ page.Live number) →
    (page.deleteAll order).slotCnt = 0 ∧ (page.deleteAll order).freePtr = 0 ∧
      (page.deleteAll order).freeSpace = PAGESIZE - DPFIXED
  insert_ok : ∀ rec : Record, 1 ≤ rec.length → rec.length ≤ DATASIZE →
    ((∃ rid, (page.insertRecord rec).1 = .ok rid) ↔
      (rec.length : Int) + SLOTSIZE ≤ page.freeSpace)
  insert_effect : ∀ (rec : Record) (rid : RID) (after : Page), 1 ≤ rec.length →
    page.insertRecord rec = (.ok rid, after) →
      ∃ number : Nat, rid = ⟨page.curPage, number⟩ ∧ ¬page.Live number ∧
        after.getRecord rid = .ok rec ∧
        ∀ other, page.Live other → ∀ pageNo,
          after.getRecord ⟨pageNo, other⟩ = page.getRecord ⟨pageNo, other⟩
  insert_refused : ∀ (rec : Record) (status : Status) (after : Page),
    page.insertRecord rec = (.error status, after) → status = .NOSPACE ∧ after = page
  delete_effect : ∀ (pageNo : Int) (number : Nat), page.Live number →
    ∃ after, page.deleteRecord ⟨pageNo, number⟩ = (.OK, after) ∧ ¬after.Live number ∧
      (∀ other, after.Live other ↔ page.Live other ∧ other ≠ number) ∧
      ∀ other, page.Live other → other ≠ number → ∀ pageNo',
        after.getRecord ⟨pageNo', other⟩ = page.getRecord ⟨pageNo', other⟩
  delete_refused : ∀ (pageNo : Int) (number : Nat), ¬page.Live number →
    page.deleteRecord ⟨pageNo, number⟩ = (.INVALIDSLOTNO, page)

/-- A call that keeps a binding of the map keeps what `getRecord` returns. -/
theorem get_record_of_record {before after : Page} (wf : before.WellFormed)
    (wf' : after.WellFormed) {number : Nat}
    (same : after.record number = before.record number) (pageNo : Int) :
    after.getRecord ⟨pageNo, number⟩ = before.getRecord ⟨pageNo, number⟩ := by
  rw [get_record_eq wf'.slotCnt_nonpos, get_record_eq wf.slotCnt_nonpos, same]

theorem slotted_page_is_finite_map (page : Page) (reachable : Reachable page) :
    PageContract page := by
  have wf := reachable_well_formed reachable
  have count := wf.count
  have countBound := wf.count_le
  have space := wf.space
  have free := wf.freeSpace_nonneg
  refine
    { ranges := fun number live => (wf.live_bounds live).2
      disjoint := ?_
      tiled := fun byte lower upper => (wf.tiled byte lower upper).exists
      space := ?_
      separate := ?_
      last := fun some_ => wf.last (by omega)
      emptied := ?_
      insert_ok := ?_
      insert_effect := ?_
      insert_refused := ?_
      delete_effect := ?_
      delete_refused := fun pageNo number dead =>
        delete_record_dead page wf.slotCnt_nonpos pageNo number dead }
  · rintro first second _ _ different byte ⟨firstOwns, secondOwns⟩
    have bounds := wf.live_bounds firstOwns.1
    obtain ⟨owner, _, unique⟩ := wf.tiled byte (bounds.2.1.trans firstOwns.2.1)
      (firstOwns.2.2.trans_le bounds.2.2)
    exact different ((unique first firstOwns).trans (unique second secondOwns).symm)
  · simp only [PAGESIZE, DPFIXED, SLOTSIZE]
    push_cast
    omega
  · intro number bound
    rw [slot_address_of_number (by omega)]
    simp only [MAXSLOTS] at countBound
    omega
  · intro order complete
    obtain ⟨wf', live'⟩ := delete_all_live order page wf
    have dead : ∀ number, ¬(page.deleteAll order).Live number := by
      intro number alive
      have both := (live' number).mp alive
      exact both.2 ((complete number).mpr both.1)
    exact wf'.empty_of_no_live dead
  · intro rec nonempty _
    constructor
    · rintro ⟨rid, ok⟩
      by_contra full
      rw [insert_record_no_space page rec full] at ok
      cases ok
    · intro fits
      obtain ⟨number, after, result, _⟩ := insert_record_spec page wf rec nonempty fits
      exact ⟨_, congrArg Prod.fst result⟩
  · intro rec rid after nonempty result
    by_cases fits : (rec.length : Int) + SLOTSIZE ≤ page.freeSpace
    · obtain ⟨number, after', result', wf', fresh, _, inserted, kept, _⟩ :=
        insert_record_spec page wf rec nonempty fits
      rw [result] at result'
      obtain ⟨ridEq, rfl⟩ := Prod.mk.inj result'
      obtain rfl : rid = ⟨page.curPage, number⟩ := Except.ok.inj ridEq
      refine ⟨number, rfl, fresh, ?_, ?_⟩
      · rw [get_record_eq wf'.slotCnt_nonpos, inserted]
      · intro other live pageNo
        have different : other ≠ number := by
          rintro rfl
          exact fresh live
        exact get_record_of_record wf wf' (kept other different) pageNo
    · rw [insert_record_no_space page rec fits] at result
      cases result
  · intro rec status after result
    by_cases fits : (rec.length : Int) + SLOTSIZE ≤ page.freeSpace
    · obtain ⟨number, ok, _⟩ := insert_record_layout page wf rec fits
      rw [result] at ok
      cases ok
    · rw [insert_record_no_space page rec fits] at result
      cases result
      exact ⟨rfl, rfl⟩
  · intro pageNo number live
    obtain ⟨status, kept, layout⟩ := delete_record_layout page wf pageNo number live
    have wf' := layout.well_formed wf live
    refine ⟨_, Prod.ext status rfl, ?_, layout.live_iff, ?_⟩
    · rw [layout.live_iff]
      exact fun both => both.2 rfl
    · intro other _ different pageNo'
      exact get_record_of_record wf wf' (layout.record_other wf live different) pageNo'

/-- Two inserts, then the first record goes: the second one moves to offset 0
and is still read back through its own slot. -/
def compactedPage : Page :=
  ((((zeroPage.init 2).insertRecord [7, 8, 9]).2.insertRecord [1, 2]).2.deleteRecord
    ⟨2, 0⟩).2

theorem compacted_page_reachable : Reachable compactedPage := by
  have first : Reachable _ := .call (.init zeroPage 2) (.insert [7, 8, 9])
    ⟨by decide, by decide⟩
  have second : Reachable _ := .call first (.insert [1, 2]) ⟨by decide, by decide⟩
  exact .call second (.delete ⟨2, 0⟩) ⟨by decide, by decide⟩

theorem slotted_page_is_finite_map_compacted :
    PageContract compactedPage ∧ compactedPage.getRecord ⟨2, 1⟩ = .ok [1, 2] ∧
      compactedPage.freePtr = 2 := by
  refine ⟨slotted_page_is_finite_map _ compacted_page_reachable, ?_, ?_⟩
  · rfl
  · rfl

end PrimitiveDB.Page

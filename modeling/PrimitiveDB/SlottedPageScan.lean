import PrimitiveDB.SlottedPageMap

/-!
# Walking over the records of a page

`liveFrom` lists the live slots from a given one on. On a well-formed page
`firstRecord` and `nextRecord` return the head of such a list, also when the
slot array has become shorter than the current slot.
-/

namespace PrimitiveDB.Page

open ByteMemory

set_option autoImplicit false

variable {page : Page}

def liveFrom (page : Page) (start : Nat) : List Nat :=
  (List.range page.slotCount).filter fun number => start ≤ number ∧ page.Live number

theorem mem_live_from {start number : Nat} :
    number ∈ page.liveFrom start ↔ start ≤ number ∧ page.Live number := by
  simp only [liveFrom, List.mem_filter, List.mem_range, decide_eq_true_eq]
  constructor
  · exact fun member => member.2
  · exact fun live => ⟨live.2.1, live⟩

theorem live_from_sorted (start : Nat) : (page.liveFrom start).Pairwise (· < ·) :=
  List.pairwise_lt_range.filter _

theorem live_from_length_le (start : Nat) : (page.liveFrom start).length ≤ page.slotCount := by
  have bound := List.length_filter_le (fun number => decide (start ≤ number ∧ page.Live number))
    (List.range page.slotCount)
  rwa [List.length_range] at bound

theorem ascending_ext {left right : List Nat} (leftSorted : left.Pairwise (· < ·))
    (rightSorted : right.Pairwise (· < ·)) (same : ∀ number, number ∈ left ↔ number ∈ right) :
    left = right := by
  have perm := (List.perm_ext_iff_of_nodup (leftSorted.imp ne_of_lt)
    (rightSorted.imp ne_of_lt)).mpr same
  exact List.Perm.eq_of_pairwise (fun _ _ _ _ less more => absurd less (by omega)) leftSorted
    rightSorted perm

theorem live_from_congr {other : Page} {start start' : Nat}
    (same : ∀ number, start ≤ number ∧ page.Live number ↔ start' ≤ number ∧ other.Live number) :
    page.liveFrom start = other.liveFrom start' := by
  apply ascending_ext (live_from_sorted start) (live_from_sorted start')
  intro number
  rw [mem_live_from, mem_live_from]
  exact same number

theorem live_from_cons {start number : Nat} {rest : List Nat}
    (live : page.liveFrom start = number :: rest) : rest = page.liveFrom (number + 1) := by
  have sorted : (page.liveFrom start).Pairwise (· < ·) := live_from_sorted start
  rw [live] at sorted
  obtain ⟨above, restSorted⟩ := List.pairwise_cons.mp sorted
  have listed : ∀ other, other ∈ number :: rest ↔ start ≤ other ∧ page.Live other := by
    intro other
    rw [← live, mem_live_from]
  have first := (listed number).mp List.mem_cons_self
  apply ascending_ext restSorted (live_from_sorted _)
  intro other
  rw [mem_live_from]
  constructor
  · intro member
    have later := above other member
    exact ⟨by omega, ((listed other).mp (List.mem_cons_of_mem _ member)).2⟩
  · intro behind
    have member := (listed other).mpr ⟨by omega, behind.2⟩
    rcases List.mem_cons.mp member with equal | member
    · omega
    · exact member

theorem live_from_head {start number : Nat} (live : page.Live number) (bound : start ≤ number)
    (between : ∀ other, start ≤ other → other < number → ¬page.Live other) :
    ∃ rest, page.liveFrom start = number :: rest := by
  cases listed : page.liveFrom start with
  | nil =>
      have member : number ∈ page.liveFrom start := mem_live_from.mpr ⟨bound, live⟩
      rw [listed] at member
      cases member
  | cons first rest =>
      have sorted : (page.liveFrom start).Pairwise (· < ·) := live_from_sorted start
      rw [listed] at sorted
      have above := (List.pairwise_cons.mp sorted).1
      have firstLive : start ≤ first ∧ page.Live first := by
        rw [← mem_live_from, listed]
        exact List.mem_cons_self
      have member : number ∈ first :: rest := by
        rw [← listed, mem_live_from]
        exact ⟨bound, live⟩
      rcases List.mem_cons.mp member with equal | later
      · exact ⟨rest, by rw [equal]⟩
      · exact absurd firstLive.2 (between first firstLive.1 (above number later))

def foundFrom (page : Page) (start : Nat) (status : Status) : Except Status RID :=
  match page.liveFrom start with
  | [] => .error status
  | number :: _ => .ok { pageNo := page.curPage, slotNo := number }

theorem WellFormed.used_slot (wf : page.WellFormed) {start : Nat} (bound : start ≤ page.slotCount) :
    ∃ found : Nat,
      page.usedSlotFrom (page.slotCount - start) (-(start : Int)) = -(found : Int) ∧
      ((found = page.slotCount ∧ page.liveFrom start = []) ∨
        (found < page.slotCount ∧ page.Live found ∧
          ∃ rest, page.liveFrom start = found :: rest)) := by
  obtain ⟨found, run, lower, upper, skipped, stops⟩ :=
    used_slot_from_spec page (page.slotCount - start) start (by omega) wf.slotCnt_nonpos
  have dead : ∀ other, start ≤ other → other < found → ¬page.Live other := by
    intro other above below live
    have positive := live.2
    rw [skipped other above below] at positive
    omega
  refine ⟨found, run, ?_⟩
  by_cases inside : found < page.slotCount
  · have live := wf.live_of_used inside (stops inside)
    exact .inr ⟨inside, live, live_from_head live lower dead⟩
  · refine .inl ⟨by omega, ?_⟩
    rw [List.eq_nil_iff_forall_not_mem]
    intro other member
    obtain ⟨above, live⟩ := mem_live_from.mp member
    have below := live.1
    exact dead other above (by omega) live

theorem WellFormed.first_record (wf : page.WellFormed) :
    page.firstRecord = page.foundFrom 0 .NORECORDS := by
  have count := wf.count
  obtain ⟨found, run, outcome⟩ := wf.used_slot (Nat.zero_le _)
  have steps : (-page.slotCnt).toNat = page.slotCount - 0 := rfl
  simp only [firstRecord, foundFrom]
  rw [steps, show (0 : Int) = -((0 : Nat) : Int) from rfl, run]
  rcases outcome with ⟨rfl, empty⟩ | ⟨inside, live, rest, listed⟩
  · rw [if_pos (.inl count.symm), empty]
  · have positive : 0 < (page.slot (-(found : Int))).length := live.2
    rw [if_neg (by omega), listed, neg_neg]

theorem WellFormed.next_record (wf : page.WellFormed) {rid : RID} {start : Nat}
    (next : rid.slotNo + 1 = start) : page.nextRecord rid = page.foundFrom start .ENDOFPAGE := by
  have count := wf.count
  have begins : -rid.slotNo - 1 = -(start : Int) := by omega
  simp only [nextRecord, foundFrom]
  rw [begins]
  by_cases bound : start ≤ page.slotCount
  · obtain ⟨found, run, outcome⟩ := wf.used_slot bound
    have steps : (-(start : Int) - page.slotCnt).toNat = page.slotCount - start := by omega
    rw [steps, run]
    rcases outcome with ⟨rfl, empty⟩ | ⟨inside, live, rest, listed⟩
    · rw [if_pos (.inl (by omega)), empty]
    · have positive : 0 < (page.slot (-(found : Int))).length := live.2
      rw [if_neg (by omega), listed, neg_neg]
  · have steps : (-(start : Int) - page.slotCnt).toNat = 0 := by omega
    have empty : page.liveFrom start = [] := by
      rw [List.eq_nil_iff_forall_not_mem]
      intro other member
      obtain ⟨above, live⟩ := mem_live_from.mp member
      have below := live.1
      omega
    rw [steps, empty, usedSlotFrom, if_pos (.inl (by omega))]

end PrimitiveDB.Page

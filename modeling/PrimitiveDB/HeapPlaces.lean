import PrimitiveDB.ScanRuns
import PrimitiveDB.HeapTuples
import PrimitiveDB.FeedingLoops

/-!
# Where an insertion goes, and what a scan has in front of it

An insertion takes the lowest free slot of the last page or opens a new page, and the bytes
that were in the frame of the new page decide nothing. A scan that stands somewhere has in front
of it what comes later in the order of the chain, also when the file has grown meanwhile.
-/

namespace PrimitiveDB

open World

set_option autoImplicit false

namespace Page

variable {left right : Page}

theorem slot_count_alike (wfLeft : left.WellFormed) (wfRight : right.WellFormed)
    (same : ∀ number, left.Live number ↔ right.Live number) : left.slotCount = right.slotCount := by
  have bound : ∀ {left right : Page}, left.WellFormed →
      (∀ number, left.Live number → right.Live number) → left.slotCount ≤ right.slotCount := by
    intro left right wf implies
    by_cases empty : left.slotCount = 0
    · omega
    · have last := implies _ (wf.last (by omega))
      have inside := last.1
      omega
  exact Nat.le_antisymm (bound wfLeft fun number => (same number).mp)
    (bound wfRight fun number => (same number).mpr)

/-- The records lie one behind the other, so their lengths add up to the used part. -/
theorem WellFormed.free_ptr_eq (wf : left.WellFormed) :
    left.freePtr.toNat =
      ∑ number ∈ Finset.range left.slotCount, (left.record number).elim 0 List.length := by
  let live := (Finset.range left.slotCount).filter left.Live
  let bytes : Nat → Finset Int := fun number => Finset.Ico (left.slotAt number).offset
    ((left.slotAt number).offset + (left.slotAt number).length)
  have disjoint : (live : Set Nat).PairwiseDisjoint bytes := by
    intro first inFirst second inSecond different
    apply Finset.disjoint_left.mpr
    intro byte firstHas secondHas
    have apart := wf.disjoint (Finset.mem_filter.mp inFirst).2 (Finset.mem_filter.mp inSecond).2
      different
    have inside := And.intro (Finset.mem_Ico.mp firstHas) (Finset.mem_Ico.mp secondHas)
    omega
  have whole : Finset.Ico 0 left.freePtr = live.biUnion bytes := by
    ext byte
    simp only [Finset.mem_Ico, Finset.mem_biUnion, live, Finset.mem_filter, Finset.mem_range,
      bytes]
    constructor
    · rintro ⟨lower, upper⟩
      obtain ⟨number, ⟨alive, inside⟩, _⟩ := wf.tiled byte lower upper
      exact ⟨number, ⟨alive.1, alive⟩, inside⟩
    · rintro ⟨number, ⟨_, alive⟩, inside⟩
      have bounds := wf.live_bounds alive
      omega
  have counted : left.freePtr.toNat = (Finset.Ico 0 left.freePtr).card := by
    rw [Int.card_Ico, sub_zero]
  rw [counted, whole, Finset.card_biUnion disjoint, Finset.sum_filter]
  apply Finset.sum_congr rfl
  intro number _
  unfold record
  split_ifs with alive
  · simp only [bytes, Int.card_Ico, add_sub_cancel_left, Option.elim_some,
      ByteMemory.read_bytes_length]
  · rfl

theorem free_space_alike (wfLeft : left.WellFormed) (wfRight : right.WellFormed)
    (same : ∀ number, left.record number = right.record number) :
    left.freeSpace = right.freeSpace := by
  have counts : left.slotCount = right.slotCount := by
    apply slot_count_alike wfLeft wfRight
    intro number
    rw [← record_is_some_iff, ← record_is_some_iff, same]
  have used : left.freePtr.toNat = right.freePtr.toNat := by
    rw [wfLeft.free_ptr_eq, wfRight.free_ptr_eq, counts]
    apply Finset.sum_congr rfl
    intro number _
    rw [same]
  have spaces := And.intro wfLeft.space wfRight.space
  have nonneg := And.intro wfLeft.freePtr_nonneg wfRight.freePtr_nonneg
  omega

end Page

namespace LogicalFile

variable {left right file file' : LogicalFile} {headerNo : Int} {chain : List Int} {rec : Record}

/-- The two heap files hold the same under the same RIDs, and have as many pages. -/
structure Alike (left right : LogicalFile) (headerNo : Int) (chain : List Int) : Prop where
  formedLeft : left.HeapFormed headerNo chain
  formedRight : right.HeapFormed headerNo chain
  contents : left.contents chain = right.contents chain
  size : left.size = right.size

theorem Alike.refl (formed : file.HeapFormed headerNo chain) : file.Alike file headerNo chain :=
  ⟨formed, formed, rfl, rfl⟩

theorem Alike.last_page (alike : left.Alike right headerNo chain) :
    (left.header headerNo).lastPage = (right.header headerNo).lastPage :=
  alike.formedRight.last_page_eq alike.formedLeft

theorem Alike.record (alike : left.Alike right headerNo chain) {pageNo : Int}
    (member : pageNo ∈ chain) (number : Nat) :
    (left.data pageNo).record number = (right.data pageNo).record number := by
  have same := congrFun alike.contents { pageNo := pageNo, slotNo := number }
  simpa only [LogicalFile.contents, if_pos member, LogicalFile.record, Int.natCast_nonneg, if_true,
    Int.toNat_natCast] using same

/-- Whether the file has grown shows in the page that the record went to. -/
theorem insert_record_size {curNo curNo' : Int} (different : curNo ≠ file.size) {image : PageImage}
    {result : Except Status RID}
    (inserted : file.insertRecord headerNo curNo image rec = (result, file', curNo')) :
    file'.size = if curNo' = curNo then file.size else file.size + 1 := by
  unfold LogicalFile.insertRecord at inserted
  split at inserted
  · cases inserted
    rw [if_pos rfl]
    rfl
  · dsimp only at inserted
    split at inserted
    · cases inserted
      rw [if_neg different.symm]
      rfl
    · cases inserted
      rw [if_neg different.symm]
      rfl

/-- The chain after an insertion that went to page `curNo`. -/
def grownChain (file : LogicalFile) (headerNo : Int) (chain : List Int) (curNo : Int) : List Int :=
  if curNo = (file.header headerNo).lastPage then chain else chain ++ [(file.size : Int)]

def insertLast (file : LogicalFile) (headerNo : Int) (rec : Record) :
    Except Status RID × LogicalFile × Int :=
  file.insertRecord headerNo (file.header headerNo).lastPage .zero rec

theorem HeapFormed.insert_last (formed : file.HeapFormed headerNo chain)
    (nonempty : 1 ≤ rec.length) :
    (file.insertLast headerNo rec).2.1.HeapFormed headerNo
      (file.grownChain headerNo chain (file.insertLast headerNo rec).2.2) := by
  unfold insertLast grownChain
  by_cases fits : (rec.length : Int) + SLOTSIZE ≤
      (file.data (file.header headerNo).lastPage).freeSpace
  · obtain ⟨number, file', inserted, formed', _⟩ :=
      formed.insert_fits formed.last_mem nonempty fits .zero
    rw [inserted, if_pos rfl]
    exact formed'
  · obtain ⟨result, file', inserted, formed', _⟩ := formed.insert_grows rfl nonempty fits .zero
    have notLast := ne_of_lt (formed.inside _ (List.mem_cons_of_mem _ formed.last_mem)).2
    rw [inserted, if_neg notLast.symm]
    exact formed'

theorem Alike.insert (alike : left.Alike right headerNo chain) (nonempty : 1 ≤ rec.length)
    (fits : rec.length + SLOTSIZE ≤ DATASIZE) (image : PageImage) :
    ∃ rid left' right' curNo,
      left.insertRecord headerNo (left.header headerNo).lastPage image rec =
        (.ok rid, left', curNo) ∧
      right.insertLast headerNo rec = (.ok rid, right', curNo) ∧
      left'.Alike right' headerNo (right.grownChain headerNo chain curNo) := by
  unfold insertLast grownChain
  have member := alike.formedLeft.last_mem
  have space : (left.data (left.header headerNo).lastPage).freeSpace =
      (right.data (right.header headerNo).lastPage).freeSpace := by
    rw [← alike.last_page]
    exact Page.free_space_alike (alike.formedLeft.pages _ member).1
      (alike.formedRight.pages _ member).1 (alike.record member)
  by_cases here : (rec.length : Int) + SLOTSIZE ≤
      (left.data (left.header headerNo).lastPage).freeSpace
  · obtain ⟨number, left', inserted, formed, fresh, updated, lowest⟩ :=
      alike.formedLeft.insert_fits member nonempty here image
    obtain ⟨number', right', inserted', formed', fresh', updated', lowest'⟩ :=
      alike.formedRight.insert_fits alike.formedRight.last_mem nonempty (space ▸ here) .zero
    have live : ∀ other, (left.data (left.header headerNo).lastPage).Live other ↔
        (right.data (right.header headerNo).lastPage).Live other := by
      intro other
      rw [← Page.record_is_some_iff, ← Page.record_is_some_iff, ← alike.last_page,
        alike.record member]
    have dead : ¬(left.data (left.header headerNo).lastPage).Live number := by
      rw [live_iff_contents member, fresh]
      exact Bool.false_ne_true
    have dead' : ¬(right.data (right.header headerNo).lastPage).Live number' := by
      rw [live_iff_contents alike.formedRight.last_mem, fresh']
      exact Bool.false_ne_true
    have numbers : number = number' := by
      rcases Nat.lt_trichotomy number number' with below | equal | above
      · exact absurd ((live number).mpr (lowest' number below)) dead
      · exact equal
      · exact absurd ((live number').mp (lowest number' above)) dead'
    subst numbers
    refine ⟨_, left', right', _, inserted, ?_, ?_⟩
    · rw [inserted', alike.last_page]
    rw [if_pos alike.last_page]
    refine ⟨formed, formed', ?_, ?_⟩
    · rw [updated, updated', alike.contents, alike.last_page]
    · rw [insert_record_size (ne_of_lt (alike.formedLeft.inside _
        (List.mem_cons_of_mem _ member)).2) inserted, insert_record_size (ne_of_lt
        (alike.formedRight.inside _ (List.mem_cons_of_mem _ alike.formedRight.last_mem)).2)
        inserted', if_pos rfl, if_pos rfl, alike.size]
  · obtain ⟨result, left', inserted, formed, outcome⟩ :=
      alike.formedLeft.insert_grows rfl nonempty here image
    obtain ⟨result', right', inserted', formed', outcome'⟩ :=
      alike.formedRight.insert_grows rfl nonempty (space ▸ here) .zero
    rcases outcome with ⟨_, rfl, _, updated⟩ | ⟨long, _⟩
    · rcases outcome' with ⟨_, rfl, _, updated'⟩ | ⟨long, _⟩
      · have notLast := ne_of_lt (alike.formedLeft.inside _ (List.mem_cons_of_mem _ member)).2
        have notLast' := ne_of_lt (alike.formedRight.inside _
          (List.mem_cons_of_mem _ alike.formedRight.last_mem)).2
        refine ⟨_, left', right', _, inserted, ?_, ?_⟩
        · rw [inserted', alike.size]
        rw [alike.size, if_neg notLast'.symm]
        refine ⟨?_, formed', ?_, ?_⟩
        · rw [← alike.size]
          exact formed
        · rw [← alike.size, updated, alike.size, updated', alike.contents]
        · rw [insert_record_size notLast inserted, insert_record_size notLast' inserted',
            if_neg notLast.symm, if_neg notLast'.symm, alike.size]
      · omega
    · omega

def placeKey (chain : List Int) (place : RID) : ℕ ×ₗ ℤ :=
  toLex (chain.idxOf place.pageNo, place.slotNo)

def front (file : LogicalFile) (chain : List Int) (place : RID) : List RID :=
  (file.rids chain).filter fun rid => placeKey chain place < placeKey chain rid

theorem place_key_lt {chain : List Int} {left right : RID} :
    placeKey chain left < placeKey chain right ↔
      chain.idxOf left.pageNo < chain.idxOf right.pageNo ∨
        (chain.idxOf left.pageNo = chain.idxOf right.pageNo ∧ left.slotNo < right.slotNo) :=
  Prod.Lex.toLex_lt_toLex

theorem rids_key_ordered (distinct : chain.Nodup) :
    (file.rids chain).Pairwise fun left right => placeKey chain left < placeKey chain right := by
  apply (rids_ordered distinct).imp
  intro left right precedes
  rw [place_key_lt]
  rcases precedes with earlier | ⟨samePage, below⟩
  · exact .inl earlier
  · exact .inr ⟨by rw [samePage], below⟩

theorem mem_front {place rid : RID} : rid ∈ file.front chain place ↔
    (file.contents chain rid).isSome ∧ placeKey chain place < placeKey chain rid := by
  rw [front, List.mem_filter, mem_rids, decide_eq_true_eq]

theorem mem_remaining {pageNo : Int} {rest : List Int} {start : Nat} {rid : RID} :
    rid ∈ file.remaining (pageNo :: rest) start ↔
      (rid.pageNo = pageNo ∧ (start : Int) ≤ rid.slotNo ∧ (file.record rid).isSome) ∨
        (file.contents rest rid).isSome := by
  rw [remaining, List.mem_append, mem_rids_from, mem_rids]

theorem contents_some {rid : RID} : (file.contents chain rid).isSome ↔
    rid.pageNo ∈ chain ∧ (file.record rid).isSome := by
  unfold contents
  split_ifs with member <;> simp [member]

theorem idx_of_split {before rest : List Int} {pageNo other : Int}
    (distinct : (before ++ pageNo :: rest).Nodup) (member : other ∈ before ++ pageNo :: rest) :
    ((before ++ pageNo :: rest).idxOf pageNo < (before ++ pageNo :: rest).idxOf other ↔
        other ∈ rest) ∧
      ((before ++ pageNo :: rest).idxOf pageNo = (before ++ pageNo :: rest).idxOf other ↔
        pageNo = other) := by
  obtain ⟨_, tail, apart⟩ := List.nodup_append.mp distinct
  have notBefore : pageNo ∉ before := fun inside => apart pageNo inside pageNo (by simp) rfl
  have notRest := (List.nodup_cons.mp tail).1
  have here : (before ++ pageNo :: rest).idxOf pageNo = before.length := by
    rw [List.idxOf_append_of_notMem notBefore, List.idxOf_cons_self, Nat.add_zero]
  rw [here]
  rcases List.mem_append.mp member with inBefore | inTail
  · have index : (before ++ pageNo :: rest).idxOf other < before.length := by
      rw [List.idxOf_append_of_mem inBefore]
      exact List.idxOf_lt_length_of_mem inBefore
    have outside : other ∉ rest := fun inRest => apart other inBefore other (by simp [inRest]) rfl
    have different : pageNo ≠ other := by
      rintro rfl
      exact notBefore inBefore
    exact ⟨⟨fun above => by omega, fun inRest => absurd inRest outside⟩,
      ⟨fun equal => by omega, fun same => absurd same different⟩⟩
  · have outside : other ∉ before := fun inBefore => apart other inBefore other inTail rfl
    rw [List.idxOf_append_of_notMem outside]
    rcases List.mem_cons.mp inTail with rfl | inRest
    · rw [List.idxOf_cons_self]
      exact ⟨⟨fun above => by omega, fun inRest => absurd inRest notRest⟩, by simp⟩
    · have different : pageNo ≠ other := by
        rintro rfl
        exact notRest inRest
      rw [List.idxOf_cons_ne _ different]
      exact ⟨⟨fun _ => inRest, fun _ => by omega⟩,
        ⟨fun equal => by omega, fun same => absurd same different⟩⟩

/-- What is in front of a scan is what comes behind the place where it stands. -/
theorem Stands.eq_front {pageNo : Int} {curRec : RID} {todo : List RID}
    (stands : file.Stands chain pageNo curRec todo) (distinct : chain.Nodup) :
    todo = file.front chain { pageNo := pageNo, slotNo := curRec.slotNo } := by
  have part := stands.sublist
  have ordered : (file.rids chain).Pairwise
      fun left right => placeKey chain left < placeKey chain right := rids_key_ordered distinct
  have members : ∀ rid, rid ∈ todo ↔
      rid ∈ file.front chain { pageNo := pageNo, slotNo := curRec.slotNo } := by
    intro rid
    obtain ⟨rest, start, ⟨before, split⟩, slot, rfl⟩ := stands
    subst split
    have tail := (List.nodup_append.mp distinct).2.1
    have notRest := (List.nodup_cons.mp tail).1
    rw [mem_remaining, mem_front, contents_some, contents_some, place_key_lt]
    dsimp only
    constructor
    · rintro (⟨rfl, bound, live⟩ | ⟨inRest, live⟩)
      · exact ⟨⟨by simp, live⟩, .inr ⟨rfl, by omega⟩⟩
      · have member : rid.pageNo ∈ before ++ pageNo :: rest := by simp [inRest]
        exact ⟨⟨member, live⟩, .inl ((idx_of_split distinct member).1.mpr inRest)⟩
    · rintro ⟨⟨member, live⟩, later | ⟨same, below⟩⟩
      · exact .inr ⟨(idx_of_split distinct member).1.mp later, live⟩
      · exact .inl ⟨((idx_of_split distinct member).2.mp same).symm, by omega, live⟩
  have frontOrdered : (file.front chain { pageNo := pageNo, slotNo := curRec.slotNo }).Pairwise
      fun left right => placeKey chain left < placeKey chain right := ordered.filter _
  apply List.Sublist.antisymm
  · exact ordered_sublist (ordered.sublist part) frontOrdered fun rid => (members rid).mp
  · exact ordered_sublist frontOrdered (ordered.sublist part) fun rid => (members rid).mpr

theorem stands_front {pageNo : Int} {curRec : RID} (distinct : chain.Nodup)
    (member : pageNo ∈ chain) (slot : 0 ≤ curRec.slotNo + 1) :
    file.Stands chain pageNo curRec
      (file.front chain { pageNo := pageNo, slotNo := curRec.slotNo }) := by
  obtain ⟨before, rest, split⟩ := List.append_of_mem member
  have stands : file.Stands chain pageNo curRec
      (file.remaining (pageNo :: rest) (curRec.slotNo + 1).toNat) :=
    ⟨rest, (curRec.slotNo + 1).toNat, ⟨before, split.symm⟩, (Int.toNat_of_nonneg slot).symm, rfl⟩
  rw [← stands.eq_front distinct]
  exact stands

/-- The heap file has kept all its records, and its pages come first in the new chain. -/
structure Extends (file file' : LogicalFile) (chain chain' : List Int) : Prop where
  pages : chain <+: chain'
  kept : ∀ rid rec, file.contents chain rid = some rec → file'.contents chain' rid = some rec

theorem Extends.refl (file : LogicalFile) (chain : List Int) : file.Extends file chain chain :=
  ⟨List.prefix_refl chain, fun _ _ live => live⟩

theorem Extends.trans {file'' : LogicalFile} {chain' chain'' : List Int}
    (first : file.Extends file' chain chain') (second : file'.Extends file'' chain' chain'') :
    file.Extends file'' chain chain'' :=
  ⟨first.pages.trans second.pages, fun rid rec live =>
    second.kept rid rec (first.kept rid rec live)⟩

theorem extends_update {chain' : List Int} {rid : RID} (pages : chain <+: chain')
    (fresh : file.contents chain rid = none)
    (updated : file'.contents chain' = Function.update (file.contents chain) rid (some rec)) :
    file.Extends file' chain chain' where
  pages := pages
  kept := by
    intro other otherRec live
    rw [updated, Function.update_of_ne, live]
    rintro rfl
    rw [fresh] at live
    cases live

theorem HeapFormed.insert_last_update (formed : file.HeapFormed headerNo chain)
    (nonempty : 1 ≤ rec.length) (fits : rec.length + SLOTSIZE ≤ DATASIZE) :
    chain <+: file.grownChain headerNo chain (file.insertLast headerNo rec).2.2 ∧
      ∃ rid, file.contents chain rid = none ∧
        (file.insertLast headerNo rec).2.1.contents
            (file.grownChain headerNo chain (file.insertLast headerNo rec).2.2) =
          Function.update (file.contents chain) rid (some rec) := by
  unfold insertLast grownChain
  by_cases here : (rec.length : Int) + SLOTSIZE ≤
      (file.data (file.header headerNo).lastPage).freeSpace
  · obtain ⟨number, file', inserted, _, fresh, updated, _⟩ :=
      formed.insert_fits formed.last_mem nonempty here .zero
    rw [inserted, if_pos rfl]
    exact ⟨List.prefix_refl _, _, fresh, updated⟩
  · obtain ⟨result, file', inserted, _, ⟨_, _, fresh, updated⟩ | ⟨long, _⟩⟩ :=
      formed.insert_grows rfl nonempty here .zero
    · have notLast := ne_of_lt (formed.inside _ (List.mem_cons_of_mem _ formed.last_mem)).2
      rw [inserted, if_neg notLast.symm]
      exact ⟨List.prefix_append _ _, _, fresh, updated⟩
    · omega

theorem HeapFormed.insert_last_extends (formed : file.HeapFormed headerNo chain)
    (nonempty : 1 ≤ rec.length) (fits : rec.length + SLOTSIZE ≤ DATASIZE) :
    file.Extends (file.insertLast headerNo rec).2.1 chain
      (file.grownChain headerNo chain (file.insertLast headerNo rec).2.2) := by
  obtain ⟨pages, rid, fresh, updated⟩ := formed.insert_last_update nonempty fits
  exact extends_update pages fresh updated

theorem Extends.place_key {chain' : List Int} (extends_ : file.Extends file' chain chain')
    {place : RID} (member : place.pageNo ∈ chain) : placeKey chain' place = placeKey chain place := by
  obtain ⟨more, rfl⟩ := extends_.pages
  unfold placeKey
  rw [List.idxOf_append_of_mem member]

theorem Extends.front_sublist {chain' : List Int} (extends_ : file.Extends file' chain chain')
    (distinct : chain.Nodup) (distinct' : chain'.Nodup) (place : RID) :
    (file.front chain place).Sublist (file'.front chain' place) := by
  by_cases member : place.pageNo ∈ chain
  · have inChain : ∀ rid ∈ file.front chain place, rid.pageNo ∈ chain := fun rid inFront =>
      (contents_some.mp (mem_front.mp inFront).1).1
    have ordered : (file.front chain place).Pairwise
        fun left right => placeKey chain' left < placeKey chain' right := by
      apply ((rids_key_ordered distinct).filter _).imp_of_mem
      intro left right inLeft inRight below
      rw [extends_.place_key (inChain left inLeft), extends_.place_key (inChain right inRight)]
      exact below
    apply ordered_sublist ordered ((rids_key_ordered distinct').filter _)
    intro rid inFront
    obtain ⟨live, behind⟩ := mem_front.mp inFront
    obtain ⟨rec, found⟩ := Option.isSome_iff_exists.mp live
    apply mem_front.mpr
    rw [extends_.kept rid rec found, extends_.place_key member,
      extends_.place_key (inChain rid inFront)]
    exact ⟨rfl, behind⟩
  · have nothing : file.front chain place = [] := by
      apply List.filter_eq_nil_iff.mpr
      intro rid listed behind
      have inside := (contents_some.mp (mem_rids.mp listed)).1
      have index := List.idxOf_lt_length_of_mem inside
      rw [decide_eq_true_eq, place_key_lt, List.idxOf_eq_length member] at behind
      omega
    rw [nothing]
    exact List.nil_sublist _

theorem Extends.front_length_le {chain' : List Int} {rid : RID}
    (extends_ : file.Extends file' chain chain') (distinct' : chain'.Nodup)
    (updated : file'.contents chain' = Function.update (file.contents chain) rid (some rec))
    {place : RID} (member : place.pageNo ∈ chain) :
    (file'.front chain' place).length ≤ (file.front chain place).length + 1 := by
  have ordered : (file'.front chain' place).Pairwise
      fun left right => placeKey chain' left < placeKey chain' right :=
    (rids_key_ordered distinct').filter _
  have distinct : (file'.front chain' place).Nodup := by
    apply ordered.imp
    rintro left right below rfl
    exact lt_irrefl _ below
  have subset : file'.front chain' place ⊆ rid :: file.front chain place := by
    intro other inFront
    obtain ⟨live, behind⟩ := mem_front.mp inFront
    by_cases here : other = rid
    · rw [here]
      exact List.mem_cons_self ..
    · rw [updated, Function.update_of_ne here] at live
      rw [extends_.place_key member, extends_.place_key (contents_some.mp live).1] at behind
      exact List.mem_cons_of_mem _ (mem_front.mpr ⟨live, behind⟩)
  exact (List.subperm_of_subset distinct subset).length_le

def found (file : LogicalFile) (filter : Option ScanFilter) (rids : List RID) :
    List (RID × Record) :=
  rids.filterMap fun rid => ((file.record rid).filter (ScanFilter.matchRec filter)).map (rid, ·)

theorem found_records (filter : Option ScanFilter) (rids : List RID) :
    (file.found filter rids).map Prod.snd =
      (file.recordsAt rids).filter (ScanFilter.matchRec filter) := by
  unfold found recordsAt
  rw [List.map_filterMap, List.filter_filterMap]
  apply List.filterMap_congr
  intro rid _
  cases file.record rid with
  | none => rfl
  | some rec => cases accepts : ScanFilter.matchRec filter rec <;> simp [Option.filter, accepts]

theorem found_all_length (place : RID) :
    (file.found none (file.front chain place)).length = (file.front chain place).length := by
  unfold found
  rw [List.length_filterMap_eq_countP, List.countP_eq_length]
  intro rid inFront
  have live := (mem_front.mp inFront).1
  rw [record_of_contents (contents_some.mp live).1] at live
  obtain ⟨rec, held⟩ := Option.isSome_iff_exists.mp live
  rw [held]
  rfl

theorem found_length_le (filter : Option ScanFilter) (rids : List RID) :
    (file.found filter rids).length ≤ rids.length := List.length_filterMap_le _ _

theorem found_resumes (distinct : chain.Nodup) {filter : Option ScanFilter} {place rid : RID}
    {before rest : List (RID × Record)}
    (split : file.found filter (file.front chain place) = before ++ (rid, rec) :: rest) :
    file.contents chain rid = some rec ∧ file.found filter (file.front chain rid) = rest := by
  obtain ⟨skipped, tail, parts, _, next⟩ := List.filterMap_eq_append_iff.mp split
  obtain ⟨passed, here, later, parts', _, matched, more⟩ := List.filterMap_eq_cons_iff.mp next
  obtain ⟨other, accepted, same⟩ := Option.map_eq_some_iff.mp matched
  cases same
  rw [parts', ← List.append_assoc] at parts
  have inFront : rid ∈ file.front chain place := by
    rw [parts]
    simp
  refine ⟨?_, ?_⟩
  · rw [record_of_contents (contents_some.mp (mem_front.mp inFront).1).1]
    exact (Option.filter_eq_some_iff.mp accepted).1
  rw [← more, found, front, filter_behind (rids_key_ordered distinct) parts]

theorem HeapFormed.front_first (formed : file.HeapFormed headerNo chain) :
    file.front chain { pageNo := (file.header headerNo).firstPage, slotNo := -1 } =
      file.rids chain :=
  (formed.stands_first.eq_front formed.nodup).symm

theorem Extends.found_sublist {chain' : List Int} (extends_ : file.Extends file' chain chain')
    (distinct : chain.Nodup) (distinct' : chain'.Nodup) (filter : Option ScanFilter)
    (place : RID) :
    (file.found filter (file.front chain place)).Sublist
      (file'.found filter (file'.front chain' place)) := by
  have same : file.found filter (file.front chain place) =
      file'.found filter (file.front chain place) := by
    apply List.filterMap_congr
    intro rid inFront
    have live := (mem_front.mp inFront).1
    obtain ⟨rec, held⟩ := Option.isSome_iff_exists.mp live
    have member := (contents_some.mp live).1
    have member' := extends_.pages.subset member
    have held' := extends_.kept rid rec held
    rw [record_of_contents member] at held
    rw [record_of_contents member'] at held'
    rw [held, held']
  rw [same]
  exact (extends_.front_sublist distinct distinct' place).filterMap _

end LogicalFile

end PrimitiveDB

import PrimitiveDB.HeapFileScanning
import PrimitiveDB.SlottedPageScan

/-!
# The heap file as a finite map

`HeapFormed` is the invariant of a heap file: the data pages form one chain from
`firstPage` to `lastPage`, every one of them is a well-formed slotted page, and
the header counts pages and records. `contents` is the finite map from RIDs to
bytes that the file stands for, and `rids` lists its keys in scan order.
-/

namespace PrimitiveDB

set_option autoImplicit false

namespace LogicalFile

def Chained (file : LogicalFile) : List Int → Prop
  | [] => False
  | [pageNo] => (file.data pageNo).getNextPage = -1
  | pageNo :: nextNo :: rest =>
      (file.data pageNo).getNextPage = nextNo ∧ file.Chained (nextNo :: rest)

def record (file : LogicalFile) (rid : RID) : Option Record :=
  if 0 ≤ rid.slotNo then (file.data rid.pageNo).record rid.slotNo.toNat else none

def contents (file : LogicalFile) (chain : List Int) (rid : RID) : Option Record :=
  if rid.pageNo ∈ chain then file.record rid else none

/-- The live RIDs of a page, from slot `start` on. -/
def ridsFrom (file : LogicalFile) (pageNo : Int) (start : Nat) : List RID :=
  ((file.data pageNo).liveFrom start).map fun number : Nat => { pageNo, slotNo := number }

def rids (file : LogicalFile) (chain : List Int) : List RID :=
  chain.flatMap fun pageNo => file.ridsFrom pageNo 0

structure HeapFormed (file : LogicalFile) (headerNo : Int) (chain : List Int) : Prop where
  inside : ∀ pageNo ∈ headerNo :: chain, file.Inside pageNo
  distinct : (headerNo :: chain).Nodup
  chained : file.Chained chain
  first : chain.head? = some (file.header headerNo).firstPage
  last : chain.getLast? = some (file.header headerNo).lastPage
  pageCnt : (file.header headerNo).pageCnt = chain.length
  recCnt : (file.header headerNo).recCnt = (file.rids chain).length
  pages : ∀ pageNo ∈ chain, (file.data pageNo).WellFormed ∧ (file.data pageNo).curPage = pageNo

variable {file file' : LogicalFile} {headerNo pageNo curNo : Int} {chain : List Int} {rid : RID}

theorem Chained.unique {chain' : List Int}
    (chained : file.Chained chain) (chained' : file.Chained chain')
    (numbered : ∀ pageNo ∈ chain, pageNo ≠ -1) (numbered' : ∀ pageNo ∈ chain', pageNo ≠ -1)
    (same : chain.head? = chain'.head?) : chain = chain' := by
  induction chain generalizing chain' with
  | nil => exact absurd chained id
  | cons pageNo rest ih =>
      cases chain' with
      | nil => cases same
      | cons pageNo' rest' =>
          obtain rfl : pageNo = pageNo' := Option.some.inj same
          cases rest with
          | nil =>
              cases rest' with
              | nil => rfl
              | cons nextNo' later' =>
                  have ends : (file.data pageNo).getNextPage = -1 := chained
                  exact absurd (chained'.1.symm.trans ends) (numbered' nextNo' (by simp))
          | cons nextNo later =>
              cases rest' with
              | nil =>
                  have ends : (file.data pageNo).getNextPage = -1 := chained'
                  exact absurd (chained.1.symm.trans ends) (numbered nextNo (by simp))
              | cons nextNo' later' =>
                  have next : nextNo = nextNo' := chained.1.symm.trans chained'.1
                  rw [ih chained.2 chained'.2 (fun other member => numbered other (by simp [member]))
                    (fun other member => numbered' other (by simp [member])) (by simp [next])]

theorem HeapFormed.unique {chain' : List Int} (formed : file.HeapFormed headerNo chain)
    (formed' : file.HeapFormed headerNo chain') : chain = chain' := by
  have numbered : ∀ {pages : List Int}, file.HeapFormed headerNo pages →
      ∀ pageNo ∈ pages, pageNo ≠ -1 := by
    intro pages formed pageNo member
    have positive := (formed.inside pageNo (List.mem_cons_of_mem _ member)).1
    omega
  exact formed.chained.unique formed'.chained (numbered formed) (numbered formed')
    (formed.first.trans formed'.first.symm)

theorem mem_rids_from {start : Nat} :
    rid ∈ file.ridsFrom pageNo start ↔
      rid.pageNo = pageNo ∧ (start : Int) ≤ rid.slotNo ∧ (file.record rid).isSome := by
  simp only [ridsFrom, List.mem_map, Page.mem_live_from]
  constructor
  · intro listed
    obtain ⟨number, ⟨bound, live⟩, equal⟩ := listed
    subst equal
    have nonneg : (0 : Int) ≤ number := Int.natCast_nonneg number
    refine ⟨rfl, Int.ofNat_le.mpr bound, ?_⟩
    simp only [record, nonneg, if_true, Int.toNat_natCast]
    exact ((file.data pageNo).record_is_some_iff number).mpr live
  · intro named
    obtain ⟨rfl, bound, some_⟩ := named
    unfold record at some_
    split_ifs at some_ with nonneg
    · refine ⟨rid.slotNo.toNat, ⟨by omega, ?_⟩, ?_⟩
      · exact ((file.data rid.pageNo).record_is_some_iff _).mp some_
      · have number : (rid.slotNo.toNat : Int) = rid.slotNo := Int.toNat_of_nonneg nonneg
        rw [number]
    · cases some_

theorem mem_rids : rid ∈ file.rids chain ↔ (file.contents chain rid).isSome := by
  simp only [rids, List.mem_flatMap, mem_rids_from, contents]
  constructor
  · intro listed
    obtain ⟨pageNo, member, rfl, _, some_⟩ := listed
    rw [if_pos member]
    exact some_
  · intro some_
    split_ifs at some_ with member
    · refine ⟨rid.pageNo, member, rfl, ?_, some_⟩
      unfold record at some_
      split_ifs at some_ with nonneg
      · exact_mod_cast nonneg
      · cases some_
    · cases some_

theorem rids_from_nodup (start : Nat) : (file.ridsFrom pageNo start).Nodup := by
  refine List.Nodup.map ?_ ((Page.live_from_sorted start).imp ne_of_lt)
  intro left right equal
  have numbers := congrArg RID.slotNo equal
  simpa using numbers

theorem rids_nodup (distinct : chain.Nodup) : (file.rids chain).Nodup := by
  refine List.nodup_flatMap.mpr ⟨fun pageNo _ => rids_from_nodup 0, ?_⟩
  refine distinct.imp ?_
  intro left right different rid inLeft inRight
  exact different ((mem_rids_from.mp inLeft).1.symm.trans (mem_rids_from.mp inRight).1)

theorem rids_length_insert {chain' : List Int} {rec : Record} (distinct : chain.Nodup)
    (distinct' : chain'.Nodup) (fresh : file.contents chain rid = none)
    (updated : file'.contents chain' = Function.update (file.contents chain) rid (some rec)) :
    (file'.rids chain').length = (file.rids chain).length + 1 := by
  have perm : (file'.rids chain').Perm (rid :: file.rids chain) := by
    refine (List.perm_ext_iff_of_nodup (rids_nodup distinct') ?_).mpr ?_
    · refine List.nodup_cons.mpr ⟨?_, rids_nodup distinct⟩
      rw [mem_rids, fresh]
      exact Bool.false_ne_true
    · intro other
      rw [mem_rids, List.mem_cons, mem_rids, updated]
      by_cases same : other = rid
      · simp [same]
      · simp [same]
  rw [perm.length_eq, List.length_cons]

theorem rids_length_delete (distinct : chain.Nodup) (live : (file.contents chain rid).isSome)
    (updated : file'.contents chain = Function.update (file.contents chain) rid none) :
    (file.rids chain).length = (file'.rids chain).length + 1 := by
  have perm : (file.rids chain).Perm (rid :: file'.rids chain) := by
    refine (List.perm_ext_iff_of_nodup (rids_nodup distinct) ?_).mpr ?_
    · refine List.nodup_cons.mpr ⟨?_, rids_nodup distinct⟩
      rw [mem_rids, updated, Function.update_self]
      exact Bool.false_ne_true
    · intro other
      rw [mem_rids, List.mem_cons, mem_rids, updated]
      by_cases same : other = rid
      · simp [same, live]
      · simp [same]
  rw [perm.length_eq, List.length_cons]

theorem data_set_same (page : Page) : (file.setData pageNo page).data pageNo = page := by
  simp [setData, data]

theorem data_set_other {other : Int} (page : Page) (different : other ≠ pageNo) :
    (file.setData pageNo page).data other = file.data other := by
  simp only [setData, data]
  rw [write_other _ _ _ different]

theorem data_update_header {other : Int} (change : FileHdrPage → FileHdrPage)
    (different : other ≠ headerNo) :
    (file.updateHeader headerNo change).data other = file.data other := by
  simp only [updateHeader, data]
  rw [write_other _ _ _ different]

theorem header_update (change : FileHdrPage → FileHdrPage) :
    (file.updateHeader headerNo change).header headerNo = change (file.header headerNo) := by
  simp [updateHeader, header]

theorem header_set_data (page : Page) (different : headerNo ≠ pageNo) :
    (file.setData pageNo page).header headerNo = file.header headerNo := by
  simp only [setData, header]
  rw [write_other _ _ _ different]

theorem Chained.congr (chained : file.Chained chain)
    (same : ∀ pageNo ∈ chain, (file'.data pageNo).getNextPage = (file.data pageNo).getNextPage) :
    file'.Chained chain := by
  induction chain with
  | nil => exact chained
  | cons pageNo chain ih =>
      cases chain with
      | nil =>
          simp only [Chained] at chained ⊢
          rw [same pageNo List.mem_cons_self]
          exact chained
      | cons nextNo rest =>
          simp only [Chained] at chained ⊢
          rw [same pageNo List.mem_cons_self]
          exact ⟨chained.1, ih chained.2 fun other member =>
            same other (List.mem_cons_of_mem _ member)⟩

/-- Data page `curNo` becomes `page`, and the header counts `delta` records more. -/
theorem HeapFormed.replace {page : Page} {delta : Int} (formed : file.HeapFormed headerNo chain)
    (member : curNo ∈ chain) (wf : page.WellFormed) (number : page.curPage = curNo)
    (next : page.nextPage = (file.data curNo).nextPage)
    (count : ((((file.setData curNo page).addRecords headerNo delta).rids chain).length : Int) =
      (file.rids chain).length + delta) :
    ((file.setData curNo page).addRecords headerNo delta).HeapFormed headerNo chain := by
  set after := (file.setData curNo page).addRecords headerNo delta with afterDef
  have apart : headerNo ∉ chain := (List.nodup_cons.mp formed.distinct).1
  have notHeader : ∀ pageNo ∈ chain, pageNo ≠ headerNo := by
    intro pageNo inChain equal
    exact apart (equal ▸ inChain)
  have hdr : after.header headerNo =
      { file.header headerNo with recCnt := (file.header headerNo).recCnt + delta } := by
    rw [afterDef, addRecords, header_update, header_set_data _ (notHeader curNo member).symm]
  have same : ∀ pageNo ∈ chain, pageNo ≠ curNo → after.data pageNo = file.data pageNo := by
    intro pageNo inChain different
    rw [afterDef, addRecords, data_update_header _ (notHeader pageNo inChain),
      data_set_other _ different]
  have here : after.data curNo = page := by
    rw [afterDef, addRecords, data_update_header _ (notHeader curNo member), data_set_same]
  refine ⟨formed.inside, formed.distinct, formed.chained.congr ?_, ?_, ?_, ?_, ?_, ?_⟩
  · intro pageNo inChain
    by_cases equal : pageNo = curNo
    · rw [equal, here]
      exact next
    · rw [same pageNo inChain equal]
  · rw [hdr]
    exact formed.first
  · rw [hdr]
    exact formed.last
  · rw [hdr]
    exact formed.pageCnt
  · rw [hdr, count, formed.recCnt]
  · intro pageNo inChain
    by_cases equal : pageNo = curNo
    · rw [equal, here]
      exact ⟨wf, number⟩
    · rw [same pageNo inChain equal]
      exact formed.pages pageNo inChain

theorem contents_replace {page : Page} {delta : Int} {number : Nat} {value : Option Record}
    (apart : headerNo ∉ chain) (member : curNo ∈ chain) (here : page.record number = value)
    (others : ∀ other, other ≠ number → page.record other = (file.data curNo).record other) :
    ((file.setData curNo page).addRecords headerNo delta).contents chain =
      Function.update (file.contents chain) { pageNo := curNo, slotNo := number } value := by
  funext rid
  by_cases inChain : rid.pageNo ∈ chain
  · have notHeader : rid.pageNo ≠ headerNo := fun equal => apart (equal ▸ inChain)
    by_cases onPage : rid.pageNo = curNo
    · by_cases same : rid = { pageNo := curNo, slotNo := number }
      · subst same
        rw [Function.update_self]
        simp only [contents, record, if_pos inChain]
        rw [if_pos (Int.natCast_nonneg number), Int.toNat_natCast, addRecords,
          data_update_header _ notHeader, data_set_same, here]
      · rw [Function.update_of_ne same]
        simp only [contents, record, if_pos inChain]
        rw [addRecords, data_update_header _ notHeader, onPage, data_set_same]
        split_ifs with nonneg
        · apply others
          intro equal
          apply same
          have slot : rid.slotNo = number := by omega
          cases rid
          simp_all
        · rfl
    · have different : rid ≠ { pageNo := curNo, slotNo := number } := fun equal =>
        onPage (congrArg RID.pageNo equal)
      rw [Function.update_of_ne different]
      simp only [contents, record, if_pos inChain]
      rw [addRecords, data_update_header _ notHeader, data_set_other _ onPage]
  · have different : rid ≠ { pageNo := curNo, slotNo := number } := fun equal =>
      inChain ((congrArg RID.pageNo equal) ▸ member)
    rw [Function.update_of_ne different]
    simp only [contents, if_neg inChain]

theorem HeapFormed.apart (formed : file.HeapFormed headerNo chain) : headerNo ∉ chain :=
  (List.nodup_cons.mp formed.distinct).1

theorem HeapFormed.nodup (formed : file.HeapFormed headerNo chain) : chain.Nodup :=
  (List.nodup_cons.mp formed.distinct).2

/-- A record that fits goes to the current page, wherever that is in the chain. -/
theorem HeapFormed.insert_fits (formed : file.HeapFormed headerNo chain) (member : curNo ∈ chain)
    {rec : Record} (nonempty : 1 ≤ rec.length)
    (fits : (rec.length : Int) + SLOTSIZE ≤ (file.data curNo).freeSpace) (image : PageImage) :
    ∃ (number : Nat) (file' : LogicalFile),
      file.insertRecord headerNo curNo image rec =
        (.ok { pageNo := curNo, slotNo := number }, file', curNo) ∧
      file'.HeapFormed headerNo chain ∧
      file.contents chain { pageNo := curNo, slotNo := number } = none ∧
      file'.contents chain = Function.update (file.contents chain)
        { pageNo := curNo, slotNo := number } (some rec) ∧
      (∀ other, other < number → (file.data curNo).Live other) := by
  obtain ⟨wf, named⟩ := formed.pages curNo member
  obtain ⟨number, after, inserted, wf', fresh, lowest, here, others, next, cur⟩ :=
    Page.insert_record_spec (file.data curNo) wf rec nonempty fits
  have unused : file.contents chain { pageNo := curNo, slotNo := number } = none := by
    simp only [contents, record, if_pos member]
    rw [if_pos (Int.natCast_nonneg number), Int.toNat_natCast]
    by_contra some_
    exact fresh (((file.data curNo).record_is_some_iff number).mp
      (Option.isSome_iff_ne_none.mpr some_))
  have updated : ((file.setData curNo after).addRecords headerNo 1).contents chain = _ :=
    contents_replace formed.apart member here others
  refine ⟨number, (file.setData curNo after).addRecords headerNo 1, ?_, ?_, unused, updated,
    lowest⟩
  · simp only [LogicalFile.insertRecord, inserted, named]
  · apply formed.replace member wf' (cur.trans named) next
    rw [rids_length_insert formed.nodup formed.nodup unused updated]
    push_cast
    rfl

theorem HeapFormed.delete_live (formed : file.HeapFormed headerNo chain)
    (live : (file.contents chain rid).isSome) :
    ∃ file' : LogicalFile, file.deleteRecord headerNo rid.pageNo rid = (.OK, file') ∧
      file'.HeapFormed headerNo chain ∧
      file'.contents chain = Function.update (file.contents chain) rid none := by
  have listed := mem_rids.mpr live
  have member : rid.pageNo ∈ chain := by
    by_contra outside
    simp [contents, outside] at live
  obtain ⟨number, named⟩ : ∃ number : Nat, rid = { pageNo := rid.pageNo, slotNo := number } := by
    simp only [rids, List.mem_flatMap, mem_rids_from] at listed
    obtain ⟨_, _, _, bound, _⟩ := listed
    exact ⟨rid.slotNo.toNat, by cases rid; simp_all⟩
  generalize rid.pageNo = curNo at member named
  subst named
  have onPage : (file.data curNo).Live number := by
    simp only [contents, record, if_pos member] at live
    rw [if_pos (Int.natCast_nonneg number), Int.toNat_natCast] at live
    exact ((file.data curNo).record_is_some_iff number).mp live
  obtain ⟨wf, named⟩ := formed.pages curNo member
  obtain ⟨after, deleted, wf', gone, others, next, cur⟩ :=
    Page.delete_record_spec (file.data curNo) wf curNo number onPage
  have updated : ((file.setData curNo after).addRecords headerNo (-1)).contents chain = _ :=
    contents_replace formed.apart member gone others
  refine ⟨(file.setData curNo after).addRecords headerNo (-1), ?_, ?_, updated⟩
  · simp only [LogicalFile.deleteRecord, deleted, if_true]
  · apply formed.replace member wf' (cur.trans named) next
    rw [rids_length_delete formed.nodup live updated]
    push_cast
    omega

theorem Chained.snoc {lastNo newNo : Int} (chained : file.Chained chain)
    (last : chain.getLast? = some lastNo) (distinct : chain.Nodup)
    (same : ∀ pageNo ∈ chain, pageNo ≠ lastNo →
      (file'.data pageNo).getNextPage = (file.data pageNo).getNextPage)
    (linked : (file'.data lastNo).getNextPage = newNo)
    (ends : (file'.data newNo).getNextPage = -1) : file'.Chained (chain ++ [newNo]) := by
  induction chain with
  | nil => cases last
  | cons pageNo chain ih =>
      cases chain with
      | nil =>
          simp only [List.getLast?_singleton, Option.some.injEq] at last
          subst last
          exact ⟨linked, ends⟩
      | cons nextNo rest =>
          simp only [Chained] at chained
          rw [List.getLast?_cons_cons] at last
          have notLast : pageNo ≠ lastNo := by
            intro equal
            subst equal
            exact (List.nodup_cons.mp distinct).1 (List.mem_of_getLast? last)
          refine ⟨?_, ih chained.2 last (List.nodup_cons.mp distinct).2 ?_⟩
          · rw [same pageNo List.mem_cons_self notLast]
            exact chained.1
          · intro other member
            exact same other (List.mem_cons_of_mem _ member)

section AppendedPage

variable (image : PageImage) (formed : file.HeapFormed headerNo chain) (curNo : Int)

include formed

theorem HeapFormed.append_header (member : curNo ∈ chain) :
    (file.appendPage headerNo curNo image).header headerNo =
      { file.header headerNo with
        lastPage := file.size, pageCnt := (file.header headerNo).pageCnt + 1 } := by
  have inside := formed.inside headerNo List.mem_cons_self
  have notNew : headerNo ≠ (file.size : Int) := ne_of_lt inside.2
  have notCur : headerNo ≠ curNo := fun equal => formed.apart (equal ▸ member)
  simp only [appendPage]
  rw [header_set_data _ notCur, header_update, freshPage, header_set_data _ notNew]
  simp only [header, extend_old file image inside]

theorem HeapFormed.append_data (member : curNo ∈ chain) {pageNo : Int} (inChain : pageNo ∈ chain) :
    (file.appendPage headerNo curNo image).data pageNo =
      if pageNo = curNo then (file.data curNo).setNextPage file.size else file.data pageNo := by
  have old : ∀ pageNo ∈ chain, ((file.freshPage image).updateHeader headerNo fun hdr =>
      { hdr with lastPage := file.size, pageCnt := hdr.pageCnt + 1 }).data pageNo =
        file.data pageNo := by
    intro pageNo inChain
    have inside := formed.inside pageNo (List.mem_cons_of_mem _ inChain)
    have notNew : pageNo ≠ (file.size : Int) := ne_of_lt inside.2
    have notHeader : pageNo ≠ headerNo := fun equal => formed.apart (equal ▸ inChain)
    rw [data_update_header _ notHeader, freshPage, data_set_other _ notNew]
    simp only [data, extend_old file image inside]
  simp only [appendPage]
  split_ifs with same
  · rw [same, data_set_same, old curNo member]
  · rw [data_set_other _ same, old pageNo inChain]

theorem HeapFormed.append_fresh (member : curNo ∈ chain) :
    (file.appendPage headerNo curNo image).data file.size =
      (image.asPage.init file.size).setNextPage (-1) :=
  append_page_new image (formed.inside headerNo List.mem_cons_self)
    (formed.inside curNo (List.mem_cons_of_mem _ member))

theorem HeapFormed.append_record (member : curNo ∈ chain) (rid : RID) :
    (file.appendPage headerNo curNo image).contents (chain ++ [(file.size : Int)]) rid =
      file.contents chain rid := by
  by_cases inChain : rid.pageNo ∈ chain
  · simp only [contents, List.mem_append, inChain, true_or, if_true, record]
    rw [formed.append_data image curNo member inChain]
    split_ifs with nonneg same
    · rw [same, Page.set_next_page_record]
    · rfl
    · rfl
  · by_cases new : rid.pageNo = file.size
    · have member' : rid.pageNo ∈ chain ++ [(file.size : Int)] := by simp [new]
      simp only [contents, if_pos member', if_neg inChain, record]
      rw [new, formed.append_fresh image curNo member, Page.set_next_page_record,
        Page.init_record, ite_self]
    · simp [contents, inChain, new]

end AppendedPage

theorem HeapFormed.last_mem (formed : file.HeapFormed headerNo chain) :
    (file.header headerNo).lastPage ∈ chain :=
  List.mem_of_getLast? formed.last

theorem HeapFormed.size_fresh (formed : file.HeapFormed headerNo chain) :
    (headerNo :: (chain ++ [(file.size : Int)])).Nodup := by
  have outside : ∀ pageNo ∈ headerNo :: chain, pageNo ≠ (file.size : Int) := fun pageNo member =>
    ne_of_lt (formed.inside pageNo member).2
  rw [← List.cons_append]
  apply List.Nodup.append formed.distinct (List.nodup_singleton _)
  intro pageNo member new
  exact outside pageNo member (List.mem_singleton.mp new)

/-- A page appended behind the last one is the end of the chain, and holds nothing. -/
theorem HeapFormed.append (formed : file.HeapFormed headerNo chain) (image : PageImage)
    (last : (file.header headerNo).lastPage = curNo) :
    (file.appendPage headerNo curNo image).HeapFormed headerNo (chain ++ [(file.size : Int)]) ∧
      (file.appendPage headerNo curNo image).contents (chain ++ [(file.size : Int)]) =
        file.contents chain := by
  have member : curNo ∈ chain := last ▸ formed.last_mem
  have same := funext (formed.append_record image curNo member)
  have hdr := formed.append_header image curNo member
  have fresh := formed.append_fresh image curNo member
  have distinct := formed.size_fresh
  have positive : (1 : Int) ≤ file.size := by
    have inside := formed.inside headerNo List.mem_cons_self
    exact le_of_lt (lt_of_le_of_lt inside.1 inside.2)
  refine ⟨⟨?_, distinct, ?_, ?_, ?_, ?_, ?_, ?_⟩, same⟩
  · intro pageNo inChain
    rw [← List.cons_append, List.mem_append, List.mem_singleton] at inChain
    have size : ((file.appendPage headerNo curNo image).size : Int) = file.size + 1 := by
      rw [append_page_size]
      push_cast
      rfl
    rcases inChain with old | new
    · have inside := formed.inside pageNo old
      exact ⟨inside.1, by rw [size]; have := inside.2; omega⟩
    · exact ⟨by omega, by rw [size]; omega⟩
  · apply formed.chained.snoc (last ▸ formed.last) formed.nodup
    · intro pageNo inChain different
      rw [formed.append_data image curNo member inChain, if_neg different]
    · rw [formed.append_data image curNo member member, if_pos rfl]
      rfl
    · rw [fresh]
      rfl
  · rw [hdr, List.head?_append, formed.first]
    rfl
  · rw [hdr, List.getLast?_append]
    rfl
  · rw [hdr, List.length_append, formed.pageCnt]
    rfl
  · have perm : ((file.appendPage headerNo curNo image).rids
        (chain ++ [(file.size : Int)])).Perm (file.rids chain) := by
      apply (List.perm_ext_iff_of_nodup (rids_nodup (List.nodup_cons.mp distinct).2)
        (rids_nodup formed.nodup)).mpr
      intro rid
      rw [mem_rids, mem_rids, same]
    rw [hdr, perm.length_eq]
    exact formed.recCnt
  · intro pageNo inChain
    rcases List.mem_append.mp inChain with old | new
    · have page := formed.pages pageNo old
      rw [formed.append_data image curNo member old]
      split_ifs with here
      · subst here
        exact ⟨page.1.set_next_page _, page.2⟩
      · exact page
    · rw [List.mem_singleton.mp new, fresh]
      exact ⟨(Page.init_well_formed image.asPage file.size).set_next_page _, rfl⟩

theorem fresh_page_space (image : PageImage) (pageNo : Int) :
    ((image.asPage.init pageNo).setNextPage (-1)).freeSpace = 1004 := rfl

/-- A record that does not fit behind the last page brings a page of its own,
also if it turns out too long for that. -/
theorem HeapFormed.insert_grows (formed : file.HeapFormed headerNo chain) {rec : Record}
    (last : (file.header headerNo).lastPage = curNo) (nonempty : 1 ≤ rec.length)
    (full : ¬(rec.length : Int) + SLOTSIZE ≤ (file.data curNo).freeSpace) (image : PageImage) :
    ∃ (result : Except Status RID) (file' : LogicalFile),
      file.insertRecord headerNo curNo image rec = (result, file', (file.size : Int)) ∧
      file'.HeapFormed headerNo (chain ++ [(file.size : Int)]) ∧
      ((rec.length + SLOTSIZE ≤ DATASIZE ∧
          result = .ok { pageNo := file.size, slotNo := 0 } ∧
          file.contents chain { pageNo := file.size, slotNo := 0 } = none ∧
          file'.contents (chain ++ [(file.size : Int)]) = Function.update (file.contents chain)
            { pageNo := file.size, slotNo := 0 } (some rec)) ∨
        (DATASIZE < rec.length + SLOTSIZE ∧ result = .error .NOSPACE ∧
          file'.contents (chain ++ [(file.size : Int)]) = file.contents chain)) := by
  have member : curNo ∈ chain := last ▸ formed.last_mem
  have noSpace := Page.insert_record_no_space (file.data curNo) rec full
  obtain ⟨grown, same⟩ := formed.append image last
  have fresh := formed.append_fresh image curNo member
  have newMember : (file.size : Int) ∈ chain ++ [(file.size : Int)] := by simp
  have space : ((file.appendPage headerNo curNo image).data file.size).freeSpace = 1004 := by
    rw [fresh]
    exact fresh_page_space image _
  by_cases fits : rec.length + SLOTSIZE ≤ DATASIZE
  · have room : (rec.length : Int) + SLOTSIZE ≤
        ((file.appendPage headerNo curNo image).data file.size).freeSpace := by
      rw [space]
      simp only [SLOTSIZE, DATASIZE, PAGESIZE, DPFIXED] at fits ⊢
      omega
    obtain ⟨number, file', inserted, formed', unused, updated, lowest⟩ :=
      grown.insert_fits newMember nonempty room image
    -- nothing below a free slot of an empty page
    have zero : number = 0 := by
      by_contra positive
      have live := lowest 0 (Nat.pos_of_ne_zero positive)
      rw [← Page.record_is_some_iff, fresh, Page.set_next_page_record, Page.init_record] at live
      cases live
    subst zero
    rw [same] at unused updated
    refine ⟨_, file', ?_, formed', .inl ⟨fits, rfl, unused, updated⟩⟩
    obtain ⟨_, after, onPage, _⟩ :=
      Page.insert_record_spec _ (grown.pages _ newMember).1 rec nonempty room
    simp only [LogicalFile.insertRecord, noSpace, onPage] at inserted ⊢
    exact inserted
  · have noRoom : ¬(rec.length : Int) + SLOTSIZE ≤
        ((file.appendPage headerNo curNo image).data file.size).freeSpace := by
      rw [space]
      simp only [SLOTSIZE, DATASIZE, PAGESIZE, DPFIXED] at fits ⊢
      omega
    refine ⟨.error .NOSPACE, _, ?_, grown, .inr ⟨by omega, rfl, same⟩⟩
    simp only [LogicalFile.insertRecord, noSpace,
      Page.insert_record_no_space _ rec noRoom]

end LogicalFile

end PrimitiveDB

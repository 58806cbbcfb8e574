import PrimitiveDB.HeapChains

/-!
# A scan as a list iterator

A scan stands on a page of the chain, behind some slot. `remaining` lists the
RIDs in front of it, in scan order. One `scanNext` drops those that the filter
refuses and returns the next one; at the end of the list it reports `FILEEOF`
and stays there.
-/

namespace PrimitiveDB

open World

set_option autoImplicit false

namespace LogicalFile

variable {file file' : LogicalFile} {headerNo pageNo : Int} {chain rest : List Int} {rid : RID}
  {filter : Option ScanFilter}

/-- The RIDs in front of a scan on the first of these pages, from slot `start` on. -/
def remaining (file : LogicalFile) : List Int → Nat → List RID
  | [], _ => []
  | pageNo :: rest, start => file.ridsFrom pageNo start ++ file.rids rest

/-- The scan stands on page `pageNo` of the chain and `todo` is in front of it. -/
def Stands (file : LogicalFile) (chain : List Int) (pageNo : Int) (curRec : RID)
    (todo : List RID) : Prop :=
  ∃ (rest : List Int) (start : Nat), pageNo :: rest <:+ chain ∧ curRec.slotNo + 1 = start ∧
    todo = file.remaining (pageNo :: rest) start

def wanted (file : LogicalFile) (filter : Option ScanFilter) (rid : RID) : Bool :=
  match file.record rid with
  | some rec => ScanFilter.matchRec filter rec
  | none => false

def sought (file : LogicalFile) (filter : Option ScanFilter) (todo : List RID) : List RID :=
  todo.dropWhile fun rid => !file.wanted filter rid

/-- The outcome of `scanNext` with `todo` in front of the scan. -/
def Advances (file : LogicalFile) (filter : Option ScanFilter) (chain : List Int)
    (todo : List RID) (computed : Option (Except Status RID × Int × RID)) : Prop :=
  match file.sought filter todo with
  | [] => ∃ pageNo curRec, computed = some (.error .FILEEOF, pageNo, curRec) ∧
      file.Stands chain pageNo curRec []
  | rid :: later => computed = some (.ok rid, rid.pageNo, rid) ∧
      file.Stands chain rid.pageNo rid later

theorem Chained.suffix (chained : file.Chained chain) (suffix : pageNo :: rest <:+ chain) :
    file.Chained (pageNo :: rest) := by
  induction chain with
  | nil => cases List.suffix_nil.mp suffix
  | cons first chain ih =>
      rcases List.suffix_cons_iff.mp suffix with equal | later
      · rw [equal]
        exact chained
      · cases chain with
        | nil => cases List.suffix_nil.mp later
        | cons second chain => exact ih chained.2 later

theorem suffix_tail {nextNo : Int} (suffix : pageNo :: nextNo :: rest <:+ chain) :
    nextNo :: rest <:+ chain :=
  (List.suffix_cons pageNo (nextNo :: rest)).trans suffix

theorem Chained.next_mem (chained : file.Chained chain) (member : pageNo ∈ chain) :
    (file.data pageNo).getNextPage = -1 ∨ (file.data pageNo).getNextPage ∈ chain := by
  obtain ⟨before, rest, split⟩ := List.append_of_mem member
  have suffix : pageNo :: rest <:+ chain := ⟨before, split.symm⟩
  have chained' := chained.suffix suffix
  cases rest with
  | nil => exact .inl chained'
  | cons nextNo rest =>
      right
      rw [chained'.1]
      exact (suffix_tail suffix).subset List.mem_cons_self

theorem HeapFormed.linked (formed : file.HeapFormed headerNo chain) (member : pageNo ∈ chain) :
    file.Linked pageNo := by
  have stays : ∀ reached, Relation.ReflTransGen file.Follows pageNo reached → reached ∈ chain := by
    intro reached reaches
    induction reaches with
    | refl => exact member
    | tail _ follows ih =>
        rcases formed.chained.next_mem ih with last | inChain
        · exact absurd (follows.1.symm.trans last) follows.2
        · exact follows.1 ▸ inChain
  intro reached nextNo reaches follows
  rcases formed.chained.next_mem (stays reached reaches) with last | inChain
  · exact absurd (follows.1.symm.trans last) follows.2
  · exact formed.inside nextNo (List.mem_cons_of_mem _ (follows.1 ▸ inChain))

theorem rids_from_later {start start' : Nat} (bound : start ≤ start')
    (empty : file.ridsFrom pageNo start = []) : file.ridsFrom pageNo start' = [] := by
  rw [List.eq_nil_iff_forall_not_mem] at empty ⊢
  intro rid member
  obtain ⟨onPage, slot, live⟩ := mem_rids_from.mp member
  exact empty rid (mem_rids_from.mpr ⟨onPage, by omega, live⟩)

theorem rids_from_length_le (formed : file.HeapFormed headerNo chain) (member : pageNo ∈ chain)
    (start : Nat) : (file.ridsFrom pageNo start).length ≤ Page.MAXSLOTS := by
  rw [ridsFrom, List.length_map]
  exact (Page.live_from_length_le start).trans (formed.pages pageNo member).1.count_le

theorem rids_length_le (formed : file.HeapFormed headerNo chain) (pages : List Int)
    (members : ∀ pageNo ∈ pages, pageNo ∈ chain) :
    (file.rids pages).length ≤ pages.length * Page.MAXSLOTS := by
  induction pages with
  | nil => exact Nat.zero_le _
  | cons pageNo pages ih =>
      have here := rids_from_length_le formed (members pageNo List.mem_cons_self) 0
      have later := ih fun other member => members other (List.mem_cons_of_mem _ member)
      simp only [rids, List.flatMap_cons, List.length_append, List.length_cons] at later ⊢
      rw [Nat.add_mul]
      omega

theorem HeapFormed.length_lt (formed : file.HeapFormed headerNo chain) :
    chain.length < file.size := by
  have positive : 0 < file.size := by
    have inside := formed.inside headerNo List.mem_cons_self
    have bounds := inside.1.trans_lt inside.2
    omega
  have subset : (headerNo :: chain) ⊆
      (List.range file.size).map (fun number : Nat => (number : Int)) := by
    intro pageNo member
    have inside := formed.inside pageNo member
    have lower := inside.1
    have upper := inside.2
    exact List.mem_map.mpr ⟨pageNo.toNat, List.mem_range.mpr (by omega),
      Int.toNat_of_nonneg (by omega)⟩
  have bound := (formed.distinct.subperm subset).length_le
  simp only [List.length_cons, List.length_map, List.length_range] at bound
  omega

/-- The bound of the model on the rounds of `scanNext` is never reached. -/
theorem HeapFormed.remaining_lt (formed : file.HeapFormed headerNo chain)
    (suffix : pageNo :: rest <:+ chain) (start : Nat) :
    (file.remaining (pageNo :: rest) start).length + rest.length < file.size * 40000 := by
  have here := rids_from_length_le formed (suffix.subset List.mem_cons_self) start
  have later := rids_length_le formed rest fun other member =>
    suffix.subset (List.mem_cons_of_mem _ member)
  have pages := suffix.length_le
  have size := formed.length_lt
  simp only [List.length_cons] at pages
  simp only [remaining, List.length_append, Page.MAXSLOTS] at here later ⊢
  omega

theorem HeapFormed.rids_lt (formed : file.HeapFormed headerNo chain) :
    (file.rids chain).length < file.size * 40000 := by
  have bound := rids_length_le formed chain fun _ => id
  have size := formed.length_lt
  simp only [Page.MAXSLOTS] at bound
  omega

theorem found_from_cons {start : Nat} {later : List RID} (status : Status)
    (named : (file.data pageNo).curPage = pageNo)
    (listed : file.ridsFrom pageNo start = rid :: later) :
    (file.data pageNo).foundFrom start status = .ok rid ∧
      ∃ number : Nat, rid = { pageNo := pageNo, slotNo := number } ∧
        later = file.ridsFrom pageNo (number + 1) := by
  unfold ridsFrom at listed
  cases live : (file.data pageNo).liveFrom start with
  | nil =>
      rw [live] at listed
      cases listed
  | cons number numbers =>
      rw [live, List.map_cons, List.cons.injEq] at listed
      obtain ⟨equal, tail⟩ := listed
      refine ⟨?_, number, equal.symm, ?_⟩
      · simp only [Page.foundFrom, live, named]
        rw [equal]
      · rw [← tail, Page.live_from_cons live]
        rfl

theorem found_from_nil {start : Nat} {status : Status} (empty : file.ridsFrom pageNo start = []) :
    (file.data pageNo).foundFrom start status = .error status := by
  have none_live : (file.data pageNo).liveFrom start = [] := List.map_eq_nil_iff.mp empty
  simp only [Page.foundFrom, none_live]

theorem wanted_of_record {rec : Record} (record : file.record rid = some rec) :
    file.wanted filter rid = ScanFilter.matchRec filter rec := by
  simp only [wanted, record]

theorem HeapFormed.get_record (formed : file.HeapFormed headerNo chain) (member : pageNo ∈ chain)
    {number : Nat} {rec : Record}
    (record : file.record { pageNo := pageNo, slotNo := number } = some rec) :
    (file.data pageNo).getRecord { pageNo := pageNo, slotNo := number } = .ok rec := by
  have stored : (file.data pageNo).record number = some rec := by
    simp only [LogicalFile.record, if_pos (Int.natCast_nonneg number), Int.toNat_natCast] at record
    exact record
  rw [Page.get_record_eq (formed.pages pageNo member).1.slotCnt_nonpos, stored]

theorem contents_number (live : (file.contents chain rid).isSome) :
    rid.pageNo ∈ chain ∧ ∃ number : Nat, rid = { pageNo := rid.pageNo, slotNo := number } := by
  have listed := mem_rids.mpr live
  simp only [rids, List.mem_flatMap, mem_rids_from] at listed
  obtain ⟨pageNo, member, onPage, bound, _⟩ := listed
  exact ⟨onPage ▸ member, rid.slotNo.toNat, by cases rid; simp_all⟩

theorem HeapFormed.get_contents (formed : file.HeapFormed headerNo chain) {rec : Record}
    (live : file.contents chain rid = some rec) :
    (file.data rid.pageNo).getRecord rid = .ok rec := by
  obtain ⟨member, number, named⟩ := contents_number (Option.isSome_of_eq_some live)
  generalize rid.pageNo = pageNo at member named
  subst named
  apply formed.get_record member
  rw [← live, contents, if_pos member]

theorem sought_cons_wanted {todo : List RID} (accepted : file.wanted filter rid = true) :
    file.sought filter (rid :: todo) = rid :: todo := by
  simp [sought, accepted]

theorem sought_cons_other {todo : List RID} (refused : file.wanted filter rid = false) :
    file.sought filter (rid :: todo) = file.sought filter todo := by
  simp [sought, refused]

theorem HeapFormed.scan_loop (formed : file.HeapFormed headerNo chain) (fuel : Nat)
    {pageNo : Int} {rest : List Int} {start : Nat} {curRec : RID} {status : Status}
    (suffix : pageNo :: rest <:+ chain) (behind : (start : Int) ≤ curRec.slotNo + 1)
    (enough : (file.remaining (pageNo :: rest) start).length + rest.length < fuel) :
    file.Advances filter chain (file.remaining (pageNo :: rest) start)
      (file.scanLoop filter fuel pageNo curRec
        ((file.data pageNo).foundFrom start status)) := by
  induction fuel generalizing pageNo rest start curRec status with
  | zero => exact absurd enough (Nat.not_lt_zero _)
  | succ fuel ih =>
      have member : pageNo ∈ chain := suffix.subset List.mem_cons_self
      cases listed : file.ridsFrom pageNo start with
      | cons rid later =>
          obtain ⟨found, number, rfl, tail⟩ :=
            found_from_cons status (formed.pages pageNo member).2 listed
          have live : { pageNo := pageNo, slotNo := number } ∈ file.ridsFrom pageNo start := by
            rw [listed]
            exact List.mem_cons_self
          obtain ⟨rec, record⟩ := Option.isSome_iff_exists.mp (mem_rids_from.mp live).2.2
          have front : file.remaining (pageNo :: rest) start =
              { pageNo := pageNo, slotNo := number } ::
                file.remaining (pageNo :: rest) (number + 1) := by
            simp only [remaining, listed, tail, List.cons_append]
          rw [front] at enough ⊢
          rw [found, scanLoop, formed.get_record member record]
          have accepts : file.wanted filter { pageNo := pageNo, slotNo := number } = _ :=
            wanted_of_record record
          by_cases accepted : ScanFilter.matchRec filter rec = true
          · rw [accepted] at accepts
            simp only [Advances, sought_cons_wanted accepts, accepted, if_true]
            exact ⟨trivial, rest, number + 1, suffix, rfl, rfl⟩
          · simp only [Bool.not_eq_true] at accepted
            rw [accepted] at accepts
            simp only [Advances, sought_cons_other accepts, accepted, Bool.false_eq_true, if_false]
            rw [(formed.pages pageNo member).1.next_record
              (show (number : Int) + 1 = ((number + 1 : Nat) : Int) from rfl)]
            apply ih suffix (le_refl _)
            simp only [List.length_cons] at enough
            omega
      | nil =>
          have front : file.remaining (pageNo :: rest) start = file.rids rest := by
            simp only [remaining, listed, List.nil_append]
          rw [front] at enough ⊢
          rw [found_from_nil listed, scanLoop]
          have chained := formed.chained.suffix suffix
          cases rest with
          | nil =>
              have last : (file.data pageNo).getNextPage = -1 := chained
              simp only [last, if_true]
              have slot : curRec.slotNo + 1 = ((curRec.slotNo + 1).toNat : Int) :=
                (Int.toNat_of_nonneg (by omega)).symm
              refine ⟨pageNo, curRec, rfl, [], (curRec.slotNo + 1).toNat, suffix, slot, ?_⟩
              rw [remaining, rids_from_later (by omega) listed]
              rfl
          | cons nextNo rest =>
              have inside := formed.inside nextNo (List.mem_cons_of_mem _
                ((suffix_tail suffix).subset List.mem_cons_self))
              have further : (file.data pageNo).getNextPage ≠ -1 := by
                rw [chained.1]
                have := inside.1
                omega
              simp only [further, if_false]
              rw [chained.1, (formed.pages nextNo ((suffix_tail suffix).subset
                List.mem_cons_self)).1.first_record]
              have whole : file.rids (nextNo :: rest) = file.remaining (nextNo :: rest) 0 := by
                simp only [rids, remaining, List.flatMap_cons]
              rw [whole] at enough ⊢
              apply ih (suffix_tail suffix) (by omega)
              simp only [List.length_cons] at enough
              omega

theorem live_iff_contents (member : pageNo ∈ chain) (number : Nat) :
    (file.data pageNo).Live number ↔
      (file.contents chain { pageNo := pageNo, slotNo := number }).isSome := by
  rw [← Page.record_is_some_iff]
  simp only [contents, if_pos member, record, Int.natCast_nonneg, if_true, Int.toNat_natCast]

theorem rids_from_congr {chain' : List Int} {start : Nat} (member : pageNo ∈ chain)
    (member' : pageNo ∈ chain')
    (same : ∀ number : Nat, start ≤ number →
      (file'.contents chain' { pageNo := pageNo, slotNo := number }).isSome =
        (file.contents chain { pageNo := pageNo, slotNo := number }).isSome) :
    file'.ridsFrom pageNo start = file.ridsFrom pageNo start := by
  unfold ridsFrom
  congr 1
  apply Page.live_from_congr
  intro number
  rw [live_iff_contents member', live_iff_contents member]
  constructor
  · intro live
    exact ⟨live.1, by rw [← same number live.1]; exact live.2⟩
  · intro live
    exact ⟨live.1, by rw [same number live.1]; exact live.2⟩

theorem rids_congr {chain' pages : List Int} (members : ∀ pageNo ∈ pages, pageNo ∈ chain)
    (members' : ∀ pageNo ∈ pages, pageNo ∈ chain')
    (same : ∀ pageNo ∈ pages, ∀ number : Nat,
      (file'.contents chain' { pageNo := pageNo, slotNo := number }).isSome =
        (file.contents chain { pageNo := pageNo, slotNo := number }).isSome) :
    file'.rids pages = file.rids pages := by
  unfold rids
  apply List.flatMap_congr
  intro pageNo member
  exact rids_from_congr (members pageNo member) (members' pageNo member)
    fun number _ => same pageNo member number

/-- Removing the current record changes nothing in front of the scan. -/
theorem Stands.delete {todo : List RID} (stands : file.Stands chain rid.pageNo rid todo)
    (distinct : chain.Nodup)
    (updated : file'.contents chain = Function.update (file.contents chain) rid none) :
    file'.Stands chain rid.pageNo rid todo := by
  obtain ⟨rest, start, suffix, slot, rfl⟩ := stands
  refine ⟨rest, start, suffix, slot, ?_⟩
  have member : rid.pageNo ∈ chain := suffix.subset List.mem_cons_self
  have apart : rid.pageNo ∉ rest :=
    (List.nodup_cons.mp (distinct.sublist suffix.sublist)).1
  have later : ∀ pageNo ∈ rest, pageNo ∈ chain := fun pageNo inRest =>
    suffix.subset (List.mem_cons_of_mem _ inRest)
  have here : file'.ridsFrom rid.pageNo start = file.ridsFrom rid.pageNo start := by
    apply rids_from_congr member member
    intro number bound
    rw [updated, Function.update_of_ne]
    intro equal
    have same := congrArg RID.slotNo equal
    simp only at same
    omega
  have there : file'.rids rest = file.rids rest := by
    apply rids_congr later later
    intro pageNo inRest number
    rw [updated, Function.update_of_ne]
    intro equal
    exact apart (by rw [← congrArg RID.pageNo equal]; exact inRest)
  simp only [remaining, here, there]

theorem rids_from_sublist (start : Nat) :
    (file.ridsFrom pageNo start).Sublist (file.ridsFrom pageNo 0) := by
  apply List.Sublist.map
  apply List.monotone_filter_right
  intro number
  simp only [decide_eq_true_eq]
  exact fun live => ⟨Nat.zero_le _, live.2⟩

theorem Stands.sublist {curRec : RID} {todo : List RID}
    (stands : file.Stands chain pageNo curRec todo) : todo.Sublist (file.rids chain) := by
  obtain ⟨rest, start, ⟨before, split⟩, _, rfl⟩ := stands
  have here : (file.remaining (pageNo :: rest) start).Sublist (file.rids (pageNo :: rest)) := by
    simp only [remaining, rids, List.flatMap_cons]
    exact (rids_from_sublist start).append_right _
  rw [← split]
  simp only [rids, List.flatMap_append] at here ⊢
  exact here.trans (List.sublist_append_right _ _)

theorem sought_split (todo : List RID) :
    ∃ skipped, todo = skipped ++ file.sought filter todo ∧
      ∀ rid ∈ skipped, file.wanted filter rid = false := by
  refine ⟨todo.takeWhile fun rid => !file.wanted filter rid,
    List.takeWhile_append_dropWhile.symm, ?_⟩
  intro rid member
  simpa using List.mem_takeWhile_imp member

theorem wanted_of_sought {todo later : List RID}
    (stopped : file.sought filter todo = rid :: later) : file.wanted filter rid = true := by
  have head := List.head?_dropWhile_not (fun rid => !file.wanted filter rid) todo
  unfold sought at stopped
  rw [stopped] at head
  simpa using head

theorem wanted_congr (same : file'.record rid = file.record rid) :
    file'.wanted filter rid = file.wanted filter rid := by
  simp only [wanted, same]

theorem record_of_contents (member : rid.pageNo ∈ chain) :
    file.contents chain rid = file.record rid := by
  simp only [contents, if_pos member]

def Packed (file : LogicalFile) (pageNo : Int) : Prop :=
  ∀ number, number < (file.data pageNo).slotCount → (file.data pageNo).Live number

theorem rids_append (pages pages' : List Int) :
    file.rids (pages ++ pages') = file.rids pages ++ file.rids pages' := by
  simp only [rids, List.flatMap_append]

theorem rids_singleton (pageNo : Int) : file.rids [pageNo] = file.ridsFrom pageNo 0 := by
  simp only [rids, List.flatMap_cons, List.flatMap_nil, List.append_nil]

/-- A record in the first free slot of a page without holes comes last. -/
theorem rids_from_snoc {number : Nat} {rec : Record} (packed : file.Packed pageNo)
    (wf' : (file'.data pageNo).WellFormed) {chain' : List Int} (member : pageNo ∈ chain)
    (member' : pageNo ∈ chain')
    (fresh : file.contents chain { pageNo := pageNo, slotNo := number } = none)
    (lowest : ∀ other, other < number → (file.data pageNo).Live other)
    (updated : file'.contents chain' = Function.update (file.contents chain)
      { pageNo := pageNo, slotNo := number } (some rec)) :
    file'.ridsFrom pageNo 0 =
        file.ridsFrom pageNo 0 ++ [{ pageNo := pageNo, slotNo := number }] ∧
      file'.Packed pageNo := by
  have live : ∀ other : Nat, (file'.data pageNo).Live other ↔
      (file.data pageNo).Live other ∨ other = number := by
    intro other
    rw [live_iff_contents member', live_iff_contents member, updated]
    by_cases same : other = number
    · subst same
      simp
    · rw [Function.update_of_ne]
      · simp [same]
      · intro equal
        have slots := congrArg RID.slotNo equal
        simp only at slots
        omega
  have below : ∀ other : Nat, (file.data pageNo).Live other → other < number := by
    intro other alive
    by_contra above
    have dead : ¬(file.data pageNo).Live number := by
      rw [live_iff_contents member, fresh]
      exact Bool.false_ne_true
    exact dead (packed number (lt_of_le_of_lt (Nat.le_of_not_lt above) alive.1))
  constructor
  · have ascending : ((file.data pageNo).liveFrom 0 ++ [number]).Pairwise (· < ·) := by
      apply List.pairwise_append.mpr
      refine ⟨Page.live_from_sorted 0, List.pairwise_singleton _ _, ?_⟩
      intro left inLeft right inRight
      rw [List.mem_singleton.mp inRight]
      exact below left (Page.mem_live_from.mp inLeft).2
    have listed : (file'.data pageNo).liveFrom 0 = (file.data pageNo).liveFrom 0 ++ [number] := by
      apply Page.ascending_ext (Page.live_from_sorted 0) ascending
      intro other
      rw [Page.mem_live_from, live other, List.mem_append, Page.mem_live_from,
        List.mem_singleton]
      constructor
      · rintro ⟨bound, old | new⟩
        · exact .inl ⟨bound, old⟩
        · exact .inr new
      · rintro (⟨bound, old⟩ | new)
        · exact ⟨bound, .inl old⟩
        · exact ⟨Nat.zero_le _, .inr new⟩
    simp only [ridsFrom, listed, List.map_append, List.map_cons, List.map_nil]
  · intro other bound
    rw [live other]
    -- the last slot of the page is the new one, and everything below is live
    have last := wf'.last (by omega)
    rw [live] at last
    have top : (file'.data pageNo).slotCount - 1 ≤ number := by
      rcases last with old | new
      · exact le_of_lt (below _ old)
      · exact le_of_eq new
    by_cases same : other = number
    · exact .inr same
    · exact .inl (lowest other (by omega))

def added : Except Status RID → List RID
  | .ok rid => [rid]
  | .error _ => []

/-- `OK` means one fresh RID with the bytes of the record, and nothing else. -/
def InsertEffect (file file' : LogicalFile) (chain chain' : List Int) (rec : Record) :
    Except Status RID → Prop
  | .ok rid => file.contents chain rid = none ∧
      file'.contents chain' = Function.update (file.contents chain) rid (some rec)
  | .error _ => file'.contents chain' = file.contents chain

/-- What `insertRecord` has done to a well-formed heap file. -/
structure Inserted (file file' : LogicalFile) (headerNo curNo curNo' : Int)
    (chain chain' : List Int) (rec : Record) (result : Except Status RID) : Prop where
  formed : file'.HeapFormed headerNo chain'
  pages : chain' = chain ∨ chain' = chain ++ [(file.size : Int)]
  member : curNo' ∈ chain'
  first : file.firstPage = headerNo → file'.firstPage = headerNo
  effect : InsertEffect file file' chain chain' rec result
  accepts : rec.length + SLOTSIZE ≤ DATASIZE → ∃ rid, result = .ok rid
  atEnd : (file.header headerNo).lastPage = curNo → (file'.header headerNo).lastPage = curNo'
  ordered : (file.header headerNo).lastPage = curNo → file.Packed curNo → file'.Packed curNo' ∧
    file'.rids chain' = file.rids chain ++ added result

theorem append_page_first (image : PageImage) (curNo : Int) (first : file.firstPage = headerNo)
    (inside : file.Inside headerNo) :
    (file.appendPage headerNo curNo image).firstPage = headerNo := by
  have notMissing : file.firstPage ≠ -1 := by
    have := inside.1
    omega
  change (if file.firstPage = -1 then (file.size : Int) else file.firstPage) = headerNo
  rw [if_neg notMissing, first]

theorem insert_record_first (image : PageImage) (curNo : Int) (rec : Record)
    (first : file.firstPage = headerNo) (inside : file.Inside headerNo) :
    (file.insertRecord headerNo curNo image rec).2.1.firstPage = headerNo := by
  unfold LogicalFile.insertRecord
  split
  · exact first
  · dsimp only
    split <;> exact append_page_first image curNo first inside

theorem delete_record_first (file : LogicalFile) (headerNo curNo : Int) (rid : RID) :
    (file.deleteRecord headerNo curNo rid).2.firstPage = file.firstPage := by
  unfold LogicalFile.deleteRecord
  dsimp only
  split <;> rfl

theorem HeapFormed.last_page_eq (formed : file.HeapFormed headerNo chain)
    (formed' : file'.HeapFormed headerNo chain) :
    (file'.header headerNo).lastPage = (file.header headerNo).lastPage := by
  have same := formed.last.symm.trans formed'.last
  exact (Option.some.inj same).symm

theorem rids_from_eq {numbers : List Nat} (member : pageNo ∈ chain)
    (sorted : numbers.Pairwise (· < ·))
    (listed : ∀ number : Nat, (file.contents chain { pageNo := pageNo, slotNo := number }).isSome ↔
      number ∈ numbers) :
    file.ridsFrom pageNo 0 = numbers.map fun number : Nat => { pageNo, slotNo := number } := by
  unfold ridsFrom
  congr 1
  apply Page.ascending_ext (Page.live_from_sorted 0) sorted
  intro number
  rw [Page.mem_live_from, live_iff_contents member, listed number]
  simp

theorem packed_of_numbers {count : Nat} (member : pageNo ∈ chain)
    (wf : (file.data pageNo).WellFormed)
    (listed : ∀ number : Nat, (file.contents chain { pageNo := pageNo, slotNo := number }).isSome ↔
      number < count) : file.Packed pageNo := by
  intro number bound
  have last := wf.last (by omega)
  rw [live_iff_contents member, listed] at last ⊢
  omega

theorem HeapFormed.insert_here (formed : file.HeapFormed headerNo chain) {curNo : Int}
    (member : curNo ∈ chain) {rec : Record} (nonempty : 1 ≤ rec.length)
    (fits : (rec.length : Int) + SLOTSIZE ≤ (file.data curNo).freeSpace) (image : PageImage) :
    ∃ result file' curNo' chain', file.insertRecord headerNo curNo image rec =
        (result, file', curNo') ∧
      Inserted file file' headerNo curNo curNo' chain chain' rec result := by
  obtain ⟨number, file', inserted, formed', fresh, updated, lowest⟩ :=
    formed.insert_fits member nonempty fits image
  refine ⟨_, file', curNo, chain, inserted, formed', .inl rfl, member, ?_, ⟨fresh, updated⟩,
    fun _ => ⟨_, rfl⟩, ?_, ?_⟩
  · intro first
    have kept := insert_record_first image curNo rec first
      (formed.inside headerNo List.mem_cons_self)
    rw [inserted] at kept
    exact kept
  · intro last
    rw [formed.last_page_eq formed', last]
  · intro last packed
    obtain ⟨pages, split⟩ := List.getLast?_eq_some_iff.mp (last ▸ formed.last)
    have apart : curNo ∉ pages := by
      have distinct := formed.nodup
      rw [split] at distinct
      intro earlier
      exact (List.nodup_append.mp distinct).2.2 curNo earlier curNo List.mem_cons_self rfl
    have earlier : ∀ pageNo ∈ pages, pageNo ∈ chain := fun pageNo inPages => by
      rw [split]
      exact List.mem_append_left _ inPages
    obtain ⟨snoc, packed'⟩ := rids_from_snoc packed (formed'.pages curNo member).1 member member
      fresh lowest updated
    have same : file'.rids pages = file.rids pages := by
      apply rids_congr earlier earlier
      intro pageNo inPages other
      rw [updated, Function.update_of_ne]
      intro equal
      have onPage := congrArg RID.pageNo equal
      simp only at onPage
      exact apart (onPage ▸ inPages)
    refine ⟨packed', ?_⟩
    rw [split, rids_append, rids_append, rids_singleton, rids_singleton, snoc, same,
      List.append_assoc]
    rfl

theorem HeapFormed.insert_beyond (formed : file.HeapFormed headerNo chain) {curNo : Int}
    (last : (file.header headerNo).lastPage = curNo) {rec : Record} (nonempty : 1 ≤ rec.length)
    (full : ¬(rec.length : Int) + SLOTSIZE ≤ (file.data curNo).freeSpace) (image : PageImage) :
    ∃ result file' curNo' chain', file.insertRecord headerNo curNo image rec =
        (result, file', curNo') ∧
      Inserted file file' headerNo curNo curNo' chain chain' rec result := by
  obtain ⟨result, file', inserted, formed', outcome⟩ :=
    formed.insert_grows last nonempty full image
  set newNo : Int := (file.size : Int) with newDef
  have member' : newNo ∈ chain ++ [newNo] := by simp
  have outside : newNo ∉ chain := fun inChain => by
    have inside := formed.inside newNo (List.mem_cons_of_mem _ inChain)
    exact absurd inside.2 (lt_irrefl _)
  have earlier : ∀ pageNo ∈ chain, pageNo ∈ chain ++ [newNo] := fun pageNo inChain =>
    List.mem_append_left _ inChain
  have unknown : ∀ number : Nat,
      file.contents chain { pageNo := newNo, slotNo := number } = none := by
    intro number
    simp only [contents, if_neg outside]
  have kept : file.firstPage = headerNo → file'.firstPage = headerNo := by
    intro first
    have kept := insert_record_first image curNo rec first
      (formed.inside headerNo List.mem_cons_self)
    rw [inserted] at kept
    exact kept
  have atEnd : (file'.header headerNo).lastPage = newNo := by
    have last' := formed'.last
    rw [List.getLast?_append, List.getLast?_singleton, Option.some_or] at last'
    exact (Option.some.inj last').symm
  rcases outcome with ⟨short, rfl, fresh, updated⟩ | ⟨long, rfl, updated⟩
  · have listed : ∀ number : Nat,
        (file'.contents (chain ++ [newNo]) { pageNo := newNo, slotNo := number }).isSome ↔
          number ∈ [0] := by
      intro number
      rw [updated, List.mem_singleton]
      by_cases zero : number = 0
      · subst zero
        simp
      · rw [Function.update_of_ne, unknown number]
        · simp [zero]
        · intro equal
          have slots := congrArg RID.slotNo equal
          simp only at slots
          omega
    have same : file'.rids chain = file.rids chain := by
      apply rids_congr (fun _ => id) earlier
      intro pageNo inChain other
      rw [updated, Function.update_of_ne]
      intro equal
      have onPage := congrArg RID.pageNo equal
      simp only at onPage
      exact outside (onPage ▸ inChain)
    refine ⟨_, file', newNo, chain ++ [newNo], inserted, formed', .inr rfl, member', kept,
      ⟨fresh, updated⟩, fun _ => ⟨_, rfl⟩, fun _ => atEnd, fun _ _ => ⟨?_, ?_⟩⟩
    · apply packed_of_numbers member' (formed'.pages newNo member').1
      intro number
      rw [listed number, List.mem_singleton, Nat.lt_one_iff]
    · rw [rids_append, rids_singleton, same,
        rids_from_eq member' (List.pairwise_singleton _ _) listed]
      rfl
  · have same : file'.rids chain = file.rids chain := by
      apply rids_congr (fun _ => id) earlier
      intro pageNo inChain other
      rw [updated]
    have listed : ∀ number : Nat,
        (file'.contents (chain ++ [newNo]) { pageNo := newNo, slotNo := number }).isSome ↔
          number ∈ [] := by
      intro number
      rw [updated, unknown number]
      simp
    refine ⟨_, file', newNo, chain ++ [newNo], inserted, formed', .inr rfl, member', kept,
      updated, fun short => absurd short (by omega), fun _ => atEnd, fun _ _ => ⟨?_, ?_⟩⟩
    · have none_live : ∀ number : Nat,
          (file'.contents (chain ++ [newNo]) { pageNo := newNo, slotNo := number }).isSome ↔
            number < 0 := by
        intro number
        rw [listed number]
        simp
      exact packed_of_numbers member' (formed'.pages newNo member').1 none_live
    · rw [rids_append, rids_singleton, same,
        rids_from_eq member' List.Pairwise.nil listed]
      rfl

theorem Inserted.refused (formed : file.HeapFormed headerNo chain) {curNo : Int}
    (member : curNo ∈ chain) {rec : Record} {status : Status} (large : DATASIZE < rec.length) :
    Inserted file file headerNo curNo curNo chain chain rec (.error status) where
  formed := formed
  pages := .inl rfl
  member := member
  first := id
  effect := rfl
  accepts := fun short => absurd short (by omega)
  atEnd := id
  ordered := fun _ packed => ⟨packed, (List.append_nil _).symm⟩

theorem HeapFormed.insert_record (formed : file.HeapFormed headerNo chain) {curNo : Int}
    (member : curNo ∈ chain) {rec : Record} (nonempty : 1 ≤ rec.length)
    (room : (rec.length : Int) + SLOTSIZE ≤ (file.data curNo).freeSpace ∨
      (file.header headerNo).lastPage = curNo) (image : PageImage) :
    ∃ result file' curNo' chain', file.insertRecord headerNo curNo image rec =
        (result, file', curNo') ∧
      Inserted file file' headerNo curNo curNo' chain chain' rec result := by
  by_cases fits : (rec.length : Int) + SLOTSIZE ≤ (file.data curNo).freeSpace
  · exact formed.insert_here member nonempty fits image
  · exact formed.insert_beyond (room.resolve_left fits) nonempty fits image

theorem HeapFormed.stands_first (formed : file.HeapFormed headerNo chain) :
    file.Stands chain (file.header headerNo).firstPage NULLRID (file.rids chain) := by
  obtain ⟨first, pages, split⟩ : ∃ first pages, chain = first :: pages :=
    List.exists_cons_of_ne_nil fun empty => by
      have head := formed.first
      rw [empty] at head
      cases head
  have head := formed.first
  rw [split, List.head?_cons] at head
  rw [← Option.some.inj head]
  refine ⟨pages, 0, by rw [split], rfl, ?_⟩
  rw [split]
  simp only [rids, remaining, List.flatMap_cons]

theorem HeapFormed.scan_next (formed : file.HeapFormed headerNo chain) {curRec : RID}
    {todo : List RID} (stands : file.Stands chain pageNo curRec todo) :
    file.Advances filter chain todo
      (file.scanLoop filter (file.size * 40000) pageNo curRec
        ((file.data pageNo).nextRecord curRec)) := by
  obtain ⟨rest, start, suffix, slot, rfl⟩ := stands
  rw [(formed.pages pageNo (suffix.subset List.mem_cons_self)).1.next_record slot]
  exact formed.scan_loop _ suffix (le_of_eq slot.symm) (formed.remaining_lt suffix start)

end LogicalFile

end PrimitiveDB

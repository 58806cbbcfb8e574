import PrimitiveDB.CatalogUpdates
import PrimitiveDB.HeapPlaces

/-!
# The order of the records

Insertions fill the holes of the last page from the lowest slot on, then its end, then new
pages. So the records of one sequence of insertions come out of a scan in the order in which they
went in, although records of others may lie between them; and whatever is inserted or deleted,
the records that stay keep their order.
-/

namespace PrimitiveDB

open World

set_option autoImplicit false

namespace LogicalFile

variable {file file' : LogicalFile} {headerNo : Int} {chain chain' : List Int} {rec : Record}
  {recs : List Record} {rid : RID}

theorem filter_map_filter {α β : Type} (f : α → Option β) (accepts : β → Bool) (items : List α) :
    (items.filterMap f).filter accepts =
      (items.filter fun item => (f item).any accepts).filterMap f := by
  induction items with
  | nil => rfl
  | cons item items ih =>
      cases value : f item with
      | none => simp [value, ih]
      | some result =>
          cases decided : accepts result with
          | false => simp [value, decided, ih]
          | true => simp [value, decided, ih]

/-- If the RIDs of all records with a property are known in the order of a scan, so are the
records. -/
theorem tuples_filter_of_places {accepts : Record → Bool} {places : List RID}
    (distinct : chain.Nodup)
    (ordered : places.Pairwise fun left right => placeKey chain left < placeKey chain right)
    (held : List.Forall₂ (fun rid rec => file.contents chain rid = some rec) places recs)
    (accepted : ∀ rec ∈ recs, accepts rec = true)
    (complete : ∀ rid rec, file.contents chain rid = some rec → accepts rec = true →
      rid ∈ places) :
    (file.tuples chain).filter accepts = recs := by
  have values : places.filterMap file.record = recs := by
    clear ordered accepted complete
    induction held with
    | nil => rfl
    | cons here _ ih =>
        have member := (contents_some.mp (Option.isSome_of_eq_some here)).1
        rw [record_of_contents member] at here
        rw [List.filterMap_cons_some here, ih]
  have members : ∀ rid ∈ places, ∃ rec, file.contents chain rid = some rec ∧
      accepts rec = true := by
    clear ordered complete values
    induction held with
    | nil => simp
    | cons here _ ih =>
        obtain ⟨first, later⟩ := List.forall_mem_cons.mp accepted
        exact List.forall_mem_cons.mpr ⟨⟨_, here, first⟩, ih later⟩
  have same : (file.rids chain).filter (fun rid => (file.record rid).any accepts) = places := by
    have sorted := (@rids_key_ordered file chain distinct).filter
      fun rid => (file.record rid).any accepts
    apply List.Sublist.antisymm
    · apply ordered_sublist sorted ordered
      intro rid listed
      obtain ⟨live, accepting⟩ := List.mem_filter.mp listed
      obtain ⟨rec, found⟩ := Option.isSome_iff_exists.mp (mem_rids.mp live)
      have member := (contents_some.mp (mem_rids.mp live)).1
      rw [← record_of_contents member, found, Option.any_some] at accepting
      exact complete rid rec found accepting
    · apply ordered_sublist ordered sorted
      intro rid listed
      obtain ⟨rec, found, accepting⟩ := members rid listed
      have live : (file.contents chain rid).isSome := Option.isSome_of_eq_some found
      refine List.mem_filter.mpr ⟨mem_rids.mpr live, ?_⟩
      rw [← record_of_contents (contents_some.mp live).1, found, Option.any_some]
      exact accepting
  rw [← values, ← same]
  exact filter_map_filter file.record accepts (file.rids chain)

structure FilledTo (file : LogicalFile) (headerNo : Int) (place : RID) : Prop where
  last : (file.header headerNo).lastPage = place.pageNo
  live : ∀ number : Nat, (number : Int) ≤ place.slotNo → (file.data place.pageNo).Live number

/-- An insertion goes behind all places up to which the last page is filled. -/
theorem HeapFormed.insert_behind (formed : file.HeapFormed headerNo chain)
    (nonempty : 1 ≤ rec.length) {image : PageImage} {curNo : Int}
    (source : file.insertRecord headerNo (file.header headerNo).lastPage image rec =
      (.ok rid, file', curNo)) :
    ∃ chain', file'.HeapFormed headerNo chain' ∧ chain <+: chain' ∧
      file.contents chain rid = none ∧
      file'.contents chain' = Function.update (file.contents chain) rid (some rec) ∧
      file'.FilledTo headerNo rid ∧
      ∀ place, file.FilledTo headerNo place → placeKey chain' place < placeKey chain' rid := by
  by_cases fits : (rec.length : Int) + SLOTSIZE ≤
      (file.data (file.header headerNo).lastPage).freeSpace
  · obtain ⟨number, file₁, source', formed', fresh, updated, lowest⟩ :=
      formed.insert_fits formed.last_mem nonempty fits image
    rw [source'] at source
    cases source
    have member := formed.last_mem
    have last := formed.last_page_eq formed'
    refine ⟨chain, formed', List.prefix_refl chain, fresh, updated, ⟨last, ?_⟩, ?_⟩
    · intro other bound
      rw [live_iff_contents member, updated]
      by_cases here : other = number
      · rw [here, Function.update_self]
        rfl
      · have below : other < number := by
          have bound' : (other : Int) ≤ number := bound
          omega
        have different : ({ pageNo := (file.header headerNo).lastPage, slotNo := other } : RID) ≠
            { pageNo := (file.header headerNo).lastPage, slotNo := number } := by
          intro same
          have slots := congrArg RID.slotNo same
          dsimp only at slots
          omega
        rw [Function.update_of_ne different, ← live_iff_contents member]
        exact lowest other below
    · intro place filled
      rw [place_key_lt]
      right
      refine ⟨by rw [filled.last], ?_⟩
      by_contra above
      have live := filled.live number (not_lt.mp above)
      rw [← filled.last, live_iff_contents member, fresh] at live
      cases live
  · obtain ⟨result, file₁, source', formed', outcome⟩ := formed.insert_grows rfl nonempty fits image
    rw [source'] at source
    cases source
    rcases outcome with ⟨_, same, fresh, updated⟩ | ⟨_, refused, _⟩
    · cases same
      have newMember : (file.size : Int) ∈ chain ++ [(file.size : Int)] := by simp
      refine ⟨_, formed', List.prefix_append chain _, fresh, updated, ⟨?_, ?_⟩, ?_⟩
      · have last := formed'.last
        rw [List.getLast?_concat] at last
        exact (Option.some.inj last).symm
      · intro number bound
        have zero : number = 0 := by
          have bound' : (number : Int) ≤ 0 := bound
          omega
        rw [zero, live_iff_contents newMember, updated]
        exact Option.isSome_of_eq_some (Function.update_self _ _ _)
      · intro place filled
        have inside : place.pageNo ∈ chain := filled.last ▸ formed.last_mem
        have outside : (file.size : Int) ∉ chain := by
          intro member
          have bound := (formed.inside _ (List.mem_cons_of_mem headerNo member)).2
          omega
        rw [place_key_lt]
        left
        rw [List.idxOf_append_of_mem inside, List.idxOf_append_of_notMem outside,
          List.idxOf_cons_self, Nat.add_zero]
        exact List.idxOf_lt_length_of_mem inside
    · cases refused

/-- The records have gone to these places, in the order of a scan, and nothing else has
changed. -/
structure Places (file file' : LogicalFile) (headerNo : Int) (chain chain' : List Int)
    (places : List RID) (recs : List Record) : Prop where
  formed : file'.HeapFormed headerNo chain'
  pages : chain <+: chain'
  ordered : places.Pairwise fun left right => placeKey chain' left < placeKey chain' right
  held : List.Forall₂ (fun rid rec => file'.contents chain' rid = some rec) places recs
  fresh : ∀ rid ∈ places, file.contents chain rid = none
  others : ∀ rid, rid ∉ places → file'.contents chain' rid = file.contents chain rid
  behind : ∀ place, file.FilledTo headerNo place → ∀ rid ∈ places,
    placeKey chain' place < placeKey chain' rid

theorem place_key_extends (pages : chain <+: chain') {place : RID}
    (member : place.pageNo ∈ chain) :
    placeKey chain' place = placeKey chain place := by
  obtain ⟨more, rfl⟩ := pages
  unfold placeKey
  rw [List.idxOf_append_of_mem member]

theorem InsertedAll.places (inserted : InsertedAll headerNo file recs file')
    (formed : file.HeapFormed headerNo chain) (nonempty : ∀ rec ∈ recs, 1 ≤ rec.length) :
    ∃ chain' places, Places file file' headerNo chain chain' places recs := by
  induction inserted generalizing chain with
  | nil file =>
      exact ⟨chain, [], formed, List.prefix_refl chain, .nil, .nil, by simp, fun _ _ => rfl,
        by simp⟩
  | @cons file file₁ file' image rec recs rid curNo source later ih =>
      obtain ⟨positive, positives⟩ := List.forall_mem_cons.mp nonempty
      obtain ⟨chain₁, formed₁, pages₁, fresh, updated, filled, behind⟩ :=
        formed.insert_behind positive source
      obtain ⟨chain', places, rest⟩ := ih formed₁ positives
      have live : file₁.contents chain₁ rid = some rec := by
        rw [updated, Function.update_self]
      have absent : rid ∉ places := by
        intro member
        rw [rest.fresh rid member] at live
        cases live
      refine ⟨chain', rid :: places, rest.formed, pages₁.trans rest.pages,
        .cons (rest.behind rid filled) rest.ordered, .cons ?_ rest.held, ?_, ?_, ?_⟩
      · rw [rest.others rid absent]
        exact live
      · rw [List.forall_mem_cons]
        refine ⟨fresh, fun other member => ?_⟩
        have free := rest.fresh other member
        rw [updated, Function.update_of_ne] at free
        · exact free
        · rintro rfl
          exact absent member
      · intro other outside
        obtain ⟨different, notLater⟩ := not_or.mp (mt List.mem_cons.mpr outside)
        rw [rest.others other notLater, updated, Function.update_of_ne different]
      · intro place before
        -- all places of the sequence are behind the first one
        have first : placeKey chain' place < placeKey chain' rid := by
          have inside : place.pageNo ∈ chain₁ :=
            pages₁.subset (before.last ▸ formed.last_mem)
          have member : rid.pageNo ∈ chain₁ :=
            (contents_some.mp (Option.isSome_of_eq_some live)).1
          rw [place_key_extends rest.pages inside, place_key_extends rest.pages member]
          exact behind place before
        rw [List.forall_mem_cons]
        exact ⟨first, fun other member => first.trans (rest.behind rid filled other member)⟩

section Filters

variable {places : List RID} {accepts : Record → Bool}

theorem Places.mem_held (placed : Places file file' headerNo chain chain' places recs) :
    ∀ rid ∈ places, ∃ rec ∈ recs, file'.contents chain' rid = some rec := by
  have held := placed.held
  clear placed
  induction held with
  | nil => simp
  | cons here _ ih =>
      rw [List.forall_mem_cons]
      refine ⟨⟨_, List.mem_cons_self, here⟩, fun rid member => ?_⟩
      obtain ⟨rec, inside, found⟩ := ih rid member
      exact ⟨rec, List.mem_cons_of_mem _ inside, found⟩

/-- Where nothing of the kind was before, the inserted records come out in their order. -/
theorem Places.filter_new (placed : Places file file' headerNo chain chain' places recs)
    (old : ∀ rec ∈ file.tuples chain, accepts rec = false)
    (new : ∀ rec ∈ recs, accepts rec = true) : (file'.tuples chain').filter accepts = recs := by
  apply tuples_filter_of_places placed.formed.nodup placed.ordered placed.held new
  intro rid rec live accepted
  by_contra outside
  rw [placed.others rid outside] at live
  rw [old rec (mem_tuples.mpr ⟨rid, live⟩)] at accepted
  cases accepted

theorem InsertedAll.tuples_of_empty (inserted : InsertedAll headerNo file recs file')
    (formed : file.HeapFormed headerNo chain) (nonempty : ∀ rec ∈ recs, 1 ≤ rec.length)
    (empty : file.tuples chain = []) :
    ∃ chain', file'.HeapFormed headerNo chain' ∧ file'.tuples chain' = recs := by
  obtain ⟨chain', places, placed⟩ := inserted.places formed nonempty
  have ordered : (file'.tuples chain').filter (fun _ => true) = recs :=
    placed.filter_new (by simp [empty]) (by simp)
  exact ⟨chain', placed.formed, by simpa using ordered⟩

theorem filtered_places (accepts : Record → Bool) :
    List.Forall₂ (fun rid rec => file.contents chain rid = some rec)
      ((file.rids chain).filter fun rid => (file.record rid).any accepts)
      ((file.tuples chain).filter accepts) := by
  have live : ∀ rid ∈ file.rids chain, file.contents chain rid = file.record rid := by
    intro rid member
    exact record_of_contents (contents_some.mp (mem_rids.mp member)).1
  rw [tuples, recordsAt, filter_map_filter]
  generalize file.rids chain = rids at live
  induction rids with
  | nil => exact .nil
  | cons rid rids ih =>
      obtain ⟨here, lives⟩ := List.forall_mem_cons.mp live
      cases found : file.record rid with
      | none =>
          rw [List.filter_cons_of_neg (by simp [found])]
          exact ih lives
      | some rec =>
          cases decided : accepts rec with
          | false =>
              rw [List.filter_cons_of_neg (by simp [found, decided])]
              exact ih lives
          | true =>
              rw [List.filter_cons_of_pos (by simp [found, decided]),
                List.filterMap_cons_some found]
              exact .cons (here.trans found) (ih lives)

/-- Whatever else changes: if the records of a kind are where they were, they come in the same
order. -/
theorem tuples_filter_congr (pages : chain <+: chain') (distinct : chain.Nodup)
    (distinct' : chain'.Nodup)
    (same : ∀ rid rec, accepts rec = true →
      (file'.contents chain' rid = some rec ↔ file.contents chain rid = some rec)) :
    (file'.tuples chain').filter accepts = (file.tuples chain).filter accepts := by
  have placed := @filtered_places file chain accepts
  have accepted : ∀ rec ∈ (file.tuples chain).filter accepts, accepts rec = true :=
    fun rec member => (List.mem_filter.mp member).2
  have ordered : ((file.rids chain).filter fun rid => (file.record rid).any accepts).Pairwise
      fun left right => placeKey chain' left < placeKey chain' right := by
    apply ((@rids_key_ordered file chain distinct).filter _).imp_of_mem
    intro left right inLeft inRight below
    have onLeft := (contents_some.mp (mem_rids.mp (List.mem_of_mem_filter inLeft))).1
    have onRight := (contents_some.mp (mem_rids.mp (List.mem_of_mem_filter inRight))).1
    rw [place_key_extends pages onLeft, place_key_extends pages onRight]
    exact below
  have complete : ∀ rid rec, file'.contents chain' rid = some rec → accepts rec = true →
      rid ∈ (file.rids chain).filter fun rid => (file.record rid).any accepts := by
    intro rid rec live accepting
    have before := (same rid rec accepting).mp live
    have alive : (file.contents chain rid).isSome := Option.isSome_of_eq_some before
    refine List.mem_filter.mpr ⟨mem_rids.mpr alive, ?_⟩
    rw [← record_of_contents (contents_some.mp alive).1, before, Option.any_some]
    exact accepting
  have moved : ∀ {places : List RID} {recs : List Record},
      List.Forall₂ (fun rid rec => file.contents chain rid = some rec) places recs →
      (∀ rec ∈ recs, accepts rec = true) →
      List.Forall₂ (fun rid rec => file'.contents chain' rid = some rec) places recs := by
    intro places recs held
    induction held with
    | nil => exact fun _ => .nil
    | cons here _ ih =>
        intro all
        obtain ⟨first, later⟩ := List.forall_mem_cons.mp all
        exact .cons ((same _ _ first).mpr here) (ih later)
  exact tuples_filter_of_places distinct' ordered (moved placed accepted) accepted complete

theorem Places.filter_old (placed : Places file file' headerNo chain chain' places recs)
    (distinct : chain.Nodup) (new : ∀ rec ∈ recs, accepts rec = false) :
    (file'.tuples chain').filter accepts = (file.tuples chain).filter accepts := by
  apply tuples_filter_congr placed.pages distinct placed.formed.nodup
  intro rid rec accepted
  by_cases member : rid ∈ places
  · obtain ⟨other, inside, held⟩ := placed.mem_held rid member
    rw [held, placed.fresh rid member]
    constructor
    · intro same
      cases same
      rw [new rec inside] at accepted
      cases accepted
    · intro impossible
      cases impossible
  · rw [placed.others rid member]

end Filters

structure Removed (file file' : LogicalFile) (headerNo : Int) (chain : List Int) (rec : Record) :
    Prop where
  formed : file'.HeapFormed headerNo chain
  gone : ∃ rid, file.contents chain rid = some rec ∧
    file'.contents chain = Function.update (file.contents chain) rid none

theorem Removed.perm (removed : Removed file file' headerNo chain rec)
    (distinct : chain.Nodup) : (file.tuples chain).Perm (rec :: file'.tuples chain) := by
  obtain ⟨rid, live, updated⟩ := removed.gone
  have absent : rid ∉ file'.rids chain := by
    rw [mem_rids, updated, Function.update_self]
    simp
  have keys : (file.rids chain).Perm (rid :: file'.rids chain) := by
    rw [List.perm_ext_iff_of_nodup (rids_nodup distinct)
      (List.nodup_cons.mpr ⟨absent, rids_nodup distinct⟩)]
    intro other
    rw [List.mem_cons, mem_rids, mem_rids, updated]
    by_cases same : other = rid
    · simp [same, live]
    · simp [same]
  have record : file.record rid = some rec := by
    rw [← record_of_contents (contents_some.mp (Option.isSome_of_eq_some live)).1]
    exact live
  have values := keys.filterMap file.record
  rw [List.filterMap_cons_some record] at values
  have same : (file'.rids chain).filterMap file.record = file'.tuples chain := by
    apply List.filterMap_congr
    intro other member
    have alive := mem_rids.mp member
    have onPage := (contents_some.mp alive).1
    rw [← record_of_contents onPage, ← record_of_contents onPage, updated, Function.update_of_ne]
    rintro rfl
    exact absent member
  rw [same] at values
  exact values

theorem Removed.filter (removed : Removed file file' headerNo chain rec) (distinct : chain.Nodup)
    {accepts : Record → Bool} (refused : accepts rec = false) :
    (file'.tuples chain).filter accepts = (file.tuples chain).filter accepts := by
  obtain ⟨rid, live, updated⟩ := removed.gone
  apply tuples_filter_congr (List.prefix_refl chain) distinct distinct
  intro other otherRec accepted
  rw [updated]
  by_cases same : other = rid
  · rw [same, Function.update_self, live]
    constructor
    · intro impossible
      cases impossible
    · intro equal
      cases equal
      rw [refused] at accepted
      cases accepted
  · rw [Function.update_of_ne same]

end LogicalFile

end PrimitiveDB

import PrimitiveDB.HeapMaps

/-!
# The tuples of a heap file

A heap file seen as the list of its records in the order of a scan. Inserting
adds a record somewhere, and at the end of the list if the last page has no holes.
-/

namespace PrimitiveDB

open World

set_option autoImplicit false

namespace LogicalFile

variable {file file' : LogicalFile} {headerNo : Int} {chain chain' : List Int} {rid : RID}
  {filter : Option ScanFilter} {rec : Record}

def recordsAt (file : LogicalFile) (rids : List RID) : List Record := rids.filterMap file.record

def tuples (file : LogicalFile) (chain : List Int) : List Record := file.recordsAt (file.rids chain)

theorem records_at_congr {rids : List RID}
    (same : ∀ rid ∈ rids, file'.record rid = file.record rid) :
    file'.recordsAt rids = file.recordsAt rids := by
  unfold recordsAt
  apply List.filterMap_congr
  exact same

theorem records_at_cons {rids : List RID} (record : file.record rid = some rec) :
    file.recordsAt (rid :: rids) = rec :: file.recordsAt rids :=
  List.filterMap_cons_some record

theorem records_at_append (left right : List RID) :
    file.recordsAt (left ++ right) = file.recordsAt left ++ file.recordsAt right :=
  List.filterMap_append

theorem mem_tuples : rec ∈ file.tuples chain ↔ ∃ rid, file.contents chain rid = some rec := by
  simp only [tuples, recordsAt, List.mem_filterMap]
  constructor
  · rintro ⟨rid, member, record⟩
    refine ⟨rid, ?_⟩
    rw [record_of_contents (contents_number (mem_rids.mp member)).1]
    exact record
  · rintro ⟨rid, live⟩
    have alive : (file.contents chain rid).isSome := Option.isSome_of_eq_some live
    refine ⟨rid, mem_rids.mpr alive, ?_⟩
    rw [← record_of_contents (contents_number alive).1]
    exact live

theorem tuples_nil_iff : file.tuples chain = [] ↔ file.rids chain = [] := by
  constructor
  · intro empty
    rw [List.eq_nil_iff_forall_not_mem]
    intro rid member
    obtain ⟨rec, live⟩ := Option.isSome_iff_exists.mp (mem_rids.mp member)
    have listed : rec ∈ file.tuples chain := mem_tuples.mpr ⟨rid, live⟩
    rw [empty] at listed
    cases listed
  · intro empty
    rw [tuples, empty]
    rfl

/-- What a scan stops at is the next record that the filter accepts. -/
theorem records_at_sought (todo : List RID) :
    (file.recordsAt todo).filter (ScanFilter.matchRec filter) =
      (file.recordsAt (file.sought filter todo)).filter (ScanFilter.matchRec filter) := by
  obtain ⟨skipped, split, refused⟩ := @sought_split file filter todo
  have nothing : (file.recordsAt skipped).filter (ScanFilter.matchRec filter) = [] := by
    rw [List.filter_eq_nil_iff]
    intro rec member
    obtain ⟨rid, inSkipped, record⟩ := List.mem_filterMap.mp member
    have decides := refused rid inSkipped
    rw [wanted_of_record record] at decides
    simp [decides]
  conv_lhs => rw [split]
  rw [records_at_append, List.filter_append, nothing, List.nil_append]

structure Appended (file file' : LogicalFile) (headerNo : Int) (chain chain' : List Int)
    (records : List Record) : Prop where
  perm : (file'.tuples chain').Perm (file.tuples chain ++ records)
  kept : ∀ rid rec, file.contents chain rid = some rec → file'.contents chain' rid = some rec
  /-- Behind a last page without holes the records are in the order of their insertion. -/
  ordered : file.Packed (file.header headerNo).lastPage →
    file'.Packed (file'.header headerNo).lastPage ∧
      file'.tuples chain' = file.tuples chain ++ records

theorem Appended.refl (file : LogicalFile) (headerNo : Int) (chain : List Int) :
    Appended file file headerNo chain chain [] where
  perm := by rw [List.append_nil]
  kept := fun _ _ live => live
  ordered := fun packed => ⟨packed, (List.append_nil _).symm⟩

theorem Appended.trans {file'' : LogicalFile} {chain'' : List Int} {records records' : List Record}
    (first : Appended file file' headerNo chain chain' records)
    (second : Appended file' file'' headerNo chain' chain'' records') :
    Appended file file'' headerNo chain chain'' (records ++ records') where
  perm := by
    have both := second.perm.trans (first.perm.append_right records')
    rwa [List.append_assoc] at both
  kept := fun rid rec live => second.kept rid rec (first.kept rid rec live)
  ordered := by
    intro packed
    obtain ⟨packed', listed⟩ := first.ordered packed
    obtain ⟨packed'', listed'⟩ := second.ordered packed'
    refine ⟨packed'', ?_⟩
    rw [listed', listed, List.append_assoc]

theorem Inserted.tuples_cons {curNo curNo' : Int}
    (formed : file.HeapFormed headerNo chain)
    (inserted : file.Inserted file' headerNo curNo curNo' chain chain' rec (.ok rid)) :
    file'.record rid = some rec ∧ file'.recordsAt (file.rids chain) = file.tuples chain ∧
      (file'.rids chain').Perm (rid :: file.rids chain) := by
  obtain ⟨fresh, updated⟩ := inserted.effect
  have absent : rid ∉ file.rids chain := by
    rw [mem_rids, fresh]
    simp
  have subset : ∀ pageNo ∈ chain, pageNo ∈ chain' := by
    intro pageNo member
    rcases inserted.pages with same | longer
    · rw [same]
      exact member
    · rw [longer]
      exact List.mem_append_left _ member
  refine ⟨?_, ?_, ?_⟩
  · have live : file'.contents chain' rid = some rec := by rw [updated, Function.update_self]
    rw [← record_of_contents (contents_number (Option.isSome_of_eq_some live)).1]
    exact live
  · apply records_at_congr
    intro other member
    have onPage := (contents_number (mem_rids.mp member)).1
    rw [← record_of_contents (subset _ onPage), ← record_of_contents onPage, updated,
      Function.update_of_ne]
    rintro rfl
    exact absent member
  · rw [List.perm_ext_iff_of_nodup (rids_nodup inserted.formed.nodup)
      (List.nodup_cons.mpr ⟨absent, rids_nodup formed.nodup⟩)]
    intro other
    rw [mem_rids, updated, List.mem_cons, mem_rids]
    by_cases same : other = rid
    · simp [same]
    · simp [same]

theorem Inserted.appended {curNo curNo' : Int} (formed : file.HeapFormed headerNo chain)
    (inserted : file.Inserted file' headerNo curNo curNo' chain chain' rec (.ok rid))
    (atEnd : (file.header headerNo).lastPage = curNo) :
    Appended file file' headerNo chain chain' [rec] := by
  obtain ⟨record, others, perm⟩ := inserted.tuples_cons formed
  refine ⟨?_, ?_, ?_⟩
  · have records : (file'.tuples chain').Perm (rec :: file.tuples chain) := by
      have moved := perm.filterMap file'.record
      rw [List.filterMap_cons_some record] at moved
      rw [← others]
      exact moved
    exact records.trans (List.perm_append_singleton _ _).symm
  · intro other bytes live
    rw [inserted.effect.2, Function.update_of_ne]
    · exact live
    · rintro rfl
      rw [inserted.effect.1] at live
      cases live
  · intro packed
    rw [atEnd] at packed
    obtain ⟨packed', listed⟩ := inserted.ordered atEnd packed
    rw [inserted.atEnd atEnd]
    refine ⟨packed', ?_⟩
    rw [tuples, listed, records_at_append, others]
    congr 1
    exact records_at_cons record

theorem HeapFormed.packed_of_empty (formed : file.HeapFormed headerNo chain)
    (empty : file.tuples chain = []) : file.Packed (file.header headerNo).lastPage := by
  have onChain := formed.last_mem
  have wf := (formed.pages _ onChain).1
  intro number bound
  exfalso
  -- the last slot of the page would be a record of the file
  have live := wf.last (by omega)
  rw [live_iff_contents onChain, ← mem_rids, tuples_nil_iff.mp empty] at live
  cases live

end LogicalFile

end PrimitiveDB

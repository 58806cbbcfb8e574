import PrimitiveDB.FeedingQueries
import PrimitiveDB.PredicateAgreement

/-!
# Queries into their own sources

Nothing keeps the result of a select or a join from being one of the relations that it
reads. The query then ends and adds what the relations gave at first if and only if none of its own
tuples ever comes to lie, and to match, in front of one of its scans.
-/

namespace PrimitiveDB

open World DbM ByteMemory ScanFilter

set_option autoImplicit false

section Ends

variable {Place Item : Type} {w : World} {pins : List Pin} {opens : List FilePtr}
  {result : FileName} {headerNo : Int} {loop : FeedingLoop (HeapState headerNo) Place Item}
  {state : HeapState headerNo} {place : Place} {output : Item → Record} {call : DbM Status}

/-- How a query ends: its loop has come to an end, or it does not come to an end after the items
that it had in front of it at first. -/
inductive QueryEnds (w : World) (pins : List Pin) (opens : List FilePtr) (result : FileName)
    (loop : FeedingLoop (HeapState headerNo) Place Item) (state : HeapState headerNo)
    (place : Place) (output : Item → Record) : Outcome Status → World → Prop
  | ended {w' : World} {items : List Item} {state' : HeapState headerNo} {out' : LogicalFile}
      (run : loop.Runs state place items state') (storage : w'.Storage pins opens)
      (logical : w'.logical = Function.update w.logical result (some out'))
      (stores : w'.Stores result out' state'.chain)
      (appended : state.file.Appended out' headerNo state.chain state'.chain (items.map output)) :
      QueryEnds w pins opens result loop state place output (.ok .OK) w'
  | crashed {w' : World} (more : ∀ items final, loop.Runs state place items final →
        items.length ≠ (loop.ahead state place).length) :
      QueryEnds w pins opens result loop state place output .crash w'

/-- The query succeeds and adds these records to the result, and does nothing else. -/
def AddsExactly (call : DbM Status) (w : World) (pins : List Pin) (opens : List FilePtr)
    (result : FileName) (state : HeapState headerNo) (records : List Record) : Prop :=
  ∃ w' out' outChain', call w = (.ok .OK, w') ∧ w'.Storage pins opens ∧
    w'.logical = Function.update w.logical result (some out') ∧ w'.Stores result out' outChain' ∧
    state.file.Appended out' headerNo state.chain outChain' records

theorem LogicalFile.Appended.length_unique {file file' : LogicalFile} {chain chain' : List Int}
    {records records' : List Record} (first : file.Appended file' headerNo chain chain' records)
    (second : file.Appended file' headerNo chain chain' records') :
    records.length = records'.length := by
  have same := (first.perm.symm.trans second.perm).length_eq
  rw [List.length_append, List.length_append] at same
  omega

theorem DbM.Ends.adds_exactly_iff
    (ends : Ends call w (QueryEnds w pins opens result loop state place output))
    (succeeds : (call w).2.bufFailed = false) :
    AddsExactly call w pins opens result state
        (((loop.ahead state place).map Prod.snd).map output) ↔ loop.Quiet state place := by
  have ended := ends.holds succeeds
  generalize outcome : (call w).1 = reached at ended
  generalize after : (call w).2 = w' at ended
  have run : call w = (reached, w') := Prod.ext outcome after
  constructor
  · rintro ⟨w'', out', outChain', run', _, changed, stores, appended⟩
    rw [run] at run'
    cases run'
    cases ended with
    | ended loopRun _ changed' stores' appended' =>
        -- what the world holds under the name of the result is one file
        have sameFile := Option.some.inj (stores.logical.symm.trans stores'.logical)
        subst sameFile
        have sameChain := stores.formed.unique stores'.formed
        subst sameChain
        have lengths := appended.length_unique appended'
        rw [List.length_map, List.length_map, List.length_map] at lengths
        exact loopRun.quiet lengths.symm
  · intro quiet
    obtain ⟨final, loopRun⟩ := quiet.runs
    cases ended with
    | ended loopRun' storage changed stores appended =>
        obtain ⟨rfl, rfl⟩ := loopRun'.unique loopRun
        exact ⟨_, _, _, run, storage, changed, stores, appended⟩
    | crashed more => exact absurd (List.length_map _) (more _ _ loopRun)

end Ends

def World.Stores.state {w : World} {fileName : FileName} {lf : LogicalFile} {chain : List Int}
    (stores : w.Stores fileName lf chain) : HeapState lf.firstPage :=
  ⟨lf, chain, stores.formed⟩

/-- What a query into `result` that scans `relation` reads. -/
def World.Stores.source {w : World} {relation : FileName} {lf : LogicalFile} {chain : List Int}
    (stores : w.Stores relation lf chain) (result : FileName) {headerNo : Int} : Source headerNo :=
  if relation = result then .result else .other stores.state

theorem World.Stores.source_held {w : World} {relation result : FileName} {lf : LogicalFile}
    {chain : List Int} (stores : w.Stores relation lf chain) {headerNo : Int} :
    (stores.source result : Source headerNo).Held w result relation := by
  unfold World.Stores.source
  split_ifs with same
  · subst same
    exact .result
  · exact .other stores.state same stores.logical rfl

theorem World.Stores.source_ahead {w : World} {relation result : FileName}
    {lf out : LogicalFile} {chain outChain : List Int} (stores : w.Stores relation lf chain)
    (target : w.Stores result out outChain) (filter : Option ScanFilter) :
    ((stores.source result).ahead target.state filter
        ((stores.source result).start target.state)).map Prod.snd =
      (lf.tuples chain).filter (matchRec filter) := by
  have everything : ∀ {headerNo : Int} (state : HeapState headerNo),
      (state.ahead filter state.start).map Prod.snd =
        (state.file.tuples state.chain).filter (matchRec filter) := by
    intro headerNo state
    rw [state.ahead_start, LogicalFile.found_records]
    rfl
  unfold World.Stores.source
  split_ifs with same
  · subst same
    obtain rfl := Option.some.inj (stores.logical.symm.trans target.logical)
    obtain rfl := stores.formed.unique target.formed
    exact everything target.state
  · exact everything stores.state

section Scans

variable {w : World} {pins : List Pin} {opens : List FilePtr} {relation innerRel result : FileName}
  {out : LogicalFile} {outChain : List Int} {source outer inner : Source out.firstPage}
  {attrs : List AttrDesc}

theorem World.Stores.grows {w₁ : World} {resultRel : InsertFileScan}
    (target : w.Stores result out outChain)
    (insertsAt : w₁.InsertsAt resultRel pins opens result out outChain)
    (atEnd : InsertFileScan.AtEnd resultRel out) (header : resultRel.headerPageNo = out.firstPage) :
    w₁.Grows resultRel pins opens result target.state out :=
  ⟨insertsAt, atEnd, header.symm, header, .refl target.formed⟩

theorem World.Feeds.delete_both {w₁ : World} {scan : HeapFileScan} {resultRel : InsertFileScan}
    {headerNo : Int} {source : Source headerNo} {state : HeapState headerNo}
    (feeds : w₁.Feeds scan resultRel pins opens relation result source state out)
    (owned : ∀ pin ∈ pins, pin.file ∈ opens) :
    ∃ w₂ w₃, scan.delete w₁ = (.ok (), w₂) ∧ resultRel.delete w₂ = (.ok (), w₃) ∧
      w₃.Storage pins opens ∧ w₃.logical = w₁.logical ∧ w₃.Stores result out state.chain := by
  obtain ⟨w₂, deleted, grows, logical₂, _⟩ := feeds.delete_scan owned
  obtain ⟨w₃, deleted', storage, logical₃, _⟩ := grows.insertsAt.delete owned
  refine ⟨w₂, w₃, deleted, deleted', storage, logical₃.trans logical₂, ?_, ?_⟩
  · rw [logical₃]
    exact grows.insertsAt.holding.logical
  · rw [grows.first.trans grows.header]
    exact grows.alike.formedLeft

theorem World.Storage.scan_select_ends (storage : w.Storage pins opens)
    (owned : ∀ pin ∈ pins, pin.file ∈ opens) (target : w.Stores result out outChain)
    (held : source.Held w result relation) (named : relation ≠ []) (resultNamed : result ≠ [])
    (mem : Uninit) (tmpRid : RID) {attr : AttrDesc} (first : attr.relName = relation)
    {attrDesc : Option AttrDesc} {op : Operator} {value : List Byte} {filter : Option ScanFilter}
    (selects : SelectFilter attrDesc op value filter)
    (wide : ∀ side, (∀ desc ∈ attr :: attrs, desc.Fits (side desc)) →
      1 ≤ (projected side (attr :: attrs)).length) :
    Ends (ScanSelect mem tmpRid result (attr :: attrs) attrDesc op value) w
      (QueryEnds w pins opens result (emitFeed (attr :: attrs) source filter fun rec _ => rec)
        target.state (source.start target.state) fun rec =>
          projected (fun _ => rec) (attr :: attrs)) := by
  subst first
  unfold ScanSelect withResult
  apply ends_bind_smooth
  · intro ends
    repeat' first
      | exact keeps_pure _ | exact keeps_crash | exact keeps_read _
      | exact InsertFileScan.delete_keeps _ | exact HeapFileScan.new_keeps _ _
      | exact HeapFileScan.delete_keeps _ | exact emit_loop_keeps _ _ _ _ _ _
      | apply keeps_bind | intro _ | split
  apply (storage.new_inserter target.logical target.formed resultNamed mem).mono
  rintro ends w₁ ⟨resultRel, rfl, insertsAt, atEnd, header, constructs⟩
  dsimp only
  rw [if_neg (not_not.mpr rfl)]
  apply ends_bind_smooth
  · intro ends
    repeat' first
      | exact keeps_pure _ | exact keeps_crash | exact keeps_read _
      | exact InsertFileScan.delete_keeps _
      | exact HeapFileScan.delete_keeps _ | exact emit_loop_keeps _ _ _ _ _ _
      | apply keeps_bind | intro _ | split
  apply ((target.grows insertsAt atEnd header).open_scan (held.same constructs.logical) named
    mem).mono
  rintro ends w₂ ⟨scan, rfl, opened, everything, logical₂, _⟩
  dsimp only
  rw [start_select_accepted selects]
  dsimp only
  rw [if_neg (not_not.mpr rfl)]
  obtain ⟨fuel, read, enough⟩ := (opened filter).search_fuel
  apply ends_bind_eq read
  apply ends_bind
  · intro ends
    repeat' first
      | exact keeps_pure _ | exact InsertFileScan.delete_keeps _
      | exact HeapFileScan.delete_keeps _
      | apply keeps_bind | intro _
  apply ((opened filter).emit_loop fuel tmpRid wide).mono
  intro outcome w₃ ended
  cases ended with
  | @ended _ _ recs state' out' run feeds₃ touches appended _ =>
      obtain ⟨w₄, w₅, deleted, deleted', storage₅, logical₅, stores⟩ := feeds₃.delete_both owned
      apply ends_bind_eq deleted
      apply ends_bind_eq deleted'
      apply ends_pure
      apply QueryEnds.ended (run.of_ahead_eq (everything filter).symm) storage₅ _ stores appended
      rw [logical₅, touches.logical, logical₂, constructs.logical]
  | crashed longer =>
      apply QueryEnds.crashed
      intro recs final run exactly
      have rounds := longer recs final (run.of_ahead_eq (everything filter))
      have room : (source.ahead target.state filter (source.start target.state)).length < fuel :=
        enough _ _
      change recs.length = (source.ahead target.state filter _).length at exactly
      omega

theorem World.Storage.join_scans_ends {lfInner : LogicalFile} {innerChain : List Int}
    (storage : w.Storage pins opens) (owned : ∀ pin ∈ pins, pin.file ∈ opens)
    (target : w.Stores result out outChain) (held : outer.Held w result relation)
    (heldInner : inner.Held w result innerRel) (stores : w.Stores innerRel lfInner innerChain)
    (named : relation ≠ []) (innerNamed : innerRel ≠ []) (resultNamed : result ≠ [])
    (mem : Uninit) (tmpRid : RID) {attr1 attr2 : AttrDesc} {type : Datatype} {op : Operator}
    (name1 : attr1.relName = relation) (name2 : attr2.relName = innerRel)
    (proper : attr2.Proper type)
    (wide : ∀ side, (∀ desc ∈ attrs, desc.Fits (side desc)) → 1 ≤ (projected side attrs).length) :
    Ends (joinScans mem tmpRid result attrs attr1 attr2 op) w
      (QueryEnds w pins opens result (joinFeed attrs outer inner
          (fun outerRec => some (joinFilter attr1 attr2 type op outerRec)) (joinSide attr1))
        target.state (outer.start target.state, none) fun pair =>
          projected (joinSide attr1 pair.1 pair.2) attrs) := by
  subst name1
  unfold joinScans withResult
  apply ends_bind_smooth
  · intro ends
    repeat' first
      | exact keeps_pure _ | exact keeps_crash | exact keeps_read _
      | exact InsertFileScan.delete_keeps _ | exact HeapFileScan.new_keeps _ _
      | exact HeapFileScan.delete_keeps _ | exact outer_loop_keeps _ _ _ _ _ _ _ _ _
      | apply keeps_bind | intro _ | split
  apply (storage.new_inserter target.logical target.formed resultNamed mem).mono
  rintro ends w₁ ⟨resultRel, rfl, insertsAt, atEnd, header, constructs⟩
  dsimp only
  rw [if_neg (not_not.mpr rfl)]
  apply ends_bind_smooth
  · intro ends
    repeat' first
      | exact keeps_pure _ | exact keeps_crash | exact keeps_read _
      | exact InsertFileScan.delete_keeps _ | exact HeapFileScan.delete_keeps _
      | exact outer_loop_keeps _ _ _ _ _ _ _ _ _
      | apply keeps_bind | intro _ | split
  apply ((target.grows insertsAt atEnd header).open_scan (held.same constructs.logical) named
    mem).mono
  rintro ends w₂ ⟨outerScan, rfl, opened, everything, logical₂, _⟩
  have logical : w₂.logical = w.logical := logical₂.trans constructs.logical
  have stores₂ : w₂.Stores innerRel lfInner innerChain := by
    refine ⟨?_, stores.formed⟩
    rw [logical]
    exact stores.logical
  have samePlace : (joinFeed attrs outer inner (fun outerRec =>
      some (joinFilter attr1 attr2 type op outerRec)) (joinSide attr1)).ahead target.state
        (outerScan.place, none) = (joinFeed attrs outer inner (fun outerRec =>
      some (joinFilter attr1 attr2 type op outerRec)) (joinSide attr1)).ahead target.state
        (outer.start target.state, none) := by
    change outerPairs _ _ _ _ _ = outerPairs _ _ _ _ _
    rw [outerPairs, outerPairs, everything none]
  dsimp only
  rw [start_all]
  dsimp only
  rw [if_neg (not_not.mpr rfl), name2]
  obtain ⟨fuel, read, enough⟩ := (opened none).join_fuel (heldInner.same logical) stores₂
  apply ends_bind_eq read
  apply ends_bind
  · intro ends
    repeat' first
      | exact keeps_pure _ | exact InsertFileScan.delete_keeps _
      | exact HeapFileScan.delete_keeps _
      | apply keeps_bind | intro _
  apply ((opened none).outer_loop fuel rfl owned (heldInner.same logical) innerNamed name2 proper
    wide mem tmpRid).mono
  intro outcome w₃ ended
  cases ended with
  | @ended _ _ _ pairs state' out' run feeds₃ logical₃ _ appended =>
      obtain ⟨w₄, w₅, deleted, deleted', storage₅, logical₅, stores₅⟩ := feeds₃.delete_both owned
      apply ends_bind_eq deleted
      apply ends_bind_eq deleted'
      apply ends_pure
      apply QueryEnds.ended (run.of_ahead_eq samePlace.symm) storage₅ _ stores₅ appended
      rw [logical₅, logical₃, logical]
  | crashed longer =>
      apply QueryEnds.crashed
      intro pairs final run exactly
      have rounds := longer pairs final (run.of_ahead_eq samePlace)
        (by rw [exactly, ← samePlace]; rfl)
      have room := enough outerScan.place
      rw [exactly, ← samePlace] at rounds
      exact absurd rounds (Nat.not_le.mpr room)

end Scans

/-- A select on a relation of the database, with what the catalog says of it. -/
structure SelectQuery (w : World) (catalog : List Record) where
  relation : FileName
  lf : LogicalFile
  chain : List Int
  source : Relation w catalog relation lf chain
  projNames : List AttrInfo
  descs : List AttrDesc
  attr : Option AttrInfo
  op : Operator
  value : List Byte
  filter : Option ScanFilter
  nonempty : projNames ≠ []
  own : ∀ info ∈ projNames, info.relName = relation
  resolves : AttrCatalog.Resolves catalog projNames descs
  decides : Decides catalog relation attr op value filter

/-- A join of two relations of the database, which may be the same. -/
structure JoinQuery (w : World) (catalog : List Record) where
  relation : FileName
  innerRel : FileName
  lf : LogicalFile
  lfInner : LogicalFile
  chain : List Int
  innerChain : List Int
  outer : Relation w catalog relation lf chain
  inner : Relation w catalog innerRel lfInner innerChain
  projNames : List AttrInfo
  descs : List AttrDesc
  attr1 : AttrInfo
  attr2 : AttrInfo
  desc1 : AttrDesc
  desc2 : AttrDesc
  type : Datatype
  op : Operator
  nonempty : projNames ≠ []
  own : ∀ info ∈ projNames, info.relName = relation ∨ info.relName = innerRel
  resolves : AttrCatalog.Resolves catalog projNames descs
  joined : JoinAttrs catalog relation innerRel attr1 attr2 desc1 desc2
  code : Datatype.ofCode desc2.attrType = some type

inductive IntoQuery (w : World) (catalog : List Record) where
  | select (query : SelectQuery w catalog)
  | join (query : JoinQuery w catalog)

def SelectQuery.feed {w : World} {catalog : List Record} (query : SelectQuery w catalog)
    (result : FileName) (headerNo : Int) : FeedingLoop (HeapState headerNo) RID Record :=
  emitFeed query.descs (query.source.toStores.source result) query.filter fun rec _ => rec

def JoinQuery.feed {w : World} {catalog : List Record} (query : JoinQuery w catalog)
    (result : FileName) (headerNo : Int) :
    FeedingLoop (HeapState headerNo) (RID × Option RID) (Record × Record) :=
  joinFeed query.descs (query.outer.toStores.source result) (query.inner.toStores.source result)
    (fun outerRec => some (joinFilter query.desc1 query.desc2 query.type query.op outerRec))
    (joinSide query.desc1)

namespace IntoQuery

variable {w : World} {catalog : List Record}

def run (mem : Uninit) (tmpRid : RID) (result : FileName) : IntoQuery w catalog → DbM Status
  | select query => QU_Select mem tmpRid result query.projNames query.attr query.op query.value
  | join query => QU_NL_Join mem tmpRid result query.projNames query.attr1 query.op query.attr2

def derived : IntoQuery w catalog → List Record
  | select query =>
      queryOutput query.descs (fun rec _ => rec) query.filter (query.lf.tuples query.chain)
  | join query => joinOutput query.descs query.desc1 query.desc2 query.type query.op
      (query.lf.tuples query.chain) (query.lfInner.tuples query.innerChain)

/-- Put behind the last page of the result in turn, no derived tuple comes to lie in front of a
scan that would return it. -/
def Quiet {result : FileName} {out : LogicalFile} {outChain : List Int}
    (target : w.Stores result out outChain) : IntoQuery w catalog → Prop
  | select query => (query.feed result out.firstPage).Quiet target.state
      ((query.source.toStores.source result).start target.state)
  | join query => (query.feed result out.firstPage).Quiet target.state
      ((query.outer.toStores.source result).start target.state, none)

end IntoQuery

section Queries

variable {w : World} {pins : List Pin} {opens : List FilePtr} {cat : LogicalFile}
  {catChain : List Int} {result : FileName} {out : LogicalFile} {outChain : List Int}

theorem projected_wide {attrs : List AttrDesc} (nonempty : attrs ≠ [])
    (positive : ∀ attr ∈ attrs, 1 ≤ attr.attrLen) (side : AttrDesc → Record)
    (fits : ∀ attr ∈ attrs, attr.Fits (side attr)) : 1 ≤ (projected side attrs).length := by
  rw [projected_length fits]
  cases attrs with
  | nil => exact absurd rfl nonempty
  | cons attr attrs =>
      have first := positive attr (by simp)
      simp only [List.map_cons, List.sum_cons]
      omega

theorem resolved_nonempty {tuples : List Record} {projNames : List AttrInfo}
    {descs : List AttrDesc} (resolves : AttrCatalog.Resolves tuples projNames descs)
    (nonempty : projNames ≠ []) : descs ≠ [] := by
  rintro rfl
  cases resolves
  exact nonempty rfl

theorem World.Storage.select_query_ends (storage : w.Storage pins opens)
    (owned : ∀ pin ∈ pins, pin.file ∈ opens) (catalog : w.Stores ATTRCATNAME cat catChain)
    (sized : ∀ rec ∈ cat.tuples catChain, rec.length = AttrDesc.size)
    (query : SelectQuery w (cat.tuples catChain)) (target : w.Stores result out outChain)
    (resultNamed : result ≠ []) (mem : Uninit) (tmpRid : RID) :
    Ends (QU_Select mem tmpRid result query.projNames query.attr query.op query.value) w
      (QueryEnds w pins opens result (query.feed result out.firstPage) target.state
        ((query.source.toStores.source result).start target.state)
        fun rec => projected (fun _ => rec) query.descs) := by
  obtain ⟨relation, lf, chain, source, projNames, descs, attr, op, value, filter, nonempty, own,
    resolves, decides⟩ := query
  dsimp only
  have described := resolved_described resolves own
  have some_ := resolved_nonempty resolves nonempty
  have wide := projected_wide some_ fun desc member => by
    obtain ⟨_, proper⟩ := source.schema desc (described desc member)
    exact proper.positive
  -- the selection proper, behind the catalog lookups
  have selection : ∀ {w₁ : World}, Undisturbed w w₁ pins opens →
      ∀ {attrDesc : Option AttrDesc}, SelectFilter attrDesc op value filter →
      Ends (ScanSelect mem tmpRid result descs attrDesc op value) w₁
        (QueryEnds w pins opens result
          (emitFeed descs (source.toStores.source result) filter fun rec _ => rec) target.state
          ((source.toStores.source result).start target.state)
          fun rec => projected (fun _ => rec) descs) := by
    intro w₁ undisturbed attrDesc selects
    cases descs with
    | nil => exact absurd rfl some_
    | cons desc descs =>
        have first := AttrCatalog.describe_rel_name (described desc (by simp))
        have held : (source.toStores.source result : Source out.firstPage).Held w₁ result
            relation := source.toStores.source_held.same undisturbed.logical
        apply (undisturbed.storage.scan_select_ends owned (undisturbed.stores target) held
          source.name.nonempty resultNamed mem tmpRid first selects wide).mono
        intro outcome w₂ ended
        cases ended with
        | ended run storage₂ logical stores appended =>
            rw [undisturbed.logical] at logical
            exact .ended run storage₂ logical stores appended
        | crashed more => exact .crashed more
  unfold QU_Select
  apply ends_bind_smooth
  · intro found
    repeat' first
      | exact keeps_pure _ | exact get_info_keeps _ _ _ _ | exact scan_select_keeps _ _ _ _ _ _ _
      | apply keeps_bind | intro _ | split
  apply (storage.look_up_attrs owned catalog sized resolves mem tmpRid).mono
  rintro found w₁ ⟨undisturbed, rfl⟩
  dsimp only
  cases attr with
  | none =>
      obtain rfl : filter = none := decides
      exact selection undisturbed (.all op value)
  | some info =>
      obtain ⟨rfl, named, desc, type, looked, code, rfl⟩ := decides
      obtain ⟨type', proper⟩ := source.schema desc (AttrCatalog.lookup_mem looked)
      obtain rfl : type' = type := Option.some.inj (proper.code.symm.trans code)
      dsimp only
      apply ends_bind_smooth
      · intro found
        repeat' first
          | exact keeps_pure _ | exact scan_select_keeps _ _ _ _ _ _ _ | split
      apply (undisturbed.storage.attr_found owned (undisturbed.stores catalog) sized source.name
        named looked mem tmpRid).mono
      rintro found w₂ ⟨undisturbed₂, rfl⟩
      exact selection (undisturbed.trans undisturbed₂) (.literal proper op value)

theorem World.Storage.join_query_ends (storage : w.Storage pins opens)
    (owned : ∀ pin ∈ pins, pin.file ∈ opens) (catalog : w.Stores ATTRCATNAME cat catChain)
    (sized : ∀ rec ∈ cat.tuples catChain, rec.length = AttrDesc.size)
    (query : JoinQuery w (cat.tuples catChain)) (target : w.Stores result out outChain)
    (resultNamed : result ≠ []) (mem : Uninit) (tmpRid : RID) :
    Ends (QU_NL_Join mem tmpRid result query.projNames query.attr1 query.op query.attr2) w
      (QueryEnds w pins opens result (query.feed result out.firstPage) target.state
        ((query.outer.toStores.source result).start target.state, none)
        fun pair => projected (joinSide query.desc1 pair.1 pair.2) query.descs) := by
  obtain ⟨relation, innerRel, lf, lfInner, chain, innerChain, outer, inner, projNames, descs,
    attr1, attr2, desc1, desc2, type, op, nonempty, own, resolves, joined, code⟩ := query
  dsimp only
  have described := resolved_described_either resolves own
  have name1 := AttrCatalog.describe_rel_name (AttrCatalog.lookup_mem joined.found1)
  have name2 := AttrCatalog.describe_rel_name (AttrCatalog.lookup_mem joined.found2)
  have proper : desc2.Proper type := by
    obtain ⟨type', proper⟩ := inner.schema desc2 (AttrCatalog.lookup_mem joined.found2)
    have same : type' = type := Option.some.inj (proper.code.symm.trans code)
    exact same ▸ proper
  have wide := projected_wide (resolved_nonempty resolves nonempty) fun desc member => by
    rcases described desc member with mine | mine
    · obtain ⟨_, proper⟩ := outer.schema desc mine
      exact proper.positive
    · obtain ⟨_, proper⟩ := inner.schema desc mine
      exact proper.positive
  unfold QU_NL_Join
  rw [if_neg]
  · apply ends_bind_smooth
    · intro found
      repeat' first
        | exact keeps_pure _ | exact get_info_keeps _ _ _ _ | exact join_scans_keeps _ _ _ _ _ _ _
        | apply keeps_bind | intro _ | split
    apply (storage.look_up_attrs owned catalog sized resolves mem tmpRid).mono
    rintro found w₁ ⟨undisturbed₁, rfl⟩
    have catalog₁ := undisturbed₁.stores catalog
    apply ends_bind_smooth
    · intro found
      repeat' first
        | exact keeps_pure _ | exact get_info_keeps _ _ _ _ | exact join_scans_keeps _ _ _ _ _ _ _
        | apply keeps_bind | intro _ | split
    rw [joined.relName1]
    apply (undisturbed₁.storage.attr_found owned catalog₁ sized outer.name joined.attrName1
      joined.found1 mem tmpRid).mono
    rintro found w₂ ⟨undisturbed₂, rfl⟩
    apply ends_bind_smooth
    · intro found
      repeat' first
        | exact keeps_pure _ | exact join_scans_keeps _ _ _ _ _ _ _ | split
    rw [joined.relName2]
    apply (undisturbed₂.storage.attr_found owned (undisturbed₂.stores catalog₁) sized inner.name
      joined.attrName2 joined.found2 mem tmpRid).mono
    rintro found w₃ ⟨undisturbed₃, rfl⟩
    have undisturbed := (undisturbed₁.trans undisturbed₂).trans undisturbed₃
    apply (undisturbed.storage.join_scans_ends owned (undisturbed.stores target)
      (outer.toStores.source_held.same undisturbed.logical)
      (inner.toStores.source_held.same undisturbed.logical) (undisturbed.stores inner.toStores)
      outer.name.nonempty inner.name.nonempty resultNamed mem tmpRid name1 name2 proper wide).mono
    intro outcome w₄ ended
    cases ended with
    | ended run storage₄ logical stores appended =>
        rw [undisturbed.logical] at logical
        exact .ended run storage₄ logical stores appended
    | crashed more => exact .crashed more
  · rintro (wrong | wrong)
    · exact wrong joined.attrType
    · exact wrong joined.attrLen

/-- What the loop of a select has in front of it gives the derived tuples. -/
theorem SelectQuery.derived_ahead {tuples : List Record} (query : SelectQuery w tuples)
    (target : w.Stores result out outChain) :
    (((query.feed result out.firstPage).ahead target.state
        ((query.source.toStores.source result).start target.state)).map Prod.snd).map
          (fun rec => projected (fun _ => rec) query.descs) =
      (IntoQuery.select query).derived := by
  change ((Source.ahead _ _ _ _).map Prod.snd).map _ = _
  rw [query.source.toStores.source_ahead target]
  rfl

theorem JoinQuery.derived_ahead {tuples : List Record} (query : JoinQuery w tuples)
    (target : w.Stores result out outChain) :
    (((query.feed result out.firstPage).ahead target.state
        ((query.outer.toStores.source result).start target.state, none)).map Prod.snd).map
          (fun pair => projected (joinSide query.desc1 pair.1 pair.2) query.descs) =
      (IntoQuery.join query).derived := by
  have everything := query.outer.toStores.source_ahead target none
  have all : (query.lf.tuples query.chain).filter (matchRec none) = query.lf.tuples query.chain :=
    List.filter_true _
  rw [all] at everything
  change ((outerPairs _ _ _ _ _).map Prod.snd).map _ = joinOutput _ _ _ _ _ _ _
  rw [joinOutput, ← everything, outerPairs, List.flatMap_map, List.map_flatMap, List.map_flatMap]
  apply List.flatMap_congr
  intro found _
  rw [innerPairs, List.map_map, List.map_map, queryOutput,
    ← query.inner.toStores.source_ahead target, List.map_map]
  rfl

/-- Whatever its result is, a select or a join succeeds and adds exactly the tuples that its
relations gave at first if and only if no tuple of its own comes to lie in front of its scans. -/
theorem query_adds_derived_iff_quiet (storage : w.Storage pins opens)
    (owned : ∀ pin ∈ pins, pin.file ∈ opens) (catalog : w.Stores ATTRCATNAME cat catChain)
    (sized : ∀ rec ∈ cat.tuples catChain, rec.length = AttrDesc.size)
    (query : IntoQuery w (cat.tuples catChain)) (target : w.Stores result out outChain)
    (resultNamed : result ≠ []) (mem : Uninit) (tmpRid : RID)
    (succeeds : (query.run mem tmpRid result w).2.bufFailed = false) :
    AddsExactly (query.run mem tmpRid result) w pins opens result target.state query.derived ↔
      query.Quiet target := by
  cases query with
  | select query =>
      rw [← query.derived_ahead target]
      exact (storage.select_query_ends owned catalog sized query target resultNamed mem
        tmpRid).adds_exactly_iff succeeds
  | join query =>
      rw [← query.derived_ahead target]
      exact (storage.join_query_ends owned catalog sized query target resultNamed mem
        tmpRid).adds_exactly_iff succeeds

end Queries

open HeapSession (zeroMemory)

def turnAttr (name : Byte) (offset : Int) : AttrDesc :=
  { relName := [116], attrName := [name], attrOffset := offset
    attrType := Datatype.INTEGER.code, attrLen := 4 }

def turnAttrs : List AttrDesc := [turnAttr 97 0, turnAttr 98 4, turnAttr 99 8]

def turnCatalog : List Record := turnAttrs.map AttrDesc.toRecord

def turnDescs : List Record := (tableFile ATTRCATNAME turnCatalog).tuples [2]

def turnDatabase (tuples : List Record) : World :=
  databaseOf 8 [(ATTRCATNAME, turnCatalog), ([116], tuples)]

theorem turn_catalog_stored (tuples : List Record) :
    (turnDatabase tuples).Stores ATTRCATNAME (tableFile ATTRCATNAME turnCatalog) [2] :=
  database_stores 8 rfl (by decide +kernel)

theorem turn_catalog_described : AttrCatalog.describe turnDescs [116] = turnAttrs := by
  decide +kernel

theorem turn_stored {tuples : List Record} (nonempty : ∀ rec ∈ tuples, 1 ≤ rec.length) :
    (turnDatabase tuples).Stores [116] (tableFile [116] tuples) [2] :=
  database_stores 8 rfl nonempty

theorem turn_relation {tuples : List Record} (nonempty : ∀ rec ∈ tuples, 1 ≤ rec.length)
    (conforms : ∀ rec ∈ (tableFile [116] tuples).tuples [2], ∀ desc ∈ turnAttrs, desc.Fits rec) :
    Relation (turnDatabase tuples) turnDescs [116] (tableFile [116] tuples) [2] where
  toStores := turn_stored nonempty
  name := ⟨by decide, by decide, by decide⟩
  schema := by
    rw [turn_catalog_described]
    intro desc member
    refine ⟨.INTEGER, ?_⟩
    simp only [turnAttrs, List.mem_cons, List.not_mem_nil, or_false] at member
    rcases member with rfl | rfl | rfl <;> exact ⟨rfl, by decide, by decide, fun _ => rfl⟩
  conforms := by
    rw [turn_catalog_described]
    exact conforms

/-- `select t.b, t.c, t.a into t from t where t.a = 1`. -/
def turnQuery {tuples : List Record} (nonempty : ∀ rec ∈ tuples, 1 ≤ rec.length)
    (conforms : ∀ rec ∈ (tableFile [116] tuples).tuples [2], ∀ desc ∈ turnAttrs, desc.Fits rec) :
    SelectQuery (turnDatabase tuples) turnDescs where
  relation := [116]
  lf := tableFile [116] tuples
  chain := [2]
  source := turn_relation nonempty conforms
  projNames := [.named [116] [98], .named [116] [99], .named [116] [97]]
  descs := [turnAttr 98 4, turnAttr 99 8, turnAttr 97 0]
  attr := some (.named [116] [97])
  op := .EQ
  value := [49]
  filter := some ((turnAttr 97 0).predicate .INTEGER .EQ [49])
  nonempty := by decide
  own := by decide
  resolves := by
    have proper : ProperName [116] := ⟨by decide, by decide, by decide⟩
    refine .cons ⟨proper, by decide, ?_⟩ (.cons ⟨proper, by decide, ?_⟩
      (.cons ⟨proper, by decide, ?_⟩ .nil))
    · decide +kernel
    · decide +kernel
    · decide +kernel
  decides := ⟨rfl, by decide, turnAttr 97 0, .INTEGER, by decide +kernel, rfl, rfl⟩

def turnTwice : Record := [1, 0, 0, 0, 1, 0, 0, 0, 2, 0, 0, 0]

def turnOnce : Record := [1, 0, 0, 0, 2, 0, 0, 0, 2, 0, 0, 0]

def turnTwiceQuery : SelectQuery (turnDatabase [turnTwice]) turnDescs :=
  turnQuery (by decide) (by decide +kernel)

theorem turn_twice_stored : (turnDatabase [turnTwice]).Stores [116] (tableFile [116] [turnTwice])
    [2] := turn_stored (by decide)

def turnOnceQuery : SelectQuery (turnDatabase [turnOnce]) turnDescs :=
  turnQuery (by decide) (by decide +kernel)

theorem turn_once_stored : (turnDatabase [turnOnce]).Stores [116] (tableFile [116] [turnOnce])
    [2] := turn_stored (by decide)

theorem turn_storage (tuples : List Record) : (turnDatabase tuples).Storage [] [] :=
  (database_just_started (by decide) _).storage

/-- The tuple `(1, 1, 2)` gives `(1, 2, 1)`. That one lies in front of the scan and matches, so
`(2, 1, 1)` is inserted as well. The types and lengths of the attributes are those of `t`. -/
theorem select_into_source_adds_more :
    turnTwiceQuery.descs.map (fun desc => (desc.attrType, desc.attrLen)) =
      (AttrCatalog.describe turnDescs [116]).map (fun desc => (desc.attrType, desc.attrLen)) ∧
    (IntoQuery.select turnTwiceQuery).derived = [[1, 0, 0, 0, 2, 0, 0, 0, 1, 0, 0, 0]] ∧
    ((QU_Select zeroMemory NULLRID [116]
        [.named [116] [98], .named [116] [99], .named [116] [97]] (some (.named [116] [97])) .EQ [49]
        (turnDatabase [turnTwice])).2.logical [116]).map (·.tuples [2]) =
      some [turnTwice, [1, 0, 0, 0, 2, 0, 0, 0, 1, 0, 0, 0], [2, 0, 0, 0, 1, 0, 0, 0, 1, 0, 0, 0]] ∧
    ¬AddsExactly ((IntoQuery.select turnTwiceQuery).run zeroMemory NULLRID [116])
      (turnDatabase [turnTwice]) [] [] [116] turn_twice_stored.state
      (IntoQuery.select turnTwiceQuery).derived := by
  refine ⟨by decide +kernel, by decide +kernel, by decide +kernel, ?_⟩
  rw [← turnTwiceQuery.derived_ahead turn_twice_stored]
  intro added
  have quiet := ((turn_storage _).select_query_ends (by simp) (turn_catalog_stored _)
    (by decide +kernel) turnTwiceQuery turn_twice_stored (by decide) zeroMemory
    NULLRID).adds_exactly_iff (by decide +kernel) |>.mp added
  have next : (turnTwiceQuery.feed [116] 1).ahead turn_twice_stored.state
      ((turnTwiceQuery.source.toStores.source [116]).start turn_twice_stored.state) =
        [({ pageNo := 2, slotNo := 0 }, turnTwice)] := by
    decide +kernel
  obtain ⟨state', absorbed, ahead⟩ := quiet [({ pageNo := 2, slotNo := 0 }, turnTwice)] [] next
  have again : ((turnTwiceQuery.feed [116] (tableFile [116] [turnTwice]).firstPage).absorbAll
      turn_twice_stored.state [turnTwice]).map
        (fun state => ((turnTwiceQuery.feed [116] (tableFile [116] [turnTwice]).firstPage).ahead
          state { pageNo := 2, slotNo := 0 }).length) = some 1 := by
    decide +kernel
  have empty : (turnTwiceQuery.feed [116] (tableFile [116] [turnTwice]).firstPage).ahead state'
      { pageNo := 2, slotNo := 0 } = [] := ahead
  have taken : (turnTwiceQuery.feed [116] (tableFile [116] [turnTwice]).firstPage).absorbAll
      turn_twice_stored.state [turnTwice] = some state' := absorbed
  rw [taken, Option.map_some, empty] at again
  cases again

/-- The tuple `(1, 2, 2)` gives `(2, 2, 1)`, which does not match. -/
theorem turn_once_quiet : (IntoQuery.select turnOnceQuery).Quiet turn_once_stored := by
  obtain ⟨state', absorbed⟩ : ∃ state', (turnOnceQuery.feed [116] 1).absorb turn_once_stored.state
      turnOnce = some state' := Option.isSome_iff_exists.mp (by decide +kernel)
  have nothing : ((turnOnceQuery.feed [116] 1).absorb turn_once_stored.state turnOnce).map
      (fun state => (turnOnceQuery.feed [116] 1).ahead state { pageNo := 2, slotNo := 0 }) =
        some [] := by
    decide +kernel
  rw [absorbed, Option.map_some] at nothing
  have next : (turnOnceQuery.feed [116] 1).ahead turn_once_stored.state
      ((turnOnceQuery.source.toStores.source [116]).start turn_once_stored.state) =
        [({ pageNo := 2, slotNo := 0 }, turnOnce)] := by
    decide +kernel
  apply FeedingLoop.Runs.quiet (.step next absorbed (.stop (Option.some.inj nothing)))
  rw [next]
  rfl

/-- `select t.b, t.c, t.a into t from t where t.a = 1` on `(1, 2, 2)`. -/
theorem query_adds_derived_iff_quiet_turned :
    AddsExactly (QU_Select zeroMemory NULLRID [116]
        [.named [116] [98], .named [116] [99], .named [116] [97]] (some (.named [116] [97])) .EQ [49])
      (turnDatabase [turnOnce]) [] [] [116] turn_once_stored.state
      [[2, 0, 0, 0, 2, 0, 0, 0, 1, 0, 0, 0]] := by
  have derived : (IntoQuery.select turnOnceQuery).derived =
      [[2, 0, 0, 0, 2, 0, 0, 0, 1, 0, 0, 0]] := by
    decide +kernel
  rw [← derived]
  exact (query_adds_derived_iff_quiet (turn_storage _) (by simp) (turn_catalog_stored _)
    (by decide +kernel) (.select turnOnceQuery) turn_once_stored (by decide) zeroMemory NULLRID
    (by decide +kernel)).mpr turn_once_quiet

end PrimitiveDB

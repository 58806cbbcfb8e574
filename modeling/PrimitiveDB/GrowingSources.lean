import PrimitiveDB.HeapPlaces
import PrimitiveDB.JoinQueries
import PrimitiveDB.TupleWidths

/-!
# Queries whose result is a source

The `into` relation of a query may be one of the relations that the query scans. The scan
then has the tuples in front of it that the query itself inserts. Both scan-and-insert loops
are loops that read what they write: the state is the result relation, the places are those of
the scans, and an item is worked off by inserting its projection.
-/

namespace PrimitiveDB

open World DbM ByteMemory

set_option autoImplicit false

structure HeapState (headerNo : Int) where
  file : LogicalFile
  chain : List Int
  formed : file.HeapFormed headerNo chain

namespace HeapState

variable {headerNo : Int}

def insert (state : HeapState headerNo) (rec : Record) (nonempty : 1 ≤ rec.length) :
    HeapState headerNo where
  file := (state.file.insertLast headerNo rec).2.1
  chain := state.file.grownChain headerNo state.chain (state.file.insertLast headerNo rec).2.2
  formed := state.formed.insert_last nonempty

def start (state : HeapState headerNo) : RID :=
  { pageNo := (state.file.header headerNo).firstPage, slotNo := -1 }

def ahead (state : HeapState headerNo) (filter : Option ScanFilter) (place : RID) :
    List (RID × Record) :=
  state.file.found filter (state.file.front state.chain place)

theorem insert_extends (state : HeapState headerNo) {rec : Record} (nonempty : 1 ≤ rec.length)
    (fits : rec.length + SLOTSIZE ≤ DATASIZE) :
    state.file.Extends (state.insert rec nonempty).file state.chain
      (state.insert rec nonempty).chain :=
  state.formed.insert_last_extends nonempty fits

theorem ahead_resumes (state : HeapState headerNo) {filter : Option ScanFilter} {place rid : RID}
    {rec : Record} {before rest : List (RID × Record)}
    (split : state.ahead filter place = before ++ (rid, rec) :: rest) :
    state.file.contents state.chain rid = some rec ∧ state.ahead filter rid = rest :=
  LogicalFile.found_resumes state.formed.nodup split

theorem ahead_start (state : HeapState headerNo) (filter : Option ScanFilter) :
    state.ahead filter state.start = state.file.found filter (state.file.rids state.chain) := by
  rw [ahead, start, state.formed.front_first]

/-- The bound of the model on the rounds of a scan leaves room for all that a scan finds. -/
theorem ahead_lt (state : HeapState headerNo) (filter : Option ScanFilter) (place : RID) :
    (state.ahead filter place).length < state.file.size * 40000 := by
  have found : (state.ahead filter place).length ≤ (state.file.front state.chain place).length :=
    LogicalFile.found_length_le filter _
  have front : (state.file.front state.chain place).length ≤
      (state.file.rids state.chain).length := List.length_filter_le _ _
  exact Nat.lt_of_le_of_lt (found.trans front) state.formed.rids_lt

end HeapState

/-- A relation that a query scans: the result itself, or a file that the query leaves alone. -/
inductive Source (headerNo : Int) where
  | result
  | other {otherNo : Int} (state : HeapState otherNo)

namespace Source

variable {headerNo : Int}

def ahead (source : Source headerNo) (state : HeapState headerNo) (filter : Option ScanFilter)
    (place : RID) : List (RID × Record) :=
  match source with
  | result => state.ahead filter place
  | other unchanged => unchanged.ahead filter place

def record (source : Source headerNo) (state : HeapState headerNo) (rid : RID) : Option Record :=
  match source with
  | result => state.file.contents state.chain rid
  | other unchanged => unchanged.file.contents unchanged.chain rid

def start (source : Source headerNo) (state : HeapState headerNo) : RID :=
  match source with
  | result => state.start
  | other unchanged => unchanged.start

theorem ahead_resumes (source : Source headerNo) {state : HeapState headerNo}
    {filter : Option ScanFilter} {place rid : RID} {rec : Record}
    {before rest : List (RID × Record)}
    (split : source.ahead state filter place = before ++ (rid, rec) :: rest) :
    source.record state rid = some rec ∧ source.ahead state filter rid = rest := by
  cases source with
  | result => exact state.ahead_resumes split
  | other unchanged => exact unchanged.ahead_resumes split

theorem ahead_grows (source : Source headerNo) {state state' : HeapState headerNo}
    (extends_ : state.file.Extends state'.file state.chain state'.chain)
    (filter : Option ScanFilter) (place : RID) :
    (source.ahead state filter place).Sublist (source.ahead state' filter place) := by
  cases source with
  | result => exact extends_.found_sublist state.formed.nodup state'.formed.nodup filter place
  | other unchanged => exact List.Sublist.refl _

theorem start_grows (source : Source headerNo) {state state' : HeapState headerNo}
    (extends_ : state.file.Extends state'.file state.chain state'.chain) :
    source.start state' = source.start state := by
  cases source with
  | result =>
      obtain ⟨more, pages⟩ := extends_.pages
      have first := state'.formed.first
      rw [← pages, List.head?_append, state.formed.first, Option.some_or] at first
      unfold start HeapState.start
      rw [Option.some.inj first]
  | other unchanged => rfl

theorem record_grows (source : Source headerNo) {state state' : HeapState headerNo}
    (extends_ : state.file.Extends state'.file state.chain state'.chain) {rid : RID} {rec : Record}
    (held : source.record state rid = some rec) : source.record state' rid = some rec := by
  cases source with
  | result => exact extends_.kept rid rec held
  | other unchanged => exact held

end Source

instance (attrs : List AttrDesc) (side : AttrDesc → Record) : Decidable (Projects attrs side) :=
  decidable_of_iff ((∀ attr ∈ attrs, attr.Fits (side attr)) ∧ 1 ≤ (projected side attrs).length ∧
      (projected side attrs).length + SLOTSIZE ≤ DATASIZE)
    ⟨fun parts => ⟨parts.1, parts.2.1, parts.2.2⟩,
      fun projects => ⟨projects.fits, projects.positive, projects.room⟩⟩

section Loops

variable {headerNo : Int} (attrs : List AttrDesc)

/-- The projection of a tuple is inserted, if there is one and a page can hold it. -/
def HeapState.emit (state : HeapState headerNo) (side : AttrDesc → Record) :
    Option (HeapState headerNo) :=
  if projects : Projects attrs side then some (state.insert (projected side attrs) projects.positive)
  else none

variable {attrs}

theorem HeapState.emit_extends {state state' : HeapState headerNo} {side : AttrDesc → Record}
    (emitted : state.emit attrs side = some state') :
    state.file.Extends state'.file state.chain state'.chain := by
  unfold HeapState.emit at emitted
  split_ifs at emitted with projects
  cases emitted
  exact state.insert_extends projects.positive projects.room

variable (attrs)

def emitFeed (source : Source headerNo) (filter : Option ScanFilter)
    (side : Record → AttrDesc → Record) : FeedingLoop (HeapState headerNo) RID Record where
  ahead state place := source.ahead state filter place
  absorb state rec := state.emit attrs (side rec)
  resumes := fun {_ _ _ _ rest} next => (source.ahead_resumes (show _ = [] ++ _ :: rest from next)).2
  grows := fun emitted place => source.ahead_grows (HeapState.emit_extends emitted) filter place

variable (outer inner : Source headerNo) (filterOf : Record → Option ScanFilter)

def innerPairs (state : HeapState headerNo) (outerRid : RID) (outerRec : Record) (place : RID) :
    List ((RID × Option RID) × Record × Record) :=
  (inner.ahead state (filterOf outerRec) place).map fun found =>
    ((outerRid, some found.1), outerRec, found.2)

def outerPairs (state : HeapState headerNo) (place : RID) :
    List ((RID × Option RID) × Record × Record) :=
  (outer.ahead state none place).flatMap fun found =>
    innerPairs inner filterOf state found.1 found.2 (inner.start state)

def pairsAhead (state : HeapState headerNo) :
    RID × Option RID → List ((RID × Option RID) × Record × Record)
  | (outerPlace, none) => outerPairs outer inner filterOf state outerPlace
  | (outerPlace, some innerPlace) =>
      (match outer.record state outerPlace with
        | some outerRec => innerPairs inner filterOf state outerPlace outerRec innerPlace
        | none => []) ++ outerPairs outer inner filterOf state outerPlace

variable {outer inner filterOf}

theorem pairs_ahead_inner {state : HeapState headerNo} {outerPlace innerPlace : RID}
    {outerRec : Record} (held : outer.record state outerPlace = some outerRec) :
    pairsAhead outer inner filterOf state (outerPlace, some innerPlace) =
      innerPairs inner filterOf state outerPlace outerRec innerPlace ++
        outerPairs outer inner filterOf state outerPlace := by
  rw [pairsAhead, held]

theorem inner_pairs_resumes {state : HeapState headerNo} {outerPlace place : RID}
    {outerRec : Record} {next : RID × Option RID} {pair : Record × Record}
    {rest : List ((RID × Option RID) × Record × Record)}
    (split : innerPairs inner filterOf state outerPlace outerRec place = (next, pair) :: rest) :
    ∃ innerRid innerRec, next = (outerPlace, some innerRid) ∧ pair = (outerRec, innerRec) ∧
      innerPairs inner filterOf state outerPlace outerRec innerRid = rest := by
  obtain ⟨⟨innerRid, innerRec⟩, later, found, here, more⟩ := List.map_eq_cons_iff.mp split
  cases here
  refine ⟨innerRid, innerRec, rfl, rfl, ?_⟩
  rw [innerPairs, (inner.ahead_resumes (show _ = [] ++ _ from found)).2, more]

theorem pairs_ahead_resumes {state : HeapState headerNo} {place next : RID × Option RID}
    {pair : Record × Record} {rest : List ((RID × Option RID) × Record × Record)}
    (split : pairsAhead outer inner filterOf state place = (next, pair) :: rest) :
    pairsAhead outer inner filterOf state next = rest := by
  -- the pairs behind an outer place: skip the outer tuples without partner
  have behind : ∀ {outerPlace : RID}
      {rest : List ((RID × Option RID) × Record × Record)},
      outerPairs outer inner filterOf state outerPlace = (next, pair) :: rest →
      pairsAhead outer inner filterOf state next = rest := by
    intro outerPlace rest split
    obtain ⟨before, ⟨outerRid, outerRec⟩, after, more, listed, pairs, rfl⟩ :=
      flat_map_eq_cons split
    obtain ⟨held, later⟩ := outer.ahead_resumes listed
    obtain ⟨innerRid, innerRec, rfl, rfl, behind⟩ := inner_pairs_resumes pairs
    rw [pairs_ahead_inner held, behind, outerPairs, later]
  obtain ⟨outerPlace, innerPlace⟩ := place
  cases innerPlace with
  | none => exact behind split
  | some innerPlace =>
      rw [pairsAhead] at split
      split at split
      · rename_i outerRec held
        rcases pairs : innerPairs inner filterOf state outerPlace outerRec innerPlace with
          _ | ⟨first, later⟩
        · rw [pairs] at split
          exact behind split
        · rw [pairs, List.cons_append, List.cons.injEq] at split
          obtain ⟨rfl, rfl⟩ := split
          obtain ⟨innerRid, innerRec, rfl, rfl, more⟩ := inner_pairs_resumes pairs
          rw [pairs_ahead_inner held, more]
      · exact behind split

section Growing

variable {state state' : HeapState headerNo}
  (extends_ : state.file.Extends state'.file state.chain state'.chain)

include extends_

theorem inner_pairs_grows (outerRid : RID) (outerRec : Record) (place : RID) :
    (innerPairs inner filterOf state outerRid outerRec place).Sublist
      (innerPairs inner filterOf state' outerRid outerRec place) :=
  (inner.ahead_grows extends_ (filterOf outerRec) place).map _

theorem outer_pairs_grows (place : RID) :
    (outerPairs outer inner filterOf state place).Sublist
      (outerPairs outer inner filterOf state' place) := by
  unfold outerPairs
  rw [inner.start_grows extends_]
  apply ((outer.ahead_grows extends_ none place).flatMap _).trans
  apply List.Sublist.flatMap_right
  intro found _
  exact inner_pairs_grows extends_ found.1 found.2 _

theorem pairs_ahead_grows (place : RID × Option RID) :
    (pairsAhead outer inner filterOf state place).Sublist
      (pairsAhead outer inner filterOf state' place) := by
  obtain ⟨outerPlace, innerPlace⟩ := place
  cases innerPlace with
  | none => exact outer_pairs_grows extends_ outerPlace
  | some innerPlace =>
      rw [pairsAhead, pairsAhead]
      apply List.Sublist.append
      · split
        · rename_i outerRec held
          rw [outer.record_grows extends_ held]
          exact inner_pairs_grows extends_ outerPlace outerRec innerPlace
        · exact List.nil_sublist _
      · exact outer_pairs_grows extends_ outerPlace

end Growing

variable (outer inner filterOf)

/-- `outerLoop`: a scan of the inner relation for every tuple of the outer one. -/
def joinFeed (side : Record → Record → AttrDesc → Record) :
    FeedingLoop (HeapState headerNo) (RID × Option RID) (Record × Record) where
  ahead := pairsAhead outer inner filterOf
  absorb state pair := state.emit attrs (side pair.1 pair.2)
  resumes := pairs_ahead_resumes
  grows := fun emitted place => pairs_ahead_grows (HeapState.emit_extends emitted) place

variable {attrs outer inner filterOf} {side : Record → Record → AttrDesc → Record}
  {state state' final : HeapState headerNo} {outerPlace innerPlace : RID} {outerRec : Record}

theorem join_ahead_done (held : outer.record state outerPlace = some outerRec)
    (done : inner.ahead state (filterOf outerRec) innerPlace = []) :
    pairsAhead outer inner filterOf state (outerPlace, some innerPlace) =
      pairsAhead outer inner filterOf state (outerPlace, none) := by
  rw [pairs_ahead_inner held, innerPairs, done]
  rfl

theorem join_ahead_next (held : outer.record state outerPlace = some outerRec) {rid : RID}
    {rec : Record} {rest : List (RID × Record)}
    (next : inner.ahead state (filterOf outerRec) innerPlace = (rid, rec) :: rest) :
    ∃ more, pairsAhead outer inner filterOf state (outerPlace, some innerPlace) =
      ((outerPlace, some rid), outerRec, rec) :: more := by
  rw [pairs_ahead_inner held, innerPairs, next]
  exact ⟨_, rfl⟩

/-- The outer scan has moved to its next tuple, and the inner one is at its first place. -/
theorem join_ahead_outer {place : RID} {rest : List (RID × Record)}
    (next : outer.ahead state none place = (outerPlace, outerRec) :: rest) :
    pairsAhead outer inner filterOf state (place, none) =
      pairsAhead outer inner filterOf state (outerPlace, some (inner.start state)) := by
  obtain ⟨held, later⟩ := outer.ahead_resumes (show _ = [] ++ _ from next)
  rw [pairs_ahead_inner held, pairsAhead, outerPairs, next, List.flatMap_cons, outerPairs, later]

/-- A run of the inner loop, and a run of the outer loop behind it. -/
theorem join_runs_of_inner {recs : List Record} {pairs : List (Record × Record)}
    (held : outer.record state outerPlace = some outerRec)
    (run : (emitFeed attrs inner (filterOf outerRec) (side outerRec)).Runs state innerPlace recs
      state')
    (later : (joinFeed attrs outer inner filterOf side).Runs state' (outerPlace, none) pairs
      final) :
    (joinFeed attrs outer inner filterOf side).Runs state (outerPlace, some innerPlace)
      (recs.map (outerRec, ·) ++ pairs) final := by
  induction run with
  | stop done => exact later.of_ahead_eq (join_ahead_done held done)
  | step next absorbed _ ih =>
      obtain ⟨more, ahead⟩ := join_ahead_next held next
      exact .step ahead absorbed
        (ih (outer.record_grows (HeapState.emit_extends absorbed) held) later)

theorem inner_runs_of_join {place : RID × Option RID} {pairs : List (Record × Record)}
    (held : outer.record state outerPlace = some outerRec)
    (run : (joinFeed attrs outer inner filterOf side).Runs state place pairs final)
    (within : place = (outerPlace, some innerPlace)) :
    ∃ recs state' later,
      (emitFeed attrs inner (filterOf outerRec) (side outerRec)).Runs state innerPlace recs
        state' ∧ pairs = recs.map (outerRec, ·) ++ later ∧
      state.file.Extends state'.file state.chain state'.chain ∧
      (joinFeed attrs outer inner filterOf side).Runs state' (outerPlace, none) later final := by
  induction run generalizing innerPlace with
  | @stop state place done =>
      subst within
      cases ahead : inner.ahead state (filterOf outerRec) innerPlace with
      | nil =>
          refine ⟨[], state, [], .stop ahead, rfl, .refl _ _, .stop ?_⟩
          exact (join_ahead_done held ahead).symm.trans done
      | cons first rest =>
          obtain ⟨more, wrong⟩ := join_ahead_next held ahead
          cases done.symm.trans wrong
  | @step state state₁ final place place' pair rest pairs next absorbed later ih =>
      subst within
      cases ahead : inner.ahead state (filterOf outerRec) innerPlace with
      | nil =>
          have whole : (joinFeed attrs outer inner filterOf side).ahead state (outerPlace, none) =
              (place', pair) :: rest := (join_ahead_done held ahead).symm.trans next
          exact ⟨[], state, pair :: pairs, .stop ahead, rfl, .refl _ _,
            .step whole absorbed later⟩
      | cons first restInner =>
          obtain ⟨more, here⟩ := join_ahead_next held ahead
          cases next.symm.trans here
          have extends_ := HeapState.emit_extends absorbed
          obtain ⟨recs, state', more, innerRun, rfl, extends', behind⟩ :=
            ih (outer.record_grows extends_ held) rfl
          exact ⟨first.2 :: recs, state', more, .step ahead absorbed innerRun, rfl,
            extends_.trans extends', behind⟩

/-- An insertion puts at most one tuple in front of a scan of everything. -/
theorem Source.ahead_length_emit {attrSide : AttrDesc → Record}
    (held : outer.record state outerPlace = some outerRec)
    (emitted : state.emit attrs attrSide = some state') :
    (outer.ahead state' none outerPlace).length ≤ (outer.ahead state none outerPlace).length + 1 := by
  have extends_ := HeapState.emit_extends emitted
  unfold HeapState.emit at emitted
  split_ifs at emitted with projects
  cases emitted
  cases outer with
  | result =>
      obtain ⟨_, rid, _, updated⟩ :=
        state.formed.insert_last_update projects.positive projects.room
      have member : outerPlace.pageNo ∈ state.chain := by
        have live : state.file.contents state.chain outerPlace = some outerRec := held
        exact (LogicalFile.contents_some.mp (by rw [live]; rfl)).1
      change (LogicalFile.found _ _ _).length ≤ (LogicalFile.found _ _ _).length + 1
      rw [LogicalFile.found_all_length, LogicalFile.found_all_length]
      exact extends_.front_length_le (state.insert _ projects.positive).formed.nodup updated member
  | other unchanged => exact Nat.le_succ _

theorem Source.ahead_length_runs {source : Source headerNo} {filter : Option ScanFilter}
    {emitSide : Record → AttrDesc → Record} {place : RID} {recs : List Record}
    (held : outer.record state outerPlace = some outerRec)
    (run : (emitFeed attrs source filter emitSide).Runs state place recs state') :
    (outer.ahead state' none outerPlace).length ≤
      (outer.ahead state none outerPlace).length + recs.length := by
  induction run with
  | stop done => exact Nat.le_refl _
  | step next absorbed _ ih =>
      have one := outer.ahead_length_emit held absorbed
      have more := ih (outer.record_grows (HeapState.emit_extends absorbed) held)
      rw [List.length_cons]
      omega

/-- No outer tuple has more partners than the inner relation has tuples. -/
theorem outer_pairs_length_le {place : RID} {bound : Nat}
    (partners : ∀ filter, (inner.ahead state filter (inner.start state)).length ≤ bound) :
    (outerPairs outer inner filterOf state place).length ≤
      (outer.ahead state none place).length * bound := by
  unfold outerPairs
  rw [List.length_flatMap]
  have each : ∀ count ∈ (outer.ahead state none place).map fun found =>
      (innerPairs inner filterOf state found.1 found.2 (inner.start state)).length,
      count ≤ bound := by
    intro count member
    obtain ⟨found, _, rfl⟩ := List.mem_map.mp member
    rw [innerPairs, List.length_map]
    exact partners _
  have total := List.sum_le_card_nsmul _ bound each
  rwa [List.length_map, smul_eq_mul] at total

/-- If the pairs of a run are those that were there at first, this is so within each of its
rounds. -/
theorem exact_round {place : RID} {rest : List (RID × Record)} {pairs : List (Record × Record)}
    (next : outer.ahead state none place = (outerPlace, outerRec) :: rest)
    (run : (joinFeed attrs outer inner filterOf side).Runs state (place, none) pairs final)
    (exactly : pairs.length = (pairsAhead outer inner filterOf state (place, none)).length) :
    ∃ recs state' later,
      (emitFeed attrs inner (filterOf outerRec) (side outerRec)).Runs state (inner.start state)
        recs state' ∧
      recs.length = (inner.ahead state (filterOf outerRec) (inner.start state)).length ∧
      (joinFeed attrs outer inner filterOf side).Runs state' (outerPlace, none) later final ∧
      later.length = (pairsAhead outer inner filterOf state' (outerPlace, none)).length ∧
      pairs.length = recs.length + later.length := by
  have held := (outer.ahead_resumes (show _ = [] ++ _ from next)).1
  have same : pairsAhead outer inner filterOf state (place, none) =
      pairsAhead outer inner filterOf state (outerPlace, some (inner.start state)) :=
    join_ahead_outer next
  have within : (joinFeed attrs outer inner filterOf side).Runs state
      (outerPlace, some (inner.start state)) pairs final := run.of_ahead_eq same.symm
  obtain ⟨recs, state', later, innerRun, rfl, extends_, behind⟩ := inner_runs_of_join held within rfl
  have enough := innerRun.at_least
  have enoughLater := behind.at_least
  have kept : (pairsAhead outer inner filterOf state (outerPlace, none)).length ≤
      (pairsAhead outer inner filterOf state' (outerPlace, none)).length :=
    (pairs_ahead_grows extends_ _).length_le
  change (inner.ahead state (filterOf outerRec) (inner.start state)).length ≤ _ at enough
  change (pairsAhead outer inner filterOf state' (outerPlace, none)).length ≤ _ at enoughLater
  have whole : (pairsAhead outer inner filterOf state (place, none)).length =
      (inner.ahead state (filterOf outerRec) (inner.start state)).length +
        (pairsAhead outer inner filterOf state (outerPlace, none)).length := by
    rw [same, pairs_ahead_inner held, List.length_append, innerPairs, List.length_map]
    rfl
  rw [whole, List.length_append, List.length_map] at exactly
  refine ⟨recs, state', later, innerRun, by omega, behind, by omega, ?_⟩
  rw [List.length_append, List.length_map]

end Loops

end PrimitiveDB

import PrimitiveDB.SortMerges

/-!
# Going back in sorted output

`setMark` remembers for every run the place of its scan and the record that it is on, and
`gotoMark` goes back there and takes that record for one that has not been returned. That is
right for the run whose record was returned last and for those whose record waits in memory, but
a run that has not been read yet is then taken for one that has ended.
-/

namespace PrimitiveDB

open BufMgr World DbM

set_option autoImplicit false

namespace SortedFile

variable {w w' : World} {rest : List Pin} {others : List FilePtr} {run : Run}
  {lf : FileName → LogicalFile} {chain : FileName → List Int} {file : SortedFile}
  {left : List (List RunItem)} {before : RunItem → RunItem → Prop}

def marked (run : Run) : Run :=
  { run with inFile := run.inFile.map HeapFileScan.markScan, mark := run.rid }

theorem map_runs {change : Run → DbM Run} {changed : Run → Run} {runs : List Run}
    (same : ∀ run ∈ runs, change run w = (.ok (changed run), w)) (front : List Run) :
    List.mapM.loop change runs front w = (.ok (front.reverse ++ runs.map changed), w) := by
  induction runs generalizing front with
  | nil =>
      rw [List.mapM.loop, List.map_nil, List.append_nil]
      rfl
  | cons run runs ih =>
      have later := ih (fun other member => same other (List.mem_cons_of_mem _ member))
        (changed run :: front)
      rw [List.mapM.loop, DbM.bind_ok (same run List.mem_cons_self), later]
      simp

theorem marked_keeps_pins (run : Run) : KeepsPins run (marked run) := by
  refine ⟨rfl, ?_, ?_⟩
  · unfold Run.pins marked
    cases run.inFile <;> rfl
  · unfold Run.opens marked
    cases run.inFile <;> rfl

theorem Reads.marked {items : List RunItem} (reads : Reads w lf chain run items) :
    Reads w lf chain (marked run) items := by
  obtain ⟨scan, later, at_, list⟩ := reads
  refine ⟨scan.markScan, later, ⟨?_, at_.unfiltered, at_.named, at_.logical, at_.formed,
    at_.pinned, at_.place⟩, list⟩
  unfold SortedFile.marked
  rw [at_.inFile]
  rfl

theorem Reads.marks {items : List RunItem}
    (reads : Reads w lf chain { run with valid := true } items) :
    Marked lf chain (SortedFile.marked run) items := by
  obtain ⟨scan, later, at_, list⟩ := reads
  refine ⟨scan.markScan, run.record, later, ?_, at_.place, list⟩
  have inFile : run.inFile = some scan := at_.inFile
  unfold SortedFile.marked
  rw [inFile]
  rfl

/-- `setMark` marks the records in memory, whether they have been returned or not. -/
theorem Merging.set_mark {back : List (List RunItem)}
    (merging : Merging w rest others lf chain file left) (rewinds : Rewinds w lf chain file back) :
    ∃ file', file.setMark w = (.ok (.OK, file'), w) ∧
      Merging w rest others lf chain file' left ∧
      List.Forall₂ (Marked lf chain) file'.runs back ∧ file' = { file with runs := file'.runs } := by
  refine ⟨{ file with runs := file.runs.map marked }, ?_, ⟨?_, ?_⟩, ?_, rfl⟩
  · unfold setMark
    apply DbM.bind_ok
    apply map_runs _ []
    intro run member
    obtain ⟨items, _, scan, later, at_, _⟩ := partner_of_mem merging.reads member
    simp only [at_.inFile, SortedFile.marked, Option.map_some]
    rfl
  · apply merging.opened.keeps_pins
    rw [List.forall₂_map_right_iff]
    exact List.forall₂_same.mpr fun run _ => marked_keeps_pins run
  · rw [List.forall₂_map_left_iff]
    exact merging.reads.imp fun _ _ reads => reads.marked
  · rw [List.forall₂_map_left_iff]
    exact rewinds.imp fun _ _ reads => reads.marks

/-- One run goes back to its mark, and the others are as they were. -/
theorem reset_run {done runs : List Run} {items back : List RunItem}
    (opened : w.RunsOpen rest others (done ++ run :: runs)) (reads : Reads w lf chain run items)
    (marks : Marked lf chain run back) :
    ∃ run' w', resetScans (run :: runs) w =
        (resetScans runs >>= fun result => pure (result.1, run' :: result.2)) w' ∧
      w'.RunsOpen rest others (done ++ run' :: runs) ∧ SameLogical w w' ∧
      Reads w' lf chain run' back := by
  obtain ⟨scan, later, at_, _⟩ := reads
  obtain ⟨scan₁, record, ahead, inFile, place, list⟩ := marks
  rw [at_.inFile] at inFile
  cases inFile
  obtain ⟨todo, stands, live, listed⟩ := place.ahead
  obtain ⟨scan', w', reset, there, mark, same, scans⟩ :=
    (opened.scans_on at_).reset_scan stands
  rw [← there] at place
  rw [resetScans, at_.inFile]
  dsimp only
  rw [DbM.bind_ok reset]
  dsimp only
  rw [if_neg (not_not.mpr rfl)]
  by_cases lower : run.mark.pageNo ≥ 0
  · obtain ⟨cursor, contents⟩ := place.onto lower
    obtain ⟨number, curRec⟩ := Prod.mk.inj cursor
    have scanAt : w'.ScanAt scan' (pinsBeside done runs rest) (opensBeside done runs others)
        run.name (lf run.name) (chain run.name) todo := by
      refine ⟨scans.holding, scans.formed, scans.pinned, ?_⟩
      obtain ⟨page, rid⟩ := Prod.mk.inj there
      rw [page, rid]
      exact stands
    have read : scan'.current w' = (.ok (.ok record), w') := by
      apply scanAt.current
      · rw [number, curRec]
      · rw [curRec]
        exact contents
    rw [if_pos lower, DbM.bind_assoc, DbM.bind_ok read]
    refine ⟨{ run with inFile := some scan', rid := run.mark, record, valid := true }, w', rfl,
      opened.used at_.inFile scans same mark.headerPin rfl rfl, same, scan', ahead,
      reads_at_moved at_ scans mark same rfl rfl place, list⟩
  · rw [if_neg lower]
    refine ⟨{ run with inFile := some scan', rid := run.mark, valid := true }, w', rfl,
      opened.used at_.inFile scans same mark.headerPin rfl rfl, same, scan', ahead,
      reads_at_moved at_ scans mark same rfl rfl ⟨place.ahead, fun upper => absurd upper lower⟩, ?_⟩
    rw [list, if_pos rfl, Run.giving, Run.giving, if_pos (not_le.mp lower), if_pos (not_le.mp lower)]

theorem reset_scans_spec {done runs : List Run} {back : List (List RunItem)}
    (opened : w.RunsOpen rest others (done ++ runs))
    (reads : List.Forall₂ (Reads w lf chain) runs left)
    (marks : List.Forall₂ (Marked lf chain) runs back) :
    ∃ runs' w', resetScans runs w = (.ok (.OK, runs'), w') ∧
      w'.RunsOpen rest others (done ++ runs') ∧ SameLogical w w' ∧
      List.Forall₂ (Reads w' lf chain) runs' back := by
  induction runs generalizing w done left back with
  | nil =>
      cases marks
      exact ⟨[], w, rfl, opened, .refl w, .nil⟩
  | cons run runs ih =>
      cases reads with
      | cons first behind =>
          cases marks with
          | cons mark marked =>
              obtain ⟨run', w₁, reset, opened₁, same₁, reads₁⟩ := reset_run opened first mark
              have joined : done ++ run' :: runs = (done ++ [run']) ++ runs := by simp
              rw [joined] at opened₁
              obtain ⟨runs', w₂, later, opened₂, same₂, reads₂⟩ :=
                ih opened₁ (behind.imp fun _ _ reads => reads.same same₁) marked
              rw [List.append_assoc, List.singleton_append] at opened₂
              refine ⟨run' :: runs', w₂, ?_, opened₂, same₁.trans same₂,
                .cons (reads₁.same same₂) reads₂⟩
              rw [reset, DbM.bind_ok later]
              rfl

/-- `gotoMark` goes back to what was marked, however far the runs have been read since. -/
theorem Merging.goto_mark {back : List (List RunItem)}
    (merging : Merging w rest others lf chain file left)
    (marks : List.Forall₂ (Marked lf chain) file.runs back) :
    ∃ file' w', file.gotoMark w = (.ok (.OK, file'), w') ∧
      Merging w' rest others lf chain file' back ∧ file' = { file with runs := file'.runs } := by
  have opened : w.RunsOpen rest others ([] ++ file.runs) := merging.opened
  obtain ⟨runs', w', reset, opened', _, reads⟩ := reset_scans_spec opened merging.reads marks
  refine ⟨{ file with runs := runs' }, w', ?_, ⟨opened', reads⟩, rfl⟩
  unfold gotoMark
  rw [DbM.bind_ok reset]
  rfl

/-- `before` calls of `next`, a mark, `between` calls more and the return to the mark; then
`count` calls. The statuses of the mark and of the return, and the results of the last calls. -/
def markSession (tmpRid : RID) (before between count : Nat) (file : SortedFile) :
    DbM (Status × Status × List (Except Status Record)) := do
  let (_, file) ← nextAll tmpRid before file
  let (marked, file) ← file.setMark
  let (_, file) ← nextAll tmpRid between file
  let (returned, file) ← file.gotoMark
  let (results, _) ← nextAll tmpRid count file
  pure (marked, returned, results)

/-- The output from the last record on that was returned before the mark, and from the first if
none was. -/
def fromMark (output : List Record) (before : Nat) : List Record :=
  output.drop (min before output.length - 1)

def restored (output : List Record) : Nat → List Record
  | 0 => []
  | before + 1 => output.drop before

def rewound (file : SortedFile) (left : List (List RunItem)) : Nat → List (List RunItem)
  | 0 => left.map fun _ => []
  | before + 1 => (KWayMerge.stepped file.above)^[before] left

theorem rewound_ready (trans : ∀ x y z, before x y → before y z → before x z)
    (ready : KWayMerge.Ready file.above before left) (count : Nat) :
    KWayMerge.Ready file.above before (rewound file left count) := by
  cases count with
  | zero =>
      rw [rewound, List.map_const']
      exact KWayMerge.empty_ready _
  | succ count => exact ready.iterate trans count

theorem rewound_merged (trans : ∀ x y z, before x y → before y z → before x z)
    (ready : KWayMerge.Ready file.above before left) (count : Nat) :
    (KWayMerge.merged file.above (rewound file left count)).map Prod.snd =
      restored ((KWayMerge.merged file.above left).map Prod.snd) count := by
  cases count with
  | zero =>
      rw [rewound, List.map_const', KWayMerge.empty_merged]
      rfl
  | succ count =>
      rw [rewound, restored, KWayMerge.merged_iterate trans ready, List.map_drop]

theorem Merging.mark_session (trans : ∀ x y z, before x y → before y z → before x z)
    (merging : Merging w rest others lf chain file left)
    (rewinds : Rewinds w lf chain file (left.map fun _ => []))
    (ready : KWayMerge.Ready file.above before left) (tmpRid : RID) (n m count : Nat) :
    (markSession tmpRid n m count file w).1 = .ok (.OK, .OK,
      answers (restored ((KWayMerge.merged file.above left).map Prod.snd) n) count) := by
  obtain ⟨file₁, w₁, first, merging₁, back₁, _, same₁⟩ := merging.next_all trans ready tmpRid n
  have rewinds₁ : Rewinds w₁ lf chain file₁ (rewound file left n) := by
    cases n with
    | zero =>
        rw [answers_zero] at first
        cases first
        exact rewinds
    | succ n => exact back₁ n rfl
  obtain ⟨file₂, second, merging₂, marks₂, same₂⟩ := merging₁.set_mark rewinds₁
  have above₂ : file₂.above = file.above := (above_same same₂).trans (above_same same₁)
  have ready₂ := ready.iterate trans n
  rw [← above₂] at ready₂ merging₂
  obtain ⟨file₃, w₃, third, merging₃, _, keeps, same₃⟩ :=
    merging₂.next_all trans ready₂ tmpRid m
  obtain ⟨file₄, w₄, fourth, merging₄, same₄⟩ := merging₃.goto_mark (keeps _ marks₂)
  have above₄ : file₄.above = file.above :=
    (above_same same₄).trans ((above_same same₃).trans above₂)
  have ready₄ := rewound_ready trans ready n
  rw [← above₄] at ready₄
  obtain ⟨file₅, w₅, fifth, _⟩ := merging₄.next_all trans ready₄ tmpRid count
  rw [above₄, rewound_merged trans ready] at fifth
  unfold markSession
  rw [DbM.bind_ok first]
  dsimp only
  rw [DbM.bind_ok second]
  dsimp only
  rw [DbM.bind_ok third]
  dsimp only
  rw [DbM.bind_ok fourth]
  dsimp only
  rw [DbM.bind_ok fifth]
  rfl

theorem answers_injective {left right : List Record}
    (same : ∀ count, answers left count = answers right count) : left = right := by
  have all := same (left.length + right.length)
  have records : ∀ records : List Record, ∀ count, records.length ≤ count →
      (answers records count).filterMap Except.toOption = records := by
    intro records count bound
    have whole : (records.map Except.ok).take count =
        (records.map Except.ok : List (Except Status Record)) := by
      apply List.take_of_length_le
      rw [List.length_map]
      exact bound
    rw [answers, whole, List.filterMap_append, List.filterMap_map, List.filterMap_replicate]
    simp [Except.toOption, Function.comp_def]
  rw [← records left _ (Nat.le_add_right _ _), all, records right _ (Nat.le_add_left _ _)]

/-- The marks restore the right output exactly if there is none, or if some and not all calls
before the mark were needed to return it. -/
theorem restored_eq_iff (output : List Record) (n : Nat) :
    restored output n = fromMark output n ↔ output = [] ∨ (1 ≤ n ∧ n ≤ output.length) := by
  cases n with
  | zero => simp [restored, fromMark, eq_comm]
  | succ n =>
      rw [restored, fromMark]
      by_cases inside : n + 1 ≤ output.length
      · rw [min_eq_left inside]
        simp [inside]
      · have outside : output.length ≤ n := by omega
        rw [min_eq_right (by omega), List.drop_eq_nil_of_le outside, eq_comm, List.drop_eq_nil_iff]
        constructor
        · intro short
          exact .inl (List.length_eq_zero_iff.mp (by omega))
        · rintro (rfl | both)
          · simp
          · exact absurd both.2 inside

def allRecords (lf : FileName → LogicalFile) (chain : FileName → List Int) (runs : List Run) :
    List Record :=
  runs.flatMap (runRecords lf chain)

theorem labels_all_dropped (runs : List Run) :
    (labelled (runs.map (runRecords lf chain))).flatten.map Prod.snd = allRecords lf chain runs := by
  have dropped : (labelled (runs.map (runRecords lf chain))).map (List.map Prod.snd) =
      runs.map (runRecords lf chain) := by
    apply List.ext_getElem
    · simp [labelled]
    · intro index _ _
      simp [labelled, labels_dropped]
  rw [List.map_flatten, dropped]
  rfl

/-- `gotoMark` leads back to the last record before the mark if and only if there are no records
at all, or a record was returned before the mark and the end was not. -/
theorem mark_returns_iff (storage : w.Storage rest others)
    (files : RunFiles w others lf chain file.runs)
    (orders : file.OrdersRecords (present lf chain file.runs))
    (sorted : ∀ run ∈ file.runs,
      (runRecords lf chain run).Pairwise fun x y => file.recordcmp x y ≤ 0)
    (mem : Uninit) (tmpRid : RID) (calm : (startScans mem file.runs w).2.bufFailed = false) :
    ∃ (runs : List Run) (w₀ : World) (output : List Record),
      startScans mem file.runs w = (.ok (.OK, runs), w₀) ∧
      (∀ count, ∃ file' w', nextAll tmpRid count { file with runs } w₀ =
        (.ok (answers output count, file'), w')) ∧
      ∀ n m, (∀ count, (markSession tmpRid n m count { file with runs } w₀).1 =
          .ok (.OK, .OK, answers (fromMark output n) count)) ↔
        allRecords lf chain file.runs = [] ∨
          (1 ≤ n ∧ n ≤ (allRecords lf chain file.runs).length) := by
  obtain ⟨runs, w₀, started, merging, rewinds⟩ := start_merging storage files mem calm
  have ready := runs_ready orders sorted
  refine ⟨runs, w₀, (KWayMerge.merged file.above
    (labelled (file.runs.map (runRecords lf chain)))).map Prod.snd, started, ?_, ?_⟩
  · intro count
    obtain ⟨file', w', run, _⟩ := merging.next_all orders.trans ready tmpRid count
    exact ⟨file', w', run⟩
  · intro n m
    have session := fun count => merging.mark_session orders.trans rewinds ready tmpRid n m count
    have all := (KWayMerge.merged_sorts orders.trans ready).1.map Prod.snd
    rw [labels_all_dropped] at all
    rw [← List.length_eq_zero_iff, ← all.length_eq, List.length_eq_zero_iff, ← restored_eq_iff]
    constructor
    · intro same
      apply answers_injective
      intro count
      have results := (session count).symm.trans (same count)
      simp only [Outcome.ok.injEq, Prod.mk.injEq, true_and] at results
      exact results
    · intro same count
      rw [session count, ← same]
      rfl

open HeapSession (zeroMemory)

/-- The mark behind the second of three records. -/
theorem mark_returns_three_records :
    ∃ (runs : List Run) (w₀ : World) (output : List Record),
      startScans zeroMemory sampleFile.runs (databaseOf 8 sampleTables) = (.ok (.OK, runs), w₀) ∧
      ∀ count, (markSession NULLRID 2 1 count { sampleFile with runs } w₀).1 =
        .ok (.OK, .OK, answers (fromMark output 2) count) := by
  obtain ⟨runs, w₀, output, started, _, returns⟩ := mark_returns_iff sample_storage sample_files
    sample_orders sample_sorted zeroMemory NULLRID sample_calm
  refine ⟨runs, w₀, output, started, (returns 2 1).mpr (.inr ?_)⟩
  have records : allRecords sampleLogical (fun _ => [2]) sampleFile.runs = [[1], [3], [2]] := by
    rw [allRecords, List.flatMap_def, sample_records]
    rfl
  rw [records]
  decide

def sampleOutput (count : Nat) : DbM (List (Except Status Record)) := do
  let (_, runs) ← startScans zeroMemory sampleFile.runs
  let (results, _) ← nextAll NULLRID count { sampleFile with runs }
  pure results

/-- The first results after a mark behind `n` calls. -/
def sampleReturn (n count : Nat) : DbM (Status × Status × List (Except Status Record)) := do
  let (_, runs) ← startScans zeroMemory sampleFile.runs
  markSession NULLRID n 0 count { sampleFile with runs }

/-- A mark before the first call loses all records, and so does one behind the end. -/
theorem mark_at_the_start_loses_records :
    (sampleOutput 4 (databaseOf 8 sampleTables)).1 =
        .ok [.ok [1], .ok [2], .ok [3], .error .FILEEOF] ∧
      (sampleReturn 0 1 (databaseOf 8 sampleTables)).1 = .ok (.OK, .OK, [.error .FILEEOF]) ∧
      (sampleReturn 4 1 (databaseOf 8 sampleTables)).1 = .ok (.OK, .OK, [.error .FILEEOF]) := by
  decide +kernel

end SortedFile

end PrimitiveDB

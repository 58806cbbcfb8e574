import PrimitiveDB.SortOutcomes
import PrimitiveDB.KWayMerge

/-!
# Merging the runs

Every run has a scan of its own file. `next` looks at one record of each run, which it fetches
only when the last one has been returned, and a run that has ended says so in the page number of
its last record. What a run still has to give is a list of records, whatever the flag and the
page number are; on these lists `next` is a step of the merge.
-/

namespace PrimitiveDB

open BufMgr World DbM

set_option autoImplicit false

abbrev RunItem := (Nat × Nat) × Record

namespace Run

def pins (run : Run) : List Pin :=
  match run.inFile with
  | none => []
  | some scan => scan.toHeapFile.pins

def opens (run : Run) : List FilePtr :=
  match run.inFile with
  | none => []
  | some scan => [scan.filePtr]

theorem pins_some {run : Run} {scan : HeapFileScan} (inFile : run.inFile = some scan) :
    run.pins = scan.toHeapFile.pins := by
  simp only [pins, inFile]

theorem opens_some {run : Run} {scan : HeapFileScan} (inFile : run.inFile = some scan) :
    run.opens = [scan.filePtr] := by
  simp only [opens, inFile]

/-- A place of a scan in its file, with `later` in front of it. `rid` is the record that it is
on, if its page number is not negative. -/
structure Place (lf : LogicalFile) (chain : List Int) (cursor : Int × RID) (rid : RID)
    (record : Record) (later : List Record) : Prop where
  ahead : ∃ todo, lf.Stands chain cursor.1 cursor.2 todo ∧
    (∀ next ∈ todo, (lf.contents chain next).isSome) ∧ todo.filterMap lf.record = later
  onto : 0 ≤ rid.pageNo → cursor = (rid.pageNo, rid) ∧ lf.contents chain rid = some record

def giving (rid : RID) (record : Record) (later : List Record) : List Record :=
  if rid.pageNo < 0 then [] else record :: later

structure ReadsAt (w : World) (lf : LogicalFile) (chain : List Int) (run : Run)
    (scan : HeapFileScan) (later : List Record) : Prop where
  inFile : run.inFile = some scan
  unfiltered : scan.filter = none
  named : w.nameOf scan.filePtr = some run.name
  logical : w.logical run.name = some lf
  formed : lf.HeapFormed scan.headerPageNo chain
  pinned : scan.curPage.isSome
  place : Place lf chain (scan.curPageNo, scan.curRec) run.rid run.record later

end Run

namespace World

/-- The runs are open, each on a file that nobody else has open. -/
structure RunsOpen (w : World) (rest : List Pin) (others : List FilePtr) (runs : List Run) :
    Prop where
  storage : w.Storage (runs.flatMap Run.pins ++ rest) (runs.flatMap Run.opens ++ others)
  calm : w.bufFailed = false
  distinct : (runs.map Run.name).Nodup
  named : ∀ run ∈ runs, ∀ file ∈ run.opens, w.nameOf file = some run.name
  apart : ∀ run ∈ runs, ∀ file ∈ others, w.nameOf file ≠ some run.name
  owned : ∀ pin ∈ rest, pin.file ∈ others

end World

section Among

variable {w w' : World} {rest : List Pin} {others : List FilePtr} {done later : List Run}
  {run run' : Run} {scan scan' : HeapFileScan}

def pinsBeside (done later : List Run) (rest : List Pin) : List Pin :=
  done.flatMap Run.pins ++ (later.flatMap Run.pins ++ rest)

def opensBeside (done later : List Run) (others : List FilePtr) : List FilePtr :=
  done.flatMap Run.opens ++ (later.flatMap Run.opens ++ others)

theorem pins_beside_perm (inFile : run.inFile = some scan) :
    ((done ++ run :: later).flatMap Run.pins ++ rest).Perm
      (scan.toHeapFile.pins ++ pinsBeside done later rest) := by
  have swap := List.perm_append_comm_assoc (done.flatMap Run.pins) scan.toHeapFile.pins
    (later.flatMap Run.pins ++ rest)
  simpa [pinsBeside, Run.pins_some inFile] using swap

theorem opens_beside_perm (inFile : run.inFile = some scan) :
    ((done ++ run :: later).flatMap Run.opens ++ others).Perm
      (scan.filePtr :: opensBeside done later others) := by
  simp [opensBeside, Run.opens_some inFile]

theorem World.RunsOpen.beside (opened : w.RunsOpen rest others (done ++ run :: later))
    (inFile : run.inFile = some scan) {pin : Pin} (member : pin ∈ pinsBeside done later rest) :
    pin.file ≠ scan.filePtr := by
  intro same
  have names := opened.named run (by simp) scan.filePtr (by simp [Run.opens_some inFile])
  have elsewhere : ∀ other ∈ done ++ later, pin ∈ other.pins → False := by
    intro other listed inside
    have different : other.name ≠ run.name := by
      have distinct := opened.distinct
      rw [List.map_append, List.map_cons, List.nodup_middle, ← List.map_append] at distinct
      intro equal
      apply (List.nodup_cons.mp distinct).1
      rw [← equal]
      exact List.mem_map_of_mem listed
    unfold Run.pins at inside
    cases open_ : other.inFile with
    | none =>
        rw [open_] at inside
        cases inside
    | some scan₂ =>
        rw [open_] at inside
        have file : pin.file = scan₂.filePtr := by
          simp only [HeapFile.pins, List.mem_cons, List.mem_map] at inside
          rcases inside with rfl | ⟨frame, _, rfl⟩ <;> rfl
        have named := opened.named other (by
          simp only [List.mem_append, List.mem_cons] at listed ⊢
          tauto) scan₂.filePtr (by simp [Run.opens_some open_])
        rw [← file, same, names] at named
        exact different (Option.some.inj named).symm
  simp only [pinsBeside, List.mem_append, List.mem_flatMap] at member
  rcases member with ⟨other, listed, inside⟩ | ⟨other, listed, inside⟩ | outside
  · exact elsewhere other (List.mem_append_left _ listed) inside
  · exact elsewhere other (List.mem_append_right _ listed) inside
  · have names' := opened.apart run (by simp) pin.file (opened.owned pin outside)
    rw [same] at names'
    exact names' names

/-- The run as a scan of its own. The frame of its current page is free as soon as it is
unpinned. -/
theorem World.RunsOpen.scans_on {lf : LogicalFile} {chain : List Int} {items : List Record}
    (opened : w.RunsOpen rest others (done ++ run :: later))
    (reads : run.ReadsAt w lf chain scan items) :
    w.ScansOn scan (pinsBeside done later rest) (opensBeside done later others) run.name lf
      chain where
  holding := by
    have storage := opened.storage.perm (pins_beside_perm reads.inFile)
    exact ⟨storage.perm_opens (opens_beside_perm reads.inFile), reads.named, reads.logical⟩
  formed := reads.formed
  pinned := reads.pinned
  stands := by
    obtain ⟨todo, stands, _⟩ := reads.place.ahead
    exact ⟨todo, stands⟩
  spare := by
    obtain ⟨frame, cur⟩ := Option.isSome_iff_exists.mp reads.pinned
    have storage := opened.storage.perm (pins_beside_perm reads.inFile)
    have here := (storage.held_by _ (HeapFile.cur_pin_mem cur)).1
    refine ⟨frame, here.1, ?_⟩
    rw [pinsOn, List.countP_eq_zero]
    intro pin member onFrame
    have listed : pin ∈ scan.toHeapFile.pins ++ pinsBeside done later rest := by
      rcases List.mem_cons.mp member with rfl | beside
      · exact scan.toHeapFile.header_pin_mem
      · exact List.mem_append_right _ beside
    have there := (storage.held_by pin listed).1
    rw [of_decide_eq_true onFrame] at there
    have file : pin.file = scan.filePtr := there.2.2.1.symm.trans here.2.2.1
    have number : pin.pageNo = scan.curPageNo := there.2.2.2.symm.trans here.2.2.2
    rcases List.mem_cons.mp member with rfl | beside
    · obtain ⟨todo, ⟨pages, start, suffix, _⟩, _⟩ := reads.place.ahead
      apply (List.nodup_cons.mp reads.formed.distinct).1
      change scan.headerPageNo = scan.curPageNo at number
      rw [number]
      exact suffix.subset List.mem_cons_self
    · exact opened.beside reads.inFile beside file
  calm := opened.calm

theorem World.RunsOpen.used {fileName : FileName} {lf : LogicalFile} {chain : List Int}
    (opened : w.RunsOpen rest others (done ++ run :: later)) (inFile : run.inFile = some scan)
    (scans : w'.ScansOn scan' (pinsBeside done later rest) (opensBeside done later others) fileName
      lf chain) (same : SameLogical w w') (header : scan'.headerPin = scan.headerPin)
    (name : run'.name = run.name) (inFile' : run'.inFile = some scan') :
    w'.RunsOpen rest others (done ++ run' :: later) := by
  have file : scan'.filePtr = scan.filePtr := congrArg Pin.file header
  have opens : run'.opens = run.opens := by
    rw [Run.opens_some inFile, Run.opens_some inFile', file]
  have members : ∀ other ∈ done ++ run' :: later, ∃ former ∈ done ++ run :: later,
      other.name = former.name ∧ other.opens = former.opens := by
    intro other member
    rcases List.mem_append.mp member with earlier | behind
    · exact ⟨other, List.mem_append_left _ earlier, rfl, rfl⟩
    · rcases List.mem_cons.mp behind with rfl | behind
      · exact ⟨run, by simp, name, opens⟩
      · exact ⟨other, by simp [behind], rfl, rfl⟩
  refine ⟨?_, scans.calm, ?_, ?_, ?_, opened.owned⟩
  · have storage := scans.holding.storage.perm (pins_beside_perm inFile').symm
    exact storage.perm_opens (opens_beside_perm inFile').symm
  · have distinct := opened.distinct
    simp only [List.map_append, List.map_cons, name] at distinct ⊢
    exact distinct
  · intro other member file inside
    obtain ⟨former, listed, sameName, sameOpens⟩ := members other member
    rw [same.nameOf, sameName]
    rw [sameOpens] at inside
    exact opened.named former listed file inside
  · intro other member file inside
    obtain ⟨former, listed, sameName, _⟩ := members other member
    rw [same.nameOf, sameName]
    exact opened.apart former listed file inside

theorem partner_of_mem {α β : Type} {related : α → β → Prop} {xs : List α} {ys : List β}
    (all : List.Forall₂ related xs ys) {x : α} (member : x ∈ xs) : ∃ y ∈ ys, related x y := by
  induction all with
  | nil => cases member
  | cons first _ ih =>
      rcases List.mem_cons.mp member with rfl | later
      · exact ⟨_, List.mem_cons_self, first⟩
      · obtain ⟨y, listed, here⟩ := ih later
        exact ⟨y, List.mem_cons_of_mem _ listed, here⟩

structure KeepsPins (run run' : Run) : Prop where
  name : run'.name = run.name
  pins : run'.pins = run.pins
  opens : run'.opens = run.opens

theorem World.RunsOpen.keeps_pins {runs runs' : List Run} (opened : w.RunsOpen rest others runs)
    (same : List.Forall₂ KeepsPins runs runs') : w.RunsOpen rest others runs' := by
  have lists : runs'.map Run.name = runs.map Run.name ∧
      runs'.flatMap Run.pins = runs.flatMap Run.pins ∧
      runs'.flatMap Run.opens = runs.flatMap Run.opens := by
    clear opened
    induction same with
    | nil => exact ⟨rfl, rfl, rfl⟩
    | cons first _ ih =>
        simp only [List.map_cons, List.flatMap_cons, first.name, first.pins, first.opens, ih,
          and_self]
  have former : ∀ run' ∈ runs', ∃ run ∈ runs, KeepsPins run run' :=
    fun _ member => partner_of_mem same.flip member
  refine ⟨?_, opened.calm, ?_, ?_, ?_, opened.owned⟩
  · rw [lists.2.1, lists.2.2]
    exact opened.storage
  · rw [lists.1]
    exact opened.distinct
  · intro run' member file inside
    obtain ⟨run, listed, pins⟩ := former run' member
    rw [pins.name]
    rw [pins.opens] at inside
    exact opened.named run listed file inside
  · intro run' member file inside
    obtain ⟨run, listed, pins⟩ := former run' member
    rw [pins.name]
    exact opened.apart run listed file inside

end Among

namespace SortedFile

variable {w w' : World} {rest : List Pin} {others : List FilePtr} {done later : List Run}
  {run : Run} {lf : FileName → LogicalFile} {chain : FileName → List Int}

def Reads (w : World) (lf : FileName → LogicalFile) (chain : FileName → List Int) (run : Run)
    (items : List RunItem) : Prop :=
  ∃ scan later, run.ReadsAt w (lf run.name) (chain run.name) scan later ∧
    items.map Prod.snd =
      if run.valid then Run.giving run.rid run.record later else later

/-- What the run has to give after `gotoMark`. -/
def Marked (lf : FileName → LogicalFile) (chain : FileName → List Int) (run : Run)
    (items : List RunItem) : Prop :=
  ∃ scan record later, run.inFile = some scan ∧
    Run.Place (lf run.name) (chain run.name) (scan.markedPageNo, scan.markedRec) run.mark record
      later ∧
    items.map Prod.snd = Run.giving run.mark record later

/-- A run after it has been used: what it returns to is the same. -/
structure Used (lf : FileName → LogicalFile) (chain : FileName → List Int) (run run' : Run) :
    Prop where
  name : run'.name = run.name
  marked : ∀ items, Marked lf chain run items → Marked lf chain run' items

theorem Reads.kept {items : List RunItem} (reads : Reads w lf chain run items)
    (names : ∀ file ∈ run.opens, w'.nameOf file = w.nameOf file) (logical : w'.logical = w.logical) :
    Reads w' lf chain run items := by
  obtain ⟨scan, later, at_, list⟩ := reads
  refine ⟨scan, later, ⟨at_.inFile, at_.unfiltered, ?_, ?_, at_.formed, at_.pinned, at_.place⟩,
    list⟩
  · rw [names scan.filePtr (by simp [Run.opens_some at_.inFile])]
    exact at_.named
  · rw [logical]
    exact at_.logical

theorem Reads.same {items : List RunItem} (reads : Reads w lf chain run items)
    (same : SameLogical w w') : Reads w' lf chain run items :=
  reads.kept (fun file _ => same.nameOf file) same.logical

theorem used_of_mark {run' : Run} {scan scan' : HeapFileScan} (inFile : run.inFile = some scan)
    (inFile' : run'.inFile = some scan') (mark : scan.SameMark scan') (name : run'.name = run.name)
    (kept : run'.mark = run.mark) : Used lf chain run run' := by
  refine ⟨name, ?_⟩
  rintro items ⟨marked, record, later, file, place, list⟩
  rw [inFile] at file
  cases file
  refine ⟨scan', record, later, inFile', ?_, ?_⟩
  · rw [name, kept, mark.markedPageNo, mark.markedRec]
    exact place
  · rw [kept]
    exact list

theorem reads_at_moved {file : LogicalFile} {pages : List Int}
    {records later' : List Record} {scan scan' : HeapFileScan} {run' : Run} {pins : List Pin}
    {opens : List FilePtr} (at_ : run.ReadsAt w file pages scan records)
    (scans : w'.ScansOn scan' pins opens run.name file pages) (mark : scan.SameMark scan')
    (same : SameLogical w w') (inFile : run'.inFile = some scan') (name : run'.name = run.name)
    (place : Run.Place file pages (scan'.curPageNo, scan'.curRec) run'.rid run'.record later') :
    run'.ReadsAt w' file pages scan' later' where
  inFile := inFile
  unfiltered := mark.filter.trans at_.unfiltered
  named := by
    have file : scan'.filePtr = scan.filePtr := congrArg Pin.file mark.headerPin
    rw [same.nameOf, file, name]
    exact at_.named
  logical := by
    rw [same.logical, name]
    exact at_.logical
  formed := scans.formed
  pinned := scans.pinned
  place := place

/-- The next record of the run is in memory, or it is known that there is none. -/
theorem fetch_spec (tmpRid : RID) {items : List RunItem}
    (opened : w.RunsOpen rest others (done ++ run :: later)) (reads : Reads w lf chain run items) :
    ∃ run' w', fetch tmpRid run w = (.ok (.OK, run'), w') ∧
      w'.RunsOpen rest others (done ++ run' :: later) ∧ SameLogical w w' ∧
      run'.valid = true ∧ Reads w' lf chain run' items ∧ Used lf chain run run' := by
  unfold fetch
  cases valid : run.valid with
  | true =>
      exact ⟨run, w, by rfl, opened, .refl w, valid, reads, rfl, fun _ => id⟩
  | false =>
      obtain ⟨scan, records, at_, list⟩ := reads
      rw [valid] at list
      obtain ⟨result, scan', w', next, step, mark, same, scans⟩ :=
        (opened.scans_on at_).scan_next tmpRid
      obtain ⟨todo, stands, live, rfl⟩ := at_.place.ahead
      have advances : (lf run.name).Advances scan.filter (chain run.name) todo
          ((lf run.name).stepCursor scan.filter (scan.curPageNo, scan.curRec)) :=
        at_.formed.scan_next stands
      unfold LogicalFile.Advances at advances
      have recorded : ∀ rid ∈ todo, ((lf run.name).record rid).isSome := by
        intro rid member
        exact rids_live rid (LogicalFile.mem_rids.mpr (live rid member))
      rw [step, at_.unfiltered, sought_unfiltered recorded] at advances
      rw [if_neg (by simp), at_.inFile]
      dsimp only
      rw [DbM.bind_ok next]
      cases todo with
      | nil =>
          obtain ⟨pageNo, curRec, reached, ended⟩ := advances
          simp only [Option.some.injEq, Prod.mk.injEq] at reached
          obtain ⟨rfl, rfl, rfl⟩ := reached
          refine ⟨_, w', rfl, opened.used at_.inFile scans same mark.headerPin rfl rfl, same, rfl,
            ?_, used_of_mark at_.inFile rfl mark rfl rfl⟩
          refine ⟨scan', [], reads_at_moved at_ scans mark same rfl rfl ⟨?_, ?_⟩, ?_⟩
          · exact ⟨[], ended, by simp, rfl⟩
          · intro lower
            cases lower
          · rw [list]
            rfl
      | cons rid todo =>
          obtain ⟨reached, stands'⟩ := advances
          simp only [Option.some.injEq, Prod.mk.injEq] at reached
          obtain ⟨rfl, number, curRec⟩ := reached
          obtain ⟨rec, contents⟩ := Option.isSome_iff_exists.mp (live rid List.mem_cons_self)
          have onto : (scan'.curPageNo, scan'.curRec) = (rid.pageNo, rid) := by
            rw [number, curRec]
          have scanAt : w'.ScanAt scan' (pinsBeside done later rest) (opensBeside done later others)
              run.name (lf run.name) (chain run.name) todo := by
            refine ⟨scans.holding, scans.formed, scans.pinned, ?_⟩
            rw [number, curRec]
            exact stands'
          have read : scan'.current w' = (.ok (.ok rec), w') := by
            apply scanAt.current
            · rw [number, curRec]
            · rw [curRec]
              exact contents
          have member := (LogicalFile.contents_number (live rid List.mem_cons_self)).1
          have positive := (at_.formed.inside _ (List.mem_cons_of_mem _ member)).1
          have record : (lf run.name).record rid = some rec := by
            rw [← LogicalFile.record_of_contents member]
            exact contents
          dsimp only
          rw [DbM.bind_ok read]
          refine ⟨_, w', rfl, opened.used at_.inFile scans same mark.headerPin rfl rfl, same, rfl,
            ?_, used_of_mark at_.inFile rfl mark rfl rfl⟩
          refine ⟨scan', todo.filterMap (lf run.name).record,
            reads_at_moved at_ scans mark same rfl rfl ⟨⟨todo, ?_, ?_, rfl⟩, ?_⟩, ?_⟩
          · exact scanAt.stands
          · intro next listed
            exact live next (List.mem_cons_of_mem _ listed)
          · intro _
            exact ⟨onto, contents⟩
          · rw [list, if_neg (by simp), if_pos rfl, Run.giving, if_neg (by dsimp only; omega),
              List.filterMap_cons_some record]

def recordcmp (file : SortedFile) (left right : Record) : Int :=
  reccmp (ScanFilter.bytesAt left file.offset.toNat)
    (ScanFilter.bytesAt right file.offset.toNat) file.length file.length file.type

def above (file : SortedFile) (left right : RunItem) : Bool :=
  decide (file.recordcmp left.2 right.2 > 0)

def foundIn (chosen : Nat × RunItem) : Nat × Record := (chosen.1, chosen.2.2)

def betterRecord (file : SortedFile) (index : Nat) (smallest : Option (Nat × Record))
    (record : Record) : Option (Nat × Record) :=
  match smallest with
  | none => some (index, record)
  | some (other, rec) =>
      if file.recordcmp rec record > 0 then some (index, record) else some (other, rec)

theorem better_found (file : SortedFile) (index : Nat) (least : Option (Nat × RunItem))
    (item : RunItem) :
    file.betterRecord index (least.map foundIn) item.2 =
      (KWayMerge.better file.above index least item).map foundIn := by
  cases least with
  | none => rfl
  | some best =>
      simp only [betterRecord, Option.map_some, KWayMerge.better, above, foundIn,
        decide_eq_true_eq]
      split_ifs <;> rfl

theorem Reads.head {items : List RunItem} (reads : Reads w lf chain run items)
    (valid : run.valid = true) :
    (run.rid.pageNo < 0 ∧ items = []) ∨
      (¬run.rid.pageNo < 0 ∧ ∃ label tail, items = (label, run.record) :: tail) := by
  obtain ⟨scan, later, _, list⟩ := reads
  rw [valid, if_pos rfl, Run.giving] at list
  by_cases ended : run.rid.pageNo < 0
  · rw [if_pos ended] at list
    exact .inl ⟨ended, List.map_eq_nil_iff.mp list⟩
  · rw [if_neg ended] at list
    obtain ⟨item, tail, rfl, record, _⟩ := List.map_eq_cons_iff.mp list
    refine .inr ⟨ended, item.1, tail, ?_⟩
    rw [← record]

/-- The loop of `next` chooses as the merge does, and keeps what the runs have to give. -/
theorem find_smallest_spec (tmpRid : RID) (file : SortedFile) {runs : List Run}
    {left : List (List RunItem)} (least : Option (Nat × RunItem)) (index : Nat)
    (opened : w.RunsOpen rest others (done ++ runs))
    (reads : List.Forall₂ (Reads w lf chain) runs left) :
    ∃ runs' w', findSmallest tmpRid file index (least.map foundIn) runs w =
        (.ok (.ok ((KWayMerge.smallest file.above index least left).map foundIn), runs'), w') ∧
      w'.RunsOpen rest others (done ++ runs') ∧ SameLogical w w' ∧
      List.Forall₂ (fun run items => run.valid = true ∧ Reads w' lf chain run items) runs' left ∧
      List.Forall₂ (Used lf chain) runs runs' := by
  induction runs generalizing w done left least index with
  | nil =>
      cases reads
      exact ⟨[], w, rfl, opened, .refl w, .nil, .nil⟩
  | cons run runs ih =>
      cases reads with
      | @cons _ items _ left first behind =>
          obtain ⟨run', w₁, fetched, opened₁, same₁, valid, reads₁, used⟩ :=
            fetch_spec tmpRid opened first
          have joined : done ++ run' :: runs = (done ++ [run']) ++ runs := by simp
          rw [joined] at opened₁
          have behind₁ : List.Forall₂ (Reads w₁ lf chain) runs left :=
            behind.imp fun _ _ reads => reads.same same₁
          unfold findSmallest
          rw [DbM.bind_ok fetched]
          dsimp only
          rw [if_neg (not_not.mpr rfl)]
          rcases reads₁.head valid with ⟨ended, rfl⟩ | ⟨given, label, tail, rfl⟩
          · rw [if_pos ended]
            obtain ⟨runs', w₂, found, opened₂, same₂, reads₂, used₂⟩ :=
              ih least (index + 1) opened₁ behind₁
            rw [DbM.bind_ok found]
            rw [List.append_assoc, List.singleton_append] at opened₂
            exact ⟨run' :: runs', w₂, rfl, opened₂, same₁.trans same₂,
              .cons ⟨valid, reads₁.same same₂⟩ reads₂, .cons used used₂⟩
          · rw [if_neg given]
            obtain ⟨runs', w₂, found, opened₂, same₂, reads₂, used₂⟩ :=
              ih (KWayMerge.better file.above index least (label, run'.record)) (index + 1) opened₁
                behind₁
            rw [← better_found] at found
            rw [List.append_assoc, List.singleton_append] at opened₂
            refine ⟨run' :: runs', w₂, ?_, opened₂, same₁.trans same₂,
              .cons ⟨valid, reads₁.same same₂⟩ reads₂, .cons used used₂⟩
            change (findSmallest tmpRid file (index + 1)
              (file.betterRecord index (least.map foundIn) run'.record) runs >>= _) w₁ = _
            rw [DbM.bind_ok found]
            rfl

/-- The object in the middle of a merge: what its runs have to give. -/
structure Merging (w : World) (rest : List Pin) (others : List FilePtr)
    (lf : FileName → LogicalFile) (chain : FileName → List Int) (file : SortedFile)
    (left : List (List RunItem)) : Prop where
  opened : w.RunsOpen rest others file.runs
  reads : List.Forall₂ (Reads w lf chain) file.runs left

/-- What the runs would have to give if none of the records in memory had been returned. -/
def Rewinds (w : World) (lf : FileName → LogicalFile) (chain : FileName → List Int)
    (file : SortedFile) (back : List (List RunItem)) : Prop :=
  List.Forall₂ (fun run items => Reads w lf chain { run with valid := true } items) file.runs back

def firstAnswer : List Record → Except Status Record
  | [] => .error .FILEEOF
  | record :: _ => .ok record

/-- The answers to `count` calls that return these records and then the end. -/
def answers (records : List Record) (count : Nat) : List (Except Status Record) :=
  (records.map .ok).take count ++ List.replicate (count - records.length) (.error .FILEEOF)

theorem answers_zero (records : List Record) : answers records 0 = [] := by
  simp [answers]

theorem answers_succ (records : List Record) (count : Nat) :
    answers records (count + 1) = firstAnswer records :: answers records.tail count := by
  cases records with
  | nil => simp [answers, firstAnswer, List.replicate_succ]
  | cons record records => simp [answers, firstAnswer]

theorem forall₂_modify {α β : Type} {before after : α → β → Prop} {f : α → α} {g : β → β}
    {xs : List α} {ys : List β} (all : List.Forall₂ before xs ys) (index : Nat)
    (same : ∀ x y, before x y → after x y)
    (changed : ∀ x y, before x y → ys[index]? = some y → after (f x) (g y)) :
    List.Forall₂ after (xs.modify index f) (ys.modify index g) := by
  induction all generalizing index with
  | nil => simp
  | @cons x y xs ys first behind ih =>
      cases index with
      | zero => exact .cons (changed x y first rfl) (behind.imp same)
      | succ index => exact .cons (same x y first) (ih index changed)

variable {file : SortedFile} {left : List (List RunItem)} {before : RunItem → RunItem → Prop}

theorem Reads.returned {label : Nat × Nat} {record : Record} {tail : List RunItem}
    (reads : Reads w lf chain run ((label, record) :: tail)) (valid : run.valid = true) :
    Reads w lf chain { run with valid := false } tail := by
  obtain ⟨scan, later, at_, list⟩ := reads
  refine ⟨scan, later, ⟨at_.inFile, at_.unfiltered, at_.named, at_.logical, at_.formed, at_.pinned,
    at_.place⟩, ?_⟩
  rw [valid, if_pos rfl, Run.giving] at list
  split_ifs at list
  · cases list
  · exact (List.cons.inj list).2

theorem Merging.next_spec (trans : ∀ x y z, before x y → before y z → before x z)
    (merging : Merging w rest others lf chain file left)
    (ready : KWayMerge.Ready file.above before left) (tmpRid : RID) :
    ∃ file' w', file.next tmpRid w =
        (.ok (firstAnswer ((KWayMerge.merged file.above left).map Prod.snd), file'), w') ∧
      Merging w' rest others lf chain file' (KWayMerge.stepped file.above left) ∧
      Rewinds w' lf chain file' left ∧ List.Forall₂ (Used lf chain) file.runs file'.runs ∧
      file' = { file with runs := file'.runs } := by
  unfold next
  by_cases empty : file.runs = []
  · rw [if_pos empty]
    have nothing : left = [] := by
      have reads := merging.reads
      rw [empty] at reads
      cases reads
      rfl
    subst nothing
    refine ⟨file, w, rfl, merging, ?_, ?_, rfl⟩
    · rw [Rewinds, empty]
      exact .nil
    · rw [empty]
      exact .nil
  · rw [if_neg empty]
    have opened₀ : w.RunsOpen rest others ([] ++ file.runs) := merging.opened
    obtain ⟨runs', w', found, opened, same, reads, used⟩ :=
      find_smallest_spec tmpRid file none 0 opened₀ merging.reads
    rw [Option.map_none] at found
    rw [DbM.bind_ok found]
    cases chosen : KWayMerge.smallest file.above 0 none left with
    | none =>
        have stopped : KWayMerge.step file.above left = none := by
          rw [KWayMerge.step, chosen]
          rfl
        refine ⟨{ file with runs := runs' }, w', ?_, ⟨opened, ?_⟩, ?_, used, rfl⟩
        · rw [KWayMerge.merged_nil trans ready stopped]
          rfl
        · rw [KWayMerge.stepped, stopped]
          exact reads.imp fun _ _ both => both.2
        · refine reads.imp fun run items both => ?_
          rw [← both.1]
          exact both.2
    | some choice =>
        obtain ⟨index, item⟩ := choice
        have taken : KWayMerge.step file.above left =
            some (item, left.modify index List.tail) := by
          rw [KWayMerge.step, chosen]
          rfl
        obtain ⟨tail, here⟩ := KWayMerge.smallest_first trans ready chosen
        have returned : List.Forall₂ (Reads w' lf chain)
            (runs'.modify index ({ · with valid := false })) (left.modify index List.tail) := by
          apply forall₂_modify reads index fun _ _ both => both.2
          intro run items both chosen
          rw [here] at chosen
          cases chosen
          exact both.2.returned both.1
        have pins : List.Forall₂ KeepsPins runs'
            (runs'.modify index ({ · with valid := false })) := by
          have refl : List.Forall₂ KeepsPins runs' runs' :=
            List.forall₂_same.mpr fun run _ => ⟨rfl, rfl, rfl⟩
          rw [← List.modify_id index runs']
          nth_rewrite 2 [List.modify_id]
          apply forall₂_modify refl index fun _ _ => id
          intro run run' pins _
          exact ⟨pins.name, pins.pins, pins.opens⟩
        refine ⟨{ file with runs := runs'.modify index ({ · with valid := false }) }, w', ?_,
          ⟨opened.keeps_pins pins, ?_⟩, ?_, ?_, rfl⟩
        · rw [KWayMerge.merged_cons trans ready taken]
          rfl
        · rw [KWayMerge.stepped, taken]
          exact returned
        · rw [Rewinds, ← List.modify_id index left]
          apply forall₂_modify reads index
          · intro run items both
            rw [← both.1]
            exact both.2
          · intro run items both _
            rw [← both.1]
            exact both.2
        · rw [← List.modify_id index file.runs]
          apply forall₂_modify used index fun _ _ => id
          intro run run' kept _
          exact ⟨kept.name, kept.marked⟩

def KeepsMarks (lf : FileName → LogicalFile) (chain : FileName → List Int)
    (file file' : SortedFile) : Prop :=
  ∀ marked, List.Forall₂ (Marked lf chain) file.runs marked →
    List.Forall₂ (Marked lf chain) file'.runs marked

theorem keeps_marks_of_used {file' : SortedFile}
    (used : List.Forall₂ (Used lf chain) file.runs file'.runs) : KeepsMarks lf chain file file' := by
  unfold KeepsMarks
  generalize file.runs = runs at used
  generalize file'.runs = runs' at used
  induction used with
  | nil => exact fun _ => id
  | cons first _ ih =>
      intro marked all
      cases all with
      | cons here behind => exact .cons (first.marked _ here) (ih _ behind)

theorem above_same {file' : SortedFile} (same : file' = { file with runs := file'.runs }) :
    file'.above = file.above := by
  rw [same]
  rfl

theorem Merging.next_all (trans : ∀ x y z, before x y → before y z → before x z)
    (merging : Merging w rest others lf chain file left)
    (ready : KWayMerge.Ready file.above before left) (tmpRid : RID) (count : Nat) :
    ∃ file' w', nextAll tmpRid count file w =
        (.ok (answers ((KWayMerge.merged file.above left).map Prod.snd) count, file'), w') ∧
      Merging w' rest others lf chain file' ((KWayMerge.stepped file.above)^[count] left) ∧
      (∀ former, count = former + 1 →
        Rewinds w' lf chain file' ((KWayMerge.stepped file.above)^[former] left)) ∧
      KeepsMarks lf chain file file' ∧ file' = { file with runs := file'.runs } := by
  induction count generalizing w file left with
  | zero =>
      refine ⟨file, w, ?_, merging, fun _ zero => absurd zero (by simp), fun _ => id, rfl⟩
      rw [answers_zero]
      rfl
  | succ count ih =>
      obtain ⟨file₁, w₁, first, merging₁, rewinds₁, used₁, same₁⟩ :=
        merging.next_spec trans ready tmpRid
      have above := above_same same₁
      have ready₁ := ready.stepped trans
      rw [← above] at merging₁ ready₁
      obtain ⟨file₂, w₂, later, merging₂, rewinds₂, marks₂, same₂⟩ := ih merging₁ ready₁
      rw [above] at later merging₂ rewinds₂
      refine ⟨file₂, w₂, ?_, merging₂, ?_, fun marked all => marks₂ _ (keeps_marks_of_used used₁ _ all),
        ?_⟩
      · unfold nextAll
        rw [DbM.bind_ok first]
        dsimp only
        rw [DbM.bind_ok later, answers_succ, KWayMerge.merged_stepped trans ready, List.map_tail]
        rfl
      · rintro former same
        cases same
        cases count with
        | zero =>
            rw [answers_zero] at later
            cases later
            exact rewinds₁
        | succ count => exact rewinds₂ count rfl
      · rw [same₂, same₁]

def runRecords (lf : FileName → LogicalFile) (chain : FileName → List Int) (run : Run) :
    List Record :=
  ((lf run.name).rids (chain run.name)).filterMap (lf run.name).record

/-- The files of the runs: heap files with names of their own that nobody has open. -/
structure RunFiles (w : World) (others : List FilePtr) (lf : FileName → LogicalFile)
    (chain : FileName → List Int) (runs : List Run) : Prop where
  stores : ∀ run ∈ runs, w.Stores run.name (lf run.name) (chain run.name)
  nonempty : ∀ run ∈ runs, run.name ≠ []
  distinct : (runs.map Run.name).Nodup
  apart : ∀ run ∈ runs, ∀ file ∈ others, w.nameOf file ≠ some run.name

theorem RunFiles.tail {runs : List Run} {opens : List FilePtr}
    (files : RunFiles w others lf chain (run :: runs))
    (constructs : Constructs w w' (opens ++ others)) : RunFiles w' others lf chain runs where
  stores := by
    intro other member
    have stored := files.stores other (List.mem_cons_of_mem _ member)
    refine ⟨?_, stored.formed⟩
    rw [constructs.logical]
    exact stored.logical
  nonempty := fun other member => files.nonempty other (List.mem_cons_of_mem _ member)
  distinct := (List.nodup_cons.mp files.distinct).2
  apart := by
    intro other member file inside
    rw [constructs.names file (List.mem_append_right _ inside)]
    exact files.apart other (List.mem_cons_of_mem _ member) file inside

theorem start_scans_keeps (mem : Uninit) (runs : List Run) : KeepsFlag (startScans mem runs) := by
  induction runs with
  | nil => exact keeps_pure _
  | cons run runs ih =>
      unfold startScans
      repeat' first
        | exact keeps_pure _ | exact HeapFileScan.new_keeps _ _ | exact ih
        | apply keeps_bind | intro _ | split

theorem runs_open_more (run : Run) {scan : HeapFileScan} {todo : List RID}
    (opened : w.RunsOpen rest others done)
    (scanAt : w'.ScanAt scan (done.flatMap Run.pins ++ rest) (done.flatMap Run.opens ++ others)
      run.name (lf run.name) (chain run.name) todo)
    (constructs : Constructs w w' (done.flatMap Run.opens ++ others)) (calm : w'.bufFailed = false)
    (inFile : run.inFile = some scan)
    (distinct : ((done ++ [run]).map Run.name).Nodup)
    (apart : ∀ file ∈ others, w.nameOf file ≠ some run.name) :
    w'.RunsOpen rest others (done ++ [run]) := by
  refine ⟨?_, calm, distinct, ?_, ?_, opened.owned⟩
  · have pins : ((done ++ [run]).flatMap Run.pins ++ rest).Perm
        (scan.toHeapFile.pins ++ (done.flatMap Run.pins ++ rest)) := pins_beside_perm inFile
    have opens : ((done ++ [run]).flatMap Run.opens ++ others).Perm
        (scan.filePtr :: (done.flatMap Run.opens ++ others)) := opens_beside_perm inFile
    exact (scanAt.holding.storage.perm pins.symm).perm_opens opens.symm
  · intro other member file inside
    rcases List.mem_append.mp member with earlier | last
    · have listed : file ∈ done.flatMap Run.opens ++ others :=
        List.mem_append_left _ (List.mem_flatMap.mpr ⟨other, earlier, inside⟩)
      rw [constructs.names file listed]
      exact opened.named other earlier file inside
    · rw [List.mem_singleton.mp last] at inside ⊢
      rw [Run.opens_some inFile, List.mem_singleton] at inside
      rw [inside]
      exact scanAt.holding.named
  · intro other member file inside
    rw [constructs.names file (List.mem_append_right _ inside)]
    rcases List.mem_append.mp member with earlier | last
    · exact opened.apart other earlier file inside
    · rw [List.mem_singleton.mp last]
      exact apart file inside

def started (run : Run) (scan : HeapFileScan) : Run :=
  { run with inFile := some { scan with filter := none }, valid := false, rid := ⟨-1, -1⟩ }

/-- A started run has all its records to give, and would have none if it were taken to have
read one. -/
theorem started_reads {scan : HeapFileScan} {pins : List Pin} {opens : List FilePtr}
    (scanAt : w.ScanAt scan pins opens run.name (lf run.name) (chain run.name)
      ((lf run.name).rids (chain run.name))) {items : List RunItem}
    (list : items.map Prod.snd = runRecords lf chain run) :
    Reads w lf chain (started run scan) items ∧
      Reads w lf chain { started run scan with valid := true } [] := by
  have place : Run.Place (lf run.name) (chain run.name) (scan.curPageNo, scan.curRec) ⟨-1, -1⟩
      run.record (runRecords lf chain run) := by
    refine ⟨⟨_, scanAt.stands, ?_, rfl⟩, ?_⟩
    · intro next listed
      exact LogicalFile.mem_rids.mp listed
    · intro lower
      cases lower
  constructor
  · exact ⟨_, runRecords lf chain run, ⟨rfl, rfl, scanAt.holding.named, scanAt.holding.logical,
      scanAt.formed, scanAt.pinned, place⟩, list⟩
  · exact ⟨_, runRecords lf chain run, ⟨rfl, rfl, scanAt.holding.named, scanAt.holding.logical,
      scanAt.formed, scanAt.pinned, place⟩, rfl⟩

theorem start_scans_spec (mem : Uninit) {runs : List Run} {left : List (List RunItem)}
    (opened : w.RunsOpen rest others done)
    (files : RunFiles w others lf chain runs)
    (distinct : ((done ++ runs).map Run.name).Nodup)
    (lists : List.Forall₂ (fun run items => items.map Prod.snd = runRecords lf chain run) runs
      left) :
    Smoothly (startScans mem runs) w fun result w' =>
      result.1 = .OK ∧ w'.RunsOpen rest others (done ++ result.2) ∧
      List.Forall₂ (Reads w' lf chain) result.2 left ∧
      List.Forall₂ (fun run items => Reads w' lf chain { run with valid := true } items) result.2
        (left.map fun _ => []) ∧
      w'.logical = w.logical ∧
      ∀ file ∈ done.flatMap Run.opens ++ others, w'.nameOf file = w.nameOf file := by
  induction runs generalizing w done left with
  | nil =>
      cases lists
      apply smoothly_pure
      refine ⟨rfl, ?_, .nil, .nil, rfl, fun _ _ => rfl⟩
      rw [List.append_nil]
      exact opened
  | cons run runs ih =>
      cases lists with
      | @cons _ items _ left first behind =>
          have stored := files.stores run List.mem_cons_self
          unfold startScans
          apply smoothly_bind
          · intro result
            cases result with
            | error status => exact keeps_pure _
            | ok scan =>
                dsimp only
                split
                · exact keeps_pure _
                · exact keeps_bind (start_scans_keeps mem runs) fun _ => keeps_pure _
          · apply (opened.storage.new_scan stored.logical stored.formed
              (files.nonempty run List.mem_cons_self) mem).mono
            rintro result w₁ ⟨scan, rfl, scanAt, _, _, constructs⟩
            intro flag
            have calm := (keeps_bind (start_scans_keeps mem runs) fun _ => keeps_pure _).early flag
            have joined : (done ++ run :: runs).map Run.name =
                ((done ++ [started run scan]) ++ runs).map Run.name := by simp [started]
            rw [joined] at distinct
            have opened₁ : w₁.RunsOpen rest others (done ++ [started run scan]) := by
              apply runs_open_more (started run scan) opened (scanAt.start none) constructs calm rfl
              · rw [List.map_append] at distinct
                exact (List.nodup_append.mp distinct).1
              · exact files.apart run List.mem_cons_self
            obtain ⟨reads, rewinds⟩ := started_reads scanAt first
            revert flag
            change Smoothly (startScans mem runs >>= fun result =>
              pure (result.1, started run scan :: result.2)) w₁ _
            apply smoothly_bind fun _ => keeps_pure _
            apply (ih opened₁ (files.tail constructs) distinct behind).mono
            rintro ⟨status, runs'⟩ w₂ ⟨ok, opened₂, reads₂, rewinds₂, logical₂, names₂⟩
            have kept : ∀ file ∈ (started run scan).opens, w₂.nameOf file = w₁.nameOf file := by
              intro file inside
              apply names₂
              simp [inside]
            apply smoothly_pure
            refine ⟨ok, ?_, .cons (reads.kept kept logical₂) reads₂,
              .cons (rewinds.kept kept logical₂) rewinds₂, logical₂.trans constructs.logical, ?_⟩
            · rw [List.append_assoc, List.singleton_append] at opened₂
              exact opened₂
            · intro file member
              rw [← constructs.names file member]
              apply names₂
              simp only [List.flatMap_append, List.mem_append] at member ⊢
              tauto

/-- `reccmp` is a total preorder on these records. -/
structure OrdersRecords (file : SortedFile) (present : Set Record) : Prop where
  total : ∀ x ∈ present, ∀ y ∈ present, file.recordcmp x y ≤ 0 ∨ file.recordcmp y x ≤ 0
  transitive : ∀ x ∈ present, ∀ y ∈ present, ∀ z ∈ present,
    file.recordcmp x y ≤ 0 → file.recordcmp y z ≤ 0 → file.recordcmp x z ≤ 0

/-- The records in order; those with equal keys by their runs, and in a run by their places. -/
def ComesBefore (file : SortedFile) (x y : RunItem) : Prop :=
  file.recordcmp x.2 y.2 ≤ 0 ∧
    (file.recordcmp y.2 x.2 ≤ 0 → x.1.1 < y.1.1 ∨ (x.1.1 = y.1.1 ∧ x.1.2 < y.1.2))

def labelled (runs : List (List Record)) : List (List RunItem) :=
  runs.mapIdx fun index records => records.mapIdx fun position record => ((index, position), record)

def InOrder (file : SortedFile) (present : Set Record) (x y : RunItem) : Prop :=
  x.2 ∈ present ∧ y.2 ∈ present ∧ file.ComesBefore x y

theorem OrdersRecords.trans {present : Set Record} (orders : file.OrdersRecords present)
    (x y z : RunItem) (first : file.InOrder present x y) (second : file.InOrder present y z) :
    file.InOrder present x z := by
  obtain ⟨inX, inY, lower, labels⟩ := first
  obtain ⟨_, inZ, lower', labels'⟩ := second
  refine ⟨inX, inZ, orders.transitive _ inX _ inY _ inZ lower lower', ?_⟩
  intro equal
  have first := labels (orders.transitive _ inY _ inZ _ inX lower' equal)
  have second := labels' (orders.transitive _ inZ _ inX _ inY equal lower)
  omega

theorem labels_dropped (index : Nat) (records : List Record) :
    (records.mapIdx fun position record => ((index, position), record)).map Prod.snd = records := by
  apply List.ext_getElem
  · simp
  · simp

theorem mem_labelled {runs : List (List Record)} {index : Nat}
    (bound : index < (labelled runs).length) {x : RunItem} (member : x ∈ (labelled runs)[index]) :
    x.1.1 = index ∧ ∃ records ∈ runs, x.2 ∈ records := by
  simp only [labelled, List.length_mapIdx] at bound
  simp only [labelled, List.getElem_mapIdx] at member
  obtain ⟨position, _, rfl⟩ := List.mem_mapIdx.mp member
  exact ⟨rfl, runs[index], List.getElem_mem bound, List.getElem_mem _⟩

theorem labelled_ready {runs : List (List Record)} {present : Set Record}
    (orders : file.OrdersRecords present) (inside : ∀ records ∈ runs, ∀ x ∈ records, x ∈ present)
    (sorted : ∀ records ∈ runs, records.Pairwise fun x y => file.recordcmp x y ≤ 0) :
    KWayMerge.Ready file.above (file.InOrder present) (labelled runs) := by
  constructor
  · intro list member
    obtain ⟨index, bound, rfl⟩ := List.mem_iff_getElem.mp member
    simp only [labelled, List.length_mapIdx] at bound
    simp only [labelled, List.getElem_mapIdx]
    have listed : runs[index] ∈ runs := List.getElem_mem bound
    rw [List.pairwise_iff_getElem]
    intro i j iBound jBound less
    simp only [List.length_mapIdx] at iBound jBound
    simp only [List.getElem_mapIdx]
    refine ⟨inside _ listed _ (List.getElem_mem iBound), inside _ listed _ (List.getElem_mem jBound),
      ?_, fun _ => .inr ⟨rfl, less⟩⟩
    exact List.pairwise_iff_getElem.mp (sorted _ listed) i j iBound jBound less
  · rw [List.pairwise_iff_getElem]
    intro i j iBound jBound less x inX y inY
    obtain ⟨numberX, recordsX, listedX, insideX⟩ := mem_labelled iBound inX
    obtain ⟨numberY, recordsY, listedY, insideY⟩ := mem_labelled jBound inY
    have presentX := inside _ listedX _ insideX
    have presentY := inside _ listedY _ insideY
    unfold above
    constructor
    · intro lower
      refine ⟨presentX, presentY, by simpa using lower, fun _ => .inl ?_⟩
      rw [numberX, numberY]
      exact less
    · intro larger
      have upper : ¬file.recordcmp x.2 y.2 ≤ 0 := by simpa using larger
      have lower := (orders.total _ presentX _ presentY).resolve_left upper
      exact ⟨presentY, presentX, lower, fun equal => absurd equal upper⟩

def present (lf : FileName → LogicalFile) (chain : FileName → List Int) (runs : List Run) :
    Set Record :=
  {record | ∃ run ∈ runs, record ∈ runRecords lf chain run}

theorem start_merging (storage : w.Storage rest others)
    (files : RunFiles w others lf chain file.runs) (mem : Uninit)
    (calm : (startScans mem file.runs w).2.bufFailed = false) :
    ∃ runs w₀, startScans mem file.runs w = (.ok (.OK, runs), w₀) ∧
      Merging w₀ rest others lf chain { file with runs }
        (labelled (file.runs.map (runRecords lf chain))) ∧
      Rewinds w₀ lf chain { file with runs }
        ((labelled (file.runs.map (runRecords lf chain))).map fun _ => []) := by
  have nothing : w.RunsOpen rest others [] := by
    refine ⟨storage, (start_scans_keeps mem file.runs).early calm, List.nodup_nil, by simp, by simp,
      fun _ => storage.pin_open⟩
  have lists : List.Forall₂ (fun run items => items.map Prod.snd = runRecords lf chain run)
      file.runs (labelled (file.runs.map (runRecords lf chain))) := by
    rw [List.forall₂_iff_get]
    refine ⟨by simp [labelled], ?_⟩
    intro index bound bound'
    simp [labelled, labels_dropped]
  obtain ⟨⟨status, runs⟩, w₀, run, ok, opened, reads, rewinds, _⟩ :=
    start_scans_spec mem nothing files files.distinct lists calm
  dsimp only at ok
  subst ok
  exact ⟨runs, w₀, run, ⟨opened, reads⟩, rewinds⟩

theorem runs_ready {runs : List Run} (orders : file.OrdersRecords (present lf chain runs))
    (sorted : ∀ run ∈ runs, (runRecords lf chain run).Pairwise fun x y => file.recordcmp x y ≤ 0) :
    KWayMerge.Ready file.above (file.InOrder (present lf chain runs))
      (labelled (runs.map (runRecords lf chain))) := by
  apply labelled_ready orders
  · intro records member x inside
    obtain ⟨run, listed, rfl⟩ := List.mem_map.mp member
    exact ⟨run, listed, inside⟩
  · intro records member
    obtain ⟨run, listed, rfl⟩ := List.mem_map.mp member
    exact sorted run listed

/-- The records of the runs come out once each and in order, and then the end. -/
theorem merge_returns_in_order (storage : w.Storage rest others)
    (files : RunFiles w others lf chain file.runs)
    (orders : file.OrdersRecords (present lf chain file.runs))
    (sorted : ∀ run ∈ file.runs,
      (runRecords lf chain run).Pairwise fun x y => file.recordcmp x y ≤ 0)
    (mem : Uninit) (tmpRid : RID) (calm : (startScans mem file.runs w).2.bufFailed = false) :
    ∃ (runs : List Run) (w₀ : World) (output : List RunItem),
      startScans mem file.runs w = (.ok (.OK, runs), w₀) ∧
      output.Perm (labelled (file.runs.map (runRecords lf chain))).flatten ∧
      output.Pairwise file.ComesBefore ∧
      ∀ count, ∃ file' w', nextAll tmpRid count { file with runs } w₀ =
        (.ok (answers (output.map Prod.snd) count, file'), w') := by
  obtain ⟨runs, w₀, started, merging, _⟩ := start_merging storage files mem calm
  have ready := runs_ready orders sorted
  obtain ⟨all, ordered⟩ := KWayMerge.merged_sorts orders.trans ready
  refine ⟨runs, w₀, _, started, all, ordered.imp fun inOrder => inOrder.2.2, ?_⟩
  intro count
  obtain ⟨file', w', run, _⟩ := merging.next_all orders.trans ready tmpRid count
  exact ⟨file', w', run⟩

open HeapSession (zeroMemory)

def sampleTables : List Table := [([115], [[1], [3]]), ([116], [[2]]), ([117], [])]

def sampleFile : SortedFile :=
  { runs := sampleTables.map fun table =>
      { name := table.1, inFile := none, outFile := none, valid := false, record := []
        rid := NULLRID, mark := NULLRID }
    fileName := [114], type := .STRING, offset := 0, length := 1, maxItems := 2 }

def sampleLogical (fileName : FileName) : LogicalFile :=
  tableFile fileName ((sampleTables.lookup fileName).getD [])

theorem sample_storage : (databaseOf 8 sampleTables).Storage [] [] :=
  (database_just_started (by decide) _).storage

theorem sample_files :
    RunFiles (databaseOf 8 sampleTables) [] sampleLogical (fun _ => [2]) sampleFile.runs where
  stores := by
    intro run member
    simp only [sampleFile, sampleTables, List.map_cons, List.map_nil, List.mem_cons,
      List.not_mem_nil, or_false] at member
    rcases member with rfl | rfl | rfl
    · exact database_stores 8 rfl (by decide)
    · exact database_stores 8 rfl (by decide)
    · exact database_stores 8 rfl (by decide)
  nonempty := by decide
  distinct := by decide
  apart := by simp

theorem sample_records : sampleFile.runs.map (runRecords sampleLogical fun _ => [2]) =
    [[[1], [3]], [[2]], []] := by
  decide +kernel

theorem sample_present {record : Record}
    (member : record ∈ present sampleLogical (fun _ => [2]) sampleFile.runs) :
    record ∈ [[1], [3], [2]] := by
  obtain ⟨run, listed, inside⟩ := member
  have records := List.mem_map_of_mem (f := runRecords sampleLogical fun _ => [2]) listed
  rw [sample_records] at records
  simp only [List.mem_cons, List.not_mem_nil, or_false] at records ⊢
  rcases records with same | same | same <;> rw [same] at inside <;> simp at inside <;> tauto

theorem sample_orders :
    sampleFile.OrdersRecords (present sampleLogical (fun _ => [2]) sampleFile.runs) where
  total := by
    have checked : ∀ x ∈ [[1], [3], [2]], ∀ y ∈ [[1], [3], [2]],
        sampleFile.recordcmp x y ≤ 0 ∨ sampleFile.recordcmp y x ≤ 0 := by decide
    exact fun x inX y inY => checked x (sample_present inX) y (sample_present inY)
  transitive := by
    have checked : ∀ x ∈ [[1], [3], [2]], ∀ y ∈ [[1], [3], [2]], ∀ z ∈ [[1], [3], [2]],
        sampleFile.recordcmp x y ≤ 0 → sampleFile.recordcmp y z ≤ 0 →
          sampleFile.recordcmp x z ≤ 0 := by decide
    exact fun x inX y inY z inZ =>
      checked x (sample_present inX) y (sample_present inY) z (sample_present inZ)

theorem sample_sorted : ∀ run ∈ sampleFile.runs,
    (runRecords sampleLogical (fun _ => [2]) run).Pairwise
      fun x y => sampleFile.recordcmp x y ≤ 0 := by
  intro run listed
  have records := List.mem_map_of_mem (f := runRecords sampleLogical fun _ => [2]) listed
  rw [sample_records] at records
  have checked : ∀ records ∈ [[[1], [3]], [[2]], []],
      records.Pairwise fun x y => sampleFile.recordcmp x y ≤ 0 := by decide
  exact checked _ records

theorem sample_calm :
    (startScans zeroMemory sampleFile.runs (databaseOf 8 sampleTables)).2.bufFailed = false := by
  decide +kernel

/-- The three records of three runs. -/
theorem merge_returns_three_records :
    ∃ (runs : List Run) (w₀ : World) (output : List RunItem),
      startScans zeroMemory sampleFile.runs (databaseOf 8 sampleTables) = (.ok (.OK, runs), w₀) ∧
      output.Perm [((0, 0), [1]), ((0, 1), [3]), ((1, 0), [2])] ∧
      output.Pairwise sampleFile.ComesBefore ∧
      ∀ count, ∃ file' w', nextAll NULLRID count { sampleFile with runs } w₀ =
        (.ok (answers (output.map Prod.snd) count, file'), w') := by
  have merged := merge_returns_in_order sample_storage sample_files sample_orders sample_sorted
    zeroMemory NULLRID sample_calm
  rw [sample_records] at merged
  exact merged

end SortedFile

end PrimitiveDB

import PrimitiveDB.GrowingSources

/-!
# The scan-and-insert loops on growing relations

`emitLoop` and `outerLoop` run as the loops of `GrowingSources` say, whether the result is one
of the relations that they scan or not.
-/

namespace PrimitiveDB

open World DbM ByteMemory ScanFilter

set_option autoImplicit false

namespace DbM

variable {α β : Type}

structure Ends (call : DbM α) (w : World) (post : Outcome α → World → Prop) : Prop where
  holds : (call w).2.bufFailed = false → post (call w).1 (call w).2

theorem Smoothly.ends {call : DbM α} {w : World} {post : α → World → Prop}
    {post' : Outcome α → World → Prop} (smooth : Smoothly call w post)
    (implies : ∀ value w', post value w' → post' (.ok value) w') : Ends call w post' := by
  constructor
  intro flag
  obtain ⟨value, w', run, holds⟩ := smooth flag
  rw [run]
  exact implies value w' holds

theorem Ends.mono {call : DbM α} {w : World} {post post' : Outcome α → World → Prop}
    (ends : Ends call w post) (implies : ∀ outcome w', post outcome w' → post' outcome w') :
    Ends call w post' := ⟨fun flag => implies _ _ (ends.holds flag)⟩

theorem ends_pure {value : α} {w : World} {post : Outcome α → World → Prop}
    (holds : post (.ok value) w) : Ends (pure value : DbM α) w post := ⟨fun _ => holds⟩

theorem ends_crash {w : World} {post : Outcome α → World → Prop} (holds : post .crash w) :
    Ends (crash : DbM α) w post := ⟨fun _ => holds⟩

/-- What a call that goes on does behind a first one that may not. -/
theorem ends_bind {first : DbM α} {next : α → DbM β} {w : World}
    {post : Outcome β → World → Prop} (keeps : ∀ value, KeepsFlag (next value))
    (ends : Ends first w fun outcome w' =>
      match outcome with
      | .ok value => Ends (next value) w' post
      | .err status => post (.err status) w'
      | .crash => post .crash w') : Ends (first >>= next) w post := by
  constructor
  intro flag
  replace ends := ends.holds
  rw [bind_apply] at flag ⊢
  rcases run : first w with ⟨value | status | _, w'⟩
  · rw [run] at flag ends
    have early : w'.bufFailed = false := (keeps value).early flag
    exact (ends early).holds flag
  · rw [run] at flag ends
    exact ends flag
  · rw [run] at flag ends
    exact ends flag

theorem ends_bind_smooth {first : DbM α} {next : α → DbM β} {w : World}
    {post : Outcome β → World → Prop} (keeps : ∀ value, KeepsFlag (next value))
    (smooth : Smoothly first w fun value w' => Ends (next value) w' post) :
    Ends (first >>= next) w post :=
  ends_bind keeps (smooth.ends fun _ _ => id)

theorem ends_bind_eq {first : DbM α} {next : α → DbM β} {w w' : World} {value : α}
    {post : Outcome β → World → Prop} (run : first w = (.ok value, w'))
    (ends : Ends (next value) w' post) : Ends (first >>= next) w post := by
  constructor
  rw [bind_ok run]
  exact ends.holds

end DbM

def HeapFileScan.place (scan : HeapFileScan) : RID :=
  { pageNo := scan.curPageNo, slotNo := scan.curRec.slotNo }

inductive Source.Is {headerNo : Int} : Source headerNo → FileName → FileName → Int → LogicalFile →
    List Int → LogicalFile → List Int → Prop
  | result (fileName : FileName) (out : LogicalFile) (outChain : List Int) :
      Is .result fileName fileName headerNo out outChain out outChain
  | other {otherNo : Int} (unchanged : HeapState otherNo) {relation result : FileName}
      (different : relation ≠ result) (out : LogicalFile) (outChain : List Int) :
      Is (.other unchanged) relation result otherNo unchanged.file unchanged.chain out outChain

inductive Source.Held {headerNo : Int} (w : World) (result : FileName) :
    Source headerNo → FileName → Prop
  | result : Held w result .result result
  | other {otherNo : Int} (unchanged : HeapState otherNo) {relation : FileName}
      (different : relation ≠ result) (logical : w.logical relation = some unchanged.file)
      (first : unchanged.file.firstPage = otherNo) : Held w result (.other unchanged) relation

theorem Source.Held.same {headerNo : Int} {w w' : World} {source : Source headerNo}
    {relation result : FileName} (held : source.Held w result relation)
    (logical : w'.logical = w.logical) : source.Held w' result relation := by
  cases held with
  | result => exact .result
  | other unchanged different stored first =>
      exact .other unchanged different (logical ▸ stored) first

theorem Source.Held.touched {headerNo : Int} {w w' : World} {source : Source headerNo}
    {relation result : FileName} {out' : LogicalFile} (held : source.Held w result relation)
    (logical : w'.logical = Function.update w.logical result (some out')) :
    source.Held w' result relation := by
  cases held with
  | result => exact .result
  | other unchanged different stored first =>
      apply Source.Held.other unchanged different _ first
      rw [logical, Function.update_of_ne different, stored]

namespace LogicalFile

variable {file left right : LogicalFile} {headerNo : Int} {chain : List Int}
  {filter : Option ScanFilter}

theorem Alike.front (alike : left.Alike right headerNo chain) (place : RID) :
    left.front chain place = right.front chain place := by
  have same : left.rids chain = right.rids chain := by
    apply rids_congr (fun _ => id) fun _ => id
    intro pageNo _ number
    rw [alike.contents]
  rw [LogicalFile.front, LogicalFile.front, same]

theorem Alike.first_page (alike : left.Alike right headerNo chain) :
    (left.header headerNo).firstPage = (right.header headerNo).firstPage :=
  Option.some.inj (alike.formedLeft.first.symm.trans alike.formedRight.first)

theorem Alike.found (alike : left.Alike right headerNo chain) (filter : Option ScanFilter)
    (place : RID) :
    left.found filter (left.front chain place) = right.found filter (right.front chain place) := by
  rw [← alike.front]
  apply List.filterMap_congr
  intro rid inFront
  have member := (contents_some.mp (mem_front.mp inFront).1).1
  rw [← record_of_contents member, ← record_of_contents member, alike.contents]

theorem found_refused {skipped : List RID}
    (others : ∀ rid ∈ skipped, file.wanted filter rid = false) :
    file.found filter skipped = [] := by
  apply List.filterMap_eq_nil_iff.mpr
  intro rid member
  have refused := others rid member
  unfold wanted at refused
  cases held : file.record rid with
  | none => rfl
  | some rec =>
      rw [held] at refused
      simp [Option.filter, refused]

theorem found_sought_nil {todo : List RID} (sought : file.sought filter todo = []) :
    file.found filter todo = [] := by
  obtain ⟨skipped, split, others⟩ :
      ∃ skipped, todo = skipped ++ file.sought filter todo ∧
        ∀ rid ∈ skipped, file.wanted filter rid = false := sought_split todo
  rw [sought, List.append_nil] at split
  rw [split, found_refused others]

theorem found_sought_cons {todo later : List RID} {rid : RID}
    (sought : file.sought filter todo = rid :: later) :
    ∃ rec, file.record rid = some rec ∧
      file.found filter todo = (rid, rec) :: file.found filter later := by
  obtain ⟨skipped, split, others⟩ :
      ∃ skipped, todo = skipped ++ file.sought filter todo ∧
        ∀ rid ∈ skipped, file.wanted filter rid = false := sought_split todo
  have accepted := wanted_of_sought sought
  unfold wanted at accepted
  cases held : file.record rid with
  | none =>
      rw [held] at accepted
      cases accepted
  | some rec =>
      rw [held] at accepted
      refine ⟨rec, rfl, ?_⟩
      have nothing := found_refused others
      rw [sought] at split
      unfold found at nothing ⊢
      rw [split, List.filterMap_append, nothing, List.nil_append, List.filterMap_cons]
      simp [held, Option.filter, accepted]

end LogicalFile

namespace World

variable {w w' : World} {rest : List Pin} {others : List FilePtr} {relation result : FileName}
  {headerNo : Int} {source : Source headerNo} {state state' : HeapState headerNo}
  {out out' : LogicalFile} {scan : HeapFileScan} {resultRel resultRel' : InsertFileScan}

/-- An inserter at the end of the result, which is as the state says. -/
structure Grows (w : World) (resultRel : InsertFileScan) (rest : List Pin) (others : List FilePtr)
    (result : FileName) (state : HeapState headerNo) (out : LogicalFile) : Prop where
  insertsAt : w.InsertsAt resultRel rest others result out state.chain
  atEnd : InsertFileScan.AtEnd resultRel out
  first : out.firstPage = resultRel.headerPageNo
  header : resultRel.headerPageNo = headerNo
  alike : out.Alike state.file headerNo state.chain

/-- A scan of a source, and an inserter at the end of the result. -/
structure Feeds (w : World) (scan : HeapFileScan) (resultRel : InsertFileScan) (rest : List Pin)
    (others : List FilePtr) (relation result : FileName) (source : Source headerNo)
    (state : HeapState headerNo) (out : LogicalFile) : Prop where
  emits : ∃ lf chain todo, w.Emits scan resultRel rest others relation lf chain todo result out
      state.chain ∧ source.Is relation result scan.headerPageNo lf chain out state.chain
  alike : out.Alike state.file headerNo state.chain
  header : resultRel.headerPageNo = headerNo

theorem Feeds.grows
    (feeds : w.Feeds scan resultRel rest others relation result source state out) :
    w.Grows resultRel (scan.toHeapFile.pins ++ rest) (scan.filePtr :: others) result state
      out := by
  obtain ⟨_, _, _, emits, _⟩ := feeds.emits
  exact ⟨emits.insertsAt, emits.atEnd, emits.first, feeds.header, feeds.alike⟩

theorem Feeds.ahead {lf : LogicalFile} {chain : List Int} {todo : List RID}
    (feeds : w.Feeds scan resultRel rest others relation result source state out)
    (emits : w.Emits scan resultRel rest others relation lf chain todo result out state.chain)
    (is : source.Is relation result scan.headerPageNo lf chain out state.chain)
    (filter : Option ScanFilter) :
    lf.found filter todo = source.ahead state filter scan.place := by
  have front := emits.scanAt.stands.eq_front emits.scanAt.formed.nodup
  cases is with
  | result _ _ _ =>
      rw [front]
      exact feeds.alike.found filter _
  | other unchanged different _ _ =>
      rw [front]
      rfl

/-- The inserter has gone on, also in the file that the scan reads. -/
theorem Feeds.resume
    (feeds : w.Feeds scan resultRel rest others relation result source state out)
    (named : w'.nameOf scan.filePtr = w.nameOf scan.filePtr)
    (logical : w'.logical = Function.update w.logical result (some out'))
    (grows : w'.Grows resultRel' (scan.toHeapFile.pins ++ rest) (scan.filePtr :: others) result
      state' out')
    (pages : state.chain <+: state'.chain) :
    w'.Feeds scan resultRel' rest others relation result source state' out' := by
  obtain ⟨insertsAt, atEnd, first, header, alike⟩ := grows
  obtain ⟨lf, chain, todo, emits, is⟩ := feeds.emits
  refine ⟨?_, alike, header⟩
  have same : w'.nameOf scan.filePtr = some relation :=
    named.trans emits.scanAt.holding.named
  generalize scanHeader : scan.headerPageNo = scanHeaderNo at is
  cases is with
  | result _ _ _ =>
      obtain ⟨pageRest, start, suffix, slot, _⟩ := emits.scanAt.stands
      have member : scan.curPageNo ∈ state.chain := suffix.subset (by simp)
      refine ⟨out', state'.chain, out'.front state'.chain scan.place,
        ⟨⟨?_, ?_, emits.scanAt.pinned, ?_⟩, insertsAt, atEnd, first⟩, ?_⟩
      · apply Holding.beside insertsAt.holding same
        rw [logical, Function.update_self]
      · rw [scanHeader]
        exact alike.formedLeft
      · exact LogicalFile.stands_front alike.formedLeft.nodup (pages.subset member) (by omega)
      · exact .result _ _ _
  | other unchanged different _ _ =>
      refine ⟨unchanged.file, unchanged.chain, todo, ?_, ?_⟩
      · apply emits.resume named _ insertsAt atEnd first
        rw [logical, Function.update_of_ne different]
      · exact .other unchanged different _ _

theorem Feeds.scan_next
    (feeds : w.Feeds scan resultRel rest others relation result source state out) (tmpRid : RID) :
    Smoothly (scan.scanNext tmpRid) w fun ends w' => SameLogical w w' ∧
      ends.2.filter = scan.filter ∧ ends.2.filePtr = scan.filePtr ∧
      w'.Feeds ends.2 resultRel rest others relation result source state out ∧
      ((ends.1 = .error .FILEEOF ∧ source.ahead state scan.filter scan.place = []) ∨
        ∃ rid rec later, ends.1 = .ok rid ∧ ends.2.place = rid ∧
          source.ahead state scan.filter scan.place = (rid, rec) :: later ∧
          ends.2.current w' = (.ok (.ok rec), w')) := by
  obtain ⟨lf, chain, todo, emits, is⟩ := feeds.emits
  have ahead := feeds.ahead emits is scan.filter
  apply (emits.scanAt.scan_next tmpRid).mono
  rintro ⟨ends, scan₁⟩ w₁ ⟨same, file, headerNo, filter, outcome⟩
  dsimp only at file headerNo filter outcome
  refine ⟨same, filter, file, ?_⟩
  cases sought : lf.sought scan.filter todo with
  | nil =>
      rw [sought] at outcome
      obtain ⟨rfl, scanAt₁⟩ := outcome
      refine ⟨⟨⟨lf, chain, [], emits.scanned same scanAt₁, ?_⟩, feeds.alike, feeds.header⟩,
        .inl ⟨rfl, ?_⟩⟩
      · rw [headerNo]
        exact is
      · rw [← ahead, LogicalFile.found_sought_nil sought]
  | cons rid later =>
      rw [sought] at outcome
      obtain ⟨rfl, curRec, curNo, scanAt₁⟩ := outcome
      obtain ⟨rec, held, found⟩ := LogicalFile.found_sought_cons sought
      refine ⟨⟨⟨lf, chain, later, emits.scanned same scanAt₁, ?_⟩, feeds.alike, feeds.header⟩,
        .inr ⟨rid, rec, lf.found scan.filter later, rfl, ?_, ?_, ?_⟩⟩
      · rw [headerNo]
        exact is
      · unfold HeapFileScan.place
        rw [curNo, curRec]
      · rw [← ahead, found]
      · apply scanAt₁.current
        · rw [curNo, curRec]
        · rw [curRec]
          have listed : rid ∈ lf.rids chain := by
            apply emits.scanAt.stands.sublist.subset
            have suffix : lf.sought scan.filter todo <:+ todo := List.dropWhile_suffix _
            apply suffix.subset
            rw [sought]
            simp
          rw [LogicalFile.record_of_contents
            (LogicalFile.contents_some.mp (LogicalFile.mem_rids.mp listed)).1]
          exact held

/-- Two chains that an insertion may lead to are told apart by their length. -/
theorem grown_chain_unique {chain chain' chain'' : List Int} {pageNo : Int}
    (first : chain' = chain ∨ chain' = chain ++ [pageNo])
    (second : chain'' = chain ∨ chain'' = chain ++ [pageNo])
    (length : chain'.length = chain''.length) : chain' = chain'' := by
  rcases first with rfl | rfl <;> rcases second with rfl | rfl
  · rfl
  · simp at length
  · simp at length
  · rfl

theorem Feeds.insert_output
    (feeds : w.Feeds scan resultRel rest others relation result source state out)
    {rec : Record} (nonempty : 1 ≤ rec.length) (fits : rec.length + SLOTSIZE ≤ DATASIZE) :
    Smoothly (insertOutput resultRel rec) w fun resultRel' w' => ∃ out',
      w'.Feeds scan resultRel' rest others relation result source (state.insert rec nonempty)
        out' ∧ Touches w w' result out' ∧
      out.Appended out' headerNo state.chain (state.insert rec nonempty).chain [rec] := by
  obtain ⟨lf, chain, todo, emits, is⟩ := feeds.emits
  have insertsAt := emits.insertsAt
  unfold insertOutput
  apply smoothly_bind
  · intro ends
    repeat' first
      | exact keeps_pure _ | exact keeps_crash | split
  apply (insertsAt.insert_record nonempty (.inr emits.atEnd)).mono
  rintro ⟨ends, resultRel'⟩ w' ⟨out', outChain', insertsAt', sameHeader, _, touches, computed,
    inserted⟩
  obtain ⟨rid, rfl⟩ := inserted.accepts fits
  dsimp only at sameHeader insertsAt' computed inserted
  have atEnd : (out.header resultRel.headerPageNo).lastPage = resultRel.curPageNo := emits.atEnd
  obtain ⟨image, computed⟩ := computed (by omega)
  have header := feeds.header
  rw [header] at atEnd sameHeader computed inserted
  -- the state has taken the record alike
  obtain ⟨rid', left', right', curNo, computedLeft, computedRight, alike⟩ :=
    feeds.alike.insert nonempty fits image
  rw [atEnd, computed] at computedLeft
  cases computedLeft
  have stateFile : (state.insert rec nonempty).file = right' := by
    change (state.file.insertLast headerNo rec).2.1 = right'
    rw [computedRight]
  have stateChain : (state.insert rec nonempty).chain =
      state.file.grownChain headerNo state.chain resultRel'.curPageNo := by
    change state.file.grownChain headerNo state.chain (state.file.insertLast headerNo rec).2.2 = _
    rw [computedRight]
  have chains : outChain' = (state.insert rec nonempty).chain := by
    apply grown_chain_unique inserted.pages
    · rw [stateChain, LogicalFile.grownChain, feeds.alike.size]
      split_ifs
      · exact .inl rfl
      · exact .inr rfl
    · have countActual := inserted.formed.pageCnt
      have countState := alike.formedLeft.pageCnt
      rw [← stateChain, countActual] at countState
      exact_mod_cast countState
  subst chains
  have alike' : out'.Alike (state.insert rec nonempty).file headerNo
      (state.insert rec nonempty).chain := by
    rw [stateFile, stateChain]
    exact alike
  apply smoothly_pure
  refine ⟨out', ?_, touches, inserted.appended (header ▸ insertsAt.formed) atEnd⟩
  have atEnd' : InsertFileScan.AtEnd resultRel' out' := by
    unfold InsertFileScan.AtEnd
    rw [sameHeader]
    exact inserted.atEnd atEnd
  have first' : out'.firstPage = resultRel'.headerPageNo := by
    rw [sameHeader]
    exact inserted.first (emits.first.trans header)
  exact feeds.resume (touches.names _) touches.logical
    ⟨insertsAt', atEnd', first', sameHeader, alike'⟩ (state.insert_extends nonempty fits).pages

/-- A scan of a source is opened next to the inserter; everything lies in front of it. -/
theorem Grows.open_scan (grows : w.Grows resultRel rest others result state out)
    (held : source.Held w result relation) (nonempty : relation ≠ []) (mem : Uninit) :
    Smoothly (HeapFileScan.new mem relation) w fun ends w' => ∃ scan, ends = .ok scan ∧
      (∀ filter, w'.Feeds { scan with filter := filter } resultRel rest others relation result
        source state out) ∧
      (∀ filter, source.ahead state filter scan.place =
        source.ahead state filter (source.start state)) ∧
      w'.logical = w.logical ∧
      ∀ file ∈ resultRel.filePtr :: others, w'.nameOf file = w.nameOf file := by
  have firstPage : out.firstPage = headerNo := grows.first.trans grows.header
  have stored : ∃ lf chain, w.Stores relation lf chain ∧
      source.Is relation result lf.firstPage lf chain out state.chain ∧
      ∀ filter, lf.found filter (lf.rids chain) =
        source.ahead state filter (source.start state) := by
    cases held with
    | result =>
        have everything : out.rids state.chain = out.front state.chain state.start := by
          rw [HeapState.start, ← grows.alike.first_page, grows.alike.formedLeft.front_first]
        refine ⟨out, state.chain, ⟨grows.insertsAt.holding.logical, ?_⟩, ?_, ?_⟩
        · rw [firstPage]
          exact grows.alike.formedLeft
        · rw [firstPage]
          exact .result _ _ _
        · intro filter
          rw [everything]
          exact grows.alike.found filter _
    | other unchanged different logical first =>
        refine ⟨unchanged.file, unchanged.chain, ⟨logical, ?_⟩, ?_, ?_⟩
        · rw [first]
          exact unchanged.formed
        · rw [first]
          exact .other unchanged different _ _
        · intro filter
          exact (unchanged.ahead_start filter).symm
  obtain ⟨lf, chain, stores, is, everything⟩ := stored
  apply (grows.insertsAt.open_scan grows.atEnd grows.first stores nonempty mem).mono
  rintro ends w₁ ⟨scan, rfl, emits, logical, names, scanHeader⟩
  rw [← scanHeader] at is
  have feeds : ∀ filter, w₁.Feeds { scan with filter := filter } resultRel rest others relation
      result source state out := fun filter =>
    ⟨⟨lf, chain, _, emits.start filter, is⟩, grows.alike, grows.header⟩
  refine ⟨scan, rfl, feeds, ?_, logical, names⟩
  intro filter
  rw [← everything filter]
  exact ((feeds filter).ahead (emits.start filter) is filter).symm

/-- The bound on the rounds of a loop leaves room for everything in front of the scan. -/
theorem Feeds.search_fuel
    (feeds : w.Feeds scan resultRel rest others relation result source state out) :
    ∃ fuel, AttrCatalog.searchFuel scan w = (.ok fuel, w) ∧
      ∀ filter place, (source.ahead state filter place).length < fuel := by
  obtain ⟨lf, chain, todo, emits, is⟩ := feeds.emits
  refine ⟨lf.size * 40000, emits.scanAt.search_fuel, ?_⟩
  intro filter place
  cases is with
  | result _ _ _ =>
      rw [feeds.alike.size]
      exact state.ahead_lt filter place
  | other unchanged _ _ _ => exact unchanged.ahead_lt filter place

theorem Feeds.join_fuel {innerRel : FileName} {lfInner : LogicalFile} {innerChain : List Int}
    {inner : Source headerNo} {filterOf : Record → Option ScanFilter}
    (feeds : w.Feeds scan resultRel rest others relation result source state out)
    (held : inner.Held w result innerRel) (stores : w.Stores innerRel lfInner innerChain) :
    ∃ fuel, DbM.read (joinFuel · scan.filePtr innerRel) w = (.ok fuel, w) ∧
      ∀ place, (source.ahead state none place).length +
        (outerPairs source inner filterOf state place).length < fuel := by
  obtain ⟨lf, chain, todo, emits, is⟩ := feeds.emits
  refine ⟨_, emits.scanAt.join_fuel stores, ?_⟩
  intro place
  have outerBound : (source.ahead state none place).length < lf.size * 40000 := by
    cases is with
    | result _ _ _ =>
        rw [feeds.alike.size]
        exact state.ahead_lt none place
    | other unchanged _ _ _ => exact unchanged.ahead_lt none place
  have innerBound : ∀ filter, (inner.ahead state filter (inner.start state)).length ≤
      lfInner.size * 40000 := by
    intro filter
    cases held with
    | result =>
        have same := Option.some.inj (stores.logical.symm.trans
          feeds.grows.insertsAt.holding.logical)
        rw [same, feeds.alike.size]
        exact Nat.le_of_lt (state.ahead_lt filter _)
    | other unchanged _ logical _ =>
        have same := Option.some.inj (stores.logical.symm.trans logical)
        rw [same]
        exact Nat.le_of_lt (unchanged.ahead_lt filter _)
  have pairs : (outerPairs source inner filterOf state place).length ≤ _ :=
    outer_pairs_length_le innerBound
  calc (source.ahead state none place).length +
        (outerPairs source inner filterOf state place).length
      ≤ (source.ahead state none place).length * (lfInner.size * 40000 + 1) := by
        rw [Nat.mul_succ]
        omega
    _ < lf.size * 40000 * (lfInner.size * 40000 + 1) :=
        Nat.mul_lt_mul_of_pos_right outerBound (Nat.succ_pos _)

theorem Feeds.delete_scan
    (feeds : w.Feeds scan resultRel rest others relation result source state out)
    (owned : ∀ pin ∈ rest, pin.file ∈ others) :
    ∃ w', scan.delete w = (.ok (), w') ∧ w'.Grows resultRel rest others result state out ∧
      w'.logical = w.logical ∧
      ∀ file ∈ resultRel.filePtr :: others, w'.nameOf file = w.nameOf file := by
  obtain ⟨_, _, _, emits, _⟩ := feeds.emits
  obtain ⟨w', deleted, insertsAt, logical, names⟩ := emits.delete_scan owned
  exact ⟨w', deleted, ⟨insertsAt, emits.atEnd, emits.first, feeds.header, feeds.alike⟩, logical,
    names⟩

end World

theorem copy_attrs_crash {side : AttrDesc → Record} {attrs : List AttrDesc}
    (outside : ¬∀ attr ∈ attrs, attr.Fits (side attr)) (w : World) :
    copyAttrs side attrs w = (.crash, w) := by
  induction attrs with
  | nil => exact absurd (by simp) outside
  | cons attr attrs ih =>
      rw [copyAttrs, bind_apply]
      by_cases here : attr.Fits (side attr)
      · have copied : copyAttr (side attr) attr w = (.ok (attr.bytes (side attr)), w) := by
          unfold AttrDesc.Fits at here
          unfold copyAttr
          rw [if_pos here]
          rfl
        have later : ¬∀ other ∈ attrs, other.Fits (side other) := fun all =>
          outside (List.forall_mem_cons.mpr ⟨here, all⟩)
        rw [copied]
        dsimp only
        rw [bind_apply, ih later]
      · have stopped : copyAttr (side attr) attr w = (.crash, w) := by
          unfold AttrDesc.Fits at here
          unfold copyAttr
          rw [if_neg here]
          rfl
        rw [stopped]

section EmitLoop

variable {rest : List Pin} {others : List FilePtr} {relation result : FileName} {headerNo : Int}
  {source : Source headerNo} {attrs : List AttrDesc} {side : Record → AttrDesc → Record}

/-- How `emitLoop` ends: it has run as the abstract loop does, or it has crashed and the abstract
loop does not come to an end within that many rounds. -/
inductive EmitEnds (w : World) (rest : List Pin) (others : List FilePtr)
    (relation result : FileName) (source : Source headerNo) (attrs : List AttrDesc)
    (side : Record → AttrDesc → Record) (fuel : Nat) (scan : HeapFileScan)
    (state : HeapState headerNo) (out : LogicalFile) :
    Outcome (HeapFileScan × InsertFileScan) → World → Prop
  | ended {ends : HeapFileScan × InsertFileScan} {w' : World} {recs : List Record}
      {state' : HeapState headerNo} {out' : LogicalFile}
      (run : (emitFeed attrs source scan.filter side).Runs state scan.place recs state')
      (feeds : w'.Feeds ends.1 ends.2 rest others relation result source state' out')
      (touches : Touches w w' result out')
      (appended : out.Appended out' headerNo state.chain state'.chain
        (recs.map fun rec => projected (side rec) attrs))
      (extends_ : state.file.Extends state'.file state.chain state'.chain) :
      EmitEnds w rest others relation result source attrs side fuel scan state out (.ok ends) w'
  | crashed {w' : World} (longer : ∀ recs state',
        (emitFeed attrs source scan.filter side).Runs state scan.place recs state' →
        fuel ≤ recs.length) :
      EmitEnds w rest others relation result source attrs side fuel scan state out .crash w'

/-- A tuple that has no projection, or none that a page can hold, ends the loop for good. -/
theorem emit_stuck {state : HeapState headerNo} {filter : Option ScanFilter} {place rid : RID}
    {rec : Record} {later : List (RID × Record)}
    (next : source.ahead state filter place = (rid, rec) :: later)
    (stuck : ¬Projects attrs (side rec)) {fuel : Nat} :
    ∀ recs state', (emitFeed attrs source filter side).Runs state place recs state' →
      fuel ≤ recs.length := by
  intro recs state' run
  cases run with
  | stop done => cases next.symm.trans done
  | step here absorbed _ =>
      cases next.symm.trans here
      have emitted : state.emit attrs (side rec) = some _ := absorbed
      rw [HeapState.emit, dif_neg stuck] at emitted
      cases emitted

theorem World.Feeds.emit_loop (fuel : Nat) {w : World} {scan : HeapFileScan}
    {resultRel : InsertFileScan} {state : HeapState headerNo} {out : LogicalFile}
    (feeds : w.Feeds scan resultRel rest others relation result source state out) (tmpRid : RID)
    (wide : ∀ side, (∀ attr ∈ attrs, attr.Fits (side attr)) → 1 ≤ (projected side attrs).length) :
    Ends (emitLoop tmpRid attrs side fuel scan resultRel) w
      (EmitEnds w rest others relation result source attrs side fuel scan state out) := by
  induction fuel generalizing w scan resultRel state out with
  | zero => exact ends_crash (.crashed fun _ _ _ => Nat.zero_le _)
  | succ fuel ih =>
      unfold emitLoop
      apply ends_bind_smooth
      · intro ends
        repeat' first
          | exact keeps_pure _ | exact current_record_keeps _ | exact copy_attrs_keeps _ _
          | exact insert_output_keeps _ _ | exact emit_loop_keeps _ _ _ _ _ _
          | apply keeps_bind | intro _ | split
      apply (feeds.scan_next tmpRid).mono
      rintro ⟨ends, scan₁⟩ w₁ ⟨same, filter, _, feeds₁, outcome⟩
      dsimp only at filter feeds₁ outcome
      have touches₁ := same.touches feeds.grows.insertsAt.holding.logical
      rcases outcome with ⟨rfl, nothing⟩ | ⟨rid, rec, later, rfl, place, next, current⟩
      · exact ends_pure (.ended (.stop nothing) feeds₁ touches₁ (.refl _ _ _) (.refl _ _))
      have tuple : currentRecord scan₁ w₁ = (.ok rec, w₁) := by
        unfold currentRecord
        rw [bind_ok current]
        rfl
      dsimp only
      apply ends_bind_eq tuple
      by_cases fits : ∀ attr ∈ attrs, attr.Fits (side rec attr)
      · apply ends_bind_eq (copy_attrs_eq (side rec) attrs fits w₁)
        have positive := wide (side rec) fits
        by_cases room : (projected (side rec) attrs).length + SLOTSIZE ≤ DATASIZE
        · have projects : Projects attrs (side rec) := ⟨fits, positive, room⟩
          have emitted : state.emit attrs (side rec) =
              some (state.insert (projected (side rec) attrs) positive) := by
            rw [HeapState.emit, dif_pos projects]
          apply ends_bind_smooth
          · intro resultRel₁
            exact emit_loop_keeps _ _ _ _ _ _
          apply (feeds₁.insert_output positive room).mono
          rintro resultRel₁ w₂ ⟨out₁, feeds₂, touches₂, appended⟩
          apply (ih feeds₂).mono
          intro outcome w₃ ended
          have moved : ∀ {recs : List Record} {state' : HeapState headerNo},
              (emitFeed attrs source scan₁.filter side).Runs (state.insert _ positive) scan₁.place
                recs state' →
              (emitFeed attrs source scan.filter side).Runs state scan.place (rec :: recs)
                state' := by
            intro recs state' run
            rw [filter, place] at run
            exact .step next emitted run
          cases ended with
          | ended run feeds₃ touches₃ appended₃ extends₃ =>
              apply EmitEnds.ended (moved run) feeds₃ ((touches₁.trans touches₂).trans touches₃) _
                ((state.insert_extends positive room).trans extends₃)
              rw [List.map_cons]
              exact appended.trans appended₃
          | crashed longer =>
              apply EmitEnds.crashed
              intro recs state' run
              cases run with
              | stop done => cases next.symm.trans done
              | step here absorbed behind =>
                  cases next.symm.trans here
                  cases emitted.symm.trans absorbed
                  rw [← filter, ← place] at behind
                  exact Nat.succ_le_succ (longer _ _ behind)
        · apply ends_bind
          · intro resultRel₁
            exact emit_loop_keeps _ _ _ _ _ _
          constructor
          intro flag
          have long : 1000 < (projected (side rec) attrs).length := by
            have limit : SLOTSIZE = 4 ∧ DATASIZE = 1004 := ⟨rfl, rfl⟩
            omega
          rw [(feeds₁.grows.insertsAt.insert_output_crashes_iff _ flag).mpr long]
          exact .crashed (emit_stuck next fun projects => room projects.room)
      · apply ends_bind
        · intro outputRec
          exact keeps_bind (insert_output_keeps _ _) fun _ => emit_loop_keeps _ _ _ _ _ _
        constructor
        intro _
        rw [copy_attrs_crash fits]
        exact .crashed (emit_stuck next fun projects => fits projects.fits)

end EmitLoop

section JoinLoops

variable {w : World} {rest : List Pin} {others : List FilePtr} {relation innerRel result : FileName}
  {headerNo : Int} {outer inner : Source headerNo} {attrs : List AttrDesc}
  {attr1 attr2 : AttrDesc} {type : Datatype} {op : Operator} {outerScan : HeapFileScan}
  {resultRel : InsertFileScan} {state : HeapState headerNo} {out : LogicalFile}

inductive RoundEnds (w : World) (outerScan : HeapFileScan) (rest : List Pin)
    (others : List FilePtr) (relation result : FileName) (outer inner : Source headerNo)
    (filter : Option ScanFilter) (attrs : List AttrDesc) (side : Record → AttrDesc → Record)
    (state : HeapState headerNo) (out : LogicalFile) :
    Outcome (Status × InsertFileScan) → World → Prop
  | ended {resultRel' : InsertFileScan} {w' : World} {recs : List Record}
      {state' : HeapState headerNo} {out' : LogicalFile}
      (run : (emitFeed attrs inner filter side).Runs state (inner.start state) recs state')
      (feeds : w'.Feeds outerScan resultRel' rest others relation result outer state' out')
      (logical : w'.logical = Function.update w.logical result (some out'))
      (names : ∀ file ∈ others, w'.nameOf file = w.nameOf file)
      (appended : out.Appended out' headerNo state.chain state'.chain
        (recs.map fun rec => projected (side rec) attrs)) :
      RoundEnds w outerScan rest others relation result outer inner filter attrs side state out
        (.ok (.OK, resultRel')) w'
  | crashed {w' : World} (more : ∀ recs state',
        (emitFeed attrs inner filter side).Runs state (inner.start state) recs state' →
        recs.length ≠ (inner.ahead state filter (inner.start state)).length) :
      RoundEnds w outerScan rest others relation result outer inner filter attrs side state out
        .crash w'

theorem World.Feeds.join_with
    (feeds : w.Feeds outerScan resultRel rest others relation result outer state out)
    (owned : ∀ pin ∈ rest, pin.file ∈ others) (held : inner.Held w result innerRel)
    (innerNamed : innerRel ≠ []) (name : attr2.relName = innerRel) (proper : attr2.Proper type)
    (wide : ∀ side, (∀ attr ∈ attrs, attr.Fits (side attr)) → 1 ≤ (projected side attrs).length)
    (mem : Uninit) (tmpRid : RID) (outerRec : Record) :
    Ends (joinWith mem tmpRid attrs attr1 attr2 (mirrored op) outerRec resultRel) w
      (RoundEnds w outerScan rest others relation result outer inner
        (some (joinFilter attr1 attr2 type op outerRec)) attrs (joinSide attr1 outerRec) state
        out) := by
  subst name
  unfold joinWith
  apply ends_bind_smooth
  · intro ends
    repeat' first
      | exact keeps_pure _ | exact keeps_crash | exact keeps_read _
      | exact HeapFileScan.delete_keeps _ | exact emit_loop_keeps _ _ _ _ _ _
      | apply keeps_bind | intro _ | split
  apply (feeds.grows.open_scan held innerNamed mem).mono
  rintro ends w₁ ⟨innerScan, rfl, opened, everything, logical₁, names₁⟩
  dsimp only
  rw [start_join_accepted proper]
  dsimp only
  rw [if_neg (not_not.mpr rfl)]
  have filtered := opened (some (joinFilter attr1 attr2 type op outerRec))
  have everything := everything (some (joinFilter attr1 attr2 type op outerRec))
  obtain ⟨fuel, read, enough⟩ := filtered.search_fuel
  apply ends_bind_eq read
  apply ends_bind
  · intro ends
    repeat' first
      | exact keeps_pure _ | exact HeapFileScan.delete_keeps _ | apply keeps_bind | intro _
  apply (filtered.emit_loop fuel tmpRid wide).mono
  intro outcome w₂ ended
  cases ended with
  | @ended _ _ _ _ out' run feeds₂ touches appended extends_ =>
      obtain ⟨w₃, deleted, grows, logical₃, names₃⟩ :=
        feeds₂.delete_scan (HeapFile.pins_owned owned)
      have changed : w₃.logical = Function.update w.logical result (some out') := by
        rw [logical₃, touches.logical, logical₁]
      have names : ∀ file ∈ outerScan.filePtr :: others, w₃.nameOf file = w.nameOf file := by
        intro file member
        rw [names₃ file (List.mem_cons_of_mem _ member), touches.names,
          names₁ file (List.mem_cons_of_mem _ member)]
      apply ends_bind_eq deleted
      apply ends_pure
      apply RoundEnds.ended (run.of_ahead_eq everything.symm) _ changed
        (fun file member => names file (List.mem_cons_of_mem _ member)) appended
      exact feeds.resume (names _ (List.mem_cons_self ..)) changed grows extends_.pages
  | crashed longer =>
      apply RoundEnds.crashed
      intro recs state' run exactly
      have rounds := longer recs state' (run.of_ahead_eq everything)
      have room := enough (some (joinFilter attr1 attr2 type op outerRec)) (inner.start state)
      omega

inductive OuterEnds (w : World) (rest : List Pin) (others : List FilePtr)
    (relation result : FileName) (outer inner : Source headerNo)
    (filterOf : Record → Option ScanFilter) (attrs : List AttrDesc)
    (side : Record → Record → AttrDesc → Record) (fuel : Nat) (outerScan : HeapFileScan)
    (state : HeapState headerNo) (out : LogicalFile) :
    Outcome (Status × HeapFileScan × InsertFileScan) → World → Prop
  | ended {outerScan' : HeapFileScan} {resultRel' : InsertFileScan} {w' : World}
      {pairs : List (Record × Record)} {state' : HeapState headerNo} {out' : LogicalFile}
      (run : (joinFeed attrs outer inner filterOf side).Runs state (outerScan.place, none) pairs
        state')
      (feeds : w'.Feeds outerScan' resultRel' rest others relation result outer state' out')
      (logical : w'.logical = Function.update w.logical result (some out'))
      (names : ∀ file ∈ others, w'.nameOf file = w.nameOf file)
      (appended : out.Appended out' headerNo state.chain state'.chain
        (pairs.map fun pair => projected (side pair.1 pair.2) attrs)) :
      OuterEnds w rest others relation result outer inner filterOf attrs side fuel outerScan state
        out (.ok (.OK, outerScan', resultRel')) w'
  | crashed {w' : World} (longer : ∀ pairs final,
        (joinFeed attrs outer inner filterOf side).Runs state (outerScan.place, none) pairs final →
        pairs.length = (pairsAhead outer inner filterOf state (outerScan.place, none)).length →
        fuel ≤ (outer.ahead state none outerScan.place).length + pairs.length) :
      OuterEnds w rest others relation result outer inner filterOf attrs side fuel outerScan state
        out .crash w'

theorem World.Feeds.outer_loop (fuel : Nat)
    (feeds : w.Feeds outerScan resultRel rest others relation result outer state out)
    (unfiltered : outerScan.filter = none) (owned : ∀ pin ∈ rest, pin.file ∈ others)
    (held : inner.Held w result innerRel) (innerNamed : innerRel ≠ [])
    (name : attr2.relName = innerRel) (proper : attr2.Proper type)
    (wide : ∀ side, (∀ attr ∈ attrs, attr.Fits (side attr)) → 1 ≤ (projected side attrs).length)
    (mem : Uninit) (tmpRid : RID) :
    Ends (outerLoop mem tmpRid attrs attr1 attr2 (mirrored op) fuel outerScan resultRel) w
      (OuterEnds w rest others relation result outer inner
        (fun outerRec => some (joinFilter attr1 attr2 type op outerRec)) attrs (joinSide attr1) fuel
        outerScan state out) := by
  induction fuel generalizing w outerScan resultRel state out with
  | zero => exact ends_crash (.crashed fun _ _ _ _ => Nat.zero_le _)
  | succ fuel ih =>
      unfold outerLoop
      apply ends_bind_smooth
      · intro ends
        repeat' first
          | exact keeps_pure _ | exact current_record_keeps _
          | exact join_with_keeps _ _ _ _ _ _ _ _ | exact outer_loop_keeps _ _ _ _ _ _ _ _ _
          | apply keeps_bind | intro _ | split
      apply (feeds.scan_next tmpRid).mono
      rintro ⟨ends, outerScan₁⟩ w₁ ⟨same, filter, _, feeds₁, outcome⟩
      dsimp only at filter feeds₁ outcome
      rw [unfiltered] at outcome filter
      have touches₁ := same.touches feeds.grows.insertsAt.holding.logical
      rcases outcome with ⟨rfl, nothing⟩ | ⟨rid, rec, later, rfl, place, next, current⟩
      · have done : pairsAhead outer inner (fun outerRec => some (joinFilter attr1 attr2 type op
            outerRec)) state (outerScan.place, none) = [] := by
          rw [pairsAhead, outerPairs, nothing]
          rfl
        exact ends_pure (.ended (.stop done) feeds₁ touches₁.logical
          (fun file _ => touches₁.names file) (.refl _ _ _))
      have tuple : currentRecord outerScan₁ w₁ = (.ok rec, w₁) := by
        unfold currentRecord
        rw [bind_ok current]
        rfl
      dsimp only
      apply ends_bind_eq tuple
      apply ends_bind
      · intro ends
        repeat' first
          | exact keeps_pure _ | exact outer_loop_keeps _ _ _ _ _ _ _ _ _ | split
      have outerHeld := (outer.ahead_resumes (show _ = [] ++ _ from next)).1
      apply (feeds₁.join_with owned (held.touched touches₁.logical) innerNamed name proper wide mem
        tmpRid rec).mono
      intro outcome w₂ ended
      cases ended with
      | @ended resultRel₁ _ recs state₁ out₁ run feeds₂ logical₂ names₂ appended₂ =>
          dsimp only
          rw [if_neg (not_not.mpr rfl)]
          have logical : w₂.logical = Function.update w.logical result (some out₁) := by
            rw [logical₂, same.logical]
          apply (ih feeds₂ filter (held.touched logical)).mono
          intro outcome w₃ ended
          cases ended with
          | @ended _ _ _ pairs state₂ out₂ run₃ feeds₃ logical₃ names₃ appended₃ =>
              rw [place] at run₃
              have within : (joinFeed attrs outer inner (fun outerRec =>
                  some (joinFilter attr1 attr2 type op outerRec)) (joinSide attr1)).Runs state
                  (rid, some (inner.start state)) (recs.map (rec, ·) ++ pairs) state₂ :=
                join_runs_of_inner outerHeld run run₃
              apply OuterEnds.ended (within.of_ahead_eq (join_ahead_outer next)) feeds₃
              · rw [logical₃, logical, Function.update_idem]
              · intro file member
                rw [names₃ file member, names₂ file member, same.nameOf]
              · have both := appended₂.trans appended₃
                rw [List.map_append, List.map_map]
                exact both
          | crashed longer =>
              apply OuterEnds.crashed
              intro pairs final whole exactly
              obtain ⟨recs', state', later, innerRun, _, behind, laterExactly, total⟩ :=
                exact_round next whole exactly
              obtain ⟨rfl, rfl⟩ := innerRun.unique run
              rw [place] at longer
              have rounds := longer later final behind laterExactly
              have front := outer.ahead_length_runs outerHeld innerRun
              have rest := (outer.ahead_resumes (show _ = [] ++ _ from next)).2
              rw [next, List.length_cons, ← rest]
              omega
      | crashed more =>
          apply OuterEnds.crashed
          intro pairs final whole exactly
          obtain ⟨recs, state', later, innerRun, innerExactly, _⟩ := exact_round next whole exactly
          exact absurd innerExactly (more recs state' innerRun)

end JoinLoops

end PrimitiveDB

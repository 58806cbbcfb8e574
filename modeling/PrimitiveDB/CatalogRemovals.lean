import PrimitiveDB.RecordOrder
import PrimitiveDB.LoadUtility

/-!
# Taking relations out of the catalogs

`removeInfo` of the two catalogs deletes one tuple that a scan by name has found. `dropRelation`
first lists the attributes of a relation and then removes them one by one, each through a scan of
its own; `destroyRel` goes on with the tuple of the relation and the heap file.
-/

namespace PrimitiveDB

open World DbM

set_option autoImplicit false

namespace World

variable {w w' w'' : World} {pins : List Pin} {opens : List FilePtr} {fileName relation : FileName}
  {lf lf' : LogicalFile} {chain : List Int} {rec : Record}

/-- One record of one file has been deleted, and nothing else has happened. -/
structure Takes (before after : World) (pins : List Pin) (opens : List FilePtr)
    (fileName : FileName) (lf lf' : LogicalFile) (chain : List Int) (rec : Record) : Prop where
  storage : after.Storage pins opens
  logical : after.logical = Function.update before.logical fileName (some lf')
  names : ∀ file ∈ opens, after.nameOf file = before.nameOf file
  removed : lf.Removed lf' lf.firstPage chain rec
  first : lf'.firstPage = lf.firstPage

theorem Takes.stores (takes : Takes w w' pins opens fileName lf lf' chain rec) :
    w'.Stores fileName lf' chain := by
  refine ⟨?_, ?_⟩
  · rw [takes.logical, Function.update_self]
  · rw [takes.first]
    exact takes.removed.formed

theorem ScanAt.takes {w₁ w₂ : World} {scan : HeapFileScan} {todo : List RID}
    (constructs : Constructs w w₁ opens) (same : SameLogical w₁ w₂)
    (scanAt : w₂.ScanAt scan pins opens fileName lf chain todo)
    (headerNo : scan.headerPageNo = lf.firstPage)
    (onPage : scan.curPageNo = scan.curRec.pageNo)
    (live : lf.contents chain scan.curRec = some rec) :
    ∃ scan' w₃ lf', scan.deleteRecord w₂ = (.ok (.OK, scan'), w₃) ∧
      w₃.ScanAt scan' pins opens fileName lf' chain todo ∧
      ∀ w₄, w₄.Storage pins opens → w₄.logical = w₃.logical →
        (∀ file ∈ opens, w₄.nameOf file = w₃.nameOf file) →
        Takes w w₄ pins opens fileName lf lf' chain rec := by
  obtain ⟨scan', w₃, lf', run, scanAt', updated, _, headerNo', _, touches, _, first⟩ :=
    scanAt.delete_record onPage (Option.isSome_of_eq_some live)
  refine ⟨scan', w₃, lf', run, scanAt', fun w₄ storage logical names => ?_⟩
  refine ⟨storage, ?_, ?_, ⟨?_, scan.curRec, live, updated⟩, first⟩
  · rw [logical, touches.logical, same.logical, constructs.logical]
  · intro file member
    rw [names file member, touches.names, same.nameOf, constructs.names file member]
  · have formed := scanAt'.formed
    rw [headerNo', headerNo] at formed
    exact formed

theorem Storage.attr_remove_info (storage : w.Storage pins opens)
    (owned : ∀ pin ∈ pins, pin.file ∈ opens) (stores : w.Stores ATTRCATNAME lf chain)
    (sized : ∀ rec ∈ lf.tuples chain, rec.length = AttrDesc.size) (proper : ProperName relation)
    {attrName : FileName} (nonempty : attrName ≠ []) (mem : Uninit) (tmpRid : RID) :
    Smoothly (AttrCatalog.removeInfo mem tmpRid relation attrName) w fun status w' =>
      (status = .RELNOTFOUND ∧ Undisturbed w w' pins opens ∧
          AttrCatalog.lookup (lf.tuples chain) relation attrName = none) ∨
        ∃ rec lf', status = .OK ∧ Takes w w' pins opens ATTRCATNAME lf lf' chain rec ∧
          cString rec = relation ∧ (AttrDesc.ofRecord rec).attrName = attrName := by
  have filtered := filter_by_name proper (by decide) sized
  unfold AttrCatalog.removeInfo
  rw [if_neg (not_or.mpr ⟨proper.nonempty, nonempty⟩)]
  apply smoothly_bind
  · intro result
    repeat' first
      | exact keeps_pure _ | exact keeps_read _ | exact HeapFileScan.delete_keeps _
      | exact AttrCatalog.search_keeps _ _ _ _ | exact HeapFileScan.finish_keeps _
      | exact HeapFileScan.delete_record_keeps _
      | apply keeps_bind | intro _ | split
  · apply (storage.new_scan stores.logical stores.formed (by decide) mem).mono
    rintro result w₁ ⟨hfs, rfl, scanAt₀, headerNo, _, constructs⟩
    have scanAt := scanAt₀.start (some (nameFilter relation))
    dsimp only
    rw [start_by_name]
    dsimp only
    rw [if_neg (not_not.mpr rfl)]
    apply smoothly_bind_eq scanAt.search_fuel
    apply smoothly_bind
    · intro result
      repeat' first
        | exact keeps_pure _ | exact HeapFileScan.finish_keeps _
        | exact HeapFileScan.delete_record_keeps _
        | apply keeps_bind | intro _ | split
    · apply (AttrCatalog.scan_search _ scanAt tmpRid attrName scanAt.formed.rids_lt
        fun rec member => sized rec (List.mem_of_mem_filter member)).mono
      rintro result w₂ ⟨same, ends⟩
      have listed : (lf.recordsAt (lf.rids chain)).filter
          (ScanFilter.matchRec (some (nameFilter relation))) =
            (lf.tuples chain).filter fun rec => cString rec = relation := filtered
      dsimp only at ends
      rw [listed] at ends
      cases found : ((lf.tuples chain).filter fun rec => cString rec = relation).find?
          fun rec => (AttrDesc.ofRecord rec).attrName = attrName with
      | none =>
          rw [found] at ends
          obtain ⟨hfs', rfl, scanAt'⟩ := ends
          obtain ⟨w₃, finishes, undisturbed⟩ := scanAt'.finish owned
          dsimp only
          apply smoothly_bind_eq finishes
          refine smoothly_pure (.inl ⟨rfl, constructs.between same undisturbed, ?_⟩)
          rw [AttrCatalog.lookup_eq, found]
          rfl
      | some rec =>
          rw [found] at ends
          obtain ⟨hfs', later, rfl, scanAt', onPage, live, headerNo'⟩ := ends
          obtain ⟨scan', w₃, lf', run, scanAt₃, takes⟩ := scanAt'.takes constructs same
            (headerNo'.trans headerNo) onPage live
          obtain ⟨w₄, finishes, undisturbed⟩ := scanAt₃.finish owned
          dsimp only
          apply smoothly_bind_eq run
          dsimp only
          apply smoothly_bind_eq finishes
          have inside := List.mem_filter.mp (List.mem_of_find?_eq_some found)
          refine smoothly_pure (.inr ⟨rec, lf', rfl, takes w₄ undisturbed.storage
            undisturbed.logical undisturbed.names, by simpa using inside.2, ?_⟩)
          simpa using List.find?_some found

theorem Storage.rel_remove_info (storage : w.Storage pins opens)
    (owned : ∀ pin ∈ pins, pin.file ∈ opens) (stores : w.Stores RELCATNAME lf chain)
    (sized : ∀ rec ∈ lf.tuples chain, rec.length = RelDesc.size) (proper : ProperName relation)
    (mem : Uninit) (tmpRid : RID) :
    Smoothly (RelCatalog.removeInfo mem tmpRid relation) w fun status w' =>
      (status = .RELNOTFOUND ∧ Undisturbed w w' pins opens ∧
          (lf.tuples chain).filter (fun rec => cString rec = relation) = []) ∨
        ∃ rec lf', status = .OK ∧ Takes w w' pins opens RELCATNAME lf lf' chain rec ∧
          cString rec = relation := by
  have filtered := filter_by_name proper (by decide) sized
  unfold RelCatalog.removeInfo
  rw [if_neg proper.nonempty]
  apply smoothly_bind
  · intro result
    repeat' first
      | exact keeps_pure _ | exact HeapFileScan.delete_keeps _
      | exact HeapFileScan.scan_next_keeps _ _ | exact HeapFileScan.delete_record_keeps _
      | apply keeps_bind | intro _ | split
  · apply (storage.new_scan stores.logical stores.formed (by decide) mem).mono
    rintro result w₁ ⟨hfs, rfl, scanAt₀, headerNo, _, constructs⟩
    have scanAt := scanAt₀.start (some (nameFilter relation))
    dsimp only
    rw [start_by_name]
    dsimp only
    rw [if_neg (not_not.mpr rfl)]
    apply smoothly_bind
    · intro result
      repeat' first
        | exact keeps_pure _ | exact HeapFileScan.delete_keeps _
        | exact HeapFileScan.delete_record_keeps _
        | apply keeps_bind | intro _ | split
    · apply (scanAt.next_record tmpRid).mono
      rintro ⟨result, hfs₁⟩ w₂ ⟨same, _, _, headerNo₁, outcome⟩
      have listed : (lf.recordsAt (lf.rids chain)).filter
          (ScanFilter.matchRec (some (nameFilter relation))) =
            (lf.tuples chain).filter fun rec => cString rec = relation := filtered
      dsimp only at headerNo₁
      rcases outcome with ⟨rfl, scanAt', none_⟩ |
        ⟨rid, rec, later, rfl, curRec, scanAt', live, _, curNo, _, split⟩
      · obtain ⟨w₃, run, storage₃, logical, names, _⟩ := scanAt'.delete owned
        dsimp only
        apply smoothly_bind_eq run
        have undisturbed : Undisturbed w₂ w₃ pins opens := ⟨storage₃, logical, names⟩
        refine smoothly_pure (.inl ⟨rfl, constructs.between same undisturbed, ?_⟩)
        rw [← listed]
        exact none_
      · dsimp only at curRec curNo scanAt'
        obtain ⟨scan', w₃, lf', run, scanAt₃, takes⟩ := scanAt'.takes constructs same
          (headerNo₁.trans headerNo) (curNo.trans (by rw [curRec])) (by rw [curRec]; exact live)
        obtain ⟨w₄, deletes, storage₄, logical, names, _⟩ := scanAt₃.delete owned
        dsimp only
        apply smoothly_bind_eq run
        dsimp only
        apply smoothly_bind_eq deletes
        have member : rec ∈ (lf.tuples chain).filter fun rec => cString rec = relation := by
          rw [← listed]
          dsimp only at split
          rw [split]
          exact List.mem_cons_self
        refine smoothly_pure (.inr ⟨rec, lf', rfl, takes w₄ storage₄ logical names, ?_⟩)
        simpa using (List.mem_filter.mp member).2

end World

theorem AttrCatalog.remove_info_keeps (mem : Uninit) (tmpRid : RID) (relation attrName : FileName) :
    KeepsFlag (AttrCatalog.removeInfo mem tmpRid relation attrName) := by
  unfold AttrCatalog.removeInfo AttrCatalog.searchFuel
  repeat' first
    | exact keeps_pure _ | exact keeps_read _ | exact HeapFileScan.new_keeps _ _
    | exact HeapFileScan.delete_keeps _ | exact AttrCatalog.search_keeps _ _ _ _
    | exact HeapFileScan.finish_keeps _ | exact HeapFileScan.delete_record_keeps _
    | apply keeps_bind | intro _ | split

theorem AttrCatalog.remove_all_keeps (mem : Uninit) (tmpRid : RID) (relation : FileName)
    (attrs : List AttrDesc) : KeepsFlag (AttrCatalog.removeAll mem tmpRid relation attrs) := by
  induction attrs with
  | nil => exact keeps_pure _
  | cons attr attrs ih =>
      unfold AttrCatalog.removeAll
      repeat' first
        | exact keeps_pure _ | exact AttrCatalog.remove_info_keeps _ _ _ _ | exact ih
        | apply keeps_bind | intro _ | split

def AttrCatalog.attrNames (tuples : List Record) (relation : FileName) : List FileName :=
  (AttrCatalog.describe tuples relation).map AttrDesc.attrName

theorem AttrCatalog.attr_names_removed {lf lf' : LogicalFile} {headerNo : Int} {chain : List Int}
    {rec : Record} {relation : FileName} (removed : lf.Removed lf' headerNo chain rec)
    (named : cString rec = relation) :
    (AttrCatalog.attrNames (lf.tuples chain) relation).Perm
      ((AttrDesc.ofRecord rec).attrName ::
        AttrCatalog.attrNames (lf'.tuples chain) relation) := by
  have kept := (removed.perm removed.formed.nodup).filter fun rec => cString rec = relation
  rw [List.filter_cons_of_pos (by simpa using named)] at kept
  exact (kept.map AttrDesc.ofRecord).map AttrDesc.attrName

namespace World

variable {w w' w'' : World} {pins : List Pin} {opens : List FilePtr} {relation : FileName}
  {lf lf' lf'' : LogicalFile} {chain : List Int}

structure Drops (before after : World) (pins : List Pin) (opens : List FilePtr)
    (catalog relation : FileName) (lf lf' : LogicalFile) (chain : List Int) : Prop where
  storage : after.Storage pins opens
  logical : after.logical = Function.update before.logical catalog (some lf')
  names : ∀ file ∈ opens, after.nameOf file = before.nameOf file
  formed : lf'.HeapFormed lf.firstPage chain
  first : lf'.firstPage = lf.firstPage
  subset : ∀ rec ∈ lf'.tuples chain, rec ∈ lf.tuples chain
  others : ∀ accepts : Record → Bool, (∀ rec, cString rec = relation → accepts rec = false) →
    (lf'.tuples chain).filter accepts = (lf.tuples chain).filter accepts

section Drops

variable {catalog : FileName}

theorem Undisturbed.drops (undisturbed : Undisturbed w w' pins opens)
    (stores : w.Stores catalog lf chain) : Drops w w' pins opens catalog relation lf lf chain where
  storage := undisturbed.storage
  logical := by rw [undisturbed.logical, ← stores.logical, Function.update_eq_self]
  names := undisturbed.names
  formed := stores.formed
  first := rfl
  subset := fun _ member => member
  others := fun _ _ => rfl

theorem Takes.drops {rec : Record} (takes : Takes w w' pins opens catalog lf lf' chain rec)
    (named : cString rec = relation) : Drops w w' pins opens catalog relation lf lf' chain where
  storage := takes.storage
  logical := takes.logical
  names := takes.names
  formed := takes.removed.formed
  first := takes.first
  subset := by
    intro other member
    exact (takes.removed.perm takes.removed.formed.nodup).mem_iff.mpr
      (List.mem_cons_of_mem rec member)
  others := fun _ refused =>
    takes.removed.filter takes.removed.formed.nodup (refused rec named)

theorem Drops.trans (first : Drops w w' pins opens catalog relation lf lf' chain)
    (second : Drops w' w'' pins opens catalog relation lf' lf'' chain) :
    Drops w w'' pins opens catalog relation lf lf'' chain where
  storage := second.storage
  logical := by rw [second.logical, first.logical, Function.update_idem]
  names := by
    intro file member
    rw [second.names file member, first.names file member]
  formed := by
    rw [← first.first]
    exact second.formed
  first := second.first.trans first.first
  subset := fun rec member => first.subset rec (second.subset rec member)
  others := fun accepts refused =>
    (second.others accepts refused).trans (first.others accepts refused)

theorem Drops.stores (drops : Drops w w' pins opens catalog relation lf lf' chain) :
    w'.Stores catalog lf' chain := by
  refine ⟨?_, ?_⟩
  · rw [drops.logical, Function.update_self]
  · rw [drops.first]
    exact drops.formed

end Drops

/-- The loop removes a tuple for every name of the list, up to an attribute without a name. -/
theorem Storage.remove_all (storage : w.Storage pins opens)
    (owned : ∀ pin ∈ pins, pin.file ∈ opens) (stores : w.Stores ATTRCATNAME lf chain)
    (sized : ∀ rec ∈ lf.tuples chain, rec.length = AttrDesc.size) (proper : ProperName relation)
    (attrs : List AttrDesc)
    (listed : (AttrCatalog.attrNames (lf.tuples chain) relation).Perm
      (attrs.map AttrDesc.attrName)) (mem : Uninit) (tmpRid : RID) :
    Smoothly (AttrCatalog.removeAll mem tmpRid relation attrs) w fun status w' =>
      ∃ done rest lf', attrs = done ++ rest ∧
        Drops w w' pins opens ATTRCATNAME relation lf lf' chain ∧
        (AttrCatalog.attrNames (lf'.tuples chain) relation).Perm (rest.map AttrDesc.attrName) ∧
        (done = [] → w' = w) ∧ (∀ attr ∈ done, attr.attrName ≠ []) ∧
        ((status = .OK ∧ rest = []) ∨
          (status = .BADCATPARM ∧ ∃ attr later, rest = attr :: later ∧ attr.attrName = [])) := by
  induction attrs generalizing w lf with
  | nil =>
      apply smoothly_pure
      exact ⟨[], [], lf, rfl, Undisturbed.drops ⟨storage, rfl, fun _ _ => rfl⟩ stores, listed,
        fun _ => rfl, by simp, .inl ⟨rfl, rfl⟩⟩
  | cons attr attrs ih =>
      unfold AttrCatalog.removeAll
      by_cases unnamed : attr.attrName = []
      · have refused : AttrCatalog.removeInfo mem tmpRid relation attr.attrName w =
            (.ok .BADCATPARM, w) := by
          unfold AttrCatalog.removeInfo
          rw [if_pos (.inr unnamed)]
          rfl
        apply smoothly_bind_eq refused
        rw [if_pos (by decide)]
        apply smoothly_pure
        exact ⟨[], attr :: attrs, lf, rfl,
          Undisturbed.drops ⟨storage, rfl, fun _ _ => rfl⟩ stores, listed,
          fun _ => rfl, by simp, .inr ⟨rfl, attr, attrs, rfl, unnamed⟩⟩
      · apply smoothly_bind
        · intro status
          repeat' first
            | exact keeps_pure _ | exact AttrCatalog.remove_all_keeps _ _ _ _ | split
        apply (storage.attr_remove_info owned stores sized proper unnamed mem tmpRid).mono
        rintro status w₁ (⟨_, _, missing⟩ | ⟨rec, lf₁, rfl, takes, named, sameName⟩)
        · -- the attribute is one of those that are listed
          have member : attr.attrName ∈ AttrCatalog.attrNames (lf.tuples chain) relation :=
            listed.mem_iff.mpr (by simp)
          obtain ⟨desc, inside, same⟩ := List.mem_map.mp member
          have different := List.find?_eq_none.mp missing desc inside
          simp [same] at different
        · rw [if_neg (not_not.mpr rfl)]
          have drops := takes.drops named
          have remaining := AttrCatalog.attr_names_removed takes.removed named
          rw [sameName] at remaining
          have listed₁ := (remaining.symm.trans listed).cons_inv
          apply (ih takes.storage takes.stores
            (fun rec member => sized rec (drops.subset rec member)) listed₁).mono
          rintro status w₂ ⟨done, rest, lf₂, rfl, drops₂, left, _, named, ended⟩
          exact ⟨attr :: done, rest, lf₂, rfl, drops.trans drops₂, left,
            fun impossible => absurd impossible (List.cons_ne_nil _ _),
            List.forall_mem_cons.mpr ⟨unnamed, named⟩, ended⟩

inductive DestroysFile (w w' : World) (pins : List Pin) (opens : List FilePtr)
    (fileName : FileName) : Status → Prop where
  | opened (inUse : ∃ file ∈ opens, w.nameOf file = some fileName) (same : w' = w) :
      DestroysFile w w' pins opens fileName .FILEOPEN
  | missing (absent : w.logical fileName = none) (same : w' = w) :
      DestroysFile w w' pins opens fileName .UNIXERR
  | destroyed (present : w.logical fileName ≠ none)
      (unused : ∀ file ∈ opens, w.nameOf file ≠ some fileName) (storage : w'.Storage pins opens)
      (names : ∀ file ∈ opens, w'.nameOf file = w.nameOf file)
      (logical : w'.logical = Function.update w.logical fileName none) :
      DestroysFile w w' pins opens fileName .OK

theorem Storage.find_open_iff (storage : w.Storage pins opens) {fileName : FileName} :
    (∃ file, w.openFiles.find fileName = some file) ↔
      ∃ file ∈ opens, w.nameOf file = some fileName := by
  constructor
  · rintro ⟨file, found⟩
    obtain ⟨object, live, named⟩ := (storage.table fileName file).mp found
    refine ⟨file, (storage.live file).mpr ⟨object, live⟩, ?_⟩
    rw [nameOf, live, Option.map_some, named]
  · rintro ⟨file, member, named⟩
    obtain ⟨object, live⟩ := (storage.live file).mp member
    rw [nameOf, live, Option.map_some] at named
    exact ⟨file, (storage.table fileName file).mpr ⟨object, live, Option.some.inj named⟩⟩

theorem Storage.destroys_file (storage : w.Storage pins opens) {fileName : FileName}
    (nonempty : fileName ≠ []) :
    Smoothly (destroyHeapFile fileName) w fun status w' =>
      DestroysFile w w' pins opens fileName status := by
  unfold destroyHeapFile
  cases found : w.openFiles.find fileName with
  | some file =>
      apply smoothly_bind_eq (attempt_err (destroy_open nonempty found))
      apply smoothly_pure
      exact .opened (storage.find_open_iff.mp ⟨file, found⟩) rfl
  | none =>
      cases present : w.logical fileName with
      | none =>
          apply smoothly_bind_eq (attempt_err (storage.destroy_missing nonempty present))
          exact smoothly_pure (.missing present rfl)
      | some lf =>
          obtain ⟨w₁, run, storage₁, files, _, logical, _⟩ :=
            storage.destroy_file nonempty present found
          apply smoothly_bind_eq (attempt_ok run)
          apply smoothly_pure
          refine .destroyed (by rw [present]; exact Option.some_ne_none lf) ?_ storage₁ ?_ logical
          · intro file member named
            obtain ⟨other, used⟩ := storage.find_open_iff.mpr ⟨file, member, named⟩
            rw [found] at used
            cases used
          · intro file _
            rw [nameOf, nameOf, files]

end World

theorem RelCatalog.remove_info_keeps (mem : Uninit) (tmpRid : RID) (relation : FileName) :
    KeepsFlag (RelCatalog.removeInfo mem tmpRid relation) := by
  unfold RelCatalog.removeInfo
  repeat' first
    | exact keeps_pure _ | exact HeapFileScan.new_keeps _ _ | exact HeapFileScan.delete_keeps _
    | exact HeapFileScan.scan_next_keeps _ _ | exact HeapFileScan.delete_record_keeps _
    | apply keeps_bind | intro _ | split

theorem AttrCatalog.drop_relation_keeps (mem : Uninit) (tmpRid : RID) (relation : FileName) :
    KeepsFlag (AttrCatalog.dropRelation mem tmpRid relation) := by
  unfold AttrCatalog.dropRelation
  repeat' first
    | exact keeps_pure _ | exact AttrCatalog.get_rel_info_keeps _ _ _
    | exact AttrCatalog.remove_all_keeps _ _ _ _
    | apply keeps_bind | intro _ | split

namespace RelCatalog

/-- The answers of `destroyRel` before it removes anything. -/
def destroyRefusal (attrTuples : List Record) (relation : FileName) : Option Status :=
  if relation = [] ∨ relation = RELCATNAME ∨ relation = ATTRCATNAME then some .BADCATPARM
  else if AttrCatalog.describe attrTuples relation = [] then some .RELNOTFOUND
  else none

end RelCatalog

namespace World

variable {w w' : World} {pins : List Pin} {opens : List FilePtr} {relation : FileName}
  {relLf attrLf : LogicalFile} {relChain attrChain : List Int}

/-- How far `destroyRel` has come when it ends, once it has begun to remove tuples. -/
inductive DestroysRel (w w' : World) (pins : List Pin) (opens : List FilePtr)
    (relation : FileName) (relLf attrLf : LogicalFile) (relChain attrChain : List Int) :
    Status → Prop where
  | unnamed {attrLf' : LogicalFile} {done later : List AttrDesc} {attr : AttrDesc}
      (described : AttrCatalog.describe (attrLf.tuples attrChain) relation = done ++ attr :: later)
      (nameless : attr.attrName = [])
      (drops : Drops w w' pins opens ATTRCATNAME relation attrLf attrLf' attrChain)
      (left : (AttrCatalog.attrNames (attrLf'.tuples attrChain) relation).Perm
        ((attr :: later).map AttrDesc.attrName))
      (named : ∀ other ∈ done, other.attrName ≠ [])
      (first : done = [] → Undisturbed w w' pins opens) :
      DestroysRel w w' pins opens relation relLf attrLf relChain attrChain .BADCATPARM
  | unlisted {w₁ : World} {attrLf' : LogicalFile}
      (named : ∀ attr ∈ AttrCatalog.describe (attrLf.tuples attrChain) relation,
        attr.attrName ≠ [])
      (drops : Drops w w₁ pins opens ATTRCATNAME relation attrLf attrLf' attrChain)
      (gone : AttrCatalog.describe (attrLf'.tuples attrChain) relation = [])
      (missing : (relLf.tuples relChain).filter (fun rec => cString rec = relation) = [])
      (undisturbed : Undisturbed w₁ w' pins opens) :
      DestroysRel w w' pins opens relation relLf attrLf relChain attrChain .RELNOTFOUND
  | listed {w₁ w₂ : World} {attrLf' relLf' : LogicalFile} {rec : Record} {status : Status}
      (named : ∀ attr ∈ AttrCatalog.describe (attrLf.tuples attrChain) relation,
        attr.attrName ≠ [])
      (drops : Drops w w₁ pins opens ATTRCATNAME relation attrLf attrLf' attrChain)
      (gone : AttrCatalog.describe (attrLf'.tuples attrChain) relation = [])
      (takes : Takes w₁ w₂ pins opens RELCATNAME relLf relLf' relChain rec)
      (same : cString rec = relation)
      (destroys : DestroysFile w₂ w' pins opens relation status) :
      DestroysRel w w' pins opens relation relLf attrLf relChain attrChain status

theorem Storage.destroy_rel (storage : w.Storage pins opens)
    (owned : ∀ pin ∈ pins, pin.file ∈ opens) (relStores : w.Stores RELCATNAME relLf relChain)
    (attrStores : w.Stores ATTRCATNAME attrLf attrChain)
    (relSized : ∀ rec ∈ relLf.tuples relChain, rec.length = RelDesc.size)
    (attrSized : ∀ rec ∈ attrLf.tuples attrChain, rec.length = AttrDesc.size)
    (terminated : 0 ∉ relation) (short : relation.length < MAXNAME) (mem : Uninit)
    (tmpRid : RID) :
    Smoothly (RelCatalog.destroyRel mem tmpRid relation) w fun status w' =>
      (RelCatalog.destroyRefusal (attrLf.tuples attrChain) relation = some status ∧
          Undisturbed w w' pins opens) ∨
        (RelCatalog.destroyRefusal (attrLf.tuples attrChain) relation = none ∧
          DestroysRel w w' pins opens relation relLf attrLf relChain attrChain status) := by
  unfold RelCatalog.destroyRel RelCatalog.destroyRefusal
  by_cases refused : relation = [] ∨ relation = RELCATNAME ∨ relation = ATTRCATNAME
  · rw [if_pos refused, if_pos refused]
    exact smoothly_pure (.inl ⟨rfl, storage, rfl, fun _ _ => rfl⟩)
  rw [if_neg refused, if_neg refused]
  obtain ⟨nonempty, notRel, notAttr⟩ := not_or.mp refused |>.imp_right not_or.mp
  have proper : ProperName relation := ⟨nonempty, terminated, short⟩
  unfold AttrCatalog.dropRelation
  rw [if_neg nonempty, bind_assoc]
  apply smoothly_bind
  · intro result
    repeat' first
      | exact keeps_pure _ | exact AttrCatalog.remove_all_keeps _ _ _ _
      | exact RelCatalog.remove_info_keeps _ _ _ | exact destroy_heap_file_keeps _
      | apply keeps_bind | intro _ | split
  apply (storage.attr_get_rel_info owned attrStores attrSized proper mem tmpRid).mono
  rintro result w₁ ⟨undisturbed, rfl⟩
  by_cases none_ : AttrCatalog.describe (attrLf.tuples attrChain) relation = []
  · rw [if_pos none_, if_pos none_]
    exact smoothly_pure (.inl ⟨rfl, undisturbed⟩)
  rw [if_neg none_, if_neg none_]
  dsimp only
  apply smoothly_bind
  · intro result
    repeat' first
      | exact keeps_pure _ | exact RelCatalog.remove_info_keeps _ _ _
      | exact destroy_heap_file_keeps _
      | apply keeps_bind | intro _ | split
  have before : Drops w w₁ pins opens ATTRCATNAME relation attrLf attrLf attrChain :=
    undisturbed.drops attrStores
  apply (undisturbed.storage.remove_all owned before.stores attrSized proper _ (List.Perm.refl _)
    mem tmpRid).mono
  rintro status w₂ ⟨done, rest, attrLf', whole, drops', left, first, named, ⟨rfl, rfl⟩ |
    ⟨rfl, attr, later, rfl, nameless⟩⟩
  · rw [if_neg (not_not.mpr rfl)]
    have drops := before.trans drops'
    rw [List.append_nil] at whole
    rw [← whole] at named
    have gone : AttrCatalog.describe (attrLf'.tuples attrChain) relation = [] :=
      List.map_eq_nil_iff.mp left.eq_nil
    have relStores₂ : w₂.Stores RELCATNAME relLf relChain := by
      refine ⟨?_, relStores.formed⟩
      rw [drops.logical, Function.update_of_ne (by decide)]
      exact relStores.logical
    apply smoothly_bind
    · intro result
      repeat' first
        | exact keeps_pure _ | exact destroy_heap_file_keeps _
        | apply keeps_bind | intro _ | split
    apply (drops.storage.rel_remove_info owned relStores₂ relSized proper mem tmpRid).mono
    rintro status w₃ (⟨rfl, quiet, missing⟩ | ⟨rec, relLf', rfl, takes, same⟩)
    · rw [if_pos (by decide)]
      exact smoothly_pure (.inr ⟨rfl, .unlisted named drops gone missing quiet⟩)
    · rw [if_neg (not_not.mpr rfl)]
      apply (takes.storage.destroys_file nonempty).mono
      intro status w₄ destroys
      exact .inr ⟨rfl, .listed named drops gone takes same destroys⟩
  · rw [if_pos (by decide)]
    refine smoothly_pure (.inr ⟨rfl, .unnamed whole nameless (before.trans drops') left named ?_⟩)
    intro nothing
    rw [first nothing]
    exact undisturbed

end World

end PrimitiveDB

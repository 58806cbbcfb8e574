import PrimitiveDB.StatementRefinement

/-!
# Processes

The life of a database. `dbcreate` makes the two catalogs in an empty directory. A process of
`minirel` opens them, runs statements and closes them in `UT_Quit`; the next process finds nothing
but the files. So what a later process sees are the tables that all the statements before it have
made.
-/

namespace PrimitiveDB

open World DbM Relational

set_option autoImplicit false

namespace BufMgr

/-- The loop of `~BufMgr`; what the writes return is dropped. -/
def writeOut : List Nat → DbM Unit
  | [] => pure ()
  | frame :: rest => do
      let tmpbuf ← DbM.read fun w => w.bufMgr.bufTable frame
      if tmpbuf.valid = true ∧ tmpbuf.dirty = true then do
        let page ← DbM.read fun w => w.bufMgr.bufPool frame
        let _ ← DbM.attempt (File.writePage tmpbuf.file tmpbuf.pageNo page)
        writeOut rest
      else writeOut rest

def delete : DbM Unit := do
  let numBufs ← DbM.read fun w => w.bufMgr.numBufs
  writeOut (List.range numBufs)

end BufMgr

/-- The catalogs, as `main` of `minirel.C` opens them. -/
def openCatalogs (mem : Uninit) : DbM (HeapFile × HeapFile) := do
  match ← HeapFile.new mem RELCATNAME with
  | .error status => DbM.fail status
  | .ok relCat => do
  match ← HeapFile.new mem ATTRCATNAME with
  | .error status => DbM.fail status
  | .ok attrCat => pure (relCat, attrCat)

def UT_Quit (relCat attrCat : HeapFile) : DbM Unit := do
  -- close relcat and attrcat
  relCat.delete
  attrCat.delete
  -- delete bufMgr to flush out all dirty pages
  BufMgr.delete

/-- `main` of `minirel.C`, with the statements that `parse` reads before it quits. -/
def minirel (joinMethod : JoinType) (mem : Uninit) (statements : List (Surroundings × NODE)) :
    DbM Unit := do
  let (relCat, attrCat) ← openCatalogs mem
  match ← (interpAll (storedCalls joinMethod) 0 statements).run with
  | .error _ => DbM.crash
  | .ok _ => UT_Quit relCat attrCat

/-- A new process with a pool of `bufs` frames, in the same directory. -/
def World.restart (w : World) (bufs : Nat) (malloc : Nat → FilePtr) : World where
  disk := w.disk
  files := fun _ => none
  brk := 1
  malloc := malloc
  openFiles := { ht := ChainedTable.empty }
  bufMgr := BufMgr.new bufs
  faults := fun _ => false
  bufFailed := false
  given := w.storedPages

/-- A process: what `main` is given, and what it reads. -/
structure Process where
  joinMethod : JoinType
  mem : Uninit
  bufs : Nat
  malloc : Nat → FilePtr
  statements : List (Surroundings × NODE)

/-- One process after the other, in which every buffer call succeeds. -/
inductive World.Lives : World → List Process → World → Prop where
  | nil (w : World) : Lives w [] w
  | cons {w w₁ w' : World} {process : Process} {processes : List Process}
      (frames : 0 < process.bufs)
      (run : minirel process.joinMethod process.mem process.statements
        (w.restart process.bufs process.malloc) = (.ok (), w₁))
      (smooth : w₁.bufFailed = false) (later : Lives w₁ processes w') :
      Lives w (process :: processes) w'

/-- What the tables say of the statements of all these processes. -/
def Relational.lives : List Process → Database → Option Database
  | [], db => some db
  | process :: processes, db =>
      match interpAll (relationalCalls process.joinMethod) 0 process.statements db with
      | some (.ok _, db') => lives processes db'
      | _ => none

theorem Relational.lives_cons (process : Process) (processes : List Process) {counter : Int}
    {db db' : Database} (defined : interpAll (relationalCalls process.joinMethod) 0
      process.statements db = some (.ok counter, db')) :
    Relational.lives (process :: processes) db = Relational.lives processes db' := by
  rw [Relational.lives, defined]

namespace World

variable {w w' : World} {pins : List Pin} {opens : List FilePtr} {db db' : Database}

theorem Storage.unheld (storage : w.Storage pins []) (frame : Nat) (file : FilePtr)
    (pageNo : Int) : ¬w.bufMgr.Holds frame file pageNo := by
  intro holds
  obtain ⟨contents, opened, _⟩ := storage.held frame file pageNo trivial holds
  cases live : w.files file with
  | none => simp [unixFile, live] at opened
  | some object =>
      have member := (storage.live file).mpr ⟨object, live⟩
      cases member

theorem Storage.delete_pool (storage : w.Storage pins []) : BufMgr.delete w = (.ok (), w) := by
  have nothing : ∀ frames : List Nat, (∀ frame ∈ frames, frame < w.bufMgr.numBufs) →
      BufMgr.writeOut frames w = (.ok (), w) := by
    intro frames
    induction frames with
    | nil => exact fun _ => rfl
    | cons frame frames ih =>
        intro inside
        obtain ⟨here, later⟩ := List.forall_mem_cons.mp inside
        have clean : ¬((w.bufMgr.bufTable frame).valid = true ∧
            (w.bufMgr.bufTable frame).dirty = true) := by
          intro used
          exact storage.unheld frame _ _ ⟨here, used.1, rfl, rfl⟩
        unfold BufMgr.writeOut
        rw [read_bind, if_neg clean]
        exact ih later
  unfold BufMgr.delete
  rw [read_bind]
  exact nothing _ fun frame member => List.mem_range.mp member

theorem Storage.restarted (storage : w.Storage pins []) {bufs : Nat} (frames : 0 < bufs)
    (malloc : Nat → FilePtr) : (w.restart bufs malloc).JustStarted where
  reliable := rfl
  pool := ⟨bufs, frames, rfl⟩
  files := rfl
  openFiles := rfl
  brk := Nat.one_pos
  stored := storage.stored
  flag := rfl
  given := rfl

theorem Storage.restart_logical (storage : w.Storage pins []) (bufs : Nat)
    (malloc : Nat → FilePtr) : (w.restart bufs malloc).logical = w.logical := by
  have closed : ∀ fileName, w.openFiles.find fileName = none := by
    intro fileName
    cases found : w.openFiles.find fileName with
    | none => rfl
    | some file =>
        obtain ⟨object, live, _⟩ := (storage.table fileName file).mp found
        have member := (storage.live file).mpr ⟨object, live⟩
        cases member
  have fresh : ∀ fileName, (w.restart bufs malloc).openFiles.find fileName = none :=
    fun fileName => ChainedTable.find_empty _
  funext fileName
  unfold logical
  congr 1
  funext contents
  simp only [filePage, closed, fresh]
  rfl

theorem Represents.restart (represents : w.Represents [] [] db) {bufs : Nat} (frames : 0 < bufs)
    (malloc : Nat → FilePtr) : (w.restart bufs malloc).Represents [] [] db :=
  represents.moved (represents.storage.restarted frames malloc).storage (by simp) (by simp)
    (represents.storage.restart_logical bufs malloc)

structure CatalogsOpen (w : World) (relCat attrCat : HeapFile) : Prop where
  storage : w.Storage (attrCat.pins ++ relCat.pins) [attrCat.filePtr, relCat.filePtr]
  named : ∀ file ∈ [attrCat.filePtr, relCat.filePtr],
    w.nameOf file = some RELCATNAME ∨ w.nameOf file = some ATTRCATNAME

theorem catalog_pins_owned (relCat attrCat : HeapFile) :
    ∀ pin ∈ attrCat.pins ++ relCat.pins, pin.file ∈ [attrCat.filePtr, relCat.filePtr] := by
  apply HeapFile.pins_owned
  intro pin member
  rw [relCat.pins_file pin member]
  exact List.mem_singleton_self _

theorem Storage.open_catalogs (storage : w.Storage [] []) {relLf attrLf : LogicalFile}
    (relLogical : w.logical RELCATNAME = some relLf)
    (attrLogical : w.logical ATTRCATNAME = some attrLf) (mem : Uninit) :
    Smoothly (openCatalogs mem) w fun catalogs w' =>
      w'.CatalogsOpen catalogs.1 catalogs.2 ∧ w'.logical = w.logical := by
  unfold openCatalogs
  apply smoothly_bind
  · intro result
    repeat' first
      | exact keeps_pure _ | exact keeps_fail _ | exact HeapFile.new_keeps _ _
      | apply keeps_bind | intro _ | split
  apply (storage.new_heap relLogical (by decide) mem).mono
  rintro result w₁ ⟨relCat, rfl, relHeld, _, _, _, _, constructs⟩
  dsimp only
  apply smoothly_bind
  · intro result
    split
    · exact keeps_fail _
    · exact keeps_pure _
  have attrLogical₁ : w₁.logical ATTRCATNAME = some attrLf := by
    rw [constructs.logical]
    exact attrLogical
  have relStorage := relHeld.storage
  rw [List.append_nil] at relStorage
  apply (relStorage.new_heap attrLogical₁ (by decide) mem).mono
  rintro result w₂ ⟨attrCat, rfl, attrHeld, _, _, _, _, constructs₂⟩
  apply smoothly_pure
  refine ⟨⟨attrHeld.storage, ?_⟩, constructs₂.logical.trans constructs.logical⟩
  intro file member
  rcases List.mem_pair.mp member with rfl | rfl
  · exact .inr attrHeld.named
  · left
    exact (constructs₂.names _ (List.mem_singleton_self _)).trans relHeld.named

theorem Represents.open_catalogs (represents : w.Represents [] [] db) (mem : Uninit) :
    Smoothly (openCatalogs mem) w fun catalogs w' =>
      w'.Represents (catalogs.2.pins ++ catalogs.1.pins)
        [catalogs.2.filePtr, catalogs.1.filePtr] db := by
  obtain ⟨relLf, _, relStores, _⟩ := represents.relCat
  obtain ⟨attrLf, _, attrStores, _⟩ := represents.attrCat
  apply (represents.storage.open_catalogs relStores.logical attrStores.logical mem).mono
  rintro ⟨relCat, attrCat⟩ w' ⟨opened, logical⟩
  exact represents.moved opened.storage (catalog_pins_owned relCat attrCat) opened.named logical

/-- An object on a catalog, whatever has been written to the catalog since it was opened. -/
theorem Represents.holding {heap : HeapFile} {rest : List Pin} {others : List FilePtr}
    (represents : w.Represents pins opens db) (member : heap.filePtr ∈ opens)
    (storage : w.Storage (heap.pins ++ rest) (heap.filePtr :: others)) :
    ∃ fileName lf, w.Holding (HeapObject.heapFile heap).base rest others fileName lf := by
  obtain ⟨relLf, _, relStores, _⟩ := represents.relCat
  obtain ⟨attrLf, _, attrStores, _⟩ := represents.attrCat
  rcases represents.catalogsOpen heap.filePtr member with named | named
  · exact ⟨RELCATNAME, relLf, storage, named, relStores.logical⟩
  · exact ⟨ATTRCATNAME, attrLf, storage, named, attrStores.logical⟩

theorem Represents.close_catalogs {relCat attrCat : HeapFile}
    (represents : w.Represents (attrCat.pins ++ relCat.pins)
      [attrCat.filePtr, relCat.filePtr] db) :
    ∃ w₁ w', relCat.delete w = (.ok (), w₁) ∧ attrCat.delete w₁ = (.ok (), w') ∧
      w'.Represents [] [] db := by
  have turned : w.Storage (relCat.pins ++ attrCat.pins) [relCat.filePtr, attrCat.filePtr] :=
    (represents.storage.perm List.perm_append_comm).perm_opens (List.Perm.swap _ _ _)
  have attrOwned : ∀ pin ∈ attrCat.pins, pin.file ∈ [attrCat.filePtr] := by
    intro pin member
    rw [attrCat.pins_file pin member]
    exact List.mem_singleton_self _
  obtain ⟨_, _, relHeld⟩ := represents.holding (by simp) turned
  obtain ⟨w₀, w₁, destroys⟩ := relHeld.destroys attrOwned
  have represents₁ : w₁.Represents attrCat.pins [attrCat.filePtr] db := by
    apply represents.moved destroys.storage attrOwned
    · intro file member
      rw [destroys.closes.names file member, destroys.same.nameOf]
      exact represents.catalogsOpen file (List.mem_cons.mpr (.inl (List.mem_singleton.mp member)))
    · exact destroys.closes.logical.trans destroys.same.logical
  have alone : w₁.Storage (attrCat.pins ++ []) (attrCat.filePtr :: []) := by
    rw [List.append_nil]
    exact represents₁.storage
  obtain ⟨_, _, attrHeld⟩ := represents₁.holding (List.mem_singleton_self _) alone
  obtain ⟨w₂, w', destroys'⟩ := attrHeld.destroys (by simp)
  exact ⟨w₁, w', destroys.deletes, destroys'.deletes, represents₁.moved destroys'.storage (by simp)
    (by simp) (destroys'.closes.logical.trans destroys'.same.logical)⟩

theorem Represents.ut_quit {relCat attrCat : HeapFile}
    (represents : w.Represents (attrCat.pins ++ relCat.pins)
      [attrCat.filePtr, relCat.filePtr] db) :
    Smoothly (UT_Quit relCat attrCat) w fun _ w' => w'.Represents [] [] db := by
  obtain ⟨w₁, w', relDeleted, attrDeleted, closed⟩ := represents.close_catalogs
  unfold UT_Quit
  apply smoothly_bind_eq relDeleted
  apply smoothly_bind_eq attrDeleted
  intro _
  exact ⟨(), w', closed.storage.delete_pool, closed⟩

theorem delete_pool_keeps : KeepsFlag BufMgr.delete := by
  have keeps : ∀ frames, KeepsFlag (BufMgr.writeOut frames) := by
    intro frames
    induction frames with
    | nil => exact keeps_pure _
    | cons frame frames ih =>
        unfold BufMgr.writeOut
        repeat' first
          | exact keeps_pure _ | exact keeps_read _ | exact ih
          | exact keeps_attempt (File.write_page_keeps _ _ _)
          | apply keeps_bind | intro _ | split
  exact keeps_bind (keeps_read _) fun _ => keeps _

theorem ut_quit_keeps (relCat attrCat : HeapFile) : KeepsFlag (UT_Quit relCat attrCat) :=
  keeps_bind (HeapFile.delete_keeps _) fun _ => keeps_bind (HeapFile.delete_keeps _) fun _ =>
    delete_pool_keeps

/-- A process of `minirel` does to the tables on the disk what its statements say. -/
theorem Represents.minirel (represents : w.Represents [] [] db) (joinMethod : JoinType)
    (mem : Uninit) (statements : List (Surroundings × NODE)) {counter : Int}
    (defined : interpAll (relationalCalls joinMethod) 0 statements db =
      some (.ok counter, db')) :
    Smoothly (minirel joinMethod mem statements) w fun _ w' => w'.Represents [] [] db' := by
  unfold PrimitiveDB.minirel
  apply smoothly_bind
  · rintro ⟨relCat, attrCat⟩
    have refines : Refines [] [] (interpAll (storedCalls joinMethod) 0 statements).run
      (interpAll (relationalCalls joinMethod) 0 statements).run :=
      interp_all_refines joinMethod 0 statements
    apply keeps_bind refines.keeps
    intro ends
    split
    · exact keeps_crash
    · exact ut_quit_keeps _ _
  apply (represents.open_catalogs mem).mono
  rintro ⟨relCat, attrCat⟩ w₁ represents₁
  dsimp only
  apply smoothly_bind
  · intro ends
    split
    · exact keeps_crash
    · exact ut_quit_keeps _ _
  apply ((interp_all_refines joinMethod 0 statements).refines w₁ db represents₁ _ db' defined).mono
  rintro _ w₂ ⟨rfl, represents₂⟩
  exact represents₂.ut_quit

theorem Lives.represents {processes : List Process} (lives : Lives w processes w')
    (represents : w.Represents [] [] db)
    (defined : Relational.lives processes db = some db') : w'.Represents [] [] db' := by
  induction lives generalizing db with
  | nil w =>
      cases defined
      exact represents
  | @cons w w₁ w' process processes frames run smooth later ih =>
      unfold Relational.lives at defined
      split at defined
      · rename_i counter db₁ said
        obtain ⟨_, _, represents₁⟩ := ((represents.restart frames process.malloc).minirel
          process.joinMethod process.mem process.statements said).result run smooth
        exact ih represents₁ defined
      · cases defined

section Creation

variable {name : FileName} {lf lf' : LogicalFile} {chain : List Int} {recs : List Record}

theorem smoothly_call_or_exit {call : DbM Status} {post : World → Prop}
    (smooth : Smoothly call w fun status w' => status = .OK ∧ post w') :
    Smoothly (callOrExit call) w fun _ w' => post w' := by
  unfold callOrExit
  apply smoothly_bind
  · intro status
    split
    · exact keeps_fail _
    · exact keeps_pure _
  · apply smooth.mono
    rintro _ w' ⟨rfl, holds⟩
    rw [if_neg (not_not.mpr rfl)]
    exact smoothly_pure holds

theorem call_or_exit_keeps {call : DbM Status} (keeps : KeepsFlag call) :
    KeepsFlag (callOrExit call) := by
  apply keeps_bind keeps
  intro status
  split
  · exact keeps_fail _
  · exact keeps_pure _

theorem add_all_keeps (mem : Uninit) (attrs : List AttrDesc) : KeepsFlag (addAll mem attrs) := by
  induction attrs with
  | nil => exact keeps_pure _
  | cons attr attrs ih =>
      exact keeps_bind (call_or_exit_keeps (add_tuple_keeps _ _ _)) fun _ => ih

theorem Storage.create_catalog (storage : w.Storage pins opens) (absent : w.logical name = none)
    (nonempty : name ≠ []) :
    Smoothly (callOrExit (createHeapFile name)) w fun _ w' => ∃ lf, w'.Storage pins opens ∧
      w'.logical = Function.update w.logical name (some lf) ∧ w'.Stores name lf [2] ∧
      lf.tuples [2] = [] := by
  apply smoothly_call_or_exit
  apply (storage.creates_file nonempty).mono
  intro status w' creates
  cases creates with
  | taken present _ _ => exact absurd absent present
  | @created lf _ storage _ logical first formed noRids =>
      refine ⟨rfl, lf, storage, logical, ⟨?_, ?_⟩, LogicalFile.tuples_nil_iff.mpr noRids⟩
      · rw [logical, Function.update_self]
      · rw [first]
        exact formed

theorem Storage.add_all (storage : w.Storage pins opens)
    (owned : ∀ pin ∈ pins, pin.file ∈ opens) (stores : w.Stores ATTRCATNAME lf chain)
    (attrs : List AttrDesc) (sized : ∀ attr ∈ attrs, attr.toRecord.length = AttrDesc.size)
    (mem : Uninit) :
    Smoothly (addAll mem attrs) w fun _ w' => ∃ lf',
      Adds w w' pins opens ATTRCATNAME lf lf' (attrs.map AttrDesc.toRecord) := by
  induction attrs generalizing w lf chain with
  | nil =>
      apply smoothly_pure
      exact ⟨lf, Undisturbed.adds ⟨storage, rfl, fun _ _ => rfl⟩ stores.logical⟩
  | cons attr attrs ih =>
      obtain ⟨length, lengths⟩ := List.forall_mem_cons.mp sized
      apply smoothly_bind
      · exact fun _ => add_all_keeps mem attrs
      · apply (smoothly_call_or_exit (storage.add_tuple owned stores (by decide)
          (by rw [length]; decide) (by rw [length]; decide) mem)).mono
        rintro _ w₁ ⟨lf₁, adds⟩
        obtain ⟨chain₁, stores₁, first, _⟩ := adds.stores stores
        apply (ih adds.storage stores₁ lengths).mono
        rintro _ w₂ ⟨lf₂, adds₂⟩
        exact ⟨lf₂, adds.trans adds₂ first⟩

def fillCatalogs (mem : Uninit) : DbM Unit := do
  callOrExit (RelCatalog.addInfo mem relCatDesc)
  addAll mem relCatAttrs
  callOrExit (RelCatalog.addInfo mem attrCatDesc)
  addAll mem attrCatAttrs

theorem dbcreate_eq (mem : Uninit) : dbcreate mem = (do
    callOrExit (createHeapFile RELCATNAME)
    callOrExit (createHeapFile ATTRCATNAME)
    let catalogs ← openCatalogs mem
    fillCatalogs mem
    catalogs.1.delete
    catalogs.2.delete) := by
  unfold dbcreate openCatalogs fillCatalogs
  simp only [bind_assoc]
  congr 1
  funext _
  congr 1
  funext _
  congr 1
  funext result
  cases result with
  | error status => rfl
  | ok relCat =>
      dsimp only
      rw [bind_assoc]
      congr 1
      funext result
      cases result <;> rfl

theorem fill_catalogs_keeps (mem : Uninit) : KeepsFlag (fillCatalogs mem) :=
  keeps_bind (call_or_exit_keeps (add_tuple_keeps _ _ _)) fun _ =>
    keeps_bind (add_all_keeps _ _) fun _ =>
      keeps_bind (call_or_exit_keeps (add_tuple_keeps _ _ _)) fun _ => add_all_keeps _ _

theorem open_catalogs_keeps (mem : Uninit) : KeepsFlag (openCatalogs mem) := by
  unfold openCatalogs
  repeat' first
    | exact keeps_pure _ | exact keeps_fail _ | exact HeapFile.new_keeps _ _
    | apply keeps_bind | intro _ | split

theorem Storage.fill_catalogs (storage : w.Storage pins opens)
    (owned : ∀ pin ∈ pins, pin.file ∈ opens) {relLf attrLf : LogicalFile}
    (relStores : w.Stores RELCATNAME relLf [2]) (relEmpty : relLf.tuples [2] = [])
    (attrStores : w.Stores ATTRCATNAME attrLf [2]) (attrEmpty : attrLf.tuples [2] = [])
    (mem : Uninit) :
    Smoothly (fillCatalogs mem) w fun _ w' => ∃ relLf' relChain attrLf' attrChain,
        w'.Storage pins opens ∧ (∀ file ∈ opens, w'.nameOf file = w.nameOf file) ∧
        w'.logical = Function.update (Function.update w.logical RELCATNAME (some relLf'))
          ATTRCATNAME (some attrLf') ∧
        w'.Stores RELCATNAME relLf' relChain ∧
        relLf'.tuples relChain = [relCatDesc.toRecord, attrCatDesc.toRecord] ∧
        w'.Stores ATTRCATNAME attrLf' attrChain ∧
        attrLf'.tuples attrChain = (relCatAttrs ++ attrCatAttrs).map AttrDesc.toRecord := by
  have lengths : ∀ attr ∈ relCatAttrs ++ attrCatAttrs, attr.toRecord.length = AttrDesc.size := by
    decide
  have addInfoKeeps : ∀ desc, KeepsFlag (callOrExit (RelCatalog.addInfo mem desc)) :=
    fun desc => call_or_exit_keeps (add_tuple_keeps _ _ _)
  apply smoothly_bind
  · exact fun _ => keeps_bind (add_all_keeps _ _) fun _ => keeps_bind (addInfoKeeps _) fun _ =>
      add_all_keeps _ _
  apply (smoothly_call_or_exit (storage.add_tuple owned relStores (by decide) (by decide)
    (by decide) mem)).mono
  rintro _ w₁ ⟨relLf₁, relAdds₁⟩
  obtain ⟨relChain₁, relStores₁, relFirst₁, _⟩ := relAdds₁.stores relStores
  have attrStores₁ := attrStores.elsewhere relAdds₁.logical (by decide)
  apply smoothly_bind
  · exact fun _ => keeps_bind (addInfoKeeps _) fun _ => add_all_keeps _ _
  apply (relAdds₁.storage.add_all owned attrStores₁ relCatAttrs
    (fun attr member => lengths attr (List.mem_append_left _ member)) mem).mono
  rintro _ w₂ ⟨attrLf₂, attrAdds₂⟩
  obtain ⟨attrChain₂, attrStores₂, attrFirst₂, _⟩ := attrAdds₂.stores attrStores₁
  have relStores₂ := relStores₁.elsewhere attrAdds₂.logical (by decide)
  apply smoothly_bind
  · exact fun _ => add_all_keeps _ _
  apply (smoothly_call_or_exit (attrAdds₂.storage.add_tuple owned relStores₂ (by decide)
    (by decide) (by decide) mem)).mono
  rintro _ w₃ ⟨relLf₃, relAdds₃⟩
  obtain ⟨relChain₃, relStores₃, relFirst₃, _⟩ := relAdds₃.stores relStores₂
  have attrStores₃ := attrStores₂.elsewhere relAdds₃.logical (by decide)
  apply (relAdds₃.storage.add_all owned attrStores₃ attrCatAttrs
    (fun attr member => lengths attr (List.mem_append_right _ member)) mem).mono
  rintro _ w₄ ⟨attrLf₄, attrAdds₄⟩
  obtain ⟨attrChain₄, attrStores₄, attrFirst₄, _⟩ := attrAdds₄.stores attrStores₃
  have relLater := relAdds₃.inserted
  rw [relFirst₁] at relLater
  obtain ⟨relChain, relFormed, relTuples⟩ := (relAdds₁.inserted.append relLater).tuples_of_empty
    relStores.formed (by decide) relEmpty
  have attrLater := attrAdds₄.inserted
  rw [attrFirst₂] at attrLater
  obtain ⟨attrChain, attrFormed, attrTuples⟩ :=
    (attrAdds₂.inserted.append attrLater).tuples_of_empty attrStores.formed (by decide) attrEmpty
  refine ⟨relLf₃, relChain, attrLf₄, attrChain, attrAdds₄.storage, ?_, ?_, ⟨?_, ?_⟩, relTuples,
    ⟨attrStores₄.logical, ?_⟩, ?_⟩
  · intro file member
    rw [attrAdds₄.names file member, relAdds₃.names file member, attrAdds₂.names file member,
      relAdds₁.names file member]
  · rw [attrAdds₄.logical, relAdds₃.logical, attrAdds₂.logical, relAdds₁.logical]
    funext other
    by_cases isAttr : other = ATTRCATNAME
    · rw [isAttr, Function.update_self, Function.update_self]
    rw [Function.update_of_ne isAttr, Function.update_of_ne isAttr]
    by_cases isRel : other = RELCATNAME
    · rw [isRel, Function.update_self, Function.update_self]
    rw [Function.update_of_ne isRel, Function.update_of_ne isRel, Function.update_of_ne isAttr,
      Function.update_of_ne isRel]
  · exact (relStores₃.elsewhere attrAdds₄.logical (by decide)).logical
  · rw [relFirst₃, relFirst₁]
    exact relFormed
  · rw [attrFirst₄, attrFirst₂]
    exact attrFormed
  · rw [attrTuples, List.map_append]

theorem JustStarted.dbcreate (started : w.JustStarted) (empty : ∀ name, w.disk name = none)
    (mem : Uninit) :
    Smoothly (dbcreate mem) w fun _ w' => w'.Represents [] [] Database.empty := by
  have absent : ∀ name, w.logical name = none := fun name => logical_eq_none_iff.mpr (empty name)
  have closeKeeps : ∀ relCat attrCat : HeapFile, KeepsFlag (do
      relCat.delete
      attrCat.delete) :=
    fun _ _ => keeps_bind (HeapFile.delete_keeps _) fun _ => HeapFile.delete_keeps _
  rw [dbcreate_eq]
  apply smoothly_bind
  · exact fun _ => keeps_bind (call_or_exit_keeps (create_heap_file_keeps _)) fun _ =>
      keeps_bind (open_catalogs_keeps mem) fun _ => keeps_bind (fill_catalogs_keeps mem) fun _ =>
        closeKeeps _ _
  apply (started.storage.create_catalog (absent RELCATNAME) (by decide)).mono
  rintro _ w₁ ⟨relLf, storage₁, logical₁, relStores, relEmpty⟩
  have attrAbsent : w₁.logical ATTRCATNAME = none := by
    rw [logical₁, Function.update_of_ne (by decide)]
    exact absent ATTRCATNAME
  apply smoothly_bind
  · exact fun _ => keeps_bind (open_catalogs_keeps mem) fun _ =>
      keeps_bind (fill_catalogs_keeps mem) fun _ => closeKeeps _ _
  apply (storage₁.create_catalog attrAbsent (by decide)).mono
  rintro _ w₂ ⟨attrLf, storage₂, logical₂, attrStores, attrEmpty⟩
  have relStores₂ := relStores.elsewhere logical₂ (by decide)
  apply smoothly_bind
  · exact fun _ => keeps_bind (fill_catalogs_keeps mem) fun _ => closeKeeps _ _
  apply (storage₂.open_catalogs relStores₂.logical attrStores.logical mem).mono
  rintro ⟨relCat, attrCat⟩ w₃ ⟨opened, logical₃⟩
  have relStores₃ : w₃.Stores RELCATNAME relLf [2] :=
    ⟨by rw [logical₃]; exact relStores₂.logical, relStores₂.formed⟩
  have attrStores₃ : w₃.Stores ATTRCATNAME attrLf [2] :=
    ⟨by rw [logical₃]; exact attrStores.logical, attrStores.formed⟩
  apply smoothly_bind
  · exact fun _ => closeKeeps _ _
  apply (opened.storage.fill_catalogs (catalog_pins_owned relCat attrCat) relStores₃ relEmpty
    attrStores₃ attrEmpty mem).mono
  rintro _ w₄ ⟨relLf', relChain, attrLf', attrChain, storage₄, names, logical₄, relStores₄,
    relTuples, attrStores₄, attrTuples⟩
  have filled : w₄.Represents (attrCat.pins ++ relCat.pins) [attrCat.filePtr, relCat.filePtr]
      Database.empty := by
    refine ⟨storage₄, catalog_pins_owned relCat attrCat, ?_,
      ⟨relLf', relChain, relStores₄, lists_empty relTuples⟩,
      ⟨attrLf', attrChain, attrStores₄, describes_empty attrTuples⟩, ?_, ?_⟩
    · intro file member
      rw [names file member]
      exact opened.named file member
    · intro name table found
      cases found
    · intro name ⟨_, notRel, notAttr⟩ _
      rw [logical₄, Function.update_of_ne notAttr, Function.update_of_ne notRel, logical₃,
        logical₂, Function.update_of_ne notAttr, logical₁, Function.update_of_ne notRel]
      exact absent name
  obtain ⟨w₅, w', relDeleted, attrDeleted, closed⟩ := filled.close_catalogs
  apply smoothly_bind_eq relDeleted
  intro _
  exact ⟨(), w', attrDeleted, closed⟩

end Creation

/-- In any number of processes after `dbcreate`, the files hold at last what the statements have
made of the tables, all of them one after the other. -/
theorem lives_refine_tables (started : w.JustStarted) (empty : ∀ name, w.disk name = none)
    (mem : Uninit) {w₁ : World} (created : PrimitiveDB.dbcreate mem w = (.ok (), w₁))
    (smooth : w₁.bufFailed = false) {processes : List Process} (lives : Lives w₁ processes w')
    (defined : Relational.lives processes Database.empty = some db) :
    w'.Represents [] [] db := by
  obtain ⟨_, _, represents⟩ := (started.dbcreate empty mem).result created smooth
  exact lives.represents represents defined

open HeapSession (zeroMemory)

def processOf (trees : List NODE) : Process :=
  ⟨.NLJoin, zeroMemory, 8, fun _ => 0, trees.map fun tree => (zeroSurroundings, tree)⟩

theorem lives_refine_tables_restart :
    ∃ w' db, Lives (PrimitiveDB.dbcreate zeroMemory (databaseOf 8 [])).2
        [processOf [createT, insertT 5, insertT 7], processOf [deleteT 6, .PRINT [116]]] w' ∧
      w'.Represents [] [] db ∧
      (db.table [116]).map Relational.Table.rows = some {[7, 0, 0, 0]} := by
  obtain ⟨outcome₁, w₁, outcome₂, w₂, outcome, w', created, run₂, run, smooth₁, smooth₂,
      smooth⟩ : ∃ outcome₁ w₁ outcome₂ w₂ outcome w',
      PrimitiveDB.dbcreate zeroMemory (databaseOf 8 []) = (outcome₁, w₁) ∧
      minirel .NLJoin zeroMemory (processOf [createT, insertT 5, insertT 7]).statements
        (w₁.restart 8 fun _ => 0) = (outcome₂, w₂) ∧
      minirel .NLJoin zeroMemory (processOf [deleteT 6, .PRINT [116]]).statements
        (w₂.restart 8 fun _ => 0) = (outcome, w') ∧
      w₁.bufFailed = false ∧ w₂.bufFailed = false ∧ w'.bufFailed = false :=
    ⟨_, _, _, _, _, _, Prod.mk.eta.symm, Prod.mk.eta.symm, Prod.mk.eta.symm, by decide +kernel,
      by decide +kernel, by decide +kernel⟩
  have started : (databaseOf 8 []).JustStarted := database_just_started (by decide) []
  obtain ⟨_, rfl, represents₁⟩ :=
    (started.dbcreate (fun _ => rfl) zeroMemory).result created smooth₁
  obtain ⟨db₂, defined₂, ⟨⟨_, db⟩, defined, rfl, rows⟩⟩ : ∃ db₂,
      interpAll (relationalCalls .NLJoin) 0
        (processOf [createT, insertT 5, insertT 7]).statements Database.empty =
          some (.ok 0, db₂) ∧
      ∃ ends ∈ interpAll (relationalCalls .NLJoin) 0
        (processOf [deleteT 6, .PRINT [116]]).statements db₂, ends.1 = .ok 0 ∧
          (ends.2.table [116]).map Relational.Table.rows = some {[7, 0, 0, 0]} :=
    Relational.exists_of_holds (by decide +kernel)
  obtain ⟨_, rfl, represents₂⟩ := ((represents₁.restart (by decide) _).minirel .NLJoin zeroMemory
    _ defined₂).result run₂ smooth₂
  obtain ⟨_, rfl, _⟩ := ((represents₂.restart (by decide) _).minirel .NLJoin zeroMemory
    _ defined).result run smooth
  have later : Lives w₂ [processOf [deleteT 6, .PRINT [116]]] w' :=
    .cons (by decide) run smooth (.nil w')
  have lives : Lives w₁
      [processOf [createT, insertT 5, insertT 7], processOf [deleteT 6, .PRINT [116]]] w' :=
    .cons (by decide) run₂ smooth₂ later
  refine ⟨w', db, ?_, lives_refine_tables started (fun _ => rfl) zeroMemory created smooth₁ lives
    ?_, rows⟩
  · rw [created]
    exact lives
  · rw [Relational.lives_cons (processOf [createT, insertT 5, insertT 7]) _ defined₂,
      Relational.lives_cons (processOf [deleteT 6, .PRINT [116]]) _ defined]
    rfl

end World

end PrimitiveDB

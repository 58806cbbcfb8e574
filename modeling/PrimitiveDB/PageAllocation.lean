import PrimitiveDB.FilePages
import PrimitiveDB.DatabaseFiles

/-!
# Allocating and disposing of the pages of a file

Clients of one open `File` allocate pages, dispose of them and write them. Each
client knows a page only from the result of `allocatePage`; the file knows it
from the header page and from the list threaded through the disposed pages. The
two stay in step through every run.
-/

namespace PrimitiveDB

set_option autoImplicit false

namespace UnixFile

variable {contents : UnixFile} {free : List Int} {pageNo : Int}

def dispose (contents : UnixFile) (pageNo : Int) : UnixFile :=
  let db := (contents.page 0).asDBPage
  let away := PageImage.zero.setDBPage { nextFree := db.nextFree, firstPage := 0, numPages := 0 }
  (contents.writeAt pageNo.toNat away).writeAt 0
    ((contents.page 0).setDBPage { db with nextFree := pageNo })

theorem dispose_size (headed : 1 ≤ contents.size) (lower : 1 ≤ pageNo)
    (upper : pageNo < contents.size) : (contents.dispose pageNo).size = contents.size := by
  simp only [dispose, writeAt]
  omega

theorem dispose_free_list (list : contents.FreeList free) (lower : 1 ≤ pageNo)
    (upper : pageNo < contents.size) (absent : pageNo ∉ free) :
    (contents.dispose pageNo).FreeList (pageNo :: free) := by
  have headed := list.header
  have size := dispose_size headed lower upper
  have written : ∀ image, (contents.writeAt pageNo.toNat image).size = contents.size :=
    fun image => write_at_size contents image (by omega)
  have head : (contents.dispose pageNo).page 0 = (contents.page 0).setDBPage
      { (contents.page 0).asDBPage with nextFree := pageNo } := write_at_self _ _ _
  have link : ((contents.dispose pageNo).page pageNo.toNat).asDBPage.nextFree =
      (contents.page 0).asDBPage.nextFree := by
    simp only [dispose]
    rw [write_at_other _ _ (by omega) (by rw [written]; omega), write_at_self]
    rfl
  refine
    { header := by rw [size]; exact headed
      numPages := ?_
      chain := ?_
      nodup := List.nodup_cons.mpr ⟨absent, list.nodup⟩ }
  · rw [head, size]
    exact list.numPages
  · rw [head]
    refine ⟨rfl, lower, by rw [size]; exact upper, ?_⟩
    rw [link]
    refine free_chain_congr _ free (le_of_eq size.symm) ?_ list.chain
    intro other member
    have inside := free_chain_inside contents _ free list.chain other member
    have different : other ≠ pageNo := by
      rintro rfl
      exact absent member
    simp only [dispose]
    rw [write_at_other _ _ (by omega) (by rw [written]; omega),
      write_at_other _ _ (by omega) (by omega)]

end UnixFile

namespace File

open World

variable {w : World} {file : FilePtr} {object : File} {contents : UnixFile} {free : List Int}

def created : UnixFile :=
  UnixFile.writeAt { size := 0, page := fun _ => PageImage.zero } 0 emptyHeader

theorem create_run (reliable : w.Reliable) (fileName : FileName) :
    create fileName w =
      match w.disk fileName with
      | some _ => (.err .FILEEXISTS, w)
      | none => (.ok (), w.setDisk fileName (some created)) := by
  have calm : ∀ now, (w.setDisk fileName now).faults 0 = false := fun _ => congrFun reliable 0
  have still : ∀ now, (w.setDisk fileName now).tick = w.setDisk fileName now :=
    fun now => tick_of_reliable (w := w.setDisk fileName now) reliable
  unfold create
  rw [DbM.bind_ok (show DbM.systemCall w = (.ok (w.faults 0), w.tick) from rfl),
    congrFun reliable 0, tick_of_reliable reliable, if_neg Bool.false_ne_true, DbM.read_bind]
  cases w.disk fileName with
  | some contents => rfl
  | none =>
      simp only [DbM.bind_apply, DbM.modify, DbM.systemCall, calm, still, Bool.false_eq_true,
        if_false, set_disk_twice]
      rfl

/-- Without faults `open` on an object that is not open asks only for the file to be there. -/
theorem open_run (reliable : w.Reliable) (live : w.files file = some object)
    (unopened : object.openCnt = 0) :
    open_ file w =
      match w.disk object.fileName with
      | none => (.err .UNIXERR, w)
      | some _ => (.ok (), w.setFile file (some { object with openCnt := 1, unixFile := true })) := by
  unfold open_
  rw [DbM.bind_ok (show deref file w = (.ok object, w) by simp [deref, live]), if_pos unopened,
    DbM.bind_ok (show DbM.systemCall w = (.ok (w.faults 0), w.tick) from rfl),
    congrFun reliable 0, tick_of_reliable reliable, if_neg Bool.false_ne_true, DbM.read_bind]
  cases w.disk object.fileName <;> rfl

/-- Without faults `disposePage` on a page of the file other than the first one succeeds. -/
theorem dispose_page_spec (reliable : w.Reliable) (live : w.files file = some object)
    (openFd : object.unixFile = true) (stored : w.disk object.fileName = some contents)
    (list : contents.FreeList free) {pageNo : Int} (lower : 1 ≤ pageNo)
    (upper : pageNo < contents.size) :
    disposePage file pageNo w =
      if (contents.page 0).asDBPage.firstPage = pageNo then (.err .BADPAGENO, w)
      else (.ok (), w.setDisk object.fileName (some (contents.dispose pageNo))) := by
  have headed := list.header
  have opened : w.unixFile file = some contents := by
    simp [World.unixFile, live, openFd, stored]
  have calm : w.faults 0 = false := congrFun reliable 0
  have readHeader := intread_ok opened calm (le_refl (0 : Int)) (by omega)
  have readPage := intread_ok opened calm (show (0 : Int) ≤ pageNo by omega) upper
  rw [tick_of_reliable reliable] at readHeader readPage
  rw [Int.toNat_zero] at readHeader
  have write : ∀ (now : UnixFile) (pageNo : Int) (image : PageImage), 0 ≤ pageNo →
      intwrite file pageNo image (w.setDisk object.fileName (some now)) =
        (.ok (), w.setDisk object.fileName (some (now.writeAt pageNo.toNat image))) := by
    intro now pageNo image lower
    have step := intwrite_ok (w := w.setDisk object.fileName (some now)) live
      (unix_file_set_disk live openFd now) calm lower image
    rwa [tick_of_reliable (w := w.setDisk _ _) reliable, set_disk_twice] at step
  have here : w.setDisk object.fileName (some contents) = w := by
    simp [setDisk, ← stored]
  unfold disposePage
  rw [if_neg (by omega), DbM.bind_ok readHeader]
  dsimp only
  have count := list.numPages
  by_cases first : (contents.page 0).asDBPage.firstPage = pageNo
  · rw [if_pos (.inl first), if_pos first]
    rfl
  · rw [if_neg (by omega), if_neg first, DbM.bind_ok readPage]
    have unhook := fun image => write contents pageNo image (by omega)
    rw [here] at unhook
    rw [DbM.bind_ok (unhook _), write _ 0 _ (le_refl 0)]
    rfl

end File

inductive PageCall where
  | allocatePage
  | disposePage (pageNo : Int)
  | writePage (pageNo : Int) (image : PageImage)

/-- An open file and what the results of the calls on it have told its clients. -/
structure PageClient where
  world : World
  /-- Pages handed out and not disposed of since. -/
  allocated : List Int
  /-- Pages disposed of and not handed out since, the last one in front. -/
  disposed : List Int
  /-- Every page that was ever handed out, the first one in front. -/
  history : List Int

namespace PageClient

variable {file : FilePtr} {fileName : FileName} {client client' : PageClient}

def call (file : FilePtr) (client : PageClient) : PageCall → PageClient
  | .allocatePage =>
      match File.allocatePage file client.world with
      | (.ok pageNo, w) =>
          { world := w
            allocated := pageNo :: client.allocated
            disposed := client.disposed.erase pageNo
            history := client.history ++ [pageNo] }
      | (_, w) => { client with world := w }
  | .disposePage pageNo =>
      match File.disposePage file pageNo client.world with
      | (.ok (), w) =>
          { client with
            world := w
            allocated := client.allocated.erase pageNo
            disposed := pageNo :: client.disposed }
      | (_, w) => { client with world := w }
  | .writePage pageNo image =>
      { client with world := (File.writePage file pageNo image client.world).2 }

def Permits (client : PageClient) : PageCall → Prop
  | .allocatePage => True
  | .disposePage pageNo => pageNo ∈ client.allocated
  | .writePage pageNo _ => pageNo ∈ client.allocated

def Step (file : FilePtr) (client client' : PageClient) : Prop :=
  ∃ call, client.Permits call ∧ client' = client.call file call

/-- A file that has just been created, behind a `File` object that has just opened it. -/
structure Created (file : FilePtr) (fileName : FileName) (client : PageClient) : Prop where
  starts : ∃ w w₁ object, w.Reliable ∧ File.create fileName w = (.ok (), w₁) ∧
    w₁.files file = some object ∧ object.fileName = fileName ∧ object.openCnt = 0 ∧
    File.open_ file w₁ = (.ok (), client.world)
  allocated : client.allocated = []
  disposed : client.disposed = []
  history : client.history = []

structure Accounted (client : PageClient) (contents : UnixFile) : Prop where
  /-- Every page is allocated or free. -/
  covered : ∀ pageNo, 1 ≤ pageNo ∧ pageNo < (contents.page 0).asDBPage.numPages ↔
    pageNo ∈ client.allocated ∨ pageNo ∈ client.disposed
  apart : ∀ pageNo ∈ client.allocated, pageNo ∉ client.disposed
  /-- The list that starts in the header runs through the free pages and ends. -/
  list : contents.FreeChain (contents.page 0).asDBPage.nextFree client.disposed
  once : client.disposed.Nodup
  /-- The first page of the file is the first one that was ever allocated. -/
  first : (contents.page 0).asDBPage.firstPage = client.history.head?.getD (-1)
  kept : ∀ pageNo ∈ client.history.head?, pageNo ∈ client.allocated

/-- The state of the file between two calls. -/
structure InStep (file : FilePtr) (fileName : FileName) (client : PageClient)
    (contents : UnixFile) : Prop extends Accounted client contents where
  reliable : client.world.Reliable
  opened : ∃ object, client.world.files file = some object ∧ object.unixFile = true ∧
    object.fileName = fileName
  stored : client.world.disk fileName = some contents
  freeList : contents.FreeList client.disposed
  unique : client.allocated.Nodup
  handed : ∀ pageNo, pageNo ∈ client.allocated ∨ pageNo ∈ client.disposed →
    pageNo ∈ client.history

variable {contents : UnixFile}

theorem InStep.allocated_iff (inStep : InStep file fileName client contents) (pageNo : Int) :
    pageNo ∈ client.allocated ↔
      1 ≤ pageNo ∧ pageNo < contents.size ∧ pageNo ∉ client.disposed := by
  have covered := inStep.covered pageNo
  rw [inStep.freeList.numPages] at covered
  constructor
  · intro member
    obtain ⟨lower, upper⟩ := covered.mpr (.inl member)
    exact ⟨lower, upper, inStep.apart pageNo member⟩
  · rintro ⟨lower, upper, absent⟩
    exact (covered.mp ⟨lower, upper⟩).resolve_right absent

/-- Where the header page and the file are in step, a client only has to know which
pages it holds. -/
theorem accounted_of_free_list {allocated disposed history : List Int} {world : World}
    (freeList : contents.FreeList disposed)
    (holds : ∀ pageNo, pageNo ∈ allocated ↔
      1 ≤ pageNo ∧ pageNo < contents.size ∧ pageNo ∉ disposed)
    (first : (contents.page 0).asDBPage.firstPage = history.head?.getD (-1))
    (kept : ∀ pageNo ∈ history.head?, pageNo ∈ allocated) :
    Accounted ⟨world, allocated, disposed, history⟩ contents where
  covered := by
    intro pageNo
    rw [freeList.numPages, holds]
    constructor
    · intro inside
      by_cases free : pageNo ∈ disposed
      · exact .inr free
      · exact .inl ⟨inside.1, inside.2, free⟩
    · rintro (member | free)
      · exact ⟨member.1, member.2.1⟩
      · exact UnixFile.free_chain_inside contents _ _ freeList.chain pageNo free
  apart := fun pageNo member => ((holds pageNo).mp member).2.2
  list := freeList.chain
  once := freeList.nodup
  first := first
  kept := kept

/-- The header page of a file that has just been created lists no pages. -/
theorem created_in_step (created : Created file fileName client) :
    ∃ contents, InStep file fileName client contents := by
  obtain ⟨⟨w, w₁, object, reliable, run, live, rfl, unopened, opens⟩, allocated, disposed,
    history⟩ := created
  obtain ⟨world, _, _, _⟩ := client
  dsimp only at opens allocated disposed history
  subst allocated disposed history
  -- what `create` leaves on the disk
  rw [File.create_run reliable] at run
  have stored : w₁ = w.setDisk object.fileName (some File.created) := by
    cases absent : w.disk object.fileName with
    | some contents =>
        rw [absent] at run
        cases run
    | none =>
        rw [absent] at run
        cases run
        rfl
  subst stored
  have calm : (w.setDisk object.fileName (some File.created)).Reliable := reliable
  have there : (w.setDisk object.fileName (some File.created)).disk object.fileName =
      some File.created := Function.update_self _ _ _
  rw [File.open_run calm live unopened, there] at opens
  cases opens
  have freeList : File.created.FreeList [] := ⟨le_refl 1, rfl, rfl, List.nodup_nil⟩
  refine ⟨File.created, accounted_of_free_list freeList ?_ rfl (by simp), reliable, ?_, there,
    freeList, List.nodup_nil, by simp⟩
  · intro pageNo
    have size : File.created.size = 1 := rfl
    rw [size]
    simp only [List.not_mem_nil, not_false_eq_true, and_true, false_iff]
    omega
  · exact ⟨_, Function.update_self _ _ _, rfl, rfl⟩

theorem InStep.nothing_allocated (inStep : InStep file fileName client contents)
    (none_ : client.history = []) : client.disposed = [] := by
  rw [List.eq_nil_iff_forall_not_mem]
  intro pageNo member
  have handed := inStep.handed pageNo (.inr member)
  rw [none_] at handed
  cases handed

theorem InStep.first_page_none (inStep : InStep file fileName client contents) :
    (contents.page 0).asDBPage.firstPage = -1 ↔ client.history = [] := by
  rw [inStep.first]
  cases recorded : client.history with
  | nil => simp
  | cons pageNo later =>
      have member := inStep.kept pageNo (by rw [recorded]; rfl)
      have lower := ((inStep.allocated_iff pageNo).mp member).1
      simp only [List.head?_cons, Option.getD_some, reduceCtorEq, iff_false]
      omega

/-- `allocatePage` with no disposed page adds a page at the end of the file. -/
theorem InStep.extend (inStep : InStep file fileName client contents)
    (none_ : client.disposed = []) :
    ∃ w', File.allocatePage file client.world = (.ok contents.size, w') ∧
      InStep file fileName ⟨w', contents.size :: client.allocated, [],
        client.history ++ [(contents.size : Int)]⟩ contents.extend := by
  obtain ⟨object, live, openFd, rfl⟩ := inStep.opened
  have freeList := inStep.freeList
  rw [none_] at freeList
  have run := File.allocate_page_run inStep.reliable live openFd inStep.stored freeList
  have freeList' := UnixFile.extend_free_list freeList
  have headed := freeList.header
  have size := UnixFile.extend_size headed
  have first : (contents.extend.page 0).asDBPage.firstPage =
      if (contents.page 0).asDBPage.firstPage = -1 then (contents.size : Int)
      else (contents.page 0).asDBPage.firstPage := by
    simp only [UnixFile.extend, UnixFile.write_at_self, PageImage.as_db_page_set, freeList.numPages]
  have holds : ∀ pageNo, pageNo ∈ (contents.size : Int) :: client.allocated ↔
      1 ≤ pageNo ∧ pageNo < contents.extend.size ∧ pageNo ∉ ([] : List Int) := by
    intro pageNo
    rw [List.mem_cons, inStep.allocated_iff, none_, size]
    simp only [List.not_mem_nil, not_false_eq_true, and_true]
    push_cast
    omega
  refine ⟨_, run, accounted_of_free_list freeList' holds ?_ ?_, inStep.reliable,
    ⟨object, live, openFd, rfl⟩, Function.update_self _ _ _, freeList', ?_, ?_⟩
  · rw [first]
    by_cases start : client.history = []
    · rw [if_pos (inStep.first_page_none.mpr start), start]
      rfl
    · rw [if_neg (mt inStep.first_page_none.mp start), inStep.first,
        List.head?_append_of_ne_nil _ start]
  · intro pageNo recorded
    by_cases start : client.history = []
    · rw [start] at recorded
      simp only [List.nil_append, List.head?_cons, Option.mem_def, Option.some.injEq] at recorded
      simp [recorded]
    · rw [List.head?_append_of_ne_nil _ start] at recorded
      exact List.mem_cons_of_mem _ (inStep.kept pageNo recorded)
  · rw [List.nodup_cons]
    refine ⟨?_, inStep.unique⟩
    rw [inStep.allocated_iff]
    omega
  · rintro pageNo (member | free)
    · rcases List.mem_cons.mp member with rfl | earlier
      · simp
      · exact List.mem_append_left _ (inStep.handed pageNo (.inl earlier))
    · cases free

theorem InStep.reuse {pageNo : Int} {rest : List Int}
    (inStep : InStep file fileName client contents) (free : client.disposed = pageNo :: rest) :
    ∃ w', File.allocatePage file client.world = (.ok pageNo, w') ∧
      InStep file fileName ⟨w', pageNo :: client.allocated, rest,
        client.history ++ [pageNo]⟩ (contents.reuse pageNo) := by
  obtain ⟨object, live, openFd, rfl⟩ := inStep.opened
  have freeList := inStep.freeList
  rw [free] at freeList
  have run := File.allocate_page_run inStep.reliable live openFd inStep.stored freeList
  have freeList' := UnixFile.reuse_free_list freeList
  have headed := freeList.header
  have size : (contents.reuse pageNo).size = contents.size :=
    UnixFile.write_at_size contents _ (by omega)
  have inside := freeList.chain.2
  have outside := (List.nodup_cons.mp freeList.nodup).1
  have begun : client.history ≠ [] := by
    intro start
    have none_ := inStep.nothing_allocated start
    rw [free] at none_
    cases none_
  have holds : ∀ other, other ∈ pageNo :: client.allocated ↔
      1 ≤ other ∧ other < (contents.reuse pageNo).size ∧ other ∉ rest := by
    intro other
    rw [List.mem_cons, inStep.allocated_iff, free, size, List.mem_cons, not_or]
    constructor
    · rintro (rfl | ⟨lower, upper, _, absent⟩)
      · exact ⟨inside.1, inside.2.1, outside⟩
      · exact ⟨lower, upper, absent⟩
    · rintro ⟨lower, upper, absent⟩
      by_cases same : other = pageNo
      · exact .inl same
      · exact .inr ⟨lower, upper, same, absent⟩
  refine ⟨_, run, accounted_of_free_list freeList' holds ?_ ?_, inStep.reliable,
    ⟨object, live, openFd, rfl⟩, Function.update_self _ _ _, freeList', ?_, ?_⟩
  · rw [List.head?_append_of_ne_nil _ begun, ← inStep.first]
    simp only [UnixFile.reuse, UnixFile.write_at_self, PageImage.as_db_page_set]
  · intro other recorded
    rw [List.head?_append_of_ne_nil _ begun] at recorded
    exact List.mem_cons_of_mem _ (inStep.kept other recorded)
  · rw [List.nodup_cons]
    refine ⟨?_, inStep.unique⟩
    rw [inStep.allocated_iff, free]
    simp
  · rintro other (member | later)
    · rcases List.mem_cons.mp member with rfl | earlier
      · simp
      · exact List.mem_append_left _ (inStep.handed other (.inl earlier))
    · refine List.mem_append_left _ (inStep.handed other (.inr ?_))
      rw [free]
      exact List.mem_cons_of_mem _ later

/-- The first page is never disposed of; any other allocated page joins the free list. -/
theorem InStep.dispose {pageNo : Int} (inStep : InStep file fileName client contents)
    (member : pageNo ∈ client.allocated) :
    if client.history.head? = some pageNo then
      File.disposePage file pageNo client.world = (.err .BADPAGENO, client.world)
    else ∃ w', File.disposePage file pageNo client.world = (.ok (), w') ∧
      InStep file fileName ⟨w', client.allocated.erase pageNo, pageNo :: client.disposed,
        client.history⟩ (contents.dispose pageNo) := by
  obtain ⟨object, live, openFd, rfl⟩ := inStep.opened
  obtain ⟨lower, upper, absent⟩ := (inStep.allocated_iff pageNo).mp member
  have freeList := inStep.freeList
  have run := File.dispose_page_spec inStep.reliable live openFd inStep.stored freeList lower upper
  have recorded : (contents.page 0).asDBPage.firstPage = pageNo ↔
      client.history.head? = some pageNo := by
    rw [inStep.first]
    cases client.history.head? with
    | none =>
        simp only [Option.getD_none, reduceCtorEq, iff_false]
        omega
    | some first => simp
  by_cases first : client.history.head? = some pageNo
  · rw [if_pos first, run, if_pos (recorded.mpr first)]
  · rw [if_neg first]
    rw [if_neg (mt recorded.mp first)] at run
    have freeList' := UnixFile.dispose_free_list freeList lower upper absent
    have size := UnixFile.dispose_size freeList.header lower upper
    have holds : ∀ other, other ∈ client.allocated.erase pageNo ↔
        1 ≤ other ∧ other < (contents.dispose pageNo).size ∧
          other ∉ pageNo :: client.disposed := by
      intro other
      rw [inStep.unique.mem_erase_iff, inStep.allocated_iff, size, List.mem_cons, not_or]
      tauto
    refine ⟨_, run, accounted_of_free_list freeList' holds ?_ ?_, inStep.reliable,
      ⟨object, live, openFd, rfl⟩, Function.update_self _ _ _, freeList', inStep.unique.erase _,
      ?_⟩
    · rw [← inStep.first]
      simp only [UnixFile.dispose, UnixFile.write_at_self, PageImage.as_db_page_set]
    · intro other begins
      rw [inStep.unique.mem_erase_iff]
      refine ⟨?_, inStep.kept other begins⟩
      rintro rfl
      exact first begins
    · rintro other (kept | free)
      · exact inStep.handed other (.inl (List.mem_of_mem_erase kept))
      · rcases List.mem_cons.mp free with rfl | earlier
        · exact inStep.handed other (.inl member)
        · exact inStep.handed other (.inr earlier)

theorem InStep.write {pageNo : Int} (inStep : InStep file fileName client contents)
    (member : pageNo ∈ client.allocated) (image : PageImage) :
    ∃ w', File.writePage file pageNo image client.world = (.ok (), w') ∧
      InStep file fileName { client with world := w' }
        (contents.writeAt pageNo.toNat image) := by
  obtain ⟨object, live, openFd, rfl⟩ := inStep.opened
  obtain ⟨lower, upper, absent⟩ := (inStep.allocated_iff pageNo).mp member
  have opened : client.world.unixFile file = some contents := by
    simp [World.unixFile, live, openFd, inStep.stored]
  have run := File.write_page_reliable inStep.reliable live opened lower image
  have freeList' := inStep.freeList.write
    ((inStep.freeList.allocated_iff pageNo).mpr ⟨lower, upper, absent⟩) image
  have size : (contents.writeAt pageNo.toNat image).size = contents.size :=
    UnixFile.write_at_size contents image (by omega)
  have headed := inStep.freeList.header
  refine ⟨_, run, accounted_of_free_list freeList' ?_ ?_ inStep.kept, inStep.reliable,
    ⟨object, live, openFd, rfl⟩, Function.update_self _ _ _, freeList', inStep.unique,
    inStep.handed⟩
  · intro other
    rw [inStep.allocated_iff, size]
  · rw [UnixFile.write_at_other contents image (by omega) (by omega), inStep.first]

theorem InStep.step (inStep : InStep file fileName client contents)
    (step : Step file client client') : ∃ contents', InStep file fileName client' contents' := by
  obtain ⟨call, permitted, rfl⟩ := step
  cases call with
  | allocatePage =>
      cases free : client.disposed with
      | nil =>
          obtain ⟨w', run, inStep'⟩ := inStep.extend free
          simp only [PageClient.call, run, free, List.erase_nil]
          exact ⟨_, inStep'⟩
      | cons pageNo rest =>
          obtain ⟨w', run, inStep'⟩ := inStep.reuse free
          simp only [PageClient.call, run, free, List.erase_cons_head]
          exact ⟨_, inStep'⟩
  | disposePage pageNo =>
      have disposes := inStep.dispose permitted
      split at disposes
      · simp only [PageClient.call, disposes]
        exact ⟨contents, inStep⟩
      · obtain ⟨w', run, inStep'⟩ := disposes
        simp only [PageClient.call, run]
        exact ⟨_, inStep'⟩
  | writePage pageNo image =>
      obtain ⟨w', run, inStep'⟩ := inStep.write permitted image
      simp only [PageClient.call, run]
      exact ⟨_, inStep'⟩

theorem created_run_in_step (created : Created file fileName client)
    (run : Relation.ReflTransGen (Step file) client client') :
    ∃ contents, InStep file fileName client' contents := by
  induction run with
  | refl => exact created_in_step created
  | tail _ step ih =>
      obtain ⟨contents, inStep⟩ := ih
      exact inStep.step step

end PageClient

open PageClient in
/-- In every state that the clients of a new file can reach, its pages are the allocated
ones and the free ones, the free list links the free pages, and the next
`allocatePage` hands out the page that was disposed of last, or else a new one.
The first page is the first that was ever allocated, and cannot be disposed of. -/
theorem pages_are_allocated_or_free {file : FilePtr} {fileName : FileName}
    {start client : PageClient} (created : Created file fileName start)
    (run : Relation.ReflTransGen (Step file) start client) :
    ∃ contents, client.world.disk fileName = some contents ∧ client.Accounted contents ∧
      (∃ pageNo w' after, File.allocatePage file client.world = (.ok pageNo, w') ∧
        w'.disk fileName = some after ∧ pageNo ∉ client.allocated ∧
        match client.disposed with
        | [] => pageNo = (contents.page 0).asDBPage.numPages ∧
            (after.page 0).asDBPage.numPages = (contents.page 0).asDBPage.numPages + 1
        | last :: _ => pageNo = last ∧
            (after.page 0).asDBPage.numPages = (contents.page 0).asDBPage.numPages) ∧
      ∀ pageNo ∈ client.allocated,
        (File.disposePage file pageNo client.world).1 =
          if (contents.page 0).asDBPage.firstPage = pageNo then .err .BADPAGENO else .ok () := by
  obtain ⟨contents, inStep⟩ := created_run_in_step created run
  refine ⟨contents, inStep.stored, inStep.toAccounted, ?_, ?_⟩
  · cases free : client.disposed with
    | nil =>
        obtain ⟨w', run, inStep'⟩ := inStep.extend free
        have headed := inStep.freeList.header
        refine ⟨contents.size, w', contents.extend, run, inStep'.stored, ?_, ?_, ?_⟩
        · exact (List.nodup_cons.mp inStep'.unique).1
        · rw [inStep.freeList.numPages]
        · rw [inStep'.freeList.numPages, inStep.freeList.numPages, UnixFile.extend_size headed]
          push_cast
          rfl
    | cons pageNo rest =>
        obtain ⟨w', run, inStep'⟩ := inStep.reuse free
        have headed := inStep.freeList.header
        refine ⟨pageNo, w', contents.reuse pageNo, run, inStep'.stored, ?_, rfl, ?_⟩
        · exact (List.nodup_cons.mp inStep'.unique).1
        · rw [inStep'.freeList.numPages, inStep.freeList.numPages]
          simp only [UnixFile.reuse]
          rw [UnixFile.write_at_size contents _ (by omega)]
  · intro pageNo member
    have disposes := inStep.dispose member
    have lower := ((inStep.allocated_iff pageNo).mp member).1
    rw [inStep.first]
    cases begins : client.history.head? with
    | none =>
        rw [begins, if_neg (by simp)] at disposes
        obtain ⟨w', run, _⟩ := disposes
        rw [run, Option.getD_none, if_neg (by omega)]
    | some first =>
        rw [begins] at disposes
        rw [Option.getD_some]
        by_cases same : first = pageNo
        · rw [if_pos (by rw [same])] at disposes
          rw [disposes, if_pos same]
        · rw [if_neg (by simpa using same)] at disposes
          obtain ⟨w', run, _⟩ := disposes
          rw [run, if_neg same]

namespace PageClient

/-- An empty directory, and a `File` object for the name `f`. -/
def emptyDirectory : World :=
  { disk := fun _ => none
    files := fun file =>
      if file = 1 then some { fileName := [102], openCnt := 0, unixFile := false } else none
    brk := 2
    malloc := fun _ => 0
    openFiles := { ht := ChainedTable.empty }
    bufMgr := BufMgr.new 1
    faults := fun _ => false
    bufFailed := false
    given := fun _ _ => none }

def newFile : PageClient :=
  { world := (File.open_ 1 (File.create [102] emptyDirectory).2).2
    allocated := []
    disposed := []
    history := [] }

def secondDisposed : PageClient :=
  ((newFile.call 1 .allocatePage).call 1 .allocatePage).call 1 (.disposePage 2)

end PageClient

open PageClient in
theorem pages_are_allocated_or_free_second_disposed :
    secondDisposed.disposed = [2] ∧
      ∃ contents, secondDisposed.world.disk [102] = some contents ∧
        secondDisposed.Accounted contents ∧
        (File.allocatePage 1 secondDisposed.world).1 = .ok 2 := by
  have created : Created 1 [102] newFile :=
    { starts := ⟨emptyDirectory, _, _, rfl, rfl, rfl, rfl, rfl, rfl⟩
      allocated := rfl
      disposed := rfl
      history := rfl }
  have first : Relation.ReflTransGen (Step 1) newFile (newFile.call 1 .allocatePage) :=
    .single ⟨.allocatePage, trivial, rfl⟩
  have second := first.tail ⟨.allocatePage, trivial, rfl⟩
  have member : (2 : Int) ∈ ((newFile.call 1 .allocatePage).call 1 .allocatePage).allocated := by
    decide
  have third : Relation.ReflTransGen (Step 1) newFile secondDisposed :=
    second.tail ⟨.disposePage 2, member, rfl⟩
  have disposed : secondDisposed.disposed = [2] := by decide
  obtain ⟨contents, stored, accounted, ⟨pageNo, w', after, run, _, _, next⟩, _⟩ :=
    pages_are_allocated_or_free created third
  rw [disposed] at next
  refine ⟨disposed, contents, stored, accounted, ?_⟩
  rw [run, next.1]

end PrimitiveDB

import PrimitiveDB.FileLayerRules

/-!
# The page allocator of a file

Page 0 of a file counts its pages and heads the list of disposed pages; every
other page is either on that list or allocated. `allocatePage` hands out a page
that is not allocated and changes no other page but page 0, and writing an
allocated page leaves the allocator alone.
-/

namespace PrimitiveDB

set_option autoImplicit false

namespace UnixFile

/-- The list of disposed pages, linked through `nextFree`, starting at `start`. -/
def FreeChain (contents : UnixFile) : Int → List Int → Prop
  | start, [] => start = -1
  | start, pageNo :: rest =>
      start = pageNo ∧ 1 ≤ pageNo ∧ pageNo < contents.size ∧
        FreeChain contents (contents.page pageNo.toNat).asDBPage.nextFree rest

structure FreeList (contents : UnixFile) (free : List Int) : Prop where
  header : 1 ≤ contents.size
  numPages : (contents.page 0).asDBPage.numPages = contents.size
  chain : contents.FreeChain (contents.page 0).asDBPage.nextFree free
  nodup : free.Nodup

def Allocated (contents : UnixFile) (pageNo : Int) : Prop :=
  1 ≤ pageNo ∧ pageNo < contents.size ∧ ∃ free, contents.FreeList free ∧ pageNo ∉ free

variable {contents after : UnixFile} {free : List Int} {pageNo : Int}

@[simp] theorem write_at_self (contents : UnixFile) (pageNo : Nat) (image : PageImage) :
    (contents.writeAt pageNo image).page pageNo = image := by
  simp [writeAt]

theorem write_at_other (contents : UnixFile) {pageNo other : Nat} (image : PageImage)
    (different : other ≠ pageNo) (inside : other < contents.size) :
    (contents.writeAt pageNo image).page other = contents.page other := by
  simp [writeAt, different, inside]

theorem write_at_size (contents : UnixFile) {pageNo : Nat} (image : PageImage)
    (inside : pageNo < contents.size) :
    (contents.writeAt pageNo image).size = contents.size := by
  simp only [writeAt]
  omega

theorem free_chain_unique (contents : UnixFile) (start : Int) (first second : List Int)
    (left : contents.FreeChain start first) (right : contents.FreeChain start second) :
    first = second := by
  induction first generalizing start second with
  | nil =>
      cases second with
      | nil => rfl
      | cons pageNo rest =>
          simp only [FreeChain] at left right
          omega
  | cons pageNo rest ih =>
      cases second with
      | nil =>
          simp only [FreeChain] at left right
          omega
      | cons other others =>
          obtain ⟨rfl, _, _, tail⟩ := left
          obtain ⟨rfl, _, _, otherTail⟩ := right
          rw [ih _ others tail otherTail]

theorem free_chain_inside (contents : UnixFile) (start : Int) (free : List Int)
    (chain : contents.FreeChain start free) :
    ∀ pageNo ∈ free, 1 ≤ pageNo ∧ pageNo < contents.size := by
  induction free generalizing start with
  | nil => simp
  | cons head rest ih =>
      obtain ⟨_, lower, upper, tail⟩ := chain
      intro pageNo member
      rcases List.mem_cons.mp member with rfl | later
      · exact ⟨lower, upper⟩
      · exact ih _ tail pageNo later

theorem free_chain_congr (start : Int) (free : List Int)
    (larger : contents.size ≤ after.size)
    (same : ∀ pageNo ∈ free, after.page pageNo.toNat = contents.page pageNo.toNat)
    (chain : contents.FreeChain start free) : after.FreeChain start free := by
  induction free generalizing start with
  | nil => exact chain
  | cons head rest ih =>
      obtain ⟨rfl, lower, upper, tail⟩ := chain
      refine ⟨rfl, lower, by omega, ?_⟩
      rw [same _ (by simp)]
      exact ih _ (fun pageNo member => same pageNo (by simp [member])) tail

theorem FreeList.unique {other : List Int} (left : contents.FreeList free)
    (right : contents.FreeList other) : free = other :=
  free_chain_unique contents _ free other left.chain right.chain

theorem FreeList.allocated_iff (list : contents.FreeList free) (pageNo : Int) :
    contents.Allocated pageNo ↔ 1 ≤ pageNo ∧ pageNo < contents.size ∧ pageNo ∉ free := by
  constructor
  · rintro ⟨lower, upper, other, otherList, outside⟩
    rw [list.unique otherList]
    exact ⟨lower, upper, outside⟩
  · rintro ⟨lower, upper, outside⟩
    exact ⟨lower, upper, free, list, outside⟩

/-- Two files with the same size and the same pages off the allocated ones. -/
theorem FreeList.congr (list : contents.FreeList free) (size : after.size = contents.size)
    (header : after.page 0 = contents.page 0)
    (same : ∀ pageNo ∈ free, after.page pageNo.toNat = contents.page pageNo.toNat) :
    after.FreeList free where
  header := by rw [size]; exact list.header
  numPages := by rw [header, size]; exact list.numPages
  chain := by
    rw [header]
    exact free_chain_congr _ free (by rw [size]) same list.chain
  nodup := list.nodup

theorem FreeList.write (list : contents.FreeList free) (allocated : contents.Allocated pageNo)
    (image : PageImage) : (contents.writeAt pageNo.toNat image).FreeList free := by
  obtain ⟨lower, upper, outside⟩ := (list.allocated_iff pageNo).mp allocated
  have headed := list.header
  refine list.congr (write_at_size contents image (by omega))
    (write_at_other contents image (by omega) (by omega)) ?_
  intro other member
  have inside := free_chain_inside contents _ free list.chain other member
  refine write_at_other contents image ?_ (by omega)
  intro equal
  have : other = pageNo := by omega
  exact outside (this ▸ member)

/-- Writing back an allocated page allocates and disposes of nothing. -/
theorem allocated_write (allocated : contents.Allocated pageNo) (image : PageImage)
    (other : Int) :
    (contents.writeAt pageNo.toNat image).Allocated other ↔ contents.Allocated other := by
  obtain ⟨lower, upper, free, list, _⟩ := allocated
  have written := list.write ⟨lower, upper, free, list, by assumption⟩ image
  rw [written.allocated_iff, list.allocated_iff,
    write_at_size contents image (by omega)]

structure Grows (contents after : UnixFile) (pageNo : Int) : Prop where
  lower : 1 ≤ pageNo
  fresh : ¬contents.Allocated pageNo
  allocated : ∀ other, after.Allocated other ↔ other = pageNo ∨ contents.Allocated other
  larger : contents.size ≤ after.size
  kept : ∀ other : Nat, other ≠ 0 → other < contents.size → (other : Int) ≠ pageNo →
    after.page other = contents.page other
  /-- With no disposed page the file is extended at its end. -/
  extended : contents.FreeList [] →
    pageNo = contents.size ∧ after.size = contents.size + 1 ∧ after.FreeList [] ∧
      (after.page 0).asDBPage.firstPage =
        if (contents.page 0).asDBPage.firstPage = -1 then pageNo
        else (contents.page 0).asDBPage.firstPage

/-- `allocatePage` on a file without disposed pages. -/
def extend (contents : UnixFile) : UnixFile :=
  let db := (contents.page 0).asDBPage
  (contents.writeAt contents.size PageImage.zero).writeAt 0
    ((contents.page 0).setDBPage
      { db with
        numPages := db.numPages + 1
        firstPage := if db.firstPage = -1 then db.numPages else db.firstPage })

/-- `allocatePage` on a file whose first disposed page is `pageNo`. -/
def reuse (contents : UnixFile) (pageNo : Int) : UnixFile :=
  contents.writeAt 0 ((contents.page 0).setDBPage
    { (contents.page 0).asDBPage with
      nextFree := (contents.page pageNo.toNat).asDBPage.nextFree })

theorem extend_size (headed : 1 ≤ contents.size) : contents.extend.size = contents.size + 1 := by
  simp only [extend, writeAt]
  omega

theorem extend_kept {other : Nat} (positive : other ≠ 0) (inside : other < contents.size) :
    contents.extend.page other = contents.page other := by
  simp only [extend]
  rw [write_at_other _ _ positive (by simp only [writeAt]; omega),
    write_at_other _ _ (by omega) inside]

theorem extend_free_list (list : contents.FreeList []) : contents.extend.FreeList [] where
  header := by rw [extend_size list.header]; omega
  numPages := by
    rw [extend_size list.header]
    simp only [extend, write_at_self, PageImage.as_db_page_set]
    have count := list.numPages
    push_cast
    omega
  chain := by
    simp only [extend, write_at_self, PageImage.as_db_page_set]
    exact list.chain
  nodup := List.nodup_nil

theorem grows_extend (list : contents.FreeList []) :
    contents.Grows contents.extend contents.size where
  lower := by have := list.header; omega
  fresh := by rintro ⟨_, upper, _⟩; omega
  allocated := by
    intro other
    rw [(extend_free_list list).allocated_iff, list.allocated_iff, extend_size list.header]
    have headed := list.header
    simp only [List.not_mem_nil, not_false_eq_true, and_true]
    push_cast
    omega
  larger := by rw [extend_size list.header]; omega
  kept := fun other positive inside _ => extend_kept positive inside
  extended := by
    intro _
    refine ⟨rfl, extend_size list.header, extend_free_list list, ?_⟩
    simp only [extend, write_at_self, PageImage.as_db_page_set, list.numPages]

theorem reuse_free_list {rest : List Int} (list : contents.FreeList (pageNo :: rest)) :
    (contents.reuse pageNo).FreeList rest := by
  have headed := list.header
  obtain ⟨_, _, _, tail⟩ := list.chain
  refine
    { header := by simp only [reuse, writeAt]; omega
      numPages := ?_
      chain := ?_
      nodup := (List.nodup_cons.mp list.nodup).2 }
  · simp only [reuse, write_at_self, PageImage.as_db_page_set]
    have count := list.numPages
    simp only [writeAt]
    omega
  · simp only [reuse, write_at_self, PageImage.as_db_page_set]
    refine free_chain_congr _ rest (by simp only [writeAt]; omega) ?_ tail
    intro other member
    have inside := free_chain_inside contents _ rest tail other member
    exact write_at_other _ _ (by omega) (by omega)

theorem grows_reuse {rest : List Int} (list : contents.FreeList (pageNo :: rest)) :
    contents.Grows (contents.reuse pageNo) pageNo where
  lower := list.chain.2.1
  fresh := by
    rw [list.allocated_iff]
    simp
  allocated := by
    intro other
    have headed := list.header
    have size : (contents.reuse pageNo).size = contents.size :=
      write_at_size contents _ (by omega)
    have inside := list.chain.2
    have outside := (List.nodup_cons.mp list.nodup).1
    rw [(reuse_free_list list).allocated_iff, list.allocated_iff, size]
    simp only [List.mem_cons, not_or]
    constructor
    · rintro ⟨lower, upper, absent⟩
      by_cases same : other = pageNo
      · exact .inl same
      · exact .inr ⟨lower, upper, same, absent⟩
    · rintro (rfl | ⟨lower, upper, _, absent⟩)
      · exact ⟨inside.1, inside.2.1, outside⟩
      · exact ⟨lower, upper, absent⟩
  larger := by simp only [reuse, writeAt]; omega
  kept := fun other positive inside _ => write_at_other _ _ positive inside
  extended := by
    intro none_
    have := none_.unique list
    cases this

end UnixFile

namespace World

variable {w : World} {file : FilePtr} {object : File} {contents : UnixFile}

theorem set_disk_twice (w : World) (fileName : FileName) (first second : Option UnixFile) :
    (w.setDisk fileName first).setDisk fileName second = w.setDisk fileName second := by
  simp [setDisk]

theorem unix_file_set_disk (live : w.files file = some object) (openFd : object.unixFile = true)
    (contents : UnixFile) :
    (w.setDisk object.fileName (some contents)).unixFile file = some contents := by
  simp [World.unixFile, setDisk, live, openFd]

end World

namespace File

open World

variable {w : World} {file : FilePtr} {object : File} {contents : UnixFile} {free : List Int}

/-- Without faults `allocatePage` takes the first disposed page, or extends the file. -/
theorem allocate_page_run (reliable : w.Reliable) (live : w.files file = some object)
    (openFd : object.unixFile = true) (stored : w.disk object.fileName = some contents)
    (list : contents.FreeList free) :
    allocatePage file w =
      match free with
      | [] => (.ok contents.size, w.setDisk object.fileName (some contents.extend))
      | pageNo :: _ => (.ok pageNo, w.setDisk object.fileName (some (contents.reuse pageNo))) := by
  have headed := list.header
  have opened : w.unixFile file = some contents := by
    simp [World.unixFile, live, openFd, stored]
  have calm : ∀ n, w.faults n = false := fun n => congrFun reliable n
  have readHeader := intread_ok opened (calm 0) (le_refl (0 : Int)) (by omega)
  rw [tick_of_reliable reliable, Int.toNat_zero] at readHeader
  -- A write to this file in a world that differs from `w` in this file only.
  have write : ∀ (now : UnixFile) (pageNo : Int) (image : PageImage), 0 ≤ pageNo →
      intwrite file pageNo image (w.setDisk object.fileName (some now)) =
        (.ok (), w.setDisk object.fileName (some (now.writeAt pageNo.toNat image))) := by
    intro now pageNo image lower
    have step := intwrite_ok (w := w.setDisk object.fileName (some now)) live
      (unix_file_set_disk live openFd now) (calm 0) lower image
    rwa [tick_of_reliable (w := w.setDisk _ _) reliable, set_disk_twice] at step
  have here : w.setDisk object.fileName (some contents) = w := by
    simp [setDisk, ← stored]
  cases free with
  | nil =>
      have none_ : (contents.page 0).asDBPage.nextFree = -1 := list.chain
      unfold allocatePage
      rw [DbM.bind_ok readHeader]
      dsimp only
      rw [if_neg (by simp [none_]), list.numPages]
      have grow := write contents contents.size PageImage.zero (by omega)
      rw [here] at grow
      rw [DbM.bind_ok grow, DbM.bind_ok (write _ 0 _ (le_refl 0))]
      simp only [UnixFile.extend, list.numPages, Int.toNat_natCast, Int.toNat_zero,
        DbM.pure_apply]
  | cons pageNo rest =>
      obtain ⟨head, lower, upper, _⟩ := list.chain
      have readFree := intread_ok opened (calm 0) (show (0 : Int) ≤ pageNo by omega) upper
      rw [tick_of_reliable reliable] at readFree
      unfold allocatePage
      rw [DbM.bind_ok readHeader]
      dsimp only
      rw [if_pos (by omega), head, DbM.bind_ok readFree]
      have unlink := fun image => write contents 0 image (le_refl 0)
      simp only [here] at unlink
      rw [DbM.bind_ok (unlink _)]
      simp only [UnixFile.reuse, Int.toNat_zero, DbM.pure_apply, ← head]

/-- Without faults `allocatePage` on a file with an intact allocator succeeds. -/
theorem allocate_page_spec (reliable : w.Reliable) (live : w.files file = some object)
    (openFd : object.unixFile = true) (stored : w.disk object.fileName = some contents)
    (list : contents.FreeList free) :
    ∃ pageNo after, contents.Grows after pageNo ∧
      allocatePage file w = (.ok pageNo, w.setDisk object.fileName (some after)) := by
  have run := allocate_page_run reliable live openFd stored list
  cases free with
  | nil => exact ⟨contents.size, contents.extend, UnixFile.grows_extend list, run⟩
  | cons pageNo rest => exact ⟨pageNo, contents.reuse pageNo, UnixFile.grows_reuse list, run⟩

/-- Without faults a page inside the file can be read, and nothing changes. -/
theorem read_page_reliable (reliable : w.Reliable) (opened : w.unixFile file = some contents)
    {pageNo : Int} (lower : 1 ≤ pageNo) (upper : pageNo < contents.size) :
    readPage file pageNo w = (.ok (contents.page pageNo.toNat), w) := by
  have ready : w.ReadSucceeds 0 file pageNo :=
    ⟨lower, congrFun reliable 0, contents, opened, upper⟩
  obtain ⟨contents', opened', run⟩ := read_page_succeeds ready
  rw [opened] at opened'
  obtain rfl := Option.some.inj opened'
  rw [run, tick_of_reliable reliable]

theorem write_page_reliable (reliable : w.Reliable) (live : w.files file = some object)
    (opened : w.unixFile file = some contents) {pageNo : Int} (lower : 1 ≤ pageNo)
    (image : PageImage) :
    writePage file pageNo image w =
      (.ok (), w.setDisk object.fileName (some (contents.writeAt pageNo.toNat image))) := by
  have ready : w.WriteSucceeds 0 file pageNo := ⟨lower, congrFun reliable 0, contents, opened⟩
  obtain ⟨object', contents', live', opened', run⟩ := write_page_succeeds ready image
  rw [opened] at opened'
  rw [live] at live'
  obtain rfl := Option.some.inj opened'
  obtain rfl := Option.some.inj live'
  rw [run, tick_of_reliable reliable]

end File

end PrimitiveDB

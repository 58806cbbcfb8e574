import PrimitiveDB.SlottedPage
import PrimitiveDB.ChainedTable

/-!
# State of the storage engine

One record for everything the storage layer of a running process can see: the
Unix files, the `File` objects, the open-file table, the buffer pool, and the
choices the outside world makes (which system calls fail, which addresses `new`
returns). Functions of the source become state-passing functions `DbM`; an
early `return status` is `Outcome.err`, and a call through a null or dangling
pointer is `Outcome.crash`, after which nothing is claimed.
-/

namespace PrimitiveDB

open ByteMemory

set_option autoImplicit false

abbrev FileName := List Byte

abbrev FilePtr := Nat

structure FileHdrPage where
  fileName : List Byte
  firstPage : Int
  lastPage : Int
  pageCnt : Int
  recCnt : Int
  deriving DecidableEq

structure DBPage where
  nextFree : Int
  firstPage : Int
  numPages : Int
  deriving DecidableEq

/-- The contents of one page, tagged with the struct it was last written
through. `rest` is what the bytes outside that struct still hold. -/
inductive PageImage where
  | data (page : Page)
  | fileHdr (hdr : FileHdrPage) (rest : Page)
  | dbHdr (hdr : DBPage) (rest : Page)

namespace PageImage

def asPage : PageImage → Page
  | .data page => page
  | .fileHdr hdr rest =>
      { rest with
        data := writeInt (writeInt (writeInt (writeInt
          (writeBytes rest.data 0 hdr.fileName) 52 hdr.firstPage) 56 hdr.lastPage)
          60 hdr.pageCnt) 64 hdr.recCnt }
  | .dbHdr hdr rest =>
      { rest with
        data := writeInt (writeInt (writeInt rest.data 0 hdr.nextFree) 4 hdr.firstPage)
          8 hdr.numPages }

def asFileHdr : PageImage → FileHdrPage
  | .fileHdr hdr _ => hdr
  | image =>
      let memory := image.asPage.data
      { fileName := readBytes memory 0 50
        firstPage := readInt memory 52
        lastPage := readInt memory 56
        pageCnt := readInt memory 60
        recCnt := readInt memory 64 }

def asDBPage : PageImage → DBPage
  | .dbHdr hdr _ => hdr
  | image =>
      let memory := image.asPage.data
      { nextFree := readInt memory 0
        firstPage := readInt memory 4
        numPages := readInt memory 8 }

def setFileHdr (image : PageImage) (hdr : FileHdrPage) : PageImage :=
  .fileHdr hdr image.asPage

def setDBPage (image : PageImage) (hdr : DBPage) : PageImage := .dbHdr hdr image.asPage

def zero : PageImage := .data Page.zeroPage

@[simp] theorem as_file_hdr_set (image : PageImage) (hdr : FileHdrPage) :
    (image.setFileHdr hdr).asFileHdr = hdr := rfl

@[simp] theorem as_db_page_set (image : PageImage) (hdr : DBPage) :
    (image.setDBPage hdr).asDBPage = hdr := rfl

@[simp] theorem as_page_data (page : Page) : (PageImage.data page).asPage = page := rfl

end PageImage

structure UnixFile where
  size : Nat
  page : Nat → PageImage

/-- `class File`. `unixFile` tells whether the descriptor is open. -/
structure File where
  fileName : FileName
  openCnt : Int
  unixFile : Bool
  deriving DecidableEq

structure BufHashTbl where
  HTSIZE : Nat
  ht : ChainedTable.Buckets (FilePtr × Int) Nat

namespace BufHashTbl

def hash (table : BufHashTbl) (key : FilePtr × Int) : Nat :=
  (((key.1 : Int) + key.2) % table.HTSIZE).toNat

def insert (table : BufHashTbl) (file : FilePtr) (pageNo : Int) (frameNo : Nat) :
    Option BufHashTbl :=
  (ChainedTable.insert table.hash table.ht (file, pageNo) frameNo).map
    fun ht => { table with ht := ht }

def lookup (table : BufHashTbl) (file : FilePtr) (pageNo : Int) : Option Nat :=
  ChainedTable.find table.hash table.ht (file, pageNo)

def remove (table : BufHashTbl) (file : FilePtr) (pageNo : Int) : Option BufHashTbl :=
  (ChainedTable.remove table.hash table.ht (file, pageNo)).map
    fun ht => { table with ht := ht }

end BufHashTbl

/-- `class OpenFileHashTbl`, with its fixed size of 113 buckets. -/
structure OpenFileHashTbl where
  ht : ChainedTable.Buckets FileName FilePtr

namespace OpenFileHashTbl

/-- A `char` as the `int` the source converts it to. -/
def signedChar (byte : Byte) : Int := if byte.val < 128 then byte.val else byte.val - 256

def hash (fileName : FileName) : Nat :=
  (fileName.foldl (fun value char => toInt (31 * value + signedChar char)) 0).natAbs % 113

def insert (table : OpenFileHashTbl) (fileName : FileName) (file : FilePtr) :
    Option OpenFileHashTbl :=
  (ChainedTable.insert hash table.ht fileName file).map fun ht => { ht := ht }

def find (table : OpenFileHashTbl) (fileName : FileName) : Option FilePtr :=
  ChainedTable.find hash table.ht fileName

def erase (table : OpenFileHashTbl) (fileName : FileName) : Option OpenFileHashTbl :=
  (ChainedTable.remove hash table.ht fileName).map fun ht => { ht := ht }

end OpenFileHashTbl

structure BufDesc where
  file : FilePtr
  pageNo : Int
  pinCnt : Nat
  dirty : Bool
  valid : Bool
  refbit : Bool
  deriving DecidableEq

namespace BufDesc

/-- A descriptor after the `memset` of the `BufMgr` constructor. -/
def blank : BufDesc :=
  { file := 0, pageNo := 0, pinCnt := 0, dirty := false, valid := false, refbit := false }

def Clear (desc : BufDesc) : BufDesc :=
  { desc with pinCnt := 0, file := 0, pageNo := -1, dirty := false, valid := false }

def Set (filePtr : FilePtr) (pageNum : Int) : BufDesc :=
  { file := filePtr, pageNo := pageNum, pinCnt := 1, dirty := false, valid := true
    refbit := true }

end BufDesc

structure BufMgr where
  clockHand : Nat
  numBufs : Nat
  hashTable : BufHashTbl
  bufTable : Nat → BufDesc
  bufPool : Nat → PageImage

namespace BufMgr

def new (bufs : Nat) : BufMgr :=
  { clockHand := bufs - 1
    numBufs := bufs
    hashTable := { HTSIZE := bufs * 6 / 5 + 1, ht := ChainedTable.empty }
    bufTable := fun _ => BufDesc.blank
    bufPool := fun _ => PageImage.zero }

def advanceClock (pool : BufMgr) : BufMgr :=
  { pool with clockHand := (pool.clockHand + 1) % pool.numBufs }

def setDesc (pool : BufMgr) (frame : Nat) (desc : BufDesc) : BufMgr :=
  { pool with bufTable := Function.update pool.bufTable frame desc }

def setImage (pool : BufMgr) (frame : Nat) (image : PageImage) : BufMgr :=
  { pool with bufPool := Function.update pool.bufPool frame image }

def removeEntry (pool : BufMgr) (file : FilePtr) (pageNo : Int) : BufMgr :=
  { pool with hashTable := (pool.hashTable.remove file pageNo).getD pool.hashTable }

section Fields

variable (pool : BufMgr) (frame : Nat) (desc : BufDesc) (image : PageImage)

@[simp] theorem set_desc_self : (pool.setDesc frame desc).bufTable frame = desc := by
  simp [setDesc]

theorem set_desc_other {other : Nat} (different : other ≠ frame) :
    (pool.setDesc frame desc).bufTable other = pool.bufTable other := by
  simp [setDesc, Function.update_of_ne different]

@[simp] theorem set_desc_num_bufs : (pool.setDesc frame desc).numBufs = pool.numBufs := rfl

@[simp] theorem set_desc_hash_table :
    (pool.setDesc frame desc).hashTable = pool.hashTable := rfl

@[simp] theorem set_desc_images : (pool.setDesc frame desc).bufPool = pool.bufPool := rfl

@[simp] theorem set_desc_twice (second : BufDesc) :
    (pool.setDesc frame desc).setDesc frame second = pool.setDesc frame second := by
  simp [setDesc]

@[simp] theorem set_image_self : (pool.setImage frame image).bufPool frame = image := by
  simp [setImage]

theorem set_image_other {other : Nat} (different : other ≠ frame) :
    (pool.setImage frame image).bufPool other = pool.bufPool other := by
  simp [setImage, Function.update_of_ne different]

@[simp] theorem set_image_num_bufs : (pool.setImage frame image).numBufs = pool.numBufs := rfl

@[simp] theorem set_image_descs : (pool.setImage frame image).bufTable = pool.bufTable := rfl

@[simp] theorem set_image_hash_table :
    (pool.setImage frame image).hashTable = pool.hashTable := rfl

@[simp] theorem set_image_hand : (pool.setImage frame image).clockHand = pool.clockHand := rfl

end Fields

end BufMgr

structure World where
  /-- The Unix files of the database directory. -/
  disk : FileName → Option UnixFile
  /-- The live `File` objects, by address. -/
  files : FilePtr → Option File
  /-- Addresses from here on have never been used. -/
  brk : FilePtr
  /-- The addresses the allocator would like to return next. -/
  malloc : Nat → FilePtr
  openFiles : OpenFileHashTbl
  bufMgr : BufMgr
  /-- `faults n` tells whether the `n`-th system call from now on fails. -/
  faults : Nat → Bool
  /-- Ghost: some call that the heap-file layer made to the buffer manager has
  returned an error. -/
  bufFailed : Bool
  /-- Ghost: the last contents that the heap-file layer gave to a page. -/
  given : FileName → Int → Option PageImage

namespace World

def setPool (w : World) (pool : BufMgr) : World := { w with bufMgr := pool }

@[simp] theorem set_pool_pool (w : World) (pool : BufMgr) : (w.setPool pool).bufMgr = pool := rfl

@[simp] theorem set_pool_disk (w : World) (pool : BufMgr) : (w.setPool pool).disk = w.disk := rfl

@[simp] theorem set_pool_files (w : World) (pool : BufMgr) :
    (w.setPool pool).files = w.files := rfl

@[simp] theorem set_pool_faults (w : World) (pool : BufMgr) :
    (w.setPool pool).faults = w.faults := rfl

@[simp] theorem set_pool_buf_failed (w : World) (pool : BufMgr) :
    (w.setPool pool).bufFailed = w.bufFailed := rfl

@[simp] theorem set_pool_twice (w : World) (first second : BufMgr) :
    (w.setPool first).setPool second = w.setPool second := rfl

def tick (w : World) : World := { w with faults := fun n => w.faults (n + 1) }

def Reliable (w : World) : Prop := w.faults = fun _ => false

theorem tick_of_reliable {w : World} (reliable : w.Reliable) : w.tick = w := by
  cases w
  simp only [Reliable] at reliable
  simp [tick, reliable]

end World

inductive Outcome (α : Type) where
  | ok (value : α)
  | err (status : Status)
  | crash
  deriving DecidableEq

def DbM (α : Type) : Type := World → Outcome α × World

namespace DbM

variable {α β : Type}

instance : Monad DbM where
  pure value := fun w => (.ok value, w)
  bind first next := fun w =>
    match first w with
    | (.ok value, w') => next value w'
    | (.err status, w') => (.err status, w')
    | (.crash, w') => (.crash, w')

def fail (status : Status) : DbM α := fun w => (.err status, w)

def crash : DbM α := fun w => (.crash, w)

def read (view : World → α) : DbM α := fun w => (.ok (view w), w)

def modify (update : World → World) : DbM Unit := fun w => (.ok (), update w)

def modifyPool (update : BufMgr → BufMgr) : DbM Unit :=
  modify fun w => w.setPool (update w.bufMgr)

/-- `status = call(...)` where the source goes on to look at the status. -/
def attempt (call : DbM α) : DbM (Except Status α) := fun w =>
  match call w with
  | (.ok value, w') => (.ok (.ok value), w')
  | (.err status, w') => (.ok (.error status), w')
  | (.crash, w') => (.crash, w')

/-- The result of one system call of the outside world. -/
def systemCall : DbM Bool := fun w =>
  (.ok (w.faults 0), w.tick)

theorem bind_apply (first : DbM α) (next : α → DbM β) (w : World) :
    (first >>= next) w =
      match first w with
      | (.ok value, w') => next value w'
      | (.err status, w') => (.err status, w')
      | (.crash, w') => (.crash, w') := rfl

theorem pure_apply (value : α) (w : World) : (pure value : DbM α) w = (.ok value, w) := rfl

theorem modify_pool_bind (update : BufMgr → BufMgr) (next : Unit → DbM β) (w : World) :
    (modifyPool update >>= next) w = next () (w.setPool (update w.bufMgr)) := rfl

theorem read_bind (view : World → α) (next : α → DbM β) (w : World) :
    (read view >>= next) w = next (view w) w := rfl

theorem bind_ok {first : DbM α} {next : α → DbM β} {w w' : World} {value : α}
    (step : first w = (.ok value, w')) : (first >>= next) w = next value w' := by
  rw [bind_apply, step]

theorem bind_err {first : DbM α} {next : α → DbM β} {w w' : World} {status : Status}
    (step : first w = (.err status, w')) : (first >>= next) w = (.err status, w') := by
  rw [bind_apply, step]

theorem bind_eq_ok_iff {first : DbM α} {next : α → DbM β} {w w'' : World} {result : β} :
    (first >>= next) w = (.ok result, w'') ↔
      ∃ value w', first w = (.ok value, w') ∧ next value w' = (.ok result, w'') := by
  rw [bind_apply]
  constructor
  · intro run
    rcases step : first w with ⟨_ | _ | _, w'⟩ <;> rw [step] at run
    · exact ⟨_, _, rfl, run⟩
    · cases run
    · cases run
  · rintro ⟨value, w', step, rest⟩
    rw [step]
    exact rest

end DbM

end PrimitiveDB

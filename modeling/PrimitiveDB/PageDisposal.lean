import PrimitiveDB.PageAllocation

/-!
# Disposing of any page

`disposePage` of the file layer looks at the header page only: it refuses page numbers that
are not of the file and the first page, and takes everything else, a page that is on the free
list already included. Callers that keep away from the free list are served as if the file
knew its pages; one that does not gets the list tied into a ring.
-/

namespace PrimitiveDB

set_option autoImplicit false

theorem File.dispose_page_outside {w : World} {file : FilePtr} {contents : UnixFile}
    {free : List Int} {pageNo : Int} (reliable : w.Reliable)
    (opened : w.unixFile file = some contents) (list : contents.FreeList free)
    (outside : pageNo < 1 ∨ (contents.size : Int) ≤ pageNo) :
    disposePage file pageNo w = (.err .BADPAGENO, w) := by
  have headed := list.header
  have count := list.numPages
  have readHeader := intread_ok opened (congrFun reliable 0) (le_refl (0 : Int)) (by omega)
  rw [World.tick_of_reliable reliable, Int.toNat_zero] at readHeader
  unfold disposePage
  split_ifs with below
  · rfl
  · rw [DbM.bind_ok readHeader]
    dsimp only
    rw [if_pos (.inr (by omega))]
    rfl

namespace PageClient

variable {file : FilePtr} {fileName : FileName} {client client' : PageClient}
  {contents : UnixFile}

def AnyStep (file : FilePtr) (client client' : PageClient) : Prop :=
  client' = client.call file .allocatePage ∨
    ∃ pageNo, client' = client.call file (.disposePage pageNo)

def GuardedStep (file : FilePtr) (client client' : PageClient) : Prop :=
  client' = client.call file .allocatePage ∨
    ∃ pageNo, pageNo ∉ client.disposed ∧ client' = client.call file (.disposePage pageNo)

/-- `disposePage` takes exactly the allocated pages other than the first, and refuses the
others without a change. -/
def DisposesRightly (file : FilePtr) (client : PageClient) (pageNo : Int) : Prop :=
  if pageNo ∈ client.allocated ∧ client.history.head? ≠ some pageNo then
    (File.disposePage file pageNo client.world).1 = .ok ()
  else File.disposePage file pageNo client.world = (.err .BADPAGENO, client.world)

/-- No page is on the free list twice, and no page has been handed out twice without having
been disposed of in between. -/
structure NoPageTwice (fileName : FileName) (client : PageClient) : Prop where
  freeList : ∃ contents free, client.world.disk fileName = some contents ∧
    contents.FreeChain (contents.page 0).asDBPage.nextFree free ∧ free.Nodup
  handedOut : client.allocated.Nodup

theorem InStep.no_page_twice (inStep : InStep file fileName client contents) :
    NoPageTwice fileName client :=
  ⟨⟨contents, client.disposed, inStep.stored, inStep.list, inStep.once⟩, inStep.unique⟩

theorem InStep.dispose_outside {pageNo : Int} (inStep : InStep file fileName client contents)
    (outside : pageNo < 1 ∨ (contents.size : Int) ≤ pageNo) :
    File.disposePage file pageNo client.world = (.err .BADPAGENO, client.world) := by
  obtain ⟨object, live, openFd, rfl⟩ := inStep.opened
  have opened : client.world.unixFile file = some contents := by
    simp [World.unixFile, live, openFd, inStep.stored]
  exact File.dispose_page_outside inStep.reliable opened inStep.freeList outside

theorem InStep.dispose_free {pageNo : Int} (inStep : InStep file fileName client contents)
    (free : pageNo ∈ client.disposed) :
    (File.disposePage file pageNo client.world).1 = .ok () := by
  obtain ⟨object, live, openFd, rfl⟩ := inStep.opened
  obtain ⟨lower, upper⟩ :=
    UnixFile.free_chain_inside contents _ _ inStep.freeList.chain pageNo free
  have run := File.dispose_page_spec inStep.reliable live openFd inStep.stored inStep.freeList
    lower upper
  have notFirst : (contents.page 0).asDBPage.firstPage ≠ pageNo := by
    intro first
    rw [inStep.first] at first
    cases begins : client.history.head? with
    | none =>
        rw [begins, Option.getD_none] at first
        omega
    | some page =>
        rw [begins, Option.getD_some] at first
        subst first
        exact inStep.apart _ (inStep.kept _ begins) free
  rw [run, if_neg notFirst]

theorem InStep.disposes_rightly_iff (inStep : InStep file fileName client contents)
    (pageNo : Int) : DisposesRightly file client pageNo ↔ pageNo ∉ client.disposed := by
  unfold DisposesRightly
  constructor
  · intro rightly free
    have absent : pageNo ∉ client.allocated := fun member => inStep.apart pageNo member free
    rw [if_neg (fun both => absent both.1)] at rightly
    have taken := inStep.dispose_free free
    rw [rightly] at taken
    cases taken
  · intro kept
    by_cases member : pageNo ∈ client.allocated
    · have disposes := inStep.dispose member
      by_cases first : client.history.head? = some pageNo
      · rw [if_pos first] at disposes
        rw [if_neg (fun both => both.2 first)]
        exact disposes
      · rw [if_neg first] at disposes
        obtain ⟨w', run, _⟩ := disposes
        rw [if_pos ⟨member, first⟩, run]
    · rw [if_neg (fun both => member both.1)]
      apply inStep.dispose_outside
      by_contra inside
      exact member ((inStep.allocated_iff pageNo).mpr ⟨by omega, by omega, kept⟩)

theorem InStep.guarded_step (inStep : InStep file fileName client contents)
    (step : GuardedStep file client client') :
    ∃ contents', InStep file fileName client' contents' := by
  rcases step with rfl | ⟨pageNo, kept, rfl⟩
  · exact inStep.step ⟨.allocatePage, trivial, rfl⟩
  · by_cases member : pageNo ∈ client.allocated
    · exact inStep.step ⟨.disposePage pageNo, member, rfl⟩
    · have rightly := (inStep.disposes_rightly_iff pageNo).mpr kept
      unfold DisposesRightly at rightly
      rw [if_neg (fun both => member both.1)] at rightly
      simp only [PageClient.call, rightly]
      exact ⟨contents, inStep⟩

theorem guarded_run_in_step (created : Created file fileName client)
    (run : Relation.ReflTransGen (GuardedStep file) client client') :
    ∃ contents, InStep file fileName client' contents := by
  induction run with
  | refl => exact created_in_step created
  | tail _ step ih =>
      obtain ⟨contents, inStep⟩ := ih
      exact inStep.guarded_step step

/-- As long as nobody disposes of a page that is on the free list, no page turns up twice; and
`disposePage` does what it should on every page number but those of the free list. -/
theorem disposes_rightly_off_the_free_list {start : PageClient}
    (created : Created file fileName start)
    (run : Relation.ReflTransGen (GuardedStep file) start client) :
    NoPageTwice fileName client ∧
      ∀ pageNo, DisposesRightly file client pageNo ↔ pageNo ∉ client.disposed := by
  obtain ⟨contents, inStep⟩ := guarded_run_in_step created run
  exact ⟨inStep.no_page_twice, inStep.disposes_rightly_iff⟩

theorem new_file_created : Created 1 [102] newFile :=
  { starts := ⟨emptyDirectory, _, _, rfl, rfl, rfl, rfl, rfl, rfl⟩
    allocated := rfl
    disposed := rfl
    history := rfl }

theorem disposes_rightly_second_disposed :
    NoPageTwice [102] secondDisposed ∧ secondDisposed.disposed = [2] ∧
      DisposesRightly 1 secondDisposed 1 ∧ ¬DisposesRightly 1 secondDisposed 2 := by
  have disposed : secondDisposed.disposed = [2] := by decide
  have run : Relation.ReflTransGen (GuardedStep 1) newFile secondDisposed :=
    ((Relation.ReflTransGen.single (.inl rfl)).tail (.inl rfl)).tail
      (.inr ⟨2, by decide, rfl⟩)
  obtain ⟨once, rightly⟩ := disposes_rightly_off_the_free_list new_file_created run
  refine ⟨once, disposed, (rightly 1).mpr ?_, ?_⟩
  · rw [disposed]
    decide
  · rw [rightly 2, disposed]
    decide

/-- Page 2 is disposed of a second time and handed out twice. -/
theorem page_disposed_twice_is_handed_out_twice :
    ¬∀ client, Relation.ReflTransGen (AnyStep 1) newFile client →
      NoPageTwice [102] client ∧ ∀ pageNo, DisposesRightly 1 client pageNo := by
  intro claim
  have twice : Relation.ReflTransGen (AnyStep 1) newFile
      (((secondDisposed.call 1 (.disposePage 2)).call 1 .allocatePage).call 1 .allocatePage) :=
    ((((((Relation.ReflTransGen.single (.inl rfl)).tail (.inl rfl)).tail (.inr ⟨2, rfl⟩)).tail
      (.inr ⟨2, rfl⟩)).tail (.inl rfl)).tail (.inl rfl))
  have handedOut := (claim _ twice).1.handedOut
  revert handedOut
  decide

end PageClient

end PrimitiveDB

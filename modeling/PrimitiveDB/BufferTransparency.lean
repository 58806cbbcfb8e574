import PrimitiveDB.BufferContracts

/-!
# Clients of the buffer pool

The clients together hold a list of pins and remember, for each page, the last
contents one of them gave it. They change a page only through a pin, report the
change when they let go of that pin, and fill a new page before they let go of
it or anyone else reads it. Whatever the clock evicts in between, a page is
read back as it was left.
-/

namespace PrimitiveDB

open BufMgr World

set_option autoImplicit false

structure Clients where
  world : World
  pins : List Pin
  /-- The last contents given to a page; `none` for a new page not yet filled. -/
  last : FilePtr → Int → Option PageImage

namespace Clients

def record (last : FilePtr → Int → Option PageImage) (file : FilePtr) (pageNo : Int)
    (given : Option PageImage) : FilePtr → Int → Option PageImage :=
  fun other otherNo => if (other, otherNo) = (file, pageNo) then given else last other otherNo

def initial (w : World) : Clients :=
  { world := w, pins := [], last := fun file pageNo => some (w.diskPage file pageNo) }

inductive Step (s : Clients) : Clients → Prop where
  | read {file : FilePtr} {pageNo : Int} {frame : Nat} {w' : World}
      (exists_ : s.world.HasPage file pageNo) (filled : s.last file pageNo ≠ none)
      (run : BufMgr.readPage file pageNo s.world = (.ok frame, w')) :
      Step s { s with world := w', pins := { file, pageNo, frame, owed := false } :: s.pins }
  | readRefused {file : FilePtr} {pageNo : Int} {status : Status} {w' : World}
      (exists_ : s.world.HasPage file pageNo) (filled : s.last file pageNo ≠ none)
      (run : BufMgr.readPage file pageNo s.world = (.err status, w')) :
      Step s { s with world := w' }
  | alloc {file : FilePtr} {contents : UnixFile} {pageNo : Int} {frame : Nat} {w' : World}
      (opened : s.world.unixFile file = some contents)
      (run : BufMgr.allocPage file s.world = (.ok (pageNo, frame), w')) :
      Step s { world := w', pins := { file, pageNo, frame, owed := true } :: s.pins,
               last := record s.last file pageNo none }
  /-- The file has its new page all the same; it reads as the file layer left it. -/
  | allocRefused {file : FilePtr} {contents : UnixFile} {status : Status} {w' : World}
      {last' : FilePtr → Int → Option PageImage}
      (opened : s.world.unixFile file = some contents)
      (run : BufMgr.allocPage file s.world = (.err status, w'))
      (kept : ∀ other otherNo, s.world.HasPage other otherNo →
        last' other otherNo = s.last other otherNo)
      (added : ∀ other otherNo, ¬s.world.HasPage other otherNo →
        last' other otherNo = some (w'.diskPage other otherNo)) :
      Step s { s with world := w', last := last' }
  | write {before after : List Pin} {pin : Pin} (held : s.pins = before ++ pin :: after)
      (image : PageImage) :
      Step s { world := s.world.storeImage pin.frame image
               pins := before ++ { pin with owed := true } :: after
               last := record s.last pin.file pin.pageNo (some image) }
  | unpin {before after : List Pin} {pin : Pin} {dirty : Bool} {outcome : Outcome Unit}
      {w' : World} (held : s.pins = before ++ pin :: after)
      (filled : s.last pin.file pin.pageNo ≠ none) (reports : pin.owed = true → dirty = true)
      (run : BufMgr.unPinPage pin.file pin.pageNo dirty s.world = (outcome, w')) :
      Step s { s with world := w', pins := before ++ after }
  | unpinStray {file : FilePtr} {pageNo : Int} {dirty : Bool} {outcome : Outcome Unit}
      {w' : World} (nobody : ∀ pin ∈ s.pins, (pin.file, pin.pageNo) ≠ (file, pageNo))
      (run : BufMgr.unPinPage file pageNo dirty s.world = (outcome, w')) :
      Step s { s with world := w' }
  | flush {file : FilePtr} {outcome : Outcome Unit} {w' : World}
      (run : BufMgr.flushFile file s.world = (outcome, w')) : Step s { s with world := w' }

inductive Run (start : Clients) : Clients → Prop where
  | start : Run start start
  | step {s s' : Clients} (prior : Run start s) (step : Step s s') : Run start s'

/-- The clients' record agrees with what they see, and a page not yet filled is
still pinned by the client that allocated it. -/
structure Faithful (s : Clients) : Prop where
  healthy : s.world.Healthy s.pins
  agrees : ∀ file pageNo image, s.world.HasPage file pageNo → s.last file pageNo = some image →
    s.world.view file pageNo = image
  unfilled : ∀ file pageNo, s.world.HasPage file pageNo → s.last file pageNo = none →
    ∃ pin ∈ s.pins, (pin.file, pin.pageNo) = (file, pageNo)

structure Transparent (s : Clients) : Prop where
  reads : ∀ file pageNo image frame w', s.world.HasPage file pageNo →
    s.last file pageNo = some image →
    BufMgr.readPage file pageNo s.world = (.ok frame, w') → w'.bufMgr.bufPool frame = image
  held : ∀ pin ∈ s.pins, ∀ image, s.last pin.file pin.pageNo = some image →
    s.world.bufMgr.bufPool pin.frame = image
  flushes : ∀ file w', BufMgr.flushFile file s.world = (.ok (), w') →
    ∀ pageNo, s.world.HasPage file pageNo →
      ∃ image, s.last file pageNo = some image ∧ w'.diskPage file pageNo = image

variable {s s' : Clients}

/-- A call that keeps the pins of every unfilled page and the look of all pages. -/
theorem Faithful.steady (faithful : s.Faithful) {w' : World} {pins : List Pin}
    (healthy : w'.Healthy pins) (steady : Steady s.world w') (same : SameView s.world w')
    (kept : ∀ pin ∈ s.pins, s.last pin.file pin.pageNo = none → pin ∈ pins) :
    Faithful { s with world := w', pins := pins } where
  healthy := healthy
  agrees := by
    intro file pageNo image page given
    have before := (steady.has_page_iff file pageNo).mp page
    rw [same file pageNo before]
    exact faithful.agrees file pageNo image before given
  unfilled := by
    intro file pageNo page none_
    obtain ⟨pin, member, here⟩ :=
      faithful.unfilled file pageNo ((steady.has_page_iff file pageNo).mp page) none_
    obtain ⟨rfl, rfl⟩ := Prod.mk.inj here
    exact ⟨pin, kept pin member none_, rfl⟩

theorem initial_faithful {w : World} {bufs : Nat} (positive : 0 < bufs)
    (fresh : w.bufMgr = BufMgr.new bufs) (reliable : w.Reliable) (sound : w.FilesSound) :
    (initial w).Faithful where
  healthy := by
    refine ⟨⟨reliable, sound, ?_, ?_, by simp [initial], ?_⟩, ?_⟩
    · rintro frame file pageNo _ ⟨_, valid, _⟩
      simp [initial, fresh, BufMgr.new, BufDesc.blank] at valid
    · intro frame _
      simp [initial, fresh, BufMgr.new, BufDesc.blank, pinsOn]
    · rintro frame file pageNo _ ⟨_, valid, _⟩
      simp [initial, fresh, BufMgr.new, BufDesc.blank] at valid
    · simp only [initial, fresh]
      exact new_residency bufs positive
  agrees := by
    intro file pageNo image _ given
    simp only [initial, Option.some.injEq] at given
    simp [initial, view, fresh, BufMgr.new, BufHashTbl.lookup, ChainedTable.find_empty, given]
  unfilled := by
    intro file pageNo _ none_
    simp [initial] at none_

theorem step_faithful (faithful : s.Faithful) (step : Step s s') : s'.Faithful := by
  have healthy := faithful.healthy
  cases step with
  | read exists_ filled run =>
      rcases read_page_spec healthy exists_ with ⟨w₁, done, _⟩ |
        ⟨frame, w₁, done, healthy₁, steady, same⟩ <;> rw [run] at done <;> cases done
      exact faithful.steady healthy₁ steady same (fun pin member _ => by simp [member])
  | readRefused exists_ filled run =>
      rcases read_page_spec healthy exists_ with ⟨w₁, done, healthy₁, steady, same, _⟩ |
        ⟨frame, w₁, done, _⟩ <;> rw [run] at done <;> cases done
      exact faithful.steady healthy₁ steady same (fun pin member _ => member)
  | @alloc file contents pageNo frame w' opened run =>
      obtain ⟨object, live, openFd, stored⟩ := unix_file_live opened
      obtain ⟨added, after, grows, result⟩ := alloc_page_spec healthy live openFd stored
      rcases result with ⟨w₁, done, _⟩ | ⟨_, w₁, done, healthy₁, steady, same⟩ <;>
        rw [run] at done <;> cases done
      have pages := has_page_grow live openFd stored grows healthy.files
      refine ⟨healthy₁, ?_, ?_⟩
      · intro other otherNo image page given
        simp only [record] at given
        split_ifs at given with here
        have before : s.world.HasPage other otherNo := by
          have grown := (steady.has_page_iff other otherNo).mp page
          exact ((pages other otherNo).mp grown).resolve_left here
        rw [same other otherNo before]
        exact faithful.agrees other otherNo image before given
      · intro other otherNo page none_
        by_cases here : (other, otherNo) = (file, pageNo)
        · exact ⟨_, List.mem_cons_self, here.symm⟩
        · have before : s.world.HasPage other otherNo := by
            have grown := (steady.has_page_iff other otherNo).mp page
            exact ((pages other otherNo).mp grown).resolve_left here
          simp only [record, if_neg here] at none_
          obtain ⟨pin, member, at_⟩ := faithful.unfilled other otherNo before none_
          exact ⟨pin, by simp [member], at_⟩
  | allocRefused opened run kept added =>
      obtain ⟨object, live, openFd, stored⟩ := unix_file_live opened
      obtain ⟨pageNo, after, grows, result⟩ := alloc_page_spec healthy live openFd stored
      rcases result with ⟨w₁, done, healthy₁, steady, same, _, absent⟩ | ⟨frame, w₁, done, _⟩ <;>
        rw [run] at done <;> cases done
      have pages := has_page_grow live openFd stored grows healthy.files
      have viewGrown := view_grow stored grows
      refine ⟨healthy₁, ?_, ?_⟩
      · intro other otherNo image page given
        have grown := (steady.has_page_iff other otherNo).mp page
        by_cases before : s.world.HasPage other otherNo
        · rw [same other otherNo grown, viewGrown other otherNo before]
          exact faithful.agrees other otherNo image before
            ((kept other otherNo before).symm.trans given)
        · have here := ((pages other otherNo).mp grown).resolve_right before
          obtain ⟨rfl, rfl⟩ := Prod.mk.inj here
          have given' := (added _ _ before).symm.trans given
          simp only [view, absent]
          exact Option.some.inj given'
      · intro other otherNo page none_
        have grown := (steady.has_page_iff other otherNo).mp page
        by_cases before : s.world.HasPage other otherNo
        · exact faithful.unfilled other otherNo before
            ((kept other otherNo before).symm.trans none_)
        · have := (added other otherNo before).symm.trans none_
          cases this
  | @write before after pin held image =>
      have rotate : s.pins.Perm (pin :: (before ++ after)) := by
        rw [held]
        exact List.perm_middle
      have owing := (healthy.perm rotate).owe true (fun _ => rfl)
      have stored := owing.store_image (List.mem_cons_self) rfl image
      have looks := owing.view_store_image (List.mem_cons_self) image
      refine ⟨stored.perm List.perm_middle.symm, ?_, ?_⟩
      · intro file pageNo given page recorded
        have pageBefore : s.world.HasPage file pageNo := page
        rw [looks file pageNo]
        simp only [record] at recorded
        split_ifs at recorded ⊢ with here
        · exact Option.some.inj recorded
        · exact faithful.agrees file pageNo given pageBefore recorded
      · intro file pageNo page none_
        simp only [record] at none_
        split_ifs at none_ with here
        obtain ⟨other, member, at_⟩ := faithful.unfilled file pageNo page none_
        rw [held] at member
        simp only [List.mem_append, List.mem_cons] at member
        rcases member with left | rfl | right
        · exact ⟨other, by simp [left], at_⟩
        · exact absurd at_.symm here
        · exact ⟨other, by simp [right], at_⟩
  | @unpin before after pin dirty outcome w' held filled reports run =>
      have rotate : s.pins.Perm (pin :: (before ++ after)) := by
        rw [held]
        exact List.perm_middle
      obtain ⟨w₁, done, healthy₁, steady, same⟩ :=
        un_pin_page_spec (healthy.perm rotate) dirty reports
      rw [run] at done
      cases done
      refine faithful.steady healthy₁ steady same ?_
      intro other member none_
      rw [held] at member
      simp only [List.mem_append, List.mem_cons] at member ⊢
      rcases member with left | rfl | right
      · exact .inl left
      · exact absurd none_ filled
      · exact .inr right
  | unpinStray nobody run =>
      obtain ⟨status, w₁, done, _, healthy₁, steady, same⟩ :=
        un_pin_page_refused healthy _ nobody
      rw [run] at done
      cases done
      exact faithful.steady healthy₁ steady same (fun pin member _ => member)
  | flush run =>
      obtain ⟨outcome, w₁, done, healthy₁, steady, same, _⟩ := flush_file_spec healthy _
      rw [run] at done
      cases done
      exact faithful.steady healthy₁ steady same (fun pin member _ => member)

theorem run_faithful {start : Clients} (faithful : start.Faithful) (run : Run start s) :
    s.Faithful := by
  induction run with
  | start => exact faithful
  | step prior step ih => exact step_faithful ih step

theorem Faithful.transparent (faithful : s.Faithful) : s.Transparent where
  reads := by
    intro file pageNo image frame w' page given run
    rcases read_page_spec faithful.healthy page with ⟨_, done, _⟩ |
      ⟨frame', w₁, done, healthy₁, steady, same⟩ <;> rw [run] at done <;> cases done
    have seen := healthy₁.view_of_pin (List.mem_cons_self)
    rw [← seen, same file pageNo page]
    exact faithful.agrees file pageNo image page given
  held := by
    intro pin member image given
    rw [← faithful.healthy.view_of_pin member]
    exact faithful.agrees _ _ image (faithful.healthy.has_page_of_pin member) given
  flushes := by
    intro file w' run pageNo page
    obtain ⟨outcome, w₁, done, healthy₁, steady, same, result⟩ :=
      flush_file_spec faithful.healthy file
    rw [run] at done
    cases done
    rcases result with ⟨_, gone, stored⟩ | ⟨_, refused, _⟩
    · cases given : s.last file pageNo with
      | some image =>
          refine ⟨image, rfl, ?_⟩
          rw [stored pageNo page]
          exact faithful.agrees file pageNo image page given
      | none =>
          -- An unfilled page is pinned, and a pinned page is still in the pool.
          obtain ⟨pin, member, here⟩ := faithful.unfilled file pageNo page given
          have holds := (healthy₁.held_by pin member).1
          obtain ⟨rfl, rfl⟩ := Prod.mk.inj here
          exact absurd holds (gone _ _)
    · cases refused

theorem buffer_pool_transparent (bufs : Nat) (positive : 0 < bufs) (start : World)
    (fresh : start.bufMgr = BufMgr.new bufs) (reliable : start.Reliable)
    (sound : start.FilesSound) (s : Clients) (run : Run (initial start) s) : s.Transparent :=
  (run_faithful (initial_faithful positive fresh reliable sound) run).transparent

theorem one_page_world_sound : onePageWorld.FilesSound where
  apart := by
    intro first second left right firstLive secondLive _ _ _
    simp only [onePageWorld, Option.ite_none_right_eq_some] at firstLive secondLive
    rw [firstLive.1, secondLive.1]
  formed := by
    intro file contents opened
    obtain ⟨object, live, _, stored⟩ := unix_file_live opened
    simp only [onePageWorld, Option.ite_none_right_eq_some, Option.some.injEq] at live stored
    obtain ⟨_, rfl⟩ := stored
    exact ⟨[], by simp, rfl, rfl, List.nodup_nil⟩

theorem one_page_world_page : onePageWorld.HasPage 1 1 := by
  obtain ⟨free, list⟩ := one_page_world_sound.formed 1 _ rfl
  refine ⟨_, rfl, ?_⟩
  rw [list.allocated_iff]
  refine ⟨by decide, by decide, ?_⟩
  have none_ : free = [] := list.unique ⟨by decide, rfl, rfl, List.nodup_nil⟩
  simp [none_]

/-- Page 1 is read, filled and unpinned dirty; then the pool promises that
contents back. -/
theorem buffer_pool_transparent_one_page :
    ∃ s, Run (initial onePageWorld) s ∧
      s.last 1 1 = some (.data (Page.zeroPage.init 1)) ∧ s.Transparent := by
  have read : Run (initial onePageWorld) _ :=
    .step .start (.read one_page_world_page (by simp [initial]) rfl)
  have written := Run.step read (.write (List.nil_append _).symm (.data (Page.zeroPage.init 1)))
  have unpinned := Run.step written
    (.unpin (List.nil_append _).symm (by simp [record]) (fun _ => rfl) rfl)
  exact ⟨_, unpinned, by simp [record],
    buffer_pool_transparent 1 (by decide) onePageWorld rfl rfl one_page_world_sound _ unpinned⟩

end Clients

end PrimitiveDB

import PrimitiveDB.JoinStatements
import PrimitiveDB.NodeKinds
import PrimitiveDB.InsertQueries

/-!
# What an insert reads and writes of a value

`value_of` allocates a value by the length of its text. `QU_Insert` takes it for as long as the
catalog says: it puts the four bytes of a number back in place, and copies as many bytes as the
attribute has. Here its loop keeps a note of the bytes of each value that it reads or writes.
-/

namespace PrimitiveDB

open ByteMemory

set_option autoImplicit false

/-- The first `count` bytes of a buffer of `size` bytes are read or written. -/
structure Touch where
  size : Nat
  count : Int
  deriving DecidableEq

def Touch.Inside (touch : Touch) : Prop := touch.count ≤ touch.size

instance (touch : Touch) : Decidable touch.Inside := inferInstanceAs (Decidable (_ ≤ _))

def conversionTouches (attrType : Int) (size : Nat) : List Touch :=
  match Datatype.ofCode attrType with
  | some .INTEGER => [⟨size, size⟩, ⟨size, 4⟩]
  | some .FLOAT => [⟨size, size⟩, ⟨size, 4⟩]
  | _ => []

/-- One round of the loop: the conversion, and the copy into `data`. -/
def valueTouches (info : AttrDesc) (text : Text) : List Touch :=
  conversionTouches info.attrType (text.length + 1) ++ [⟨text.length + 1, info.attrLen⟩]

/-- `placeValues` with its accesses to the values. -/
def placeValuesTraced (relAttrDesc : List AttrDesc) (len : Int) :
    Memory → List (AttrInfo × Memory) → DbM (Except Status Memory × List Touch)
  | data, [] => pure (.ok data, [])
  | data, (attr, behind) :: attrs => do
      match attr.attrValue with
      | none => pure (.error .BADCATPARM, [])
      | some text => do
      match infoMap relAttrDesc (cString attr.attrName) with
      | none => pure (.error .BADCATPARM, [])
      | some info =>
          let value := convertValue info.attrType text (valueMemory behind text)
          if 0 ≤ info.attrOffset ∧ 0 ≤ info.attrLen ∧ info.attrOffset + info.attrLen ≤ len then do
            let placed ← placeValuesTraced relAttrDesc len
              (writeBytes data info.attrOffset.toNat (readBytes value 0 info.attrLen.toNat)) attrs
            pure (placed.1, valueTouches info text ++ placed.2)
          else DbM.crash

/-- `QU_Insert` with its accesses to the values. -/
def QU_InsertTraced (mem : Uninit) (tmpRid : RID) (data : Memory) (relation : FileName)
    (attrList : List (AttrInfo × Memory)) : DbM (Status × List Touch) := do
  match ← AttrCatalog.getRelInfo mem tmpRid relation with
  | .error status => pure (status, [])
  | .ok relAttrDesc => do
  if attrList.length ≠ relAttrDesc.length then pure (.BADCATPARM, [])
  else
  let len := (relAttrDesc.map AttrDesc.attrLen).sum
  let placed ← placeValuesTraced relAttrDesc len data attrList
  match placed.1 with
  | .error status => pure (status, placed.2)
  | .ok data => do
      let status ← withResult mem relation (insertOnce (readBytes data 0 len.toNat))
      pure (status, placed.2)

section Forget

variable {m : Type → Type} [Monad m] {α β ν : Type}

def forget (call : m (α × ν)) : m α := call >>= fun made => pure made.1

variable [LawfulMonad m]

theorem forget_pure (value : α) (note : ν) : forget (pure (value, note)) = (pure value : m α) :=
  pure_bind _ _

theorem forget_bind (first : m β) (next : β → m (α × ν)) :
    forget (first >>= next) = first >>= fun value => forget (next value) := bind_assoc _ _ _

theorem forget_keep (call : m α) (note : ν) :
    forget (call >>= fun value => pure (value, note)) = call := by
  rw [forget_bind]
  simp only [forget_pure, bind_pure]

theorem bind_forget (first : m (β × ν)) (next : β → m α) :
    (first >>= fun made => next made.1) = forget first >>= next := by
  unfold forget
  simp only [bind_assoc, pure_bind]

end Forget

theorem place_values_traced_forget (relAttrDesc : List AttrDesc) (len : Int) (data : Memory)
    (attrs : List (AttrInfo × Memory)) :
    forget (placeValuesTraced relAttrDesc len data attrs) =
      placeValues relAttrDesc len data attrs := by
  induction attrs generalizing data with
  | nil => rfl
  | cons entry attrs ih =>
      obtain ⟨attr, behind⟩ := entry
      rw [placeValuesTraced, placeValues]
      cases attr.attrValue with
      | none => rfl
      | some text =>
          dsimp only
          cases infoMap relAttrDesc (cString attr.attrName) with
          | none => rfl
          | some info =>
              dsimp only
              split
              · rw [forget_bind]
                exact ih _
              · rfl

theorem insert_traced_forget (mem : Uninit) (tmpRid : RID) (data : Memory) (relation : FileName)
    (attrList : List (AttrInfo × Memory)) :
    forget (QU_InsertTraced mem tmpRid data relation attrList) =
      QU_Insert mem tmpRid data relation attrList := by
  unfold QU_InsertTraced QU_Insert
  rw [forget_bind]
  congr 1
  funext found
  cases found with
  | error status => rfl
  | ok relAttrDesc =>
      dsimp only
      split
      · rfl
      · rw [forget_bind, ← place_values_traced_forget, ← bind_forget]
        congr 1
        funext placed
        rcases placed with ⟨status | data, touched⟩
        · rfl
        · exact forget_keep _ touched

def AttrDesc.FitsText (desc : AttrDesc) (text : Text) : Prop :=
  desc.attrLen ≤ text.length + 1 ∧
    (Datatype.ofCode desc.attrType = some .INTEGER ∨
      Datatype.ofCode desc.attrType = some .FLOAT → 4 ≤ text.length + 1)

instance (desc : AttrDesc) (text : Text) : Decidable (desc.FitsText text) :=
  inferInstanceAs (Decidable (_ ∧ _))

/-- Every value that the loop comes to fits. It ends at the first name that it does not know. -/
def AllFit (descs : List AttrDesc) : List AttrInfo → Prop
  | [] => True
  | attr :: attrs =>
      match attr.attrValue, infoMap descs (cString attr.attrName) with
      | some text, some desc => desc.FitsText text ∧ AllFit descs attrs
      | _, _ => True

theorem value_touches_inside_iff (desc : AttrDesc) (text : Text) :
    (∀ touch ∈ valueTouches desc text, touch.Inside) ↔ desc.FitsText text := by
  unfold valueTouches conversionTouches AttrDesc.FitsText
  rw [List.forall_mem_append, List.forall_mem_singleton]
  rcases Datatype.ofCode desc.attrType with _ | _ | _ | _
  · simp [Touch.Inside]
  · simp [Touch.Inside]
  · simp only [List.forall_mem_cons, Touch.Inside]
    simp
    omega
  · simp only [List.forall_mem_cons, Touch.Inside]
    simp
    omega

theorem place_values_inside_iff {relAttrDesc : List AttrDesc} {len : Int} {data : Memory}
    {attrs : List (AttrInfo × Memory)} {result : Except Status Memory} {touched : List Touch}
    {w w' : World}
    (run : placeValuesTraced relAttrDesc len data attrs w = (.ok (result, touched), w')) :
    (∀ touch ∈ touched, touch.Inside) ↔ AllFit relAttrDesc (attrs.map Prod.fst) := by
  induction attrs generalizing data w result touched with
  | nil =>
      cases run
      simp [AllFit]
  | cons entry attrs ih =>
      obtain ⟨attr, behind⟩ := entry
      rw [placeValuesTraced] at run
      rw [List.map_cons, AllFit]
      cases value : attr.attrValue with
      | none =>
          rw [value] at run
          cases run
          simp
      | some text =>
          rw [value] at run
          dsimp only at run ⊢
          cases found : infoMap relAttrDesc (cString attr.attrName) with
          | none =>
              rw [found] at run
              cases run
              simp
          | some info =>
              rw [found] at run
              dsimp only at run ⊢
              split at run
              · obtain ⟨⟨rest, later⟩, w₁, placed, ended⟩ := DbM.bind_eq_ok_iff.mp run
                cases ended
                rw [List.forall_mem_append, value_touches_inside_iff, ih placed]
              · cases run

theorem insert_traced_inside_iff {mem : Uninit} {tmpRid : RID} {data : Memory}
    {relation : FileName} {attrList : List (AttrInfo × Memory)} {status : Status}
    {touched : List Touch} {w w' : World}
    (run : QU_InsertTraced mem tmpRid data relation attrList w = (.ok (status, touched), w')) :
    (∀ touch ∈ touched, touch.Inside) ↔ ∀ descs w₁,
      AttrCatalog.getRelInfo mem tmpRid relation w = (.ok (.ok descs), w₁) →
      attrList.length = descs.length → AllFit descs (attrList.map Prod.fst) := by
  obtain ⟨found, w₁, look, later⟩ := DbM.bind_eq_ok_iff.mp run
  rw [look]
  cases found with
  | error code =>
      cases later
      simp
  | ok relAttrDesc =>
      dsimp only at later
      split at later
      · rename_i wrong
        cases later
        apply iff_of_true (by simp)
        rintro descs w₂ ⟨⟩ right
        exact absurd right wrong
      · rename_i right
        obtain ⟨⟨result, touches⟩, w₂, placed, ended⟩ := DbM.bind_eq_ok_iff.mp later
        have same : touches = touched := by
          cases result with
          | error code =>
              cases ended
              rfl
          | ok filled =>
              obtain ⟨code, w₃, _, last⟩ := DbM.bind_eq_ok_iff.mp ended
              cases last
              rfl
        subst same
        rw [place_values_inside_iff placed]
        constructor
        · rintro fit descs w₃ ⟨⟩ _
          exact fit
        · intro fit
          exact fit relAttrDesc w₁ rfl (not_not.mp right)

def insertList (relname : Text) (attrs : List (Text × Value)) : List AttrInfo :=
  attrs.map fun attr =>
    { queryAttr relname attr.1 with
      attrType := attr.2.type.code, attrValue := some attr.2.text }

/-- `interpInsert` with the accesses of `QU_Insert` to the values. -/
def interpInsertTraced (mem : Uninit) (tmpRid : RID) (data behind : Memory) (relname : Text)
    (attrlist : NODE) : ExceptT Fault DbM (List Touch) := do
  match ← reading (insAttrs attrlist 0) with
  | none => pure []
  | some attrs => do
      let made ← calling (QU_InsertTraced mem tmpRid data relname
        ((insertList relname attrs).map fun attr => (attr, behind)))
      pure made.2

theorem calling_forget {α ν β : Type} (call : DbM (α × ν)) (next : α → ExceptT Fault DbM β) :
    (calling call >>= fun made => next made.1) = calling (forget call) >>= next := by
  apply ExceptT.ext
  simp only [calling, forget, ExceptT.run_bind, ExceptT.run_lift, map_bind, map_pure,
    bind_map_left, bind_assoc, pure_bind]

theorem interp_insert_traced (joinMethod : JoinType) (mem : Uninit) (tmpRid : RID)
    (data behind : Memory) (utilities : Utilities) (relname : Text) (attrlist : NODE) :
    (interpInsertTraced mem tmpRid data behind relname attrlist >>= fun _ => pure ()) =
      interpInsert (databaseCalls joinMethod mem tmpRid data behind utilities) relname
        attrlist := by
  unfold interpInsertTraced interpInsert
  rcases insAttrs attrlist 0 with fault | _ | attrs
  · rfl
  · rfl
  · have same := insert_traced_forget mem tmpRid data relname
      ((insertList relname attrs).map fun attr => (attr, behind))
    have called := calling_forget (QU_InsertTraced mem tmpRid data relname
      ((insertList relname attrs).map fun attr => (attr, behind)))
      fun _ => (pure () : ExceptT Fault DbM Unit)
    rw [same] at called
    rw [reading_ok_bind rfl, reading_ok_bind rfl]
    simp only [bind_assoc, pure_bind]
    exact called

/-- An insert statement stays inside the buffers of its values exactly if every literal that it
comes to is long enough for the attribute it is for. -/
theorem insert_stays_inside_iff (mem : Uninit) (tmpRid : RID) (data behind : Memory)
    (relname : Text) (attrlist : NODE) (touched : List Touch) (w w' : World)
    (run : (interpInsertTraced mem tmpRid data behind relname attrlist).run w =
      (.ok (.ok touched), w')) :
    (∀ touch ∈ touched, touch.Inside) ↔ ∀ attrs descs w₁,
      insAttrs attrlist 0 = .ok (some attrs) →
      AttrCatalog.getRelInfo mem tmpRid relname w = (.ok (.ok descs), w₁) →
      attrs.length = descs.length → AllFit descs (insertList relname attrs) := by
  unfold interpInsertTraced at run
  rcases read : insAttrs attrlist 0 with fault | _ | attrs
  · rw [read] at run
    cases run
  · rw [read] at run
    cases run
    simp
  · rw [read] at run
    obtain ⟨result, w₁, called, later⟩ := DbM.bind_eq_ok_iff.mp run
    obtain ⟨⟨status, touches⟩, w₂, inserted, lifted⟩ := DbM.bind_eq_ok_iff.mp called
    cases lifted
    cases later
    have inside := insert_traced_inside_iff inserted
    simp only [List.length_map, insertList, List.map_map] at inside
    rw [inside]
    constructor
    · rintro fit attrs' descs w₂ ⟨⟩ found right
      exact fit descs w₂ found right
    · intro fit descs w₂ found right
      exact fit attrs descs w₂ rfl found right

open HeapSession (zeroMemory)

def numberAndText (number : Int) : NODE :=
  .LIST (.ATTRVAL [97] (.VALUE (.INTEGER number)))
    (.LIST (.ATTRVAL [98] (.VALUE (.STRING [120, 121]))) .NULL)

def touchedBy (call : ExceptT Fault DbM (List Touch)) : DbM (Option (List Touch)) :=
  call.run >>= fun made => pure made.toOption

theorem run_of_touched {call : ExceptT Fault DbM (List Touch)} {w : World} {touched : List Touch}
    (made : (touchedBy call w).1 = .ok (some touched)) :
    ∃ w', call.run w = (.ok (.ok touched), w') := by
  have whole := DbM.run_of_value made
  obtain ⟨result, w', run, later⟩ := DbM.bind_eq_ok_iff.mp whole
  cases result with
  | error fault => cases later
  | ok touches =>
      cases later
      exact ⟨_, run⟩

def insertIntoR (number : Int) : ExceptT Fault DbM (List Touch) :=
  interpInsertTraced zeroMemory NULLRID (fun _ => 0) (fun _ => 0) [114] (numberAndText number)

theorem three_digits_touched : (touchedBy (insertIntoR 123) sampleStart).1 =
    .ok (some [⟨4, 4⟩, ⟨4, 4⟩, ⟨4, 4⟩, ⟨3, 2⟩]) := by decide +kernel

theorem digit_touched : (touchedBy (insertIntoR 1) sampleStart).1 =
    .ok (some [⟨2, 2⟩, ⟨2, 4⟩, ⟨2, 4⟩, ⟨3, 2⟩]) := by decide +kernel

/-- `insert into r (a, b) values (123, "xy")`: four bytes are four bytes. -/
theorem insert_stays_inside_three_digits : ∃ touched w',
    (insertIntoR 123).run sampleStart = (.ok (.ok touched), w') ∧
    ∀ touch ∈ touched, touch.Inside := by
  obtain ⟨w', run⟩ := run_of_touched three_digits_touched
  refine ⟨_, w', run, ?_⟩
  apply (insert_stays_inside_iff _ _ _ _ _ _ _ _ _ run).mpr
  intro attrs descs w₁ read found _
  have listed : insAttrs (numberAndText 123) 0 =
      .ok (some [([97], .INTEGER 123), ([98], .STRING [120, 121])]) := rfl
  rw [listed] at read
  cases read
  have catalog : (AttrCatalog.getRelInfo zeroMemory NULLRID [114] sampleStart).1 =
      .ok (.ok [attrRA, attrRB]) := by decide +kernel
  rw [found] at catalog
  cases catalog
  exact ⟨by decide, by decide, trivial⟩

/-- `insert into r (a, b) values (1, "xy")`: the number is written to a buffer of two bytes. -/
theorem insert_writes_behind_digit : ∃ touched w',
    (insertIntoR 1).run sampleStart = (.ok (.ok touched), w') ∧
    ∃ touch ∈ touched, ¬touch.Inside := by
  obtain ⟨w', run⟩ := run_of_touched digit_touched
  exact ⟨_, w', run, ⟨2, 4⟩, by decide, by decide⟩

end PrimitiveDB

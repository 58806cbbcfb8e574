import PrimitiveDB.SelectQueries

/-!
# The nested-loops join

For every tuple of the outer relation the inner relation is scanned with a filter
that points into that tuple, so the operands of the comparison change sides and
the operator is mirrored. Three objects are open at a time.
-/

namespace PrimitiveDB

open World DbM ByteMemory ScanFilter

set_option autoImplicit false

namespace Operator

def Holds {α : Type} [LinearOrder α] (op : Operator) (left right : α) : Prop :=
  match op with
  | .LT => left < right
  | .LTE => left ≤ right
  | .EQ => left = right
  | .GTE => right ≤ left
  | .GT => right < left
  | .NE => left ≠ right

instance {α : Type} [LinearOrder α] (op : Operator) (left right : α) :
    Decidable (op.Holds left right) :=
  match op with
  | .LT => inferInstanceAs (Decidable (left < right))
  | .LTE => inferInstanceAs (Decidable (left ≤ right))
  | .EQ => inferInstanceAs (Decidable (left = right))
  | .GTE => inferInstanceAs (Decidable (right ≤ left))
  | .GT => inferInstanceAs (Decidable (right < left))
  | .NE => inferInstanceAs (Decidable (left ≠ right))

/-- An operator on a number that has the sign of `right - left`: the operands change
sides, and so does the operator. -/
theorem mirrored_holds_iff {α : Type} [LinearOrder α] {left right : α} {diff : Int}
    (below : diff < 0 ↔ right < left) (same : diff = 0 ↔ right = left) (op : Operator) :
    opHolds (mirrored op) (some diff) = true ↔ op.Holds left right := by
  have above : 0 < diff ↔ left < right := by
    rw [← not_le, ← not_le, Int.le_iff_lt_or_eq, le_iff_lt_or_eq, below, same]
  cases op with
  | LT =>
      simp only [mirrored, opHolds, Holds, gt_iff_lt, decide_eq_true_eq]
      exact above
  | LTE =>
      simp only [mirrored, opHolds, Holds, ge_iff_le, decide_eq_true_eq]
      rw [← not_lt, below, not_lt]
  | EQ =>
      simp only [mirrored, opHolds, Holds, decide_eq_true_eq]
      rw [same, eq_comm]
  | GTE =>
      simp only [mirrored, opHolds, Holds, decide_eq_true_eq]
      rw [← not_lt, above, not_lt]
  | GT =>
      simp only [mirrored, opHolds, Holds, decide_eq_true_eq]
      exact below
  | NE =>
      simp only [mirrored, opHolds, Holds, ne_eq, decide_eq_true_eq]
      rw [same, eq_comm]

end Operator

def intOf (bytes : List Byte) : Int := readInt (bytesAt bytes 0) 0

/-- `left op right` for the bytes of two attributes of one type: strings in
lexicographic order up to their terminator, integers by value. Floating-point
attributes are compared as `matchRec` does. -/
def AttrHolds : Datatype → Operator → List Byte → List Byte → Prop
  | .STRING, op, left, right => op.Holds (cString left) (cString right)
  | .INTEGER, op, left, right => op.Holds (intOf left) (intOf right)
  | .FLOAT, op, left, right =>
      opHolds op (floatDiff (readFloat (bytesAt left 0)) (readFloat (bytesAt right 0))) = true

instance (type : Datatype) (op : Operator) (left right : List Byte) :
    Decidable (AttrHolds type op left right) :=
  match type with
  | .STRING => inferInstanceAs (Decidable (op.Holds (cString left) (cString right)))
  | .INTEGER => inferInstanceAs (Decidable (op.Holds (intOf left) (intOf right)))
  | .FLOAT => inferInstanceAs (Decidable (_ = true))

/-- The difference of two integer attributes is an `int`. -/
def DifferenceFits : Datatype → List Byte → List Byte → Prop
  | .INTEGER, left, right => -2147483648 ≤ intOf right - intOf left ∧
      intOf right - intOf left < 2147483648
  | _, _, _ => True

instance (type : Datatype) (left right : List Byte) :
    Decidable (DifferenceFits type left right) :=
  match type with
  | .STRING => inferInstanceAs (Decidable True)
  | .INTEGER => inferInstanceAs (Decidable (_ ∧ _))
  | .FLOAT => inferInstanceAs (Decidable True)

theorem mirrored_neg (op : Operator) (diff : Int) :
    opHolds (mirrored op) (some (-diff)) = opHolds op (some diff) := by
  cases op <;> simp [mirrored, opHolds]

theorem float_diff_swap (op : Operator) (left right : FloatValue) :
    opHolds (mirrored op) (floatDiff right left) = opHolds op (floatDiff left right) := by
  have incomparable : opHolds (mirrored op) none = opHolds op none := by cases op <;> rfl
  have unordered : ∀ value, floatDiff .nan value = none ∧ floatDiff value .nan = none := by
    intro value
    cases value <;> exact ⟨rfl, rfl⟩
  cases left with
  | nan => rw [(unordered right).1, (unordered right).2, incomparable]
  | infinity negative =>
      cases right with
      | nan => rw [(unordered _).1, (unordered _).2, incomparable]
      | infinity negative' =>
          cases negative <;> cases negative' <;> cases op <;> rfl
      | finite scaled => cases negative <;> cases op <;> rfl
  | finite scaled =>
      cases right with
      | nan => rw [(unordered _).1, (unordered _).2, incomparable]
      | infinity negative => cases negative <;> cases op <;> rfl
      | finite scaled' =>
          have turned : scaled' - scaled = -(scaled - scaled') := by omega
          rw [floatDiff, floatDiff, turned, mirrored_neg]

def joinFilter (attr1 attr2 : AttrDesc) (type : Datatype) (op : Operator) (outerRec : Record) :
    ScanFilter :=
  { offset := attr2.attrOffset, length := attr2.attrLen, type
    filter := outerRec.drop attr1.attrOffset.toNat, op := mirrored op }

theorem strncmp_congr {left right left' right' : Memory} (count start : Nat)
    (first : ∀ index < start + count, left index = left' index)
    (second : ∀ index < start + count, right index = right' index) :
    strncmp left right start count = strncmp left' right' start count := by
  induction count generalizing start with
  | zero => rfl
  | succ count ih =>
      have later : start + 1 + count = start + (count + 1) := by omega
      rw [strncmp, strncmp, first start (by omega), second start (by omega), ih (start + 1)]
      · rw [later]
        exact first
      · rw [later]
        exact second

theorem bytes_at_attr {attr : AttrDesc} (rec : Record) {index : Nat}
    (bound : index < attr.attrLen.toNat) :
    bytesAt rec attr.attrOffset.toNat index = bytesAt (attr.bytes rec) 0 index := by
  simp only [bytesAt, AttrDesc.bytes, List.getD_eq_getElem?_getD, List.getElem?_take,
    List.getElem?_drop, Nat.zero_add, if_pos bound]

theorem bytes_at_drop (rec : Record) (offset : Nat) :
    bytesAt (rec.drop offset) 0 = bytesAt rec offset := by
  funext index
  simp only [bytesAt, List.getD_eq_getElem?_getD, List.getElem?_drop, Nat.zero_add]

theorem read_int_congr {left right : Memory} (same : ∀ index < 4, left index = right index) :
    readInt left 0 = readInt right 0 := by
  unfold readInt
  rw [same 0 (by omega), same (0 + 1) (by omega), same (0 + 2) (by omega), same (0 + 3) (by omega)]

theorem read_float_congr {left right : Memory} (same : ∀ index < 4, left index = right index) :
    readFloat left = readFloat right := by
  unfold readFloat
  rw [same 0 (by omega), same 1 (by omega), same 2 (by omega), same 3 (by omega)]

theorem to_int_of_fits {value : Int} (lower : -2147483648 ≤ value) (upper : value < 2147483648) :
    toInt value = value := by
  unfold toInt
  rw [Int.bmod_eq_of_le] <;> omega

theorem match_join_iff {attr1 attr2 : AttrDesc} {type : Datatype} (proper : attr2.Proper type)
    (alike : attr1.attrLen = attr2.attrLen) {outerRec innerRec : Record}
    (fits1 : attr1.Fits outerRec) (fits2 : attr2.Fits innerRec) (op : Operator)
    (difference : DifferenceFits type (attr1.bytes outerRec) (attr2.bytes innerRec)) :
    matchRec (some (joinFilter attr1 attr2 type op outerRec)) innerRec = true ↔
      AttrHolds type op (attr1.bytes outerRec) (attr2.bytes innerRec) := by
  have inside : ¬((joinFilter attr1 attr2 type op outerRec).offset +
      (joinFilter attr1 attr2 type op outerRec).length - 1 ≥ innerRec.length) := by
    have upper := fits2.2.2
    simp only [joinFilter]
    omega
  unfold matchRec
  dsimp only
  rw [if_neg inside]
  -- both operands, as the bytes of their attributes
  have inner : ∀ index < attr2.attrLen.toNat,
      bytesAt innerRec attr2.attrOffset.toNat index = bytesAt (attr2.bytes innerRec) 0 index :=
    fun index bound => bytes_at_attr innerRec bound
  have outer : ∀ index < attr2.attrLen.toNat,
      bytesAt (outerRec.drop attr1.attrOffset.toNat) 0 index =
        bytesAt (attr1.bytes outerRec) 0 index := by
    intro index bound
    rw [← alike] at bound
    rw [bytes_at_drop]
    exact bytes_at_attr outerRec bound
  cases type with
  | STRING =>
      have lengths : (attr2.bytes innerRec).length = (attr1.bytes outerRec).length := by
        rw [AttrDesc.bytes_length fits2, AttrDesc.bytes_length fits1, alike]
      have compared : (joinFilter attr1 attr2 .STRING op outerRec).diff innerRec =
          some (strncmp (bytesAt (attr2.bytes innerRec) 0) (bytesAt (attr1.bytes outerRec) 0) 0
            (attr2.bytes innerRec).length) := by
        rw [AttrDesc.bytes_length fits2]
        simp only [diff, joinFilter]
        rw [strncmp_congr _ 0 (by simpa using inner) (by simpa using outer)]
      obtain ⟨below, same⟩ := strncmp_lex _ _ lengths
      rw [compared]
      exact Operator.mirrored_holds_iff below same op
  | INTEGER =>
      have word : attr2.attrLen.toNat = 4 := by rw [proper.word (by decide)]; rfl
      rw [word] at inner outer
      have compared : (joinFilter attr1 attr2 .INTEGER op outerRec).diff innerRec =
          some (intOf (attr2.bytes innerRec) - intOf (attr1.bytes outerRec)) := by
        simp only [diff, joinFilter]
        rw [read_int_congr inner, read_int_congr outer]
        exact congrArg some (to_int_of_fits difference.1 difference.2)
      rw [compared]
      apply Operator.mirrored_holds_iff
      · omega
      · omega
  | FLOAT =>
      have word : attr2.attrLen.toNat = 4 := by rw [proper.word (by decide)]; rfl
      rw [word] at inner outer
      have compared : (joinFilter attr1 attr2 .FLOAT op outerRec).diff innerRec =
          floatDiff (readFloat (bytesAt (attr2.bytes innerRec) 0))
            (readFloat (bytesAt (attr1.bytes outerRec) 0)) := by
        simp only [diff, joinFilter]
        rw [read_float_congr inner, read_float_congr outer]
      rw [compared, AttrHolds]
      simp only [joinFilter]
      rw [float_diff_swap]

theorem start_join_accepted {scan : HeapFileScan} {attr1 attr2 : AttrDesc} {type : Datatype}
    (proper : attr2.Proper type) (op : Operator) (outerRec : Record) :
    scan.startJoin attr1 attr2 (mirrored op) outerRec =
      (.OK, { scan with filter := some (joinFilter attr1 attr2 type op outerRec) }) := by
  unfold HeapFileScan.startJoin
  rw [proper.code]
  exact start_scan_accepted proper _ _

/-- The tuples that the join of `outer` and `inner` puts out. -/
def joinOutput (attrs : List AttrDesc) (attr1 attr2 : AttrDesc) (type : Datatype) (op : Operator)
    (outer inner : List Record) : List Record :=
  outer.flatMap fun outerRec => queryOutput attrs (joinSide attr1 outerRec)
    (some (joinFilter attr1 attr2 type op outerRec)) inner

theorem join_with_keeps (mem : Uninit) (tmpRid : RID) (attrs : List AttrDesc)
    (attr1 attr2 : AttrDesc) (op : Operator) (outerRec : Record) (resultRel : InsertFileScan) :
    KeepsFlag (joinWith mem tmpRid attrs attr1 attr2 op outerRec resultRel) := by
  unfold joinWith
  repeat' first
    | exact keeps_pure _ | exact keeps_crash | exact keeps_read _
    | exact HeapFileScan.new_keeps _ _ | exact HeapFileScan.delete_keeps _
    | exact emit_loop_keeps _ _ _ _ _ _
    | apply keeps_bind | intro _ | split

theorem outer_loop_keeps (mem : Uninit) (tmpRid : RID) (attrs : List AttrDesc)
    (attr1 attr2 : AttrDesc) (op : Operator) (fuel : Nat) (outerScan : HeapFileScan)
    (resultRel : InsertFileScan) :
    KeepsFlag (outerLoop mem tmpRid attrs attr1 attr2 op fuel outerScan resultRel) := by
  induction fuel generalizing outerScan resultRel with
  | zero => exact keeps_crash
  | succ fuel ih =>
      unfold outerLoop
      repeat' first
        | exact keeps_pure _ | exact HeapFileScan.scan_next_keeps _ _
        | exact current_record_keeps _ | exact join_with_keeps _ _ _ _ _ _ _ _ | exact ih _ _
        | apply keeps_bind | intro _ | split

section Loops

variable {w : World} {rest : List Pin} {others : List FilePtr} {relation innerRel result : FileName}
  {lf lfInner out : LogicalFile} {chain innerChain outChain : List Int} {todo : List RID}
  {outerScan : HeapFileScan} {resultRel : InsertFileScan} {attr1 attr2 : AttrDesc}
  {attrs : List AttrDesc} {type : Datatype} {op : Operator}

/-- One round of the outer loop: the inner scan comes and goes, and the matches of
`outerRec` are in the result. -/
theorem World.Emits.join_with
    (emits : w.Emits outerScan resultRel rest others relation lf chain todo result out outChain)
    (owned : ∀ pin ∈ rest, pin.file ∈ others) (different : relation ≠ result)
    (inner : w.Stores innerRel lfInner innerChain) (innerNamed : innerRel ≠ [])
    (innerDifferent : innerRel ≠ result) (name : attr2.relName = innerRel)
    (proper : attr2.Proper type) (mem : Uninit) (tmpRid : RID) {outerRec : Record}
    (projects : ∀ rec ∈ (lfInner.tuples innerChain).filter
      (matchRec (some (joinFilter attr1 attr2 type op outerRec))),
      Projects attrs (joinSide attr1 outerRec rec)) :
    Smoothly (joinWith mem tmpRid attrs attr1 attr2 (mirrored op) outerRec resultRel) w
      fun ends w' => ends.1 = .OK ∧ ∃ out' outChain',
        w'.Emits outerScan ends.2 rest others relation lf chain todo result out' outChain' ∧
        ends.2.headerPageNo = resultRel.headerPageNo ∧
        w'.logical = Function.update w.logical result (some out') ∧
        (∀ file ∈ outerScan.filePtr :: others, w'.nameOf file = w.nameOf file) ∧
        out.Appended out' resultRel.headerPageNo outChain outChain'
          (queryOutput attrs (joinSide attr1 outerRec)
            (some (joinFilter attr1 attr2 type op outerRec)) (lfInner.tuples innerChain)) := by
  subst name
  have pinsOwned : ∀ pin ∈ outerScan.toHeapFile.pins ++ rest,
      pin.file ∈ outerScan.filePtr :: others := HeapFile.pins_owned owned
  unfold joinWith
  apply smoothly_bind
  · intro ends
    repeat' first
      | exact keeps_pure _ | exact keeps_crash | exact keeps_read _
      | exact HeapFileScan.delete_keeps _ | exact emit_loop_keeps _ _ _ _ _ _
      | apply keeps_bind | intro _ | split
  · apply (emits.insertsAt.open_scan emits.atEnd emits.first inner innerNamed mem).mono
    rintro ends w₁ ⟨innerScan, rfl, opened, logical₁, names₁, _⟩
    dsimp only
    rw [start_join_accepted proper]
    dsimp only
    rw [if_neg (not_not.mpr rfl)]
    have filtered := opened.start (some (joinFilter attr1 attr2 type op outerRec))
    apply smoothly_bind_eq filtered.scanAt.search_fuel
    apply smoothly_bind
    · intro ends
      repeat' first
        | exact keeps_pure _ | exact HeapFileScan.delete_keeps _
        | apply keeps_bind | intro _
    · apply (filtered.emit_loop _ innerDifferent tmpRid attrs (joinSide attr1 outerRec)
        filtered.scanAt.formed.rids_lt projects).mono
      rintro ⟨innerScan', resultRel'⟩ w₂ ⟨out', outChain', emits₂, headerNo, touches, appended⟩
      obtain ⟨w₃, deleted, insertsAt, logical₃, names₃⟩ := emits₂.delete_scan pinsOwned
      dsimp only
      apply smoothly_bind_eq deleted
      apply smoothly_pure
      have changed : w₃.logical = Function.update w.logical result (some out') := by
        rw [logical₃, touches.logical, logical₁]
      have names : ∀ file ∈ outerScan.filePtr :: others, w₃.nameOf file = w.nameOf file := by
        intro file member
        rw [names₃ file (List.mem_cons_of_mem _ member), touches.names,
          names₁ file (List.mem_cons_of_mem _ member)]
      refine ⟨rfl, out', outChain', ?_, headerNo, changed, names, appended⟩
      apply emits.resume (names _ (List.mem_cons_self ..)) _ insertsAt emits₂.atEnd emits₂.first
      rw [changed, Function.update_of_ne different]

/-- The outer loop puts out the join of the records in front of it. -/
theorem World.Emits.outer_loop (fuel : Nat)
    (emits : w.Emits outerScan resultRel rest others relation lf chain todo result out outChain)
    (unfiltered : outerScan.filter = none)
    (owned : ∀ pin ∈ rest, pin.file ∈ others) (different : relation ≠ result)
    (inner : w.Stores innerRel lfInner innerChain) (innerNamed : innerRel ≠ [])
    (innerDifferent : innerRel ≠ result) (name : attr2.relName = innerRel)
    (proper : attr2.Proper type) (mem : Uninit) (tmpRid : RID) (enough : todo.length < fuel)
    (projects : ∀ outerRec ∈ lf.recordsAt todo, ∀ rec ∈ (lfInner.tuples innerChain).filter
      (matchRec (some (joinFilter attr1 attr2 type op outerRec))),
      Projects attrs (joinSide attr1 outerRec rec)) :
    Smoothly (outerLoop mem tmpRid attrs attr1 attr2 (mirrored op) fuel outerScan resultRel) w
      fun ends w' => ends.1 = .OK ∧ ∃ out' outChain',
        w'.Emits ends.2.1 ends.2.2 rest others relation lf chain [] result out' outChain' ∧
        ends.2.2.headerPageNo = resultRel.headerPageNo ∧
        w'.logical = Function.update w.logical result (some out') ∧
        (∀ file ∈ others, w'.nameOf file = w.nameOf file) ∧
        out.Appended out' resultRel.headerPageNo outChain outChain'
          (joinOutput attrs attr1 attr2 type op (lf.recordsAt todo)
            (lfInner.tuples innerChain)) := by
  induction fuel generalizing w outerScan resultRel todo out outChain with
  | zero => exact absurd enough (Nat.not_lt_zero _)
  | succ fuel ih =>
      unfold outerLoop
      apply smoothly_bind
      · intro ends
        repeat' first
          | exact keeps_pure _ | exact current_record_keeps _
          | exact join_with_keeps _ _ _ _ _ _ _ _ | exact outer_loop_keeps _ _ _ _ _ _ _ _ _
          | apply keeps_bind | intro _ | split
      · have everything : ∀ records : List Record,
            records.filter (matchRec outerScan.filter) = records := by
          intro records
          rw [unfiltered]
          exact List.filter_true records
        apply (emits.scanAt.next_record tmpRid).mono
        rintro ⟨ends, outerScan₁⟩ w₁ ⟨same, filter, file, _, outcome⟩
        rw [everything] at outcome
        dsimp only at filter file
        rcases outcome with ⟨rfl, scanAt₁, none_⟩ |
          ⟨rid, rec, later, rfl, _, scanAt₁, _, current, _, shorter, split⟩
        · apply smoothly_pure
          refine ⟨rfl, out, outChain, emits.scanned same scanAt₁, rfl, ?_,
            fun file _ => same.nameOf file, ?_⟩
          · exact (same.touches emits.insertsAt.holding.logical).logical
          · rw [none_]
            exact LogicalFile.Appended.refl _ _ _
        · rw [everything] at split
          dsimp only at scanAt₁ current
          have tuple : currentRecord outerScan₁ w₁ = (.ok rec, w₁) := by
            unfold currentRecord
            rw [bind_ok current]
            rfl
          have inner₁ : w₁.Stores innerRel lfInner innerChain := by
            refine ⟨?_, inner.formed⟩
            rw [same.logical]
            exact inner.logical
          apply smoothly_bind_eq tuple
          apply smoothly_bind
          · intro ends
            repeat' first
              | exact keeps_pure _ | exact outer_loop_keeps _ _ _ _ _ _ _ _ _ | split
          · apply ((emits.scanned same scanAt₁).join_with owned different inner₁ innerNamed
              innerDifferent name proper mem tmpRid (projects rec (by rw [split]; simp))).mono
            rintro ⟨status, resultRel₁⟩ w₂
              ⟨rfl, out₁, outChain₁, emits₁, headerNo, changed, names, appended⟩
            have inner₂ : w₂.Stores innerRel lfInner innerChain := by
              refine ⟨?_, inner.formed⟩
              rw [changed, Function.update_of_ne innerDifferent]
              exact inner₁.logical
            dsimp only
            rw [if_neg (not_not.mpr rfl)]
            apply (ih emits₁ (filter.trans unfiltered) inner₂ (by omega) fun outerRec member =>
              projects outerRec (by rw [split]; simp [member])).mono
            rintro ⟨status, outerScan₂, resultRel₂⟩ w₃
              ⟨rfl, out₂, outChain₂, emits₂, headerNo₂, changed₂, names₂, appended₂⟩
            refine ⟨rfl, out₂, outChain₂, emits₂, headerNo₂.trans headerNo, ?_, ?_, ?_⟩
            · rw [changed₂, changed, Function.update_idem, same.logical]
            · intro file member
              rw [names₂ file member, names file (List.mem_cons_of_mem _ member), same.nameOf]
            · dsimp only at headerNo
              rw [headerNo] at appended₂
              rw [split, joinOutput, List.flatMap_cons]
              exact appended.trans appended₂

end Loops

theorem start_all (scan : HeapFileScan) : scan.startAll = (.OK, { scan with filter := none }) :=
  rfl

theorem join_scans_keeps (mem : Uninit) (tmpRid : RID) (result : FileName)
    (attrs : List AttrDesc) (attr1 attr2 : AttrDesc) (op : Operator) :
    KeepsFlag (joinScans mem tmpRid result attrs attr1 attr2 op) := by
  unfold joinScans withResult
  repeat' first
    | exact keeps_pure _ | exact keeps_crash | exact keeps_read _
    | exact InsertFileScan.new_keeps _ _ | exact InsertFileScan.delete_keeps _
    | exact HeapFileScan.new_keeps _ _ | exact HeapFileScan.delete_keeps _
    | exact outer_loop_keeps _ _ _ _ _ _ _ _ _
    | apply keeps_bind | intro _ | split

theorem World.ScanAt.join_fuel {w : World} {rest : List Pin} {others : List FilePtr}
    {relation innerRel : FileName} {lf lfInner : LogicalFile} {chain innerChain : List Int}
    {todo : List RID} {scan : HeapFileScan}
    (scanAt : w.ScanAt scan rest others relation lf chain todo)
    (inner : w.Stores innerRel lfInner innerChain) :
    DbM.read (joinFuel · scan.filePtr innerRel) w =
      (.ok (lf.size * 40000 * (lfInner.size * 40000 + 1)), w) := by
  have outerFuel : HeapFileScan.scanFuel w scan.filePtr = lf.size * 40000 :=
    scanAt.holding.scan_fuel
  obtain ⟨contents, stored, read⟩ := Option.map_eq_some_iff.mp inner.logical
  have size : contents.size = lfInner.size := by rw [← read]
  have fuel : joinFuel w scan.filePtr innerRel =
      lf.size * 40000 * (lfInner.size * 40000 + 1) := by
    simp only [joinFuel, stored, outerFuel, size]
  exact congrArg (fun value => (Outcome.ok value, w)) fuel

/-- The join behind its catalog lookups. The two relations may be the same. -/
theorem World.Storage.join_scans {w : World} {pins : List Pin} {opens : List FilePtr}
    {relation innerRel result : FileName} {lf lfInner out : LogicalFile}
    {chain innerChain outChain : List Int} (storage : w.Storage pins opens)
    (owned : ∀ pin ∈ pins, pin.file ∈ opens) (outer : w.Stores relation lf chain)
    (inner : w.Stores innerRel lfInner innerChain) (target : w.Stores result out outChain)
    (different : relation ≠ result) (innerDifferent : innerRel ≠ result)
    (named : relation ≠ []) (innerNamed : innerRel ≠ []) (resultNamed : result ≠ [])
    (mem : Uninit) (tmpRid : RID) {attr1 attr2 : AttrDesc} {attrs : List AttrDesc}
    {type : Datatype} {op : Operator} (name1 : attr1.relName = relation)
    (name2 : attr2.relName = innerRel) (proper : attr2.Proper type)
    (projects : ∀ outerRec ∈ lf.tuples chain, ∀ rec ∈ (lfInner.tuples innerChain).filter
      (matchRec (some (joinFilter attr1 attr2 type op outerRec))),
      Projects attrs (joinSide attr1 outerRec rec)) :
    Smoothly (joinScans mem tmpRid result attrs attr1 attr2 op) w fun status w' =>
      status = .OK ∧ w'.Storage pins opens ∧
        (∀ file ∈ opens, w'.nameOf file = w.nameOf file) ∧
        ∃ out' outChain', w'.logical = Function.update w.logical result (some out') ∧
          w'.Stores result out' outChain' ∧
          out.Appended out' out.firstPage outChain outChain'
            (joinOutput attrs attr1 attr2 type op (lf.tuples chain)
              (lfInner.tuples innerChain)) := by
  subst name1
  unfold joinScans withResult
  apply smoothly_bind
  · intro ends
    repeat' first
      | exact keeps_pure _ | exact keeps_crash | exact keeps_read _
      | exact InsertFileScan.delete_keeps _ | exact HeapFileScan.new_keeps _ _
      | exact HeapFileScan.delete_keeps _ | exact outer_loop_keeps _ _ _ _ _ _ _ _ _
      | apply keeps_bind | intro _ | split
  · apply (storage.new_inserter target.logical target.formed resultNamed mem).mono
    rintro ends w₁ ⟨resultRel, rfl, insertsAt, atEnd, headerNo, constructs⟩
    have outer₁ : w₁.Stores attr1.relName lf chain := by
      refine ⟨?_, outer.formed⟩
      rw [constructs.logical]
      exact outer.logical
    dsimp only
    rw [if_neg (not_not.mpr rfl)]
    apply smoothly_bind
    · intro ends
      repeat' first
        | exact keeps_pure _ | exact keeps_crash | exact keeps_read _
        | exact InsertFileScan.delete_keeps _ | exact HeapFileScan.delete_keeps _
        | exact outer_loop_keeps _ _ _ _ _ _ _ _ _
        | apply keeps_bind | intro _ | split
    · apply (insertsAt.open_scan atEnd headerNo.symm outer₁ named mem).mono
      rintro ends w₂ ⟨outerScan, rfl, emits, logical₂, names₂, _⟩
      have started := emits.start none
      have inner₂ : w₂.Stores innerRel lfInner innerChain := by
        refine ⟨?_, inner.formed⟩
        rw [logical₂, constructs.logical]
        exact inner.logical
      have enough : (lf.rids chain).length < lf.size * 40000 * (lfInner.size * 40000 + 1) :=
        Nat.lt_of_lt_of_le outer.formed.rids_lt (Nat.le_mul_of_pos_right _ (Nat.succ_pos _))
      dsimp only
      rw [start_all]
      dsimp only
      rw [if_neg (not_not.mpr rfl)]
      rw [name2]
      apply smoothly_bind_eq (started.scanAt.join_fuel inner₂)
      apply smoothly_bind
      · intro ends
        repeat' first
          | exact keeps_pure _ | exact InsertFileScan.delete_keeps _
          | exact HeapFileScan.delete_keeps _
          | apply keeps_bind | intro _
      · apply (started.outer_loop _ rfl owned different inner₂ innerNamed innerDifferent name2
          proper mem tmpRid enough projects).mono
        rintro ⟨status, outerScan', resultRel'⟩ w₃
          ⟨rfl, out', outChain', emits', _, changed, names₃, appended⟩
        obtain ⟨w₄, deleted, insertsAt', logical₄, names₄⟩ := emits'.delete_scan owned
        obtain ⟨w₅, deleted', storage₅, logical₅, names₅, _⟩ := insertsAt'.delete owned
        dsimp only
        apply smoothly_bind_eq deleted
        apply smoothly_bind_eq deleted'
        apply smoothly_pure
        have changed₅ : w₅.logical = Function.update w.logical result (some out') := by
          rw [logical₅, logical₄, changed, logical₂, constructs.logical]
        refine ⟨rfl, storage₅, ?_, out', outChain', changed₅, ⟨?_, ?_⟩, ?_⟩
        · intro file member
          rw [names₅ file member, names₄ file (List.mem_cons_of_mem _ member), names₃ file member,
            names₂ file (List.mem_cons_of_mem _ member), constructs.names file member]
        · rw [changed₅, Function.update_self]
        · have formed := emits'.insertsAt.formed
          rw [← emits'.first] at formed
          exact formed
        · rw [← headerNo]
          exact appended

structure JoinAttrs (tuples : List Record) (relation innerRel : FileName)
    (attr1 attr2 : AttrInfo) (desc1 desc2 : AttrDesc) : Prop where
  relName1 : attr1.relName = relation
  relName2 : attr2.relName = innerRel
  attrName1 : attr1.attrName ≠ []
  attrName2 : attr2.attrName ≠ []
  /-- The statement says nothing about types, so there is no mismatch. -/
  attrType : attr1.attrType = attr2.attrType
  attrLen : attr1.attrLen = attr2.attrLen
  found1 : AttrCatalog.lookup tuples relation attr1.attrName = some desc1
  found2 : AttrCatalog.lookup tuples innerRel attr2.attrName = some desc2

/-- An attribute of the projection list of a join, with the tuple it comes from. -/
theorem join_side_fits {tuples : List Record} {relation innerRel : FileName} {w : World}
    {lf lfInner : LogicalFile} {chain innerChain : List Int}
    (outer : Relation w tuples relation lf chain)
    (inner : Relation w tuples innerRel lfInner innerChain) {attr1 desc : AttrDesc}
    (name1 : attr1.relName = relation)
    (described : desc ∈ AttrCatalog.describe tuples relation ∨
      desc ∈ AttrCatalog.describe tuples innerRel) {outerRec innerRec : Record}
    (outerListed : outerRec ∈ lf.tuples chain) (innerListed : innerRec ∈ lfInner.tuples innerChain) :
    desc.Fits (joinSide attr1 outerRec innerRec desc) ∧ 1 ≤ desc.attrLen := by
  have positive : 1 ≤ desc.attrLen := by
    rcases described with member | member
    · obtain ⟨_, proper⟩ := outer.schema desc member
      exact proper.positive
    · obtain ⟨_, proper⟩ := inner.schema desc member
      exact proper.positive
  refine ⟨?_, positive⟩
  unfold joinSide
  split
  · rename_i same
    rcases described with member | member
    · exact outer.conforms outerRec outerListed desc member
    · -- the attribute is described under the name of the outer relation
      have here : innerRel = relation :=
        (AttrCatalog.describe_rel_name member).symm.trans (same.trans name1)
      rw [here] at member
      exact outer.conforms outerRec outerListed desc member
  · rename_i other
    rcases described with member | member
    · exact absurd ((AttrCatalog.describe_rel_name member).trans name1.symm) other
    · exact inner.conforms innerRec innerListed desc member

theorem join_projects {tuples : List Record} {relation innerRel : FileName} {w : World}
    {lf lfInner : LogicalFile} {chain innerChain : List Int}
    (outer : Relation w tuples relation lf chain)
    (inner : Relation w tuples innerRel lfInner innerChain) {attr1 : AttrDesc}
    (name1 : attr1.relName = relation) {attrs : List AttrDesc} (nonempty : attrs ≠ [])
    (described : ∀ desc ∈ attrs, desc ∈ AttrCatalog.describe tuples relation ∨
      desc ∈ AttrCatalog.describe tuples innerRel)
    (width : (attrs.map AttrDesc.attrLen).sum + SLOTSIZE ≤ DATASIZE) {outerRec innerRec : Record}
    (outerListed : outerRec ∈ lf.tuples chain) (innerListed : innerRec ∈ lfInner.tuples innerChain) :
    Projects attrs (joinSide attr1 outerRec innerRec) := by
  have each := fun desc member =>
    join_side_fits outer inner name1 (described desc member) outerListed innerListed
  have fits : ∀ desc ∈ attrs, desc.Fits (joinSide attr1 outerRec innerRec desc) :=
    fun desc member => (each desc member).1
  have length := projected_length fits
  have same := attr_len_sum attrs fun desc member => (fits desc member).2.1
  refine ⟨fits, ?_, ?_⟩
  · rw [length]
    cases attrs with
    | nil => exact absurd rfl nonempty
    | cons desc attrs =>
        have positive := (each desc (by simp)).2
        simp only [List.map_cons, List.sum_cons]
        omega
  · rw [length]
    omega

theorem resolved_described_either {tuples : List Record} {relation innerRel : FileName}
    {attrs : List AttrInfo} {descs : List AttrDesc}
    (resolves : AttrCatalog.Resolves tuples attrs descs)
    (own : ∀ info ∈ attrs, info.relName = relation ∨ info.relName = innerRel) :
    ∀ desc ∈ descs, desc ∈ AttrCatalog.describe tuples relation ∨
      desc ∈ AttrCatalog.describe tuples innerRel := by
  induction resolves with
  | nil => simp
  | @cons info desc attrs descs found _ ih =>
      intro other member
      rcases List.mem_cons.mp member with rfl | later
      · have member := AttrCatalog.lookup_mem found.2.2
        rcases own info (by simp) with here | here
        · rw [here] at member
          exact .inl member
        · rw [here] at member
          exact .inr member
      · exact ih (fun info listed => own info (by simp [listed])) other later

section Statement

variable {w : World} {pins : List Pin} {opens : List FilePtr} {cat : LogicalFile}
  {catChain : List Int} {relation innerRel result : FileName} {lf lfInner out : LogicalFile}
  {chain innerChain outChain : List Int} {projNames : List AttrInfo} {descs : List AttrDesc}
  {attr1 attr2 : AttrInfo} {desc1 desc2 : AttrDesc} {type : Datatype} {op : Operator}

/-- `QU_NL_Join` in terms of what `matchRec` and the side selection do. The two
relations may be the same. -/
theorem World.Storage.nested_loops_join (storage : w.Storage pins opens)
    (owned : ∀ pin ∈ pins, pin.file ∈ opens) (catalog : w.Stores ATTRCATNAME cat catChain)
    (sized : ∀ rec ∈ cat.tuples catChain, rec.length = AttrDesc.size)
    (outer : Relation w (cat.tuples catChain) relation lf chain)
    (inner : Relation w (cat.tuples catChain) innerRel lfInner innerChain)
    (target : w.Stores result out outChain) (resultNamed : result ≠ [])
    (different : relation ≠ result) (innerDifferent : innerRel ≠ result) (nonempty : projNames ≠ [])
    (own : ∀ info ∈ projNames, info.relName = relation ∨ info.relName = innerRel)
    (resolves : AttrCatalog.Resolves (cat.tuples catChain) projNames descs)
    (width : (descs.map AttrDesc.attrLen).sum + SLOTSIZE ≤ DATASIZE)
    (joined : JoinAttrs (cat.tuples catChain) relation innerRel attr1 attr2 desc1 desc2)
    (code : Datatype.ofCode desc2.attrType = some type) (mem : Uninit) (tmpRid : RID) :
    Smoothly (QU_NL_Join mem tmpRid result projNames attr1 op attr2) w fun status w' =>
      status = .OK ∧ w'.Storage pins opens ∧
        ∃ out' outChain', w'.logical = Function.update w.logical result (some out') ∧
          w'.Stores result out' outChain' ∧
          out.Appended out' out.firstPage outChain outChain'
            (joinOutput descs desc1 desc2 type op (lf.tuples chain)
              (lfInner.tuples innerChain)) := by
  have described := resolved_described_either resolves own
  have described1 := AttrCatalog.lookup_mem joined.found1
  have described2 := AttrCatalog.lookup_mem joined.found2
  have name1 := AttrCatalog.describe_rel_name described1
  have name2 := AttrCatalog.describe_rel_name described2
  have proper : desc2.Proper type := by
    obtain ⟨type', proper⟩ := inner.schema desc2 described2
    have same : type' = type := Option.some.inj (proper.code.symm.trans code)
    exact same ▸ proper
  have some_ : descs ≠ [] := by
    rintro rfl
    cases resolves
    exact nonempty rfl
  unfold QU_NL_Join
  rw [if_neg]
  · apply smoothly_bind
    · intro found
      repeat' first
        | exact keeps_pure _ | exact get_info_keeps _ _ _ _ | exact join_scans_keeps _ _ _ _ _ _ _
        | apply keeps_bind | intro _ | split
    · apply (storage.look_up_attrs owned catalog sized resolves mem tmpRid).mono
      rintro found w₁ ⟨undisturbed₁, rfl⟩
      have catalog₁ := undisturbed₁.stores catalog
      apply smoothly_bind
      · intro found
        repeat' first
          | exact keeps_pure _ | exact get_info_keeps _ _ _ _
          | exact join_scans_keeps _ _ _ _ _ _ _
          | apply keeps_bind | intro _ | split
      · rw [joined.relName1]
        apply (undisturbed₁.storage.attr_found owned catalog₁ sized outer.name joined.attrName1
          joined.found1 mem tmpRid).mono
        rintro found w₂ ⟨undisturbed₂, rfl⟩
        apply smoothly_bind
        · intro found
          repeat' first
            | exact keeps_pure _ | exact join_scans_keeps _ _ _ _ _ _ _ | split
        · rw [joined.relName2]
          apply (undisturbed₂.storage.attr_found owned (undisturbed₂.stores catalog₁) sized
            inner.name joined.attrName2 joined.found2 mem tmpRid).mono
          rintro found w₃ ⟨undisturbed₃, rfl⟩
          have undisturbed := (undisturbed₁.trans undisturbed₂).trans undisturbed₃
          apply (undisturbed.storage.join_scans owned (undisturbed.stores outer.toStores)
            (undisturbed.stores inner.toStores) (undisturbed.stores target) different
            innerDifferent outer.name.nonempty inner.name.nonempty resultNamed mem tmpRid name1
            name2 proper fun outerRec outerListed rec listed => join_projects outer inner name1
              some_ described width outerListed (List.mem_of_mem_filter listed)).mono
          rintro status w₄ ⟨ok, storage₄, _, out', outChain', changed, stores', appended⟩
          rw [undisturbed.logical] at changed
          exact ⟨ok, storage₄, out', outChain', changed, stores', appended⟩
  · rintro (wrong | wrong)
    · exact wrong joined.attrType
    · exact wrong joined.attrLen

/-- The join of two relations on `outer.a op inner.b`, in the order of the outer
relation: each projected attribute is taken from the tuple of its relation. -/
def relationalJoin (relation : FileName) (descs : List AttrDesc) (desc1 desc2 : AttrDesc)
    (type : Datatype) (op : Operator) (outer inner : List Record) : List Record :=
  outer.flatMap fun outerRec =>
    (inner.filter fun innerRec =>
      AttrHolds type op (desc1.bytes outerRec) (desc2.bytes innerRec)).map fun innerRec =>
        projected (fun desc => if desc.relName = relation then outerRec else innerRec) descs

theorem join_output_eq {outerRecs innerRecs : List Record} (proper : desc2.Proper type)
    (alike : desc1.attrLen = desc2.attrLen) (name1 : desc1.relName = relation)
    (fits1 : ∀ rec ∈ outerRecs, desc1.Fits rec) (fits2 : ∀ rec ∈ innerRecs, desc2.Fits rec)
    (differences : ∀ outerRec ∈ outerRecs, ∀ innerRec ∈ innerRecs,
      DifferenceFits type (desc1.bytes outerRec) (desc2.bytes innerRec)) :
    joinOutput descs desc1 desc2 type op outerRecs innerRecs =
      relationalJoin relation descs desc1 desc2 type op outerRecs innerRecs := by
  unfold joinOutput relationalJoin queryOutput
  apply List.flatMap_congr
  intro outerRec outerListed
  have matching : innerRecs.filter (matchRec (some (joinFilter desc1 desc2 type op outerRec))) =
      innerRecs.filter fun innerRec =>
        AttrHolds type op (desc1.bytes outerRec) (desc2.bytes innerRec) := by
    apply List.filter_congr
    intro innerRec innerListed
    rw [Bool.eq_iff_iff, match_join_iff proper alike (fits1 outerRec outerListed)
      (fits2 innerRec innerListed) op (differences outerRec outerListed innerRec innerListed)]
    exact decide_eq_true_iff.symm
  rw [matching]
  apply List.map_congr_left
  intro innerRec _
  unfold joinSide
  rw [name1]

/-- `QU_NL_Join` of two relations on attributes of one type and length. -/
theorem nested_loops_join_is_relational (storage : w.Storage pins opens)
    (owned : ∀ pin ∈ pins, pin.file ∈ opens) (catalog : w.Stores ATTRCATNAME cat catChain)
    (sized : ∀ rec ∈ cat.tuples catChain, rec.length = AttrDesc.size)
    (outer : Relation w (cat.tuples catChain) relation lf chain)
    (inner : Relation w (cat.tuples catChain) innerRel lfInner innerChain)
    (target : w.Stores result out outChain) (resultNamed : result ≠ [])
    (different : relation ≠ result) (innerDifferent : innerRel ≠ result) (nonempty : projNames ≠ [])
    (own : ∀ info ∈ projNames, info.relName = relation ∨ info.relName = innerRel)
    (resolves : AttrCatalog.Resolves (cat.tuples catChain) projNames descs)
    (width : (descs.map AttrDesc.attrLen).sum + SLOTSIZE ≤ DATASIZE)
    (joined : JoinAttrs (cat.tuples catChain) relation innerRel attr1 attr2 desc1 desc2)
    (code : Datatype.ofCode desc2.attrType = some type)
    (alike : desc1.attrLen = desc2.attrLen)
    (differences : ∀ outerRec ∈ lf.tuples chain, ∀ innerRec ∈ lfInner.tuples innerChain,
      DifferenceFits type (desc1.bytes outerRec) (desc2.bytes innerRec))
    (mem : Uninit) (tmpRid : RID)
    (succeeds : (QU_NL_Join mem tmpRid result projNames attr1 op attr2 w).2.bufFailed = false) :
    ∃ w' out' outChain',
      QU_NL_Join mem tmpRid result projNames attr1 op attr2 w = (.ok .OK, w') ∧
      w'.Storage pins opens ∧ w'.logical = Function.update w.logical result (some out') ∧
      w'.logical relation = some lf ∧ w'.logical innerRel = some lfInner ∧
      w'.Stores result out' outChain' ∧
      out.Appended out' out.firstPage outChain outChain'
        (relationalJoin relation descs desc1 desc2 type op (lf.tuples chain)
          (lfInner.tuples innerChain)) ∧
      (out.tuples outChain = [] → out'.tuples outChain' =
        relationalJoin relation descs desc1 desc2 type op (lf.tuples chain)
          (lfInner.tuples innerChain)) := by
  have described1 := AttrCatalog.lookup_mem joined.found1
  have described2 := AttrCatalog.lookup_mem joined.found2
  have proper : desc2.Proper type := by
    obtain ⟨type', proper⟩ := inner.schema desc2 described2
    have same : type' = type := Option.some.inj (proper.code.symm.trans code)
    exact same ▸ proper
  have output : joinOutput descs desc1 desc2 type op (lf.tuples chain)
      (lfInner.tuples innerChain) = relationalJoin relation descs desc1 desc2 type op
        (lf.tuples chain) (lfInner.tuples innerChain) :=
    join_output_eq proper alike (AttrCatalog.describe_rel_name described1)
    (fun rec listed => outer.conforms rec listed desc1 described1)
    (fun rec listed => inner.conforms rec listed desc2 described2) differences
  obtain ⟨status, w', run, rfl, storage', out', outChain', changed, stores', appended⟩ :=
    storage.nested_loops_join owned catalog sized outer inner target resultNamed different
      innerDifferent nonempty own resolves width joined code mem tmpRid succeeds
  rw [output] at appended
  refine ⟨w', out', outChain', run, storage', changed, ?_, ?_, stores', appended, ?_⟩
  · rw [changed, Function.update_of_ne different]
    exact outer.logical
  · rw [changed, Function.update_of_ne innerDifferent]
    exact inner.logical
  · intro empty
    have listed := (appended.ordered (target.formed.packed_of_empty empty)).2
    rw [empty, List.nil_append] at listed
    exact listed

end Statement

open HeapSession (zeroMemory)

theorem sample_relation_s :
    Relation sampleStart sampleDescs [115] (tableFile [115] sampleS) [2] :=
  sample_relation rfl (by decide) ⟨by decide, by decide, by decide⟩ (by decide +kernel)
    (by decide +kernel) (by decide +kernel)

theorem sample_join_attrs :
    JoinAttrs sampleDescs [114] [115] (.named [114] [97]) (.named [115] [97]) attrRA attrSA where
  relName1 := rfl
  relName2 := rfl
  attrName1 := by decide
  attrName2 := by decide
  attrType := rfl
  attrLen := rfl
  found1 := by decide +kernel
  found2 := by decide +kernel

/-- `select s.c, r.b into q from r, s where r.a >= s.a`. -/
theorem nested_loops_join_is_relational_five_pairs : ∃ w' out' outChain',
    QU_NL_Join zeroMemory NULLRID [113] [.named [115] [99], .named [114] [98]]
      (.named [114] [97]) .GTE (.named [115] [97]) sampleStart = (.ok .OK, w') ∧
    w'.Stores [113] out' outChain' ∧
    out'.tuples outChain' = [[119, 0, 0, 120, 0], [117, 118, 0, 121, 0], [119, 0, 0, 121, 0],
      [117, 118, 0, 122, 0], [119, 0, 0, 122, 0]] := by
  have properR : ProperName [114] := ⟨by decide, by decide, by decide⟩
  have properS : ProperName [115] := ⟨by decide, by decide, by decide⟩
  have resolves : AttrCatalog.Resolves sampleDescs [.named [115] [99], .named [114] [98]]
      [attrSC, attrRB] := by
    refine .cons ⟨properS, by decide, ?_⟩ (.cons ⟨properR, by decide, ?_⟩ .nil)
    · decide +kernel
    · decide +kernel
  have succeeds : (QU_NL_Join zeroMemory NULLRID [113] [.named [115] [99], .named [114] [98]]
      (.named [114] [97]) .GTE (.named [115] [97]) sampleStart).2.bufFailed = false := by
    decide +kernel
  obtain ⟨w', out', outChain', run, _, _, _, _, stores, _, listed⟩ :=
    nested_loops_join_is_relational sample_start_storage (by simp) sample_start_catalog
      (by decide +kernel) sample_relation_r sample_relation_s sample_result_stored (by decide)
      (by decide) (by decide) (by decide) (by decide) resolves (by decide) sample_join_attrs rfl
      rfl (by decide +kernel) zeroMemory NULLRID succeeds
  refine ⟨w', out', outChain', run, stores, ?_⟩
  rw [listed (by decide +kernel)]
  decide +kernel

end PrimitiveDB

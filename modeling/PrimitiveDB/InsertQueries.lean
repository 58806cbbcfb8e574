import PrimitiveDB.TupleWidths
import PrimitiveDB.JoinQueries

/-!
# `QU_Insert`

The values of a statement are matched with the attributes of the relation by their names
and copied to the places that the catalog gives. The checks compare the number of the
names with that of the attributes and look up every name, but no name is checked to occur
only once: where one does, another attribute keeps what was on the stack.
-/

namespace PrimitiveDB

open World DbM ByteMemory

set_option autoImplicit false

def AttrDesc.Apart (left right : AttrDesc) : Prop :=
  left.attrOffset + left.attrLen ≤ right.attrOffset ∨
    right.attrOffset + right.attrLen ≤ left.attrOffset

/-- The attributes of a relation as `createRel` lays them out: each under a name of its own
and in bytes of its own. -/
structure Schema (descs : List AttrDesc) : Prop where
  proper : ∀ desc ∈ descs, ∃ type, desc.Proper type
  names : (descs.map AttrDesc.attrName).Nodup
  apart : descs.Pairwise AttrDesc.Apart
  inside : ∀ desc ∈ descs, desc.attrOffset + desc.attrLen ≤ (descs.map AttrDesc.attrLen).sum

namespace RelCatalog

theorem attr_descs_lengths (relation : FileName) (offset : Int) (attrs : List AttrInfo) :
    (attrDescs relation offset attrs).map AttrDesc.attrLen = attrs.map AttrInfo.attrLen := by
  induction attrs generalizing offset with
  | nil => rfl
  | cons attr attrs ih => rw [attrDescs, List.map_cons, ih, List.map_cons]

theorem attr_descs_names (relation : FileName) (offset : Int) (attrs : List AttrInfo) :
    (attrDescs relation offset attrs).map AttrDesc.attrName =
      attrs.map fun attr => cString attr.attrName := by
  induction attrs generalizing offset with
  | nil => rfl
  | cons attr attrs ih => rw [attrDescs, List.map_cons, ih, List.map_cons]

theorem width_nonneg {attrs : List AttrInfo} (lengths : ∀ attr ∈ attrs, 1 ≤ attr.attrLen) :
    0 ≤ width attrs := by
  apply List.sum_nonneg
  intro length member
  obtain ⟨attr, listed, rfl⟩ := List.mem_map.mp member
  exact (by decide : (0 : Int) ≤ 1).trans (lengths attr listed)

/-- The attributes from `offset` on lie between `offset` and the end of the tuple. -/
theorem attr_descs_bounds {relation : FileName} {offset : Int} {attrs : List AttrInfo}
    (lengths : ∀ attr ∈ attrs, 1 ≤ attr.attrLen) :
    ∀ desc ∈ attrDescs relation offset attrs, offset ≤ desc.attrOffset ∧
      desc.attrOffset + desc.attrLen ≤ offset + width attrs := by
  induction attrs generalizing offset with
  | nil => simp [attrDescs]
  | cons attr attrs ih =>
      have positive := lengths attr (by simp)
      have laterLengths : ∀ other ∈ attrs, 1 ≤ other.attrLen :=
        fun other member => lengths other (by simp [member])
      have rest := width_nonneg laterLengths
      have total : width (attr :: attrs) = attr.attrLen + width attrs := by
        simp [width]
      intro desc member
      rcases List.mem_cons.mp member with rfl | later
      · constructor <;> dsimp only <;> omega
      · have bounds := ih laterLengths desc later
        omega

theorem attr_descs_apart {relation : FileName} {offset : Int} {attrs : List AttrInfo}
    (lengths : ∀ attr ∈ attrs, 1 ≤ attr.attrLen) :
    (attrDescs relation offset attrs).Pairwise AttrDesc.Apart := by
  induction attrs generalizing offset with
  | nil => exact .nil
  | cons attr attrs ih =>
      have laterLengths : ∀ other ∈ attrs, 1 ≤ other.attrLen :=
        fun other member => lengths other (by simp [member])
      apply List.Pairwise.cons
      · intro desc member
        exact .inl (attr_descs_bounds laterLengths desc member).1
      · exact ih laterLengths

/-- What `createRel` writes into `attrcat` for attributes of the three types. -/
theorem attr_descs_schema {relTuples : List Record} {relation : FileName}
    {attrs : List AttrInfo} (accepted : refusal relTuples relation attrs = none)
    (lengths : ∀ attr ∈ attrs, 1 ≤ attr.attrLen)
    (types : ∀ attr ∈ attrs, ∃ type, Datatype.ofCode attr.attrType = some type ∧
      (type ≠ .STRING → attr.attrLen = 4)) :
    Schema (attrDescs relation 0 attrs) where
  proper := by
    intro desc member
    have bounds := attr_descs_bounds lengths desc member
    have typed : ∀ offset, ∀ desc ∈ attrDescs relation offset attrs, ∃ attr ∈ attrs,
        desc.attrType = attr.attrType ∧ desc.attrLen = attr.attrLen := by
      clear accepted lengths types bounds member desc
      induction attrs with
      | nil => simp [attrDescs]
      | cons attr attrs ih =>
          intro offset desc member
          rcases List.mem_cons.mp member with rfl | later
          · exact ⟨attr, by simp, rfl, rfl⟩
          · obtain ⟨other, listed, same⟩ := ih _ desc later
            exact ⟨other, by simp [listed], same⟩
    obtain ⟨attr, listed, sameType, sameLen⟩ := typed 0 desc member
    obtain ⟨type, code, word⟩ := types attr listed
    refine ⟨type, by rw [sameType, code], bounds.1, ?_, ?_⟩
    · rw [sameLen]
      exact lengths attr listed
    · rw [sameLen]
      exact word
  names := by
    rw [attr_descs_names]
    exact (refusal_none accepted).2.2.2.1
  apart := attr_descs_apart lengths
  inside := by
    intro desc member
    have bounds := (attr_descs_bounds lengths desc member).2
    rw [attr_descs_lengths]
    unfold width at bounds
    omega

end RelCatalog

def AttrDesc.given (desc : AttrDesc) (behind : Memory) (text : List Byte) : List Byte :=
  readBytes (convertValue desc.attrType text (valueMemory behind text)) 0 desc.attrLen.toNat

def placeValue (descs : List AttrDesc) (data : Memory) (entry : AttrInfo × Memory) : Memory :=
  match entry.1.attrValue, infoMap descs (cString entry.1.attrName) with
  | some text, some desc => writeBytes data desc.attrOffset.toNat (desc.given entry.2 text)
  | _, _ => data

/-- Every name comes with a value and is that of an attribute: what the loop checks. -/
def Known (descs : List AttrDesc) (attrs : List AttrInfo) : Prop :=
  ∀ attr ∈ attrs, attr.attrValue.isSome ∧
    cString attr.attrName ∈ descs.map AttrDesc.attrName

instance (descs : List AttrDesc) (attrs : List AttrInfo) : Decidable (Known descs attrs) :=
  inferInstanceAs (Decidable (∀ attr ∈ attrs, _ ∧ _))

section Places

variable {descs : List AttrDesc} {desc : AttrDesc} {name : List Byte}

theorem info_map_mem (found : infoMap descs name = some desc) :
    desc ∈ descs ∧ desc.attrName = name := by
  unfold infoMap at found
  have member := List.mem_of_find?_eq_some found
  have named := List.find?_some found
  exact ⟨List.mem_reverse.mp member, by simpa using named⟩

theorem info_map_known (known : name ∈ descs.map AttrDesc.attrName) :
    ∃ desc, infoMap descs name = some desc := by
  obtain ⟨desc, listed, named⟩ := List.mem_map.mp known
  apply Option.isSome_iff_exists.mp
  unfold infoMap
  rw [List.find?_isSome]
  exact ⟨desc, List.mem_reverse.mpr listed, by simpa using named⟩

theorem Schema.unique (schema : Schema descs) {other : AttrDesc} (listed : desc ∈ descs)
    (otherListed : other ∈ descs) (same : desc.attrName = other.attrName) : desc = other :=
  List.inj_on_of_nodup_map schema.names listed otherListed same

theorem Schema.lookup_listed {catalog : List Record} {relation : FileName}
    (schema : Schema (AttrCatalog.describe catalog relation))
    (listed : desc ∈ AttrCatalog.describe catalog relation) :
    AttrCatalog.lookup catalog relation desc.attrName = some desc := by
  unfold AttrCatalog.lookup
  cases found : (AttrCatalog.describe catalog relation).find?
      fun attr => attr.attrName = desc.attrName with
  | none =>
      have missing := List.find?_eq_none.mp found desc listed
      simp at missing
  | some other =>
      have member := List.mem_of_find?_eq_some found
      have named := List.find?_some found
      rw [schema.unique member listed (by simpa using named)]

theorem Schema.perm {descs' : List AttrDesc} (schema : Schema descs) (perm : descs'.Perm descs) :
    Schema descs' where
  proper := fun desc member => schema.proper desc (perm.mem_iff.mp member)
  names := ((perm.map AttrDesc.attrName).nodup_iff).mpr schema.names
  apart := (perm.pairwise_iff fun apart => Or.symm apart).mpr schema.apart
  inside := by
    intro desc member
    rw [(perm.map AttrDesc.attrLen).sum_eq]
    exact schema.inside desc (perm.mem_iff.mp member)

theorem Schema.info_map_eq (schema : Schema descs) (listed : desc ∈ descs) :
    infoMap descs desc.attrName = some desc := by
  obtain ⟨other, found⟩ := info_map_known (List.mem_map_of_mem (f := AttrDesc.attrName) listed)
  obtain ⟨otherListed, same⟩ := info_map_mem found
  rw [found, schema.unique otherListed listed same]

theorem Schema.apart_of_ne (schema : Schema descs) {other : AttrDesc} (listed : desc ∈ descs)
    (otherListed : other ∈ descs) (different : desc ≠ other) : desc.Apart other := by
  have symmetric : Std.Symm AttrDesc.Apart := ⟨fun _ _ => Or.symm⟩
  exact schema.apart.forall listed otherListed different

/-- The loop, when it runs: all values are placed, or a check fails. -/
theorem place_values_eq (schema : Schema descs) (given : List (AttrInfo × Memory)) (data : Memory)
    (w : World) :
    placeValues descs (descs.map AttrDesc.attrLen).sum data given w =
      (.ok (if Known descs (given.map Prod.fst) then .ok (given.foldl (placeValue descs) data)
        else .error .BADCATPARM), w) := by
  induction given generalizing data with
  | nil => rfl
  | cons entry given ih =>
      obtain ⟨attr, behind⟩ := entry
      have split : Known descs (((attr, behind) :: given).map Prod.fst) ↔
          (attr.attrValue.isSome ∧ cString attr.attrName ∈ descs.map AttrDesc.attrName) ∧
            Known descs (given.map Prod.fst) := List.forall_mem_cons
      rw [placeValues]
      cases value : attr.attrValue with
      | none =>
          rw [if_neg]
          · rfl
          · rw [split, value]
            simp
      | some text =>
          dsimp only
          cases found : infoMap descs (cString attr.attrName) with
          | none =>
              rw [if_neg]
              · rfl
              · rw [split]
                rintro ⟨⟨_, named⟩, _⟩
                obtain ⟨desc, wrong⟩ := info_map_known named
                rw [found] at wrong
                cases wrong
          | some desc =>
              obtain ⟨listed, named⟩ := info_map_mem found
              obtain ⟨type, proper⟩ := schema.proper desc listed
              have positive := proper.positive
              dsimp only
              rw [if_pos ⟨proper.offset, by omega, schema.inside desc listed⟩, ih]
              have here : attr.attrValue.isSome ∧
                  cString attr.attrName ∈ descs.map AttrDesc.attrName :=
                ⟨by rw [value]; rfl, List.mem_map.mpr ⟨desc, listed, named⟩⟩
              have placed : placeValue descs data (attr, behind) =
                  writeBytes data desc.attrOffset.toNat (desc.given behind text) := by
                simp only [placeValue, value, found]
              rw [List.foldl_cons, placed]
              simp only [split, here, true_and]
              rfl

/-- What `data` has in the place of an attribute. -/
def AttrDesc.inMemory (desc : AttrDesc) (data : Memory) : List Byte :=
  readBytes data desc.attrOffset.toNat desc.attrLen.toNat

theorem place_value_here (schema : Schema descs) (listed : desc ∈ descs)
    {entry : AttrInfo × Memory} {text : List Byte} (named : cString entry.1.attrName = desc.attrName)
    (value : entry.1.attrValue = some text) (data : Memory) :
    desc.inMemory (placeValue descs data entry) = desc.given entry.2 text := by
  have found : infoMap descs (cString entry.1.attrName) = some desc := by
    rw [named]
    exact schema.info_map_eq listed
  have length : (desc.given entry.2 text).length = desc.attrLen.toNat := read_bytes_length _ _ _
  simp only [placeValue, value, found, AttrDesc.inMemory]
  rw [← length]
  exact read_bytes_write_same _ _ _

theorem place_value_elsewhere (schema : Schema descs) (listed : desc ∈ descs)
    {entry : AttrInfo × Memory} (other : cString entry.1.attrName ≠ desc.attrName)
    (data : Memory) : desc.inMemory (placeValue descs data entry) = desc.inMemory data := by
  unfold placeValue
  split
  · rename_i text found value looked
    obtain ⟨foundListed, foundNamed⟩ := info_map_mem looked
    have different : desc ≠ found := by
      rintro rfl
      exact other foundNamed.symm
    have apart := schema.apart_of_ne listed foundListed different
    obtain ⟨_, proper⟩ := schema.proper desc listed
    obtain ⟨_, foundProper⟩ := schema.proper found foundListed
    have bounds := And.intro proper.offset foundProper.offset
    have lengths := And.intro proper.positive foundProper.positive
    have size : (found.given entry.2 text).length = found.attrLen.toNat := read_bytes_length _ _ _
    apply read_bytes_congr
    intro index inside
    apply write_bytes_outside
    unfold AttrDesc.Apart at apart
    omega
  · rfl

theorem placed_elsewhere (schema : Schema descs) (listed : desc ∈ descs)
    {given : List (AttrInfo × Memory)}
    (others : ∀ entry ∈ given, cString entry.1.attrName ≠ desc.attrName) (data : Memory) :
    desc.inMemory (given.foldl (placeValue descs) data) = desc.inMemory data := by
  induction given generalizing data with
  | nil => rfl
  | cons entry given ih =>
      rw [List.foldl_cons, ih fun later member => others later (by simp [member])]
      exact place_value_elsewhere schema listed (others entry (by simp)) data

/-- Where no name occurs twice, every attribute that is named has its value in the end. -/
theorem placed_value (schema : Schema descs) (listed : desc ∈ descs)
    {given : List (AttrInfo × Memory)}
    (once : (given.map fun entry => cString entry.1.attrName).Nodup)
    {entry : AttrInfo × Memory} (member : entry ∈ given)
    (named : cString entry.1.attrName = desc.attrName) {text : List Byte}
    (value : entry.1.attrValue = some text) (data : Memory) :
    desc.inMemory (given.foldl (placeValue descs) data) = desc.given entry.2 text := by
  induction given generalizing data with
  | nil => cases member
  | cons first given ih =>
      rw [List.map_cons, List.nodup_cons] at once
      rw [List.foldl_cons]
      rcases List.mem_cons.mp member with rfl | later
      · rw [placed_elsewhere schema listed]
        · exact place_value_here schema listed named value data
        · intro other otherMember same
          apply once.1
          rw [named, ← same]
          exact List.mem_map_of_mem (f := fun entry => cString entry.1.attrName) otherMember
      · exact ih once.2 later _

theorem Schema.bytes_record (schema : Schema descs) (listed : desc ∈ descs) (data : Memory) :
    desc.bytes (readBytes data 0 (descs.map AttrDesc.attrLen).sum.toNat) = desc.inMemory data := by
  obtain ⟨_, proper⟩ := schema.proper desc listed
  have inside := schema.inside desc listed
  have bounds := And.intro proper.offset proper.positive
  unfold AttrDesc.bytes AttrDesc.inMemory readBytes
  apply List.ext_getElem
  · simp only [List.length_take, List.length_drop, List.length_map, List.length_range]
    omega
  · intro index leftBound rightBound
    simp

end Places

/-- The bytes of an attribute show the value that a text stands for: the number, or the
string up to its terminator or the end of the attribute. -/
def AttrDesc.Shows (desc : AttrDesc) (text bytes : List Byte) : Prop :=
  match Datatype.ofCode desc.attrType with
  | some .INTEGER => intOf bytes = Literal.atoi text
  | some .FLOAT => bytes = Literal.atof text
  | some .STRING => cString bytes = (cString text).take desc.attrLen.toNat
  | none => True

def AttrDesc.SameField (desc : AttrDesc) (left right : List Byte) : Prop :=
  if desc.attrType = Datatype.STRING.code then cString left = cString right else left = right

theorem int_of_int_bytes (value : Int) : intOf (intBytes value) = toInt value := by
  have whole : value % 256 + 256 * (value / 256 % 256) + 65536 * (value / 65536 % 256) +
      16777216 * (value / 16777216 % 256) = value % 4294967296 := by omega
  have low := Int.emod_nonneg value (by decide : (256 : Int) ≠ 0)
  have second := Int.emod_nonneg (value / 256) (by decide : (256 : Int) ≠ 0)
  have third := Int.emod_nonneg (value / 65536) (by decide : (256 : Int) ≠ 0)
  have high := Int.emod_nonneg (value / 16777216) (by decide : (256 : Int) ≠ 0)
  have bytes : intOf (intBytes value) = toInt (value % 256 + 256 * (value / 256 % 256) +
      65536 * (value / 65536 % 256) + 16777216 * (value / 16777216 % 256)) := by
    simp only [intOf, readInt, ScanFilter.bytesAt, intBytes, Nat.zero_add, List.getD_cons_zero,
      List.getD_cons_succ, byteOf, Int.toNat_of_nonneg low, Int.toNat_of_nonneg second,
      Int.toNat_of_nonneg third, Int.toNat_of_nonneg high]
  rw [bytes, whole]
  exact Int.emod_bmod value 4294967296

theorem to_int_to_int (value : Int) : toInt (toInt value) = toInt value := by
  unfold toInt
  exact Int.bmod_bmod

theorem read_bytes_written (memory : Memory) (bytes : List Byte) (count : Nat) :
    readBytes (writeBytes memory 0 bytes) 0 count =
      (bytes ++ readBytes memory bytes.length count).take count := by
  apply List.ext_getElem
  · simp [readBytes]
  · intro index leftBound rightBound
    simp only [readBytes, List.length_map, List.length_range] at leftBound
    by_cases early : index < bytes.length
    · simp [readBytes, writeBytes, early]
    · have shifted : bytes.length + (index - bytes.length) = index := by omega
      simp [readBytes, writeBytes, early, List.getElem_append_right (Nat.le_of_not_lt early),
        shifted]

theorem c_string_terminated (text rest : List Byte) (count : Nat) :
    cString ((text ++ 0 :: rest).take count) = (cString text).take count := by
  induction text generalizing count with
  | nil => cases count <;> simp [cString]
  | cons byte text ih =>
      cases count with
      | zero => rfl
      | succ count =>
          rw [List.cons_append, List.take_succ_cons, c_string_cons, c_string_cons, ih]
          split
          · rfl
          · rw [List.take_succ_cons]

theorem number_given (value : Memory) {bytes : List Byte} {count : Nat}
    (length : bytes.length = count) : readBytes (writeBytes value 0 bytes) 0 count = bytes := by
  rw [← length]
  exact read_bytes_write_same _ _ _

theorem given_shows {desc : AttrDesc} {type : Datatype} (proper : desc.Proper type)
    (behind : Memory) (text : List Byte) : desc.Shows text (desc.given behind text) := by
  have code := proper.code
  unfold AttrDesc.Shows AttrDesc.given convertValue
  cases type with
  | INTEGER =>
      have word : (intBytes (Literal.atoi text)).length = desc.attrLen.toNat := by
        rw [proper.word (by decide)]
        rfl
      simp only [code, number_given _ word, int_of_int_bytes]
      exact to_int_to_int _
  | FLOAT =>
      have word : (Literal.atof text).length = desc.attrLen.toNat := by
        rw [proper.word (by decide)]
        rfl
      simp only [code, number_given _ word]
  | STRING =>
      simp only [code, valueMemory, read_bytes_written, List.append_assoc, List.singleton_append]
      exact c_string_terminated _ _ _

theorem given_same_field {desc : AttrDesc} {type : Datatype} (proper : desc.Proper type)
    (behind behind' : Memory) (text : List Byte) :
    desc.SameField (desc.given behind text) (desc.given behind' text) := by
  have left := given_shows proper behind text
  have right := given_shows proper behind' text
  have code := proper.code
  unfold AttrDesc.Shows at left right
  unfold AttrDesc.SameField
  split
  · rename_i string
    rw [string] at left right
    exact left.trans right.symm
  · rename_i notString
    cases type with
    | INTEGER =>
        have word : (intBytes (Literal.atoi text)).length = desc.attrLen.toNat := by
          rw [proper.word (by decide)]
          rfl
        simp only [AttrDesc.given, convertValue, code, number_given _ word]
    | FLOAT =>
        simp only [code] at left right
        exact left.trans right.symm
    | STRING =>
        exfalso
        apply notString
        unfold Datatype.ofCode at code
        split_ifs at code with zero
        · exact zero
        · cases code
        · cases code

/-- Exactly this tuple has been added to the relation, and no other file has changed. -/
def AddsTuple (w w' : World) (relation : FileName) (lf : LogicalFile) (chain : List Int)
    (rec : Record) : Prop :=
  ∃ lf' chain', w'.logical = Function.update w.logical relation (some lf') ∧
    w'.Stores relation lf' chain' ∧ lf.Appended lf' lf.firstPage chain chain' [rec]

def AddsNothing (w w' : World) (relation : FileName) (lf : LogicalFile) (chain : List Int) : Prop :=
  ∃ lf' chain', w'.logical = Function.update w.logical relation (some lf') ∧
    w'.Stores relation lf' chain' ∧ lf'.contents chain' = lf.contents chain

section Insertion

variable {w w₀ : World} {pins : List Pin} {opens : List FilePtr} {relation : FileName}
  {lf : LogicalFile} {chain : List Int} {rec : Record}

theorem World.Undisturbed.adds_nothing (undisturbed : Undisturbed w₀ w pins opens)
    (stores : w₀.Stores relation lf chain) : AddsNothing w₀ w relation lf chain := by
  refine ⟨lf, chain, ?_, undisturbed.stores stores, rfl⟩
  rw [undisturbed.logical, ← stores.logical, Function.update_eq_self]

/-- `insertRecord` reports with its status whether the record has been stored. -/
theorem World.InsertsAt.insert_stores {scan : InsertFileScan} {rest : List Pin}
    {others : List FilePtr} (insertsAt : w.InsertsAt scan rest others relation lf chain)
    (atEnd : InsertFileScan.AtEnd scan lf) (positive : 1 ≤ rec.length) :
    Smoothly (scan.insertRecord rec) w fun result w' =>
      ∃ lf' chain', w'.InsertsAt result.2 rest others relation lf' chain' ∧
        Touches w w' relation lf' ∧
        lf.Inserted lf' scan.headerPageNo scan.curPageNo result.2.curPageNo chain chain' rec
          result.1 ∧
        ((∃ rid, result.1 = .ok rid) ↔ rec.length ≤ 1000) ∧ result.1 ≠ .error .OK := by
  intro flag
  obtain ⟨result, w', run, accepts, honest, _⟩ := insertsAt.accepts_iff rec flag
  obtain ⟨_, _, run', lf', chain', insertsAt', _, _, touches, _, inserted⟩ :=
    insertsAt.insert_record positive (.inr atEnd) flag
  rw [run] at run'
  cases run'
  exact ⟨result, w', run, lf', chain', insertsAt', touches, inserted, accepts, honest⟩

theorem insert_once_keeps (mem : Uninit) (relation : FileName) (rec : Record) :
    KeepsFlag (withResult mem relation (insertOnce rec)) := by
  unfold withResult insertOnce
  repeat' first
    | exact keeps_pure _ | exact keeps_crash | exact InsertFileScan.new_keeps _ _
    | exact InsertFileScan.insert_record_keeps _ _ | exact InsertFileScan.delete_keeps _
    | apply keeps_bind | intro _ | split

theorem World.Storage.insert_tuple (storage : w.Storage pins opens)
    (owned : ∀ pin ∈ pins, pin.file ∈ opens) (stores : w.Stores relation lf chain)
    (named : relation ≠ []) (positive : 1 ≤ rec.length) (mem : Uninit) :
    Smoothly (withResult mem relation (insertOnce rec)) w fun status w' =>
      (status = .OK ↔ rec.length ≤ 1000) ∧ w'.Storage pins opens ∧
        (∀ file ∈ opens, w'.nameOf file = w.nameOf file) ∧
        (status = .OK → AddsTuple w w' relation lf chain rec) ∧
        (status ≠ .OK → AddsNothing w w' relation lf chain) := by
  unfold withResult insertOnce
  apply smoothly_bind
  · intro result
    repeat' first
      | exact keeps_pure _ | exact keeps_crash | exact InsertFileScan.insert_record_keeps _ _
      | exact InsertFileScan.delete_keeps _
      | apply keeps_bind | intro _ | split
  apply (storage.new_inserter stores.logical stores.formed named mem).mono
  rintro result w₁ ⟨insertFS, rfl, insertsAt, atEnd, headerNo, constructs⟩
  dsimp only
  rw [if_neg (not_not.mpr rfl)]
  apply smoothly_bind
  · intro result
    repeat' first
      | exact keeps_pure _ | exact InsertFileScan.delete_keeps _
      | apply keeps_bind | intro _ | split
  apply (insertsAt.insert_stores atEnd positive).mono
  rintro ⟨result, insertFS'⟩ w₂ ⟨lf', chain', insertsAt', touches, inserted, accepts, honest⟩
  obtain ⟨w₃, run, storage₃, same, names, _⟩ := insertsAt'.delete owned
  dsimp only at accepts honest ⊢
  apply smoothly_bind_eq run
  have sameNames : ∀ file ∈ opens, w₃.nameOf file = w.nameOf file := by
    intro file member
    rw [names file member, touches.names, constructs.names file member]
  have changed : w₃.logical = Function.update w.logical relation (some lf') := by
    rw [same, touches.logical, constructs.logical]
  have stores' : w₃.Stores relation lf' chain' := by
    refine ⟨by rw [changed, Function.update_self], ?_⟩
    rw [inserted.first headerNo.symm]
    exact inserted.formed
  cases result with
  | ok rid =>
      apply smoothly_pure
      refine ⟨⟨fun _ => accepts.mp ⟨rid, rfl⟩, fun _ => rfl⟩, storage₃, sameNames, fun _ => ?_,
        fun wrong => absurd rfl wrong⟩
      have appended := inserted.appended (by rw [headerNo]; exact stores.formed) atEnd
      rw [headerNo] at appended
      exact ⟨lf', chain', changed, stores', appended⟩
  | error status =>
      have failed : status ≠ .OK := by
        rintro rfl
        exact honest rfl
      apply smoothly_pure
      refine ⟨⟨fun wrong => absurd wrong failed, fun short => ?_⟩, storage₃, sameNames,
        fun wrong => absurd wrong failed, fun _ => ⟨lf', chain', changed, stores', inserted.effect⟩⟩
      obtain ⟨_, wrong⟩ := accepts.mpr short
      cases wrong

end Insertion

def givenNames (given : List (AttrInfo × Memory)) : List (List Byte) :=
  given.map fun entry => cString entry.1.attrName

/-- What `QU_Insert` asks of its list: as many entries as the relation has attributes, each
with a value and the name of one of them, for a tuple that a page can hold. -/
structure Accepted (descs : List AttrDesc) (given : List (AttrInfo × Memory)) : Prop where
  described : descs ≠ []
  count : given.length = descs.length
  known : Known descs (given.map Prod.fst)
  width : (descs.map AttrDesc.attrLen).sum ≤ 1000

def builtRecord (descs : List AttrDesc) (data : Memory) (given : List (AttrInfo × Memory)) :
    Record :=
  readBytes (given.foldl (placeValue descs) data) 0 (descs.map AttrDesc.attrLen).sum.toNat

section Statement

variable {w : World} {pins : List Pin} {opens : List FilePtr} {cat : LogicalFile}
  {catChain : List Int} {relation : FileName} {lf : LogicalFile} {chain : List Int}
  {descs : List AttrDesc}

theorem Schema.width_positive (schema : Schema descs) (described : descs ≠ []) :
    1 ≤ (descs.map AttrDesc.attrLen).sum := by
  obtain ⟨desc, member⟩ := List.exists_mem_of_ne_nil descs described
  obtain ⟨_, proper⟩ := schema.proper desc member
  have inside := schema.inside desc member
  have offset := proper.offset
  have positive := proper.positive
  omega

theorem place_values_keeps (descs : List AttrDesc) (len : Int) (data : Memory)
    (given : List (AttrInfo × Memory)) : KeepsFlag (placeValues descs len data given) := by
  induction given generalizing data with
  | nil => exact keeps_pure _
  | cons entry given ih =>
      rw [placeValues]
      repeat' first
        | exact keeps_pure _ | exact keeps_crash | exact ih _ | split

/-- What `QU_Insert` has done: its answer, and the tuple. -/
structure InsertEnds (w w' : World) (pins : List Pin) (opens : List FilePtr)
    (relation : FileName) (lf : LogicalFile) (chain : List Int) (descs : List AttrDesc)
    (data : Memory) (given : List (AttrInfo × Memory)) (status : Status) : Prop where
  accepts : status = .OK ↔ Accepted descs given
  undescribed : descs = [] → status = .RELNOTFOUND
  misfit : descs ≠ [] → ¬(given.length = descs.length ∧ Known descs (given.map Prod.fst)) →
    status = .BADCATPARM
  storage : w'.Storage pins opens
  names : ∀ file ∈ opens, w'.nameOf file = w.nameOf file
  added : status = .OK → AddsTuple w w' relation lf chain (builtRecord descs data given)
  nothing : status ≠ .OK → AddsNothing w w' relation lf chain

theorem World.Storage.insert_ends (storage : w.Storage pins opens)
    (owned : ∀ pin ∈ pins, pin.file ∈ opens) (catalog : w.Stores ATTRCATNAME cat catChain)
    (sized : ∀ rec ∈ cat.tuples catChain, rec.length = AttrDesc.size)
    (stores : w.Stores relation lf chain) (proper : ProperName relation)
    (described : AttrCatalog.describe (cat.tuples catChain) relation = descs)
    (schema : Schema descs) (mem : Uninit) (tmpRid : RID) (data : Memory)
    (given : List (AttrInfo × Memory)) :
    Smoothly (QU_Insert mem tmpRid data relation given) w fun status w' =>
      InsertEnds w w' pins opens relation lf chain descs data given status := by
  unfold QU_Insert
  apply smoothly_bind
  · intro result
    repeat' first
      | exact keeps_pure _ | exact place_values_keeps _ _ _ _ | exact insert_once_keeps _ _ _
      | apply keeps_bind | intro _ | split
  apply (storage.attr_get_rel_info owned catalog sized proper mem tmpRid).mono
  rintro result w₁ ⟨undisturbed, rfl⟩
  rw [described]
  have refused : ∀ {status : Status}, status ≠ .OK → ¬Accepted descs given →
      (descs = [] → status = .RELNOTFOUND) → (descs ≠ [] → status = .BADCATPARM) →
      Smoothly (pure status : DbM Status) w₁ fun status w' =>
        InsertEnds w w' pins opens relation lf chain descs data given status := by
    intro status failed unaccepted undescribed misfit
    exact smoothly_pure
      { accepts := ⟨fun wrong => absurd wrong failed, fun wrong => absurd wrong unaccepted⟩
        undescribed
        misfit := fun here _ => misfit here
        storage := undisturbed.storage
        names := undisturbed.names
        added := fun wrong => absurd wrong failed
        nothing := fun _ => undisturbed.adds_nothing stores }
  by_cases empty : descs = []
  · rw [if_pos empty]
    exact refused (by decide) (fun accepted => accepted.described empty) (fun _ => rfl)
      fun present => absurd empty present
  rw [if_neg empty]
  dsimp only
  by_cases count : given.length = descs.length
  · rw [if_neg (not_not.mpr count)]
    apply smoothly_bind_eq (place_values_eq schema given data w₁)
    by_cases known : Known descs (given.map Prod.fst)
    · rw [if_pos known]
      dsimp only
      have positive := schema.width_positive empty
      have length : (builtRecord descs data given).length =
          (descs.map AttrDesc.attrLen).sum.toNat := read_bytes_length _ _ _
      apply (undisturbed.storage.insert_tuple owned (undisturbed.stores stores) proper.nonempty
        (show 1 ≤ (builtRecord descs data given).length by omega) mem).mono
      rintro status w₂ ⟨accepts, storage₂, names, added, nothing⟩
      refine ⟨⟨fun ok => ?_, fun accepted => ?_⟩, fun missing => absurd missing empty,
        fun _ misfit => absurd ⟨count, known⟩ misfit, storage₂, fun file member => ?_,
        fun ok => ?_, fun failed => ?_⟩
      · have short := accepts.mp ok
        exact ⟨empty, count, known, by omega⟩
      · have short := accepted.width
        exact accepts.mpr (by omega)
      · rw [names file member, undisturbed.names file member]
      · obtain ⟨lf', chain', changed, more⟩ := added ok
        rw [undisturbed.logical] at changed
        exact ⟨lf', chain', changed, more⟩
      · obtain ⟨lf', chain', changed, more⟩ := nothing failed
        rw [undisturbed.logical] at changed
        exact ⟨lf', chain', changed, more⟩
    · rw [if_neg known]
      exact refused (by decide) (fun accepted => known accepted.known)
        (fun missing => absurd missing empty) fun _ => rfl
  · rw [if_pos count]
    exact refused (by decide) (fun accepted => count accepted.count)
      (fun missing => absurd missing empty) fun _ => rfl

theorem World.Storage.insert_query (storage : w.Storage pins opens)
    (owned : ∀ pin ∈ pins, pin.file ∈ opens) (catalog : w.Stores ATTRCATNAME cat catChain)
    (sized : ∀ rec ∈ cat.tuples catChain, rec.length = AttrDesc.size)
    (stores : w.Stores relation lf chain) (proper : ProperName relation)
    (described : AttrCatalog.describe (cat.tuples catChain) relation = descs)
    (schema : Schema descs) (mem : Uninit) (tmpRid : RID) (data : Memory)
    (given : List (AttrInfo × Memory)) :
    Smoothly (QU_Insert mem tmpRid data relation given) w fun status w' =>
      (status = .OK ↔ Accepted descs given) ∧ w'.Storage pins opens ∧
        (status = .OK → AddsTuple w w' relation lf chain (builtRecord descs data given)) ∧
        (status ≠ .OK → AddsNothing w w' relation lf chain) := by
  apply (storage.insert_ends owned catalog sized stores proper described schema mem tmpRid data
    given).mono
  intro status w' ends
  exact ⟨ends.accepts, ends.storage, ends.added, ends.nothing⟩

/-- What a call that has returned `status` owes: with `OK` the names are those of the
attributes and one tuple is new, which shows the values and which every reordering of the
list would have added too; with an error no tuple is new. -/
structure InsertsGiven (w w' : World) (relation : FileName) (lf : LogicalFile) (chain : List Int)
    (descs : List AttrDesc) (given : List (AttrInfo × Memory)) (status : Status) : Prop where
  names : status = .OK → (givenNames given).Perm (descs.map AttrDesc.attrName)
  stored : status = .OK → ∃ rec, AddsTuple w w' relation lf chain rec ∧
    (∀ desc ∈ descs, ∀ entry ∈ given, cString entry.1.attrName = desc.attrName →
      ∃ text, entry.1.attrValue = some text ∧ desc.Shows text (desc.bytes rec)) ∧
    ∀ (mem : Uninit) (tmpRid : RID) (data : Memory) (given' : List (AttrInfo × Memory)),
      (given'.map Prod.fst).Perm (given.map Prod.fst) →
      Smoothly (QU_Insert mem tmpRid data relation given') w fun status' w'' => status' = .OK ∧
        ∃ rec', AddsTuple w w'' relation lf chain rec' ∧ ∀ desc ∈ descs,
          desc.SameField (desc.bytes rec) (desc.bytes rec') ∧
          (given'.Perm given → desc.bytes rec' = desc.bytes rec)
  refused : status ≠ .OK → AddsNothing w w' relation lf chain

theorem Accepted.names_perm {given : List (AttrInfo × Memory)} (accepted : Accepted descs given)
    (once : (givenNames given).Nodup) : (givenNames given).Perm (descs.map AttrDesc.attrName) := by
  have listed : givenNames given ⊆ descs.map AttrDesc.attrName := by
    intro name member
    obtain ⟨entry, given, rfl⟩ := List.mem_map.mp member
    exact (accepted.known entry.1 (List.mem_map_of_mem given)).2
  apply (List.subperm_of_subset once listed).perm_of_length_le
  rw [List.length_map, givenNames, List.length_map, accepted.count]

/-- An attribute of the new tuple, with the entry that it comes from. -/
theorem Accepted.built_field {given : List (AttrInfo × Memory)} (accepted : Accepted descs given)
    (schema : Schema descs) (once : (givenNames given).Nodup) {entry : AttrInfo × Memory}
    (member : entry ∈ given) {desc : AttrDesc} (listed : desc ∈ descs)
    (named : cString entry.1.attrName = desc.attrName) (data : Memory) :
    ∃ text, entry.1.attrValue = some text ∧
      desc.bytes (builtRecord descs data given) = desc.given entry.2 text := by
  obtain ⟨text, value⟩ := Option.isSome_iff_exists.mp
    (accepted.known entry.1 (List.mem_map_of_mem member)).1
  refine ⟨text, value, ?_⟩
  rw [builtRecord, schema.bytes_record listed]
  exact placed_value schema listed once member named value data

theorem Accepted.entry {given : List (AttrInfo × Memory)} (accepted : Accepted descs given)
    (once : (givenNames given).Nodup) {desc : AttrDesc} (listed : desc ∈ descs) :
    ∃ entry ∈ given, cString entry.1.attrName = desc.attrName := by
  have named : desc.attrName ∈ givenNames given :=
    (accepted.names_perm once).mem_iff.mpr (List.mem_map_of_mem listed)
  obtain ⟨entry, member, same⟩ := List.mem_map.mp named
  exact ⟨entry, member, same⟩

theorem Accepted.permuted {given given' : List (AttrInfo × Memory)}
    (accepted : Accepted descs given)
    (permuted : (given'.map Prod.fst).Perm (given.map Prod.fst)) : Accepted descs given' where
  described := accepted.described
  count := by
    have length := permuted.length_eq
    rw [List.length_map, List.length_map] at length
    rw [length, accepted.count]
  known := fun attr member => accepted.known attr (permuted.mem_iff.mp member)
  width := accepted.width

theorem given_names_eq (given : List (AttrInfo × Memory)) :
    givenNames given = (given.map Prod.fst).map fun attr => cString attr.attrName := by
  rw [givenNames, List.map_map]
  rfl

/-- `QU_Insert` keeps its promise exactly if no list that it accepts repeats a name. -/
theorem insert_stores_given_iff (storage : w.Storage pins opens)
    (owned : ∀ pin ∈ pins, pin.file ∈ opens) (catalog : w.Stores ATTRCATNAME cat catChain)
    (sized : ∀ rec ∈ cat.tuples catChain, rec.length = AttrDesc.size)
    (stores : w.Stores relation lf chain) (proper : ProperName relation)
    (described : AttrCatalog.describe (cat.tuples catChain) relation = descs)
    (schema : Schema descs) (mem : Uninit) (tmpRid : RID) (data : Memory)
    (given : List (AttrInfo × Memory)) :
    Smoothly (QU_Insert mem tmpRid data relation given) w fun status w' =>
      (InsertsGiven w w' relation lf chain descs given status ↔
        (Accepted descs given → (givenNames given).Nodup)) := by
  apply (storage.insert_query owned catalog sized stores proper described schema mem tmpRid data
    given).mono
  rintro status w' ⟨accepts, _, added, nothing⟩
  constructor
  · intro promise accepted
    have perm := promise.names (accepts.mpr accepted)
    exact perm.nodup_iff.mpr schema.names
  · intro onceIfAccepted
    refine ⟨fun ok => ?_, fun ok => ?_, nothing⟩
    · have accepted := accepts.mp ok
      exact accepted.names_perm (onceIfAccepted accepted)
    have accepted := accepts.mp ok
    have once := onceIfAccepted accepted
    refine ⟨builtRecord descs data given, added ok, ?_, ?_⟩
    · intro desc listed entry member named
      obtain ⟨_, typed⟩ := schema.proper desc listed
      obtain ⟨text, value, field⟩ := accepted.built_field schema once member listed named data
      refine ⟨text, value, ?_⟩
      rw [field]
      exact given_shows typed entry.2 text
    · intro mem' tmpRid' data' given' permuted
      have accepted' := accepted.permuted permuted
      have once' : (givenNames given').Nodup := by
        rw [given_names_eq] at once ⊢
        exact (permuted.map _).nodup_iff.mpr once
      apply (storage.insert_query owned catalog sized stores proper described schema mem' tmpRid'
        data' given').mono
      rintro status' w'' ⟨accepts', _, added', _⟩
      have ok' := accepts'.mpr accepted'
      refine ⟨ok', builtRecord descs data' given', added' ok', fun desc listed => ⟨?_, ?_⟩⟩
      · obtain ⟨_, typed⟩ := schema.proper desc listed
        obtain ⟨entry, member, named⟩ := accepted.entry once listed
        obtain ⟨text, value, field⟩ := accepted.built_field schema once member listed named data
        -- the same name and value stand somewhere in the other list
        obtain ⟨entry', member', same⟩ := List.mem_map.mp
          (permuted.mem_iff.mpr (List.mem_map_of_mem (f := Prod.fst) member))
        obtain ⟨text', value', field'⟩ := accepted'.built_field schema once' member' listed
          (by rw [same]; exact named) data'
        rw [same, value] at value'
        cases value'
        rw [field, field']
        exact given_same_field typed entry.2 entry'.2 text
      · intro whole
        obtain ⟨entry, member, named⟩ := accepted.entry once listed
        obtain ⟨text, value, field⟩ := accepted.built_field schema once member listed named data
        obtain ⟨text', value', field'⟩ := accepted'.built_field schema once'
          (whole.mem_iff.mpr member) listed named data'
        rw [value] at value'
        cases value'
        rw [field, field']

end Statement

open HeapSession (zeroMemory)

def namedValue (attrName text : List Byte) : AttrInfo × Memory :=
  ({ AttrInfo.named [114] attrName with attrValue := some text }, fun _ => 0)

theorem sample_schema : Schema [attrRA, attrRB] where
  proper := by
    intro desc member
    simp only [List.mem_cons, List.not_mem_nil, or_false] at member
    rcases member with rfl | rfl
    · exact ⟨.INTEGER, rfl, by decide, by decide, fun _ => rfl⟩
    · exact ⟨.STRING, rfl, by decide, by decide, fun wrong => absurd rfl wrong⟩
  names := by decide
  apart := by
    apply List.pairwise_pair.mpr
    exact .inl (by decide)
  inside := by decide

/-- `insert into r (b, a) values ("w", 7)`, on a stack full of ones. -/
theorem insert_stores_given_iff_reordered : ∃ w',
    QU_Insert zeroMemory NULLRID (fun _ => 1) [114] [namedValue [98] [119], namedValue [97] [55]]
      sampleStart = (.ok .OK, w') ∧
    InsertsGiven sampleStart w' [114] (tableFile [114] sampleR) [2] [attrRA, attrRB]
      [namedValue [98] [119], namedValue [97] [55]] .OK := by
  have value : (QU_Insert zeroMemory NULLRID (fun _ => 1) [114]
      [namedValue [98] [119], namedValue [97] [55]] sampleStart).1 = .ok .OK := by decide +kernel
  have run := DbM.run_of_value value
  obtain ⟨_, same, iff⟩ := (insert_stores_given_iff sample_start_storage (by simp)
    sample_start_catalog (by decide +kernel) sample_relation_r.toStores sample_relation_r.name
    (by decide +kernel) sample_schema zeroMemory NULLRID (fun _ => 1)
    [namedValue [98] [119], namedValue [97] [55]]).result run (by decide +kernel)
  cases same
  exact ⟨_, run, iff.mpr fun _ => by decide⟩

/-- `insert into r (a, a) values (7, 7)` is accepted; `b` holds what was on the stack. -/
theorem insert_accepts_repeated_name : ∃ w',
    QU_Insert zeroMemory NULLRID (fun _ => 1) [114] [namedValue [97] [55], namedValue [97] [55]]
      sampleStart = (.ok .OK, w') ∧
    ¬InsertsGiven sampleStart w' [114] (tableFile [114] sampleR) [2] [attrRA, attrRB]
      [namedValue [97] [55], namedValue [97] [55]] .OK := by
  have value : (QU_Insert zeroMemory NULLRID (fun _ => 1) [114]
      [namedValue [97] [55], namedValue [97] [55]] sampleStart).1 = .ok .OK := by decide +kernel
  refine ⟨_, DbM.run_of_value value, ?_⟩
  intro promise
  have perm := promise.names rfl
  have once : (givenNames [namedValue [97] [55], namedValue [97] [55]]).Nodup :=
    perm.nodup_iff.mpr (by decide)
  revert once
  decide

end PrimitiveDB

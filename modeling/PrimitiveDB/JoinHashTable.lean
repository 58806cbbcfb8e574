import PrimitiveDB.FilterComparisons
import PrimitiveDB.Literals

/-!
# The hash table of the hash join

`class joinHashTbl` of `joinHT.C`. A pointer is the list of the bytes that can be read from it
on; a call that reads behind them has no result. Keys are compared on the length of the
attribute, but the hash of a string runs to the end of the string, wherever that is: a string
that fills its attribute is hashed together with what follows it in memory.
-/

namespace PrimitiveDB

open ByteMemory ScanFilter

set_option autoImplicit false

/-- `union JAttrType`; an attribute without a proper type leaves it unset. -/
inductive JAttrType where
  | iValue (value : Int)
  | fValue (value : FloatValue)
  | sValue (value : List Byte)
  | unset

structure JoinHashBucket where
  attrValue : JAttrType
  rid : RID

structure HTEntry where
  bucketCnt : Nat
  chain : List JoinHashBucket

structure JoinHashTbl where
  joinAttr : AttrDesc
  HTSIZE : Nat
  ht : List HTEntry

namespace JoinHashTbl

/-- A `char` as an `int`; plain `char` is signed. -/
def charValue (char : Byte) : Int := if char.val < 128 then char.val else char.val - 256

/-- `while (*attrPtr++) value = 31*value + (int)*attrPtr;` -/
def hashString : List Byte → Int → Option Int
  | [], _ => none
  | [char], value => if char = 0 then some value else none
  | char :: next :: rest, value =>
      if char = 0 then some value
      else hashString (next :: rest) (toInt (31 * value + charValue next))

/-- A finite `float`, times `2 ^ 149`, multiplied by a whole `float`; nothing if the product is
infinite. -/
def timesFloat (scaled : Int) (factor : Nat) : Option Int :=
  let (mantissa, exponent) := Literal.roundBinary 24 (-149) (scaled.natAbs * factor) (2 ^ 149)
  if exponent + 24 > 128 then none
  else some (scaled.sign * (mantissa * 2 ^ (exponent + 149).toNat : Nat))

/-- `(int) (value * HTSIZE * 31)`. What is no `int` becomes the smallest one. -/
def hashFloat (HTSIZE : Nat) : FloatValue → Int
  | .finite scaled =>
      let (mantissa, exponent) := Literal.roundBinary 24 0 HTSIZE 1
      match (timesFloat scaled (mantissa * 2 ^ exponent.toNat)).bind (timesFloat · 31) with
      | none => -2147483648
      | some product =>
          let value := product.tdiv (2 ^ 149)
          if -2147483648 ≤ value ∧ value < 2147483648 then value else -2147483648
  | _ => -2147483648

def hashValue (HTSIZE : Nat) (attrPtr : List Byte) (attrType : Int) : Option Int :=
  match Datatype.ofCode attrType with
  | some .INTEGER =>
      if 4 ≤ attrPtr.length then some (toInt (toInt (intOf attrPtr * HTSIZE) * 31)) else none
  | some .FLOAT =>
      if 4 ≤ attrPtr.length then some (hashFloat HTSIZE (readFloat (bytesAt attrPtr 0)))
      else none
  | some .STRING => hashString attrPtr 0
  | none => some 0

def hash (HTSIZE : Nat) (attrPtr : List Byte) (attrType : Int) : Option Nat :=
  (hashValue HTSIZE attrPtr attrType).map fun value => (value.tmod HTSIZE).natAbs

def new (size : Nat) (attr : AttrDesc) : JoinHashTbl :=
  { joinAttr := attr, HTSIZE := size, ht := List.replicate size ⟨0, []⟩ }

def attrValue (joinAttr : AttrDesc) (joinAttrPtr : List Byte) : Option JAttrType :=
  match Datatype.ofCode joinAttr.attrType with
  | some .INTEGER => if 4 ≤ joinAttrPtr.length then some (.iValue (intOf joinAttrPtr)) else none
  | some .FLOAT =>
      if 4 ≤ joinAttrPtr.length then some (.fValue (readFloat (bytesAt joinAttrPtr 0))) else none
  | some .STRING =>
      if joinAttr.attrLen.toNat ≤ joinAttrPtr.length then
        some (.sValue (joinAttrPtr.take joinAttr.attrLen.toNat))
      else none
  | none => some .unset

def joinAttrPtr (joinAttr : AttrDesc) (tuple : List Byte) : List Byte :=
  tuple.drop joinAttr.attrOffset.toNat

def insert (table : JoinHashTbl) (newRid : RID) (tuple : List Byte) : Option JoinHashTbl := do
  let attrPtr := joinAttrPtr table.joinAttr tuple
  let index ← hash table.HTSIZE attrPtr table.joinAttr.attrType
  let value ← attrValue table.joinAttr attrPtr
  some { table with ht := table.ht.modify index fun entry =>
    { bucketCnt := entry.bucketCnt + 1, chain := ⟨value, newRid⟩ :: entry.chain } }

def floatEqual : FloatValue → FloatValue → Bool
  | .finite left, .finite right => left = right
  | .infinity left, .infinity right => left = right
  | _, _ => false

def bucketMatches (joinAttr : AttrDesc) (innerJoinAttrPtr : List Byte)
    (bucket : JoinHashBucket) : Bool :=
  match Datatype.ofCode joinAttr.attrType, bucket.attrValue with
  | some .INTEGER, .iValue value => value = intOf innerJoinAttrPtr
  | some .FLOAT, .fValue value => floatEqual value (readFloat (bytesAt innerJoinAttrPtr 0))
  | some .STRING, .sValue value =>
      strncmp (bytesAt value 0) (bytesAt innerJoinAttrPtr 0) 0 joinAttr.attrLen.toNat = 0
  | _, _ => false

/-- `lookup`: the first `ridCnt` elements of `outRids`, and the size of that array. -/
def lookup (table : JoinHashTbl) (innerJoinAttrPtr : List Byte) : Option (List RID × Nat) := do
  let index ← hash table.HTSIZE innerJoinAttrPtr table.joinAttr.attrType
  let entry ← table.ht[index]?
  some ((entry.chain.filter (bucketMatches table.joinAttr innerJoinAttrPtr)).map
    JoinHashBucket.rid, entry.bucketCnt)

def insertAll (table : JoinHashTbl) : List (RID × List Byte) → Option JoinHashTbl
  | [] => some table
  | (rid, tuple) :: inserts => do
      let table ← table.insert rid tuple
      table.insertAll inserts

theorem hash_string_is_some_iff (attrPtr : List Byte) (value : Int) :
    (∃ hashed, hashString attrPtr value = some hashed) ↔ 0 ∈ attrPtr := by
  induction attrPtr generalizing value with
  | nil => simp [hashString]
  | cons char rest ih =>
      cases rest with
      | nil =>
          unfold hashString
          by_cases zero : char = 0
          · simp [zero]
          · simp [zero, Ne.symm zero]
      | cons next rest =>
          unfold hashString
          by_cases zero : char = 0
          · simp [zero]
          · rw [if_neg zero, ih]
            simp [Ne.symm zero]

theorem hash_string_congr {left right : List Byte} (leftEnd : 0 ∈ left) (rightEnd : 0 ∈ right)
    (same : cString left = cString right) (value : Int) :
    hashString left value = hashString right value := by
  induction left generalizing right value with
  | nil => cases leftEnd
  | cons x xs ih =>
      cases right with
      | nil => cases rightEnd
      | cons y ys =>
          rw [c_string_cons, c_string_cons] at same
          by_cases left : x = 0
          · have right : y = 0 := by
              by_contra nonzero
              rw [if_pos left, if_neg nonzero] at same
              cases same
            subst left
            subst right
            cases xs <;> cases ys <;> rfl
          · have right : y ≠ 0 := by
              intro zero
              rw [if_neg left, if_pos zero] at same
              cases same
            rw [if_neg left, if_neg right, List.cons.injEq] at same
            have leftLater : 0 ∈ xs := (List.mem_cons.mp leftEnd).resolve_left (Ne.symm left)
            have rightLater : 0 ∈ ys := (List.mem_cons.mp rightEnd).resolve_left (Ne.symm right)
            cases xs with
            | nil => cases leftLater
            | cons x' xs =>
                cases ys with
                | nil => cases rightLater
                | cons y' ys =>
                    have next : x' = y' := by
                      have tails := same.2
                      rw [c_string_cons, c_string_cons] at tails
                      by_cases zero : x' = 0
                      · by_contra other
                        have nonzero : y' ≠ 0 := fun also => other (zero.trans also.symm)
                        rw [if_pos zero, if_neg nonzero] at tails
                        cases tails
                      · by_cases also : y' = 0
                        · rw [if_neg zero, if_pos also] at tails
                          cases tails
                        · rw [if_neg zero, if_neg also, List.cons.injEq] at tails
                          exact tails.1
                    subst next
                    unfold hashString
                    rw [if_neg left, if_neg right]
                    exact ih leftLater rightLater same.2 _

/-- A string that ends in the first bytes of its memory is the string there. -/
theorem c_string_take {bytes : List Byte} {count : Nat} (ended : 0 ∈ bytes.take count) :
    cString (bytes.take count) = cString bytes := by
  induction bytes generalizing count with
  | nil => simp
  | cons byte bytes ih =>
      cases count with
      | zero => cases ended
      | succ count =>
          rw [List.take_succ_cons, c_string_cons, c_string_cons]
          by_cases zero : byte = 0
          · rw [if_pos zero, if_pos zero]
          · rw [List.take_succ_cons] at ended
            rw [if_neg zero, if_neg zero,
              ih ((List.mem_cons.mp ended).resolve_left (Ne.symm zero))]

/-- The string in a block fills it unless the block has an end of string. -/
theorem c_string_fills_iff (bytes : List Byte) :
    (cString bytes).length = bytes.length ↔ 0 ∉ bytes := by
  induction bytes with
  | nil => simp [cString]
  | cons byte bytes ih =>
      rw [c_string_cons]
      by_cases zero : byte = 0
      · simp [zero]
      · rw [if_neg zero, List.length_cons, List.length_cons, Nat.add_right_cancel_iff, ih]
        simp [Ne.symm zero]

theorem hash_lt {size : Nat} (positive : 0 < size) {attrPtr : List Byte} {attrType : Int}
    {index : Nat} (hashed : hash size attrPtr attrType = some index) : index < size := by
  unfold hash at hashed
  rw [Option.map_eq_some_iff] at hashed
  obtain ⟨value, _, rfl⟩ := hashed
  rw [Int.natAbs_tmod, Int.natAbs_natCast]
  exact Nat.mod_lt _ positive

section Chains

variable {size : Nat} {attr : AttrDesc} {inserts : List (RID × List Byte)} {table : JoinHashTbl}

def insertHash (size : Nat) (attr : AttrDesc) (insert : RID × List Byte) : Option Nat :=
  hash size (joinAttrPtr attr insert.2) attr.attrType

def bucketOf (attr : AttrDesc) (insert : RID × List Byte) : Option JoinHashBucket :=
  (attrValue attr (joinAttrPtr attr insert.2)).map (⟨·, insert.1⟩)

/-- The chain at `index` after these inserts, the last one first. -/
def chainOf (size : Nat) (attr : AttrDesc) (inserts : List (RID × List Byte)) (index : Nat) :
    List JoinHashBucket :=
  (inserts.filter fun insert => insertHash size attr insert = some index).reverse.filterMap
    (bucketOf attr)

structure Filled (size : Nat) (attr : AttrDesc) (inserts : List (RID × List Byte))
    (table : JoinHashTbl) : Prop where
  joinAttr : table.joinAttr = attr
  htSize : table.HTSIZE = size
  entries : ∀ index < size, table.ht[index]? =
    some ⟨(chainOf size attr inserts index).length, chainOf size attr inserts index⟩

theorem new_filled (size : Nat) (attr : AttrDesc) : Filled size attr [] (new size attr) := by
  refine ⟨rfl, rfl, ?_⟩
  intro index bound
  simp [new, chainOf, bound]

theorem Filled.insert (filled : Filled size attr inserts table)
    {insert : RID × List Byte} {index : Nat} {value : JAttrType}
    (hashed : insertHash size attr insert = some index)
    (kept : attrValue attr (joinAttrPtr attr insert.2) = some value) :
    ∃ table', table.insert insert.1 insert.2 = some table' ∧
      Filled size attr (inserts ++ [insert]) table' := by
  have hashed' : hash table.HTSIZE (joinAttrPtr table.joinAttr insert.2)
      table.joinAttr.attrType = some index := by
    rw [filled.joinAttr, filled.htSize]
    exact hashed
  have kept' : attrValue table.joinAttr (joinAttrPtr table.joinAttr insert.2) = some value := by
    rw [filled.joinAttr]
    exact kept
  refine ⟨{ table with ht := table.ht.modify index fun entry =>
    { bucketCnt := entry.bucketCnt + 1, chain := ⟨value, insert.1⟩ :: entry.chain } }, ?_, ?_⟩
  · simp only [JoinHashTbl.insert, hashed', kept', Option.bind_eq_bind, Option.bind_some]
  · refine ⟨filled.joinAttr, filled.htSize, ?_⟩
    intro other bound
    rw [List.getElem?_modify, filled.entries other bound]
    by_cases here : index = other
    · subst here
      simp [chainOf, hashed, bucketOf, kept]
    · have elsewhere : insertHash size attr insert ≠ some other := by
        rw [hashed]
        exact fun same => here (Option.some.inj same)
      simp [chainOf, here, elsewhere]

/-- Inserting succeeds if and only if every attribute can be hashed. -/
theorem Filled.insert_all (filled : Filled size attr inserts table)
    {more : List (RID × List Byte)}
    (kept : ∀ insert ∈ more, ∃ value, attrValue attr (joinAttrPtr attr insert.2) = some value) :
    if ∀ insert ∈ more, insertHash size attr insert ≠ none then
      ∃ table', table.insertAll more = some table' ∧ Filled size attr (inserts ++ more) table'
    else table.insertAll more = none := by
  induction more generalizing inserts table with
  | nil => simpa [insertAll] using filled
  | cons insert more ih =>
      obtain ⟨value, keeps⟩ := kept insert (by simp)
      cases hashed : insertHash size attr insert with
      | none =>
          have fails : table.insert insert.1 insert.2 = none := by
            have unhashed : hash table.HTSIZE (joinAttrPtr table.joinAttr insert.2)
                table.joinAttr.attrType = none := by
              rw [filled.joinAttr, filled.htSize]
              exact hashed
            simp only [JoinHashTbl.insert, unhashed, Option.bind_eq_bind, Option.bind_none]
          rw [if_neg fun all => all insert (by simp) hashed]
          simp only [insertAll, fails, Option.bind_eq_bind, Option.bind_none]
      | some index =>
          obtain ⟨table', run, filled'⟩ := filled.insert hashed keeps
          have rest := ih filled' fun other member => kept other (by simp [member])
          have same : (∀ other ∈ insert :: more, insertHash size attr other ≠ none) ↔
              ∀ other ∈ more, insertHash size attr other ≠ none := by
            simp [hashed]
          simp only [same]
          simp only [insertAll, run, Option.bind_eq_bind, Option.bind_some]
          rw [List.append_assoc, List.singleton_append] at rest
          exact rest

end Chains

/-- The attribute of an inserted tuple equals the key: as integers, or under `strncmp` on the
length of the attribute. -/
def equalsKey (attr : AttrDesc) (key : List Byte) (insert : RID × List Byte) : Bool :=
  match Datatype.ofCode attr.attrType with
  | some .INTEGER => intOf (joinAttrPtr attr insert.2) = intOf key
  | some .STRING =>
      strncmp (bytesAt (joinAttrPtr attr insert.2) 0) (bytesAt key 0) 0 attr.attrLen.toNat = 0
  | _ => false

structure ProperAttr (attr : AttrDesc) : Prop where
  offset : 0 ≤ attr.attrOffset
  typed : attr.attrType = Datatype.INTEGER.code ∧ attr.attrLen = 4 ∨
    attr.attrType = Datatype.STRING.code ∧ 1 ≤ attr.attrLen

/-- The inserts and a lookup of `key` return, the lookup with exactly the RIDs of the equal
tuples, as often as they were inserted, in an array that is large enough. -/
def LooksUpExactly (size : Nat) (attr : AttrDesc) (inserts : List (RID × List Byte))
    (key : List Byte) : Prop :=
  ∃ table outRids arraySize, (new size attr).insertAll inserts = some table ∧
    table.lookup key = some (outRids, arraySize) ∧
    outRids.Perm ((inserts.filter (equalsKey attr key)).map Prod.fst) ∧
    outRids.length ≤ arraySize

/-- Every string has an end, and one that fills its attribute has the hash of the key if it
equals it. -/
def HashesAlike (size : Nat) (attr : AttrDesc) (inserts : List (RID × List Byte))
    (key : List Byte) : Prop :=
  attr.attrType = Datatype.STRING.code →
    (0 ∈ key ∧ ∀ insert ∈ inserts, 0 ∈ joinAttrPtr attr insert.2) ∧
      ∀ insert ∈ inserts, 0 ∉ (joinAttrPtr attr insert.2).take attr.attrLen.toNat →
        equalsKey attr key insert = true →
        insertHash size attr insert = hash size key attr.attrType

section Lookups

variable {size : Nat} {attr : AttrDesc} {inserts : List (RID × List Byte)} {key : List Byte}

theorem matching_rids (proper : ProperAttr attr) (key : List Byte)
    (items : List (RID × List Byte))
    (kept : ∀ insert ∈ items, ∃ value, attrValue attr (joinAttrPtr attr insert.2) = some value) :
    ((items.filterMap (bucketOf attr)).filter (bucketMatches attr key)).map JoinHashBucket.rid =
      (items.filter (equalsKey attr key)).map Prod.fst := by
  induction items with
  | nil => rfl
  | cons insert items ih =>
      obtain ⟨value, keeps⟩ := kept insert (by simp)
      have rest := ih fun other member => kept other (by simp [member])
      have bucket : bucketOf attr insert = some ⟨value, insert.1⟩ := by
        simp [bucketOf, keeps]
      have same : bucketMatches attr key ⟨value, insert.1⟩ = equalsKey attr key insert := by
        rcases proper.typed with ⟨integer, _⟩ | ⟨string, _⟩
        · have type : Datatype.ofCode attr.attrType = some .INTEGER := by
            rw [integer]
            rfl
          simp only [attrValue, type] at keeps
          split at keeps
          · cases keeps
            simp only [bucketMatches, equalsKey, type]
          · cases keeps
        · have type : Datatype.ofCode attr.attrType = some .STRING := by
            rw [string]
            rfl
          simp only [attrValue, type] at keeps
          split at keeps
          · cases keeps
            simp only [bucketMatches, equalsKey, type]
            congr 2
            apply strncmp_congr
            · intro index bound
              exact (bytes_at_take _ 0 (by omega)).symm
            · intro index bound
              rfl
          · cases keeps
      rw [List.filterMap_cons_some bucket, List.filter_cons, List.filter_cons, same]
      split
      · rw [List.map_cons, List.map_cons, rest]
      · exact rest

/-- Equal keys are in one chain, unless they fill their attribute. -/
theorem equal_hash (proper : ProperAttr attr) (keyWhole : attr.attrLen ≤ key.length)
    {insert : RID × List Byte}
    (whole : attr.attrOffset + attr.attrLen ≤ insert.2.length)
    (ends : attr.attrType = Datatype.STRING.code →
      0 ∈ (joinAttrPtr attr insert.2).take attr.attrLen.toNat)
    (equal : equalsKey attr key insert = true) :
    insertHash size attr insert = hash size key attr.attrType := by
  have offset := proper.offset
  have long : (joinAttrPtr attr insert.2).length = insert.2.length - attr.attrOffset.toNat := by
    simp [joinAttrPtr]
  unfold insertHash hash
  congr 1
  rcases proper.typed with ⟨integer, four⟩ | ⟨string, positive⟩
  · have type : Datatype.ofCode attr.attrType = some .INTEGER := by
      rw [integer]
      rfl
    simp only [equalsKey, type, decide_eq_true_eq] at equal
    simp only [hashValue, type, equal]
    rw [if_pos (by omega), if_pos (by omega)]
  · have type : Datatype.ofCode attr.attrType = some .STRING := by
      rw [string]
      rfl
    simp only [equalsKey, type, decide_eq_true_eq] at equal
    simp only [hashValue, type]
    have inside : 0 + attr.attrLen.toNat ≤ (joinAttrPtr attr insert.2).length := by omega
    have cut := (strncmp_cut _ key 0 attr.attrLen.toNat inside).2.mp equal
    rw [List.drop_zero] at cut
    have ended := ends string
    have keyEnded : 0 ∈ key.take attr.attrLen.toNat := by
      by_contra unended
      have fills := (c_string_fills_iff _).mpr unended
      rw [← cut, List.length_take, Nat.min_eq_left (by omega)] at fills
      have whole' : (cString ((joinAttrPtr attr insert.2).take attr.attrLen.toNat)).length =
          ((joinAttrPtr attr insert.2).take attr.attrLen.toNat).length := by
        rw [fills, List.length_take, Nat.min_eq_left (by omega)]
      exact (c_string_fills_iff _).mp whole' ended
    rw [c_string_take ended, c_string_take keyEnded] at cut
    exact hash_string_congr (List.mem_of_mem_take ended) (List.mem_of_mem_take keyEnded) cut 0

theorem kept_of_whole (proper : ProperAttr attr)
    (whole : ∀ insert ∈ inserts, attr.attrOffset + attr.attrLen ≤ insert.2.length) :
    ∀ insert ∈ inserts, ∃ value, attrValue attr (joinAttrPtr attr insert.2) = some value := by
  intro insert member
  have offset := proper.offset
  have inside := whole insert member
  have long : (joinAttrPtr attr insert.2).length = insert.2.length - attr.attrOffset.toNat := by
    simp [joinAttrPtr]
  rcases proper.typed with ⟨integer, four⟩ | ⟨string, positive⟩
  · have type : Datatype.ofCode attr.attrType = some .INTEGER := by
      rw [integer]
      rfl
    simp only [attrValue, type]
    rw [if_pos (by omega)]
    exact ⟨_, rfl⟩
  · have type : Datatype.ofCode attr.attrType = some .STRING := by
      rw [string]
      rfl
    simp only [attrValue, type]
    rw [if_pos (by omega)]
    exact ⟨_, rfl⟩

/-- An attribute can be hashed unless it is a string without an end. -/
theorem hash_eq_none_iff (proper : ProperAttr attr) {attrPtr : List Byte}
    (whole : attr.attrLen ≤ attrPtr.length) :
    hash size attrPtr attr.attrType = none ↔
      attr.attrType = Datatype.STRING.code ∧ 0 ∉ attrPtr := by
  unfold hash
  rw [Option.map_eq_none_iff]
  rcases proper.typed with ⟨integer, four⟩ | ⟨string, positive⟩
  · have type : Datatype.ofCode attr.attrType = some .INTEGER := by
      rw [integer]
      rfl
    simp only [hashValue, type]
    rw [if_pos (by omega), integer]
    simp [Datatype.code]
  · have type : Datatype.ofCode attr.attrType = some .STRING := by
      rw [string]
      rfl
    simp only [hashValue, type]
    rw [← hash_string_is_some_iff attrPtr 0, string]
    cases hashString attrPtr 0 <;> simp

/-- What a lookup returns: the RIDs of the equal tuples in the chain of the key. -/
theorem Filled.lookup {table : JoinHashTbl} (filled : Filled size attr inserts table)
    (positive : 0 < size) (proper : ProperAttr attr)
    (kept : ∀ insert ∈ inserts, ∃ value, attrValue attr (joinAttrPtr attr insert.2) = some value)
    {index : Nat} (hashed : hash size key attr.attrType = some index) :
    ∃ arraySize, table.lookup key =
      some (((inserts.filter fun insert => insertHash size attr insert = some index).reverse.filter
          (equalsKey attr key)).map Prod.fst, arraySize) ∧
      ((inserts.filter fun insert => insertHash size attr insert = some index).reverse.filter
        (equalsKey attr key)).length ≤ arraySize := by
  have bound := hash_lt positive hashed
  have keptThere : ∀ insert ∈
      (inserts.filter fun insert => insertHash size attr insert = some index).reverse,
      ∃ value, attrValue attr (joinAttrPtr attr insert.2) = some value := by
    intro insert member
    exact kept insert (List.mem_filter.mp (List.mem_reverse.mp member)).1
  have rids := matching_rids proper key _ keptThere
  refine ⟨(chainOf size attr inserts index).length, ?_, ?_⟩
  · unfold JoinHashTbl.lookup
    rw [filled.joinAttr, filled.htSize, hashed, Option.bind_eq_bind, Option.bind_some,
      filled.entries index bound, Option.bind_eq_bind, Option.bind_some, ← rids]
    rfl
  · rw [← List.length_map (f := Prod.fst), ← rids, List.length_map]
    exact List.length_filter_le _ _

/-- Lookups are exact if and only if the table holds integers, or every string has an end and
the hash of a string that fills its attribute does not tell it from an equal key. -/
theorem lookup_exact_iff_hashes_alike (positive : 0 < size) (proper : ProperAttr attr)
    (whole : ∀ insert ∈ inserts, attr.attrOffset + attr.attrLen ≤ insert.2.length)
    (keyWhole : attr.attrLen ≤ key.length) :
    LooksUpExactly size attr inserts key ↔ HashesAlike size attr inserts key := by
  have kept := kept_of_whole proper whole
  have pointers : ∀ insert ∈ inserts, attr.attrLen ≤ (joinAttrPtr attr insert.2).length := by
    intro insert member
    have offset := proper.offset
    have inside := whole insert member
    simp only [joinAttrPtr, List.length_drop]
    omega
  have run := (new_filled size attr).insert_all kept
  rw [List.nil_append] at run
  constructor
  · rintro ⟨table, outRids, arraySize, inserted, found, exact_, _⟩ string
    have hashes : ∀ insert ∈ inserts, insertHash size attr insert ≠ none := by
      by_contra some_
      rw [if_neg some_, inserted] at run
      cases run
    rw [if_pos hashes] at run
    obtain ⟨table', inserted', filled⟩ := run
    rw [inserted] at inserted'
    cases inserted'
    cases hashed : hash size key attr.attrType with
    | none =>
        unfold JoinHashTbl.lookup at found
        rw [filled.joinAttr, filled.htSize, hashed] at found
        cases found
    | some index =>
        have keyEnds : 0 ∈ key := by
          by_contra unended
          rw [(hash_eq_none_iff proper keyWhole).mpr ⟨string, unended⟩] at hashed
          cases hashed
        have ends : ∀ insert ∈ inserts, 0 ∈ joinAttrPtr attr insert.2 := by
          intro insert member
          by_contra unended
          exact hashes insert member
            ((hash_eq_none_iff proper (pointers insert member)).mpr ⟨string, unended⟩)
        refine ⟨⟨keyEnds, ends⟩, ?_⟩
        intro insert member _ equal
        obtain ⟨arraySize', found', _⟩ := filled.lookup positive proper kept hashed
        rw [found'] at found
        cases found
        -- the chain of the key has as many equal tuples as there are, so it has all of them
        have counts := exact_.length_eq
        simp only [List.length_map, List.filter_reverse, List.length_reverse] at counts
        have all := (List.filter_sublist.filter (equalsKey attr key)).eq_of_length counts
        have there : insert ∈ inserts.filter (equalsKey attr key) :=
          List.mem_filter.mpr ⟨member, equal⟩
        rw [← all, List.mem_filter, List.mem_filter] at there
        exact of_decide_eq_true there.1.2
  · intro alike
    have hashes : ∀ insert ∈ inserts, insertHash size attr insert ≠ none := by
      intro insert member unhashed
      obtain ⟨string, unended⟩ := (hash_eq_none_iff proper (pointers insert member)).mp unhashed
      exact unended ((alike string).1.2 insert member)
    rw [if_pos hashes] at run
    obtain ⟨table, inserted, filled⟩ := run
    cases hashed : hash size key attr.attrType with
    | none =>
        obtain ⟨string, unended⟩ := (hash_eq_none_iff proper keyWhole).mp hashed
        exact absurd (alike string).1.1 unended
    | some index =>
        obtain ⟨arraySize, found, room⟩ := filled.lookup positive proper kept hashed
        have there : ∀ insert ∈ inserts, equalsKey attr key insert = true →
            insertHash size attr insert = some index := by
          intro insert member equal
          rw [← hashed]
          by_cases fills : attr.attrType = Datatype.STRING.code ∧
              0 ∉ (joinAttrPtr attr insert.2).take attr.attrLen.toNat
          · exact (alike fills.1).2 insert member fills.2 equal
          · apply equal_hash proper keyWhole (whole insert member) _ equal
            intro string
            by_contra unended
            exact fills ⟨string, unended⟩
        have all : (inserts.filter fun insert => insertHash size attr insert = some index).filter
            (equalsKey attr key) = inserts.filter (equalsKey attr key) := by
          rw [List.filter_filter]
          apply List.filter_congr
          intro insert member
          by_cases equal : equalsKey attr key insert = true
          · simp [equal, there insert member equal]
          · simp [equal]
        refine ⟨table, _, arraySize, inserted, found, ?_, ?_⟩
        · rw [List.filter_reverse, all]
          exact (List.reverse_perm _).map _
        · rw [List.length_map]
          exact room

end Lookups

/-- A string attribute of `length` bytes at the start of the tuple. -/
def nameAttr (length : Int) : AttrDesc :=
  { relName := [114], attrName := [97], attrOffset := 0, attrType := Datatype.STRING.code
    attrLen := length }

/-- `"ab"` fills its attribute and is followed by an end of string; `"a"` does not fill it. -/
theorem lookup_exact_two_strings :
    LooksUpExactly 5 (nameAttr 2) [(⟨2, 0⟩, [97, 98, 0]), (⟨2, 1⟩, [97, 0, 98, 0])]
      [97, 98, 0] := by
  apply (lookup_exact_iff_hashes_alike (by decide) ⟨by decide, .inr (by decide)⟩ (by decide)
    (by decide)).mpr
  intro string
  decide

/-- The one-byte attribute `"a"` of a tuple that goes on with `"b"` is not found under
`"a"`. -/
theorem lookup_misses_unterminated :
    ¬LooksUpExactly 5 (nameAttr 1) [(⟨2, 0⟩, [97, 98, 0])] [97, 0] := by
  rintro ⟨table, outRids, arraySize, inserted, found, exact_, _⟩
  have missed : ((new 5 (nameAttr 1)).insertAll [(⟨2, 0⟩, [97, 98, 0])]).bind
      (·.lookup [97, 0]) = some ([], 0) := by
    decide
  rw [inserted, Option.bind_some, found] at missed
  cases missed
  have counts := exact_.length_eq
  revert counts
  decide

end JoinHashTbl

end PrimitiveDB

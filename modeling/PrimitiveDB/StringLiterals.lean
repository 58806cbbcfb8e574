import PrimitiveDB.Scanner
import PrimitiveDB.Interpreter
import PrimitiveDB.InsertQueries
import PrimitiveDB.FilterComparisons
import PrimitiveDB.PredicateAgreement

/-!
# String literals

A quoted literal on its way through the front end: `get_qstring` copies it into the pool,
`string_node` keeps it, `value_of` prints it into an array of 255 characters. The insert takes
literals of up to 255 characters, and the array has room for 254 and the terminator.
-/

namespace PrimitiveDB

open World DbM ByteMemory

set_option autoImplicit false

/-- A database with a relation that has a `char` column. -/
structure CharColumn (w : World) where
  pins : List Pin
  opens : List FilePtr
  cat : LogicalFile
  catChain : List Int
  relation : FileName
  lf : LogicalFile
  chain : List Int
  desc : AttrDesc
  storage : w.Storage pins opens
  owned : ∀ pin ∈ pins, pin.file ∈ opens
  catalog : w.Stores ATTRCATNAME cat catChain
  sized : ∀ rec ∈ cat.tuples catChain, rec.length = AttrDesc.size
  source : Relation w (cat.tuples catChain) relation lf chain
  schema : Schema (AttrCatalog.describe (cat.tuples catChain) relation)
  listed : desc ∈ AttrCatalog.describe (cat.tuples catChain) relation
  code : Datatype.ofCode desc.attrType = some .STRING
  named : desc.attrName ≠ []

/-- A projection of the relation, and a relation for the result. -/
structure CharColumn.Selection {w : World} (column : CharColumn w) where
  result : FileName
  out : LogicalFile
  outChain : List Int
  projNames : List AttrInfo
  descs : List AttrDesc
  target : w.Stores result out outChain
  resultNamed : result ≠ []
  different : column.relation ≠ result
  nonempty : projNames ≠ []
  own : ∀ info ∈ projNames, info.relName = column.relation
  resolves : AttrCatalog.Resolves (column.cat.tuples column.catChain) projNames descs
  width : (descs.map AttrDesc.attrLen).sum + SLOTSIZE ≤ DATASIZE

/-- `select .. into result from relation where attribute = text` -/
def CharColumn.Selection.select {w : World} {column : CharColumn w} (query : column.Selection)
    (mem : Uninit) (tmpRid : RID) (text : Text) : DbM Status :=
  QU_Select mem tmpRid query.result query.projNames
    (some { queryAttr column.relation column.desc.attrName with
      attrType := Datatype.STRING.code, attrValue := some text }) .EQ text

/-- A tuple that was inserted with the text in a `char` column long enough for it holds exactly
that string, and a selection of the tuples that equal the text returns it. -/
def ReturnsTuple (text : Text) : Prop :=
  ∀ (w w₁ : World) (before : CharColumn w) (after : CharColumn w₁) (mem : Uninit) (tmpRid : RID)
    (data : Memory) (front back : List (AttrInfo × Memory)) (entry : AttrInfo × Memory),
    after.relation = before.relation → after.desc = before.desc →
    (text.length : Int) ≤ before.desc.attrLen →
    cString entry.1.attrName = before.desc.attrName → entry.1.attrValue = some text →
    (∀ other ∈ back, cString other.1.attrName ≠ before.desc.attrName) →
    QU_Insert mem tmpRid data before.relation (front ++ entry :: back) w = (.ok .OK, w₁) →
    w₁.bufFailed = false →
    ∃ rec ∈ after.lf.tuples after.chain, cString (before.desc.bytes rec) = text ∧
      ∀ (query : after.Selection) (mem' : Uninit) (tmpRid' : RID),
        (query.select mem' tmpRid' text w₁).2.bufFailed = false →
        ∃ w₂ out' outChain', query.select mem' tmpRid' text w₁ = (.ok .OK, w₂) ∧
          w₂.Stores query.result out' outChain' ∧
          projected (fun _ => rec) query.descs ∈ out'.tuples outChain'

/-- What the front end owes a quoted literal: the same string, which can be inserted and
selected, or a refusal by `mk_ins_attrs` if it is too long. -/
structure LiteralSurvives (scanner : Scanner) (lit : Text) : Prop where
  extracted : lit.length ≤ MAXSTRINGLEN → ∃ address scanner',
    scanner.get_qstring (34 :: lit ++ [34]) (lit.length + 2) = some (address, scanner') ∧
      ∀ later scanner'', scanner'.scanAll later = some scanner'' →
        (Value.STRING (scanner''.string address)).text = lit
  returned : lit.length ≤ MAXSTRINGLEN → ReturnsTuple lit
  refused : MAXSTRINGLEN < lit.length → ∀ address scanner' later scanner'',
    scanner.get_qstring (34 :: lit ++ [34]) (lit.length + 2) = some (address, scanner') →
    scanner'.scanAll later = some scanner'' →
    ∀ attrlist attrs, insAttrs attrlist 0 = .ok (some attrs) →
      ∀ name, (name, Value.STRING (scanner''.string address)) ∉ attrs

section Tuple

variable {descs : List AttrDesc} {desc : AttrDesc} {text : Text} {rec : Record}

theorem literal_shown (terminated : 0 ∉ text) (room : (text.length : Int) ≤ desc.attrLen)
    (code : Datatype.ofCode desc.attrType = some .STRING) {bytes : List Byte}
    (shows : desc.Shows text bytes) : cString bytes = text := by
  simp only [AttrDesc.Shows, code] at shows
  rw [shows, Scanner.c_string_whole terminated]
  exact List.take_of_length_le (by omega)

/-- The last value given for an attribute is the one that is stored. -/
theorem built_last (schema : Schema descs) (listed : desc ∈ descs)
    {front back : List (AttrInfo × Memory)} {entry : AttrInfo × Memory}
    (named : cString entry.1.attrName = desc.attrName) (value : entry.1.attrValue = some text)
    (others : ∀ other ∈ back, cString other.1.attrName ≠ desc.attrName) (data : Memory) :
    desc.bytes (builtRecord descs data (front ++ entry :: back)) = desc.given entry.2 text := by
  rw [builtRecord, schema.bytes_record listed, List.foldl_append, List.foldl_cons,
    placed_elsewhere schema listed others]
  exact place_value_here schema listed named value _

/-- A tuple that shows the literal passes the filter of `= literal`. -/
theorem literal_matches (terminated : 0 ∉ text) (room : (text.length : Int) ≤ desc.attrLen)
    (fits : desc.Fits rec) (shown : cString (desc.bytes rec) = text) :
    ScanFilter.matchRec (some (desc.predicate .STRING .EQ text)) rec = true := by
  obtain ⟨lower, size, upper⟩ := fits
  have cut : cString ((text ++ [0]).take desc.attrLen.toNat) = text := by
    rw [c_string_terminated text [] desc.attrLen.toNat, Scanner.c_string_whole terminated]
    exact List.take_of_length_le (by omega)
  have same := (strncmp_cut rec (text ++ [0]) desc.attrOffset.toNat desc.attrLen.toNat
    (by omega)).2
  rw [cut] at same
  unfold ScanFilter.matchRec
  dsimp only [AttrDesc.predicate, literalBytes]
  rw [if_neg (by omega)]
  simp only [ScanFilter.diff, ScanFilter.opHolds, decide_eq_true_eq]
  exact same.mpr shown

end Tuple

/-- Every string without a terminator inside is returned as it was inserted. -/
theorem returns_tuple {text : Text} (terminated : 0 ∉ text) : ReturnsTuple text := by
  intro w w₁ before after mem tmpRid data front back entry sameRelation sameDesc room named value
    others run flag
  obtain ⟨status, same, _, _, added, _⟩ := (before.storage.insert_query before.owned before.catalog
    before.sized before.source.toStores before.source.name rfl before.schema mem tmpRid data
    (front ++ entry :: back)).result run flag
  cases same
  obtain ⟨lf', chain', changed, stores', appended⟩ := added rfl
  -- the relation as the selection finds it
  have logical := after.source.logical
  rw [sameRelation, stores'.logical] at logical
  cases logical
  have chained := stores'.formed.unique after.source.formed
  subst chained
  obtain ⟨type, proper⟩ := before.schema.proper before.desc before.listed
  set rec := builtRecord (AttrCatalog.describe (before.cat.tuples before.catChain) before.relation)
    data (front ++ entry :: back)
  have member : rec ∈ after.lf.tuples after.chain := by
    apply appended.perm.mem_iff.mpr
    simp
  have shown : cString (before.desc.bytes rec) = text := by
    rw [built_last before.schema before.listed named value others data]
    exact literal_shown terminated room before.code (given_shows proper entry.2 text)
  refine ⟨rec, member, shown, ?_⟩
  intro query mem' tmpRid' succeeds
  rw [← sameDesc] at shown room
  have passes := literal_matches terminated room
    (after.source.conforms rec member after.desc after.listed) shown
  have decides : Decides (after.cat.tuples after.catChain) after.relation
      (some { queryAttr after.relation after.desc.attrName with
        attrType := Datatype.STRING.code, attrValue := some text }) .EQ text
      (some (after.desc.predicate .STRING .EQ text)) :=
    ⟨rfl, after.named, after.desc, .STRING, after.schema.lookup_listed after.listed, after.code,
      rfl⟩
  obtain ⟨w₂, out', outChain', selected, _, _, _, stores₂, appended₂, _⟩ :=
    select_filters_then_projects after.storage after.owned after.catalog after.sized after.source
      query.target query.resultNamed query.different query.nonempty query.own query.resolves
      query.width decides mem' tmpRid' succeeds
  refine ⟨w₂, out', outChain', selected, stores₂, ?_⟩
  apply appended₂.perm.mem_iff.mpr
  apply List.mem_append_right
  exact List.mem_map_of_mem (List.mem_filter.mpr ⟨member, passes⟩)

theorem ins_attrs_short {attrlist : NODE} {i : Nat} {attrs : List (Text × Value)}
    (accepted : insAttrs attrlist i = .ok (some attrs)) :
    ∀ attr ∈ attrs, attr.2.type = .STRING → attr.2.len ≤ MAXSTRINGLEN := by
  induction attrlist generalizing i attrs with
  | NULL =>
      simp only [insAttrs] at accepted
      split at accepted
      · cases accepted
      · cases accepted
        simp
  | LIST self next _ ih =>
      simp only [insAttrs] at accepted
      split at accepted
      · cases accepted
      · cases read : self.asATTRVAL with
        | error fault =>
            rw [read] at accepted
            cases accepted
        | ok pair =>
            rw [read] at accepted
            dsimp only [bind, Except.bind] at accepted
            cases valued : pair.2.asVALUE with
            | error fault =>
                rw [valued] at accepted
                cases accepted
            | ok value =>
                rw [valued] at accepted
                dsimp only at accepted
                split at accepted
                · cases accepted
                · rename_i short
                  rcases rest : insAttrs next (i + 1) with fault | _ | later
                  · rw [rest] at accepted
                    cases accepted
                  · rw [rest] at accepted
                    cases accepted
                  · rw [rest] at accepted
                    cases accepted
                    rw [List.forall_mem_cons]
                    refine ⟨fun string => ?_, ih rest⟩
                    by_contra long
                    exact short ⟨string, Nat.lt_of_not_le long⟩
  | _ =>
      simp only [insAttrs] at accepted
      split at accepted <;> cases accepted

theorem string_text (sval : Text) : (Value.STRING sval).text = sval.take 254 := rfl

section Pool

variable {scanner scanner' scanner'' : Scanner} {lit : Text} {address : Nat} {later : List Text}

/-- The literal in the pool, once the whole statement has been scanned. -/
theorem qstring_scanned (terminated : 0 ∉ lit)
    (made : scanner.get_qstring (34 :: lit ++ [34]) (lit.length + 2) = some (address, scanner'))
    (scanned : scanner'.scanAll later = some scanner'') : scanner''.string address = lit := by
  rw [Scanner.get_qstring_eq] at made
  have read : cString (lit ++ [0]) = lit := Scanner.c_string_ended lit [] terminated
  have keeps := Scanner.mk_string_keeps read made
  exact (keeps.scan_all later scanned).string terminated

end Pool

/-- A literal survives the front end exactly if it is shorter than what the insert takes and the
pool has room for it. -/
theorem literal_survives_iff (scanner : Scanner) (lit : Text) (terminated : 0 ∉ lit) :
    LiteralSurvives scanner lit ↔ (lit.length ≤ MAXSTRINGLEN →
      lit.length < MAXSTRINGLEN ∧ scanner.charptr + (lit.length + 1) ≤ Scanner.MAXCHAR) := by
  constructor
  · intro survives short
    obtain ⟨address, scanner', made, same⟩ := survives.extracted short
    have text := same [] scanner' rfl
    have scanned : scanner'.scanAll [] = some scanner' := rfl
    rw [qstring_scanned terminated made scanned, string_text] at text
    rw [Scanner.get_qstring_eq] at made
    refine ⟨?_, (Scanner.mk_string_some made).2.1⟩
    have length := congrArg List.length text
    rw [List.length_take] at length
    unfold MAXSTRINGLEN at short ⊢
    omega
  · intro room
    refine ⟨fun short => ?_, fun _ => returns_tuple terminated, ?_⟩
    · obtain ⟨strict, fits⟩ := room short
      obtain ⟨scanner', made⟩ := scanner.mk_string_room (lit ++ [0]) fits
      rw [← Scanner.get_qstring_eq] at made
      refine ⟨scanner.charptr, scanner', made, ?_⟩
      intro later scanner'' scanned
      rw [qstring_scanned terminated made scanned, string_text]
      unfold MAXSTRINGLEN at strict
      exact List.take_of_length_le (by omega)
    · intro long address scanner' later scanner'' made scanned attrlist attrs accepted name member
      rw [qstring_scanned terminated made scanned] at member
      exact absurd (ins_attrs_short accepted _ member rfl) (Nat.not_le.mpr long)

theorem literal_survives_two : LiteralSurvives ⟨fun _ => 0, 0⟩ [120, 121] :=
  (literal_survives_iff _ _ (by decide)).mpr fun _ => by decide

/-- 255 times `a` are accepted, and 254 come out. -/
theorem longest_literal_is_cut :
    ¬LiteralSurvives ⟨fun _ => 0, 0⟩ (List.replicate 255 97) := by
  intro survives
  have short : (List.replicate 255 (97 : Byte)).length ≤ MAXSTRINGLEN := by
    rw [List.length_replicate]
    exact Nat.le_refl _
  obtain ⟨address, scanner', made, same⟩ := survives.extracted short
  have terminated : (0 : Byte) ∉ List.replicate 255 (97 : Byte) := by
    intro member
    cases List.eq_of_mem_replicate member
  have text := same [] scanner' rfl
  have scanned : scanner'.scanAll [] = some scanner' := rfl
  rw [qstring_scanned terminated made scanned, string_text] at text
  have length := congrArg List.length text
  rw [List.length_take, List.length_replicate] at length
  cases length

end PrimitiveDB

import PrimitiveDB.JoinStatements
import PrimitiveDB.CatalogUpdates

/-!
# The columns of a join

A join may project two attributes of one name, so the interpreter numbers the second one before
it creates the result. The name is compared with the columns before it and the numbered form is
not: it can meet a column that is there already, by itself or because it was cut to fit.
-/

namespace PrimitiveDB

open ByteMemory DbM

set_option autoImplicit false

/-- `snprintf(.., MAXNAME, "%s_%d", name, counter)` -/
def numbered (name : Text) (counter : Int) : Text :=
  (name ++ [95] ++ Literal.printInt counter).take (MAXNAME - 1)

def NumbersFree : List Text → List Text → Int → Prop
  | _, [], _ => True
  | taken, name :: names, counter =>
      if taken.contains name then
        numbered name counter ∉ taken ∧
          NumbersFree (taken ++ [numbered name counter]) names (counter + 1)
      else NumbersFree (taken ++ [name]) names counter

instance decidableNumbersFree (taken names : List Text) (counter : Int) :
    Decidable (NumbersFree taken names counter) :=
  match names with
  | [] => .isTrue trivial
  | name :: names =>
      have : Decidable (NumbersFree (taken ++ [numbered name counter]) names (counter + 1)) :=
        decidableNumbersFree _ names _
      have : Decidable (NumbersFree (taken ++ [name]) names counter) :=
        decidableNumbersFree _ names _
      inferInstanceAs (Decidable (ite _ _ _))

/-- The columns can be created: distinct names that fit, and no `DUPLATTR` whatever relations
there are. -/
structure ColumnsAccepted (resultName : FileName) (infos : List AttrInfo) : Prop where
  distinct : (infos.map AttrInfo.attrName).Nodup
  short : ∀ info ∈ infos, info.attrName.length < MAXNAME
  accepted : ∀ relTuples, RelCatalog.refusal relTuples resultName infos ≠ some .DUPLATTR

/-- The names of the columns behind those that are `taken`. -/
def columnNames : List Text → List Text → Int → List Text
  | _, [], _ => []
  | taken, name :: names, counter =>
      if taken.contains name then
        numbered name counter ::
          columnNames (taken ++ [numbered name counter]) names (counter + 1)
      else name :: columnNames (taken ++ [name]) names counter

theorem result_attr_name_eq (done : List AttrInfo) (name : Text) (counter : Int) :
    resultAttrName true done name counter =
      if name ∈ done.map AttrInfo.attrName then (numbered name counter, counter + 1)
      else (name, counter) := by
  unfold resultAttrName numbered
  simp only [true_and]

theorem create_attr_info_names {calls : Calls DbM} {resultName : FileName}
    {attrs done infos : List AttrInfo} {counter counter' : Int} {w w' : World}
    (run : createAttrInfo calls resultName true attrs done counter w =
      (.ok (some infos, counter'), w')) :
    infos.map AttrInfo.attrName = done.map AttrInfo.attrName ++
      columnNames (done.map AttrInfo.attrName) (attrs.map AttrInfo.attrName) counter := by
  induction attrs generalizing done counter w with
  | nil =>
      cases run
      simp [columnNames]
  | cons attr attrs ih =>
      unfold createAttrInfo at run
      rw [result_attr_name_eq] at run
      dsimp only at run
      obtain ⟨found, w₁, _, later⟩ := DbM.bind_eq_ok_iff.mp run
      cases found with
      | error status => cases later
      | ok desc =>
          have named := ih later
          rw [List.map_cons, columnNames]
          simp only [List.contains_iff_mem]
          by_cases taken : attr.attrName ∈ done.map AttrInfo.attrName
          · simp only [if_pos taken, List.map_append, List.map_cons, List.map_nil] at named ⊢
            rw [named, List.append_assoc, List.singleton_append]
          · simp only [if_neg taken, List.map_append, List.map_cons, List.map_nil] at named ⊢
            rw [named, List.append_assoc, List.singleton_append]

theorem nodup_add_column {taken : List Text} {name : Text} (distinct : taken.Nodup)
    (fresh : name ∉ taken) : (taken ++ [name]).Nodup := by
  rw [← List.concat_eq_append]
  exact distinct.concat fresh

/-- The columns are distinct exactly if no numbered form meets a column. -/
theorem column_names_nodup_iff {taken : List Text} (distinct : taken.Nodup) (names : List Text)
    (counter : Int) :
    (taken ++ columnNames taken names counter).Nodup ↔ NumbersFree taken names counter := by
  induction names generalizing taken counter with
  | nil => simp [columnNames, NumbersFree, distinct]
  | cons name names ih =>
      rw [columnNames, NumbersFree]
      simp only [List.contains_iff_mem]
      by_cases used : name ∈ taken
      · rw [if_pos used, if_pos used]
        by_cases met : numbered name counter ∈ taken
        · apply iff_of_false
          · intro all
            exact List.disjoint_of_nodup_append all met List.mem_cons_self
          · intro free
            exact free.1 met
        · rw [← List.singleton_append, ← List.append_assoc, ih (nodup_add_column distinct met)]
          simp [met]
      · rw [if_neg used, if_neg used, ← List.singleton_append, ← List.append_assoc,
          ih (nodup_add_column distinct used)]

theorem decimal_terminated (value : Nat) : 0 ∉ Literal.decimal value := by
  intro member
  obtain ⟨char, digit, zero⟩ := List.mem_map.mp member
  have isDigit := Nat.isDigit_of_mem_toDigits (by decide) (by decide) digit
  have bounds : 48 ≤ char.toNat ∧ char.toNat ≤ 57 := by
    simpa [Char.isDigit, UInt32.le_iff_toNat_le] using isDigit
  have value := congrArg Fin.val zero
  simp only [byteOf, Fin.val_zero] at value
  omega

theorem print_int_terminated (value : Int) : 0 ∉ Literal.printInt value := by
  unfold Literal.printInt
  split
  · intro member
    rcases List.mem_cons.mp member with minus | digit
    · cases minus
    · exact decimal_terminated _ digit
  · exact decimal_terminated _

theorem numbered_proper {name : Text} (proper : ProperName name) (counter : Int) :
    ProperName (numbered name counter) where
  nonempty := by
    have behind := List.length_pos_of_ne_nil proper.nonempty
    apply List.ne_nil_of_length_pos
    simp only [numbered, List.length_take, List.length_append]
    unfold MAXNAME
    omega
  terminated := by
    intro member
    have inside := List.mem_of_mem_take member
    simp only [List.mem_append, List.mem_singleton] at inside
    rcases inside with (named | underscore) | digit
    · exact proper.terminated named
    · cases underscore
    · exact print_int_terminated counter digit
  short := by
    have cut := List.length_take_le (MAXNAME - 1) (name ++ [95] ++ Literal.printInt counter)
    unfold numbered MAXNAME at *
    omega

theorem column_names_proper {names : List Text} (proper : ∀ name ∈ names, ProperName name)
    (taken : List Text) (counter : Int) :
    ∀ name ∈ columnNames taken names counter, ProperName name := by
  induction names generalizing taken counter with
  | nil => simp [columnNames]
  | cons name names ih =>
      have first := proper name List.mem_cons_self
      have rest := ih fun other member => proper other (List.mem_cons_of_mem _ member)
      rw [columnNames]
      split
      · rw [List.forall_mem_cons]
        exact ⟨numbered_proper first counter, rest _ _⟩
      · rw [List.forall_mem_cons]
        exact ⟨first, rest _ _⟩

theorem c_string_of_proper {name : Text} (proper : ProperName name) : cString name = name := by
  apply List.takeWhile_eq_self_iff.mpr
  intro byte member
  simp only [ne_eq, decide_not, Bool.not_eq_true', decide_eq_false_iff_not]
  rintro rfl
  exact proper.terminated member

theorem columns_accepted_iff {resultName : FileName} {infos : List AttrInfo}
    (proper : ∀ name ∈ infos.map AttrInfo.attrName, ProperName name) :
    ColumnsAccepted resultName infos ↔ (infos.map AttrInfo.attrName).Nodup := by
  have read : (infos.map fun attr => cString attr.attrName) = infos.map AttrInfo.attrName := by
    apply List.map_congr_left
    intro info member
    exact c_string_of_proper (proper _ (List.mem_map_of_mem member))
  constructor
  · intro accepted
    exact accepted.distinct
  · intro distinct
    refine ⟨distinct, fun info member => (proper _ (List.mem_map_of_mem member)).short, ?_⟩
    intro relTuples
    unfold RelCatalog.refusal
    rw [read, if_neg (not_not.mpr distinct)]
    split_ifs <;> simp

/-- The columns that a join creates are accepted exactly if every name that is taken when its
turn comes has a numbered form that is free. -/
theorem join_columns_accepted_iff (calls : Calls DbM) (resultName : FileName)
    (attrList infos : List AttrInfo) (counter counter' : Int) (w w' : World)
    (proper : ∀ attr ∈ attrList, ProperName attr.attrName)
    (run : createAttrInfo calls resultName true attrList [] counter w =
      (.ok (some infos, counter'), w')) :
    ColumnsAccepted resultName infos ↔
      NumbersFree [] (attrList.map AttrInfo.attrName) counter := by
  have named := create_attr_info_names run
  have properNames : ∀ name ∈ attrList.map AttrInfo.attrName, ProperName name :=
    List.forall_mem_map.mpr proper
  have properColumns : ∀ name ∈ infos.map AttrInfo.attrName, ProperName name := by
    rw [named]
    exact column_names_proper properNames [] counter
  rw [columns_accepted_iff properColumns, named]
  exact column_names_nodup_iff List.nodup_nil _ counter

def attrSA0 : AttrDesc :=
  { relName := [115], attrName := [97, 95, 48], attrOffset := 0
    attrType := Datatype.INTEGER.code, attrLen := 4 }

def numberedStart : World :=
  databaseOf 8 [(ATTRCATNAME, (sampleAttrs ++ [attrSA0]).map AttrDesc.toRecord)]

def columnsMade (attrList : List AttrInfo) : DbM (Option (List Text)) := do
  let made ← createAttrInfo sampleCalls [113] true attrList [] 0
  pure (made.1.map fun infos => infos.map AttrInfo.attrName)

theorem made_of_columns {attrList : List AttrInfo} {names : List Text}
    (made : (columnsMade attrList numberedStart).1 = .ok (some names)) :
    ∃ infos counter' w', createAttrInfo sampleCalls [113] true attrList [] 0 numberedStart =
        (.ok (some infos, counter'), w') ∧ infos.map AttrInfo.attrName = names := by
  rcases whole : columnsMade attrList numberedStart with ⟨outcome, w'⟩
  rw [whole] at made
  dsimp only at made
  subst made
  obtain ⟨⟨infos, counter'⟩, w₁, run, later⟩ := DbM.bind_eq_ok_iff.mp whole
  cases infos with
  | none => cases later
  | some infos =>
      cases later
      exact ⟨infos, counter', w', run, rfl⟩

/-- `r.a`, `r.b`, `s.a`: the third column becomes `a_0`. -/
theorem join_columns_accepted_three :
    ∃ infos counter' w', createAttrInfo sampleCalls [113] true
        [queryAttr [114] [97], queryAttr [114] [98], queryAttr [115] [97]] [] 0 numberedStart =
        (.ok (some infos, counter'), w') ∧ ColumnsAccepted [113] infos := by
  obtain ⟨infos, counter', w', run, _⟩ := made_of_columns
    (by decide +kernel : (columnsMade
      [queryAttr [114] [97], queryAttr [114] [98], queryAttr [115] [97]] numberedStart).1 =
        .ok (some [[97], [98], [97, 95, 48]]))
  refine ⟨infos, counter', w', run, ?_⟩
  apply (join_columns_accepted_iff _ _ _ _ _ _ _ _ _ run).mpr
  · decide
  · intro attr member
    simp only [List.mem_cons, List.not_mem_nil, or_false] at member
    rcases member with rfl | rfl | rfl <;> exact ⟨by decide, by decide, by decide⟩

/-- `r.a`, `s.a_0`, `r.a`: the third column becomes `a_0` as well. -/
theorem numbered_column_meets_another :
    ∃ infos counter' w', createAttrInfo sampleCalls [113] true
        [queryAttr [114] [97], queryAttr [115] [97, 95, 48], queryAttr [114] [97]] [] 0
        numberedStart = (.ok (some infos, counter'), w') ∧ ¬ColumnsAccepted [113] infos ∧
      RelCatalog.refusal [] [113] infos = some .DUPLATTR := by
  obtain ⟨infos, counter', w', run, named⟩ := made_of_columns
    (by decide +kernel : (columnsMade
      [queryAttr [114] [97], queryAttr [115] [97, 95, 48], queryAttr [114] [97]]
      numberedStart).1 = .ok (some [[97], [97, 95, 48], [97, 95, 48]]))
  refine ⟨infos, counter', w', run, ?_, ?_⟩
  · intro accepted
    have distinct := accepted.distinct
    rw [named] at distinct
    revert distinct
    decide
  · have read : (infos.map fun attr => cString attr.attrName) =
        (infos.map AttrInfo.attrName).map cString := by simp
    have length : infos.length = 3 := by
      rw [← List.length_map AttrInfo.attrName, named]
      rfl
    unfold RelCatalog.refusal
    rw [read, named, length, if_neg (by decide), if_neg (by decide), if_neg (by simp),
      if_pos (by decide)]

end PrimitiveDB

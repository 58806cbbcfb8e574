import PrimitiveDB.Scanner
import PrimitiveDB.InsertAccesses

/-!
# The names that the interpreter copies

`interp` copies the names of relations and attributes into fields of `MAXNAME` characters with
`strcpy`, and the first function to look at the length of a name is `createRel`, behind the
copies. Here the functions of the interpreter that copy names also return the names, in the order
of the copies; without them they are the functions of `Interpreter`.
-/

namespace PrimitiveDB

open ByteMemory Grammar

set_option autoImplicit false

section Copied

variable (calls : Calls DbM)

def createAttrInfoCopied (resultName : FileName) (rename : Bool) :
    List AttrInfo → List AttrInfo → Int → DbM ((Option (List AttrInfo) × Int) × List Text)
  | [], done, counter => pure ((some done, counter), [])
  | attr :: attrs, done, counter => do
      let (attrName, counter) := resultAttrName rename done attr.attrName counter
      match ← calls.attrGetInfo attr.relName attr.attrName with
      | .error _ => pure ((none, counter), [resultName, attr.attrName])
      | .ok desc => do
          let made ← createAttrInfoCopied resultName rename attrs (done ++
            [{ relName := resultName, attrName, attrType := desc.attrType, attrLen := desc.attrLen
               attrValue := none }]) counter
          pure (made.1, resultName :: attr.attrName :: made.2)

def prepareResultCopied (resultName : FileName) (existing : Option (List AttrDesc)) (rename : Bool)
    (attrList : List AttrInfo) (counter : Int) : DbM ((Bool × Int) × List Text) := do
  match existing with
  | none => do
      let made ← createAttrInfoCopied calls resultName rename attrList [] counter
      match made.1 with
      | (none, counter) => pure ((false, counter), made.2)
      | (some infos, counter) => do
          let status ← calls.createRel resultName infos
          pure ((status = .OK, counter), made.2)
  | some attrs =>
      if attrList.length ≠ attrs.length then pure ((false, counter), [])
      else do
        let fits ← typesMatch calls attrList attrs
        pure ((fits, counter), [])

def copiedAttrs (attrs : List (Text × Text)) : List Text :=
  attrs.flatMap fun attr => [attr.1, attr.2]

def interpSelectCopied (resultName : FileName) (existing : Option (List AttrDesc))
    (attrlist : NODE) (cond : Option (NODE × Operator × NODE)) (counter : Int) :
    ExceptT Fault DbM (Int × List Text) := do
  let relname ← (match cond with
    | none => pure none
    | some (selattr, _, _) => reading selattr.qualattrRelname : ExceptT Fault DbM (Option Text))
  match ← mk_attrnames calls attrlist relname with
  | none => pure (counter, [])
  | some (names, relname) => do
      let relName ← reading (readString relname)
      let attrList := names.map (queryAttr relName)
      let filter ← (match cond with
        | none => pure ((none, .LT, []), [])
        | some (selattr, op, value) => do
            let attrname ← reading selattr.qualattrAttrname
            let value ← reading value.asVALUE
            pure ((some { queryAttr relName attrname with
              attrType := value.type.code, attrValue := some value.text }, op, value.text),
              [relName, attrname])
        : ExceptT Fault DbM ((Option AttrInfo × Operator × Text) × List Text))
      let (attr, op, text) := filter.1
      let made ← calling (prepareResultCopied calls resultName existing false attrList counter)
      let copied := copiedAttrs (names.map fun name => (relName, name)) ++ filter.2 ++ made.2
      let (ready, counter) := made.1
      if ready then do
        let _ ← calling (calls.QU_Select resultName attrList attr op text)
        calling (finishQuery calls resultName)
        pure (counter, copied)
      else pure (counter, copied)

def interpJoinCopied (resultName : FileName) (existing : Option (List AttrDesc))
    (attrlist joinattr1 : NODE) (op : Operator) (joinattr2 : NODE) (counter : Int) :
    ExceptT Fault DbM (Int × List Text) := do
  let relname1 ← reading joinattr1.qualattrRelname
  let relname2 ← reading joinattr2.qualattrRelname
  match ← reading (qualAttrs relname1 relname2 attrlist 0) with
  | none => pure (counter, [])
  | some attrs => do
      let attrList := attrs.map fun attr => queryAttr attr.1 attr.2
      let attr1 := queryAttr (← reading (readString relname1))
        (← reading joinattr1.qualattrAttrname)
      let attr2 := queryAttr (← reading (readString relname2))
        (← reading joinattr2.qualattrAttrname)
      let made ← calling (prepareResultCopied calls resultName existing true attrList counter)
      let copied := copiedAttrs attrs ++
        [attr1.relName, attr1.attrName, attr2.relName, attr2.attrName] ++ made.2
      let (ready, counter) := made.1
      if ready then do
        let _ ← calling (calls.QU_Join resultName attrList attr1 op attr2)
        calling (finishQuery calls resultName)
        pure (counter, copied)
      else pure (counter, copied)

def interpQueryCopied (relname : Option Text) (attrlist qual : NODE) (counter : Int) :
    ExceptT Fault DbM (Int × List Text) := do
  match ← calling (resultRelation calls relname) with
  | none => pure (counter, [])
  | some (resultName, existing) =>
      if ¬qual.isNode then interpSelectCopied calls resultName existing attrlist none counter
      else if (← reading qual.kind) = .N_SELECT then do
        let cond ← reading qual.asSELECT
        interpSelectCopied calls resultName existing attrlist (some cond) counter
      else do
        let (joinattr1, op, joinattr2) ← reading qual.asJOIN
        interpJoinCopied calls resultName existing attrlist joinattr1 op joinattr2 counter

def interpInsertCopied (relname : Text) (attrlist : NODE) :
    ExceptT Fault DbM (Unit × List Text) := do
  match ← reading (insAttrs attrlist 0) with
  | none => pure ((), [])
  | some attrs => do
      let attrList := attrs.map fun attr =>
        { queryAttr relname attr.1 with
          attrType := attr.2.type.code, attrValue := some attr.2.text }
      let _ ← calling (calls.QU_Insert relname attrList)
      pure ((), copiedAttrs (attrs.map fun attr => (relname, attr.1)))

def interpCreateCopied (relname : Text) (attrlist primattr : NODE) :
    ExceptT Fault DbM (Unit × List Text) := do
  match ← reading (attrDescrs attrlist 0) with
  | none => pure ((), [])
  | some descrs => do
      if primattr.isNode then do
        let _ ← reading primattr.asPRIMATTR
      let attrList := descrs.map fun descr =>
        { relName := relname, attrName := descr.1, attrType := descr.2.1.code
          attrLen := descr.2.2, attrValue := none }
      let _ ← calling (calls.createRel relname attrList)
      pure ((), copiedAttrs (descrs.map fun descr => (relname, descr.1)))

/-- `interp` with the names it copies. The other statements hand their names on as they are. -/
def interpCopied (counter : Int) : NODE → ExceptT Fault DbM (Int × List Text)
  | .QUERY relname attrlist qual => interpQueryCopied calls relname attrlist qual counter
  | .INSERT relname attrlist => do
      let made ← interpInsertCopied calls relname attrlist
      pure (counter, made.2)
  | .CREATE relname attrlist primattr => do
      let made ← interpCreateCopied calls relname attrlist primattr
      pure (counter, made.2)
  | other => do
      let counter ← interp calls counter other
      pure (counter, [])

end Copied

section Forget

variable (calls : Calls DbM)

theorem create_attr_info_forget (resultName : FileName) (rename : Bool)
    (attrs done : List AttrInfo) (counter : Int) :
    forget (createAttrInfoCopied calls resultName rename attrs done counter) =
      createAttrInfo calls resultName rename attrs done counter := by
  induction attrs generalizing done counter with
  | nil => rfl
  | cons attr attrs ih =>
      unfold createAttrInfoCopied createAttrInfo
      dsimp only
      rw [forget_bind]
      apply bind_congr
      intro found
      cases found with
      | error _ => rfl
      | ok desc =>
          dsimp only
          rw [forget_bind, ← ih]
          rfl

theorem prepare_result_forget (resultName : FileName) (existing : Option (List AttrDesc))
    (rename : Bool) (attrList : List AttrInfo) (counter : Int) :
    forget (prepareResultCopied calls resultName existing rename attrList counter) =
      prepareResult calls resultName existing rename attrList counter := by
  unfold prepareResultCopied prepareResult
  cases existing with
  | none =>
      dsimp only
      rw [forget_bind, ← create_attr_info_forget, ← bind_forget]
      apply bind_congr
      rintro ⟨⟨infos, counter'⟩, names⟩
      cases infos with
      | none => rfl
      | some infos =>
          dsimp only
          rw [forget_bind]
          rfl
  | some attrs =>
      dsimp only
      split
      · rfl
      · rw [forget_bind]
        rfl

theorem run_query_forget (ready : Bool) (query : DbM Status) (finish : DbM Unit) (counter : Int)
    (names : List Text) :
    forget (if ready then do
        let _ ← calling query
        calling finish
        pure (counter, names)
      else pure (counter, names) : ExceptT Fault DbM (Int × List Text)) =
      if ready then do
        let _ ← calling query
        calling finish
        pure counter
      else pure counter := by
  cases ready with
  | false => exact forget_pure _ _
  | true => simp only [if_true, forget_bind, forget_pure]

theorem interp_select_forget (resultName : FileName) (existing : Option (List AttrDesc))
    (attrlist : NODE) (cond : Option (NODE × Operator × NODE)) (counter : Int) :
    forget (interpSelectCopied calls resultName existing attrlist cond counter) =
      interpSelect calls resultName existing attrlist cond counter := by
  unfold interpSelectCopied interpSelect
  rw [forget_bind]
  apply bind_congr
  intro relname
  rw [forget_bind]
  apply bind_congr
  intro listed
  cases listed with
  | none => exact forget_pure _ _
  | some listed =>
      obtain ⟨names, relname⟩ := listed
      dsimp only
      rw [forget_bind]
      apply bind_congr
      intro relName
      cases cond with
      | none =>
          dsimp only
          rw [pure_bind, pure_bind, ← prepare_result_forget, ← calling_forget, forget_bind]
          apply bind_congr
          intro made
          exact run_query_forget _ _ _ _ _
      | some cond =>
          dsimp only
          simp only [bind_assoc, pure_bind]
          rw [forget_bind]
          apply bind_congr
          intro attrname
          rw [forget_bind]
          apply bind_congr
          intro value
          rw [← prepare_result_forget, ← calling_forget, forget_bind]
          apply bind_congr
          intro made
          exact run_query_forget _ _ _ _ _

theorem interp_join_forget (resultName : FileName) (existing : Option (List AttrDesc))
    (attrlist joinattr1 : NODE) (op : Operator) (joinattr2 : NODE) (counter : Int) :
    forget (interpJoinCopied calls resultName existing attrlist joinattr1 op joinattr2 counter) =
      interpJoin calls resultName existing attrlist joinattr1 op joinattr2 counter := by
  unfold interpJoinCopied interpJoin
  rw [forget_bind]
  apply bind_congr
  intro relname1
  rw [forget_bind]
  apply bind_congr
  intro relname2
  rw [forget_bind]
  apply bind_congr
  intro listed
  cases listed with
  | none => exact forget_pure _ _
  | some attrs =>
      dsimp only
      iterate 4
        rw [forget_bind]
        apply bind_congr
        intro _
      rw [← prepare_result_forget, ← calling_forget, forget_bind]
      apply bind_congr
      intro made
      exact run_query_forget _ _ _ _ _

theorem interp_query_forget (relname : Option Text) (attrlist qual : NODE) (counter : Int) :
    forget (interpQueryCopied calls relname attrlist qual counter) =
      interpQuery calls relname attrlist qual counter := by
  unfold interpQueryCopied interpQuery
  rw [forget_bind]
  apply bind_congr
  intro found
  cases found with
  | none => exact forget_pure _ _
  | some result =>
      obtain ⟨resultName, existing⟩ := result
      dsimp only
      split
      · exact interp_select_forget calls _ _ _ _ _
      · rw [forget_bind]
        apply bind_congr
        intro kind
        split
        · rw [forget_bind]
          apply bind_congr
          intro cond
          exact interp_select_forget calls _ _ _ _ _
        · rw [forget_bind]
          apply bind_congr
          intro cond
          exact interp_join_forget calls _ _ _ _ _ _ _

theorem interp_copied_forget (counter : Int) (tree : NODE) :
    forget (interpCopied calls counter tree) = interp calls counter tree := by
  cases tree with
  | QUERY relname attrlist qual => exact interp_query_forget calls relname attrlist qual counter
  | INSERT relname attrlist =>
      unfold interpCopied interp interpInsertCopied interpInsert
      simp only [forget_bind, forget_pure, bind_assoc]
      apply bind_congr
      intro listed
      cases listed with
      | none => rfl
      | some attrs => simp only [bind_assoc, pure_bind]
  | CREATE relname attrlist primattr =>
      unfold interpCopied interp interpCreateCopied interpCreate
      simp only [forget_bind, forget_pure, bind_assoc]
      apply bind_congr
      intro listed
      cases listed with
      | none => rfl
      | some descrs =>
          dsimp only
          split
          · simp only [bind_assoc, pure_bind]
          · simp only [bind_assoc, pure_bind]
  | _ => exact forget_keep _ _

end Forget

/-- `strcpy` writes the name and its terminator into a field of `MAXNAME` characters. -/
def Fits (name : Text) : Prop := name.length + 1 ≤ MAXNAME

def condRelation : Option (NODE × Operator × NODE) → Except Fault (Option Text)
  | none => .ok none
  | some cond => cond.1.qualattrRelname

/-- The names of a select that comes as far as its copies: the relation, the attributes, the
attribute of the condition, and the result if it is to be created. -/
def SelectFits (calls : Calls DbM) (w : World) (resultName : FileName)
    (existing : Option (List AttrDesc)) (attrlist : NODE)
    (cond : Option (NODE × Operator × NODE)) : Prop :=
  ∀ relname names relName w₁, condRelation cond = .ok relname →
    (mk_attrnames calls attrlist relname).run w = (.ok (.ok (some (names, some relName))), w₁) →
    (names ≠ [] → Fits relName) ∧ (∀ name ∈ names, Fits name) ∧
      (∀ selattr op value, cond = some (selattr, op, value) → Fits relName ∧
        ∀ attrname, selattr.qualattrAttrname = .ok attrname → Fits attrname) ∧
      (existing = none → names ≠ [] → Fits resultName)

def JoinFits (resultName : FileName) (existing : Option (List AttrDesc))
    (attrlist joinattr1 joinattr2 : NODE) : Prop :=
  ∀ relname1 relname2 attrname1 attrname2 attrs,
    joinattr1.qualattrRelname = .ok (some relname1) →
    joinattr2.qualattrRelname = .ok (some relname2) →
    joinattr1.qualattrAttrname = .ok attrname1 → joinattr2.qualattrAttrname = .ok attrname2 →
    qualAttrs (some relname1) (some relname2) attrlist 0 = .ok (some attrs) →
    (∀ attr ∈ attrs, Fits attr.1 ∧ Fits attr.2) ∧
      (Fits relname1 ∧ Fits attrname1 ∧ Fits relname2 ∧ Fits attrname2) ∧
      (existing = none → attrs ≠ [] → Fits resultName)

/-- The names that a statement copies are short enough, if it comes as far as copying them. -/
def NamesFit (calls : Calls DbM) (w : World) : NODE → Prop
  | .QUERY relname attrlist qual => ∀ resultName existing w₁,
      resultRelation calls relname w = (.ok (some (resultName, existing)), w₁) →
      (¬qual.isNode → SelectFits calls w₁ resultName existing attrlist none) ∧
        (∀ cond, qual.asSELECT = .ok cond →
          SelectFits calls w₁ resultName existing attrlist (some cond)) ∧
        (∀ joinattr1 op joinattr2, qual.asJOIN = .ok (joinattr1, op, joinattr2) →
          JoinFits resultName existing attrlist joinattr1 joinattr2)
  | .INSERT relname attrlist => ∀ attrs, insAttrs attrlist 0 = .ok (some attrs) →
      ∀ attr ∈ attrs, Fits relname ∧ Fits attr.1
  | .CREATE relname attrlist _ => ∀ descrs, attrDescrs attrlist 0 = .ok (some descrs) →
      ∀ descr ∈ descrs, Fits relname ∧ Fits descr.1
  | _ => True

section Runs

variable {α β : Type} {w w' : World}

theorem run_bind_ok {first : ExceptT Fault DbM α} {next : α → ExceptT Fault DbM β} {value : β} :
    (first >>= next).run w = (.ok (.ok value), w') ↔ ∃ middle w₁,
      first.run w = (.ok (.ok middle), w₁) ∧ (next middle).run w₁ = (.ok (.ok value), w') := by
  rw [ExceptT.run_bind, DbM.bind_eq_ok_iff]
  constructor
  · rintro ⟨result, w₁, here, later⟩
    cases result with
    | error fault => cases later
    | ok middle => exact ⟨middle, w₁, here, later⟩
  · rintro ⟨middle, w₁, here, later⟩
    exact ⟨.ok middle, w₁, here, later⟩

theorem run_reading_ok {read : Except Fault α} {value : α} :
    (reading read : ExceptT Fault DbM α).run w = (.ok (.ok value), w') ↔
      read = .ok value ∧ w' = w := by
  constructor
  · intro run
    cases run
    exact ⟨rfl, rfl⟩
  · rintro ⟨rfl, rfl⟩
    rfl

theorem run_calling_ok {call : DbM α} {value : α} :
    (calling call : ExceptT Fault DbM α).run w = (.ok (.ok value), w') ↔
      call w = (.ok value, w') := by
  unfold calling
  rw [ExceptT.run_lift]
  constructor
  · intro run
    obtain ⟨middle, w₁, here, later⟩ := DbM.bind_eq_ok_iff.mp run
    cases later
    exact here
  · intro run
    exact DbM.bind_eq_ok_iff.mpr ⟨value, w', run, rfl⟩

end Runs

section Copies

variable {calls : Calls DbM} {w w' : World} {copied : List Text}

theorem copied_attrs_fit_iff (attrs : List (Text × Text)) :
    (∀ name ∈ copiedAttrs attrs, Fits name) ↔ ∀ attr ∈ attrs, Fits attr.1 ∧ Fits attr.2 := by
  unfold copiedAttrs
  simp only [List.mem_flatMap, List.mem_cons, List.not_mem_nil, or_false]
  constructor
  · intro all attr member
    exact ⟨all attr.1 ⟨attr, member, .inl rfl⟩, all attr.2 ⟨attr, member, .inr rfl⟩⟩
  · rintro all name ⟨attr, member, rfl | rfl⟩
    · exact (all attr member).1
    · exact (all attr member).2

theorem create_attr_info_copies {resultName : FileName} {rename : Bool}
    {attrs done : List AttrInfo} {counter : Int} {made : Option (List AttrInfo) × Int}
    (run : createAttrInfoCopied calls resultName rename attrs done counter w =
      (.ok (made, copied), w')) :
    (∀ name ∈ copied, name = resultName ∨ ∃ attr ∈ attrs, name = attr.attrName) ∧
      (attrs ≠ [] → resultName ∈ copied) := by
  induction attrs generalizing done counter w made copied with
  | nil =>
      cases run
      simp
  | cons attr attrs ih =>
      unfold createAttrInfoCopied at run
      obtain ⟨found, w₁, _, later⟩ := DbM.bind_eq_ok_iff.mp run
      cases found with
      | error status =>
          cases later
          simp
      | ok desc =>
          obtain ⟨⟨rest, names⟩, w₂, loop, ended⟩ := DbM.bind_eq_ok_iff.mp later
          cases ended
          obtain ⟨known, _⟩ := ih loop
          refine ⟨?_, fun _ => List.mem_cons_self⟩
          intro name member
          rcases List.mem_cons.mp member with rfl | member
          · exact .inl rfl
          · rcases List.mem_cons.mp member with rfl | member
            · exact .inr ⟨attr, List.mem_cons_self, rfl⟩
            · exact (known name member).imp id fun ⟨other, listed, same⟩ =>
                ⟨other, List.mem_cons_of_mem _ listed, same⟩

/-- With the attributes, what the creation of the result copies is the name of the result. -/
theorem prepare_result_copies {resultName : FileName} {existing : Option (List AttrDesc)}
    {rename : Bool} {attrList : List AttrInfo} {counter : Int} {made : Bool × Int}
    (run : prepareResultCopied calls resultName existing rename attrList counter w =
      (.ok (made, copied), w')) (fit : ∀ attr ∈ attrList, Fits attr.attrName) :
    (∀ name ∈ copied, Fits name) ↔ (existing = none → attrList ≠ [] → Fits resultName) := by
  unfold prepareResultCopied at run
  cases existing with
  | none =>
      obtain ⟨⟨⟨infos, counter'⟩, names⟩, w₁, loop, later⟩ := DbM.bind_eq_ok_iff.mp run
      have same : names = copied := by
        cases infos with
        | none =>
            cases later
            rfl
        | some infos =>
            obtain ⟨status, w₂, _, ended⟩ := DbM.bind_eq_ok_iff.mp later
            cases ended
            rfl
      subst same
      obtain ⟨known, first⟩ := create_attr_info_copies loop
      constructor
      · intro all _ nonempty
        exact all resultName (first nonempty)
      · intro fits name member
        rcases known name member with rfl | ⟨attr, listed, rfl⟩
        · by_cases empty : attrList = []
          · subst empty
            cases loop
            cases member
          · exact fits rfl empty
        · exact fit attr listed
  | some attrs =>
      dsimp only at run
      have same : copied = [] := by
        split at run
        · cases run
          rfl
        · obtain ⟨fits, w₁, _, ended⟩ := DbM.bind_eq_ok_iff.mp run
          cases ended
          rfl
      subst same
      simp

/-- The end of a query leaves the names that were copied as they are. -/
theorem run_query_copied {ready : Bool} {query : DbM Status} {finish : DbM Unit}
    {counter counter' : Int} {names : List Text}
    (run : (if ready then do
        let _ ← calling query
        calling finish
        pure (counter, names)
      else pure (counter, names) : ExceptT Fault DbM (Int × List Text)).run w =
        (.ok (.ok (counter', copied)), w')) : names = copied := by
  cases ready with
  | false =>
      cases run
      rfl
  | true =>
      obtain ⟨_, w₁, _, later⟩ := run_bind_ok.mp run
      obtain ⟨_, w₂, _, ended⟩ := run_bind_ok.mp later
      cases ended
      rfl

theorem select_fits_iff {resultName : FileName} {existing : Option (List AttrDesc)}
    {attrlist : NODE} {cond : Option (NODE × Operator × NODE)} {relname : Option Text}
    {names : List Text} {relName : Text} {w₁ : World} (related : condRelation cond = .ok relname)
    (listed : (mk_attrnames calls attrlist relname).run w =
      (.ok (.ok (some (names, some relName))), w₁)) :
    SelectFits calls w resultName existing attrlist cond ↔
      (names ≠ [] → Fits relName) ∧ (∀ name ∈ names, Fits name) ∧
      (∀ selattr op value, cond = some (selattr, op, value) → Fits relName ∧
        ∀ attrname, selattr.qualattrAttrname = .ok attrname → Fits attrname) ∧
      (existing = none → names ≠ [] → Fits resultName) := by
  constructor
  · intro fits
    exact fits relname names relName w₁ related listed
  · intro fits relname' names' relName' w₂ related' listed'
    rw [related] at related'
    cases related'
    rw [listed] at listed'
    cases listed'
    exact fits

theorem one_relation_fits_iff (relName : Text) (names : List Text) :
    (∀ name ∈ copiedAttrs (names.map fun name => (relName, name)), Fits name) ↔
      (names ≠ [] → Fits relName) ∧ ∀ name ∈ names, Fits name := by
  rw [copied_attrs_fit_iff, List.forall_mem_map]
  constructor
  · intro all
    refine ⟨fun nonempty => ?_, fun name member => (all name member).2⟩
    obtain ⟨name, member⟩ := List.exists_mem_of_ne_nil names nonempty
    exact (all name member).1
  · rintro ⟨relation, all⟩ name member
    exact ⟨relation (List.ne_nil_of_mem member), all name member⟩

theorem interp_select_copies {resultName : FileName} {existing : Option (List AttrDesc)}
    {attrlist : NODE} {cond : Option (NODE × Operator × NODE)} {counter counter' : Int}
    (run : (interpSelectCopied calls resultName existing attrlist cond counter).run w =
      (.ok (.ok (counter', copied)), w')) :
    (∀ name ∈ copied, Fits name) ↔ SelectFits calls w resultName existing attrlist cond := by
  unfold interpSelectCopied at run
  obtain ⟨relname, w₁, related, afterRelation⟩ := run_bind_ok.mp run
  have relation : condRelation cond = .ok relname ∧ w₁ = w := by
    cases cond with
    | none =>
        cases related
        exact ⟨rfl, rfl⟩
    | some cond => exact run_reading_ok.mp related
  obtain ⟨looked, same⟩ := relation
  subst same
  obtain ⟨listing, w₂, listed, afterList⟩ := run_bind_ok.mp afterRelation
  rcases listing with _ | ⟨names, relname'⟩
  · cases afterList
    apply iff_of_true (by simp)
    intro relname' names relName w₃ looked' listed'
    rw [looked] at looked'
    cases looked'
    rw [listed] at listed'
    cases listed'
  obtain ⟨relName, w₃, read, afterRead⟩ := run_bind_ok.mp afterList
  obtain ⟨named, same⟩ := run_reading_ok.mp read
  subst same
  cases relname' with
  | none => cases named
  | some other =>
      cases named
      rw [select_fits_iff looked listed]
      obtain ⟨⟨filter, filterNames⟩, w₄, filtered, afterFilter⟩ := run_bind_ok.mp afterRead
      obtain ⟨⟨made, madeNames⟩, w₅, prepared, afterPrepare⟩ := run_bind_ok.mp afterFilter
      have whole := run_query_copied afterPrepare
      subst whole
      have condition : (∀ name ∈ filterNames, Fits name) ↔
          ∀ selattr op value, cond = some (selattr, op, value) → Fits relName ∧
            ∀ attrname, selattr.qualattrAttrname = .ok attrname → Fits attrname := by
        cases cond with
        | none =>
            cases filtered
            simp
        | some cond =>
            obtain ⟨selattr, op, value⟩ := cond
            obtain ⟨attrname, w₆, selected, afterName⟩ := run_bind_ok.mp filtered
            obtain ⟨selected, _⟩ := run_reading_ok.mp selected
            obtain ⟨literal, w₇, _, ended⟩ := run_bind_ok.mp afterName
            cases ended
            rw [List.forall_mem_cons, List.forall_mem_singleton]
            constructor
            · rintro fits _ _ _ ⟨⟩
              refine ⟨fits.1, fun other same => ?_⟩
              rw [selected] at same
              cases same
              exact fits.2
            · intro fits
              exact (fits selattr op value rfl).imp id fun all => all attrname selected
      rw [List.forall_mem_append, List.forall_mem_append, one_relation_fits_iff, condition]
      have created (all : ∀ name ∈ names, Fits name) :
          (∀ name ∈ madeNames, Fits name) ↔
            (existing = none → names ≠ [] → Fits resultName) := by
        rw [prepare_result_copies (run_calling_ok.mp prepared) (List.forall_mem_map.mpr all)]
        simp only [ne_eq, List.map_eq_nil_iff]
      constructor
      · rintro ⟨⟨⟨relation, all⟩, chosen⟩, result⟩
        exact ⟨relation, all, chosen, (created all).mp result⟩
      · rintro ⟨relation, all, chosen, result⟩
        exact ⟨⟨⟨relation, all⟩, chosen⟩, (created all).mpr result⟩

theorem interp_join_copies {resultName : FileName} {existing : Option (List AttrDesc)}
    {attrlist joinattr1 joinattr2 : NODE} {op : Operator} {counter counter' : Int}
    (run : (interpJoinCopied calls resultName existing attrlist joinattr1 op joinattr2 counter).run
      w = (.ok (.ok (counter', copied)), w')) :
    (∀ name ∈ copied, Fits name) ↔ JoinFits resultName existing attrlist joinattr1 joinattr2 := by
  unfold interpJoinCopied at run
  obtain ⟨first, w₁, readFirst, afterFirst⟩ := run_bind_ok.mp run
  obtain ⟨firstRead, _⟩ := run_reading_ok.mp readFirst
  obtain ⟨second, w₂, readSecond, afterSecond⟩ := run_bind_ok.mp afterFirst
  obtain ⟨secondRead, _⟩ := run_reading_ok.mp readSecond
  obtain ⟨listing, w₃, readList, afterList⟩ := run_bind_ok.mp afterSecond
  obtain ⟨listed, _⟩ := run_reading_ok.mp readList
  rcases listing with _ | attrs
  · cases afterList
    apply iff_of_true (by simp)
    intro relname1 relname2 attrname1 attrname2 attrs read1 read2 _ _ listed'
    rw [firstRead] at read1
    cases read1
    rw [secondRead] at read2
    cases read2
    rw [listed] at listed'
    cases listed'
  obtain ⟨relname1, w₄, readName, afterName⟩ := run_bind_ok.mp afterList
  obtain ⟨named1, _⟩ := run_reading_ok.mp readName
  obtain ⟨attrname1, w₅, readAttr, afterAttr⟩ := run_bind_ok.mp afterName
  obtain ⟨attr1, _⟩ := run_reading_ok.mp readAttr
  obtain ⟨relname2, w₆, readName2, afterName2⟩ := run_bind_ok.mp afterAttr
  obtain ⟨named2, _⟩ := run_reading_ok.mp readName2
  obtain ⟨attrname2, w₇, readAttr2, afterAttr2⟩ := run_bind_ok.mp afterName2
  obtain ⟨attr2, _⟩ := run_reading_ok.mp readAttr2
  obtain ⟨⟨made, madeNames⟩, w₈, prepared, afterPrepare⟩ := run_bind_ok.mp afterAttr2
  have whole := run_query_copied afterPrepare
  subst whole
  cases first with
  | none => cases named1
  | some _ =>
  cases second with
  | none => cases named2
  | some _ =>
  cases named1
  cases named2
  have instanced : JoinFits resultName existing attrlist joinattr1 joinattr2 ↔
      (∀ attr ∈ attrs, Fits attr.1 ∧ Fits attr.2) ∧
        (Fits relname1 ∧ Fits attrname1 ∧ Fits relname2 ∧ Fits attrname2) ∧
        (existing = none → attrs ≠ [] → Fits resultName) := by
    constructor
    · intro fits
      exact fits relname1 relname2 attrname1 attrname2 attrs firstRead secondRead attr1 attr2 listed
    · intro fits other1 other2 name1 name2 others read1 read2 at1 at2 list'
      rw [firstRead] at read1
      cases read1
      rw [secondRead] at read2
      cases read2
      rw [attr1] at at1
      cases at1
      rw [attr2] at at2
      cases at2
      rw [listed] at list'
      cases list'
      exact fits
  have created (all : ∀ attr ∈ attrs, Fits attr.1 ∧ Fits attr.2) :
      (∀ name ∈ madeNames, Fits name) ↔ (existing = none → attrs ≠ [] → Fits resultName) := by
    rw [prepare_result_copies (run_calling_ok.mp prepared)
      (List.forall_mem_map.mpr fun attr member => (all attr member).2)]
    simp only [ne_eq, List.map_eq_nil_iff]
  rw [instanced, List.forall_mem_append, List.forall_mem_append, copied_attrs_fit_iff]
  simp only [List.forall_mem_cons, List.not_mem_nil, false_implies, implies_true, and_true,
    queryAttr]
  constructor
  · rintro ⟨⟨all, joined⟩, result⟩
    exact ⟨all, joined, (created all).mp result⟩
  · rintro ⟨all, joined, result⟩
    exact ⟨⟨all, joined⟩, (created all).mpr result⟩

theorem interp_query_copies {relname : Option Text} {attrlist qual : NODE}
    {counter counter' : Int}
    (run : (interpQueryCopied calls relname attrlist qual counter).run w =
      (.ok (.ok (counter', copied)), w')) :
    (∀ name ∈ copied, Fits name) ↔ NamesFit calls w (.QUERY relname attrlist qual) := by
  unfold interpQueryCopied at run
  obtain ⟨found, w₁, looked, afterLook⟩ := run_bind_ok.mp run
  have called := run_calling_ok.mp looked
  rcases found with _ | ⟨resultName, existing⟩
  · cases afterLook
    apply iff_of_true (by simp)
    intro resultName existing w₂ called'
    rw [called] at called'
    cases called'
  have instanced : NamesFit calls w (.QUERY relname attrlist qual) ↔
      (¬qual.isNode → SelectFits calls w₁ resultName existing attrlist none) ∧
        (∀ cond, qual.asSELECT = .ok cond →
          SelectFits calls w₁ resultName existing attrlist (some cond)) ∧
        (∀ joinattr1 op joinattr2, qual.asJOIN = .ok (joinattr1, op, joinattr2) →
          JoinFits resultName existing attrlist joinattr1 joinattr2) := by
    constructor
    · intro fits
      exact fits resultName existing w₁ called
    · intro fits resultName' existing' w₂ called'
      rw [called] at called'
      cases called'
      exact fits
  rw [instanced]
  cases qual with
  | NULL =>
      have selected : (interpSelectCopied calls resultName existing attrlist none counter).run w₁ =
        (.ok (.ok (counter', copied)), w') := afterLook
      rw [interp_select_copies selected]
      constructor
      · intro fits
        refine ⟨fun _ => fits, fun cond wrong => ?_, fun _ _ _ wrong => ?_⟩
        · cases wrong
        · cases wrong
      · intro fits
        exact fits.1 (by decide)
  | SELECT selattr op value =>
      have selected : (interpSelectCopied calls resultName existing attrlist
        (some (selattr, op, value)) counter).run w₁ = (.ok (.ok (counter', copied)), w') := afterLook
      rw [interp_select_copies selected]
      constructor
      · intro fits
        refine ⟨fun wrong => absurd rfl wrong, fun cond same => ?_, fun _ _ _ wrong => ?_⟩
        · cases same
          exact fits
        · cases wrong
      · intro fits
        exact fits.2.1 _ rfl
  | JOIN joinattr1 op joinattr2 =>
      have joined : (interpJoinCopied calls resultName existing attrlist joinattr1 op joinattr2
        counter).run w₁ = (.ok (.ok (counter', copied)), w') := afterLook
      rw [interp_join_copies joined]
      constructor
      · intro fits
        refine ⟨fun wrong => absurd rfl wrong, fun cond wrong => ?_, fun _ _ _ same => ?_⟩
        · cases wrong
        · cases same
          exact fits
      · intro fits
        exact fits.2.2 _ _ _ rfl
  | _ =>
      -- any other node is taken for a join, and faults
      obtain ⟨kind, w₂, kinded, afterKind⟩ := run_bind_ok.mp afterLook
      cases kinded
      cases afterKind

theorem interp_copied_fits_iff {counter counter' : Int} {tree : NODE}
    (run : (interpCopied calls counter tree).run w = (.ok (.ok (counter', copied)), w')) :
    (∀ name ∈ copied, Fits name) ↔ NamesFit calls w tree := by
  cases tree with
  | QUERY relname attrlist qual => exact interp_query_copies run
  | INSERT relname attrlist =>
      obtain ⟨⟨_, names⟩, w₁, inserted, ended⟩ := run_bind_ok.mp run
      cases ended
      obtain ⟨listing, w₂, readList, afterList⟩ := run_bind_ok.mp inserted
      obtain ⟨listed, _⟩ := run_reading_ok.mp readList
      rcases listing with _ | attrs
      · cases afterList
        apply iff_of_true (by simp)
        intro attrs listed'
        rw [listed] at listed'
        cases listed'
      · obtain ⟨status, w₃, _, last⟩ := run_bind_ok.mp afterList
        cases last
        rw [copied_attrs_fit_iff, List.forall_mem_map]
        constructor
        · intro fits others listed'
          rw [listed] at listed'
          cases listed'
          exact fits
        · intro fits
          exact fits attrs listed
  | CREATE relname attrlist primattr =>
      obtain ⟨⟨_, names⟩, w₁, created, ended⟩ := run_bind_ok.mp run
      cases ended
      obtain ⟨listing, w₂, readList, afterList⟩ := run_bind_ok.mp created
      obtain ⟨listed, _⟩ := run_reading_ok.mp readList
      rcases listing with _ | descrs
      · cases afterList
        apply iff_of_true (by simp)
        intro descrs listed'
        rw [listed] at listed'
        cases listed'
      · have made : copiedAttrs (descrs.map fun descr => (relname, descr.1)) = names := by
          dsimp only at afterList
          split at afterList
          · obtain ⟨_, w₃, _, afterPrimary⟩ := run_bind_ok.mp afterList
            obtain ⟨status, w₄, _, last⟩ := run_bind_ok.mp afterPrimary
            cases last
            rfl
          · obtain ⟨status, w₄, _, last⟩ := run_bind_ok.mp afterList
            cases last
            rfl
        rw [← made, copied_attrs_fit_iff, List.forall_mem_map]
        constructor
        · intro fits others listed'
          rw [listed] at listed'
          cases listed'
          exact fits
        · intro fits
          exact fits descrs listed
  | _ =>
      obtain ⟨_, w₁, _, ended⟩ := run_bind_ok.mp run
      cases ended
      exact iff_of_true (by simp) trivial

end Copies

/-- The identifiers of a statement, as `get_id` is given them. -/
def identifiers (statement : Start) : List Text :=
  statement.tokens.filterMap fun token =>
    match token with
    | .T_STRING sval => some sval
    | _ => none

/-- A statement from its tokens on. An identifier that is too long is no token, which is a syntax
error; a tree that could be built is interpreted. -/
def statementCopied (calls : Calls DbM) (address : Text → Int) (counter : Int)
    (statement : Start) : ExceptT Fault DbM (Int × List Text) :=
  if ∃ name ∈ identifiers statement, Scanner.MAXSTRINGLEN ≤ name.length then pure (counter, [])
  else
    match statement.action address 0 with
    | .ok (tree, _) =>
        if tree.isNode then interpCopied calls counter tree else pure (counter, [])
    | .error _ => pure (counter, [])

/-- Every identifier stays inside the array of `get_id` and, if it is copied, inside the field it
is copied to. -/
structure IdentifiersInside (statement : Start) (copied : List Text) : Prop where
  scratch : ∀ name ∈ identifiers statement, ∀ (scanner : Scanner) (memory : Memory),
    ∀ index ∈ (scanner.get_id ⟨memory, []⟩ name).1.written, index < Scanner.MAXSTRINGLEN
  fields : ∀ name ∈ copied, Fits name
  rejected : ∀ name ∈ identifiers statement, MAXNAME ≤ name.length → name ∉ copied

/-- Identifiers stay inside their buffers exactly if all of them are shorter than the array of
`get_id` and those that the interpreter comes to copy are shorter than a field of the catalog. -/
theorem identifiers_inside_iff (calls : Calls DbM) (address : Text → Int)
    (counter counter' : Int) (statement : Start) (copied : List Text) (w w' : World)
    (run : (statementCopied calls address counter statement).run w =
      (.ok (.ok (counter', copied)), w')) :
    IdentifiersInside statement copied ↔
      (∀ name ∈ identifiers statement, name.length < Scanner.MAXSTRINGLEN) ∧
        ∀ tree nodeptr, statement.action address 0 = .ok (tree, nodeptr) → tree.isNode = true →
          NamesFit calls w tree := by
  have fields : IdentifiersInside statement copied ↔
      (∀ name ∈ identifiers statement, name.length < Scanner.MAXSTRINGLEN) ∧
        ∀ name ∈ copied, Fits name := by
    constructor
    · intro inside
      refine ⟨fun name member => ?_, inside.fields⟩
      exact (Scanner.get_id_inside_iff ⟨fun _ => 0, 0⟩ (fun _ => 0) name).mp
        (inside.scratch name member ⟨fun _ => 0, 0⟩ (fun _ => 0))
    · rintro ⟨short, fit⟩
      refine ⟨fun name member scanner memory => ?_, fit, fun name _ long member => ?_⟩
      · exact (Scanner.get_id_inside_iff scanner memory name).mpr (short name member)
      · have fits := fit name member
        unfold Fits at fits
        omega
  rw [fields]
  apply and_congr_right
  intro short
  unfold statementCopied at run
  rw [if_neg (by
    rintro ⟨name, member, long⟩
    exact absurd (short name member) (Nat.not_lt.mpr long))] at run
  rcases built : statement.action address 0 with stop | ⟨tree, nodeptr⟩
  · rw [built] at run
    cases run
    simp
  · rw [built] at run
    dsimp only at run
    by_cases node : tree.isNode = true
    · rw [if_pos node] at run
      rw [interp_copied_fits_iff run]
      constructor
      · rintro fits tree' nodeptr' ⟨⟩ _
        exact fits
      · intro fits
        exact fits tree nodeptr rfl node
    · rw [if_neg node] at run
      cases run
      apply iff_of_true (by simp)
      rintro tree' nodeptr' ⟨⟩ node'
      exact absurd node' node

def insertNamed (name : Text) : Start :=
  .command (.insert [114] (.cons name (.single [98]))
    (.cons (.INTEGER 1) (.single (.STRING [120, 121]))))

def copiedBy (call : ExceptT Fault DbM (Int × List Text)) : DbM (Option (List Text)) :=
  call.run >>= fun made => pure (made.toOption.map Prod.snd)

theorem run_of_copied {call : ExceptT Fault DbM (Int × List Text)} {w : World}
    {copied : List Text} (made : (copiedBy call w).1 = .ok (some copied)) :
    ∃ counter' w', call.run w = (.ok (.ok (counter', copied)), w') := by
  have whole := DbM.run_of_value made
  obtain ⟨result, w', run, later⟩ := DbM.bind_eq_ok_iff.mp whole
  cases result with
  | error fault => cases later
  | ok pair =>
      cases later
      exact ⟨pair.1, _, run⟩

theorem short_names_copied :
    (copiedBy (statementCopied sampleCalls (fun _ => 0) 0 (insertNamed [97])) sampleStart).1 =
      .ok (some [[114], [97], [114], [98]]) := by decide +kernel

/-- `insert into r (a, b) values (1, "xy")` -/
theorem identifiers_inside_short_names : ∃ copied counter' w',
    (statementCopied sampleCalls (fun _ => 0) 0 (insertNamed [97])).run sampleStart =
      (.ok (.ok (counter', copied)), w') ∧ IdentifiersInside (insertNamed [97]) copied := by
  obtain ⟨counter', w', run⟩ := run_of_copied short_names_copied
  refine ⟨_, counter', w', run, ?_⟩
  apply (identifiers_inside_iff _ _ _ _ _ _ _ _ run).mpr
  refine ⟨by decide, ?_⟩
  intro tree nodeptr built _
  cases built
  intro attrs listed
  cases listed
  unfold Fits
  decide

def fortyLetters : Text := List.replicate 40 97

theorem forty_letters_copied :
    (copiedBy (statementCopied sampleCalls (fun _ => 0) 0 (insertNamed fortyLetters))
      sampleStart).1 = .ok (some [[114], fortyLetters, [114], [98]]) := by decide +kernel

/-- The name is copied into 32 characters, and nobody objects to its length. -/
theorem long_name_copied : ∃ copied counter' w',
    (statementCopied sampleCalls (fun _ => 0) 0 (insertNamed fortyLetters)).run sampleStart =
      (.ok (.ok (counter', copied)), w') ∧
      ¬IdentifiersInside (insertNamed fortyLetters) copied := by
  obtain ⟨counter', w', run⟩ := run_of_copied forty_letters_copied
  refine ⟨_, counter', w', run, ?_⟩
  intro inside
  have fits := inside.fields fortyLetters (by simp)
  unfold Fits at fits
  revert fits
  decide

end PrimitiveDB

import PrimitiveDB.Interpreter
import PrimitiveDB.MonadRelations

/-!
# One interpreter on two databases

`interp` is written for any database. If every function of one database is related to the same
function of another, then so is every statement.
-/

namespace PrimitiveDB

set_option autoImplicit false

variable {m n : Type → Type} [Monad m] [Monad n]

/-- Every function of one database is related to that of the other. -/
structure Calls.Related (relation : MonadRelation m n) (calls : Calls m) (calls' : Calls n) :
    Prop where
  attrGetRelInfo : ∀ name, relation.rel (calls.attrGetRelInfo name) (calls'.attrGetRelInfo name)
  relGetInfo : ∀ name, relation.rel (calls.relGetInfo name) (calls'.relGetInfo name)
  attrGetInfo : ∀ relName attrName,
    relation.rel (calls.attrGetInfo relName attrName) (calls'.attrGetInfo relName attrName)
  createRel : ∀ name infos, relation.rel (calls.createRel name infos) (calls'.createRel name infos)
  destroyRel : ∀ name, relation.rel (calls.destroyRel name) (calls'.destroyRel name)
  QU_Select : ∀ result names attr op text, relation.rel
    (calls.QU_Select result names attr op text) (calls'.QU_Select result names attr op text)
  QU_Join : ∀ result names attr1 op attr2, relation.rel
    (calls.QU_Join result names attr1 op attr2) (calls'.QU_Join result names attr1 op attr2)
  QU_Insert : ∀ relName infos,
    relation.rel (calls.QU_Insert relName infos) (calls'.QU_Insert relName infos)
  QU_Delete : ∀ relName attrName op type text, relation.rel
    (calls.QU_Delete relName attrName op type text)
    (calls'.QU_Delete relName attrName op type text)
  UT_Load : ∀ relName fileName,
    relation.rel (calls.UT_Load relName fileName) (calls'.UT_Load relName fileName)
  UT_Print : ∀ relName, relation.rel (calls.UT_Print relName) (calls'.UT_Print relName)
  help : ∀ relName, relation.rel (calls.help relName) (calls'.help relName)

namespace Calls.Related

variable {relation : MonadRelation m n} {calls : Calls m} {calls' : Calls n}

theorem create_attr_info (related : Related relation calls calls') (resultName : FileName)
    (rename : Bool) (attrs done : List AttrInfo) (counter : Int) :
    relation.rel (createAttrInfo calls resultName rename attrs done counter)
      (createAttrInfo calls' resultName rename attrs done counter) := by
  induction attrs generalizing done counter with
  | nil => exact relation.rel_pure _
  | cons attr attrs ih =>
      unfold createAttrInfo
      dsimp only
      apply relation.rel_bind (related.attrGetInfo _ _)
      intro found
      cases found with
      | error _ => exact relation.rel_pure _
      | ok desc => exact ih _ _

theorem types_match (related : Related relation calls calls') (attrs : List AttrInfo)
    (descs : List AttrDesc) :
    relation.rel (typesMatch calls attrs descs) (typesMatch calls' attrs descs) := by
  induction attrs generalizing descs with
  | nil => exact relation.rel_pure _
  | cons attr attrs ih =>
      cases descs with
      | nil => exact relation.rel_pure _
      | cons desc descs =>
          unfold typesMatch
          apply relation.rel_bind (related.attrGetInfo _ _)
          intro found
          cases found with
          | error _ => exact relation.rel_pure _
          | ok attrDesc =>
              dsimp only
              split
              · exact relation.rel_pure _
              · exact ih descs

theorem prepare_result (related : Related relation calls calls') (resultName : FileName)
    (existing : Option (List AttrDesc)) (rename : Bool) (attrList : List AttrInfo)
    (counter : Int) :
    relation.rel (prepareResult calls resultName existing rename attrList counter)
      (prepareResult calls' resultName existing rename attrList counter) := by
  unfold prepareResult
  cases existing with
  | none =>
      apply relation.rel_bind (related.create_attr_info resultName rename attrList [] counter)
      rintro ⟨infos, counter'⟩
      cases infos with
      | none => exact relation.rel_pure _
      | some infos =>
          apply relation.rel_bind (related.createRel _ _)
          intro status
          exact relation.rel_pure _
  | some attrs =>
      dsimp only
      split
      · exact relation.rel_pure _
      · apply relation.rel_bind (related.types_match attrList attrs)
        intro fits
        exact relation.rel_pure _

theorem finish_query (related : Related relation calls calls') (resultName : FileName) :
    relation.rel (finishQuery calls resultName) (finishQuery calls' resultName) := by
  unfold finishQuery
  split
  · apply relation.rel_bind (related.UT_Print resultName)
    intro _
    apply relation.rel_bind (related.destroyRel resultName)
    intro _
    exact relation.rel_pure _
  · exact relation.rel_pure _

theorem result_relation (related : Related relation calls calls') (relname : Option Text) :
    relation.rel (resultRelation calls relname) (resultRelation calls' relname) := by
  unfold resultRelation
  cases relname with
  | none =>
      apply relation.rel_bind (related.relGetInfo TMPRESULT)
      intro found
      cases found <;> exact relation.rel_pure _
  | some resultName =>
      apply relation.rel_bind (related.attrGetRelInfo resultName)
      intro found
      cases found <;> exact relation.rel_pure _

section Statements

theorem rel_reading {α : Type} (read : Except Fault α) :
    (relation.withExceptions Fault).rel (reading read : ExceptT Fault m α) (reading read) :=
  relation.rel_mk read

theorem rel_returning {α : Type} (value : α) :
    (relation.withExceptions Fault).rel (pure value : ExceptT Fault m α) (pure value) :=
  relation.rel_pure _

theorem rel_binding {α β : Type} {first : ExceptT Fault m α} {first' : ExceptT Fault n α}
    {next : α → ExceptT Fault m β} {next' : α → ExceptT Fault n β}
    (same : (relation.withExceptions Fault).rel first first')
    (later : ∀ value, (relation.withExceptions Fault).rel (next value) (next' value)) :
    (relation.withExceptions Fault).rel (first >>= next) (first' >>= next') :=
  (relation.withExceptions Fault).rel_bind same later

variable [LawfulMonad m] [LawfulMonad n]

theorem rel_calling {α : Type} {call : m α} {call' : n α} (same : relation.rel call call') :
    (relation.withExceptions Fault).rel (calling call) (calling call') :=
  relation.rel_lift same

theorem attrnames (related : Related relation calls calls') (list : NODE)
    (relname : Option Text) :
    (relation.withExceptions Fault).rel (mk_attrnames calls list relname)
      (mk_attrnames calls' list relname) := by
  unfold mk_attrnames
  repeat' first
    | exact rel_returning _ | exact rel_reading _ | exact rel_calling (related.attrGetRelInfo _)
    | apply rel_binding | intro _ | split

theorem interp_select (related : Related relation calls calls') (resultName : FileName)
    (existing : Option (List AttrDesc)) (attrlist : NODE)
    (cond : Option (NODE × Operator × NODE)) (counter : Int) :
    (relation.withExceptions Fault).rel
      (interpSelect calls resultName existing attrlist cond counter)
      (interpSelect calls' resultName existing attrlist cond counter) := by
  unfold interpSelect
  repeat' first
    | exact rel_returning _ | exact rel_reading _ | exact related.attrnames _ _
    | exact rel_calling (related.prepare_result _ _ _ _ _)
    | exact rel_calling (related.QU_Select _ _ _ _ _)
    | exact rel_calling (related.finish_query _)
    | apply rel_binding | intro _ | split

theorem interp_join (related : Related relation calls calls') (resultName : FileName)
    (existing : Option (List AttrDesc)) (attrlist joinattr1 : NODE) (op : Operator)
    (joinattr2 : NODE) (counter : Int) :
    (relation.withExceptions Fault).rel
      (interpJoin calls resultName existing attrlist joinattr1 op joinattr2 counter)
      (interpJoin calls' resultName existing attrlist joinattr1 op joinattr2 counter) := by
  unfold interpJoin
  repeat' first
    | exact rel_returning _ | exact rel_reading _
    | exact rel_calling (related.prepare_result _ _ _ _ _)
    | exact rel_calling (related.QU_Join _ _ _ _ _)
    | exact rel_calling (related.finish_query _)
    | apply rel_binding | intro _ | split

theorem interp_query (related : Related relation calls calls') (relname : Option Text)
    (attrlist qual : NODE) (counter : Int) :
    (relation.withExceptions Fault).rel (interpQuery calls relname attrlist qual counter)
      (interpQuery calls' relname attrlist qual counter) := by
  unfold interpQuery
  repeat' first
    | exact rel_returning _ | exact rel_reading _ | exact rel_calling (related.result_relation _)
    | exact related.interp_select _ _ _ _ _ | exact related.interp_join _ _ _ _ _ _ _
    | apply rel_binding | intro _ | split

/-- A statement on one database is related to the same statement on the other. -/
theorem statement (related : Related relation calls calls') (counter : Int) (tree : NODE) :
    (relation.withExceptions Fault).rel (interp calls counter tree)
      (interp calls' counter tree) := by
  cases tree with
  | QUERY relname attrlist qual => exact related.interp_query relname attrlist qual counter
  | INSERT relname attrlist =>
      unfold interp interpInsert
      repeat' first
        | exact rel_returning _ | exact rel_reading _ | exact rel_calling (related.QU_Insert _ _)
        | apply rel_binding | intro _ | split
  | DELETE relname qual =>
      unfold interp interpDelete
      repeat' first
        | exact rel_returning _ | exact rel_reading _
        | exact rel_calling (related.QU_Delete _ _ _ _ _)
        | apply rel_binding | intro _ | split
  | CREATE relname attrlist primattr =>
      unfold interp interpCreate
      repeat' first
        | exact rel_returning _ | exact rel_reading _ | exact rel_calling (related.createRel _ _)
        | apply rel_binding | intro _ | split
  | DESTROY relname =>
      exact rel_binding (rel_calling (related.destroyRel _)) fun _ => rel_returning _
  | LOAD relname filename =>
      exact rel_binding (rel_calling (related.UT_Load _ _)) fun _ => rel_returning _
  | PRINT relname =>
      exact rel_binding (rel_calling (related.UT_Print _)) fun _ => rel_returning _
  | HELP relname =>
      exact rel_binding (rel_calling (related.help _)) fun _ => rel_returning _
  | _ => exact rel_reading _

end Statements

end Calls.Related

end PrimitiveDB

import PrimitiveDB.StatementRefinement

/-!
# What statements show

The interpreter is written for every monad, so it also runs where every call records what it
shows: `UT_Print` and `help` what they print, and every call that fails the status that `interp`
reports. A session then shows what the tables say, and without the record it is the session that
`interp` runs.
-/

namespace PrimitiveDB

open World DbM Relational

set_option autoImplicit false

abbrev Showing (m : Type → Type) := StateT (List Shown) m

section Showing

variable {m n : Type → Type} [Monad m] [Monad n] {α β : Type}

def recording (call : m α) (shown : α → List Shown) : Showing m α := fun before => do
  let value ← call
  pure (value, before ++ shown value)

def reported (status : Status) : List Shown := if status = .OK then [] else [.failure status]

def reportedLookup : Except Status α → List Shown
  | .error status => reported status
  | .ok _ => []

def printing (call : m (Status × List Shown)) : Showing m Status := do
  let (status, _) ← recording call fun ends => ends.2 ++ reported ends.1
  pure status

/-- The functions of a database with a record. Of the lookups only `attrGetInfo` is always
reported; what `interp` says on its own is left out. -/
def Calls.showing (calls : Calls m) (print help : FileName → m (Status × List Shown)) :
    Calls (Showing m) where
  attrGetRelInfo := fun name => recording (calls.attrGetRelInfo name) fun _ => []
  relGetInfo := fun name => recording (calls.relGetInfo name) fun _ => []
  attrGetInfo := fun relName attrName =>
    recording (calls.attrGetInfo relName attrName) reportedLookup
  createRel := fun name infos => recording (calls.createRel name infos) reported
  destroyRel := fun name => recording (calls.destroyRel name) reported
  QU_Select := fun result names attr op text =>
    recording (calls.QU_Select result names attr op text) reported
  QU_Join := fun result names attr1 op attr2 =>
    recording (calls.QU_Join result names attr1 op attr2) reported
  QU_Insert := fun relation infos => recording (calls.QU_Insert relation infos) reported
  QU_Delete := fun relation attr op type text =>
    recording (calls.QU_Delete relation attr op type text) reported
  UT_Load := fun relation file => recording (calls.UT_Load relation file) reported
  UT_Print := fun relation => printing (print relation)
  help := fun relation => printing (help relation)

theorem rel_recording (relation : MonadRelation m n) {call : m α} {call' : n α}
    (same : relation.rel call call') (shown : α → List Shown) :
    (relation.withState (List Shown)).rel (recording call shown) (recording call' shown) :=
  fun _ => relation.rel_bind same fun _ => relation.rel_pure _

theorem rel_printing (relation : MonadRelation m n) {call : m (Status × List Shown)}
    {call' : n (Status × List Shown)} (same : relation.rel call call') :
    (relation.withState (List Shown)).rel (printing call) (printing call') :=
  (relation.withState (List Shown)).rel_bind (rel_recording relation same _) fun _ =>
    (relation.withState (List Shown)).rel_pure _

theorem Calls.Related.showing {relation : MonadRelation m n} {calls : Calls m}
    {calls' : Calls n} (related : Calls.Related relation calls calls')
    {print help : FileName → m (Status × List Shown)}
    {print' help' : FileName → n (Status × List Shown)}
    (prints : ∀ name, relation.rel (print name) (print' name))
    (helps : ∀ name, relation.rel (help name) (help' name)) :
    Calls.Related (relation.withState (List Shown)) (calls.showing print help)
      (calls'.showing print' help') where
  attrGetRelInfo := fun _ => rel_recording relation (related.attrGetRelInfo _) _
  relGetInfo := fun _ => rel_recording relation (related.relGetInfo _) _
  attrGetInfo := fun _ _ => rel_recording relation (related.attrGetInfo _ _) _
  createRel := fun _ _ => rel_recording relation (related.createRel _ _) _
  destroyRel := fun _ => rel_recording relation (related.destroyRel _) _
  QU_Select := fun _ _ _ _ _ => rel_recording relation (related.QU_Select _ _ _ _ _) _
  QU_Join := fun _ _ _ _ _ => rel_recording relation (related.QU_Join _ _ _ _ _) _
  QU_Insert := fun _ _ => rel_recording relation (related.QU_Insert _ _) _
  QU_Delete := fun _ _ _ _ _ => rel_recording relation (related.QU_Delete _ _ _ _ _) _
  UT_Load := fun _ _ => rel_recording relation (related.UT_Load _ _) _
  UT_Print := fun _ => rel_printing relation (prints _)
  help := fun _ => rel_printing relation (helps _)

variable [LawfulMonad m]

theorem forgets_recording (call : m α) (shown : α → List Shown) :
    (MonadRelation.forgetting (List Shown) m).rel (recording call shown) call := by
  intro before
  calc Prod.fst <$> (call >>= fun value => pure (value, before ++ shown value))
    _ = call >>= fun value => Prod.fst <$> pure (value, before ++ shown value) := map_bind _ _ _
    _ = call >>= pure := bind_congr fun value => map_pure _ _
    _ = call := bind_pure call

theorem forgets_printing (call : m (Status × List Shown)) :
    (MonadRelation.forgetting (List Shown) m).rel (printing call)
      (call >>= fun ends => pure ends.1) :=
  (MonadRelation.forgetting (List Shown) m).rel_bind (forgets_recording call _) fun _ =>
    (MonadRelation.forgetting (List Shown) m).rel_pure _

theorem Calls.showing_forgets {calls : Calls m} {print help : FileName → m (Status × List Shown)}
    (prints : ∀ name, (print name >>= fun ends => pure ends.1) = calls.UT_Print name)
    (helps : ∀ name, (help name >>= fun ends => pure ends.1) = calls.help name) :
    Calls.Related (MonadRelation.forgetting (List Shown) m) (calls.showing print help)
      calls where
  attrGetRelInfo := fun _ => forgets_recording _ _
  relGetInfo := fun _ => forgets_recording _ _
  attrGetInfo := fun _ _ => forgets_recording _ _
  createRel := fun _ _ => forgets_recording _ _
  destroyRel := fun _ => forgets_recording _ _
  QU_Select := fun _ _ _ _ _ => forgets_recording _ _
  QU_Join := fun _ _ _ _ _ => forgets_recording _ _
  QU_Insert := fun _ _ => forgets_recording _ _
  QU_Delete := fun _ _ _ _ _ => forgets_recording _ _
  UT_Load := fun _ _ => forgets_recording _ _
  UT_Print := fun name => by
    rw [← prints name]
    exact forgets_printing (print name)
  help := fun name => by
    rw [← helps name]
    exact forgets_printing (help name)

end Showing

section Sessions

variable {pins : List Pin} {opens : List FilePtr}

def storedShowing (joinMethod : JoinType) (around : Surroundings) : Calls (Showing DbM) :=
  (storedCalls joinMethod around).showing
    (fun relation => shows (printUtility around.mem around.tmpRid relation))
    fun relation => shows (RelCatalog.helpUtility around.mem around.tmpRid relation)

def relationalShowing (joinMethod : JoinType) (around : Surroundings) : Calls (Showing Query) :=
  (relationalCalls joinMethod around).showing Relational.printUtility Relational.helpUtility

theorem showing_related (joinMethod : JoinType) (around : Surroundings) :
    Calls.Related ((refinement pins opens).withState (List Shown))
      (storedShowing joinMethod around) (relationalShowing joinMethod around) :=
  (calls_related joinMethod around).showing (print_utility_refines _ _) (help_utility_refines _ _)

theorem stored_showing_forgets (joinMethod : JoinType) (around : Surroundings) :
    Calls.Related (MonadRelation.forgetting (List Shown) DbM) (storedShowing joinMethod around)
      (storedCalls joinMethod around) :=
  Calls.showing_forgets (fun _ => (status_of_shows _).symm) fun _ => (status_of_shows _).symm

/-- Where the tables say what a sequence of statements shows, the database shows it: the tuples
of every table that is printed, the attributes that `help` prints and the failures that are
reported, in this order. It is the run that `interp` makes. -/
theorem statements_show_tables {w w' : World} {db db' : Database}
    (represents : w.Represents pins opens db) (joinMethod : JoinType) (counter : Int)
    (statements : List (Surroundings × NODE)) {result : Except Fault Int} {shown : List Shown}
    (defined : (interpAll (relationalShowing joinMethod) counter statements).run [] db =
      some ((result, shown), db')) {outcome : Outcome (Except Fault Int × List Shown)}
    (run : (interpAll (storedShowing joinMethod) counter statements).run [] w = (outcome, w'))
    (smooth : w'.bufFailed = false) :
    outcome = .ok (result, shown) ∧ w'.Represents pins opens db' ∧
      interpAll (storedCalls joinMethod) counter statements w = (.ok result, w') := by
  have related : Refines pins opens _ _ :=
    interp_all_related (showing_related joinMethod) counter statements []
  obtain ⟨_, rfl, rfl, represents'⟩ :=
    (related.refines w db represents _ db' defined).result run smooth
  have forgets : Prod.fst <$> (interpAll (storedShowing joinMethod) counter statements).run [] =
      (interpAll (storedCalls joinMethod) counter statements).run :=
    interp_all_related (stored_showing_forgets joinMethod) counter statements []
  have plain := congrFun forgets w
  rw [← bind_pure_comp, DbM.bind_ok run] at plain
  exact ⟨rfl, represents', plain.symm⟩

end Sessions

/-- `create table t (a = i)`, `insert t (a = 7)`, `print table t` and `destroy table x` -/
def shownSession : List (Surroundings × NODE) :=
  [createT, insertT 7, .PRINT [116], .DESTROY [120]].map fun tree => (zeroSurroundings, tree)

def columnT : AttrDesc :=
  { relName := [116], attrName := [97], attrOffset := 0, attrType := Datatype.INTEGER.code
    attrLen := 4 }

theorem statements_show_tables_session :
    ∃ w', (interpAll (storedShowing .NLJoin) 0 shownSession).run [] newDatabase =
        (.ok (.ok 0, [.tuples [116] [columnT] (some {[7, 0, 0, 0]}), .failure .RELNOTFOUND]),
          w') ∧
      interpAll (storedCalls .NLJoin) 0 shownSession newDatabase = (.ok (.ok 0), w') := by
  obtain ⟨outcome, w', run, smooth⟩ : ∃ outcome w',
      (interpAll (storedShowing .NLJoin) 0 shownSession).run [] newDatabase = (outcome, w') ∧
        w'.bufFailed = false := ⟨_, _, Prod.mk.eta.symm, by decide +kernel⟩
  obtain ⟨db', defined, _⟩ : ∃ db',
      (interpAll (relationalShowing .NLJoin) 0 shownSession).run [] Database.empty =
        some ((.ok 0, [.tuples [116] [columnT] (some {[7, 0, 0, 0]}), .failure .RELNOTFOUND]),
          db') ∧ True := Relational.exists_of_holds (by decide +kernel)
  obtain ⟨rfl, _, plain⟩ :=
    statements_show_tables new_database_represents .NLJoin 0 shownSession defined run smooth
  exact ⟨w', run, plain⟩

end PrimitiveDB

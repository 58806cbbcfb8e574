import PrimitiveDB.NodeKinds
import PrimitiveDB.TupleWidths

/-!
# The node pool

A statement has one pool of `MAXNODE` nodes for its tree, and `newnode` ends the process
when they are used up. How many nodes a statement takes follows from its derivation: each
action takes a fixed number, so whether it gets through is decided before it starts.
-/

namespace PrimitiveDB

open Grammar

set_option autoImplicit false

/-- The action takes so many nodes and yields the value, or ends the process if the pool has
fewer left. -/
def Takes {α : Type} (action : ParseM α) (nodes : Nat) (value : α) : Prop :=
  ∀ nodeptr ≤ MAXNODE, action nodeptr =
    if nodeptr + nodes ≤ MAXNODE then .ok (value, nodeptr + nodes) else .error .exit

section Takes

variable {α β : Type} {nodes nodes' : Nat} {value : α} {value' : β}

theorem takes_pure (value : α) : Takes (pure value) 0 value := by
  intro nodeptr inside
  rw [if_pos (by simpa using inside)]
  rfl

theorem takes_bind {first : ParseM α} {second : α → ParseM β} {total : Nat}
    (left : Takes first nodes value) (right : Takes (second value) nodes' value')
    (count : total = nodes + nodes') : Takes (first >>= second) total value' := by
  subst count
  intro nodeptr inside
  change (first nodeptr >>= fun ends => second ends.1 ends.2) = _
  rw [left nodeptr inside]
  by_cases fits : nodeptr + nodes ≤ MAXNODE
  · rw [if_pos fits]
    change second value (nodeptr + nodes) = _
    rw [right _ fits, Nat.add_assoc]
  · rw [if_neg fits, if_neg (by omega)]
    rfl

theorem takes_reading {read : Except Fault α} (reads : read = .ok value) :
    Takes (ParseM.reading read) 0 value := by
  subst reads
  exact takes_pure value

theorem takes_newnode (node : NODE) : Takes (newnode node) 1 node := by
  intro nodeptr inside
  by_cases full : nodeptr = MAXNODE
  · rw [if_neg (by omega), full]
    rfl
  · have more : nodeptr + 1 ≤ MAXNODE := by omega
    simp [newnode, full, more, bind, StateT.bind, get, getThe, MonadStateOf.get, StateT.get, set,
      StateT.set, Except.bind, pure, StateT.pure, Except.pure]

theorem Takes.run {action : ParseM α} (takes : Takes action nodes value) :
    action 0 = if nodes ≤ MAXNODE then .ok (value, nodes) else .error .exit := by
  simpa using takes 0 (Nat.zero_le _)

theorem Takes.value_eq {action : ParseM α} {other : α} {taken : Nat}
    (takes : Takes action nodes value) (run : action 0 = .ok (other, taken)) : other = value := by
  rw [takes.run] at run
  split at run
  · cases run
    rfl
  · cases run

theorem Takes.parsed_iff {action : ParseM α} (takes : Takes action nodes value) :
    (∃ tree taken, action 0 = .ok (tree, taken)) ↔ nodes ≤ MAXNODE := by
  rw [takes.run]
  constructor
  · rintro ⟨tree, taken, run⟩
    by_contra more
    rw [if_neg more] at run
    cases run
  · intro fits
    exact ⟨value, nodes, if_pos fits⟩

end Takes

namespace Grammar.CommaList

variable {α β : Type}

def toList : CommaList α → List α
  | cons first rest => first :: toList rest
  | single only => [only]

def map (f : α → β) : CommaList α → CommaList β
  | cons first rest => cons (f first) (map f rest)
  | single only => single (f only)

/-- The list of nodes that `prepend` and `list_node` build. -/
def node (item : α → NODE) : CommaList α → NODE
  | cons first rest => .LIST (item first) (node item rest)
  | single only => .LIST (item only) .NULL

@[simp] theorem to_list_map (f : α → β) (list : CommaList α) :
    (list.map f).toList = list.toList.map f := by
  induction list with
  | cons first rest ih => simp [map, toList, ih]
  | single only => rfl

theorem takes {item : α → ParseM NODE} {node : α → NODE} {nodes : α → Nat}
    (items : ∀ value, Takes (item value) (nodes value) (node value)) (list : CommaList α) :
    Takes (list.action item) (list.toList.map fun value => nodes value + 1).sum
      (list.node node) := by
  induction list with
  | cons first rest ih =>
      apply takes_bind (items first)
      · apply takes_bind ih
        · exact takes_newnode (.LIST (node first) (rest.node node))
        · rfl
      · simp only [toList, List.map_cons, List.sum_cons]
        omega
  | single only =>
      apply takes_bind (items only)
      · exact takes_newnode (.LIST (node only) .NULL)
      · simp [toList]

end Grammar.CommaList

namespace Grammar.Attrtype

def attrname : Attrtype → Text
  | int attrname => attrname
  | real attrname => attrname
  | char attrname _ => attrname
  | charDefault attrname => attrname

def format (address : Text → Int) : Attrtype → Int
  | int _ => 105 - 128
  | real _ => 102 - 128
  | char _ length => ival address length
  | charDefault _ => 2

def nodes : Attrtype → Nat
  | char _ _ => 2
  | _ => 1

def node (address : Text → Int) (attr : Attrtype) : NODE :=
  .ATTRTYPE attr.attrname (attr.format address)

theorem takes (address : Text → Int) (attr : Attrtype) :
    Takes (attr.action address) attr.nodes (attr.node address) := by
  cases attr with
  | int attrname => exact takes_newnode _
  | real attrname => exact takes_newnode _
  | char attrname length =>
      have read : Takes (ParseM.reading (NODE.VALUE length).asVALUE) 0 length := takes_reading rfl
      apply takes_bind (takes_newnode (.VALUE length))
      · apply takes_bind read
        · exact takes_newnode (.ATTRTYPE attrname (ival address length))
        · rfl
      · rfl
  | charDefault attrname => exact takes_newnode _

end Grammar.Attrtype

def Grammar.Attrtype.descr (address : Text → Int) (attr : Attrtype) :
    Option (Text × Datatype × Int) :=
  (parse_format_string (attr.format address)).map fun decoded => (attr.attrname, decoded)

theorem attr_descrs_cell (address : Text → Int) (attr : Attrtype) (next : NODE) {i : Nat}
    (inside : i < MAXATTRS) : attrDescrs (.LIST (attr.node address) next) i =
      (attr.descr address).elim (.ok none) fun descr =>
        (attrDescrs next (i + 1)).map (Option.map (descr :: ·)) := by
  rw [attrDescrs, if_neg (Nat.ne_of_lt inside)]
  · rcases parsed : parse_format_string (attr.format address) with _ | decoded
    · simp [Attrtype.node, NODE.asATTRTYPE, parsed, Attrtype.descr]
    · simp only [Attrtype.node, NODE.asATTRTYPE, parsed, reading_bind, Attrtype.descr,
        Option.map_some, Option.elim_some]
      rcases attrDescrs next (i + 1) with _ | _ | _ <;> rfl

/-- The columns are described one by one, unless there are too many of them. -/
theorem attr_descrs_node (address : Text → Int) (attrs : CommaList Attrtype) {i : Nat}
    (inside : i < MAXATTRS) : attrDescrs (attrs.node (Attrtype.node address)) i =
      .ok (if i + attrs.toList.length < MAXATTRS
        then attrs.toList.mapM (Attrtype.descr address) else none) := by
  induction attrs generalizing i with
  | cons attr attrs ih =>
      rw [CommaList.node, attr_descrs_cell address attr _ inside, CommaList.toList,
        List.length_cons, List.mapM_cons]
      have rest : attrDescrs (attrs.node (Attrtype.node address)) (i + 1) =
          .ok (if i + (attrs.toList.length + 1) < MAXATTRS
            then attrs.toList.mapM (Attrtype.descr address) else none) := by
        by_cases last : i + 1 = MAXATTRS
        · rw [if_neg (by omega)]
          cases attrs <;> simp [CommaList.node, attrDescrs, last]
        · rw [ih (by omega), Nat.add_right_comm, Nat.add_assoc]
      rcases attr.descr address with _ | descr
      · simp
      · simp only [rest, Option.elim_some]
        split
        · cases attrs.toList.mapM (Attrtype.descr address) <;> rfl
        · rfl
  | single only =>
      rw [CommaList.node, attr_descrs_cell address only _ inside, CommaList.toList,
        List.length_singleton, List.mapM_cons, List.mapM_nil]
      rcases only.descr address with _ | descr
      · simp
      · by_cases last : i + 1 = MAXATTRS
        · simp [attrDescrs, last, Except.map]
        · have fits : i + 1 < MAXATTRS := by omega
          simp [attrDescrs, last, fits, Except.map]

namespace Grammar.Command

def primaryNode : Option (Text × Int) → NODE
  | some (attrname, nbuckets) => .PRIMATTR attrname nbuckets
  | none => .NULL

theorem create_takes (address : Text → Int) (relname : Text) (attrs : CommaList Attrtype)
    (primary : Option (Text × Int)) :
    Takes ((create relname attrs primary).action address)
      ((attrs.toList.map fun attr => attr.nodes + 1).sum + (primary.toList.length + 1))
      (.CREATE relname (attrs.node (Attrtype.node address)) (primaryNode primary)) := by
  have primattr : Takes (optPrimary primary) primary.toList.length (primaryNode primary) := by
    cases primary with
    | none => exact takes_pure NODE.NULL
    | some primary => exact takes_newnode (.PRIMATTR primary.1 primary.2)
  apply takes_bind (CommaList.takes (Attrtype.takes address) attrs)
  · apply takes_bind primattr
    · exact takes_newnode _
    · rfl
  · rfl

def paired : CommaList Text → CommaList Value → NODE
  | .cons attrname attribs, .cons value values =>
      .LIST (.ATTRVAL attrname (.VALUE value)) (paired attribs values)
  | .single attrname, .single value => .LIST (.ATTRVAL attrname (.VALUE value)) .NULL
  | _, _ => .NULL

theorem to_list_ne_nil {α : Type} (list : CommaList α) : list.toList ≠ [] := by
  cases list <;> simp [CommaList.toList]

theorem merge_attr_value_list_paired (attribs : CommaList Text) (values : CommaList Value)
    (same : values.toList.length = attribs.toList.length) :
    merge_attr_value_list (attribs.node fun attrname => .ATTRVAL attrname .NULL)
      (values.node .VALUE) = .ok (some (paired attribs values)) := by
  induction attribs generalizing values with
  | cons attrname attribs ih =>
      cases values with
      | cons value values =>
          have rest : values.toList.length = attribs.toList.length := by
            simpa [CommaList.toList] using same
          simp [CommaList.node, merge_attr_value_list, NODE.asATTRVAL, ih values rest, paired]
      | single value =>
          have none_left : attribs.toList = [] := by
            simpa [CommaList.toList] using same.symm
          exact absurd none_left (to_list_ne_nil attribs)
  | single attrname =>
      cases values with
      | cons value values =>
          have none_left : values.toList = [] := by simpa [CommaList.toList] using same
          exact absurd none_left (to_list_ne_nil values)
      | single value => rfl

/-- Four nodes for each attribute and its value, and one for the statement. -/
theorem insert_takes (address : Text → Int) (relname : Text) (attribs : CommaList Text)
    (values : CommaList Value) (same : values.toList.length = attribs.toList.length) :
    Takes ((insert relname attribs values).action address) (4 * attribs.toList.length + 1)
      (.INSERT relname (paired attribs values)) := by
  have names := CommaList.takes
    (fun attrname => takes_newnode (.ATTRVAL attrname .NULL)) attribs
  have given := CommaList.takes (fun value => takes_newnode (.VALUE value)) values
  have merged := takes_reading (merge_attr_value_list_paired attribs values same)
  apply takes_bind names
  · apply takes_bind given
    · apply takes_bind merged
      · exact takes_newnode (.INSERT relname (paired attribs values))
      · rfl
    · rfl
  · simp only [List.map_const', List.sum_replicate, smul_eq_mul, same]
    omega

end Grammar.Command

section Creation

open HeapSession (zeroMemory)

/-- The attributes with which `interp` calls `createRel`. -/
def createAttrs (relname : Text) (descrs : List (Text × Datatype × Int)) : List AttrInfo :=
  descrs.map fun descr =>
    { relName := relname, attrName := descr.1, attrType := descr.2.1.code
      attrLen := descr.2.2, attrValue := none }

/-- `create table` goes through: the statement is parsed, `mk_attr_descrs` takes its
attributes over and `createRel` succeeds. -/
def Creates (address : Text → Int) (mem : Uninit) (tmpRid : RID) (w : World) (relname : Text)
    (attrs : CommaList Attrtype) (primary : Option (Text × Int)) : Prop :=
  ∃ attrlist primattr taken descrs w',
    (Command.create relname attrs primary).action address 0 =
        .ok (.CREATE relname attrlist primattr, taken) ∧
      attrDescrs attrlist 0 = .ok (some descrs) ∧
      RelCatalog.createRel mem tmpRid relname (createAttrs relname descrs) w = (.ok .OK, w')

variable {address : Text → Int} {mem : Uninit} {tmpRid : RID} {w : World} {relname : Text}
  {attrs : CommaList Attrtype} {primary : Option (Text × Int)}

theorem Creates.length_lt (creates : Creates address mem tmpRid w relname attrs primary) :
    attrs.toList.length < MAXATTRS := by
  obtain ⟨attrlist, primattr, taken, descrs, w', parsed, described, _⟩ := creates
  have tree := (Command.create_takes address relname attrs primary).value_eq parsed
  obtain ⟨_, rfl, _⟩ := NODE.CREATE.inj tree
  rw [attr_descrs_node address attrs (by decide)] at described
  by_contra many
  rw [if_neg (by omega)] at described
  cases described

/-- A relation that can be created has less than `MAXATTRS` attributes; an `insert` that gives
all of them a value gets through the parser exactly if there are at most 24 of them. -/
theorem created_relation_insert_parsed_iff
    (creates : Creates address mem tmpRid w relname attrs primary) (attribs : CommaList Text)
    (values : CommaList Value)
    (named : attribs.toList.Perm (attrs.toList.map Attrtype.attrname))
    (given : values.toList.length = attribs.toList.length) :
    attrs.toList.length < MAXATTRS ∧
      ((∃ tree taken, (Command.insert relname attribs values).action address 0 =
          .ok (tree, taken)) ↔ attrs.toList.length ≤ 24) := by
  have count : attribs.toList.length = attrs.toList.length := by simpa using named.length_eq
  constructor
  · exact creates.length_lt
  · rw [(Command.insert_takes address relname attribs values given).parsed_iff, count]
    unfold MAXNODE
    omega

/-- Columns of type `int`, one more than the number. -/
def intColumns : Nat → CommaList Attrtype
  | 0 => .single (.int [97, 48])
  | n + 1 => .cons (.int (97 :: Literal.decimal (n + 1))) (intColumns n)

def intValues (attrs : CommaList Attrtype) : CommaList Value := attrs.map fun _ => .INTEGER 7

def openedDatabase : World :=
  ((do
    let _ ← HeapFile.new zeroMemory RELCATNAME
    let _ ← HeapFile.new zeroMemory ATTRCATNAME
    pure () : DbM Unit) newDatabase).2

/-- What is left to show of a statement whose tree fits into the pool. -/
theorem creates_of_run {descrs : List (Text × Datatype × Int)}
    (fits : (attrs.toList.map fun attr => attr.nodes + 1).sum + (primary.toList.length + 1) ≤
      MAXNODE)
    (few : attrs.toList.length < MAXATTRS)
    (described : attrs.toList.mapM (Attrtype.descr address) = some descrs)
    (created : (RelCatalog.createRel mem tmpRid relname (createAttrs relname descrs) w).1 =
      .ok .OK) : Creates address mem tmpRid w relname attrs primary := by
  have parsed := (Command.create_takes address relname attrs primary).run
  rw [if_pos fits] at parsed
  have taken := attr_descrs_node address attrs (i := 0) (by decide)
  rw [if_pos (by simpa using few), described] at taken
  exact ⟨_, _, _, descrs, _, parsed, taken, DbM.run_of_value created⟩

theorem created_relation_insert_parsed_iff_full_row :
    ∃ tree taken, (Command.insert [116] ((intColumns 23).map Attrtype.attrname)
      (intValues (intColumns 23))).action (fun _ => 0) 0 = .ok (tree, taken) := by
  have creates : Creates (fun _ => 0) zeroMemory NULLRID openedDatabase [116] (intColumns 23)
      none := by
    apply creates_of_run (by decide) (by decide) rfl
    decide +kernel
  have names : ((intColumns 23).map Attrtype.attrname).toList =
      (intColumns 23).toList.map Attrtype.attrname := CommaList.to_list_map _ _
  obtain ⟨_, parsed⟩ := created_relation_insert_parsed_iff creates
    ((intColumns 23).map Attrtype.attrname) (intValues (intColumns 23))
    (by rw [names]) (by decide)
  exact parsed.mpr (by decide)

/-- A table of 25 columns is created, and the `insert` of a full row ends the process. -/
theorem created_relation_insert_exits :
    Creates (fun _ => 0) zeroMemory NULLRID openedDatabase [116] (intColumns 24) none ∧
      (Command.insert [116] ((intColumns 24).map Attrtype.attrname)
        (intValues (intColumns 24))).action (fun _ => 0) 0 = .error .exit := by
  have given : (intValues (intColumns 24)).toList.length =
      ((intColumns 24).map Attrtype.attrname).toList.length := by decide
  constructor
  · apply creates_of_run (by decide) (by decide) rfl
    decide +kernel
  · rw [(Command.insert_takes (fun _ => 0) [116] _ _ given).run, if_neg (by decide)]

end Creation

end PrimitiveDB

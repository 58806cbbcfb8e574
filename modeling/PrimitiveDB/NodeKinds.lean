import PrimitiveDB.Interpreter

/-!
# Node kinds

Which statements give trees that `echo_query` and `interp` read by the kinds of
their nodes. The shape of a tree follows from the derivation of the statement, and
on a tree of that shape the consumers either fault or do not, whatever the calls of
the database return.
-/

namespace PrimitiveDB

open Grammar

set_option autoImplicit false

@[simp] theorem reading_bind {α β : Type} (value : α) (next : α → Except Fault β) :
    (Except.ok value >>= next) = next value := rfl

@[simp] theorem reading_pure {α : Type} (value : α) : (pure value : Except Fault α) = .ok value :=
  rfl

/-- An action that does not fault, and whose result has a property unless the process
ends. -/
def Gives {α : Type} (action : ParseM α) (property : α → Prop) : Prop :=
  ∀ nodeptr, match action nodeptr with
    | .ok (value, _) => property value
    | .error .exit => True
    | .error (.fault _) => False

section Gives

variable {α β : Type} {property : α → Prop} {property' : β → Prop}

theorem gives_pure {value : α} (holds : property value) : Gives (pure value) property :=
  fun _ => holds

theorem gives_bind {first : ParseM α} {second : α → ParseM β} (left : Gives first property)
    (right : ∀ value, property value → Gives (second value) property') :
    Gives (first >>= second) property' := by
  intro nodeptr
  have here := left nodeptr
  change match (first nodeptr >>= fun ends => second ends.1 ends.2) with
    | .ok (value, _) => property' value
    | .error .exit => True
    | .error (.fault _) => False
  cases ends : first nodeptr with
  | error stop =>
      rw [ends] at here
      cases stop with
      | exit => trivial
      | fault fault => exact here
  | ok result =>
      rw [ends] at here
      exact right result.1 here result.2

theorem gives_reading {read : Except Fault α} {value : α} (reads : read = .ok value)
    (holds : property value) : Gives (ParseM.reading read) property := by
  subst reads
  exact gives_pure holds

theorem gives_reading_bind {read : Except Fault α} {value : α} {next : α → ParseM β}
    (reads : read = .ok value) (gives : Gives (next value) property') :
    Gives (ParseM.reading read >>= next) property' := by
  subst reads
  exact gives

theorem gives_newnode {node : NODE} {property : NODE → Prop} (holds : property node) :
    Gives (newnode node) property := by
  intro nodeptr
  have runs : newnode node nodeptr =
      if nodeptr = MAXNODE then .error .exit else .ok (node, nodeptr + 1) := by
    by_cases full : nodeptr = MAXNODE
    · rw [if_pos full, full]
      rfl
    · rw [if_neg full]
      simp [newnode, full, bind, StateT.bind, get, getThe, MonadStateOf.get, StateT.get, set,
        StateT.set, Except.bind, pure, StateT.pure, Except.pure]
  rw [runs]
  by_cases full : nodeptr = MAXNODE
  · rw [if_pos full]
    trivial
  · rw [if_neg full]
    exact holds

theorem gives_exit : Gives (throw Stop.exit : ParseM α) property := fun _ => trivial

theorem Gives.mono {stronger : α → Prop} {action : ParseM α} (gives : Gives action stronger)
    (weaker : ∀ value, stronger value → property value) : Gives action property := by
  intro nodeptr
  have here := gives nodeptr
  cases ends : action nodeptr with
  | error stop =>
      rw [ends] at here
      cases stop with
      | exit => trivial
      | fault fault => exact here
  | ok result =>
      rw [ends] at here
      exact weaker _ here

end Gives

/-- A computation of the interpreter that ends from every state, without a fault and with
a result that has the property. -/
def Returns {σ α : Type} (computation : ExceptT Fault (StateM σ) α) (property : α → Prop) : Prop :=
  ∀ state, ∃ value state', computation state = (.ok value, state') ∧ property value

def Faultless {σ α : Type} (computation : ExceptT Fault (StateM σ) α) : Prop :=
  Returns computation fun _ => True

section Faultless

variable {σ α β : Type} {property : α → Prop} {property' : β → Prop}

theorem returns_pure {value : α} (holds : property value) :
    Returns (pure value : ExceptT Fault (StateM σ) α) property :=
  fun state => ⟨value, state, rfl, holds⟩

theorem faultless_pure (value : α) : Faultless (pure value : ExceptT Fault (StateM σ) α) :=
  returns_pure trivial

theorem returns_bind {first : ExceptT Fault (StateM σ) α}
    {second : α → ExceptT Fault (StateM σ) β} (left : Returns first property)
    (right : ∀ value, property value → Returns (second value) property') :
    Returns (first >>= second) property' := by
  intro state
  obtain ⟨value, state', run, holds⟩ := left state
  obtain ⟨value', state'', run', holds'⟩ := right value holds state'
  refine ⟨value', state'', ?_, holds'⟩
  have split : (first >>= second) state =
      (ExceptT.bindCont second (first state).1 : StateM σ _) (first state).2 := rfl
  rw [split, run]
  exact run'

theorem faultless_calling (call : StateM σ α) : Faultless (calling call) :=
  fun state => ⟨(call state).1, (call state).2, rfl, trivial⟩

theorem returns_calling_bind {call : StateM σ α} {second : α → ExceptT Fault (StateM σ) β}
    (right : ∀ value, Returns (second value) property') :
    Returns (calling call >>= second) property' :=
  returns_bind (faultless_calling call) fun value _ => right value

theorem reading_ok_bind {m : Type → Type} [Monad m] [LawfulMonad m] {read : Except Fault α}
    {value : α} (reads : read = .ok value) (next : α → ExceptT Fault m β) :
    (reading read >>= next) = next value := by
  subst reads
  exact pure_bind value next

end Faultless

def NODE.All (property : NODE → Prop) : NODE → Prop
  | NULL => True
  | LIST self next => property self ∧ next.All property
  | _ => False

def NODE.Some (property : NODE → Prop) (several : Bool) (n : NODE) : Prop :=
  ∃ self next, n = .LIST self next ∧ property self ∧ next.All property ∧ next.isNode = several

inductive IsAlias : NODE → Prop
  | alias_ (relname : Text) (name : Option Text) : IsAlias (.ALIAS relname name)

inductive IsQualattr : NODE → Prop
  | qualattr (relname : Option Text) (attrname : Text) : IsQualattr (.QUALATTR relname attrname)

inductive IsReplaced : NODE → Prop
  | qualattr (relname attrname : Text) : IsReplaced (.QUALATTR (some relname) attrname)

inductive IsAttrib : NODE → Prop
  | attrval (attrname : Text) : IsAttrib (.ATTRVAL attrname .NULL)

inductive IsValue : NODE → Prop
  | value (value : Value) : IsValue (.VALUE value)

inductive IsAttrval : NODE → Prop
  | attrval (attrname : Text) (value : Value) : IsAttrval (.ATTRVAL attrname (.VALUE value))

inductive IsAttrtype : NODE → Prop
  | attrtype (attrname : Text) (type : Int) : IsAttrtype (.ATTRTYPE attrname type)

section Lists

variable {α : Type} {property : NODE → Prop}

theorem NODE.Some.all {several : Bool} {n : NODE} (some_ : n.Some property several) :
    n.All property := by
  obtain ⟨self, next, rfl, here, rest, _⟩ := some_
  exact ⟨here, rest⟩

theorem NODE.Some.is_node {several : Bool} {n : NODE} (some_ : n.Some property several) :
    n.isNode = true := by
  obtain ⟨self, next, rfl, _⟩ := some_
  rfl

theorem gives_prepend {several : Bool} {n list : NODE} (here : property n)
    (rest : list.Some property several) : Gives (prepend n list) (NODE.Some property true) :=
  gives_newnode ⟨n, list, rfl, here, rest.all, rest.is_node⟩

theorem gives_list_node {n : NODE} (here : property n) :
    Gives (list_node n) (NODE.Some property false) :=
  gives_newnode ⟨n, .NULL, rfl, here, trivial, rfl⟩

theorem comma_list_gives {item : α → ParseM NODE} (gives : ∀ value, Gives (item value) property)
    (list : CommaList α) : Gives (list.action item) (NODE.All property) := by
  have some_ : Gives (list.action item) fun n => ∃ several, n.Some property several := by
    induction list with
    | cons first rest ih =>
        apply gives_bind (gives first)
        intro n here
        apply gives_bind ih
        rintro list ⟨several, rest⟩
        exact (gives_prepend here rest).mono fun _ some_ => ⟨true, some_⟩
    | single only =>
        apply gives_bind (gives only)
        intro n here
        exact (gives_list_node here).mono fun _ some_ => ⟨false, some_⟩
  exact some_.mono fun n ⟨_, some_⟩ => some_.all

theorem paren_list_gives {item : α → ParseM NODE} (gives : ∀ value, Gives (item value) property)
    (list : ParenList α) : Gives (list.action item) (NODE.Some property list.several) := by
  induction list with
  | parens inner ih => exact ih
  | cons first rest ih =>
      apply gives_bind (gives first)
      intro n here
      apply gives_bind ih
      intro list rest
      exact gives_prepend here rest
  | single only =>
      apply gives_bind (gives only)
      intro n here
      exact gives_list_node here

end Lists

theorem table_gives (table : Table) : Gives table.action IsAlias := gives_newnode (.alias_ _ _)

theorem qualattr_gives (attr : Qualattr) : Gives attr.action IsQualattr :=
  gives_newnode (.qualattr _ _)

theorem attrtype_gives (address : Text → Int) (attr : Attrtype) :
    Gives (attr.action address) IsAttrtype := by
  cases attr with
  | int attrname => exact gives_newnode (.attrtype _ _)
  | real attrname => exact gives_newnode (.attrtype _ _)
  | char attrname length =>
      apply gives_bind (gives_newnode (IsValue.value length))
      intro n isValue
      cases isValue with
      | value value =>
          apply gives_reading_bind (rfl : (NODE.VALUE value).asVALUE = .ok value)
          exact gives_newnode (.attrtype _ _)
  | charDefault attrname => exact gives_newnode (.attrtype _ _)

section Aliases

variable {alias_ : NODE} {several : Bool}

theorem find_match_reads (aliases : alias_.All IsAlias) (name : Text) :
    ∃ found, find_match_in_alias alias_ name = .ok found := by
  induction alias_ with
  | NULL => exact ⟨none, rfl⟩
  | LIST self next _ ih =>
      obtain ⟨isAlias, rest⟩ := aliases
      cases isAlias with
      | alias_ relname other =>
          by_cases same : relname = name
          · exact ⟨some name, by simp [find_match_in_alias, NODE.asALIAS, same]⟩
          · by_cases matched : other = some name
            · exact ⟨some relname, by simp [find_match_in_alias, NODE.asALIAS, same, matched]⟩
            · obtain ⟨found, later⟩ := ih rest
              refine ⟨found, ?_⟩
              rw [← later]
              simp [find_match_in_alias, NODE.asALIAS, same, matched]
  | _ => exact absurd aliases id

theorem replace_alias_reads (aliases : alias_.Some IsAlias several) (relname : Option Text) :
    ∃ found, replace_alias alias_ relname = .ok found := by
  cases relname with
  | some name => exact find_match_reads aliases.all name
  | none =>
      obtain ⟨self, next, rfl, isAlias, _, _⟩ := aliases
      cases isAlias with
      | alias_ relname other =>
          cases node : next.isNode with
          | true => exact ⟨none, by simp [replace_alias, NODE.asLIST, node]⟩
          | false =>
              exact ⟨some relname, by simp [replace_alias, NODE.asLIST, NODE.asALIAS, node]⟩

/-- The attribute gets the relation that its qualifier stands for. -/
theorem replace_qualattr_reads (aliases : alias_.Some IsAlias several) (relname : Option Text)
    (attrname : Text) : ∃ found, replace_alias alias_ relname = .ok found ∧
      replace_alias_in_qualattr alias_ (.QUALATTR relname attrname) =
        .ok (found.map fun relname => .QUALATTR (some relname) attrname) := by
  obtain ⟨found, replaced⟩ := replace_alias_reads aliases relname
  refine ⟨found, replaced, ?_⟩
  cases found <;>
    simp [replace_alias_in_qualattr, NODE.qualattrRelname, NODE.qualattrAttrname, replaced]

theorem replace_list_reads (aliases : alias_.Some IsAlias several) {list : NODE}
    (attrs : list.All IsQualattr) :
    ∃ found, replace_alias_in_qualattr_list alias_ list = .ok found ∧
      ∀ list', found = some list' → list'.All IsReplaced ∧ list'.isNode = list.isNode := by
  induction list with
  | NULL =>
      refine ⟨some .NULL, rfl, ?_⟩
      rintro list' ⟨⟩
      exact ⟨trivial, rfl⟩
  | LIST self next _ ih =>
      obtain ⟨isQualattr, rest⟩ := attrs
      cases isQualattr with
      | qualattr relname attrname =>
          obtain ⟨found, _, here⟩ := replace_qualattr_reads aliases relname attrname
          obtain ⟨later, there, replaced⟩ := ih rest
          cases found with
          | none =>
              refine ⟨none, ?_, by simp⟩
              simp [replace_alias_in_qualattr_list, here]
          | some found =>
              cases later with
              | none =>
                  refine ⟨none, ?_, by simp⟩
                  simp [replace_alias_in_qualattr_list, here, there]
              | some later =>
                  refine ⟨some (.LIST (.QUALATTR (some found) attrname) later), ?_, ?_⟩
                  · simp [replace_alias_in_qualattr_list, here, there]
                  · rintro list' ⟨⟩
                    exact ⟨⟨.qualattr _ _, (replaced later rfl).1⟩, rfl⟩
  | _ => exact absurd attrs id

def conditionNode : Option Qual → NODE
  | none => .NULL
  | some (.selection attr op value) =>
      .SELECT (.QUALATTR attr.relname attr.attrname) op (.VALUE value)
  | some (.join attr1 op attr2) =>
      .JOIN (.QUALATTR attr1.relname attr1.attrname) op (.QUALATTR attr2.relname attr2.attrname)

def ConditionShape : Option Qual → NODE → Prop
  | none, n => n = .NULL
  | some (.selection attr op value), n =>
      ∃ relname, n = .SELECT (.QUALATTR (some relname) attr.attrname) op (.VALUE value)
  | some (.join attr1 op attr2), n => ∃ relname1 relname2,
      n = .JOIN (.QUALATTR (some relname1) attr1.attrname) op
        (.QUALATTR (some relname2) attr2.attrname)

theorem condition_gives (where_ : Option Qual) :
    Gives (Qual.optAction where_) fun n => n = conditionNode where_ := by
  cases where_ with
  | none => exact gives_pure rfl
  | some qual =>
      cases qual with
      | selection attr op value =>
          have first : Gives attr.action fun n => n = .QUALATTR attr.relname attr.attrname :=
            gives_newnode rfl
          have second : Gives (value_node value) fun n => n = .VALUE value := gives_newnode rfl
          apply gives_bind first
          rintro _ rfl
          apply gives_bind second
          rintro _ rfl
          exact gives_newnode rfl
      | join attr1 op attr2 =>
          have operand : ∀ attr : Qualattr, Gives attr.action
              fun n => n = .QUALATTR attr.relname attr.attrname := fun _ => gives_newnode rfl
          apply gives_bind (operand attr1)
          rintro _ rfl
          apply gives_bind (operand attr2)
          rintro _ rfl
          exact gives_newnode rfl

theorem replaced_where_gives (aliases : alias_.Some IsAlias several) (where_ : Option Qual) :
    Gives (Command.replacedWhere alias_ (conditionNode where_))
      fun found => ∀ n, found = some n → ConditionShape where_ n := by
  cases where_ with
  | none =>
      apply gives_pure
      rintro n ⟨⟩
      rfl
  | some qual =>
      cases qual with
      | selection attr op value =>
          obtain ⟨found, _, here⟩ := replace_qualattr_reads aliases attr.relname attr.attrname
          have reads : replace_alias_in_condition alias_
              (conditionNode (some (.selection attr op value))) =
              .ok (found.map fun relname =>
                .SELECT (.QUALATTR (some relname) attr.attrname) op (.VALUE value)) := by
            cases found <;>
              simp [replace_alias_in_condition, conditionNode, NODE.kind, NODE.asSELECT, here]
          apply gives_reading reads
          intro n shown
          obtain ⟨relname, _, rfl⟩ := Option.map_eq_some_iff.mp shown
          exact ⟨relname, rfl⟩
      | join attr1 op attr2 =>
          obtain ⟨found1, _, here1⟩ := replace_qualattr_reads aliases attr1.relname attr1.attrname
          obtain ⟨found2, _, here2⟩ := replace_qualattr_reads aliases attr2.relname attr2.attrname
          have reads : replace_alias_in_condition alias_
              (conditionNode (some (.join attr1 op attr2))) =
              .ok (found1.bind fun relname1 => found2.map fun relname2 =>
                .JOIN (.QUALATTR (some relname1) attr1.attrname) op
                  (.QUALATTR (some relname2) attr2.attrname)) := by
            cases found1 <;> cases found2 <;>
              simp [replace_alias_in_condition, conditionNode, NODE.kind, NODE.asJOIN, here1, here2]
          apply gives_reading reads
          intro n shown
          obtain ⟨relname1, _, shown⟩ := Option.bind_eq_some_iff.mp shown
          obtain ⟨relname2, _, rfl⟩ := Option.map_eq_some_iff.mp shown
          exact ⟨relname1, relname2, rfl⟩

end Aliases

theorem merge_reads {attribs values : NODE} (left : attribs.All IsAttrib)
    (right : values.All IsValue) :
    ∃ found, merge_attr_value_list attribs values = .ok found ∧
      ∀ list, found = some list → list.All IsAttrval := by
  induction attribs generalizing values with
  | NULL =>
      refine ⟨if values.isNode then none else some .NULL, rfl, ?_⟩
      intro list shown
      cases node : values.isNode with
      | true => simp [node] at shown
      | false =>
          simp only [node, Bool.false_eq_true, if_false, Option.some.injEq] at shown
          rw [← shown]
          trivial
  | LIST self next _ ih =>
      obtain ⟨isAttrib, rest⟩ := left
      cases isAttrib with
      | attrval attrname =>
          cases values with
          | NULL => exact ⟨none, rfl, by simp⟩
          | LIST value nextValue =>
              obtain ⟨isValue, restValues⟩ := right
              obtain ⟨found, merged, shape⟩ := ih rest restValues
              cases found with
              | none =>
                  refine ⟨none, ?_, by simp⟩
                  simp [merge_attr_value_list, NODE.asATTRVAL, merged]
              | some found =>
                  refine ⟨some (.LIST (.ATTRVAL attrname value) found), ?_, ?_⟩
                  · simp [merge_attr_value_list, NODE.asATTRVAL, merged]
                  · rintro list ⟨⟩
                    cases isValue with
                    | value value => exact ⟨.attrval _ _, shape found rfl⟩
          | _ => exact absurd right id
  | _ => exact absurd left id

def CommandShape (tree : NODE) : Command → Prop
  | .selectStar into tables where_ => ∃ attrlist qual, tree = .QUERY into attrlist qual ∧
      (if tables.several then attrlist = .NULL else ∃ relname, attrlist = .STAR relname) ∧
      ConditionShape where_ qual
  | .select _ into _ where_ => ∃ attrlist qual, tree = .QUERY into attrlist qual ∧
      attrlist.All IsReplaced ∧ attrlist.isNode = true ∧ ConditionShape where_ qual
  | .insert relname _ _ => ∃ attrlist, tree = .INSERT relname attrlist ∧ attrlist.All IsAttrval
  | .delete relname where_ => tree = .DELETE relname (conditionNode where_)
  | .create relname _ _ => ∃ attrlist primattr, tree = .CREATE relname attrlist primattr ∧
      attrlist.All IsAttrtype ∧
        (primattr = .NULL ∨ ∃ name nbuckets, primattr = .PRIMATTR name nbuckets)
  | .destroy relname => tree = .DESTROY relname
  | .build relname attrname => tree = .BUILD relname attrname 0
  | .drop relname attrname => tree = .DROP relname attrname
  | .load relname filename => tree = .LOAD relname filename
  | .print relname => tree = .PRINT relname
  | .help relname => tree = .HELP relname
  | .quit => False
  | .nothing => tree = .NULL

/-- No action faults, and the tree of a command, if there is one, has its shape. -/
theorem command_gives (address : Text → Int) (command : Command) :
    Gives (command.action address) fun tree => tree.isNode = true → CommandShape tree command := by
  have wrong : Gives (pure NODE.NULL : ParseM NODE)
      fun tree => tree.isNode = true → CommandShape tree command :=
    gives_pure fun node => absurd node (by decide)
  cases command with
  | selectStar into tables where_ =>
      apply gives_bind (paren_list_gives table_gives tables)
      intro alias_ aliases
      apply gives_bind (condition_gives where_)
      rintro _ rfl
      apply gives_bind (replaced_where_gives aliases where_)
      intro found shape
      cases found with
      | none => exact wrong
      | some qual =>
          have star : Gives (star_node alias_) fun attrlist =>
              if tables.several then attrlist = .NULL else ∃ relname, attrlist = .STAR relname := by
            obtain ⟨self, next, rfl, isAlias, _, node⟩ := aliases
            cases isAlias with
            | alias_ relname other =>
                cases several : tables.several with
                | true =>
                    rw [several] at node
                    simp only [star_node, NODE.asLIST, ParseM.reading, pure_bind, node, if_true]
                    exact gives_pure rfl
                | false =>
                    rw [several] at node
                    simp only [star_node, NODE.asLIST, NODE.asALIAS, ParseM.reading, pure_bind,
                      node, Bool.false_eq_true, if_false]
                    exact gives_newnode ⟨relname, rfl⟩
          apply gives_bind star
          intro attrlist starred
          exact gives_newnode fun _ => ⟨attrlist, qual, rfl, starred, shape qual rfl⟩
  | select attrs into tables where_ =>
      apply gives_bind (paren_list_gives qualattr_gives attrs)
      intro list listed
      apply gives_bind (paren_list_gives table_gives tables)
      intro alias_ aliases
      apply gives_bind (condition_gives where_)
      rintro _ rfl
      obtain ⟨found, reads, replaced⟩ := replace_list_reads aliases listed.all
      apply gives_reading_bind reads
      cases found with
      | none => exact wrong
      | some list' =>
          obtain ⟨attrsReplaced, node⟩ := replaced list' rfl
          rw [listed.is_node] at node
          apply gives_bind (replaced_where_gives aliases where_)
          intro found shape
          cases found with
          | none => exact wrong
          | some qual =>
              exact gives_newnode fun _ => ⟨list', qual, rfl, attrsReplaced, node, shape qual rfl⟩
  | insert relname attribs values =>
      have attrib : ∀ attrname, Gives (attrval_node attrname .NULL) IsAttrib :=
        fun attrname => gives_newnode (.attrval attrname)
      have item : ∀ value, Gives (value_node value) IsValue :=
        fun value => gives_newnode (.value value)
      apply gives_bind (comma_list_gives attrib attribs)
      intro left attribsShape
      apply gives_bind (comma_list_gives item values)
      intro right valuesShape
      obtain ⟨found, reads, merged⟩ := merge_reads attribsShape valuesShape
      apply gives_reading_bind reads
      cases found with
      | none => exact wrong
      | some list => exact gives_newnode fun _ => ⟨list, rfl, merged list rfl⟩
  | delete relname where_ =>
      apply gives_bind (condition_gives where_)
      rintro _ rfl
      exact gives_newnode fun _ => rfl
  | create relname attrs primary =>
      apply gives_bind (comma_list_gives (attrtype_gives address) attrs)
      intro list listed
      have primattr : Gives (Command.optPrimary primary) fun n =>
           n = .NULL ∨ ∃ name nbuckets, n = .PRIMATTR name nbuckets := by
        cases primary with
        | none => exact gives_pure (.inl rfl)
        | some primary => exact gives_newnode (.inr ⟨_, _, rfl⟩)
      apply gives_bind primattr
      intro n shape
      exact gives_newnode fun _ => ⟨list, n, rfl, listed, shape⟩
  | quit => exact gives_exit
  | nothing => exact wrong
  | _ => exact gives_newnode fun _ => rfl

section Members

variable {left right : NODE} {op : Operator} {relname : Option Text} {attrname : Text}
  {value : Value} {nbuckets : Int}

theorem select_kind : (NODE.SELECT left op right).kind = .ok .N_SELECT := rfl

theorem as_select : (NODE.SELECT left op right).asSELECT = .ok (left, op, right) := rfl

theorem join_kind : (NODE.JOIN left op right).kind = .ok .N_JOIN := rfl

theorem as_join : (NODE.JOIN left op right).asJOIN = .ok (left, op, right) := rfl

theorem qualattr_relname : (NODE.QUALATTR relname attrname).qualattrRelname = .ok relname := rfl

theorem qualattr_attrname : (NODE.QUALATTR relname attrname).qualattrAttrname = .ok attrname := rfl

theorem as_value : (NODE.VALUE value).asVALUE = .ok value := rfl

theorem as_primattr :
    (NODE.PRIMATTR attrname nbuckets).asPRIMATTR = .ok (attrname, nbuckets) := rfl

end Members

section Consumers

variable {list : NODE}

theorem print_attrnames_reads (attrs : list.All IsReplaced) : print_attrnames list = .ok () := by
  induction list with
  | NULL => rfl
  | LIST self next _ ih =>
      obtain ⟨isReplaced, rest⟩ := attrs
      cases isReplaced with
      | qualattr relname attrname =>
          simp [print_attrnames, print_qualattr, NODE.qualattrRelname, NODE.qualattrAttrname,
            ih rest]
  | _ => exact absurd attrs id

theorem print_attrvals_reads (attrs : list.All IsAttrval) : print_attrvals list = .ok () := by
  induction list with
  | NULL => rfl
  | LIST self next _ ih =>
      obtain ⟨isAttrval, rest⟩ := attrs
      cases isAttrval with
      | attrval attrname value =>
          simp [print_attrvals, print_val, NODE.asATTRVAL, NODE.asVALUE, ih rest]
  | _ => exact absurd attrs id

theorem print_attrdescrs_reads (attrs : list.All IsAttrtype) :
    print_attrdescrs list = .ok () := by
  induction list with
  | NULL => rfl
  | LIST self next _ ih =>
      obtain ⟨isAttrtype, rest⟩ := attrs
      cases isAttrtype with
      | attrtype attrname type => simp [print_attrdescrs, NODE.asATTRTYPE, ih rest]
  | _ => exact absurd attrs id

theorem print_condition_reads (where_ : Option Qual) :
    print_qual (conditionNode where_) = .ok () := by
  cases where_ with
  | none => rfl
  | some qual => cases qual <;> rfl

theorem print_qual_reads {where_ : Option Qual} {qual : NODE}
    (shape : ConditionShape where_ qual) : print_qual qual = .ok () := by
  cases where_ with
  | none =>
      obtain rfl : qual = .NULL := shape
      rfl
  | some given =>
      cases given with
      | selection attr op value =>
          obtain ⟨relname, rfl⟩ := shape
          rfl
      | join attr1 op attr2 =>
          obtain ⟨relname1, relname2, rfl⟩ := shape
          rfl

theorem attrnames_reads (attrs : list.All IsReplaced) (i : Nat) (relname : Option Text)
    (given : relname.isSome ∨ list.isNode = true) :
    ∃ found, attrnames list i relname = .ok found ∧
      ∀ names relname', found = some (names, relname') → relname'.isSome := by
  induction list generalizing i relname with
  | NULL =>
      refine ⟨_, rfl, ?_⟩
      intro names relname' shown
      split at shown
      · cases shown
      · obtain ⟨_, rfl⟩ := Prod.mk.inj (Option.some.inj shown)
        exact given.resolve_right (by decide)
  | LIST self next _ ih =>
      obtain ⟨isReplaced, rest⟩ := attrs
      by_cases many : i = MAXATTRS
      · exact ⟨none, by simp [attrnames, many], by simp⟩
      · cases isReplaced with
        | qualattr other attrname =>
            -- the relation that the rest of the list is compared with
            have later : ∀ relation, ∃ found, attrnames next (i + 1) (some relation) = .ok found ∧
                ∀ names relname', found = some (names, relname') → relname'.isSome :=
              fun relation => ih rest (i + 1) (some relation) (.inl rfl)
            have step : ∀ relation, (relname = none → relation = other) →
                (∀ name, relname = some name → name = other ∧ relation = name) →
                ∃ found, attrnames (.LIST (.QUALATTR (some other) attrname) next) i relname =
                    .ok found ∧
                  ∀ names relname', found = some (names, relname') → relname'.isSome := by
              intro relation first same
              obtain ⟨found, reads, shown⟩ := later relation
              cases found with
              | none =>
                  refine ⟨none, ?_, by simp⟩
                  cases relname with
                  | none =>
                      obtain rfl := first rfl
                      simp [attrnames, many, NODE.qualattrRelname, NODE.qualattrAttrname, reads]
                  | some name =>
                      obtain ⟨rfl, rfl⟩ := same name rfl
                      simp [attrnames, many, NODE.qualattrRelname, NODE.qualattrAttrname,
                        readString, reads]
              | some found =>
                  refine ⟨some (attrname :: found.1, found.2), ?_, ?_⟩
                  · cases relname with
                    | none =>
                        obtain rfl := first rfl
                        simp [attrnames, many, NODE.qualattrRelname, NODE.qualattrAttrname, reads]
                    | some name =>
                        obtain ⟨rfl, rfl⟩ := same name rfl
                        simp [attrnames, many, NODE.qualattrRelname, NODE.qualattrAttrname,
                          readString, reads]
                  · rintro names relname' ⟨⟩
                    exact shown found.1 found.2 rfl
            cases relname with
            | none => exact step other (fun _ => rfl) (by simp)
            | some name =>
                by_cases same : name = other
                · exact step name (by simp) (by simp [same])
                · refine ⟨none, ?_, by simp⟩
                  simp [attrnames, many, NODE.qualattrRelname, readString, same]
  | _ => exact absurd attrs id

theorem qual_attrs_reads (attrs : list.All IsReplaced) (relname1 relname2 : Text) (i : Nat) :
    ∃ found, qualAttrs (some relname1) (some relname2) list i = .ok found := by
  induction list generalizing i with
  | NULL => exact ⟨_, rfl⟩
  | LIST self next _ ih =>
      obtain ⟨isReplaced, rest⟩ := attrs
      by_cases many : i = MAXATTRS
      · exact ⟨none, by simp [qualAttrs, many]⟩
      · obtain ⟨found, reads⟩ := ih rest (i + 1)
        cases isReplaced with
        | qualattr other attrname =>
            by_cases first : other = relname1
            · cases found <;> exact ⟨_, by simp [qualAttrs, many, NODE.qualattrRelname,
                NODE.qualattrAttrname, readString, first, reads]; rfl⟩
            · by_cases second : other = relname2
              · cases found <;> exact ⟨_, by simp [qualAttrs, many, NODE.qualattrRelname,
                  NODE.qualattrAttrname, readString, second, reads]; rfl⟩
              · exact ⟨none, by simp [qualAttrs, many, NODE.qualattrRelname, readString, first,
                  second]⟩
  | _ => exact absurd attrs id

theorem attr_descrs_reads (attrs : list.All IsAttrtype) (i : Nat) :
    ∃ found, attrDescrs list i = .ok found := by
  induction list generalizing i with
  | NULL => exact ⟨_, rfl⟩
  | LIST self next _ ih =>
      obtain ⟨isAttrtype, rest⟩ := attrs
      by_cases many : i = MAXATTRS
      · exact ⟨none, by simp [attrDescrs, many]⟩
      · obtain ⟨found, reads⟩ := ih rest (i + 1)
        cases isAttrtype with
        | attrtype attrname format =>
            cases parsed : parse_format_string format with
            | none => exact ⟨none, by simp [attrDescrs, many, NODE.asATTRTYPE, parsed]⟩
            | some descr =>
                cases found <;>
                  exact ⟨_, by simp [attrDescrs, many, NODE.asATTRTYPE, parsed, reads]; rfl⟩
  | _ => exact absurd attrs id

theorem ins_attrs_reads (attrs : list.All IsAttrval) (i : Nat) :
    ∃ found, insAttrs list i = .ok found := by
  induction list generalizing i with
  | NULL => exact ⟨_, rfl⟩
  | LIST self next _ ih =>
      obtain ⟨isAttrval, rest⟩ := attrs
      by_cases many : i = MAXATTRS
      · exact ⟨none, by simp [insAttrs, many]⟩
      · obtain ⟨found, reads⟩ := ih rest (i + 1)
        cases isAttrval with
        | attrval attrname value =>
            by_cases long : value.type = .STRING ∧ value.len > MAXSTRINGLEN
            · exact ⟨none, by simp [insAttrs, many, NODE.asATTRVAL, NODE.asVALUE, long]⟩
            · cases found <;> exact ⟨_, by
                simp [insAttrs, many, NODE.asATTRVAL, NODE.asVALUE, long, reads]; rfl⟩
  | _ => exact absurd attrs id

end Consumers

section Interpreted

variable {σ : Type} (calls : Calls (StateM σ)) {attrlist : NODE}

theorem mk_attrnames_returns (attrs : attrlist.All IsReplaced) (node : attrlist.isNode = true)
    (relname : Option Text) : Returns (mk_attrnames calls attrlist relname)
      fun found => ∀ names relname', found = some (names, relname') → relname'.isSome := by
  cases attrlist with
  | LIST self next =>
      obtain ⟨found, reads, shown⟩ := attrnames_reads attrs 0 relname (.inr node)
      unfold mk_attrnames
      rw [reading_ok_bind (rfl : (NODE.LIST self next).kind = .ok .N_LIST), if_neg (by decide),
        reads]
      exact returns_pure shown
  | NULL => cases node
  | _ => exact absurd attrs id

def SelectCondition : Option (NODE × Operator × NODE) → Prop
  | none => True
  | some (selattr, _, value) => ∃ relname attrname given,
      selattr = .QUALATTR (some relname) attrname ∧ value = .VALUE given

theorem interp_select_faultless (attrs : attrlist.All IsReplaced) (node : attrlist.isNode = true)
    (resultName : FileName) (existing : Option (List AttrDesc)) (counter : Int)
    {cond : Option (NODE × Operator × NODE)} (shape : SelectCondition cond) :
    Faultless (interpSelect calls resultName existing attrlist cond counter) := by
  unfold interpSelect
  cases cond with
  | none =>
      simp only [pure_bind]
      apply returns_bind (mk_attrnames_returns calls attrs node none)
      intro found shown
      cases found with
      | none => exact faultless_pure _
      | some found =>
          obtain ⟨relname, named⟩ := Option.isSome_iff_exists.mp (shown found.1 found.2 rfl)
          have reads : readString found.2 = .ok relname := by
            rw [named]
            rfl
          dsimp only
          rw [reading_ok_bind reads]
          apply returns_calling_bind
          rintro ⟨ready, counter'⟩
          dsimp only
          split
          · exact returns_calling_bind fun _ => returns_calling_bind fun _ => faultless_pure _
          · exact faultless_pure _
  | some cond =>
      obtain ⟨selattr, op, value⟩ := cond
      obtain ⟨relname, attrname, given, rfl, rfl⟩ := shape
      dsimp only
      rw [reading_ok_bind qualattr_relname]
      apply returns_bind (mk_attrnames_returns calls attrs node (some relname))
      intro found shown
      cases found with
      | none => exact faultless_pure _
      | some found =>
          obtain ⟨relname', named⟩ := Option.isSome_iff_exists.mp (shown found.1 found.2 rfl)
          have reads : readString found.2 = .ok relname' := by
            rw [named]
            rfl
          dsimp only
          rw [reading_ok_bind reads, bind_assoc, reading_ok_bind qualattr_attrname, bind_assoc,
            reading_ok_bind as_value, pure_bind]
          apply returns_calling_bind
          rintro ⟨ready, counter'⟩
          dsimp only
          split
          · exact returns_calling_bind fun _ => returns_calling_bind fun _ => faultless_pure _
          · exact faultless_pure _

theorem interp_join_faultless (attrs : attrlist.All IsReplaced) (resultName : FileName)
    (existing : Option (List AttrDesc)) (relname1 attrname1 relname2 attrname2 : Text)
    (op : Operator) (counter : Int) :
    Faultless (interpJoin calls resultName existing attrlist
      (.QUALATTR (some relname1) attrname1) op (.QUALATTR (some relname2) attrname2) counter) := by
  obtain ⟨found, reads⟩ := qual_attrs_reads attrs relname1 relname2 0
  unfold interpJoin
  rw [reading_ok_bind qualattr_relname, reading_ok_bind qualattr_relname, reading_ok_bind reads]
  cases found with
  | none => exact faultless_pure _
  | some found =>
      dsimp only
      rw [reading_ok_bind (rfl : readString (some relname1) = .ok relname1),
        reading_ok_bind qualattr_attrname,
        reading_ok_bind (rfl : readString (some relname2) = .ok relname2),
        reading_ok_bind qualattr_attrname]
      apply returns_calling_bind
      rintro ⟨ready, counter'⟩
      dsimp only
      split
      · exact returns_calling_bind fun _ => returns_calling_bind fun _ => faultless_pure _
      · exact faultless_pure _

theorem interp_query_faultless (attrs : attrlist.All IsReplaced) (node : attrlist.isNode = true)
    {where_ : Option Qual} {qual : NODE} (shape : ConditionShape where_ qual)
    (into : Option Text) (counter : Int) :
    Faultless (interpQuery calls into attrlist qual counter) := by
  unfold interpQuery
  apply returns_calling_bind
  intro target
  cases target with
  | none => exact faultless_pure _
  | some target =>
      dsimp only
      cases where_ with
      | none =>
          obtain rfl : qual = .NULL := shape
          have plain : SelectCondition none := trivial
          rw [if_pos (by decide)]
          exact interp_select_faultless calls attrs node target.1 target.2 counter plain
      | some given =>
          cases given with
          | selection attr op value =>
              obtain ⟨relname, rfl⟩ := shape
              have given : SelectCondition
                  (some (.QUALATTR (some relname) attr.attrname, op, .VALUE value)) :=
                ⟨relname, attr.attrname, value, rfl, rfl⟩
              rw [if_neg (by simp [NODE.isNode]), reading_ok_bind select_kind, if_pos rfl,
                reading_ok_bind as_select]
              exact interp_select_faultless calls attrs node target.1 target.2 counter given
          | join attr1 op attr2 =>
              obtain ⟨relname1, relname2, rfl⟩ := shape
              rw [if_neg (by simp [NODE.isNode]), reading_ok_bind join_kind, if_neg (by decide),
                reading_ok_bind as_join]
              exact interp_join_faultless calls attrs target.1 target.2 relname1 attr1.attrname
                relname2 attr2.attrname op counter

theorem interp_delete_faultless (relname : Text) (where_ : Option Qual) :
    Faultless (interpDelete calls relname (conditionNode where_)) := by
  unfold interpDelete
  cases where_ with
  | none =>
      rw [conditionNode, if_pos (by decide)]
      exact returns_calling_bind fun _ => faultless_pure _
  | some given =>
      cases given with
      | selection attr op value =>
          rw [conditionNode, if_neg (by simp [NODE.isNode]), reading_ok_bind select_kind,
            if_neg (by decide), reading_ok_bind as_select]
          dsimp only
          rw [reading_ok_bind qualattr_attrname, reading_ok_bind as_value]
          exact returns_calling_bind fun _ => faultless_pure _
      | join attr1 op attr2 =>
          rw [conditionNode, if_neg (by simp [NODE.isNode]), reading_ok_bind join_kind,
            if_pos (by decide)]
          exact faultless_pure _

theorem interp_insert_faultless (relname : Text) (attrs : attrlist.All IsAttrval) :
    Faultless (interpInsert calls relname attrlist) := by
  obtain ⟨found, reads⟩ := ins_attrs_reads attrs 0
  unfold interpInsert
  rw [reading_ok_bind reads]
  cases found with
  | none => exact faultless_pure _
  | some found => exact returns_calling_bind fun _ => faultless_pure _

theorem interp_create_faultless (relname : Text) (attrs : attrlist.All IsAttrtype)
    {primattr : NODE}
    (shape : primattr = .NULL ∨ ∃ name nbuckets, primattr = .PRIMATTR name nbuckets) :
    Faultless (interpCreate calls relname attrlist primattr) := by
  obtain ⟨found, reads⟩ := attr_descrs_reads attrs 0
  unfold interpCreate
  rw [reading_ok_bind reads]
  cases found with
  | none => exact faultless_pure _
  | some found =>
      obtain rfl | ⟨name, nbuckets, rfl⟩ := shape
      · dsimp only
        rw [if_neg (by decide)]
        exact returns_calling_bind fun _ => faultless_pure _
      · dsimp only
        rw [if_pos (by rfl), reading_ok_bind as_primattr]
        exact returns_calling_bind fun _ => faultless_pure _

/-- A star over several tables is no list. A join goes through it and finds no attribute. -/
theorem interp_star_join_faultless (relname1 attrname1 relname2 attrname2 : Text)
    (op : Operator) (into : Option Text) (counter : Int) :
    Faultless (interpQuery calls into .NULL (.JOIN (.QUALATTR (some relname1) attrname1) op
      (.QUALATTR (some relname2) attrname2)) counter) := by
  unfold interpQuery
  apply returns_calling_bind
  intro target
  cases target with
  | none => exact faultless_pure _
  | some target =>
      dsimp only
      rw [if_neg (by simp [NODE.isNode]), reading_ok_bind join_kind, if_neg (by decide),
        reading_ok_bind as_join]
      have noAttrs : NODE.All IsReplaced .NULL := trivial
      exact interp_join_faultless calls noAttrs target.1 target.2 relname1 attrname1 relname2
        attrname2 op counter

end Interpreted

/-- What `echo_query` and `interp` read of a tree belongs to the kinds of its nodes, no `NULL`
is read and no assertion fails, whatever the database answers. -/
def KindsRespected (tree : NODE) : Prop :=
  echo_query tree = .ok () ∧
    ∀ (σ : Type) (calls : Calls (StateM σ)) (counter : Int), Faultless (interp calls counter tree)

/-- The statements that are read without a fault: `buildindex` and `dropindex` have no case in
`interp`, and `*` stands for a list only where it is never looked at. -/
def Grammar.Command.Sound : Command → Prop
  | .selectStar _ tables where_ =>
      tables.several = true ∧ ∃ attr1 op attr2, where_ = some (.join attr1 op attr2)
  | .build .. => False
  | .drop .. => False
  | _ => True

def Grammar.Start.Sound : Start → Prop
  | .command body => body.Sound
  | _ => True

theorem sound_respects {tree : NODE} {command : Command} (shape : CommandShape tree command)
    (node : tree.isNode = true) (sound : command.Sound) : KindsRespected tree := by
  cases command with
  | selectStar into tables where_ =>
      obtain ⟨several, attr1, op, attr2, rfl⟩ := sound
      obtain ⟨attrlist, qual, rfl, starred, condition⟩ := shape
      rw [if_pos several] at starred
      obtain ⟨relname1, relname2, rfl⟩ := condition
      subst starred
      refine ⟨rfl, ?_⟩
      intro σ calls counter
      exact interp_star_join_faultless calls relname1 attr1.attrname relname2 attr2.attrname op
        into counter
  | select attrs into tables where_ =>
      obtain ⟨attrlist, qual, rfl, replaced, isNode, condition⟩ := shape
      constructor
      · simp [echo_query, print_attrnames_reads replaced, print_qual_reads condition]
      · intro σ calls counter
        exact interp_query_faultless calls replaced isNode condition into counter
  | insert relname attribs values =>
      obtain ⟨attrlist, rfl, attrvals⟩ := shape
      refine ⟨print_attrvals_reads attrvals, ?_⟩
      intro σ calls counter
      exact returns_bind (interp_insert_faultless calls relname attrvals)
        fun _ _ => faultless_pure counter
  | delete relname where_ =>
      obtain rfl : tree = _ := shape
      refine ⟨print_condition_reads where_, ?_⟩
      intro σ calls counter
      exact returns_bind (interp_delete_faultless calls relname where_)
        fun _ _ => faultless_pure counter
  | create relname attrs primary =>
      obtain ⟨attrlist, primattr, rfl, attrtypes, primary⟩ := shape
      constructor
      · obtain rfl | ⟨name, nbuckets, rfl⟩ := primary
        · simp [echo_query, print_attrdescrs_reads attrtypes, print_primattr, NODE.isNode]
        · simp [echo_query, print_attrdescrs_reads attrtypes, print_primattr, NODE.isNode,
            as_primattr]
      · intro σ calls counter
        exact returns_bind (interp_create_faultless calls relname attrtypes primary)
          fun _ _ => faultless_pure counter
  | build relname attrname => exact absurd sound id
  | drop relname attrname => exact absurd sound id
  | quit => exact absurd shape id
  | nothing =>
      obtain rfl : tree = _ := shape
      cases node
  | _ =>
      obtain rfl : tree = _ := shape
      exact ⟨rfl, fun σ calls counter => returns_calling_bind fun _ => faultless_pure counter⟩

def noRelations : Calls (StateM Unit) where
  attrGetRelInfo _ := pure (.error .RELNOTFOUND)
  relGetInfo _ := pure (.error .RELNOTFOUND)
  attrGetInfo _ _ := pure (.error .RELNOTFOUND)
  createRel _ _ := pure .OK
  destroyRel _ := pure .RELNOTFOUND
  QU_Select _ _ _ _ _ := pure .RELNOTFOUND
  QU_Join _ _ _ _ _ := pure .RELNOTFOUND
  QU_Insert _ _ := pure .RELNOTFOUND
  QU_Delete _ _ _ _ _ := pure .RELNOTFOUND
  UT_Load _ _ := pure .RELNOTFOUND
  UT_Print _ := pure .RELNOTFOUND
  help _ := pure .RELNOTFOUND

theorem respected_runs {tree : NODE} (respected : KindsRespected tree) :
    ∃ counter, interp noRelations 0 tree () = (.ok counter, ()) := by
  obtain ⟨counter, state, run, _⟩ := respected.2 Unit noRelations 0 ()
  exact ⟨counter, run⟩

theorem respected_sound {tree : NODE} {command : Command} (shape : CommandShape tree command)
    (respected : KindsRespected tree) : command.Sound := by
  cases command with
  | selectStar into tables where_ =>
      obtain ⟨attrlist, qual, rfl, starred, condition⟩ := shape
      cases several : tables.several with
      | false =>
          -- the printer takes the star for a list
          rw [several, if_neg (by decide)] at starred
          obtain ⟨relname, rfl⟩ := starred
          have printed := respected.1
          cases printed
      | true =>
          rw [several, if_pos rfl] at starred
          subst starred
          obtain ⟨counter, run⟩ := respected_runs respected
          cases where_ with
          | none =>
              obtain rfl : qual = .NULL := condition
              cases into <;> cases run
          | some given =>
              cases given with
              | selection attr op value =>
                  obtain ⟨relname, rfl⟩ := condition
                  cases into <;> cases run
              | join attr1 op attr2 => exact ⟨several, attr1, op, attr2, rfl⟩
  | build relname attrname =>
      obtain rfl : tree = _ := shape
      obtain ⟨counter, run⟩ := respected_runs respected
      cases run
  | drop relname attrname =>
      obtain rfl : tree = _ := shape
      obtain ⟨counter, run⟩ := respected_runs respected
      cases run
  | _ => trivial

/-- The tree of an accepted statement is read by the kinds of its nodes exactly if the statement
is none of `buildindex`, `dropindex` and a `*` that is looked at. -/
theorem kinds_respected_iff_sound (address : Text → Int) (statement : Start) (tree : NODE)
    (nodeptr : Nat) (built : statement.action address 0 = .ok (tree, nodeptr))
    (node : tree.isNode = true) : KindsRespected tree ↔ statement.Sound := by
  cases statement with
  | command body =>
      have gives := command_gives address body 0
      rw [show body.action address 0 = .ok (tree, nodeptr) from built] at gives
      have shape := gives node
      exact ⟨respected_sound shape, sound_respects shape node⟩
  | shell line =>
      cases built
      cases node
  | eof => cases built

def selectAttribute : Start :=
  .command (.select (.single ⟨some [114], [97]⟩) none (.single ⟨[114], none⟩) none)

theorem kinds_respected_iff_sound_select :
    ∃ tree nodeptr, selectAttribute.action (fun _ => 0) 0 = .ok (tree, nodeptr) ∧
      tree.isNode = true ∧ KindsRespected tree :=
  ⟨.QUERY none (.LIST (.QUALATTR (some [114]) [97]) .NULL) .NULL, 5, rfl, rfl,
    (kinds_respected_iff_sound (fun _ => 0) selectAttribute _ 5 rfl rfl).mpr trivial⟩

def buildIndex : Start := .command (.build [114] [97])

theorem build_index_not_respected :
    ∃ tree nodeptr, buildIndex.action (fun _ => 0) 0 = .ok (tree, nodeptr) ∧
      tree.isNode = true ∧ ¬KindsRespected tree := by
  refine ⟨.BUILD [114] [97] 0, 1, rfl, rfl, ?_⟩
  intro respected
  obtain ⟨counter, run⟩ := respected_runs respected
  cases run

end PrimitiveDB

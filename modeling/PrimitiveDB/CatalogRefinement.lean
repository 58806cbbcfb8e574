import PrimitiveDB.DatabaseRefinement

/-!
# Creating and destroying tables

`createRel` adds a tuple to `relcat` and one for each attribute to `attrcat`, somewhere between
those that are there, and `destroyRel` takes them out again one by one. What is said of the other
relations stays as it was and in its order, so the catalogs describe the tables as before, with
one more or one less.
-/

namespace PrimitiveDB

open World DbM ByteMemory Relational

set_option autoImplicit false

theorem RelCatalog.create_rel_keeps (mem : Uninit) (tmpRid : RID) (relation : FileName)
    (attrList : List AttrInfo) : KeepsFlag (RelCatalog.createRel mem tmpRid relation attrList) := by
  unfold RelCatalog.createRel
  repeat' first
    | exact keeps_pure _ | exact RelCatalog.get_info_keeps _ _ _ | exact add_tuple_keeps _ _ _
    | exact RelCatalog.add_attrs_keeps _ _ _ _ | exact create_heap_file_keeps _
    | apply keeps_bind | intro _ | split

theorem RelCatalog.destroy_rel_keeps (mem : Uninit) (tmpRid : RID) (relation : FileName) :
    KeepsFlag (RelCatalog.destroyRel mem tmpRid relation) := by
  unfold RelCatalog.destroyRel
  repeat' first
    | exact keeps_pure _ | exact AttrCatalog.drop_relation_keeps _ _ _
    | exact RelCatalog.remove_info_keeps _ _ _ | exact destroy_heap_file_keeps _
    | apply keeps_bind | intro _ | split

namespace World

variable {w w' : World} {pins : List Pin} {opens : List FilePtr} {db : Database}
  {name fileName : FileName} {lf lf' : LogicalFile} {chain chain' : List Int} {recs : List Record}
  {places : List RID} {headerNo : Int} {table : Relational.Table}

theorem Adds.placed (adds : Adds w w' pins opens fileName lf lf' recs)
    (stores : w.Stores fileName lf chain) :
    ∃ chain' places, w'.Stores fileName lf' chain' ∧
      (lf'.tuples chain').Perm (lf.tuples chain ++ recs) ∧
      lf.Places lf' lf.firstPage chain chain' places recs := by
  obtain ⟨chain', stores', first, appended⟩ := adds.stores stores
  obtain ⟨chain'', places, placed⟩ := adds.inserted.places stores.formed adds.nonempty
  have formed' := stores'.formed
  rw [first] at formed'
  have same := placed.formed.unique formed'
  subst same
  exact ⟨chain'', places, stores', appended.perm, placed⟩

theorem ListsTables.listed_iff (lists : ListsTables db lf chain) (proper : ProperName name) :
    (∃ rec ∈ lf.tuples chain, cString rec = name) ↔ db.describe name ≠ [] := by
  have found := lists.listed name proper
  have nonempty : (∃ rec ∈ lf.tuples chain, cString rec = name) ↔
      (lf.tuples chain).filter (fun rec => cString rec = name) ≠ [] := by
    rw [ne_eq, List.filter_eq_nil_iff]
    simp
  rw [nonempty, found]
  by_cases nothing : db.describe name = []
  · simp [nothing]
  · simp [nothing]

theorem ListsTables.put (lists : ListsTables db lf chain) (distinct : chain.Nodup)
    (placed : lf.Places lf' headerNo chain chain' places
      [(RelDesc.mk name table.descs.length).toRecord])
    (perm : (lf'.tuples chain').Perm
      (lf.tuples chain ++ [(RelDesc.mk name table.descs.length).toRecord]))
    (fresh : db.describe name = []) (user : UserName name)
    (own : ∀ desc ∈ table.descs, desc.relName = name) :
    ListsTables (db.put name table user own) lf' chain' := by
  have proper := user.1
  have named : cString (RelDesc.mk name table.descs.length).toRecord = name :=
    c_string_rel_record proper.terminated proper.short
  constructor
  · intro rec member
    rw [perm.mem_iff, List.mem_append, List.mem_singleton] at member
    rcases member with old | rfl
    · exact lists.sized rec old
    · exact RelDesc.to_record_length proper.short.le
  · intro other otherProper
    rw [Database.describe_put]
    by_cases here : other = name
    · subst here
      rw [if_pos rfl, if_neg table.described]
      apply placed.filter_new
      · intro rec member
        have absent : ¬∃ rec ∈ lf.tuples chain, cString rec = other := by
          rw [lists.listed_iff proper]
          exact not_not.mpr fresh
        exact decide_eq_false fun same => absent ⟨rec, member, same⟩
      · simpa using named
    · rw [if_neg here, ← lists.listed other otherProper]
      apply placed.filter_old distinct
      simpa [named] using fun same => here same.symm

theorem DescribesTables.put (describes : DescribesTables db lf chain) (distinct : chain.Nodup)
    (placed : lf.Places lf' headerNo chain chain' places (table.descs.map AttrDesc.toRecord))
    (perm : (lf'.tuples chain').Perm (lf.tuples chain ++ table.descs.map AttrDesc.toRecord))
    (storable : ∀ desc ∈ table.descs, desc.Storable) (fresh : db.describe name = [])
    (user : UserName name) (own : ∀ desc ∈ table.descs, desc.relName = name) :
    DescribesTables (db.put name table user own) lf' chain' := by
  have named : ∀ rec ∈ table.descs.map AttrDesc.toRecord, cString rec = name := by
    rw [List.forall_mem_map]
    intro desc member
    rw [c_string_attr_record (storable desc member).relTerminated (storable desc member).relShort,
      own desc member]
  constructor
  · intro rec member
    rw [perm.mem_iff, List.mem_append, List.mem_map] at member
    rcases member with old | ⟨desc, listed, rfl⟩
    · exact describes.sized rec old
    · exact AttrDesc.to_record_length (storable desc listed).relShort.le
        (storable desc listed).attrShort.le
  · intro other proper
    rw [Database.describe_put]
    unfold AttrCatalog.describe
    by_cases here : other = name
    · subst here
      have old := describes.described other proper
      rw [fresh] at old
      have nothing := List.filter_eq_nil_iff.mp (List.map_eq_nil_iff.mp old)
      have new : (lf'.tuples chain').filter (fun rec => cString rec = other) =
          table.descs.map AttrDesc.toRecord := by
        apply placed.filter_new
        · intro rec member
          simpa using nothing rec member
        · intro rec member
          exact decide_eq_true (named rec member)
      rw [if_pos rfl, new, List.map_map]
      conv_rhs => rw [← List.map_id table.descs]
      exact List.map_congr_left fun desc member => (storable desc member).of_record
    · rw [if_neg here, ← describes.described other proper]
      unfold AttrCatalog.describe
      rw [placed.filter_old distinct]
      intro rec member
      exact decide_eq_false fun same => here (same.symm.trans (named rec member))

theorem ListsTables.drop {rec : Record} (lists : ListsTables db lf chain)
    (removed : lf.Removed lf' headerNo chain rec) (distinct : chain.Nodup)
    (same : cString rec = name) (user : UserName name) (described : db.describe name ≠ []) :
    ListsTables (db.drop name) lf' chain := by
  have perm := removed.perm distinct
  constructor
  · intro other member
    exact lists.sized other (perm.mem_iff.mpr (List.mem_cons_of_mem rec member))
  · intro other proper
    rw [Database.describe_drop user]
    by_cases here : other = name
    · subst here
      have length := (perm.filter fun rec => cString rec = other).length_eq
      rw [lists.listed other proper, if_neg described, List.filter_cons_of_pos (by simpa using same),
        List.length_singleton, List.length_cons] at length
      rw [if_pos rfl, if_pos rfl]
      exact List.length_eq_zero_iff.mp (by omega)
    · rw [if_neg here, ← lists.listed other proper]
      apply removed.filter distinct
      exact decide_eq_false fun equal => here (equal.symm.trans same)

theorem DescribesTables.drop (describes : DescribesTables db lf chain)
    (drops : Drops w w' pins opens fileName name lf lf' chain)
    (gone : AttrCatalog.describe (lf'.tuples chain) name = []) (user : UserName name) :
    DescribesTables (db.drop name) lf' chain := by
  constructor
  · exact fun rec member => describes.sized rec (drops.subset rec member)
  · intro other proper
    rw [Database.describe_drop user]
    by_cases here : other = name
    · rw [if_pos here, here]
      exact gone
    · rw [if_neg here, ← describes.described other proper]
      unfold AttrCatalog.describe
      rw [drops.others]
      intro rec named
      exact decide_eq_false fun same => here (same.symm.trans named)

theorem describe_records {descs : List AttrDesc} (storable : ∀ desc ∈ descs, desc.Storable)
    (name : FileName) : AttrCatalog.describe (descs.map AttrDesc.toRecord) name =
      descs.filter fun desc => desc.relName = name := by
  unfold AttrCatalog.describe
  induction descs with
  | nil => rfl
  | cons desc descs ih =>
      obtain ⟨here, later⟩ := List.forall_mem_cons.mp storable
      have named := c_string_attr_record here.relTerminated here.relShort
      rw [List.map_cons, List.filter_cons, List.filter_cons, named]
      by_cases same : desc.relName = name
      · rw [if_pos (decide_eq_true same), if_pos (decide_eq_true same), List.map_cons,
          here.of_record, ih later]
      · rw [if_neg (by simpa using same), if_neg (by simpa using same), ih later]

theorem catalog_attrs_storable : ∀ desc ∈ relCatAttrs ++ attrCatAttrs, desc.Storable := by
  have checked : ∀ desc ∈ relCatAttrs ++ attrCatAttrs, 0 ∉ desc.relName ∧
      desc.relName.length < MAXNAME ∧ 0 ∉ desc.attrName ∧ desc.attrName.length < MAXNAME ∧
      ByteMemory.toInt desc.attrOffset = desc.attrOffset ∧
      ByteMemory.toInt desc.attrType = desc.attrType ∧
      ByteMemory.toInt desc.attrLen = desc.attrLen := by
    decide
  intro desc member
  obtain ⟨relTerminated, relShort, attrTerminated, attrShort, offset, type, len⟩ :=
    checked desc member
  exact ⟨relTerminated, relShort, attrTerminated, attrShort, offset, type, len⟩

theorem lists_empty {lf : LogicalFile} {chain : List Int}
    (tuples : lf.tuples chain = [relCatDesc.toRecord, attrCatDesc.toRecord]) :
    ListsTables Database.empty lf chain := by
  have relNamed : cString relCatDesc.toRecord = RELCATNAME := by decide
  have attrNamed : cString attrCatDesc.toRecord = ATTRCATNAME := by decide
  constructor
  · rw [tuples]
    decide
  · intro name _
    rw [tuples, List.filter_cons, List.filter_cons, relNamed, attrNamed]
    by_cases isRel : name = RELCATNAME
    · rw [isRel]
      rfl
    by_cases isAttr : name = ATTRCATNAME
    · rw [isAttr]
      rfl
    have nothing : Database.empty.describe name = [] :=
      Database.describe_nil_iff.mpr ⟨rfl, isRel, isAttr⟩
    rw [if_pos nothing, if_neg (by simpa using Ne.symm isRel),
      if_neg (by simpa using Ne.symm isAttr)]
    rfl

theorem describes_empty {lf : LogicalFile} {chain : List Int}
    (tuples : lf.tuples chain = (relCatAttrs ++ attrCatAttrs).map AttrDesc.toRecord) :
    DescribesTables Database.empty lf chain := by
  constructor
  · rw [tuples, List.forall_mem_map]
    intro desc member
    have storable := catalog_attrs_storable desc member
    exact AttrDesc.to_record_length storable.relShort.le storable.attrShort.le
  · intro name _
    rw [tuples, describe_records catalog_attrs_storable]
    by_cases isRel : name = RELCATNAME
    · rw [isRel]
      rfl
    by_cases isAttr : name = ATTRCATNAME
    · rw [isAttr]
      rfl
    rw [Database.describe_nil_iff.mpr ⟨rfl, isRel, isAttr⟩, List.filter_eq_nil_iff]
    have named : ∀ desc ∈ relCatAttrs ++ attrCatAttrs,
        desc.relName = RELCATNAME ∨ desc.relName = ATTRCATNAME := by decide
    intro desc member same
    rcases named desc member with relName | relName
    · exact isRel ((of_decide_eq_true same).symm.trans relName)
    · exact isAttr ((of_decide_eq_true same).symm.trans relName)

end World

section Definitions

variable {pins : List Pin} {opens : List FilePtr} {db : Database} {name : FileName}
  {attrs : List AttrInfo} {w w' : World}

theorem new_descs_storable (accepted : db.refusal name attrs = none)
    (creatable : Creatable attrs) :
    ∀ desc ∈ RelCatalog.attrDescs name 0 attrs, desc.Storable := by
  have short := (Database.refusal_none accepted).2.2.1
  apply attr_descs_storable short (fun attr member => (creatable.named attr member).2)
    creatable.lengths creatable.width
  intro attr member
  obtain ⟨type, _, code, _⟩ := creatable.type member
  exact ⟨type, code⟩

theorem World.Represents.created {relLf attrLf : LogicalFile} {relChain attrChain : List Int}
    (represents : w.Represents pins opens db) (relStores : w.Stores RELCATNAME relLf relChain)
    (lists : ListsTables db relLf relChain) (attrStores : w.Stores ATTRCATNAME attrLf attrChain)
    (describes : DescribesTables db attrLf attrChain) (terminated : 0 ∉ name)
    (accepted : db.refusal name attrs = none) (creatable : Creatable attrs) {w₁ : World}
    (described : Describes w w₁ pins opens name relLf attrLf attrs attrs) {status : Status}
    (creates : CreatesFile w₁ w' pins opens name status) :
    status = .OK ∧ w'.Represents pins opens (db.put name (newTable name attrs accepted creatable)
      (accepted_user terminated accepted) (new_table_own terminated)) := by
  obtain ⟨nonempty, _, short, fresh, _⟩ := Database.refusal_none accepted
  have user := accepted_user terminated accepted
  obtain ⟨w₀, relLf', attrLf', relAdds, attrAdds⟩ := described.adds
  obtain ⟨relChain', _, relStores', relPerm, relPlaced⟩ := relAdds.placed relStores
  have attrStores₀ := attrStores.elsewhere relAdds.logical (by decide)
  obtain ⟨attrChain', _, attrStores', attrPerm, attrPlaced⟩ := attrAdds.placed attrStores₀
  have relStores₁ := relStores'.elsewhere attrAdds.logical (by decide)
  have elsewhere : ∀ other, UserName other → w₁.logical other = w.logical other := by
    intro other ⟨_, notRel, notAttr⟩
    rw [attrAdds.logical, Function.update_of_ne notAttr, relAdds.logical,
      Function.update_of_ne notRel]
  have relDesc : RelCatalog.relDesc name attrs =
      RelDesc.mk name (newTable name attrs accepted creatable).descs.length := by
    have lengths := congrArg List.length (RelCatalog.attr_descs_lengths name 0 attrs)
    rw [List.length_map, List.length_map] at lengths
    unfold RelCatalog.relDesc newTable
    rw [Scanner.c_string_whole terminated, lengths]
  rw [relDesc] at relPerm relPlaced
  cases creates with
  | taken present _ _ =>
      rw [elsewhere name user] at present
      exact absurd (represents.absent name user (Database.describe_nil_iff.mp fresh).1) present
  | @created lf _ storage names logical first formed noRids =>
      refine ⟨rfl, storage, represents.owned, ?_, ?_, ?_, ?_, ?_⟩
      · intro file member
        rw [names file member, attrAdds.names file member, relAdds.names file member]
        exact represents.catalogsOpen file member
      · exact ⟨relLf', relChain', relStores₁.elsewhere logical user.2.1.symm,
          lists.put relStores.formed.nodup relPlaced relPerm fresh user (new_table_own terminated)⟩
      · exact ⟨attrLf', attrChain', attrStores'.elsewhere logical user.2.2.symm,
          describes.put attrStores.formed.nodup attrPlaced attrPerm
            (new_descs_storable accepted creatable) fresh user (new_table_own terminated)⟩
      · intro other table found
        by_cases here : other = name
        · subst here
          have new : newTable other attrs accepted creatable = table := by
            simpa [Database.put] using found
          refine ⟨lf, [2], ⟨?_, ?_⟩, ?_⟩
          · rw [logical, Function.update_self]
          · rw [first]
            exact formed
          · rw [← new, LogicalFile.tuples_nil_iff.mpr noRids]
            rfl
        · have there : db.table other = some table := by
            simpa [Database.put, Function.update_of_ne here] using found
          obtain ⟨lf', chain', stores, rows⟩ := represents.tables other table there
          have otherUser := db.user other table there
          refine ⟨lf', chain', ⟨?_, stores.formed⟩, rows⟩
          rw [logical, Function.update_of_ne here, elsewhere other otherUser]
          exact stores.logical
      · intro other otherUser missing
        by_cases here : other = name
        · subst here
          simp [Database.put] at missing
        · have absent : db.table other = none := by
            simpa [Database.put, Function.update_of_ne here] using missing
          rw [logical, Function.update_of_ne here, elsewhere other otherUser]
          exact represents.absent other otherUser absent

theorem create_rel_refines (mem : Uninit) (tmpRid : RID) (name : FileName)
    (attrs : List AttrInfo) :
    Refines pins opens (RelCatalog.createRel mem tmpRid name attrs)
      (Relational.createRel name attrs) where
  keeps := RelCatalog.create_rel_keeps mem tmpRid name attrs
  refines := by
    intro w db represents value db' defined
    obtain ⟨relLf, relChain, relStores, lists⟩ := represents.relCat
    obtain ⟨attrLf, attrChain, attrStores, describes⟩ := represents.attrCat
    unfold Relational.createRel at defined
    by_cases terminated : 0 ∉ name
    swap
    · rw [dif_neg terminated] at defined
      cases defined
    rw [dif_pos terminated] at defined
    have same : RelCatalog.refusal (relLf.tuples relChain) name attrs = db.refusal name attrs :=
      Database.refusal_eq fun nonempty short => lists.listed_iff ⟨nonempty, terminated, short⟩
    have creates := represents.storage.create_rel represents.owned relStores attrStores lists.sized
      terminated attrs mem tmpRid
    rw [same] at creates
    split at defined
    · rename_i status refused
      cases defined
      apply creates.mono
      rintro result w₁ (⟨answer, undisturbed⟩ | ⟨accepted, _⟩)
      · rw [refused] at answer
        cases answer
        exact ⟨rfl, represents.undisturbed undisturbed⟩
      · rw [refused] at accepted
        cases accepted
    · rename_i accepted
      split_ifs at defined with creatable
      cases defined
      apply creates.mono
      rintro result w₁ (⟨answer, _⟩ | ⟨_, done, rest, w₂, whole, described, ⟨_, _, attr, later,
        rfl, long⟩ | ⟨rfl, creates⟩⟩)
      · rw [accepted] at answer
        cases answer
      · have member : attr ∈ attrs := by
          rw [whole]
          simp
        exact absurd (creatable.named attr member).2 (Nat.not_lt.mpr long)
      · rw [List.append_nil] at whole
        subst whole
        exact represents.created relStores lists attrStores describes terminated accepted creatable
          described creates

theorem World.Represents.destroyed {relLf attrLf : LogicalFile} {relChain attrChain : List Int}
    (represents : w.Represents pins opens db) (relStores : w.Stores RELCATNAME relLf relChain)
    (lists : ListsTables db relLf relChain)
    (describes : DescribesTables db attrLf attrChain) (user : UserName name)
    {table : Relational.Table} (found : db.table name = some table) {status : Status}
    (destroys : DestroysRel w w' pins opens name relLf attrLf relChain attrChain status) :
    status = .OK ∧ w'.Represents pins opens (db.drop name) := by
  obtain ⟨proper, notRel, notAttr⟩ := user
  have described : db.describe name ≠ [] := by
    rw [Database.describe_table found]
    exact table.described
  have named : ∀ attr ∈ AttrCatalog.describe (attrLf.tuples attrChain) name,
      attr.attrName ≠ [] := by
    rw [describes.described name proper, Database.describe_table found]
    exact table.named
  cases destroys with
  | @unnamed _ done later attr whole nameless _ _ _ _ =>
      refine absurd nameless (named attr ?_)
      rw [whole]
      simp
  | unlisted _ _ _ missing _ =>
      rw [lists.listed name proper, if_neg described] at missing
      cases missing
  | @listed w₁ w₂ attrLf' relLf' rec _ _ drops gone takes same destroysFile =>
      have relStores₁ := relStores.elsewhere drops.logical (by decide)
      have attrStores₂ := drops.stores.elsewhere takes.logical (by decide)
      have elsewhere : ∀ other, UserName other → w₂.logical other = w.logical other := by
        intro other ⟨_, otherRel, otherAttr⟩
        rw [takes.logical, Function.update_of_ne otherRel, drops.logical,
          Function.update_of_ne otherAttr]
      have names : ∀ file ∈ opens, w₂.nameOf file = w.nameOf file := by
        intro file member
        rw [takes.names file member, drops.names file member]
      cases destroysFile with
      | opened inUse _ =>
          obtain ⟨file, member, used⟩ := inUse
          rw [names file member] at used
          rcases represents.catalogsOpen file member with catalog | catalog
          · rw [used] at catalog
            exact absurd (Option.some.inj catalog) notRel
          · rw [used] at catalog
            exact absurd (Option.some.inj catalog) notAttr
      | missing absent _ =>
          obtain ⟨lf, chain, stores, _⟩ := represents.tables name table found
          rw [elsewhere name ⟨proper, notRel, notAttr⟩, stores.logical] at absent
          cases absent
      | destroyed _ _ storage names' logical =>
          refine ⟨rfl, storage, represents.owned, ?_, ?_, ?_, ?_, ?_⟩
          · intro file member
            rw [names' file member, names file member]
            exact represents.catalogsOpen file member
          · exact ⟨relLf', relChain, takes.stores.elsewhere logical notRel.symm,
              lists.drop takes.removed relStores.formed.nodup same ⟨proper, notRel, notAttr⟩
                described⟩
          · exact ⟨attrLf', attrChain, attrStores₂.elsewhere logical notAttr.symm,
              describes.drop drops gone ⟨proper, notRel, notAttr⟩⟩
          · intro other table there
            have here : other ≠ name := by
              rintro rfl
              simp [Database.drop] at there
            have there' : db.table other = some table := by
              simpa [Database.drop, Function.update_of_ne here] using there
            obtain ⟨lf, chain, stores, rows⟩ := represents.tables other table there'
            refine ⟨lf, chain, ⟨?_, stores.formed⟩, rows⟩
            rw [logical, Function.update_of_ne here, elsewhere other (db.user other table there')]
            exact stores.logical
          · intro other otherUser missing
            by_cases here : other = name
            · rw [logical, here, Function.update_self]
            · have absent : db.table other = none := by
                simpa [Database.drop, Function.update_of_ne here] using missing
              rw [logical, Function.update_of_ne here, elsewhere other otherUser]
              exact represents.absent other otherUser absent

theorem destroy_rel_refines (mem : Uninit) (tmpRid : RID) (name : FileName) :
    Refines pins opens (RelCatalog.destroyRel mem tmpRid name) (Relational.destroyRel name) where
  keeps := RelCatalog.destroy_rel_keeps mem tmpRid name
  refines := by
    intro w db represents value db' defined
    obtain ⟨relLf, relChain, relStores, lists⟩ := represents.relCat
    obtain ⟨attrLf, attrChain, attrStores, describes⟩ := represents.attrCat
    unfold Relational.destroyRel at defined
    by_cases refused : name = [] ∨ name = RELCATNAME ∨ name = ATTRCATNAME
    · rw [if_pos refused] at defined
      cases defined
      unfold RelCatalog.destroyRel
      rw [if_pos refused]
      exact smoothly_pure ⟨rfl, represents⟩
    rw [if_neg refused] at defined
    obtain ⟨nonempty, notRel, notAttr⟩ := not_or.mp refused |>.imp_right not_or.mp
    by_cases proper : ProperName name
    swap
    · rw [if_neg proper] at defined
      cases defined
    rw [if_pos proper] at defined
    have user : UserName name := ⟨proper, notRel, notAttr⟩
    have same : RelCatalog.destroyRefusal (attrLf.tuples attrChain) name =
        if db.describe name = [] then some .RELNOTFOUND else none := by
      unfold RelCatalog.destroyRefusal
      rw [if_neg refused, describes.described name proper]
    apply (represents.storage.destroy_rel represents.owned relStores attrStores lists.sized
      describes.sized proper.terminated proper.short mem tmpRid).mono
    rintro result w' (⟨answer, undisturbed⟩ | ⟨accepted, destroys⟩)
    · rw [same] at answer
      split_ifs at answer with nothing
      cases answer
      rw [if_pos nothing] at defined
      cases defined
      exact ⟨rfl, represents.undisturbed undisturbed⟩
    · rw [same] at accepted
      split_ifs at accepted with described
      rw [if_neg described] at defined
      cases defined
      obtain ⟨table, found⟩ : ∃ table, db.table name = some table := by
        rw [← Option.ne_none_iff_exists']
        exact fun missing => described (Database.describe_nil_iff.mpr ⟨missing, notRel, notAttr⟩)
      exact represents.destroyed relStores lists describes user found destroys

end Definitions

end PrimitiveDB

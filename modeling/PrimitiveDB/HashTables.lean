import PrimitiveDB.LinkedChains
import PrimitiveDB.StorageState

/-!
# The hash tables and their chains

`bufHash.C` and the `OpenFileHashTbl` of `db.C` with the nodes of their chains. Both tables
have the same loops over different keys, so they are one definition here. `remove` follows a
chain with a second pointer one node behind and treats the head of the chain apart. The
chains of the other modules are what these tables represent, and a finite map is what both
of them are for.
-/

namespace PrimitiveDB

open LinkedChains

set_option autoImplicit false

structure HashTbl (Key Value : Type) where
  ht : List Nat
  store : Store (Key × Value)

namespace HashTbl

variable {Key Value : Type}

def new (HTSIZE : Nat) (malloc : Nat → Nat) : HashTbl Key Value :=
  { ht := List.replicate HTSIZE 0, store := .empty malloc }

def head (table : HashTbl Key Value) (index : Nat) : Except Fault Nat :=
  match table.ht[index]? with
  | some first => .ok first
  | none => .error .bounds

variable [DecidableEq Key]

/-- The loop of `insert` and `lookup`: what the first node with the key holds. -/
def walk (store : Store (Key × Value)) (key : Key) : Nat → Nat → Except Fault (Option Value)
  | 0, _ => .error .endless
  | fuel + 1, tmpBuc =>
      if tmpBuc = 0 then .ok none
      else do
        let node ← store.deref tmpBuc
        if node.entry.1 = key then pure (some node.entry.2) else walk store key fuel node.next

def insert (hash : Key → Nat) (table : HashTbl Key Value) (key : Key) (value : Value) :
    Except Fault (Status × HashTbl Key Value) := do
  let index := hash key
  let first ← table.head index
  match ← walk table.store key table.store.brk first with
  | some _ => pure (.HASHTBLERROR, table)
  | none =>
      let made := table.store.new { entry := (key, value), next := first }
      pure (.OK, { ht := table.ht.set index made.1, store := made.2 })

def lookup (hash : Key → Nat) (table : HashTbl Key Value) (key : Key) :
    Except Fault (Except Status Value) := do
  let first ← table.head (hash key)
  match ← walk table.store key table.store.brk first with
  | some value => pure (.ok value)
  | none => pure (.error .HASHNOTFOUND)

def unlink (table : HashTbl Key Value) (index : Nat) (key : Key) :
    Nat → Nat → Nat → Except Fault (Status × HashTbl Key Value)
  | 0, _, _ => .error .endless
  | fuel + 1, prevBuc, tmpBuc =>
      if tmpBuc = 0 then .ok (.HASHTBLERROR, table)
      else do
        let node ← table.store.deref tmpBuc
        if node.entry.1 = key then do
          let first ← table.head index
          if tmpBuc = first then
            pure (.OK, { ht := table.ht.set index node.next, store := table.store.free tmpBuc })
          else do
            let prev ← table.store.deref prevBuc
            pure (.OK, { table with
              store := (table.store.set prevBuc { prev with next := node.next }).free tmpBuc })
        else unlink table index key fuel tmpBuc node.next

def remove (hash : Key → Nat) (table : HashTbl Key Value) (key : Key) :
    Except Fault (Status × HashTbl Key Value) := do
  let first ← table.head (hash key)
  unlink table (hash key) key table.store.brk first first

end HashTbl

abbrev LinkedBufHashTbl := HashTbl (FilePtr × Int) Nat

namespace LinkedBufHashTbl

variable (hash : FilePtr × Int → Nat) (table : LinkedBufHashTbl)

def insert (file : FilePtr) (pageNo : Int) (frameNo : Nat) :
    Except Fault (Status × LinkedBufHashTbl) :=
  HashTbl.insert hash table (file, pageNo) frameNo

def lookup (file : FilePtr) (pageNo : Int) : Except Fault (Except Status Nat) :=
  HashTbl.lookup hash table (file, pageNo)

def remove (file : FilePtr) (pageNo : Int) : Except Fault (Status × LinkedBufHashTbl) :=
  HashTbl.remove hash table (file, pageNo)

end LinkedBufHashTbl

abbrev LinkedOpenFileHashTbl := HashTbl FileName FilePtr

namespace LinkedOpenFileHashTbl

variable (hash : FileName → Nat) (table : LinkedOpenFileHashTbl)

def insert (fileName : FileName) (file : FilePtr) :
    Except Fault (Status × LinkedOpenFileHashTbl) :=
  HashTbl.insert hash table fileName file

def find (fileName : FileName) : Except Fault (Except Status FilePtr) :=
  HashTbl.lookup hash table fileName

def erase (fileName : FileName) : Except Fault (Status × LinkedOpenFileHashTbl) :=
  HashTbl.remove hash table fileName

end LinkedOpenFileHashTbl

namespace HashTbl

variable {Key Value : Type} {table : HashTbl Key Value} {buckets : ChainedTable.Buckets Key Value}
  {cells : Nat → List (Cell (Key × Value))}

/-- The nodes of a table: one chain for each index, without a node in common. -/
structure Linked (table : HashTbl Key Value) (cells : Nat → List (Cell (Key × Value))) : Prop where
  formed : table.store.Formed
  chain : ∀ index first, table.ht[index]? = some first →
    Segment table.store first (cells index) 0
  outside : ∀ index, table.ht.length ≤ index → cells index = []
  distinct : ∀ index, ((cells index).map Cell.addr).Nodup
  apart : ∀ index other, index ≠ other →
    ∀ cell ∈ cells index, ∀ cell' ∈ cells other, cell.addr ≠ cell'.addr

/-- The table has the chains. -/
def Represents (table : HashTbl Key Value) (buckets : ChainedTable.Buckets Key Value) : Prop :=
  ∃ cells, table.Linked cells ∧ buckets = fun index => (cells index).map Cell.entry

theorem represents_new (HTSIZE : Nat) (malloc : Nat → Nat) :
    (new HTSIZE malloc : HashTbl Key Value).Represents ChainedTable.empty := by
  refine ⟨fun _ => [], ⟨Store.formed_empty malloc, ?_, fun _ _ => rfl, by simp, by simp⟩, rfl⟩
  intro index first found
  have null : first = 0 := by
    obtain ⟨_, rfl⟩ := List.getElem?_eq_some_iff.mp found
    simp [new]
  exact null

theorem Linked.chain_of_lt (linked : table.Linked cells) {index : Nat}
    (inside : index < table.ht.length) :
    table.head index = .ok table.ht[index] ∧ Segment table.store table.ht[index] (cells index) 0 := by
  have found : table.ht[index]? = some table.ht[index] := List.getElem?_eq_getElem inside
  refine ⟨?_, linked.chain index _ found⟩
  simp only [head, found]

theorem Linked.fuel (linked : table.Linked cells) {index : Nat}
    (inside : index < table.ht.length) : (cells index).length < table.store.brk :=
  (linked.chain_of_lt inside).2.length_lt linked.formed (linked.distinct index)

theorem Linked.live (linked : table.Linked cells) {index : Nat} {cell : Cell (Key × Value)}
    (member : cell ∈ cells index) : (table.store.node cell.addr).isSome := by
  by_cases inside : index < table.ht.length
  · exact (linked.chain_of_lt inside).2.live member
  · rw [linked.outside index (by omega)] at member
    cases member

section Walk

variable [DecidableEq Key] {store : Store (Key × Value)} {first middle : Nat} {key : Key}
  {chain : List (Cell (Key × Value))}

theorem walk_segment (segment : Segment store first chain 0) {fuel : Nat}
    (enough : chain.length < fuel) :
    walk store key fuel first = .ok (ChainedTable.chainFind key (chain.map Cell.entry)) := by
  induction chain generalizing first fuel with
  | nil =>
      obtain ⟨fuel, rfl⟩ := Nat.exists_eq_succ_of_ne_zero (Nat.ne_of_gt enough)
      obtain rfl : first = 0 := segment
      rfl
  | cons cell chain ih =>
      obtain ⟨fuel, rfl⟩ := Nat.exists_eq_succ_of_ne_zero (Nat.ne_of_gt (Nat.zero_lt_of_lt enough))
      obtain ⟨rfl, node, next, found, rest⟩ := segment
      rw [walk, if_neg node]
      simp only [Store.deref, found, List.map_cons, ChainedTable.chainFind]
      by_cases same : cell.entry.1 = key
      · simp [same, bind, Except.bind, pure, Except.pure]
      · have later := ih rest (Nat.lt_of_succ_lt_succ enough)
        simp [same, bind, Except.bind, later]

theorem unlink_passes {index : Nat} (segment : Segment table.store first chain middle)
    (others : ∀ cell ∈ chain, cell.entry.1 ≠ key) (fuel prevBuc : Nat) :
    unlink table index key (chain.length + fuel) prevBuc first =
      unlink table index key fuel (chain.foldl (fun _ cell => cell.addr) prevBuc) middle := by
  induction chain generalizing first prevBuc with
  | nil =>
      obtain rfl : first = middle := segment
      simp
  | cons cell chain ih =>
      obtain ⟨rfl, node, next, found, rest⟩ := segment
      rw [List.length_cons, Nat.add_right_comm, unlink, if_neg node]
      have later := ih rest (fun other member => others other (by simp [member])) cell.addr
      simp [Store.deref, found, others cell (by simp), bind, Except.bind, later]

end Walk

/-- What a call that changes the chains does to a table that has them. -/
inductive Follows (table : HashTbl Key Value) :
    Option (ChainedTable.Buckets Key Value) → Status × HashTbl Key Value → Prop where
  | refused : Follows table none (.HASHTBLERROR, table)
  | done {buckets' : ChainedTable.Buckets Key Value} {table' : HashTbl Key Value}
      (represents : table'.Represents buckets') (size : table'.ht.length = table.ht.length) :
      Follows table (some buckets') (.OK, table')

theorem Linked.replace (linked : table.Linked cells) {index first : Nat}
    {chain : List (Cell (Key × Value))} {store : Store (Key × Value)} (formed : store.Formed)
    (segment : Segment store first chain 0) (distinct : (chain.map Cell.addr).Nodup)
    (inside : index < table.ht.length)
    (apart : ∀ other, other ≠ index → ∀ cell ∈ cells other, ∀ cell' ∈ chain,
      cell.addr ≠ cell'.addr)
    (same : ∀ other, other ≠ index → ∀ cell ∈ cells other,
      store.node cell.addr = table.store.node cell.addr) :
    ({ ht := table.ht.set index first, store } : HashTbl Key Value).Linked
      (Function.update cells index chain) where
  formed := formed
  chain := by
    intro other found present
    by_cases here : other = index
    · subst here
      rw [List.getElem?_set_self inside] at present
      obtain rfl := Option.some.inj present
      rw [Function.update_self]
      exact segment
    · rw [List.getElem?_set_ne (Ne.symm here)] at present
      rw [Function.update_of_ne here]
      exact (linked.chain other found present).frame (same other here)
  outside := by
    intro other beyond
    rw [List.length_set] at beyond
    rw [Function.update_of_ne (by omega)]
    exact linked.outside other beyond
  distinct := by
    intro other
    by_cases here : other = index
    · subst here
      rw [Function.update_self]
      exact distinct
    · rw [Function.update_of_ne here]
      exact linked.distinct other
  apart := by
    intro left right different cell member cell' member'
    by_cases leftHere : left = index
    · subst leftHere
      rw [Function.update_self] at member
      rw [Function.update_of_ne (Ne.symm different)] at member'
      exact (apart right (Ne.symm different) cell' member' cell member).symm
    · rw [Function.update_of_ne leftHere] at member
      by_cases rightHere : right = index
      · subst rightHere
        rw [Function.update_self] at member'
        exact apart left leftHere cell member cell' member'
      · rw [Function.update_of_ne rightHere] at member'
        exact linked.apart left right different cell member cell' member'

theorem Linked.represents (linked : table.Linked cells) :
    table.Represents fun index => (cells index).map Cell.entry := ⟨cells, linked, rfl⟩

theorem update_entries (cells : Nat → List (Cell (Key × Value))) (index : Nat)
    (chain : List (Cell (Key × Value))) :
    (fun other => (Function.update cells index chain other).map Cell.entry) =
      Function.update (fun other => (cells other).map Cell.entry) index
        (chain.map Cell.entry) := by
  funext other
  by_cases here : other = index
  · subst here
    simp
  · simp [Function.update_of_ne here]

variable [DecidableEq Key] {hash : Key → Nat} {key : Key}

theorem Represents.lookup (represents : table.Represents buckets)
    (inside : hash key < table.ht.length) : table.lookup hash key =
      .ok ((ChainedTable.find hash buckets key).elim (.error .HASHNOTFOUND) .ok) := by
  obtain ⟨cells, linked, rfl⟩ := represents
  obtain ⟨read, segment⟩ := linked.chain_of_lt inside
  have walks : walk table.store key table.store.brk table.ht[hash key] =
      .ok (ChainedTable.chainFind key ((cells (hash key)).map Cell.entry)) :=
    walk_segment segment (linked.fuel inside)
  unfold HashTbl.lookup ChainedTable.find
  rw [read]
  simp only [bind, Except.bind, walks]
  cases ChainedTable.chainFind key ((cells (hash key)).map Cell.entry) <;> rfl

theorem Represents.insert (represents : table.Represents buckets)
    (inside : hash key < table.ht.length) (value : Value) :
    ∃ result, table.insert hash key value = .ok result ∧
      table.Follows (ChainedTable.insert hash buckets key value) result := by
  obtain ⟨cells, linked, rfl⟩ := represents
  obtain ⟨read, segment⟩ := linked.chain_of_lt inside
  have walks : walk table.store key table.store.brk table.ht[hash key] =
      .ok (ChainedTable.chainFind key ((cells (hash key)).map Cell.entry)) :=
    walk_segment segment (linked.fuel inside)
  unfold HashTbl.insert ChainedTable.insert ChainedTable.find
  simp only [bind, Except.bind, read, walks]
  rcases ChainedTable.chainFind key ((cells (hash key)).map Cell.entry) with _ | old
  · refine ⟨_, rfl, ?_⟩
    have fresh : ∀ index, ∀ cell ∈ cells index, cell.addr ≠ table.store.place := by
      intro index cell member same
      have live := linked.live member
      rw [same, linked.formed.place_fresh] at live
      cases live
    have frame : ∀ index, ∀ cell ∈ cells index, (table.store.new
        { entry := (key, value), next := table.ht[hash key] }).2.node cell.addr =
          table.store.node cell.addr :=
      fun index cell member => Store.node_new_of_ne (fresh index cell member) _
    have made : Segment (table.store.new { entry := (key, value), next := table.ht[hash key] }).2
        table.store.place ({ addr := table.store.place, entry := (key, value) } ::
          cells (hash key)) 0 :=
      ⟨rfl, linked.formed.place_ne_zero, _, Function.update_self _ _ _,
        segment.frame (frame (hash key))⟩
    have distinct : (({ addr := table.store.place, entry := (key, value) } ::
        cells (hash key)).map Cell.addr).Nodup := by
      rw [List.map_cons, List.nodup_cons]
      refine ⟨?_, linked.distinct (hash key)⟩
      intro member
      obtain ⟨cell, present, same⟩ := List.mem_map.mp member
      exact fresh (hash key) cell present same
    have linked' := linked.replace (linked.formed.new _) made distinct inside
      (by
        intro other different cell member cell' member'
        rcases List.mem_cons.mp member' with rfl | before
        · exact fresh other cell member
        · exact linked.apart other (hash key) different cell member cell' before)
      (fun other _ => frame other)
    have represents := linked'.represents
    rw [update_entries] at represents
    exact .done represents (by simp)
  · exact ⟨_, rfl, .refused⟩

theorem chain_remove_cells {chain : List (Cell (Key × Value))}
    (present : ¬∀ cell ∈ chain, cell.entry.1 ≠ key) :
    ∃ before cell after, chain = before ++ cell :: after ∧ cell.entry.1 = key ∧
      (∀ other ∈ before, other.entry.1 ≠ key) ∧
      ChainedTable.chainRemove key (chain.map Cell.entry) =
        some ((before ++ after).map Cell.entry) := by
  induction chain with
  | nil => simp at present
  | cons first chain ih =>
      by_cases same : first.entry.1 = key
      · exact ⟨[], first, chain, rfl, same, by simp, by simp [ChainedTable.chainRemove, same]⟩
      · have later : ¬∀ cell ∈ chain, cell.entry.1 ≠ key := by
          intro absent
          apply present
          intro cell member
          rcases List.mem_cons.mp member with rfl | rest
          · exact same
          · exact absent cell rest
        obtain ⟨before, cell, after, rfl, found, others, removed⟩ := ih later
        refine ⟨first :: before, cell, after, rfl, found, ?_, ?_⟩
        · intro other member
          rcases List.mem_cons.mp member with rfl | rest
          · exact same
          · exact others other rest
        · simp only [List.map_cons, ChainedTable.chainRemove, if_neg same, removed,
            Option.map_some, List.cons_append]

omit [DecidableEq Key] in
/-- Without one cell of a chain, the addresses are still distinct. -/
theorem Linked.without (linked : table.Linked cells) {index : Nat}
    {before after : List (Cell (Key × Value))} {cell : Cell (Key × Value)}
    (split : cells index = before ++ cell :: after) :
    ((before ++ after).map Cell.addr).Nodup ∧
      (∀ other ∈ before ++ after, other.addr ≠ cell.addr) ∧
      ∀ other, other ≠ index → ∀ cell' ∈ cells other, cell'.addr ≠ cell.addr ∧
        ∀ left ∈ before ++ after, cell'.addr ≠ left.addr := by
  have distinct := linked.distinct index
  rw [split, List.map_append, List.map_cons, List.nodup_middle, ← List.map_append,
    List.nodup_cons] at distinct
  refine ⟨distinct.2, ?_, ?_⟩
  · intro other member same
    exact distinct.1 (same ▸ List.mem_map_of_mem member)
  · intro other different cell' member
    have apart := linked.apart other index different cell' member
    rw [split] at apart
    constructor
    · exact apart cell (by simp)
    · intro left leftMember
      apply apart left
      rcases List.mem_append.mp leftMember with early | late <;> simp [*]

theorem Linked.unlink_head (linked : table.Linked cells) {index : Nat}
    (inside : index < table.ht.length) {cell : Cell (Key × Value)}
    {after : List (Cell (Key × Value))} (split : cells index = cell :: after)
    (found : cell.entry.1 = key) (fuel : Nat) :
    ∃ table', unlink table index key (fuel + 1) table.ht[index] table.ht[index] =
        .ok (.OK, table') ∧ table'.ht.length = table.ht.length ∧
      table'.Linked (Function.update cells index after) := by
  obtain ⟨read, segment⟩ := linked.chain_of_lt inside
  rw [split] at segment
  obtain ⟨here, node, next, stored, rest⟩ := segment
  have headed : cells index = [] ++ cell :: after := split
  obtain ⟨distinct, apart, others⟩ := linked.without headed
  refine ⟨_, ?_, List.length_set, linked.replace (linked.formed.free table.ht[index])
    (rest.frame ?_) distinct inside ?_ ?_⟩
  · rw [unlink, if_neg node]
    simp [Store.deref, stored, found, read, bind, Except.bind, pure, Except.pure]
  · intro other member
    rw [here]
    exact Store.node_free_of_ne (apart other member)
  · intro other different cell' member
    exact (others other different cell' member).2
  · intro other different cell' member
    rw [here]
    exact Store.node_free_of_ne (others other different cell' member).1

theorem Linked.unlink_inner (linked : table.Linked cells) {index : Nat}
    (inside : index < table.ht.length) {prev cell : Cell (Key × Value)}
    {front after : List (Cell (Key × Value))}
    (split : cells index = (front ++ [prev]) ++ cell :: after)
    (found : cell.entry.1 = key) (fuel : Nat) :
    ∃ table', unlink table index key (fuel + 1) prev.addr cell.addr =
        .ok (.OK, table') ∧ table'.ht.length = table.ht.length ∧
      table'.Linked (Function.update cells index ((front ++ [prev]) ++ after)) := by
  obtain ⟨read, segment⟩ := linked.chain_of_lt inside
  rw [split] at segment
  obtain ⟨distinct, apart, others⟩ := linked.without split
  obtain ⟨middle, left, rfl, node, next, stored, rest⟩ := segment_append_iff.mp segment
  have live : (table.store.node prev.addr).isSome := left.live (by simp)
  obtain ⟨place, _, rfl, _, next', stored', rfl⟩ := segment_append_iff.mp left
  -- the head of the chain is another node
  obtain ⟨headCell, headMember, headAddr⟩ := left.first_mem (by simp)
  have notHead : cell.addr ≠ table.ht[index] := by
    rw [headAddr]
    exact (apart headCell (List.mem_append_left after headMember)).symm
  have unlike : cell.addr ≠ prev.addr := (apart prev (by simp)).symm
  have frontApart : ∀ other ∈ front, other.addr ≠ prev.addr := by
    intro other member same
    rw [List.append_assoc, List.map_append] at distinct
    exact (List.nodup_append.mp distinct).2.2 other.addr (List.mem_map_of_mem member) prev.addr
      (by simp) same
  have afterApart : ∀ other ∈ after, other.addr ≠ prev.addr := by
    intro other member same
    rw [List.map_append] at distinct
    exact (List.nodup_append.mp distinct).2.2 prev.addr (by simp) other.addr
      (List.mem_map_of_mem member) same.symm
  have chain' : Segment ((table.store.set prev.addr { entry := prev.entry, next }).free cell.addr)
      table.ht[index] ((front ++ [prev]) ++ after) 0 := by
    apply segment_append_iff.mpr
    refine ⟨next, (left.retarget next frontApart).frame ?_, rest.frame ?_⟩
    · intro other member
      exact Store.node_free_of_ne (apart other (List.mem_append_left after member))
    · intro other member
      exact (Store.node_free_of_ne (apart other (List.mem_append_right _ member))).trans
        (Store.node_set_of_ne (afterApart other member) _)
  have linked' := linked.replace ((linked.formed.set { entry := prev.entry, next } live).free
    cell.addr) chain' distinct inside (fun other different cell' member =>
      (others other different cell' member).2) (by
    intro other different cell' member
    have away := others other different cell' member
    exact (Store.node_free_of_ne away.1).trans
      (Store.node_set_of_ne (away.2 prev (by simp)) _))
  rw [List.set_getElem_self] at linked'
  have removed : unlink table index key (fuel + 1) prev.addr cell.addr = .ok (.OK, { table with
      store := (table.store.set prev.addr { entry := prev.entry, next }).free cell.addr }) := by
    rw [unlink, if_neg node]
    simp [Store.deref, stored, stored', found, read, notHead, bind, Except.bind, pure, Except.pure]
  exact ⟨_, removed, rfl, linked'⟩

theorem Represents.remove (represents : table.Represents buckets)
    (inside : hash key < table.ht.length) :
    ∃ result, table.remove hash key = .ok result ∧
      table.Follows (ChainedTable.remove hash buckets key) result := by
  obtain ⟨cells, linked, rfl⟩ := represents
  obtain ⟨read, segment⟩ := linked.chain_of_lt inside
  have fuel := linked.fuel inside
  unfold HashTbl.remove ChainedTable.remove
  simp only [bind, Except.bind, read]
  by_cases absent : ∀ cell ∈ cells (hash key), cell.entry.1 ≠ key
  · have gone : ChainedTable.chainRemove key ((cells (hash key)).map Cell.entry) = none := by
      rw [ChainedTable.chain_remove_none_iff, ChainedTable.chain_find_none_iff, List.map_map]
      intro member
      obtain ⟨cell, present, same⟩ := List.mem_map.mp member
      exact absent cell present same
    obtain ⟨spare, enough⟩ := Nat.exists_eq_add_of_lt fuel
    rw [enough, Nat.add_assoc, unlink_passes segment absent, gone]
    exact ⟨_, rfl, .refused⟩
  · obtain ⟨before, cell, after, split, found, others, removed⟩ := chain_remove_cells absent
    have unlinked : ∃ table', unlink table (hash key) key table.store.brk table.ht[hash key]
        table.ht[hash key] = .ok (.OK, table') ∧ table'.ht.length = table.ht.length ∧
          table'.Linked (Function.update cells (hash key) (before ++ after)) := by
      rw [split, List.length_append, List.length_cons] at fuel
      obtain ⟨spare, enough⟩ := Nat.exists_eq_add_of_lt fuel
      have steps : table.store.brk = before.length + ((after.length + 1 + spare) + 1) := by omega
      rw [split] at segment
      obtain ⟨middle, left, right⟩ := segment_append_iff.mp segment
      rw [steps, unlink_passes left others, right.1]
      rcases List.eq_nil_or_concat before with rfl | ⟨front, prev, rfl⟩
      · have first : table.ht[hash key] = cell.addr := by
          rw [← right.1]
          exact left
        have headed := linked.unlink_head inside split found (after.length + 1 + spare)
        rw [first] at headed ⊢
        exact headed
      · rw [List.concat_eq_append] at split others ⊢
        rw [List.foldl_append]
        exact linked.unlink_inner inside split found (after.length + 1 + spare)
    obtain ⟨table', runs, size, linked'⟩ := unlinked
    rw [runs, removed]
    have represents := linked'.represents
    rw [update_entries] at represents
    exact ⟨_, rfl, .done represents size⟩

end HashTbl

section Chains

/-- A table with the chains of `BufHashTbl` does what the other modules let it do. -/
theorem buf_hash_tbl_follows {table : LinkedBufHashTbl} {chains : BufHashTbl}
    (represents : table.Represents chains.ht) (size : table.ht.length = chains.HTSIZE)
    (positive : 0 < chains.HTSIZE) (file : FilePtr) (pageNo : Int) :
    (∀ frameNo, ∃ result, LinkedBufHashTbl.insert chains.hash table file pageNo frameNo =
        .ok result ∧
        table.Follows ((chains.insert file pageNo frameNo).map BufHashTbl.ht) result) ∧
      LinkedBufHashTbl.lookup chains.hash table file pageNo =
        .ok ((chains.lookup file pageNo).elim (.error .HASHNOTFOUND) .ok) ∧
      ∃ result, LinkedBufHashTbl.remove chains.hash table file pageNo = .ok result ∧
        table.Follows ((chains.remove file pageNo).map BufHashTbl.ht) result := by
  have inside : chains.hash (file, pageNo) < table.ht.length := by
    have bounded := Int.emod_lt_of_pos ((file : Int) + pageNo)
      (Int.natCast_pos.mpr positive)
    have natural := Int.emod_nonneg ((file : Int) + pageNo) (Int.natCast_ne_zero.mpr
      (Nat.ne_of_gt positive))
    rw [size]
    unfold BufHashTbl.hash
    simp only
    omega
  have forget : ∀ outcome : Option (ChainedTable.Buckets (FilePtr × Int) Nat),
      (outcome.map fun ht => { chains with ht := ht }).map BufHashTbl.ht = outcome := by
    intro outcome
    cases outcome <;> rfl
  refine ⟨fun frameNo => ?_, represents.lookup inside, ?_⟩
  · rw [BufHashTbl.insert, forget]
    exact represents.insert inside frameNo
  · rw [BufHashTbl.remove, forget]
    exact represents.remove inside

theorem open_file_hash_tbl_follows {table : LinkedOpenFileHashTbl} {chains : OpenFileHashTbl}
    (represents : table.Represents chains.ht) (size : table.ht.length = 113)
    (fileName : FileName) :
    (∀ file, ∃ result, LinkedOpenFileHashTbl.insert OpenFileHashTbl.hash table fileName file =
        .ok result ∧
        table.Follows ((chains.insert fileName file).map OpenFileHashTbl.ht) result) ∧
      LinkedOpenFileHashTbl.find OpenFileHashTbl.hash table fileName =
        .ok ((chains.find fileName).elim (.error .HASHNOTFOUND) .ok) ∧
      ∃ result, LinkedOpenFileHashTbl.erase OpenFileHashTbl.hash table fileName = .ok result ∧
        table.Follows ((chains.erase fileName).map OpenFileHashTbl.ht) result := by
  have inside : OpenFileHashTbl.hash fileName < table.ht.length := by
    rw [size]
    exact Nat.mod_lt _ (by decide)
  have forget : ∀ outcome : Option (ChainedTable.Buckets FileName FilePtr),
      (outcome.map fun ht => ({ ht := ht } : OpenFileHashTbl)).map OpenFileHashTbl.ht =
        outcome := by
    intro outcome
    cases outcome <;> rfl
  refine ⟨fun file => ?_, represents.lookup inside, ?_⟩
  · rw [OpenFileHashTbl.insert, forget]
    exact represents.insert inside file
  · rw [OpenFileHashTbl.erase, forget]
    exact represents.remove inside

end Chains

inductive TableCall (Key Value : Type) where
  | insert (key : Key) (value : Value)
  | lookup (key : Key)
  | remove (key : Key)

inductive TableReply (Value : Type) where
  | status (status : Status)
  | found (result : Except Status Value)

structure TableMethods (Table Key Value : Type) where
  insert : Table → Key → Value → Except Fault (Status × Table)
  lookup : Table → Key → Except Fault (Except Status Value)
  remove : Table → Key → Except Fault (Status × Table)

def LinkedBufHashTbl.methods (hash : FilePtr × Int → Nat) :
    TableMethods LinkedBufHashTbl (FilePtr × Int) Nat where
  insert := fun table key frameNo => LinkedBufHashTbl.insert hash table key.1 key.2 frameNo
  lookup := fun table key => LinkedBufHashTbl.lookup hash table key.1 key.2
  remove := fun table key => LinkedBufHashTbl.remove hash table key.1 key.2

def LinkedOpenFileHashTbl.methods (hash : FileName → Nat) :
    TableMethods LinkedOpenFileHashTbl FileName FilePtr where
  insert := LinkedOpenFileHashTbl.insert hash
  lookup := LinkedOpenFileHashTbl.find hash
  remove := LinkedOpenFileHashTbl.erase hash

namespace TableMethods

variable {Table Key Value : Type} (methods : TableMethods Table Key Value)

def call (table : Table) : TableCall Key Value → Except Fault (TableReply Value × Table)
  | .insert key value => do
      let result ← methods.insert table key value
      pure (.status result.1, result.2)
  | .lookup key => do
      let result ← methods.lookup table key
      pure (.found result, table)
  | .remove key => do
      let result ← methods.remove table key
      pure (.status result.1, result.2)

/-- One call after the other. -/
def run (table : Table) : List (TableCall Key Value) → Except Fault (List (TableReply Value) × Table)
  | [] => .ok ([], table)
  | next :: calls => do
      let first ← methods.call table next
      let rest ← run first.2 calls
      pure (first.1 :: rest.1, rest.2)

end TableMethods

abbrev PartialMap (Key Value : Type) := Key → Option Value

namespace PartialMap

variable {Key Value : Type} [DecidableEq Key]

def call (map : PartialMap Key Value) :
    TableCall Key Value → TableReply Value × PartialMap Key Value
  | .insert key value =>
      if (map key).isSome then (.status .HASHTBLERROR, map)
      else (.status .OK, Function.update map key (some value))
  | .lookup key => (.found ((map key).elim (.error .HASHNOTFOUND) .ok), map)
  | .remove key =>
      if (map key).isSome then (.status .OK, Function.update map key none)
      else (.status .HASHTBLERROR, map)

def run (map : PartialMap Key Value) :
    List (TableCall Key Value) → List (TableReply Value) × PartialMap Key Value
  | [] => ([], map)
  | next :: calls =>
      let first := map.call next
      let rest := run first.2 calls
      (first.1 :: rest.1, rest.2)

end PartialMap

namespace HashTbl

variable {Key Value : Type} [DecidableEq Key]

def methods (hash : Key → Nat) : TableMethods (HashTbl Key Value) Key Value where
  insert := insert hash
  lookup := lookup hash
  remove := remove hash

def Binds (hash : Key → Nat) (table : HashTbl Key Value) (map : PartialMap Key Value) : Prop :=
  (∀ key, hash key < table.ht.length) ∧ ∃ buckets, table.Represents buckets ∧
    ChainedTable.DistinctKeys buckets ∧ map = ChainedTable.find hash buckets

variable {hash : Key → Nat} {table : HashTbl Key Value} {map : PartialMap Key Value}

theorem binds_new {HTSIZE : Nat} (inRange : ∀ key, hash key < HTSIZE) (malloc : Nat → Nat) :
    (new HTSIZE malloc : HashTbl Key Value).Binds hash fun _ => none := by
  refine ⟨?_, _, represents_new HTSIZE malloc, ChainedTable.distinct_keys_empty, rfl⟩
  simpa [new] using inRange

theorem Binds.call (binds : table.Binds hash map) (next : TableCall Key Value) :
    ∃ table', (methods hash).call table next = .ok ((map.call next).1, table') ∧
      table'.Binds hash (map.call next).2 := by
  obtain ⟨inside, buckets, represents, distinct, rfl⟩ := binds
  cases next with
  | insert key value =>
      obtain ⟨result, runs, follows⟩ := represents.insert (inside key) value
      have called : (methods hash).call table (.insert key value) =
          .ok (.status result.1, result.2) := by
        simp only [methods, TableMethods.call, runs]
        rfl
      rw [called, PartialMap.call]
      rcases outcome : ChainedTable.insert hash buckets key value with _ | buckets'
      · rw [outcome] at follows
        have present := (ChainedTable.insert_eq_none_iff value).mp outcome
        cases follows
        rw [if_pos present]
        exact ⟨table, rfl, inside, buckets, represents, distinct, rfl⟩
      · rw [outcome] at follows
        have absent : ¬(ChainedTable.find hash buckets key).isSome := by
          intro present
          rw [(ChainedTable.insert_eq_none_iff value).mpr present] at outcome
          cases outcome
        rw [if_neg absent]
        cases follows with
        | done represents' size =>
            refine ⟨_, rfl, fun other => size ▸ inside other, buckets', represents',
              ChainedTable.distinct_keys_insert distinct outcome, ?_⟩
            funext other
            simp only [ChainedTable.find_insert outcome, Function.update_apply]
  | lookup key =>
      have runs := represents.lookup (inside key)
      refine ⟨table, ?_, inside, buckets, represents, distinct, rfl⟩
      simp only [methods, TableMethods.call, runs]
      rfl
  | remove key =>
      obtain ⟨result, runs, follows⟩ := represents.remove (inside key)
      have called : (methods hash).call table (.remove key) =
          .ok (.status result.1, result.2) := by
        simp only [methods, TableMethods.call, runs]
        rfl
      rw [called, PartialMap.call]
      rcases outcome : ChainedTable.remove hash buckets key with _ | buckets'
      · rw [outcome] at follows
        have absent := ChainedTable.remove_eq_none_iff.mp outcome
        cases follows
        rw [absent]
        exact ⟨table, rfl, inside, buckets, represents, distinct, rfl⟩
      · rw [outcome] at follows
        have present : (ChainedTable.find hash buckets key).isSome := by
          rw [Option.isSome_iff_ne_none]
          intro absent
          rw [ChainedTable.remove_eq_none_iff.mpr absent] at outcome
          cases outcome
        rw [if_pos present]
        cases follows with
        | done represents' size =>
            refine ⟨_, rfl, fun other => size ▸ inside other, buckets', represents',
              ChainedTable.distinct_keys_remove distinct outcome, ?_⟩
            funext other
            simp only [ChainedTable.find_remove distinct outcome, Function.update_apply]

theorem Binds.run (binds : table.Binds hash map) (calls : List (TableCall Key Value)) :
    ∃ table', (methods hash).run table calls = .ok ((map.run calls).1, table') ∧
      table'.Binds hash (map.run calls).2 := by
  induction calls generalizing table map with
  | nil => exact ⟨table, rfl, binds⟩
  | cons next calls ih =>
      obtain ⟨table₁, first, binds₁⟩ := binds.call next
      obtain ⟨table', rest, binds'⟩ := ih binds₁
      refine ⟨table', ?_, binds'⟩
      simp only [TableMethods.run, first, bind, Except.bind, rest, PartialMap.run]
      rfl

theorem Binds.lookup (binds : table.Binds hash map) (key : Key) :
    table.lookup hash key = .ok ((map key).elim (.error .HASHNOTFOUND) .ok) := by
  obtain ⟨inside, buckets, represents, distinct, rfl⟩ := binds
  exact represents.lookup (inside key)

end HashTbl

/-- Whatever is called on a new table, whatever its hash function and its allocator do, each
call answers as on a partial map, and at the end the table binds the keys as the map does. -/
theorem hash_tables_are_finite_maps (HTSIZE : Nat) (malloc : Nat → Nat) :
    (∀ (hash : FilePtr × Int → Nat), (∀ key, hash key < HTSIZE) →
        ∀ calls : List (TableCall (FilePtr × Int) Nat), ∃ table,
          (LinkedBufHashTbl.methods hash).run (HashTbl.new HTSIZE malloc) calls =
              .ok ((PartialMap.run (fun _ => none) calls).1, table) ∧
            ∀ file pageNo, LinkedBufHashTbl.lookup hash table file pageNo =
              .ok (((PartialMap.run (fun _ => none) calls).2 (file, pageNo)).elim
                (.error .HASHNOTFOUND) .ok)) ∧
      ∀ (hash : FileName → Nat), (∀ fileName, hash fileName < HTSIZE) →
        ∀ calls : List (TableCall FileName FilePtr), ∃ table,
          (LinkedOpenFileHashTbl.methods hash).run (HashTbl.new HTSIZE malloc) calls =
              .ok ((PartialMap.run (fun _ => none) calls).1, table) ∧
            ∀ fileName, LinkedOpenFileHashTbl.find hash table fileName =
              .ok (((PartialMap.run (fun _ => none) calls).2 fileName).elim
                (.error .HASHNOTFOUND) .ok) := by
  constructor
  · intro hash inRange calls
    obtain ⟨table, runs, binds⟩ := (HashTbl.binds_new inRange malloc).run calls
    exact ⟨table, runs, fun file pageNo => binds.lookup (file, pageNo)⟩
  · intro hash inRange calls
    obtain ⟨table, runs, binds⟩ := (HashTbl.binds_new inRange malloc).run calls
    exact ⟨table, runs, fun fileName => binds.lookup fileName⟩

def collidingCalls : List (TableCall (FilePtr × Int) Nat) :=
  [.insert (1, 1) 5, .insert (1, 2) 6, .insert (1, 3) 7, .insert (1, 3) 8, .remove (1, 2),
   .remove (1, 2), .lookup (1, 1), .lookup (1, 2), .lookup (1, 3)]

theorem hash_tables_are_finite_maps_colliding :
    ∃ table, (LinkedBufHashTbl.methods fun _ => 0).run (HashTbl.new 1 fun _ => 0) collidingCalls =
      .ok ([.status .OK, .status .OK, .status .OK, .status .HASHTBLERROR, .status .OK,
        .status .HASHTBLERROR, .found (.ok 5), .found (.error .HASHNOTFOUND), .found (.ok 7)],
        table) := by
  obtain ⟨table, runs, _⟩ := (hash_tables_are_finite_maps 1 fun _ => 0).1 (fun _ => 0)
    (fun _ => Nat.one_pos) collidingCalls
  exact ⟨table, runs⟩

end PrimitiveDB

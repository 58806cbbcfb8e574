import Mathlib

/-!
# Chained hash tables

A bucket array with one linked chain per bucket, as both hash tables of the
repository implement it. The hash function is a parameter: `find` is a finite
map for every hash function, and `remove` needs only that no chain holds a key
twice, which `insert` maintains by refusing a key it finds.
-/

namespace PrimitiveDB.ChainedTable

set_option autoImplicit false

variable {Key Value : Type} [DecidableEq Key]

def chainFind (key : Key) : List (Key × Value) → Option Value
  | [] => none
  | node :: rest => if node.1 = key then some node.2 else chainFind key rest

/-- Unlink the first node with the key; `none` if the walk reaches the end. -/
def chainRemove (key : Key) : List (Key × Value) → Option (List (Key × Value))
  | [] => none
  | node :: rest =>
      if node.1 = key then some rest
      else (chainRemove key rest).map (node :: ·)

abbrev Buckets (Key Value : Type) := Nat → List (Key × Value)

def find (hash : Key → Nat) (buckets : Buckets Key Value) (key : Key) : Option Value :=
  chainFind key (buckets (hash key))

def insert (hash : Key → Nat) (buckets : Buckets Key Value) (key : Key) (value : Value) :
    Option (Buckets Key Value) :=
  match find hash buckets key with
  | some _ => none
  | none => some (Function.update buckets (hash key) ((key, value) :: buckets (hash key)))

def remove (hash : Key → Nat) (buckets : Buckets Key Value) (key : Key) :
    Option (Buckets Key Value) :=
  (chainRemove key (buckets (hash key))).map (Function.update buckets (hash key))

def empty : Buckets Key Value := fun _ => []

def DistinctKeys (buckets : Buckets Key Value) : Prop :=
  ∀ index, ((buckets index).map Prod.fst).Nodup

theorem chain_find_none_iff (key : Key) (chain : List (Key × Value)) :
    chainFind key chain = none ↔ key ∉ chain.map Prod.fst := by
  induction chain with
  | nil => simp [chainFind]
  | cons node rest ih =>
      by_cases same : node.1 = key
      · simp [chainFind, same]
      · simp [chainFind, same, ih, Ne.symm same]

theorem chain_remove_none_iff (key : Key) (chain : List (Key × Value)) :
    chainRemove key chain = none ↔ chainFind key chain = none := by
  induction chain with
  | nil => simp [chainRemove, chainFind]
  | cons node rest ih =>
      by_cases same : node.1 = key
      · simp [chainRemove, chainFind, same]
      · simp [chainRemove, chainFind, same, ih]

theorem chain_find_remove_other (key other : Key) (different : other ≠ key)
    (chain shorter : List (Key × Value)) (removed : chainRemove key chain = some shorter) :
    chainFind other shorter = chainFind other chain := by
  induction chain generalizing shorter with
  | nil => simp [chainRemove] at removed
  | cons node rest ih =>
      by_cases same : node.1 = key
      · simp only [chainRemove, if_pos same, Option.some.injEq] at removed
        subst removed
        simp [chainFind, same, Ne.symm different]
      · simp only [chainRemove, if_neg same, Option.map_eq_some_iff] at removed
        obtain ⟨tail, tailRemoved, rfl⟩ := removed
        simp only [chainFind, ih tail tailRemoved]

theorem chain_remove_keys (key : Key) (chain shorter : List (Key × Value))
    (removed : chainRemove key chain = some shorter) :
    shorter.map Prod.fst = (chain.map Prod.fst).erase key := by
  induction chain generalizing shorter with
  | nil => simp [chainRemove] at removed
  | cons node rest ih =>
      by_cases same : node.1 = key
      · simp only [chainRemove, if_pos same, Option.some.injEq] at removed
        subst removed
        simp [same]
      · simp only [chainRemove, if_neg same, Option.map_eq_some_iff] at removed
        obtain ⟨tail, tailRemoved, rfl⟩ := removed
        simp [ih tail tailRemoved, same]

section Table

variable {hash : Key → Nat} {buckets after : Buckets Key Value} {key : Key}

theorem find_empty (key : Key) : find hash (empty : Buckets Key Value) key = none := rfl

omit [DecidableEq Key] in
theorem distinct_keys_empty : DistinctKeys (empty : Buckets Key Value) := by
  intro index
  simp [empty]

theorem insert_eq_none_iff (value : Value) :
    insert hash buckets key value = none ↔ (find hash buckets key).isSome := by
  unfold insert
  cases find hash buckets key <;> simp

theorem insert_of_absent (value : Value) (absent : find hash buckets key = none) :
    insert hash buckets key value =
      some (Function.update buckets (hash key) ((key, value) :: buckets (hash key))) := by
  simp [insert, absent]

theorem find_insert {value : Value} (inserted : insert hash buckets key value = some after)
    (other : Key) :
    find hash after other = if other = key then some value else find hash buckets other := by
  unfold insert at inserted
  cases present : find hash buckets key with
  | some old => simp [present] at inserted
  | none =>
      simp only [present, Option.some.injEq] at inserted
      subst inserted
      by_cases bucket : hash other = hash key
      · by_cases same : other = key
        · simp [find, same, chainFind]
        · simp [find, bucket, chainFind, same, Ne.symm same]
      · have different : other ≠ key := fun same => bucket (congrArg hash same)
        simp [find, Function.update_of_ne bucket, different]

theorem distinct_keys_insert {value : Value} (distinct : DistinctKeys buckets)
    (inserted : insert hash buckets key value = some after) : DistinctKeys after := by
  unfold insert at inserted
  cases present : find hash buckets key with
  | some old => simp [present] at inserted
  | none =>
      simp only [present, Option.some.injEq] at inserted
      subst inserted
      intro index
      by_cases same : index = hash key
      · subst same
        simp only [Function.update_self, List.map_cons, List.nodup_cons]
        exact ⟨(chain_find_none_iff key _).mp present, distinct _⟩
      · simpa [Function.update_of_ne same] using distinct index

theorem remove_eq_none_iff :
    remove hash buckets key = none ↔ find hash buckets key = none := by
  simp only [remove, find, Option.map_eq_none_iff]
  exact chain_remove_none_iff key _

theorem find_remove (distinct : DistinctKeys buckets)
    (removed : remove hash buckets key = some after) (other : Key) :
    find hash after other = if other = key then none else find hash buckets other := by
  simp only [remove, Option.map_eq_some_iff] at removed
  obtain ⟨shorter, unlinked, rfl⟩ := removed
  by_cases same : other = key
  · subst same
    simp only [find, Function.update_self, if_true]
    rw [chain_find_none_iff, chain_remove_keys _ _ _ unlinked]
    exact (distinct _).not_mem_erase
  · rw [if_neg same]
    by_cases bucket : hash other = hash key
    · simp only [find, bucket, Function.update_self]
      exact chain_find_remove_other key other same _ _ unlinked
    · simp [find, Function.update_of_ne bucket]

theorem distinct_keys_remove (distinct : DistinctKeys buckets)
    (removed : remove hash buckets key = some after) : DistinctKeys after := by
  simp only [remove, Option.map_eq_some_iff] at removed
  obtain ⟨shorter, unlinked, rfl⟩ := removed
  intro index
  by_cases same : index = hash key
  · subst same
    simp only [Function.update_self]
    rw [chain_remove_keys _ _ _ unlinked]
    exact (distinct _).erase _
  · simpa [Function.update_of_ne same] using distinct index

end Table

end PrimitiveDB.ChainedTable

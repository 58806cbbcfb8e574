import Mathlib

/-!
# Linked chains

Nodes in a store of addresses, each with the address of the next one; the address zero is the
null pointer. A segment is the list of cells that a pointer leads through up to another
pointer. The rules say what writing, allocating and freeing one node does to segments.
-/

namespace PrimitiveDB.LinkedChains

set_option autoImplicit false

structure Node (Entry : Type) where
  entry : Entry
  next : Nat

structure Store (Entry : Type) where
  /-- The live nodes, by address. -/
  node : Nat → Option (Node Entry)
  /-- Addresses from here on have never been used. -/
  brk : Nat
  /-- The addresses the allocator would like to return next. -/
  malloc : Nat → Nat

inductive Fault where
  /-- the address of no live node is dereferenced -/
  | dangling
  /-- an array is read outside its bounds -/
  | bounds
  /-- a walk does not end -/
  | endless

variable {Entry : Type}

namespace Store

def empty (malloc : Nat → Nat) : Store Entry := { node := fun _ => none, brk := 1, malloc }

def deref (store : Store Entry) (addr : Nat) : Except Fault (Node Entry) :=
  match store.node addr with
  | some node => .ok node
  | none => .error .dangling

def set (store : Store Entry) (addr : Nat) (node : Node Entry) : Store Entry :=
  { store with node := Function.update store.node addr (some node) }

def free (store : Store Entry) (addr : Nat) : Store Entry :=
  { store with node := Function.update store.node addr none }

/-- Where the next node goes. The allocator has its will if the address is not in use. -/
def place (store : Store Entry) : Nat :=
  if store.malloc 0 ≠ 0 ∧ (store.node (store.malloc 0)).isNone then store.malloc 0 else store.brk

def new (store : Store Entry) (node : Node Entry) : Nat × Store Entry :=
  (store.place,
    { node := Function.update store.node store.place (some node)
      brk := max store.brk (store.place + 1)
      malloc := fun n => store.malloc (n + 1) })

/-- Live nodes lie below `brk`, and the null pointer does not point to one. -/
structure Formed (store : Store Entry) : Prop where
  brk : 0 < store.brk
  below : ∀ addr, (store.node addr).isSome → addr < store.brk

variable {store : Store Entry}

theorem node_set_of_ne {addr other : Nat} (different : other ≠ addr) (node : Node Entry) :
    (store.set addr node).node other = store.node other := Function.update_of_ne different _ _

theorem node_free_of_ne {addr other : Nat} (different : other ≠ addr) :
    (store.free addr).node other = store.node other := Function.update_of_ne different _ _

theorem node_new_of_ne {other : Nat} (different : other ≠ store.place) (node : Node Entry) :
    (store.new node).2.node other = store.node other := Function.update_of_ne different _ _

theorem formed_empty (malloc : Nat → Nat) : (empty malloc : Store Entry).Formed where
  brk := Nat.one_pos
  below := by simp [empty]

theorem Formed.set (formed : store.Formed) {addr : Nat} (node : Node Entry)
    (live : (store.node addr).isSome) : (store.set addr node).Formed where
  brk := formed.brk
  below := by
    intro other
    by_cases same : other = addr
    · subst same
      exact fun _ => formed.below other live
    · simpa [Store.set, Function.update_of_ne same] using formed.below other

theorem Formed.free (formed : store.Formed) (addr : Nat) : (store.free addr).Formed where
  brk := formed.brk
  below := by
    intro other live
    by_cases same : other = addr
    · simp [Store.free, same] at live
    · exact formed.below other (by simpa [Store.free, Function.update_of_ne same] using live)

theorem Formed.place_fresh (formed : store.Formed) : store.node store.place = none := by
  unfold place
  split
  · next wanted => exact Option.isNone_iff_eq_none.mp wanted.2
  · by_contra live
    exact absurd (formed.below _ (Option.isSome_iff_ne_none.mpr live)) (lt_irrefl _)

theorem Formed.place_ne_zero (formed : store.Formed) : store.place ≠ 0 := by
  unfold place
  split
  · next wanted => exact wanted.1
  · exact Nat.ne_of_gt formed.brk

theorem Formed.new (formed : store.Formed) (node : Node Entry) : (store.new node).2.Formed where
  brk := lt_of_lt_of_le formed.brk (le_max_left _ _)
  below := by
    intro other live
    by_cases same : other = store.place
    · subst same
      exact lt_of_lt_of_le (Nat.lt_succ_self _) (le_max_right _ _)
    · have before : (store.node other).isSome := by
        simpa [Store.new, Function.update_of_ne same] using live
      exact lt_of_lt_of_le (formed.below other before) (le_max_left _ _)

end Store

structure Cell (Entry : Type) where
  addr : Nat
  entry : Entry

/-- The pointer `first` leads through the cells to `last`. -/
def Segment (store : Store Entry) : Nat → List (Cell Entry) → Nat → Prop
  | first, [], last => first = last
  | first, cell :: rest, last =>
      first = cell.addr ∧ first ≠ 0 ∧
        ∃ next, store.node first = some { entry := cell.entry, next } ∧
          Segment store next rest last

section Segment

variable {store store' : Store Entry} {first last : Nat} {cells front back : List (Cell Entry)}
  {cell : Cell Entry}

theorem segment_append_iff : Segment store first (front ++ back) last ↔
    ∃ middle, Segment store first front middle ∧ Segment store middle back last := by
  induction front generalizing first with
  | nil => simp [Segment]
  | cons cell front ih =>
      simp only [List.cons_append, Segment, ih]
      constructor
      · rintro ⟨here, node, next, found, middle, left, right⟩
        exact ⟨middle, ⟨here, node, next, found, left⟩, right⟩
      · rintro ⟨middle, ⟨here, node, next, found, left⟩, right⟩
        exact ⟨here, node, next, found, middle, left, right⟩

theorem Segment.frame (segment : Segment store first cells last)
    (same : ∀ cell ∈ cells, store'.node cell.addr = store.node cell.addr) :
    Segment store' first cells last := by
  induction cells generalizing first with
  | nil => exact segment
  | cons cell cells ih =>
      obtain ⟨rfl, node, next, found, rest⟩ := segment
      refine ⟨rfl, node, next, ?_, ih rest fun other member => same other (by simp [member])⟩
      rw [same cell (by simp), found]

theorem Segment.live (segment : Segment store first cells last) (member : cell ∈ cells) :
    (store.node cell.addr).isSome := by
  induction cells generalizing first with
  | nil => cases member
  | cons here cells ih =>
      obtain ⟨rfl, _, next, found, rest⟩ := segment
      rcases List.mem_cons.mp member with rfl | later
      · rw [found]
        rfl
      · exact ih rest later

theorem Segment.first_mem (segment : Segment store first cells last) (nonempty : cells ≠ []) :
    ∃ cell ∈ cells, first = cell.addr := by
  cases cells with
  | nil => exact absurd rfl nonempty
  | cons cell cells => exact ⟨cell, by simp, segment.1⟩

/-- Writing a node changes where a segment that ends with it leads to. -/
theorem Segment.retarget (segment : Segment store first (front ++ [cell]) last) (target : Nat)
    (apart : ∀ other ∈ front, other.addr ≠ cell.addr) :
    Segment (store.set cell.addr { entry := cell.entry, next := target }) first
      (front ++ [cell]) target := by
  obtain ⟨middle, left, rfl, node, _⟩ := segment_append_iff.mp segment
  apply segment_append_iff.mpr
  refine ⟨cell.addr, left.frame ?_, rfl, node, target, ?_, rfl⟩
  · intro other member
    exact Store.node_set_of_ne (apart other member) _
  · exact Function.update_self _ _ _

/-- The cells of a chain are distinct nodes below `brk`, so there are less than `brk`. -/
theorem Segment.length_lt (segment : Segment store first cells last) (formed : store.Formed)
    (distinct : (cells.map Cell.addr).Nodup) : cells.length < store.brk := by
  have inside : cells.map Cell.addr ⊆ (List.range store.brk).erase 0 := by
    intro addr member
    obtain ⟨cell, present, rfl⟩ := List.mem_map.mp member
    rw [List.nodup_range.mem_erase_iff, List.mem_range]
    refine ⟨?_, formed.below _ (segment.live present)⟩
    clear distinct member
    induction cells generalizing first with
    | nil => cases present
    | cons here cells ih =>
        obtain ⟨rfl, node, next, _, rest⟩ := segment
        rcases List.mem_cons.mp present with rfl | later
        · exact node
        · exact ih rest later
  have count := (List.subperm_of_subset distinct inside).length_le
  rw [List.length_map, List.length_erase_of_mem (List.mem_range.mpr formed.brk),
    List.length_range] at count
  exact lt_of_le_of_lt count (Nat.sub_lt formed.brk Nat.one_pos)

end Segment

end PrimitiveDB.LinkedChains

import Mathlib.Data.List.Basic
import Mathlib.Logic.Function.Iterate

/-!
# Merging several sorted lists

Each step takes the first item of one of the lists: of the first list whose first item is not
above that of any other. The items are compared with a test that may call two of them equal, so
what comes out is described by a finer relation: it says which of two items is to come first,
the test decides it between two lists, and every list is in its order already.
-/

namespace PrimitiveDB

namespace KWayMerge

set_option autoImplicit false

variable {α : Type}

section Steps

-- above x y: of the two, y has to come first
variable (above : α → α → Bool)

/-- The first item of list number `index` against the least so far. -/
def better (index : Nat) (least : Option (Nat × α)) (item : α) : Option (Nat × α) :=
  match least with
  | none => some (index, item)
  | some (other, best) => if above best item then some (index, item) else some (other, best)

def smallest : Nat → Option (Nat × α) → List (List α) → Option (Nat × α)
  | _, least, [] => least
  | index, least, [] :: lists => smallest (index + 1) least lists
  | index, least, (item :: _) :: lists =>
      smallest (index + 1) (better above index least item) lists

def step (lists : List (List α)) : Option (α × List (List α)) :=
  (smallest above 0 none lists).map fun chosen =>
    (chosen.2, lists.modify chosen.1 List.tail)

def stepped (lists : List (List α)) : List (List α) := ((step above lists).map Prod.snd).getD lists

def taken : Nat → List (List α) → List α
  | 0, _ => []
  | count + 1, lists =>
      match step above lists with
      | none => []
      | some (item, rest) => item :: taken count rest

def merged (lists : List (List α)) : List α := taken above lists.flatten.length lists

end Steps

section Order

variable {above : α → α → Bool} {before : α → α → Prop} {lists front rest : List (List α)}

/-- The lists are in order, and the test tells which of two items of different lists comes
first. -/
structure Ready (above : α → α → Bool) (before : α → α → Prop) (lists : List (List α)) :
    Prop where
  sorted : ∀ list ∈ lists, list.Pairwise before
  across : lists.Pairwise fun left right => ∀ x ∈ left, ∀ y ∈ right,
    (above x y = false → before x y) ∧ (above x y = true → before y x)

/-- The choice among the lists: nothing if all are empty, or the first item of one of them,
which comes before the first items of the others. -/
def Least (before : α → α → Prop) (lists : List (List α)) (chosen : Option (Nat × α)) : Prop :=
  match chosen with
  | none => ∀ list ∈ lists, list = []
  | some (index, item) => ∃ front tail back, lists = front ++ (item :: tail) :: back ∧
      front.length = index ∧
      ∀ list ∈ front ++ back, ∀ y later, list = y :: later → before item y

theorem Ready.earlier (ready : Ready above before (front ++ rest)) : Ready above before front :=
  ⟨fun list member => ready.sorted list (List.mem_append_left _ member),
    (List.pairwise_append.mp ready.across).1⟩

theorem Least.skip {chosen : Option (Nat × α)} (least : Least before lists chosen) :
    Least before (lists ++ [[]]) chosen := by
  cases chosen with
  | none =>
      intro list member
      rcases List.mem_append.mp member with earlier | last
      · exact least list earlier
      · exact List.mem_singleton.mp last
  | some chosen =>
      obtain ⟨index, item⟩ := chosen
      obtain ⟨front, tail, back, rfl, length, first⟩ := least
      refine ⟨front, tail, back ++ [[]], by simp, length, ?_⟩
      intro list member y later same
      rw [← List.append_assoc] at member
      rcases List.mem_append.mp member with earlier | last
      · exact first list earlier y later same
      · rw [List.mem_singleton.mp last] at same
        cases same

/-- One more list, and the choice between its first item and the least so far. -/
theorem Least.better (trans : ∀ x y z, before x y → before y z → before x z)
    {chosen : Option (Nat × α)} {item : α} {tail : List α} (least : Least before lists chosen)
    (ready : Ready above before (lists ++ [item :: tail])) :
    Least before (lists ++ [item :: tail]) (better above lists.length chosen item) := by
  cases chosen with
  | none =>
      refine ⟨lists, tail, [], rfl, rfl, ?_⟩
      intro list member y later same
      rw [List.append_nil] at member
      rw [least list member] at same
      cases same
  | some chosen =>
      obtain ⟨index, best⟩ := chosen
      obtain ⟨front, bestTail, back, rfl, length, first⟩ := least
      have decided := (List.pairwise_append.mp ready.across).2.2 (best :: bestTail) (by simp)
        (item :: tail) List.mem_cons_self best List.mem_cons_self item List.mem_cons_self
      simp only [KWayMerge.better]
      cases larger : above best item with
      | true =>
          rw [if_pos rfl]
          refine ⟨_, tail, [], rfl, rfl, ?_⟩
          intro list member y later same
          have here := decided.2 larger
          simp only [List.append_nil, List.mem_append, List.mem_cons] at member
          rcases member with earlier | rfl | later'
          · exact trans _ _ _ here (first list (List.mem_append_left _ earlier) y later same)
          · cases same
            exact here
          · exact trans _ _ _ here (first list (List.mem_append_right _ later') y later same)
      | false =>
          rw [if_neg (by simp)]
          refine ⟨front, bestTail, back ++ [item :: tail], by simp, length, ?_⟩
          intro list member y later same
          rw [← List.append_assoc] at member
          rcases List.mem_append.mp member with earlier | last
          · exact first list earlier y later same
          · rw [List.mem_singleton.mp last] at same
            cases same
            exact decided.1 larger

theorem smallest_least (trans : ∀ x y z, before x y → before y z → before x z)
    {chosen : Option (Nat × α)} (least : Least before front chosen)
    (ready : Ready above before (front ++ rest)) :
    Least before (front ++ rest) (smallest above front.length chosen rest) := by
  induction rest generalizing front chosen with
  | nil =>
      rw [List.append_nil]
      exact least
  | cons list rest ih =>
      have joined : front ++ list :: rest = (front ++ [list]) ++ rest := by simp
      have length : front.length + 1 = (front ++ [list]).length := by simp
      rw [joined] at ready ⊢
      cases list with
      | nil =>
          rw [smallest, length]
          exact ih least.skip ready
      | cons item tail =>
          rw [smallest, length]
          exact ih (least.better trans ready.earlier) ready

theorem chosen_least (trans : ∀ x y z, before x y → before y z → before x z)
    (ready : Ready above before lists) : Least before lists (smallest above 0 none lists) := by
  have nothing : Least before [] none := by
    intro list member
    cases member
  have least := smallest_least trans nothing (show Ready above before ([] ++ lists) from ready)
  exact least

/-- A step takes an item that comes before everything that is left. -/
theorem step_some (trans : ∀ x y z, before x y → before y z → before x z)
    (ready : Ready above before lists) {item : α} (stepped : step above lists = some (item, rest)) :
    ∃ front tail back, lists = front ++ (item :: tail) :: back ∧ rest = front ++ tail :: back ∧
      ∀ y ∈ rest.flatten, before item y := by
  have least := chosen_least trans ready
  unfold step at stepped
  cases chosen : smallest above 0 none lists with
  | none =>
      rw [chosen] at stepped
      cases stepped
  | some choice =>
      obtain ⟨index, best⟩ := choice
      rw [chosen] at stepped least
      obtain ⟨front, tail, back, rfl, rfl, first⟩ := least
      cases stepped
      have shorter : (front ++ (best :: tail) :: back).modify front.length List.tail =
          front ++ tail :: back := by
        rw [List.modify_eq_take_drop, List.take_left, List.drop_left]
        rfl
      refine ⟨front, tail, back, rfl, shorter, ?_⟩
      intro y member
      rw [shorter] at member
      obtain ⟨list, listed, inside⟩ := List.mem_flatten.mp member
      have others : list ∈ front ++ back → before best y := by
        intro other
        have sorted := ready.sorted list (by
          simp only [List.mem_append, List.mem_cons] at other ⊢
          tauto)
        cases list with
        | nil => cases inside
        | cons head later =>
            have here := first (head :: later) other head later rfl
            rcases List.mem_cons.mp inside with rfl | behind
            · exact here
            · exact trans _ _ _ here ((List.pairwise_cons.mp sorted).1 y behind)
      simp only [List.mem_append, List.mem_cons] at listed
      rcases listed with earlier | rfl | later
      · exact others (List.mem_append_left _ earlier)
      · have sorted := ready.sorted (best :: list) (by simp)
        exact (List.pairwise_cons.mp sorted).1 y inside
      · exact others (List.mem_append_right _ later)

theorem smallest_first (trans : ∀ x y z, before x y → before y z → before x z)
    (ready : Ready above before lists) {index : Nat} {item : α}
    (chosen : smallest above 0 none lists = some (index, item)) :
    ∃ tail, lists[index]? = some (item :: tail) := by
  have least := chosen_least trans ready
  rw [chosen] at least
  obtain ⟨front, tail, back, rfl, rfl, _⟩ := least
  exact ⟨tail, by simp⟩

theorem step_none (trans : ∀ x y z, before x y → before y z → before x z)
    (ready : Ready above before lists) (stopped : step above lists = none) :
    lists.flatten = [] := by
  have least := chosen_least trans ready
  unfold step at stopped
  cases chosen : smallest above 0 none lists with
  | none =>
      rw [chosen] at least
      exact List.flatten_eq_nil_iff.mpr least
  | some choice =>
      rw [chosen] at stopped
      cases stopped

theorem Ready.shorter {front back : List (List α)} {item : α} {tail : List α}
    (ready : Ready above before (front ++ (item :: tail) :: back)) :
    Ready above before (front ++ tail :: back) := by
  constructor
  · intro list member
    simp only [List.mem_append, List.mem_cons] at member
    rcases member with earlier | rfl | later
    · exact ready.sorted list (by simp [earlier])
    · exact (List.pairwise_cons.mp (ready.sorted (item :: list) (by simp))).2
    · exact ready.sorted list (by simp [later])
  · obtain ⟨fronts, backs, between⟩ := List.pairwise_append.mp ready.across
    obtain ⟨first, behind⟩ := List.pairwise_cons.mp backs
    apply List.pairwise_append.mpr
    refine ⟨fronts, List.pairwise_cons.mpr ⟨fun right member x inside => ?_, behind⟩, ?_⟩
    · exact first right member x (List.mem_cons_of_mem _ inside)
    · intro left member right listed x here y inside
      rcases List.mem_cons.mp listed with rfl | later
      · exact between left member (item :: right) List.mem_cons_self x here y
          (List.mem_cons_of_mem _ inside)
      · exact between left member right (List.mem_cons_of_mem _ later) x here y inside

end Order

section Merge

variable {above : α → α → Bool} {before : α → α → Prop} {lists rest : List (List α)} {item : α}

theorem flatten_shorter (item : α) (front back : List (List α)) (tail : List α) :
    (front ++ (item :: tail) :: back).flatten.Perm (item :: (front ++ tail :: back).flatten) := by
  simp only [List.flatten_append, List.flatten_cons, List.cons_append]
  exact List.perm_middle

theorem empty_ready (count : Nat) : Ready above before (List.replicate count []) := by
  constructor
  · intro list member
    rw [List.eq_of_mem_replicate member]
    exact List.Pairwise.nil
  · rw [List.pairwise_replicate]
    exact .inr fun x none_ => absurd none_ List.not_mem_nil

theorem empty_merged (count : Nat) : merged above (List.replicate count []) = [] := by
  unfold merged
  rw [List.flatten_replicate_nil]
  rfl

variable (trans : ∀ x y z, before x y → before y z → before x z)

include trans

theorem merged_nil (ready : Ready above before lists) (stopped : step above lists = none) :
    merged above lists = [] := by
  unfold merged
  rw [step_none trans ready stopped]
  rfl

theorem merged_cons (ready : Ready above before lists)
    (stepped : step above lists = some (item, rest)) :
    merged above lists = item :: merged above rest := by
  obtain ⟨front, tail, back, rfl, rfl, _⟩ := step_some trans ready stepped
  unfold merged
  rw [(flatten_shorter item front back tail).length_eq, List.length_cons, taken, stepped]

theorem Ready.stepped (ready : Ready above before lists) : Ready above before (stepped above lists) := by
  unfold KWayMerge.stepped
  cases next : step above lists with
  | none => exact ready
  | some chosen =>
      obtain ⟨item, rest⟩ := chosen
      obtain ⟨front, tail, back, rfl, rfl, _⟩ := step_some trans ready next
      exact ready.shorter

theorem merged_stepped (ready : Ready above before lists) :
    merged above (stepped above lists) = (merged above lists).tail := by
  unfold stepped
  cases next : step above lists with
  | none =>
      simp only [Option.map_none, Option.getD_none, merged_nil trans ready next]
      rfl
  | some chosen =>
      rw [merged_cons trans ready next]
      rfl

theorem merged_iterate (ready : Ready above before lists) (count : Nat) :
    merged above ((stepped above)^[count] lists) = (merged above lists).drop count := by
  induction count generalizing lists with
  | zero => rfl
  | succ count ih =>
      rw [Function.iterate_succ_apply, ih (ready.stepped trans), merged_stepped trans ready,
        List.drop_tail]

theorem Ready.iterate (ready : Ready above before lists) (count : Nat) :
    Ready above before ((KWayMerge.stepped above)^[count] lists) := by
  induction count generalizing lists with
  | zero => exact ready
  | succ count ih => exact ih (ready.stepped trans)

theorem merged_sorts (ready : Ready above before lists) :
    (merged above lists).Perm lists.flatten ∧ (merged above lists).Pairwise before := by
  induction length : lists.flatten.length generalizing lists with
  | zero =>
      have empty : lists.flatten = [] := List.length_eq_zero_iff.mp length
      have nothing : merged above lists = [] := by
        unfold merged
        rw [length]
        rfl
      rw [nothing, empty]
      exact ⟨List.Perm.nil, List.Pairwise.nil⟩
  | succ count ih =>
      cases stepped : step above lists with
      | none =>
          rw [step_none trans ready stepped] at length
          cases length
      | some chosen =>
          obtain ⟨item, rest⟩ := chosen
          rw [merged_cons trans ready stepped]
          obtain ⟨front, tail, back, rfl, rfl, first⟩ := step_some trans ready stepped
          have shorter := flatten_shorter item front back tail
          rw [shorter.length_eq, List.length_cons] at length
          obtain ⟨perm, sorted⟩ := ih ready.shorter (Nat.succ.inj length)
          refine ⟨(perm.cons item).trans shorter.symm, List.pairwise_cons.mpr ⟨?_, sorted⟩⟩
          intro y member
          exact first y (perm.mem_iff.mp member)

end Merge

end KWayMerge

end PrimitiveDB

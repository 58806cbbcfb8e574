import Mathlib.Data.List.Sublists
import Mathlib.Data.List.Sort

/-!
# Loops that read what they write

A loop works off the items that lie in front of it in a state. Every item that it works off
changes the state, and what it leaves there may lie in front of it in turn. Such a loop comes
to an end after exactly the items that it had in front of it at first if and only if nothing
that it has left ever lies in front of it.
-/

namespace PrimitiveDB

set_option autoImplicit false

/-- What lies in front of a place in a state, and what working off an item does to the
state. Nothing that lies in front of a place is ever taken away. -/
structure FeedingLoop (State Place Item : Type) where
  ahead : State → Place → List (Place × Item)
  absorb : State → Item → Option State
  resumes : ∀ {state place place' item rest}, ahead state place = (place', item) :: rest →
    ahead state place' = rest
  grows : ∀ {state state' item}, absorb state item = some state' →
    ∀ place, (ahead state place).Sublist (ahead state' place)

namespace FeedingLoop

variable {State Place Item : Type} (loop : FeedingLoop State Place Item)

/-- The loop runs to its end and works off these items on the way. -/
inductive Runs : State → Place → List Item → State → Prop
  | stop {state : State} {place : Place} (done : loop.ahead state place = []) :
      Runs state place [] state
  | step {state state' final : State} {place place' : Place} {item : Item}
      {rest : List (Place × Item)} {items : List Item}
      (next : loop.ahead state place = (place', item) :: rest)
      (absorbed : loop.absorb state item = some state')
      (later : Runs state' place' items final) : Runs state place (item :: items) final

def absorbAll : State → List Item → Option State
  | state, [] => some state
  | state, item :: items => (loop.absorb state item).bind fun state' => absorbAll state' items

def placeAfter (place : Place) (done : List (Place × Item)) : Place :=
  (done.getLast?.map Prod.fst).getD place

/-- However many items have been worked off, what lies in front of the loop is what is left
of the items it had in front of it at first. -/
def Quiet (state : State) (place : Place) : Prop :=
  ∀ done rest, loop.ahead state place = done ++ rest →
    ∃ state', loop.absorbAll state (done.map Prod.snd) = some state' ∧
      loop.ahead state' (placeAfter place done) = rest

variable {loop} {state final : State} {place : Place} {items : List Item}

theorem place_after_cons (place : Place) (next : Place × Item) (done : List (Place × Item)) :
    placeAfter place (next :: done) = placeAfter next.1 done := by
  unfold placeAfter
  cases done with
  | nil => rfl
  | cons second done => rw [List.getLast?_cons_cons, List.getLast?_cons]; rfl

/-- A loop that comes to an end has worked off at least what it had in front of it. -/
theorem Runs.at_least (run : loop.Runs state place items final) :
    (loop.ahead state place).length ≤ items.length := by
  induction run with
  | stop done =>
      rw [done]
      exact Nat.le_refl 0
  | @step _ _ _ _ place' _ _ _ next absorbed later ih =>
      have kept := (loop.grows absorbed place').length_le
      rw [loop.resumes next] at kept
      rw [next, List.length_cons, List.length_cons]
      omega

/-- Places with the same in front of them are as good as each other. -/
theorem Runs.of_ahead_eq {place' : Place} (run : loop.Runs state place items final)
    (same : loop.ahead state place' = loop.ahead state place) :
    loop.Runs state place' items final := by
  cases run with
  | stop done => exact .stop (same.trans done)
  | step next absorbed later => exact .step (same.trans next) absorbed later

theorem Runs.unique {items' : List Item} {final' : State}
    (run : loop.Runs state place items final) (run' : loop.Runs state place items' final') :
    items = items' ∧ final = final' := by
  induction run generalizing items' with
  | stop done =>
      cases run' with
      | stop _ => exact ⟨rfl, rfl⟩
      | step next absorbed later =>
          rw [done] at next
          cases next
  | step next absorbed later ih =>
      cases run' with
      | stop done =>
          rw [done] at next
          cases next
      | step next' absorbed' later' =>
          rw [next] at next'
          cases next'
          rw [absorbed] at absorbed'
          cases absorbed'
          obtain ⟨sameItems, sameFinal⟩ := ih later'
          exact ⟨by rw [sameItems], sameFinal⟩

/-- A loop that has worked off no more items than it had in front of it at first. -/
theorem Runs.quiet (run : loop.Runs state place items final)
    (exactly : items.length = (loop.ahead state place).length) : loop.Quiet state place := by
  induction run with
  | stop done =>
      intro front rest split
      rw [done] at split
      obtain ⟨rfl, rfl⟩ := List.append_eq_nil_iff.mp split.symm
      exact ⟨_, rfl, done⟩
  | @step state state' final place place' item before items next absorbed later ih =>
      have kept := loop.grows absorbed place'
      rw [loop.resumes next] at kept
      have enough := later.at_least
      rw [next, List.length_cons, List.length_cons] at exactly
      -- all that was left is still there, and there is no room for more
      have same : before = loop.ahead state' place' :=
        kept.eq_of_length_le (by omega)
      have quiet := ih (by rw [← same]; omega)
      intro front rest split
      cases front with
      | nil => exact ⟨state, rfl, by rw [← List.nil_append rest, ← split]; rfl⟩
      | cons first front =>
          rw [next, List.cons_append, List.cons.injEq] at split
          obtain ⟨rfl, split⟩ := split
          rw [same] at split
          obtain ⟨state'', absorbedAll, ahead⟩ := quiet front rest split
          refine ⟨state'', ?_, ?_⟩
          · rw [List.map_cons, absorbAll, absorbed, Option.bind_some, absorbedAll]
          · rw [place_after_cons]
            exact ahead

/-- A loop that never finds anything of its own works off what it had in front of it. -/
theorem Quiet.runs (quiet : loop.Quiet state place) :
    ∃ final, loop.Runs state place ((loop.ahead state place).map Prod.snd) final := by
  generalize listed : loop.ahead state place = todo
  induction todo generalizing state place with
  | nil => exact ⟨state, .stop listed⟩
  | cons next todo ih =>
      obtain ⟨state', absorbedAll, ahead⟩ := quiet [next] todo listed
      have absorbed : loop.absorb state next.2 = some state' := by
        simpa [absorbAll] using absorbedAll
      have later : loop.Quiet state' next.1 := by
        intro done rest split
        have whole : loop.ahead state place = (next :: done) ++ rest := by
          rw [listed, List.cons_append, ← split]
          exact congrArg _ ahead.symm
        obtain ⟨state'', absorbedAll', ahead'⟩ := quiet (next :: done) rest whole
        rw [List.map_cons, absorbAll, absorbed, Option.bind_some] at absorbedAll'
        rw [place_after_cons] at ahead'
        exact ⟨state'', absorbedAll', ahead'⟩
      obtain ⟨final, run⟩ := ih later ahead
      exact ⟨final, .step listed absorbed run⟩

end FeedingLoop

section Ordered

variable {α κ : Type} [LinearOrder κ] {key : α → κ}

/-- In an ordered list, what comes behind an entry of the part behind some bound is the rest
of that part. -/
theorem filter_behind {list front rest : List α} {entry : α} {bound : κ}
    (ordered : list.Pairwise fun left right => key left < key right)
    (split : list.filter (fun other => bound < key other) = front ++ entry :: rest) :
    list.filter (fun other => key entry < key other) = rest := by
  have orderedPart := ordered.filter fun other => bound < key other
  rw [split] at orderedPart
  have beyond : bound < key entry := by
    have member : entry ∈ list.filter fun other => bound < key other := by
      rw [split]
      simp
    simpa using (List.mem_filter.mp member).2
  have again : list.filter (fun other => key entry < key other) =
      (list.filter fun other => bound < key other).filter
        fun other => key entry < key other := by
    rw [List.filter_filter]
    apply List.filter_congr
    intro other _
    simp only [← Bool.decide_and, decide_eq_decide]
    exact ⟨fun above => ⟨above, beyond.trans above⟩, fun both => both.1⟩
  obtain ⟨_, tail, across⟩ := List.pairwise_append.mp orderedPart
  have before : front.filter (fun other => key entry < key other) = [] := by
    apply List.filter_eq_nil_iff.mpr
    intro other member above
    exact lt_asymm (across other member entry (by simp)) (by simpa using above)
  have after : rest.filter (fun other => key entry < key other) = rest := by
    apply List.filter_eq_self.mpr
    intro other member
    simpa using (List.pairwise_cons.mp tail).1 other member
  rw [again, split, List.filter_append, before, List.nil_append, List.filter_cons_of_neg, after]
  simp

/-- An ordered list is part of every ordered list that has its entries. -/
theorem ordered_sublist {left right : List α}
    (orderedLeft : left.Pairwise fun first second => key first < key second)
    (orderedRight : right.Pairwise fun first second => key first < key second)
    (subset : left ⊆ right) : left.Sublist right := by
  have distinct : left.Nodup := by
    apply orderedLeft.imp
    rintro first second below rfl
    exact lt_irrefl _ below
  have antisymmetric : Std.Antisymm fun first second => key first < key second :=
    ⟨fun _ _ below above => absurd below (lt_asymm above)⟩
  exact List.sublist_of_subperm_of_pairwise (List.subperm_of_subset distinct subset) orderedLeft
    orderedRight

end Ordered

/-- The first entry of a concatenation stands behind lists that are empty. -/
theorem flat_map_eq_cons {α β : Type} {part : α → List β} {list : List α} {first : β}
    {rest : List β} (split : list.flatMap part = first :: rest) :
    ∃ before entry after more, list = before ++ entry :: after ∧ part entry = first :: more ∧
      rest = more ++ after.flatMap part := by
  induction list with
  | nil => cases split
  | cons entry list ih =>
      rw [List.flatMap_cons] at split
      cases here : part entry with
      | nil =>
          rw [here] at split
          obtain ⟨before, found, after, more, rfl, parts⟩ := ih split
          exact ⟨entry :: before, found, after, more, rfl, parts⟩
      | cons head more =>
          rw [here, List.cons_append, List.cons.injEq] at split
          obtain ⟨rfl, rfl⟩ := split
          exact ⟨[], entry, list, more, rfl, here, rfl⟩

end PrimitiveDB

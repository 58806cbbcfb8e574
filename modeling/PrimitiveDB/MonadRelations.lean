import Mathlib

/-!
# Relations between monads

A relation between the programs of two monads that returning and sequencing keep. A program that
is written for every monad and only calls related functions then has related runs, whatever the
two monads are.
-/

namespace PrimitiveDB

set_option autoImplicit false

variable {m n : Type → Type} [Monad m] [Monad n]

structure MonadRelation (m n : Type → Type) [Monad m] [Monad n] where
  rel : {α : Type} → m α → n α → Prop
  rel_pure : ∀ {α : Type} (value : α), rel (pure value) (pure value)
  rel_bind : ∀ {α β : Type} {first : m α} {first' : n α} {next : α → m β} {next' : α → n β},
    rel first first' → (∀ value, rel (next value) (next' value)) →
      rel (first >>= next) (first' >>= next')

namespace MonadRelation

variable {α β ε : Type} (relation : MonadRelation m n)

theorem rel_map [LawfulMonad m] [LawfulMonad n] {call : m α} {call' : n α} (change : α → β)
    (same : relation.rel call call') : relation.rel (change <$> call) (change <$> call') := by
  rw [← bind_pure_comp, ← bind_pure_comp]
  exact relation.rel_bind same fun value => relation.rel_pure (change value)

def withExceptions (ε : Type) : MonadRelation (ExceptT ε m) (ExceptT ε n) where
  rel first first' := relation.rel first.run first'.run
  rel_pure value := relation.rel_pure (Except.ok value)
  rel_bind := by
    intro α β first first' next next' related later
    apply relation.rel_bind related
    intro result
    cases result with
    | ok value => exact later value
    | error error => exact relation.rel_pure _

theorem rel_mk (result : Except ε α) :
    (relation.withExceptions ε).rel (ExceptT.mk (pure result)) (ExceptT.mk (pure result)) :=
  relation.rel_pure result

theorem rel_lift [LawfulMonad m] [LawfulMonad n] {call : m α} {call' : n α}
    (same : relation.rel call call') :
    (relation.withExceptions ε).rel (ExceptT.lift call) (ExceptT.lift call') :=
  relation.rel_map Except.ok same

def withState (σ : Type) : MonadRelation (StateT σ m) (StateT σ n) where
  rel first first' := ∀ s, relation.rel (first s) (first' s)
  rel_pure value s := relation.rel_pure (value, s)
  rel_bind related later s := relation.rel_bind (related s) fun ends => later ends.1 ends.2

def forgetting (σ : Type) (m : Type → Type) [Monad m] [LawfulMonad m] :
    MonadRelation (StateT σ m) m where
  rel call call' := ∀ s, Prod.fst <$> call s = call'
  rel_pure value s := map_pure Prod.fst (value, s)
  rel_bind := by
    intro α β first first' next next' related later s
    calc Prod.fst <$> (first s >>= fun ends => next ends.1 ends.2)
      _ = first s >>= fun ends => Prod.fst <$> next ends.1 ends.2 := map_bind _ _ _
      _ = first s >>= fun ends => next' ends.1 :=
        bind_congr fun ends => later ends.1 ends.2
      _ = (Prod.fst <$> first s) >>= next' := (bind_map_left _ _ _).symm
      _ = first' >>= next' := by rw [related s]

end MonadRelation

end PrimitiveDB

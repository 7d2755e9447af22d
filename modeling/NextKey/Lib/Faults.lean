import Mathlib.Tactic.Lemma
import Mathlib.Tactic.TypeStar

/-!
# Programs whose operations may fail

A program is a sequence of operations on a state. Each of them is done, or is refused and leaves the
state as it is, or the process stops before it; what becomes of an operation is given by its name. A
property that every operation keeps holds wherever the process stops (`Preserves`).
-/

namespace Faults

universe u

variable {ι σ : Type*} {α β : Type u}

/-- What becomes of an operation. -/
inductive Fate where
  | done
  | refused
  | stop
  deriving DecidableEq

/-- A program over the operations `ι`: its result, unless the process stops, and the state it leaves. -/
def Program (ι σ : Type*) (α : Type u) := (ι → Fate) → σ → Option α × σ

namespace Program

/-- The operation `op`, whose result is `failed` when it is refused. -/
def perform (op : ι) (effect : σ → α × σ) (failed : α) : Program ι σ α := fun fate s =>
  match fate op with
  | .done => let (a, s) := effect s; (some a, s)
  | .refused => (some failed, s)
  | .stop => (none, s)

protected def pure (a : α) : Program ι σ α := fun _ s => (some a, s)

protected def bind (p : Program ι σ α) (f : α → Program ι σ β) : Program ι σ β := fun fate s =>
  match p fate s with
  | (some a, s) => f a fate s
  | (none, s) => (none, s)

instance : Monad (Program ι σ) where
  pure := Program.pure
  bind := Program.bind

variable {fate : ι → Fate} {s : σ} {op : ι} {effect : σ → α × σ} {failed : α}

/-- A result, without an operation. -/
@[simp] lemma pure_apply {a : α} : (pure a : Program ι σ α) fate s = (some a, s) := rfl

/-- A program that goes on. -/
lemma bind_some {p : Program ι σ α} {f : α → Program ι σ β} {a s'} (h : p fate s = (some a, s')) :
    (p >>= f) fate s = f a fate s' := by
  change Program.bind p f fate s = _
  rw [Program.bind, h]

/-- A program that has stopped. -/
lemma bind_none {p : Program ι σ α} {f : α → Program ι σ β} {s'} (h : p fate s = (none, s')) :
    (p >>= f) fate s = (none, s') := by
  change Program.bind p f fate s = _
  rw [Program.bind, h]

/-- An operation that is done. -/
lemma perform_done (h : fate op = .done) :
    perform op effect failed fate s = (some (effect s).1, (effect s).2) := by
  rw [perform, h]

/-- One that is refused. -/
lemma perform_refused (h : fate op = .refused) :
    perform op effect failed fate s = (some failed, s) := by
  rw [perform, h]

/-- One before which the program stops. -/
lemma perform_stop (h : fate op = .stop) : perform op effect failed fate s = (none, s) := by
  rw [perform, h]

/-- Wherever the process stops, the program has kept the property. -/
def Preserves (Inv : σ → Prop) (p : Program ι σ α) : Prop :=
  ∀ ⦃fate s⦄, Inv s → Inv (p fate s).2

variable {Inv : σ → Prop}

/-- A result changes nothing. -/
lemma Preserves.pure (a : α) : Preserves Inv (pure a : Program ι σ α) := fun _ _ h => h

/-- One program after the other. -/
lemma Preserves.bind {p : Program ι σ α} {f : α → Program ι σ β} (hp : Preserves Inv p)
    (hf : ∀ a, Preserves Inv (f a)) : Preserves Inv (p >>= f) := by
  intro fate s h
  have hs := @hp fate s h
  cases hrun : p fate s with
  | mk result s' =>
    rw [hrun] at hs
    cases result with
    | some a =>
      rw [bind_some hrun]
      exact hf a hs
    | none =>
      rw [bind_none hrun]
      exact hs

/-- An operation whose effect keeps the invariant. -/
lemma Preserves.perform (h : ∀ ⦃s⦄, Inv s → Inv (effect s).2) :
    Preserves Inv (perform op effect failed) := by
  intro fate s hs
  unfold Program.perform
  split
  · exact h hs
  · exact hs
  · exact hs

/-- Either way. -/
lemma Preserves.ite {c : Prop} [Decidable c] {p q : Program ι σ α} (hp : Preserves Inv p)
    (hq : Preserves Inv q) : Preserves Inv (if c then p else q) := by
  split
  · exact hp
  · exact hq

end Program

end Faults
